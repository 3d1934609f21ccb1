import XmlToJson.Json.Reader
import XmlToJson.Proofs.JsonGrammar

/-!
# Reading what the grammar allows

The reader accepts more than the strict grammar, and less: it opens a bounded number of levels and
reads whole numbers up to a number of digits.  Within these bounds (`Value.Readable`) it reads every
text of the grammar as the value that the text stands for, wherever the text stands
(`readValue_of_spells`), so a text that is JSON is read as what it says (`ofJson_of_isJson`).

## Strategy

The proof follows the grammar, with one lemma for each way to read something and the text behind it
kept general.

* **What follows.**  A number goes on as long as digits come, so a value that stands among others is
  read only if nothing behind it goes on with it.  `Ends` says that of a text; spaces, commas and
  closing brackets end everything.
* **Spaces.**  A value is read up to its last character, and where it stands among others the spaces
  behind it are left.  Reading goes on from the first character that is no space (`mark?_append`),
  so they make no difference.
* **Strings and scalars.**  A character is read in each way in which it can be written
  (`readText_append`), and two code units of a pair make the character (`charOfPair_units`).  A
  literal begins with a digit or with a minus and a digit, so with no word (`readWord?_of_literal`).
* **Arrays and objects.**  Opening one takes a level, and `Value.Readable` of the items is what is
  left (`Readable.items`, `Readable.members`).  An object of members with different keys has just
  these (`Object.ofMembers_of_nodup`), so nothing is replaced while it is read.
-/

namespace XmlToJson

namespace JsonReader

open JsonGrammar

variable {levels : Nat} {text spaces front inner chars following opening done rest : List Char}
  {c : Char}

/-! ## Spaces -/

theorem isSpace_of_mem (h : IsSpaces spaces) (hc : c ∈ spaces) : isSpace c = true := by
  rcases h c hc with rfl | rfl | rfl | rfl <;> rfl

theorem skipSpaces_append (h : IsSpaces spaces) (text : List Char) :
    skipSpaces (spaces ++ text) = skipSpaces text :=
  List.dropWhile_append_of_pos fun _ hc => isSpace_of_mem h hc

theorem skipSpaces_cons (hc : isSpace c = false) (text : List Char) :
    skipSpaces (c :: text) = c :: text :=
  List.dropWhile_cons_of_neg (by simp [hc])

theorem mark?_eq (h : skipSpaces text = c :: rest) :
    ∃ shorter, mark? text = some ⟨c, rest, shorter⟩ := by
  have hle : (skipSpaces text).length ≤ text.length := (List.dropWhile_sublist _).length_le
  rw [h, List.length_cons] at hle
  refine ⟨hle, ?_⟩
  unfold mark?
  split
  · next hnone => simp [hnone] at h
  · next found behind hfound =>
      obtain ⟨rfl, rfl⟩ := List.cons.inj (hfound.symm.trans h)
      rfl

/-- Whether nothing that was read goes on with a text: it is at its end, or begins with a space, a
comma or a bracket that closes something. -/
def Ends (text : List Char) : Prop :=
  ∀ c ∈ text.head?, isSpace c = true ∨ c ∈ [',', ']', '\x7d']

theorem ends_nil : Ends [] := by
  simp [Ends]

theorem ends_cons (hc : c ∈ [',', ']', '\x7d']) : Ends (c :: text) := by
  intro d hd
  obtain rfl := Option.some.inj hd
  exact .inr hc

theorem Ends.append (hspaces : IsSpaces spaces) (h : Ends text) : Ends (spaces ++ text) := by
  cases spaces with
  | nil => exact h
  | cons c rest =>
      intro d hd
      obtain rfl := Option.some.inj hd
      exact .inl (isSpace_of_mem hspaces List.mem_cons_self)

theorem Ends.stops (h : Ends text) : Numeral.Literal.Stops text := by
  intro c hc
  rcases h c hc with hspace | hmark
  · simp only [isSpace, Bool.or_eq_true, beq_iff_eq] at hspace
    rcases hspace with ((rfl | rfl) | rfl) | rfl <;> decide
  · simp only [List.mem_cons, List.not_mem_nil, or_false] at hmark
    rcases hmark with rfl | rfl | rfl <;> decide

/-! ## Strings -/

theorem codeUnit?_of_spells {code : Nat} {digits : List Char} (h : SpellsUnit code digits) :
    ∃ a b c d, digits = [a, b, c, d] ∧ codeUnit? a b c d = some code := by
  obtain @⟨first, second, third, fourth, a, b, c, d, ha, hb, hc, hd⟩ := h
  have hfirst := (digitChars_facts first a ha).1
  have hsecond := (digitChars_facts second b hb).1
  have hthird := (digitChars_facts third c hc).1
  have hfourth := (digitChars_facts fourth d hd).1
  exact ⟨a, b, c, d, rfl, by simp [codeUnit?, hfirst, hsecond, hthird, hfourth]⟩

theorem shortEscape?_of_mem {mark : Char} (h : (mark, c) ∈ shortEscapes) :
    shortEscape? mark = some c ∧ mark ≠ 'u' := by
  have hall : ∀ entry ∈ shortEscapes, shortEscape? entry.1 = some entry.2 ∧ entry.1 ≠ 'u' := by
    decide
  exact hall _ h

/-- The number of a character is no half of a pair. -/
theorem not_surrogate (c : Char) : ¬ (0xD800 ≤ c.toNat ∧ c.toNat < 0xE000) := by
  have hvalid : c.toNat.isValidChar := c.valid
  unfold Nat.isValidChar at hvalid
  omega

theorem charOfUnit_toNat (c : Char) : charOfUnit c.toNat = c := by
  rw [charOfUnit, if_neg (not_surrogate c), Char.ofNat_toNat]

theorem charOfPair_units (hc : 0x10000 ≤ c.toNat) :
    charOfPair (highUnit c.toNat) (lowUnit c.toNat) = c := by
  have hcode : 0x10000 + (highUnit c.toNat - 0xD800) * 0x400 + (lowUnit c.toNat - 0xDC00) =
      c.toNat := by
    unfold highUnit lowUnit
    omega
  rw [charOfPair, hcode, Char.ofNat_toNat]

theorem isHighUnit_highUnit (c : Char) : isHighUnit (highUnit c.toNat) = true := by
  have hvalid : c.toNat.isValidChar := c.valid
  unfold Nat.isValidChar at hvalid
  unfold isHighUnit highUnit
  exact Bool.and_eq_true_iff.2 ⟨decide_eq_true (by omega), decide_eq_true (by omega)⟩

theorem isLowUnit_lowUnit (code : Nat) : isLowUnit (lowUnit code) = true := by
  unfold isLowUnit lowUnit
  exact Bool.and_eq_true_iff.2 ⟨decide_eq_true (by omega), decide_eq_true (by omega)⟩

theorem isHighUnit_toNat (c : Char) : isHighUnit c.toNat = false := by
  have hnot := not_surrogate c
  refine Bool.eq_false_iff.2 fun hhigh => hnot ?_
  obtain ⟨hlow, hless⟩ := Bool.and_eq_true_iff.1 hhigh
  have hlow := of_decide_eq_true hlow
  have hless := of_decide_eq_true hless
  exact ⟨hlow, by omega⟩

/-- A character is read in each way in which it can be written, in front of anything. -/
theorem readText_append (h : SpellsChar c front) (hfollowing : following ≠ []) :
    readText opening done (front ++ following) = readText opening (c :: done) following := by
  obtain ⟨next, behind, rfl⟩ := List.exists_cons_of_ne_nil hfollowing
  cases h with
  | raw hcode hquote hescape =>
      rw [List.singleton_append, readText, if_neg (Nat.not_lt.2 hcode)]
      all_goals simp [hquote, hescape]
  | @short mark hshort =>
      obtain ⟨hread, hunit⟩ := shortEscape?_of_mem hshort
      show readText opening done ('\\' :: mark :: next :: behind) = _
      rw [readText, hread]
      all_goals simp [hunit]
  | unit hunit =>
      obtain ⟨w, x, y, z, rfl, hread⟩ := codeUnit?_of_spells hunit
      show readText opening done ('\\' :: 'u' :: w :: x :: y :: z :: next :: behind) = _
      rw [readText, hread]
      dsimp only
      -- What follows may look like the second half of a pair, but this is no first half.
      split
      · rw [if_neg (Bool.eq_false_iff.1 (isHighUnit_toNat c)), charOfUnit_toNat]
      · rw [charOfUnit_toNat]
  | pair hcode hhigh hlow =>
      obtain ⟨p, q, r, s, rfl, hreadHigh⟩ := codeUnit?_of_spells hhigh
      obtain ⟨w, x, y, z, rfl, hreadLow⟩ := codeUnit?_of_spells hlow
      show readText opening done ('\\' :: 'u' :: p :: q :: r :: s :: '\\' :: 'u' ::
        w :: x :: y :: z :: next :: behind) = _
      rw [readText, hreadHigh]
      simp only [isHighUnit_highUnit, hreadLow, isLowUnit_lowUnit, charOfPair_units hcode, if_true]

theorem readText_chars {inner : List Char} (h : SpellsChars text inner) (done rest : List Char) :
    readText opening done (inner ++ '"' :: rest) =
      .ok (String.ofList (done.reverse ++ text), rest) := by
  induction h generalizing done with
  | nil => rw [List.nil_append, readText, List.append_nil]
  | @cons c text front inner hfront _ ih =>
      rw [List.append_assoc, readText_append hfront (by simp), ih, List.reverse_cons,
        List.append_assoc, List.singleton_append]

theorem readTextAfter_of_spells {text : String} {chars : List Char} (h : SpellsString text chars)
    (rest : List Char) : ∃ opened shorter, chars ++ rest = '"' :: opened ∧
      readTextAfter opened = .ok ⟨text, rest, shorter⟩ := by
  obtain ⟨inner, hinner, rfl⟩ := h
  have hread : readText ('"' :: (inner ++ '"' :: rest)) [] (inner ++ '"' :: rest) =
      .ok (text, rest) := by
    rw [readText_chars hinner, List.reverse_nil, List.nil_append, String.ofList_toList]
  exact ⟨inner ++ '"' :: rest, _, by simp, readTextAfter_eq hread⟩

/-! ## Scalars -/

theorem readScalar_of_word {word : String} {value : Value} (h : (word, value) ∈ JsonGrammar.words)
    (rest : List Char) :
    ∃ shorter, readScalar (word.toList ++ rest) = .ok ⟨value, rest, shorter⟩ := by
  have hword : readWord? (word.toList ++ rest) = some (value, rest) := by
    simp only [JsonGrammar.words, List.mem_cons, Prod.mk.injEq, List.not_mem_nil, or_false] at h
    rcases h with ⟨rfl, rfl⟩ | ⟨rfl, rfl⟩ | ⟨rfl, rfl⟩ <;> rfl
  refine ⟨length_lt_of_readWord? hword, ?_⟩
  unfold readScalar
  split
  · next hsome =>
      obtain ⟨rfl, rfl⟩ := Prod.mk.inj (Option.some.inj (hsome.symm.trans hword))
      rfl
  · next hnone =>
      rw [hword] at hnone
      contradiction

/-- A literal begins with a digit, or with a minus and a digit, so with no word. -/
theorem readWord?_of_literal {literal : Numeral.Literal} (h : literal.WellFormed)
    (rest : List Char) : readWord? (literal.chars ++ rest) = none := by
  obtain ⟨c, others, hwhole⟩ := List.exists_cons_of_ne_nil h.whole.isDigits.ne_nil
  have hdigit : c.isDigit = true := h.whole.isDigits.all c (by simp [hwhole])
  have hletters : c ≠ 'n' ∧ c ≠ 't' ∧ c ≠ 'f' ∧ c ≠ 'N' ∧ c ≠ 'I' ∧ c ≠ '-' := by
    refine ⟨?_, ?_, ?_, ?_, ?_, ?_⟩ <;> (rintro rfl; exact absurd hdigit (by decide))
  obtain ⟨hn, ht, hf, hcapital, hinfinity, hminus⟩ := hletters
  rw [Numeral.Literal.chars, Numeral.Literal.signChars, hwhole]
  cases literal.negative <;>
    simp [readWord?, words, hn.symm, ht.symm, hf.symm, hcapital.symm, hinfinity.symm, hminus.symm]

theorem readNumber_of_float {literal : Numeral.Literal} (h : literal.WellFormed)
    (hinteger : literal.isInteger = false) (hends : Ends rest) :
    readNumber (literal.chars ++ rest) = .ok (.float literal.floatValue, rest) := by
  unfold readNumber
  rw [Numeral.Literal.read_append h hends.stops]
  simp [hinteger]

theorem readNumber_of_integer {literal : Numeral.Literal} (h : literal.WellFormed)
    (hinteger : literal.isInteger = true) (hshort : literal.whole.length ≤ Numeral.maxDigits)
    (hends : Ends rest) :
    readNumber (literal.chars ++ rest) = .ok (.integer literal.intValue, rest) := by
  unfold readNumber
  rw [Numeral.Literal.read_append h hends.stops]
  simp [hinteger, Nat.not_lt.2 hshort]

/-- The digits of a literal are those of the whole number that it stands for. -/
theorem toDigits_natAbs_intValue {literal : Numeral.Literal} (h : literal.WellFormed) :
    Nat.toDigits 10 literal.intValue.natAbs = literal.whole := by
  have habs : literal.intValue.natAbs = Numeral.Literal.natOfDigits literal.whole := by
    unfold Numeral.Literal.intValue
    split
    · rw [Int.natAbs_neg, Int.natAbs_natCast]
    · rw [Int.natAbs_natCast]
  rw [habs, Numeral.Literal.toDigits_natOfDigits h.whole]

end JsonReader

/-! ## Values -/

/-- Whether the digits of a value, if it is a whole number, are not too many to be read. -/
def Value.HasShortDigits (value : Value) : Prop :=
  ∀ n : Int, value = .integer n → (Nat.toDigits 10 n.natAbs).length ≤ Numeral.maxDigits

/-- Whether a value can be read if the given number of levels may be opened. -/
structure Value.Readable (levels : Nat) (value : Value) : Prop where
  nesting_le : value.nesting ≤ levels
  short : value.MadeOf Value.HasShortDigits fun _ => True

namespace Value.Readable

variable {levels : Nat}

theorem items {items : List Value} (h : (Value.list items).Readable levels) :
    ∃ inner, levels = inner + 1 ∧ ∀ item ∈ items, item.Readable inner := by
  obtain ⟨hnesting, hshort⟩ := h
  obtain ⟨inner, rfl⟩ := Nat.exists_eq_add_of_le' (Nat.le_trans (Nat.le_add_left 1 _) hnesting)
  have hinner := Value.nestingOfItems_le_iff.1 (Nat.le_of_succ_le_succ hnesting)
  have hitems := madeOf_list_iff.1 hshort
  exact ⟨inner, rfl, fun item hmem => ⟨hinner item hmem, hitems item hmem⟩⟩

theorem members {members : List (String × Value)} (h : (Value.object members).Readable levels) :
    ∃ inner, levels = inner + 1 ∧ ∀ member ∈ members, member.2.Readable inner := by
  obtain ⟨hnesting, hshort⟩ := h
  obtain ⟨inner, rfl⟩ := Nat.exists_eq_add_of_le' (Nat.le_trans (Nat.le_add_left 1 _) hnesting)
  have hinner := Value.nestingOfMembers_le_iff.1 (Nat.le_of_succ_le_succ hnesting)
  obtain ⟨-, -, hmembers⟩ := madeOf_object_iff.1 hshort
  exact ⟨inner, rfl, fun member hmem => ⟨hinner member hmem, hmembers member hmem⟩⟩

end Value.Readable

theorem Entries.set_of_not_mem {key : String} {value : Value} {entries : List (String × Value)}
    (h : key ∉ entries.map (·.1)) : set key value entries = entries ++ [(key, value)] := by
  induction entries with
  | nil => rfl
  | cons entry rest ih =>
      rw [List.map_cons, List.mem_cons, not_or] at h
      rw [set, if_neg (Ne.symm h.1), ih h.2, List.cons_append]

/-- An object of members with different keys has just these. -/
theorem Object.ofMembers_of_nodup {members : List (String × Value)}
    (h : (members.map (·.1)).Nodup) : ofMembers members = ⟨members⟩ := by
  induction members using List.reverseRecOn with
  | nil => rfl
  | append_singleton members last ih =>
      obtain ⟨key, value⟩ := last
      rw [List.map_append, List.nodup_append] at h
      obtain ⟨hfront, -, hfresh⟩ := h
      have hkey : key ∉ members.map (·.1) := fun hmem => hfresh key hmem key (by simp) rfl
      rw [ofMembers_concat, ih hfront, set, Entries.set_of_not_mem hkey]

namespace JsonReader

open JsonGrammar

section Steps

variable {levels : Nat} {text opened first rest behind following : List Char}

theorem readValue_of_emptyArray {inside : opened.length < text.length}
    {shorter : following.length < opened.length}
    (hmark : mark? text = some ⟨'[', opened, inside⟩)
    (hend : mark? opened = some ⟨']', following, shorter⟩) :
    readValue (levels + 1) text = .ok ⟨.list [], following, Nat.lt_trans shorter inside⟩ := by
  unfold readValue
  rw [hmark]
  simp only
  rw [hend]
  rfl

theorem readValue_of_items {items : List Value} {c : Char}
    {inside : opened.length < text.length} {afterFirst : first.length < opened.length}
    {shorter : following.length < opened.length}
    (hmark : mark? text = some ⟨'[', opened, inside⟩)
    (hfirst : mark? opened = some ⟨c, first, afterFirst⟩) (hc : c ≠ ']')
    (h : readItems levels opened = .ok ⟨items, following, shorter⟩) :
    readValue (levels + 1) text = .ok ⟨.list items, following, Nat.lt_trans shorter inside⟩ := by
  unfold readValue
  rw [hmark]
  simp only
  rw [hfirst]
  split
  · next heq => simp at heq
  · next hclosed =>
      obtain ⟨rfl, -⟩ : c = _ ∧ _ := by simpa using hclosed
      exact absurd rfl hc
  · next hlevels _ =>
      obtain rfl := Nat.succ.inj hlevels
      rw [h]

theorem readValue_of_emptyObject {inside : opened.length < text.length}
    {shorter : following.length < opened.length}
    (hmark : mark? text = some ⟨'\x7b', opened, inside⟩)
    (hend : mark? opened = some ⟨'\x7d', following, shorter⟩) :
    readValue (levels + 1) text = .ok ⟨.object [], following, Nat.lt_trans shorter inside⟩ := by
  unfold readValue
  rw [hmark]
  simp only
  rw [hend]
  rfl

theorem readItems_of_last {item : Value} {afterItem : behind.length < text.length}
    {shorter : following.length < behind.length}
    (hitem : readValue levels text = .ok ⟨item, behind, afterItem⟩)
    (hend : mark? behind = some ⟨']', following, shorter⟩) :
    readItems levels text = .ok ⟨[item], following, Nat.lt_trans shorter afterItem⟩ := by
  unfold readItems
  rw [hitem]
  simp only
  rw [hend]
  rfl

theorem readItems_of_cons {item : Value} {items : List Value}
    {afterItem : behind.length < text.length} {afterComma : rest.length < behind.length}
    {shorter : following.length < rest.length}
    (hitem : readValue levels text = .ok ⟨item, behind, afterItem⟩)
    (hcomma : mark? behind = some ⟨',', rest, afterComma⟩)
    (h : readItems levels rest = .ok ⟨items, following, shorter⟩) :
    readItems levels text = .ok ⟨item :: items, following, by omega⟩ := by
  unfold readItems
  rw [hitem]
  simp only
  rw [hcomma]
  simp only
  rw [h]

theorem readMembers_of_cons {key : String} {value : Value} {members : List (String × Value)}
    {named beyond : List Char} {inside : opened.length < text.length}
    {afterKey : named.length < opened.length} {afterColon : rest.length < named.length}
    {afterValue : behind.length < rest.length} {afterComma : beyond.length < behind.length}
    {shorter : following.length < beyond.length}
    (hmark : mark? text = some ⟨'"', opened, inside⟩)
    (hkey : readTextAfter opened = .ok ⟨key, named, afterKey⟩)
    (hcolon : mark? named = some ⟨':', rest, afterColon⟩)
    (hvalue : readValue levels rest = .ok ⟨value, behind, afterValue⟩)
    (hcomma : mark? behind = some ⟨',', beyond, afterComma⟩)
    (h : readMembers levels beyond = .ok ⟨members, following, shorter⟩) :
    readMembers levels text = .ok ⟨(key, value) :: members, following, by omega⟩ := by
  unfold readMembers
  rw [hmark]
  simp only
  rw [hkey]
  simp only
  rw [hcolon]
  simp only
  rw [hvalue]
  simp only
  rw [hcomma]
  simp only
  rw [h]

end Steps

/-! ## Texts of the grammar -/

/-- A scalar begins with no space and with nothing that opens or closes something. -/
theorem not_special_of_beginsScalar {c : Char} (h : BeginsScalar c) :
    isSpace c = false ∧ c ∉ ['"', '[', '\x7b', ']', '\uFEFF'] := by
  rcases h with hmem | hdigit
  · simp only [List.mem_cons, List.not_mem_nil, or_false] at hmem
    rcases hmem with rfl | rfl | rfl | rfl <;> decide
  · refine ⟨Bool.eq_false_iff.2 fun hspace => ?_, fun hmem => ?_⟩
    · simp only [isSpace, Bool.or_eq_true, beq_iff_eq] at hspace
      rcases hspace with ((rfl | rfl) | rfl) | rfl <;> exact absurd hdigit (by decide)
    · simp only [List.mem_cons, List.not_mem_nil, or_false] at hmem
      rcases hmem with rfl | rfl | rfl | rfl | rfl <;> exact absurd hdigit (by decide)

theorem first_of_spells {value : Value} {chars : List Char} (h : SpellsValue value chars) :
    ∃ c rest, chars = c :: rest ∧ isSpace c = false ∧ c ≠ ']' ∧ c ≠ '\uFEFF' := by
  obtain ⟨c, rest, rfl, hopens | hscalar⟩ := h.first
  · have hall : ∀ d ∈ ['"', '[', '\x7b'], isSpace d = false ∧ d ≠ ']' ∧ d ≠ '\uFEFF' := by
      simp [isSpace]
    exact ⟨c, rest, rfl, hall c hopens⟩
  · obtain ⟨hspace, hspecial⟩ := not_special_of_beginsScalar hscalar
    simp only [List.mem_cons, List.not_mem_nil, or_false, not_or] at hspecial
    exact ⟨c, rest, rfl, hspace, hspecial.2.2.2⟩

/-- The first character that is no space, behind any spaces. -/
theorem mark?_append {spaces rest : List Char} {c : Char} (hspaces : IsSpaces spaces)
    (hc : isSpace c = false) :
    ∃ shorter, mark? (spaces ++ c :: rest) = some ⟨c, rest, shorter⟩ :=
  mark?_eq ((skipSpaces_append hspaces _).trans (skipSpaces_cons hc rest))

theorem mark?_of_skipSpaces {behind rest : List Char} {c : Char}
    (h : skipSpaces behind = skipSpaces (c :: rest)) (hc : isSpace c = false) :
    ∃ shorter, mark? behind = some ⟨c, rest, shorter⟩ :=
  mark?_eq (h.trans (skipSpaces_cons hc rest))

theorem mark?_of_element {value : Value} {chars : List Char} (h : SpellsElement value chars)
    (following : List Char) :
    ∃ c first shorter, mark? (chars ++ following) = some ⟨c, first, shorter⟩ ∧ c ≠ ']' := by
  cases h with
  | intro hbefore hvalue _ =>
      obtain ⟨c, rest, rfl, hspace, hclosed, -⟩ := first_of_spells hvalue
      rw [List.append_assoc, List.append_assoc, List.cons_append]
      obtain ⟨_, hmark⟩ := mark?_append hbefore hspace
      exact ⟨c, _, _, hmark, hclosed⟩

theorem mark?_of_elements {items : List Value} {chars : List Char} (h : SpellsElements items chars)
    (following : List Char) :
    ∃ c first shorter, mark? (chars ++ following) = some ⟨c, first, shorter⟩ ∧ c ≠ ']' := by
  cases h with
  | last helement => exact mark?_of_element helement following
  | cons helement _ =>
      rw [List.append_assoc]
      exact mark?_of_element helement _

theorem mark?_of_member {key : String} {value : Value} {chars : List Char}
    (h : SpellsMember key value chars) (following : List Char) :
    ∃ opened shorter, mark? (chars ++ following) = some ⟨'"', opened, shorter⟩ := by
  cases h with
  | intro hbefore hname _ _ =>
      obtain ⟨inner, -, rfl⟩ := hname
      rw [List.append_assoc, List.append_assoc, List.cons_append]
      exact ⟨_, mark?_append hbefore rfl⟩

theorem mark?_of_members {members : List (String × Value)} {chars : List Char}
    (h : SpellsMembers members chars) (following : List Char) :
    ∃ opened shorter, mark? (chars ++ following) = some ⟨'"', opened, shorter⟩ := by
  cases h with
  | last hmember => exact mark?_of_member hmember following
  | cons hmember _ =>
      rw [List.append_assoc]
      exact mark?_of_member hmember _

section Scalars

variable {levels : Nat} {value : Value} {spaces chars following : List Char}

theorem readValue_of_readScalar (hspaces : IsSpaces spaces)
    (hfirst : ∃ c rest, chars = c :: rest ∧ BeginsScalar c)
    (hread : ∃ shorter, readScalar (chars ++ following) = .ok ⟨value, following, shorter⟩) :
    ∃ shorter, readValue levels (spaces ++ (chars ++ following)) =
      .ok ⟨value, following, shorter⟩ := by
  obtain ⟨c, rest, rfl, hc⟩ := hfirst
  obtain ⟨hspace, hspecial⟩ := not_special_of_beginsScalar hc
  obtain ⟨_, hscalar⟩ := hread
  obtain ⟨_, hmark⟩ := @mark?_append spaces (rest ++ following) c hspaces hspace
  refine ⟨_, readValue_of_scalar hmark (fun hmem => hspecial ?_) hscalar⟩
  simp only [List.mem_cons, List.not_mem_nil, or_false] at hmem ⊢
  rcases hmem with rfl | rfl | rfl <;> simp

theorem readValue_of_literal {literal : Numeral.Literal} (hformed : literal.WellFormed)
    (hspaces : IsSpaces spaces)
    (hread : readNumber (literal.chars ++ following) = .ok (value, following)) :
    ∃ shorter, readValue levels (spaces ++ (literal.chars ++ following)) =
      .ok ⟨value, following, shorter⟩ :=
  readValue_of_readScalar hspaces (first_of_literal hformed)
    ⟨_, readScalar_of_number (readWord?_of_literal hformed following) hread⟩

end Scalars

/-- What is enclosed is followed by the mark that closes it. -/
theorem enclosed_append (first last : Char) (inner following : List Char) :
    first :: (inner ++ [last]) ++ following = first :: (inner ++ last :: following) := by
  rw [List.cons_append, List.append_assoc, List.singleton_append]

mutual

/-- A value is read where it stands, up to its last character. -/
theorem readValue_of_spells {value : Value} {chars : List Char} (h : SpellsValue value chars)
    {levels : Nat} (hread : value.Readable levels) {spaces following : List Char}
    (hspaces : IsSpaces spaces) (hends : Ends following) :
    ∃ shorter, readValue levels (spaces ++ (chars ++ following)) =
      .ok ⟨value, following, shorter⟩ := by
  match h with
  | .word hword =>
      exact readValue_of_readScalar hspaces (first_of_word hword)
        (readScalar_of_word hword following)
  | @SpellsValue.integer literal hformed hinteger =>
      have hshort : literal.whole.length ≤ Numeral.maxDigits := by
        rw [← toDigits_natAbs_intValue hformed]
        exact hread.short.leaf_of_scalar rfl _ rfl
      exact readValue_of_literal hformed hspaces
        (readNumber_of_integer hformed hinteger hshort hends)
  | .float hformed hinteger =>
      exact readValue_of_literal hformed hspaces (readNumber_of_float hformed hinteger hends)
  | .string hstring =>
      obtain ⟨opened, _, hopened, htext⟩ := readTextAfter_of_spells hstring following
      obtain ⟨_, hmark⟩ := @mark?_append spaces opened '"' hspaces rfl
      rw [hopened]
      exact ⟨_, readValue_of_text hmark htext⟩
  | @SpellsValue.emptyArray inner hinner =>
      obtain ⟨levels, rfl, -⟩ := hread.items
      obtain ⟨_, hmark⟩ := @mark?_append spaces (inner ++ ']' :: following) '[' hspaces rfl
      obtain ⟨_, hend⟩ := @mark?_append inner following ']' hinner rfl
      rw [enclosed_append]
      exact ⟨_, readValue_of_emptyArray hmark hend⟩
  | @SpellsValue.array items chars helements =>
      obtain ⟨levels, rfl, hitems⟩ := hread.items
      obtain ⟨_, hmark⟩ := @mark?_append spaces (chars ++ ']' :: following) '[' hspaces rfl
      obtain ⟨c, first, _, hfirst, hc⟩ := mark?_of_elements helements (']' :: following)
      obtain ⟨_, hread⟩ := readItems_of_spells helements hitems following
      rw [enclosed_append]
      exact ⟨_, readValue_of_items hmark hfirst hc hread⟩
  | @SpellsValue.emptyObject inner hinner =>
      obtain ⟨levels, rfl, -⟩ := hread.members
      obtain ⟨_, hmark⟩ := @mark?_append spaces (inner ++ '\x7d' :: following) '\x7b' hspaces rfl
      obtain ⟨_, hend⟩ := @mark?_append inner following '\x7d' hinner rfl
      rw [enclosed_append]
      exact ⟨_, readValue_of_emptyObject hmark hend⟩
  | @SpellsValue.object members chars hdistinct hmembers =>
      obtain ⟨levels, rfl, hinner⟩ := hread.members
      obtain ⟨_, hmark⟩ := @mark?_append spaces (chars ++ '\x7d' :: following) '\x7b' hspaces rfl
      obtain ⟨first, _, hfirst⟩ := mark?_of_members hmembers ('\x7d' :: following)
      obtain ⟨_, hread⟩ := readMembers_of_spells hmembers hinner following
      have hvalue := readValue_of_members hmark hfirst hread
      rw [Object.ofMembers_of_nodup hdistinct] at hvalue
      rw [enclosed_append]
      exact ⟨_, hvalue⟩
termination_by structural h

theorem readElement_of_spells {value : Value} {chars : List Char} (h : SpellsElement value chars)
    {levels : Nat} (hread : value.Readable levels) {following : List Char}
    (hends : Ends following) :
    ∃ behind shorter, readValue levels (chars ++ following) = .ok ⟨value, behind, shorter⟩ ∧
      skipSpaces behind = skipSpaces following := by
  match h with
  | @SpellsElement.intro _ before chars behind hbefore hvalue hbehind =>
      obtain ⟨shorter, hread⟩ := readValue_of_spells hvalue hread hbefore (hends.append hbehind)
      rw [List.append_assoc, List.append_assoc]
      exact ⟨behind ++ following, _, hread, skipSpaces_append hbehind following⟩
termination_by structural h

theorem readItems_of_spells {items : List Value} {chars : List Char}
    (h : SpellsElements items chars) {levels : Nat}
    (hread : ∀ item ∈ items, item.Readable levels) (following : List Char) :
    ∃ shorter, readItems levels (chars ++ ']' :: following) =
      .ok ⟨items, following, shorter⟩ := by
  match h with
  | .last helement =>
      have hends : Ends (']' :: following) := ends_cons (by simp)
      obtain ⟨behind, _, hitem, hskip⟩ :=
        readElement_of_spells helement (hread _ List.mem_cons_self) hends
      obtain ⟨_, hend⟩ := mark?_of_skipSpaces hskip rfl
      exact ⟨_, readItems_of_last hitem hend⟩
  | @SpellsElements.cons value items chars rest helement helements =>
      obtain ⟨hfirst, hothers⟩ := List.forall_mem_cons.1 hread
      have hends : Ends (',' :: (rest ++ ']' :: following)) := ends_cons (by simp)
      obtain ⟨behind, _, hitem, hskip⟩ := readElement_of_spells helement hfirst hends
      obtain ⟨_, hcomma⟩ := mark?_of_skipSpaces hskip rfl
      obtain ⟨_, hrest⟩ := readItems_of_spells helements hothers following
      rw [List.append_assoc, List.cons_append]
      exact ⟨_, readItems_of_cons hitem hcomma hrest⟩
termination_by structural h

theorem readMember_of_spells {key : String} {value : Value} {chars : List Char}
    (h : SpellsMember key value chars) {levels : Nat} (hread : value.Readable levels)
    {following : List Char} (hends : Ends following) :
    ∃ opened named rest behind inside afterKey afterColon afterValue,
      mark? (chars ++ following) = some ⟨'"', opened, inside⟩ ∧
      readTextAfter opened = .ok ⟨key, named, afterKey⟩ ∧
      mark? named = some ⟨':', rest, afterColon⟩ ∧
      readValue levels rest = .ok ⟨value, behind, afterValue⟩ ∧
      skipSpaces behind = skipSpaces following := by
  match h with
  | @SpellsMember.intro _ _ before name between chars hbefore hname hbetween helement =>
      obtain ⟨behind, _, hvalue, hskip⟩ := readElement_of_spells helement hread hends
      obtain ⟨opened, _, hopened, hkey⟩ :=
        readTextAfter_of_spells hname (between ++ ':' :: (chars ++ following))
      obtain ⟨_, hmark⟩ := @mark?_append before opened '"' hbefore rfl
      obtain ⟨_, hcolon⟩ := @mark?_append between (chars ++ following) ':' hbetween rfl
      have hchars : before ++ (name ++ (between ++ ':' :: chars)) ++ following =
          before ++ '"' :: opened := by
        rw [← hopened]
        simp
      rw [hchars]
      exact ⟨_, _, _, behind, _, _, _, _, hmark, hkey, hcolon, hvalue, hskip⟩
termination_by structural h

theorem readMembers_of_spells {members : List (String × Value)} {chars : List Char}
    (h : SpellsMembers members chars) {levels : Nat}
    (hread : ∀ member ∈ members, member.2.Readable levels) (following : List Char) :
    ∃ shorter, readMembers levels (chars ++ '\x7d' :: following) =
      .ok ⟨members, following, shorter⟩ := by
  match h with
  | .last hmember =>
      have hends : Ends ('\x7d' :: following) := ends_cons (by simp)
      obtain ⟨_, _, _, _, _, _, _, _, hmark, hkey, hcolon, hvalue, hskip⟩ :=
        readMember_of_spells hmember (hread _ List.mem_cons_self) hends
      obtain ⟨_, hend⟩ := mark?_of_skipSpaces hskip rfl
      exact ⟨_, readMembers_of_member hmark hkey hcolon hvalue hend⟩
  | @SpellsMembers.cons key value members chars rest hmember hmembers =>
      obtain ⟨hfirst, hothers⟩ := List.forall_mem_cons.1 hread
      have hends : Ends (',' :: (rest ++ '\x7d' :: following)) := ends_cons (by simp)
      obtain ⟨_, _, _, _, _, _, _, _, hmark, hkey, hcolon, hvalue, hskip⟩ :=
        readMember_of_spells hmember hfirst hends
      obtain ⟨_, hcomma⟩ := mark?_of_skipSpaces hskip rfl
      obtain ⟨_, hrest⟩ := readMembers_of_spells hmembers hothers following
      rw [List.append_assoc, List.cons_append]
      exact ⟨_, readMembers_of_cons hmark hkey hcolon hvalue hcomma hrest⟩
termination_by structural h

end

end JsonReader

/-- A text that is JSON does not begin with a byte order mark. -/
theorem JsonGrammar.SpellsElement.head?_ne {value : Value} {chars : List Char}
    (h : SpellsElement value chars) : chars.head? ≠ some '\uFEFF' := by
  cases h with
  | @intro _ before chars behind hbefore hvalue _ =>
      cases before with
      | nil =>
          obtain ⟨c, rest, rfl, -, -, hmark⟩ := JsonReader.first_of_spells hvalue
          exact fun hhead => hmark (Option.some.inj hhead)
      | cons c rest =>
          intro hhead
          obtain rfl := Option.some.inj hhead
          exact absurd (hbefore _ List.mem_cons_self) (by decide)

/-- Whether a text is read as a value with nothing behind it if the given number of levels may be
opened. -/
def JsonReader.ReadsAs (levels : Nat) (text : String) (value : Value) : Prop :=
  ∃ behind shorter, readValue levels text.toList = .ok ⟨value, behind, shorter⟩ ∧
    skipSpaces behind = []

/-- A text that is JSON is read as what it stands for, within the bounds of the reader. -/
theorem JsonReader.readsAs_of_isJson {levels : Nat} {value : Value} {text : String}
    (h : JsonGrammar.IsJson value text) (hread : value.Readable levels) :
    ReadsAs levels text value := by
  have hall : ∀ whole, whole = text.toList ++ [] → ∃ behind shorter,
      readValue levels whole = .ok ⟨value, behind, shorter⟩ ∧
        skipSpaces behind = skipSpaces [] := by
    rintro whole rfl
    exact readElement_of_spells h hread ends_nil
  exact hall text.toList (List.append_nil _).symm

theorem Value.ofJson_of_isJson {host : Host} {value : Value} {text : String}
    (h : JsonGrammar.IsJson value text) (hread : value.Readable host.readingLevels) :
    Value.ofJson host text = .ok value := by
  have hmark := JsonGrammar.SpellsElement.head?_ne h
  obtain ⟨behind, _, hvalue, hskip⟩ := JsonReader.readsAs_of_isJson h hread
  have hwhole : JsonReader.readWhole host.readingLevels text.toList = .ok value := by
    unfold JsonReader.readWhole
    split
    · next hchars => simp [hchars] at hmark
    · rw [hvalue]
      simp only [hskip]
  unfold Value.ofJson
  simp only [hwhole]

end XmlToJson

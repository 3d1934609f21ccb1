import XmlToJson.Markup.Scan

/-!
# How characters are written

A character of a text or of a quoted value can be written as it is, by one of the five names, or by
its number.  `EncodesChar` has one constructor for each of these ways and `Encodes` puts them one
behind the other, in front of a stop character that must not be written as it is.  Reading the
written form gives back the text, whatever follows it (`read_encodes`).

## Strategy

* **Digits.**  A number is written in digits of base ten or sixteen without a leading zero
  (`Digits`), so it can be given by recursion on its last digit.  What matters about the characters
  of digits is checked for all of them at once (`digitChars_facts`).
* **Reading a number.**  The reading of whole numbers allows much more: blanks, a sign, a mark of
  the base, underscores and other scripts.  In front of plain digits none of these is found, so what
  is left to do is to add up the digits (`ofDigits?_snoc`, `ofDigits?_of_digits`), and the number is
  read (`decimal?_of_digits`, `hexadecimal?_of_digits`).  In base ten there is a bound on the
  digits, which the number of a character is far below (`Digits.pow_le`).
* **Reading a reference.**  `Names` says that some characters are the name of a reference to a
  character: they are characters of a name, and they are resolved to it.  All ways to write a
  reference are such names (`names_of_named`, `names_of_decimal`, `names_of_hexadecimal`), so one
  lemma reads them all (`read_reference`).
* **Reading a text** is an induction on what is written, with `read_raw` for a character that stands
  for itself.
-/

namespace XmlToJson

/-- What is checked for one element after the other holds for all of them. -/
theorem forall_mem_of_all {α : Type} {P : α → Prop} [DecidablePred P] {elements : List α}
    (h : elements.all (fun element => decide (P element)) = true) :
    ∀ element ∈ elements, P element :=
  fun element hmem => of_decide_eq_true (List.all_eq_true.1 h element hmem)

theorem dropWhile_eq_self {p : Char → Bool} {chars : List Char}
    (h : ∀ c ∈ chars.head?, p c = false) : chars.dropWhile p = chars := by
  cases chars with
  | nil => rfl
  | cons c rest => exact List.dropWhile_cons_of_neg (by simp [h c rfl])

/-! ## Numbers -/

/-- The characters that can be written for a digit. -/
def digitChars (digit : Nat) : List Char :=
  [Nat.digitChar digit, (Nat.digitChar digit).toUpper]

/-- Whether characters are the digits of a number in the given base, without a leading
zero. -/
inductive Digits (base : Nat) : Nat → List Char → Prop where
  | first {digit : Nat} {c : Char} :
      0 < digit → digit < base → c ∈ digitChars digit → Digits base digit [c]
  | snoc {value digit : Nat} {c : Char} {chars : List Char} :
      Digits base value chars → digit < base → c ∈ digitChars digit →
      Digits base (value * base + digit) (chars ++ [c])

/-- What matters about the characters of digits. -/
theorem digitChars_facts (digit : Fin 16) : ∀ c ∈ digitChars digit,
    Numeral.digit? 16 c = some digit.val ∧ Reference.isNameChar c = true ∧
      Numeral.simplify c = c ∧ Numeral.isSpace c = false ∧
      c ≠ '_' ∧ c ≠ '-' ∧ c ≠ '+' ∧ c ≠ 'x' ∧ c ≠ 'X' ∧ (0 < digit.val → c ≠ '0') := by
  refine forall_mem_of_all ?_
  revert digit
  decide +kernel

theorem digit?_ten (digit : Fin 10) : ∀ c ∈ digitChars digit,
    Numeral.digit? 10 c = some digit.val := by
  refine forall_mem_of_all ?_
  revert digit
  decide +kernel

theorem Digits.forall_mem {base value : Nat} {chars : List Char} (h : Digits base value chars)
    {p : Char → Prop} (hp : ∀ digit < base, ∀ c ∈ digitChars digit, p c) : ∀ c ∈ chars, p c := by
  induction h with
  | first hpos hlt hc => exact List.forall_mem_singleton.2 (hp _ hlt _ hc)
  | snoc _ hlt hc ih =>
      intro c hmem
      rcases List.mem_append.1 hmem with hbefore | hlast
      · exact ih c hbefore
      · exact List.mem_singleton.1 hlast ▸ hp _ hlt _ hc

theorem Digits.ne_nil {base value : Nat} {chars : List Char} (h : Digits base value chars) :
    chars ≠ [] := by
  cases h <;> simp

theorem Digits.head?_ne {base value : Nat} {chars : List Char} (hbase : base ≤ 16)
    (h : Digits base value chars) : chars.head? ≠ some '0' := by
  induction h with
  | @first digit c hpos hlt hc =>
      have hfacts := digitChars_facts ⟨digit, by omega⟩ c hc
      obtain ⟨-, -, -, -, -, -, -, -, -, hzero⟩ := hfacts
      simpa using hzero hpos
  | snoc hbefore _ _ ih =>
      obtain ⟨first, rest, hchars⟩ := List.exists_cons_of_ne_nil hbefore.ne_nil
      rw [hchars] at ih ⊢
      simpa using ih

/-- A number in base ten is at least a power of ten for its digits. -/
theorem Digits.pow_le {value : Nat} {chars : List Char} (h : Digits 10 value chars) :
    Nat.pow 10 chars.length ≤ 10 * value := by
  induction h with
  | @first digit c hpos hlt hc => exact Nat.mul_le_mul_left 10 hpos
  | @snoc value digit c chars hbefore hlt hc ih =>
      calc Nat.pow 10 (chars ++ [c]).length
          = Nat.pow 10 chars.length * 10 := by rw [List.length_append]; rfl
        _ ≤ 10 * value * 10 := Nat.mul_le_mul_right 10 ih
        _ ≤ 10 * (value * 10 + digit) := by omega

/-! ## Reading numbers -/

namespace Numeral

theorem ofDigits?_snoc {base value digit found : Nat} {afterDigit : Bool} {chars : List Char}
    {c : Char} (hc : c ≠ '_') (hdigit : digit? base c = some digit)
    (h : ofDigits? base value afterDigit chars = some found) :
    ofDigits? base value afterDigit (chars ++ [c]) = some (found * base + digit) := by
  induction chars generalizing value afterDigit with
  | nil =>
      cases afterDigit with
      | false => simp [ofDigits?] at h
      | true =>
          obtain rfl : value = found := by simpa [ofDigits?] using h
          simp [ofDigits?, hc, hdigit]
  | cons first rest ih =>
      rw [List.cons_append]
      rw [ofDigits?] at h ⊢
      split at h
      · next hunderscore =>
          rw [if_pos hunderscore]
          split at h
          · next hafter =>
              rw [if_pos hafter]
              exact ih h
          · simp at h
      · next hunderscore =>
          rw [if_neg hunderscore]
          split at h
          · exact ih h
          · simp at h

theorem ofDigits?_of_digits {base value : Nat} {chars : List Char} (h : Digits base value chars)
    (hread : ∀ digit < base, ∀ c ∈ digitChars digit, c ≠ '_' ∧ digit? base c = some digit) :
    ofDigits? base 0 false chars = some value := by
  induction h with
  | first hpos hlt hc =>
      obtain ⟨hunderscore, hdigit⟩ := hread _ hlt _ hc
      simp [ofDigits?, hunderscore, hdigit]
  | snoc hbefore hlt hc ih =>
      obtain ⟨hunderscore, hdigit⟩ := hread _ hlt _ hc
      exact ofDigits?_snoc hunderscore hdigit ih

theorem bodyOf_eq_self {text : List Char}
    (h : ∀ c ∈ text, simplify c = c ∧ isSpace c = false) : bodyOf text = text := by
  have hmap : text.map simplify = text := by
    refine (List.map_congr_left fun c hc => (h c hc).1).trans (List.map_id text)
  have hspace : ∀ c ∈ text.reverse, isSpace c = false := fun c hc =>
    (h c (List.mem_reverse.1 hc)).2
  unfold bodyOf
  rw [hmap, dropWhile_eq_self fun c hc => (h c (List.mem_of_mem_head? hc)).2,
    dropWhile_eq_self fun c hc => hspace c (List.mem_of_mem_head? hc), List.reverse_reverse]

theorem signOf_eq {text : List Char} (hminus : text.head? ≠ some '-')
    (hplus : text.head? ≠ some '+') : signOf text = (false, text) := by
  unfold signOf
  split <;> simp_all

theorem withoutMark_eq {text : List Char} (hzero : text.head? ≠ some '0') :
    withoutMark text = text := by
  unfold withoutMark
  split <;> simp_all

variable {base value : Nat} {chars : List Char}

theorem body_of_digits (hbase : base ≤ 16) (h : Digits base value chars) :
    bodyOf chars = chars ∧ signOf chars = (false, chars) := by
  have hfacts : ∀ digit < base, ∀ c ∈ digitChars digit,
      (simplify c = c ∧ isSpace c = false) ∧ c ≠ '-' ∧ c ≠ '+' := by
    intro digit hlt c hc
    obtain ⟨-, -, hsimplify, hspace, -, hminus, hplus, -⟩ :=
      digitChars_facts ⟨digit, by omega⟩ c hc
    exact ⟨⟨hsimplify, hspace⟩, hminus, hplus⟩
  have hall := h.forall_mem hfacts
  refine ⟨bodyOf_eq_self fun c hc => (hall c hc).1, signOf_eq ?_ ?_⟩
  · intro hhead
    exact (hall '-' (List.mem_of_mem_head? hhead)).2.1 rfl
  · intro hhead
    exact (hall '+' (List.mem_of_mem_head? hhead)).2.2 rfl

/-- The digits of a number in base ten are read as that number. -/
theorem decimal?_of_digits (h : Digits 10 value chars) (hsmall : value < 10000000) :
    decimal? chars = some (value : Int) := by
  obtain ⟨hbody, hsign⟩ := body_of_digits (by decide) h
  -- Without leading zeros a small number has few digits, so it is not too long to be read.
  have hlength : chars.length < 9 := by
    refine Nat.lt_of_not_le fun hlong => ?_
    have hpow : Nat.pow 10 9 ≤ Nat.pow 10 chars.length := Nat.pow_le_pow_right (by decide) hlong
    have hlarge : Nat.pow 10 9 = 1000000000 := rfl
    have hle := h.pow_le
    omega
  have hcount : ¬ maxDigits < chars.countP (· != '_') := by
    have hle : chars.countP (· != '_') ≤ chars.length := List.countP_le_length
    have hmax : maxDigits = 4300 := rfl
    omega
  have hread : ∀ digit < 10, ∀ c ∈ digitChars digit, c ≠ '_' ∧ digit? 10 c = some digit := by
    intro digit hlt c hc
    obtain ⟨-, -, -, -, hunderscore, -⟩ := digitChars_facts ⟨digit, by omega⟩ c hc
    exact ⟨hunderscore, digit?_ten ⟨digit, hlt⟩ c hc⟩
  unfold decimal?
  rw [hbody, hsign]
  simp only [hcount, if_false, ofDigits?_of_digits h hread]
  rfl

/-- The digits of a number in base sixteen are read as that number. -/
theorem hexadecimal?_of_digits (h : Digits 16 value chars) :
    hexadecimal? chars = some (value : Int) := by
  obtain ⟨hbody, hsign⟩ := body_of_digits (Nat.le_refl 16) h
  have hread : ∀ digit < 16, ∀ c ∈ digitChars digit, c ≠ '_' ∧ digit? 16 c = some digit := by
    intro digit hlt c hc
    obtain ⟨hdigit, -, -, -, hunderscore, -⟩ := digitChars_facts ⟨digit, hlt⟩ c hc
    exact ⟨hunderscore, hdigit⟩
  unfold hexadecimal?
  rw [hbody, hsign]
  simp only [withoutMark_eq (h.head?_ne (Nat.le_refl 16)), ofDigits?_of_digits h hread]
  rfl

end Numeral

/-! ## Characters -/

/-- Whether a document may contain a character. -/
def IsAllowed (c : Char) : Prop :=
  Text.inRanges Reference.allowedRanges c.toNat = true

instance (c : Char) : Decidable (IsAllowed c) :=
  inferInstanceAs (Decidable (Text.inRanges Reference.allowedRanges c.toNat = true))

/-- Whether characters are a way to write a character in front of `stop`: the character
itself, one of the five names, or the number of the character in base ten or sixteen. -/
inductive EncodesChar (stop : Char) : Char → List Char → Prop where
  | raw {c : Char} : c ≠ '&' → c ≠ stop → EncodesChar stop c [c]
  | named {c : Char} {name : String} :
      (name, c) ∈ Reference.namedCharacters → EncodesChar stop c ('&' :: name.toList ++ [';'])
  | decimal {c : Char} {digits : List Char} :
      IsAllowed c → Digits 10 c.toNat digits → EncodesChar stop c ('&' :: '#' :: digits ++ [';'])
  | hexadecimal {c mark : Char} {digits : List Char} :
      IsAllowed c → mark = 'x' ∨ mark = 'X' → Digits 16 c.toNat digits →
      EncodesChar stop c ('&' :: '#' :: mark :: digits ++ [';'])

/-- Whether characters are a way to write a text in front of `stop`. -/
inductive Encodes (stop : Char) : List Char → List Char → Prop where
  | nil : Encodes stop [] []
  | cons {c : Char} {text written chars : List Char} :
      EncodesChar stop c written → Encodes stop text chars →
      Encodes stop (c :: text) (written ++ chars)

theorem Encodes.raw {stop : Char} {text : List Char} (h : ∀ c ∈ text, c ≠ '&' ∧ c ≠ stop) :
    Encodes stop text text := by
  induction text with
  | nil => exact .nil
  | cons c rest ih =>
      obtain ⟨hreference, hstop⟩ := h c List.mem_cons_self
      exact .cons (.raw hreference hstop) (ih fun d hd => h d (List.mem_cons_of_mem c hd))

theorem Encodes.append {stop : Char} {first second firstChars secondChars : List Char}
    (h : Encodes stop first firstChars) (hsecond : Encodes stop second secondChars) :
    Encodes stop (first ++ second) (firstChars ++ secondChars) := by
  induction h with
  | nil => exact hsecond
  | cons hwritten _ ih =>
      rw [List.append_assoc]
      exact .cons hwritten ih

/-! ## Reading characters -/

namespace Reference

/-- Whether characters are the name of a reference to a character. -/
structure Names (name : List Char) (c : Char) : Prop where
  chars : ∀ d ∈ name, isNameChar d = true
  expand : expand name = [c]

theorem names_of_named {c : Char} {name : String} (h : (name, c) ∈ namedCharacters) :
    Names name.toList c := by
  have hall : namedCharacters.all (fun entry =>
      entry.1.toList.all isNameChar && expand entry.1.toList == [entry.2]) = true := by
    decide +kernel
  have hentry := List.all_eq_true.1 hall (name, c) h
  rw [Bool.and_eq_true, List.all_eq_true, beq_iff_eq] at hentry
  exact ⟨hentry.1, hentry.2⟩

theorem character?_toNat {c : Char} (h : IsAllowed c) : character? (c.toNat : Int) = some c := by
  unfold character?
  rw [if_pos ⟨by omega, h⟩]
  simp

theorem isNameChar_of_digits {base value : Nat} {digits : List Char} (hbase : base ≤ 16)
    (h : Digits base value digits) : ∀ d ∈ digits, isNameChar d = true := by
  refine h.forall_mem fun digit hlt d hd => ?_
  obtain ⟨-, hname, -⟩ := digitChars_facts ⟨digit, by omega⟩ d hd
  exact hname

theorem names_of_decimal {c : Char} {digits : List Char} (hallowed : IsAllowed c)
    (h : Digits 10 c.toNat digits) : Names ('#' :: digits) c where
  chars := List.forall_mem_cons.2 ⟨by decide +kernel, isNameChar_of_digits (by decide) h⟩
  expand := by
    -- No digit is an `x`, so the number is read in base ten.
    have hcode : codePoint? digits = Numeral.decimal? digits := by
      have hnot : ∀ d ∈ digits, d ≠ 'x' ∧ d ≠ 'X' := by
        refine h.forall_mem fun digit hlt d hd => ?_
        obtain ⟨-, -, -, -, -, -, -, hlower, hupper, -⟩ :=
          digitChars_facts ⟨digit, by omega⟩ d hd
        exact ⟨hlower, hupper⟩
      unfold codePoint?
      split
      · exact absurd rfl (hnot 'x' List.mem_cons_self).1
      · exact absurd rfl (hnot 'X' List.mem_cons_self).2
      · rfl
    have hsmall : c.toNat < 10000000 := by
      have hvalid : c.toNat.isValidChar := c.valid
      unfold Nat.isValidChar at hvalid
      omega
    have hresolve : resolve? ('#' :: digits) = some c := by
      show (codePoint? digits).bind character? = some c
      rw [hcode, Numeral.decimal?_of_digits h hsmall, Option.bind_some, character?_toNat hallowed]
    unfold Reference.expand
    rw [hresolve]

theorem names_of_hexadecimal {c mark : Char} {digits : List Char} (hallowed : IsAllowed c)
    (hmark : mark = 'x' ∨ mark = 'X') (h : Digits 16 c.toNat digits) :
    Names ('#' :: mark :: digits) c where
  chars := by
    refine List.forall_mem_cons.2 ⟨by decide +kernel, List.forall_mem_cons.2 ⟨?_, ?_⟩⟩
    · rcases hmark with rfl | rfl <;> decide +kernel
    · exact isNameChar_of_digits (Nat.le_refl 16) h
  expand := by
    have hcode : codePoint? (mark :: digits) = Numeral.hexadecimal? digits := by
      rcases hmark with rfl | rfl <;> rfl
    have hresolve : resolve? ('#' :: mark :: digits) = some c := by
      show (codePoint? (mark :: digits)).bind character? = some c
      rw [hcode, Numeral.hexadecimal?_of_digits h, Option.bind_some, character?_toNat hallowed]
    unfold Reference.expand
    rw [hresolve]

end Reference

namespace CharacterData

theorem after_after (data : CharacterData) (first second : List Char) (m n : Nat) :
    (data.after second n).after first m = data.after (first ++ second) (m + n) := by
  simp [after, Nat.add_assoc]

theorem read_raw {stop c : Char} (rest : List Char) (hstop : c ≠ stop) (hreference : c ≠ '&') :
    read stop (c :: rest) = (read stop rest).after [c] 1 := by
  rw [read, if_neg hstop, if_neg hreference]

/-- A reference to a character is read as that character. -/
theorem read_reference {stop c : Char} {name : List Char} (hstop : stop ≠ '&')
    (h : Reference.Names name c) (following : List Char) :
    read stop ('&' :: name ++ [';'] ++ following) =
      (read stop following).after [c] (name.length + 2) := by
  -- The semicolon cannot stand in a name, so the name ends in front of it.
  have hname : (name ++ ';' :: following).takeWhile Reference.isNameChar = name := by
    rw [List.takeWhile_append_of_pos h.chars,
      List.takeWhile_cons_of_neg (by decide +kernel), List.append_nil]
  have hshape : '&' :: name ++ [';'] ++ following = '&' :: (name ++ ';' :: following) := by simp
  have hrest : (name ++ ';' :: following).drop (name.length + 1) = following := by
    rw [← List.drop_drop, List.drop_left]
    rfl
  rw [hshape, read, if_neg hstop.symm, if_pos rfl]
  simp only [hname, List.drop_left, hrest, h.expand]

/-- What is written for a character is read as that character. -/
theorem read_encodesChar {stop c : Char} {written : List Char} (hstop : stop ≠ '&')
    (h : EncodesChar stop c written) (following : List Char) :
    read stop (written ++ following) = (read stop following).after [c] written.length := by
  cases h with
  | raw hreference hne => exact read_raw following hne hreference
  | named hname =>
      have hread := read_reference hstop (Reference.names_of_named hname) following
      simpa using hread
  | decimal hallowed hdigits =>
      have hread := read_reference hstop (Reference.names_of_decimal hallowed hdigits) following
      simpa using hread
  | hexadecimal hallowed hmark hdigits =>
      have hread :=
        read_reference hstop (Reference.names_of_hexadecimal hallowed hmark hdigits) following
      simpa using hread

/-- What is written for a text is read as that text, whatever follows it. -/
theorem read_encodes {stop : Char} {text chars : List Char} (hstop : stop ≠ '&')
    (h : Encodes stop text chars) (following : List Char) :
    read stop (chars ++ following) = (read stop following).after text chars.length := by
  induction h with
  | nil => simp [after]
  | @cons c text written chars hwritten _ ih =>
      rw [List.append_assoc, read_encodesChar hstop hwritten, ih, after_after,
        List.length_append]
      rfl

end CharacterData

end XmlToJson

import XmlToJson.Proofs.Numerals
import XmlToJson.Proofs.Written

/-!
# Characters by their numbers

A reference stands for the character with a number if its name is a number sign and that number, in
ASCII digits of base ten or, behind an `x`, of base sixteen; the five names stand for a character as
well, and any other reference for itself.  `Reference.Ruled` is this rule, with one constructor for
each sort of name, and it does not mention reading.

The number is read by a general reading of whole numbers, which takes more than digits, and less
where the digits are many.  The names for which this shows are `Reference.Misread`:

* what follows the number sign is no number by the rule and is read as one all the same, because of
  a sign, of blanks, of underscores, of digits of another script or of a second mark of the base
  (`misread_mark`);
* it is the number of a character and is not read, because it has too many digits
  (`not_readsAs_of_long`).

## Strategy

What is read is told by `ReadsAs`, the grammar of `Numerals.lean` for either base.  With it
`resolve?_number_iff` says which references by number are replaced, and `named?_eq_some_iff` which
by name; the two do not meet, since none of the five names begins with a number sign
(`not_mem_namedCharacters`).  So the rule is compared with two grammars, name by name
(`not_ruled_of_misread`, `ruled_of_not_misread`), and holds for a name if and only if it is not
misread (`ruled_expand_iff`).

`Resolves` replaces every reference in a stretch by a rule.  A rule that is kept for each reference
is kept for the stretch (`Decodes.resolves`), and so for the texts and the quoted values of a whole
document (`references_ruled`).
-/

namespace XmlToJson

namespace Reference

open Numeral

/-! ## The rule -/

/-- Whether a name is a number sign and the number of a character in ASCII digits. -/
inductive IsNumber : List Char → Nat → Prop where
  | decimal {value : Nat} {digits : List Char} :
      PlainDigits 10 value digits → IsNumber ('#' :: digits) value
  | hexadecimal {value : Nat} {mark : Char} {digits : List Char} :
      mark = 'x' ∨ mark = 'X' → PlainDigits 16 value digits → IsNumber ('#' :: mark :: digits) value

/-- What the reference with the given name stands for, by the rule. -/
inductive Ruled : List Char → List Char → Prop where
  | number {name : List Char} {value : Nat} :
      IsNumber name value → Text.inRanges allowedRanges value = true →
      Ruled name [Char.ofNat value]
  | named {name : List Char} {c : Char} :
      (String.ofList name, c) ∈ namedCharacters → Ruled name [c]
  | literal {name : List Char} :
      (∀ value, IsNumber name value → Text.inRanges allowedRanges value = false) →
      (∀ c, (String.ofList name, c) ∉ namedCharacters) → Ruled name ('&' :: name ++ [';'])

/-! ## What is read -/

/-- Whether what follows a number sign is read as a number that is not negative. -/
inductive ReadsAs : List Char → Nat → Prop where
  | decimal {value : Nat} {number : List Char} :
      (∀ c ∈ number.head?, c ≠ 'x' ∧ c ≠ 'X') → Tolerated 10 number value → ReadsAs number value
  | hexadecimal {value : Nat} {mark : Char} {digits : List Char} :
      mark = 'x' ∨ mark = 'X' → Tolerated 16 digits value → ReadsAs (mark :: digits) value

/-- Whether the rule is not kept for a name: something that is no number is read as the number of a
character, or the number of a character has too many digits to be read. -/
inductive Misread : List Char → Prop where
  | tolerated {value : Nat} {number : List Char} :
      ReadsAs number value → Text.inRanges allowedRanges value = true →
      ¬ IsNumber ('#' :: number) value → Misread ('#' :: number)
  | tooLong {value : Nat} {digits : List Char} :
      PlainDigits 10 value digits → Text.inRanges allowedRanges value = true →
      maxDigits < digits.length → Misread ('#' :: digits)

variable {name number digits : List Char} {value : Nat} {c : Char}

theorem codePoint?_eq_some_iff (hpos : 0 < value) :
    codePoint? number = some (value : Int) ↔ ReadsAs number value := by
  unfold codePoint?
  constructor
  · intro h
    split at h
    · exact .hexadecimal (.inl rfl) ((hexadecimal?_eq_some_iff hpos).1 h)
    · exact .hexadecimal (.inr rfl) ((hexadecimal?_eq_some_iff hpos).1 h)
    · next hlower hupper =>
        refine .decimal (fun c hc => ⟨?_, ?_⟩) ((decimal?_eq_some_iff hpos).1 h)
        · rintro rfl
          obtain ⟨rest, rfl⟩ := List.head?_eq_some_iff.1 hc
          exact hlower rest rfl
        · rintro rfl
          obtain ⟨rest, rfl⟩ := List.head?_eq_some_iff.1 hc
          exact hupper rest rfl
  · intro h
    cases h with
    | decimal hhead htolerated =>
        split
        · exact absurd rfl (hhead 'x' rfl).1
        · exact absurd rfl (hhead 'X' rfl).2
        · exact (decimal?_eq_some_iff hpos).2 htolerated
    | hexadecimal hmark htolerated =>
        rcases hmark with rfl | rfl
        · exact (hexadecimal?_eq_some_iff hpos).2 htolerated
        · exact (hexadecimal?_eq_some_iff hpos).2 htolerated

theorem pos_of_inRanges (h : Text.inRanges allowedRanges value = true) : 0 < value := by
  refine Nat.pos_of_ne_zero ?_
  rintro rfl
  revert h
  decide

theorem character?_eq_some_iff {code : Int} : character? code = some c ↔
    ∃ value : Nat, code = value ∧ Text.inRanges allowedRanges value = true ∧
      c = Char.ofNat value := by
  unfold character?
  constructor
  · intro h
    split at h
    · next hallowed =>
        obtain rfl := Option.some.inj h
        exact ⟨code.toNat, (Int.toNat_of_nonneg hallowed.1).symm, hallowed.2, rfl⟩
    · simp at h
  · rintro ⟨value, rfl, hallowed, rfl⟩
    rw [Int.toNat_natCast, if_pos ⟨Int.natCast_nonneg value, hallowed⟩]

/-- A number sign begins a reference to the character with the number that is read. -/
theorem resolve?_number_iff : resolve? ('#' :: number) = some c ↔
    ∃ value, ReadsAs number value ∧ Text.inRanges allowedRanges value = true ∧
      c = Char.ofNat value := by
  show (codePoint? number).bind character? = some c ↔ _
  rw [Option.bind_eq_some_iff]
  constructor
  · rintro ⟨code, hcode, hc⟩
    obtain ⟨value, rfl, hallowed, rfl⟩ := character?_eq_some_iff.1 hc
    exact ⟨value, (codePoint?_eq_some_iff (pos_of_inRanges hallowed)).1 hcode, hallowed, rfl⟩
  · rintro ⟨value, hreads, hallowed, rfl⟩
    exact ⟨value, (codePoint?_eq_some_iff (pos_of_inRanges hallowed)).2 hreads,
      character?_eq_some_iff.2 ⟨value, rfl, hallowed, rfl⟩⟩

theorem named?_eq_some_iff : named? name = some c ↔ (String.ofList name, c) ∈ namedCharacters := by
  unfold named?
  constructor
  · intro h
    obtain ⟨front, behind, hlist, -⟩ := List.lookup_eq_some_iff.1 h
    rw [hlist]
    simp
  · generalize String.ofList name = key
    intro h
    simp only [namedCharacters, List.mem_cons, List.not_mem_nil, or_false, Prod.mk.injEq] at h
    rcases h with ⟨rfl, rfl⟩ | ⟨rfl, rfl⟩ | ⟨rfl, rfl⟩ | ⟨rfl, rfl⟩ | ⟨rfl, rfl⟩ <;> rfl

/-- None of the five names begins with a number sign. -/
theorem not_mem_namedCharacters (c : Char) :
    (String.ofList ('#' :: number), c) ∉ namedCharacters := by
  have hnames : ∀ entry ∈ namedCharacters, entry.1.toList.head? ≠ some '#' := by decide
  exact fun hmem => hnames _ hmem (by simp)

/-! ## The exceptions -/

theorem toNat_ofNat_of_inRanges (h : Text.inRanges allowedRanges value = true) :
    (Char.ofNat value).toNat = value := by
  have hvalid : value.isValidChar := by
    -- No range of allowed characters reaches into the surrogates.
    have hranges : ∀ range ∈ allowedRanges,
        range.2 < 0xD800 ∨ 0xDFFF < range.1 ∧ range.2 < 0x110000 := by decide
    obtain ⟨range, hmem, hlow, hhigh⟩ := Text.inRanges_iff.1 h
    have hrange := hranges range hmem
    unfold Nat.isValidChar
    omega
  rw [Char.ofNat, dif_pos hvalid]
  rfl

/-- The number of a character is read, unless it has too many digits. -/
theorem IsNumber.readsAs (h : IsNumber ('#' :: number) value)
    (hlength : PlainDigits 10 value number → number.length ≤ maxDigits) :
    ReadsAs number value := by
  cases h with
  | decimal hdigits =>
      refine .decimal (fun c hc => ?_)
        (hdigits.tolerated (by decide) (by simp [marks]) fun _ => hlength hdigits)
      have hmarks := hdigits.forall_mem (p := fun c => c ≠ 'x' ∧ c ≠ 'X') ?_
      · exact hmarks c (List.mem_of_mem_head? hc)
      · intro digit hlt c hc
        obtain ⟨-, -, -, -, -, -, -, hlower, hupper, -⟩ := digitChars_facts ⟨digit, by omega⟩ c hc
        exact ⟨hlower, hupper⟩
  | hexadecimal hmark hdigits =>
      exact .hexadecimal hmark (hdigits.tolerated (Nat.le_refl 16) (by simp [marks]) (by simp))

/-- Too many digits are not read. -/
theorem not_readsAs_of_long (h : PlainDigits 10 value digits) (hlong : maxDigits < digits.length)
    {other : Nat} (hpos : 0 < other) : ¬ ReadsAs digits other := by
  have hfacts : ∀ c ∈ digits, (simplify c = c ∧ isSpace c = false) ∧ c ≠ '_' ∧ c ≠ '-' ∧ c ≠ '+' ∧
      c ≠ 'x' ∧ c ≠ 'X' := by
    refine h.forall_mem fun digit hlt c hc => ?_
    obtain ⟨-, -, hsimplify, hspace, hunderscore, hminus, hplus, hlower, hupper, -⟩ :=
      digitChars_facts ⟨digit, by omega⟩ c hc
    exact ⟨⟨hsimplify, hspace⟩, hunderscore, hminus, hplus, hlower, hupper⟩
  have hhead : ∀ {d}, digits.head? = some d → d ∈ digits := fun hd => List.mem_of_mem_head? hd
  have hbody : bodyOf digits = digits := bodyOf_eq_self fun c hc => (hfacts c hc).1
  have hsign : signOf digits = (false, digits) :=
    signOf_eq (fun hd => (hfacts _ (hhead hd)).2.2.1 rfl)
      fun hd => (hfacts _ (hhead hd)).2.2.2.1 rfl
  have hcount : digits.countP (· != '_') = digits.length :=
    List.countP_eq_length.2 fun c hc => bne_iff_ne.2 (hfacts c hc).2.1
  have hnone : decimal? digits = none := by
    unfold decimal?
    rw [hbody, hsign]
    simp only [hcount, if_pos hlong]
  intro hreads
  rw [← codePoint?_eq_some_iff hpos] at hreads
  unfold codePoint? at hreads
  split at hreads
  · exact (hfacts 'x' List.mem_cons_self).2.2.2.2.1 rfl
  · exact (hfacts 'X' List.mem_cons_self).2.2.2.2.2 rfl
  · rw [hnone] at hreads
    contradiction

theorem expand_of_resolve? (h : resolve? name = some c) : expand name = [c] := by
  rw [expand, h]

theorem expand_of_none (h : resolve? name = none) : expand name = '&' :: name ++ [';'] := by
  rw [expand, h]

/-- The rule is not kept where a name is misread. -/
theorem not_ruled_of_misread (h : Misread name) : ¬ Ruled name (expand name) := by
  -- A reference that stands for itself is longer than a character.
  have hlonger : ∀ {found : Char}, [found] ≠ '&' :: name ++ [';'] := by
    intro found heq
    simpa using congrArg List.length heq
  cases h with
  | @tolerated value number hreads hallowed hnot =>
      rw [expand_of_resolve? (resolve?_number_iff.2 ⟨value, hreads, hallowed, rfl⟩)]
      intro hruled
      generalize htext : [Char.ofNat value] = text at hruled
      cases hruled with
      | @number other hnumber hother =>
          have hsame : Char.ofNat value = Char.ofNat other := (List.cons.inj htext).1
          have hvalue : value = other := by
            calc value = (Char.ofNat value).toNat := (toNat_ofNat_of_inRanges hallowed).symm
              _ = (Char.ofNat other).toNat := congrArg Char.toNat hsame
              _ = other := toNat_ofNat_of_inRanges hother
          exact hnot (hvalue ▸ hnumber)
      | named hmem => exact not_mem_namedCharacters _ hmem
      | literal _ _ => exact hlonger htext
  | @tooLong value digits hdigits hallowed hlong =>
      have hnone : resolve? ('#' :: digits) = none := by
        refine Option.eq_none_iff_forall_not_mem.2 fun found hfound => ?_
        obtain ⟨other, hreads, hother, -⟩ := resolve?_number_iff.1 hfound
        exact not_readsAs_of_long hdigits hlong (pos_of_inRanges hother) hreads
      rw [expand_of_none hnone]
      intro hruled
      generalize htext : '&' :: ('#' :: digits) ++ [';'] = text at hruled
      cases hruled with
      | number _ _ => exact hlonger htext.symm
      | named hmem => exact not_mem_namedCharacters _ hmem
      | literal hnone _ =>
          have hrefused := hnone value (.decimal hdigits)
          rw [hallowed] at hrefused
          contradiction

theorem ruled_of_not_misread (h : ¬ Misread name) : Ruled name (expand name) := by
  cases hresolve : resolve? name with
  | some c =>
      rw [expand_of_resolve? hresolve]
      unfold resolve? at hresolve
      split at hresolve
      · next number =>
          obtain ⟨value, hreads, hallowed, rfl⟩ := resolve?_number_iff.1 hresolve
          by_cases hnumber : IsNumber ('#' :: number) value
          · exact .number hnumber hallowed
          · exact absurd (.tolerated hreads hallowed hnumber) h
      · exact .named (named?_eq_some_iff.1 hresolve)
  | none =>
      rw [expand_of_none hresolve]
      refine .literal (fun value hnumber => ?_) (fun c hmem => ?_)
      · obtain ⟨number, rfl⟩ : ∃ number, name = '#' :: number := by
          cases hnumber with
          | decimal _ => exact ⟨_, rfl⟩
          | hexadecimal _ _ => exact ⟨_, rfl⟩
        refine Bool.eq_false_iff.2 fun hallowed => ?_
        have hreads : ReadsAs number value := hnumber.readsAs fun hdigits =>
          Nat.le_of_not_lt fun hlong => h (.tooLong hdigits hallowed hlong)
        have hsome := resolve?_number_iff.2 ⟨value, hreads, hallowed, rfl⟩
        rw [hresolve] at hsome
        contradiction
      · unfold resolve? at hresolve
        split at hresolve
        · exact not_mem_namedCharacters c hmem
        · rw [named?_eq_some_iff.2 hmem] at hresolve
          contradiction

theorem ruled_expand_iff (name : List Char) : Ruled name (expand name) ↔ ¬ Misread name :=
  ⟨fun hruled hmisread => not_ruled_of_misread hmisread hruled, ruled_of_not_misread⟩

example : Ruled "amp".toList ['&'] := .named (by decide)

/-- An `x` is no digit, so a number has no second mark. -/
theorem not_isNumber_of_mark (value : Nat) : ¬ IsNumber "#x0x41".toList value := by
  have hplain : ∀ {base value : Nat} {chars : List Char}, base ≤ 16 →
      PlainDigits base value chars → 'x' ∉ chars := by
    intro base value chars hbase hdigits
    have hfree : ∀ c ∈ chars, c ≠ 'x' := hdigits.forall_mem fun digit hlt c hc =>
      (digitChars_facts ⟨digit, Nat.lt_of_lt_of_le hlt hbase⟩ c hc).2.2.2.2.2.2.2.1
    exact fun hmem => hfree 'x' hmem rfl
  generalize hname : "#x0x41".toList = name
  intro hnumber
  cases hnumber with
  | decimal hdigits =>
      obtain ⟨-, rfl⟩ := List.cons.inj hname
      exact hplain (by decide) hdigits (by decide)
  | hexadecimal _ hdigits =>
      obtain ⟨-, htail⟩ := List.cons.inj hname
      obtain ⟨-, rfl⟩ := List.cons.inj htail
      exact hplain (Nat.le_refl 16) hdigits (by decide)

/-- A second mark of the base is read over, so something that is no number stands for `A`. -/
theorem misread_mark : Misread "#x0x41".toList := by
  have hgrouped : Grouped 16 65 ['4', '1'] :=
    @Grouped.snoc 16 4 1 '1' ['4'] (.single (by decide) (by decide)) (by decide) (by decide)
  have htolerated : Tolerated 16 ['0', 'x', '4', '1'] 65 :=
    @Tolerated.intro 16 _ 65 [] [] ['0', 'x'] ['4', '1'] [] (by decide) (by simp) (by simp)
      (by simp [marks]) hgrouped (by simp)
  exact @Misread.tolerated 65 "x0x41".toList (.hexadecimal (.inl rfl) htolerated) (by decide)
    (not_isNumber_of_mark 65)

end Reference

/-! ## Documents -/

/-- Whether a reference with the given name is written in a stretch. -/
def RefersTo (written name : List Char) : Prop :=
  (∀ c ∈ name, Reference.isNameChar c = true) ∧
    ∃ front behind, written = front ++ '&' :: (name ++ ';' :: behind)

theorem RefersTo.prepend {written name : List Char} (h : RefersTo written name)
    (front : List Char) : RefersTo (front ++ written) name := by
  obtain ⟨hname, before, behind, rfl⟩ := h
  exact ⟨hname, front ++ before, behind, by simp⟩

/-- Whether a stretch stands for a text, where each reference is replaced by a rule. -/
inductive Resolves (rule : List Char → List Char → Prop) : List Char → List Char → Prop where
  | nil : Resolves rule [] []
  | raw {c : Char} {written decoded : List Char} :
      c ≠ '&' → Resolves rule written decoded → Resolves rule (c :: written) (c :: decoded)
  | reference {name replaced written decoded : List Char} :
      (∀ c ∈ name, Reference.isNameChar c = true) → rule name replaced →
      Resolves rule written decoded →
      Resolves rule ('&' :: (name ++ ';' :: written)) (replaced ++ decoded)

/-- A rule that is kept for each of its references is kept for the stretch. -/
theorem Decodes.resolves {rule : List Char → List Char → Prop} {written decoded : List Char}
    (h : Decodes written decoded)
    (hrule : ∀ name, RefersTo written name → rule name (Reference.expand name)) :
    Resolves rule written decoded := by
  induction h with
  | nil => exact .nil
  | @raw c written decoded hc _ ih =>
      exact .raw hc (ih fun name hname => hrule name (hname.prepend [c]))
  | @reference name written decoded hchars _ ih =>
      refine .reference hchars (hrule name ⟨hchars, [], written, rfl⟩) (ih fun other hother => ?_)
      have hbehind := hother.prepend ('&' :: (name ++ [';']))
      rw [List.cons_append, List.append_assoc] at hbehind
      exact hrule other hbehind

/-- A reference stands for what the rule says if and only if its name is not misread.  So do the
references in the texts and the quoted values of a document that is accepted, from which its data
is gathered. -/
theorem references_ruled (name : List Char) (converter : Converter) (text : String) :
    (Reference.Ruled name (Reference.expand name) ↔ ¬ Reference.Misread name) ∧
    ∀ found : Conversion, (converter.convert text).outcome = .ok found →
      found.IsWritten converter text fun written decoded =>
        Decodes written decoded ∧
          ((∀ other, RefersTo written other → ¬ Reference.Misread other) →
            Resolves Reference.Ruled written decoded) := by
  refine ⟨Reference.ruled_expand_iff name, fun found hfound => ?_⟩
  refine (isWritten_of_convert hfound).mono fun written decoded hdecodes =>
    ⟨hdecodes, fun hread => ?_⟩
  exact hdecodes.resolves fun other hother => Reference.ruled_of_not_misread (hread other hother)

/-- The rule and the data of a document with a number in it. -/
theorem references_ruled_number :
    (Reference.Ruled "#65".toList (Reference.expand "#65".toList) ↔
      ¬ Reference.Misread "#65".toList) ∧
    ∃ found, (({} : Converter).convert "<a>&#65;</a>").outcome = .ok found ∧
      found.IsWritten {} "<a>&#65;</a>" Decodes := by
  have hok : (({} : Converter).convert "<a>&#65;</a>").outcome.toOption.isSome = true := by
    decide +kernel
  have hruled := references_ruled "#65".toList {} "<a>&#65;</a>"
  refine ⟨hruled.1, ?_⟩
  obtain ⟨found, hfound⟩ := exists_of_isSome hok
  exact ⟨found, hfound, (hruled.2 found hfound).mono fun _ _ => And.left⟩

theorem Value.eq_of_same_string {text : String} {value : Value}
    (h : Value.same (.string text) value = true) : value = .string text := by
  cases value with
  | string other =>
      have htext : text = other := by simpa [Value.same] using h
      rw [htext]
  | _ => simp [Value.same, Value.asInteger?] at h

/-- A reference that is no reference to a character is replaced in a document, against the rule. -/
theorem misread_mark_converted :
    (∃ found, (({} : Converter).convert "<a>&#x0x41;</a>").outcome = .ok found ∧
      found.data.get? "a" = some (.string "A")) ∧
    Reference.Ruled "#x0x41".toList "&#x0x41;".toList ∧
    ¬ Reference.Ruled "#x0x41".toList (Reference.expand "#x0x41".toList) := by
  refine ⟨?_, ?_, Reference.not_ruled_of_misread Reference.misread_mark⟩
  · have hok : (({} : Converter).convert "<a>&#x0x41;</a>").outcome.toOption.any (fun found =>
        (found.data.get? "a").any (Value.same (.string "A"))) = true := by
      decide +kernel
    cases hfound : (({} : Converter).convert "<a>&#x0x41;</a>").outcome with
    | error failure => simp [hfound, Except.toOption] at hok
    | ok found =>
        simp only [hfound, Except.toOption, Option.any_some] at hok
        obtain ⟨value, hvalue, hsame⟩ := (Option.any_eq_true _ _).1 hok
        obtain rfl := Value.eq_of_same_string hsame
        exact ⟨found, rfl, hvalue⟩
  · refine .literal (fun value hnumber => absurd hnumber ?_) Reference.not_mem_namedCharacters
    exact Reference.not_isNumber_of_mark value

end XmlToJson

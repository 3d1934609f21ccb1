import Mathlib.Data.List.Forall2
import XmlToJson.Proofs.NumberLiterals
import XmlToJson.Proofs.Rounding
import XmlToJson.Scalar

/-!
# What a text stands for

The texts are told apart without reading them: `IsSpelling` says that a text is a word in any case,
`IsInteger` that it is an integer literal and `IsDecimal` that it is one with a fraction or an
exponent, all in ASCII characters.  The form determines the value of the text (`standsFor_ofText`),
and `Classifies` collects what follows: a text becomes an integer, a floating-point number or a word
exactly if it has the form of one, an integer is printed as the text that it was, a floating-point
number is the one nearest to what is written, and everything else stays as it is
(`ofText_lossless`).

## Strategy

* **Words** are compared without regard to case, character by character (`isSpelling_iff`).  Only
  the letters of ASCII have a small letter that is one of a word (`toLower_eq_iff`).
* **Literals.**  A literal is read in only one way (`literal?_eq_some_iff`), and a word begins as no
  literal does (`word?_of_begins`).  So the first character, by which reading decides whether a text
  is looked at as a literal at all, makes no difference to the value (`ofText_eq_withoutShortcut`).
* **Integers** are read as a sign and a whole part, which is printed as it was written
  (`ofText_of_isInteger`), unless it is a zero with a minus, which is a floating-point number.  The
  converse is `ofText_toString`: every integer is read back from its print, if it has no more digits
  than can be read.
* **Floating-point numbers** are rounded to the nearest (`rounds_floatValue`); where that is
  infinite the text stays as it is (`ofText_of_isDecimal`).

`StandsFor` has one constructor for each form, and every text has one of them, so each part of the
classification is a case analysis (`classifies_ofText`).
-/

namespace XmlToJson

/-! ## Words -/

theorem toNat_toLower (c : Char) :
    c.toLower.toNat = if 65 ≤ c.toNat ∧ c.toNat ≤ 90 then c.toNat + 32 else c.toNat := by
  have hiff : c.val ≥ 'A'.val ∧ c.val ≤ 'Z'.val ↔ 65 ≤ c.toNat ∧ c.toNat ≤ 90 :=
    and_congr UInt32.le_iff_toNat_le UInt32.le_iff_toNat_le
  unfold Char.toLower
  split
  · next hcapital =>
      have hrange := hiff.1 hcapital
      rw [if_pos hrange]
      refine (UInt32.toNat_add c.val 32).trans (Nat.mod_eq_of_lt ?_)
      have hcode : c.val.toNat = c.toNat := rfl
      have hshift : (32 : UInt32).toNat = 32 := rfl
      omega
  · next hother => rw [if_neg (mt hiff.2 hother)]

theorem toNat_toUpper (c : Char) :
    c.toUpper.toNat = if 97 ≤ c.toNat ∧ c.toNat ≤ 122 then c.toNat - 32 else c.toNat := by
  have hiff : 'a'.val ≤ c.val ∧ c.val ≤ 'z'.val ↔ 97 ≤ c.toNat ∧ c.toNat ≤ 122 :=
    and_congr UInt32.le_iff_toNat_le UInt32.le_iff_toNat_le
  unfold Char.toUpper
  split
  · next hsmall =>
      have hrange := hiff.1 hsmall
      rw [if_pos hrange]
      refine (UInt32.toNat_add c.val ('A'.val - 'a'.val)).trans ?_
      have hcode : c.val.toNat = c.toNat := rfl
      have hshift : ('A'.val - 'a'.val).toNat = 4294967264 := rfl
      omega
  · next hother => rw [if_neg (mt hiff.2 hother)]

/-- A letter is made small to a given one if it is that or its capital. -/
theorem toLower_eq_iff {small c : Char} (hsmall : 97 ≤ small.toNat ∧ small.toNat ≤ 122) :
    c.toLower = small ↔ c = small ∨ c = small.toUpper := by
  simp only [← Char.toNat_inj, toNat_toLower, toNat_toUpper, if_pos hsmall]
  split <;> omega

namespace Scalar

/-- Whether a text is a word of small letters, each of them small or capital. -/
def IsSpelling (word text : String) : Prop :=
  List.Forall₂ (fun small c => c = small ∨ c = small.toUpper) word.toList text.toList

theorem isSpelling_iff {word text : String}
    (hword : ∀ c ∈ word.toList, 97 ≤ c.toNat ∧ c.toNat ≤ 122) :
    String.ofList (text.toList.map Char.toLower) = word ↔ IsSpelling word text := by
  have hchars : String.ofList (text.toList.map Char.toLower) = word ↔
      text.toList.map Char.toLower = word.toList := by
    rw [← String.toList_inj, String.toList_ofList]
  rw [hchars, IsSpelling]
  generalize word.toList = small at hword ⊢
  generalize text.toList = chars
  induction small generalizing chars with
  | nil => cases chars <;> simp
  | cons c small ih =>
      cases chars with
      | nil => simp
      | cons d chars =>
          rw [List.forall_mem_cons] at hword
          rw [List.map_cons, List.cons.injEq, List.forall₂_cons, toLower_eq_iff hword.1]
          exact and_congr_right fun _ => ih hword.2 chars

theorem word?_eq_some_iff {text : String} {value : Value} : word? text.toList = some value ↔
    (IsSpelling "true" text ∧ value = .bool true) ∨
      (IsSpelling "false" text ∧ value = .bool false) ∨
      (IsSpelling "null" text ∧ value = .null) := by
  have htrue := @isSpelling_iff "true" text (by simp)
  have hfalse := @isSpelling_iff "false" text (by simp)
  have hnull := @isSpelling_iff "null" text (by simp)
  rw [← htrue, ← hfalse, ← hnull]
  unfold word?
  split
  · next h => simp [h, eq_comm]
  · next h => simp [h, eq_comm]
  · next h => simp [h, eq_comm]
  · next hnotTrue hnotFalse hnotNull =>
      refine iff_of_false (by simp) ?_
      rintro (⟨h, -⟩ | ⟨h, -⟩ | ⟨h, -⟩)
      · exact hnotTrue h
      · exact hnotFalse h
      · exact hnotNull h

/-- A word begins as no literal does. -/
theorem word?_of_begins {text : List Char} (h : beginsLiteral text = true) : word? text = none := by
  cases text with
  | nil => rfl
  | cons c rest =>
      have hcode : c.toNat < 58 := by
        rcases Bool.or_eq_true_iff.1 h with hminus | hdigit
        · rw [beq_iff_eq.1 hminus]
          decide
        · have hbounds := Numeral.digit_bounds hdigit
          omega
      have hlower : c.toLower.toNat < 58 := by
        rw [toNat_toLower, if_neg (by omega)]
        exact hcode
      have hfirst : ∀ word : String, String.ofList ((c :: rest).map Char.toLower) = word →
          ∀ first ∈ word.toList.head?, first.toNat < 58 := by
        rintro word rfl first hmem
        rw [String.toList_ofList, List.map_cons, List.head?_cons] at hmem
        rwa [← Option.some.inj hmem]
      unfold word?
      split
      · next hword => exact absurd (hfirst _ hword 't' rfl) (by decide)
      · next hword => exact absurd (hfirst _ hword 'f' rfl) (by decide)
      · next hword => exact absurd (hfirst _ hword 'n' rfl) (by decide)
      · rfl

/-! ## Literals -/

/-- Whether a text is an integer literal with the given whole part. -/
structure IsInteger (text : String) (whole : List Char) : Prop where
  chars : text.toList = whole ∨ text.toList = '-' :: whole
  isWhole : Numeral.IsWhole whole

/-- Whether a text is the given literal, with a fraction or an exponent. -/
structure IsDecimal (text : String) (literal : Numeral.Literal) : Prop where
  wellFormed : literal.WellFormed
  chars : literal.chars = text.toList
  more : literal.fraction ≠ [] ∨ literal.exponent ≠ []

theorem literal?_eq_some_iff {text : List Char} {literal : Numeral.Literal} :
    literal? text = some literal ↔ literal.WellFormed ∧ literal.chars = text := by
  rw [← Numeral.Literal.read_eq_iff]
  unfold literal?
  split
  · next found hread => simp [hread]
  · next hread =>
      refine iff_of_false (by simp) fun h => ?_
      exact hread literal h

/-- A text that is read as a literal begins as one. -/
theorem begins_of_literal? {text : List Char} {literal : Numeral.Literal}
    (h : literal? text = some literal) : beginsLiteral text = true := by
  obtain ⟨hformed, rfl⟩ := literal?_eq_some_iff.1 h
  unfold Numeral.Literal.chars Numeral.Literal.signChars
  split
  · rfl
  · obtain ⟨c, rest, hwhole⟩ := List.exists_cons_of_ne_nil hformed.whole.isDigits.ne_nil
    have hdigit := hformed.whole.isDigits.all c (by simp [hwhole])
    simp [beginsLiteral, hwhole, hdigit]

/-- What a text stands for if the first character is not looked at. -/
def withoutShortcut (text : String) : Except TooLong Value :=
  match word? text.toList with
  | some value => .ok value
  | none => ofLiteral text

/-- The first character tells no literal from the words and the other texts that is not told
without it. -/
theorem ofText_eq_withoutShortcut (text : String) : ofText text = withoutShortcut text := by
  unfold ofText withoutShortcut
  cases word? text.toList with
  | some value => rfl
  | none =>
      dsimp only
      split
      · rfl
      · next hbegins =>
          unfold ofLiteral
          cases hliteral : literal? text.toList with
          | none => rfl
          | some literal => exact absurd (begins_of_literal? hliteral) hbegins

theorem ofText_of_word {text : String} {value : Value} (h : word? text.toList = some value) :
    ofText text = .ok value := by
  unfold ofText
  rw [h]

theorem ofText_of_literal? {text : String} {literal : Numeral.Literal}
    (h : literal? text.toList = some literal) : ofText text = ofLiteral text := by
  rw [ofText_eq_withoutShortcut, withoutShortcut, word?_of_begins (begins_of_literal? h)]

theorem ofText_of_other {text : String} (hword : word? text.toList = none)
    (hliteral : literal? text.toList = none) : ofText text = .ok (.string text) := by
  rw [ofText_eq_withoutShortcut, withoutShortcut, hword]
  unfold ofLiteral
  rw [hliteral]

theorem ofText_negativeZero : ofText "-0" = .ok (.float (.zero true)) := by
  rfl

/-! ### Integers -/

/-- An integer literal is read as a sign and its whole part. -/
theorem IsInteger.exists_literal? {text : String} {whole : List Char} (h : IsInteger text whole) :
    ∃ negative, literal? text.toList = some ⟨negative, whole, [], []⟩ := by
  rcases h.chars with hchars | hchars
  · refine ⟨false, literal?_eq_some_iff.2 ⟨⟨h.isWhole, by simp, .inl rfl⟩, ?_⟩⟩
    simp [Numeral.Literal.chars, Numeral.Literal.signChars, Numeral.Literal.pointChars, hchars]
  · refine ⟨true, literal?_eq_some_iff.2 ⟨⟨h.isWhole, by simp, .inl rfl⟩, ?_⟩⟩
    simp [Numeral.Literal.chars, Numeral.Literal.signChars, Numeral.Literal.pointChars, hchars]

/-- A literal without fraction and exponent is an integer literal. -/
theorem isInteger_of_literal? {text : String} {literal : Numeral.Literal}
    (h : literal? text.toList = some literal) (hinteger : literal.isInteger = true) :
    IsInteger text literal.whole := by
  obtain ⟨hformed, hchars⟩ := literal?_eq_some_iff.1 h
  obtain ⟨hfraction, hexponent⟩ := Bool.and_eq_true_iff.1 hinteger
  refine ⟨?_, hformed.whole⟩
  rw [← hchars, Numeral.Literal.chars, Numeral.Literal.pointChars, if_pos hfraction,
    List.isEmpty_iff.1 hexponent, List.append_nil, List.append_nil, Numeral.Literal.signChars]
  split
  · exact .inr rfl
  · exact .inl rfl

theorem toString_intValue {text : String} {negative : Bool} {whole : List Char}
    (h : literal? text.toList = some ⟨negative, whole, [], []⟩) (hzero : text ≠ "-0") :
    toString (Numeral.Literal.intValue ⟨negative, whole, [], []⟩) = text := by
  obtain ⟨hformed, hchars⟩ := literal?_eq_some_iff.1 h
  have hwhole : Numeral.IsWhole whole := hformed.whole
  have hprinted : (Numeral.Literal.natOfDigits whole).repr = String.ofList whole := by
    rw [Nat.repr_eq_ofList_toDigits, Numeral.Literal.toDigits_natOfDigits hwhole]
  rw [Int.toString_eq_repr]
  cases negative with
  | false =>
      have htext : whole = text.toList := by
        simpa [Numeral.Literal.chars, Numeral.Literal.signChars, Numeral.Literal.pointChars]
          using hchars
      rw [← String.ofList_toList (s := text), ← htext, ← hprinted]
      rfl
  | true =>
      have htext : '-' :: whole = text.toList := by
        simpa [Numeral.Literal.chars, Numeral.Literal.signChars, Numeral.Literal.pointChars]
          using hchars
      have hpos : 0 < Numeral.Literal.natOfDigits whole := by
        rcases hwhole with rfl | ⟨hdigits, hhead⟩
        · exact absurd (String.toList_inj.1 htext.symm) hzero
        · exact Numeral.Literal.natOfDigits_pos hdigits hhead
      have hvalue : Numeral.Literal.intValue ⟨true, whole, [], []⟩ =
          -(Numeral.Literal.natOfDigits whole : Int) := rfl
      rw [hvalue, Int.repr_eq_if, if_neg (by omega), Int.neg_neg, Int.toNat_natCast, hprinted,
        ← String.ofList_toList (s := text), ← htext, String.ofList_cons]
      rfl

theorem ofText_of_integer {text : String} {literal : Numeral.Literal}
    (h : literal? text.toList = some literal) (hinteger : literal.isInteger = true)
    (hzero : text ≠ "-0") : ofText text =
      if Numeral.maxDigits < literal.whole.length then .error .tooLong
      else .ok (.integer literal.intValue) := by
  rw [ofText_of_literal? h]
  unfold ofLiteral
  rw [h]
  dsimp only
  rw [if_neg hzero, if_pos hinteger]

/-- An integer literal stands for the integer that is printed as the text. -/
theorem ofText_of_isInteger {text : String} {whole : List Char} (h : IsInteger text whole)
    (hzero : text ≠ "-0") : ∃ n : Int, toString n = text ∧
      ofText text = if Numeral.maxDigits < whole.length then .error .tooLong
        else .ok (.integer n) := by
  obtain ⟨negative, hliteral⟩ := h.exists_literal?
  exact ⟨_, toString_intValue hliteral hzero, ofText_of_integer hliteral rfl hzero⟩

/-- The literal that an integer is printed as. -/
def literalOf (n : Int) : Numeral.Literal :=
  ⟨decide (n < 0), Nat.toDigits 10 n.natAbs, [], []⟩

theorem intValue_literalOf (n : Int) : (literalOf n).intValue = n := by
  unfold Numeral.Literal.intValue literalOf
  simp only [Numeral.Literal.natOfDigits_toDigits, decide_eq_true_eq]
  split <;> omega

theorem literal?_toString (n : Int) : literal? (toString n).toList = some (literalOf n) := by
  refine literal?_eq_some_iff.2
    ⟨⟨Numeral.Literal.isWhole_toDigits n.natAbs, by simp [literalOf], .inl rfl⟩, ?_⟩
  rw [Int.toString_eq_repr, Int.repr_eq_if]
  split
  · next hnonneg =>
      simp [literalOf, Numeral.Literal.chars, Numeral.Literal.signChars,
        Numeral.Literal.pointChars, Nat.repr_eq_ofList_toDigits, show ¬n < 0 by omega,
        show n.toNat = n.natAbs by omega]
  · next hnegative =>
      simp [literalOf, Numeral.Literal.chars, Numeral.Literal.signChars,
        Numeral.Literal.pointChars, Nat.repr_eq_ofList_toDigits, show n < 0 by omega,
        show (-n).toNat = n.natAbs by omega]

theorem toString_ne_negativeZero (n : Int) : toString n ≠ "-0" := by
  intro h
  have hliteral := literal?_toString n
  have hread : literal? "-0".toList = some ⟨true, ['0'], [], []⟩ := by decide
  rw [h, hread] at hliteral
  -- A literal without digits but zero has the value zero, which is not negative.
  have hvalue : (0 : Int) = n := by rw [← intValue_literalOf n, ← Option.some.inj hliteral]; rfl
  subst hvalue
  contradiction

/-- Every integer is read back from its print, if it has no more digits than can be read. -/
theorem ofText_toString {n : Int} (h : (toString n.natAbs).length ≤ Numeral.maxDigits) :
    ofText (toString n) = .ok (.integer n) := by
  have hshort : ¬Numeral.maxDigits < (literalOf n).whole.length := by
    rw [Nat.toString_eq_repr, Nat.repr_eq_ofList_toDigits, String.length_ofList] at h
    exact Nat.not_lt.2 h
  rw [ofText_of_integer (literal?_toString n) rfl (toString_ne_negativeZero n), if_neg hshort,
    intValue_literalOf]

/-! ### Floating-point numbers -/

/-- The magnitude of the number that a literal is written for. -/
def magnitude (literal : Numeral.Literal) : ℚ :=
  Numeral.Literal.natOfDigits (literal.whole ++ literal.fraction) *
    10 ^ (literal.exponentValue - literal.fraction.length)

theorem rounds_floatValue (literal : Numeral.Literal) :
    Binary64.Rounds literal.negative (magnitude literal) literal.floatValue :=
  Binary64.rounds_ofDecimal _ _ _

/-- A literal with a fraction or an exponent is no integer literal. -/
theorem IsDecimal.literal?_eq {text : String} {literal : Numeral.Literal}
    (h : IsDecimal text literal) :
    literal? text.toList = some literal ∧ literal.isInteger = false := by
  refine ⟨literal?_eq_some_iff.2 ⟨h.wellFormed, h.chars⟩, ?_⟩
  rcases h.more with hfraction | hexponent
  · simp [Numeral.Literal.isInteger, hfraction]
  · simp [Numeral.Literal.isInteger, hexponent]

/-- A literal with a fraction or an exponent stands for the number nearest to it, unless that is
infinite. -/
theorem ofText_of_isDecimal {text : String} {literal : Numeral.Literal}
    (h : IsDecimal text literal) :
    ofText text =
      .ok (if literal.floatValue.isFinite then .float literal.floatValue else .string text) := by
  obtain ⟨hliteral, hinteger⟩ := h.literal?_eq
  have hzero : text ≠ "-0" := by
    rintro rfl
    have hread : literal? "-0".toList = some ⟨true, ['0'], [], []⟩ := by decide
    obtain rfl := Option.some.inj (hread.symm.trans hliteral)
    contradiction
  rw [ofText_of_literal? hliteral]
  unfold ofLiteral
  rw [hliteral]
  simp only [hzero, hinteger, if_false, Bool.false_eq_true]

/-! ## All texts -/

/-- The value of a text by its form. -/
inductive StandsFor (text : String) : Except TooLong Value → Prop where
  | word {value : Value} : word? text.toList = some value → StandsFor text (.ok value)
  | negativeZero : text = "-0" → StandsFor text (.ok (.float (.zero true)))
  | integer {whole : List Char} {n : Int} :
      IsInteger text whole → text ≠ "-0" → whole.length ≤ Numeral.maxDigits → toString n = text →
      StandsFor text (.ok (.integer n))
  | tooLong {whole : List Char} :
      IsInteger text whole → Numeral.maxDigits < whole.length → StandsFor text (.error .tooLong)
  | float {literal : Numeral.Literal} :
      IsDecimal text literal → magnitude literal < Binary64.overflow →
      StandsFor text (.ok (.float literal.floatValue))
  | tooGreat {literal : Numeral.Literal} :
      IsDecimal text literal → Binary64.overflow ≤ magnitude literal →
      StandsFor text (.ok (.string text))
  | other : word? text.toList = none → literal? text.toList = none →
      StandsFor text (.ok (.string text))

theorem standsFor_of_isInteger {text : String} {whole : List Char} (h : IsInteger text whole)
    (hzero : text ≠ "-0") : StandsFor text (ofText text) := by
  obtain ⟨n, hprinted, hvalue⟩ := ofText_of_isInteger h hzero
  rw [hvalue]
  split
  · next hlong => exact .tooLong h hlong
  · next hshort => exact .integer h hzero (Nat.not_lt.1 hshort) hprinted

theorem standsFor_of_isDecimal {text : String} {literal : Numeral.Literal}
    (h : IsDecimal text literal) : StandsFor text (ofText text) := by
  have hfinite := (rounds_floatValue literal).isFinite_iff
  rw [ofText_of_isDecimal h]
  split
  · next hless => exact .float h (hfinite.1 hless)
  · next hgreat => exact .tooGreat h (not_lt.1 (mt hfinite.2 hgreat))

/-- Every text has one of the forms, and the value that belongs to it. -/
theorem standsFor_ofText (text : String) : StandsFor text (ofText text) := by
  cases hword : word? text.toList with
  | some value =>
      rw [ofText_of_word hword]
      exact .word hword
  | none =>
      cases hliteral : literal? text.toList with
      | none =>
          rw [ofText_of_other hword hliteral]
          exact .other hword hliteral
      | some literal =>
          by_cases hzero : text = "-0"
          · rw [hzero, ofText_negativeZero]
            exact .negativeZero rfl
          · by_cases hinteger : literal.isInteger = true
            · exact standsFor_of_isInteger (isInteger_of_literal? hliteral hinteger) hzero
            · obtain ⟨hformed, hchars⟩ := literal?_eq_some_iff.1 hliteral
              refine standsFor_of_isDecimal ⟨hformed, hchars, ?_⟩
              simpa [Numeral.Literal.isInteger, or_iff_not_imp_left] using hinteger

/-- What the values of texts have to be. -/
structure Classifies (read : String → Except TooLong Value) (text : String) : Prop where
  /-- The integers are the integer literals with digits that can be read, without minus zero. -/
  integer_iff : (∃ n, read text = .ok (.integer n)) ↔
    text ≠ "-0" ∧ ∃ whole, IsInteger text whole ∧ whole.length ≤ Numeral.maxDigits
  /-- An integer is printed as it was written. -/
  printed : ∀ n, read text = .ok (.integer n) → toString n = text
  true_iff : read text = .ok (.bool true) ↔ IsSpelling "true" text
  false_iff : read text = .ok (.bool false) ↔ IsSpelling "false" text
  null_iff : read text = .ok .null ↔ IsSpelling "null" text
  /-- The floating-point numbers are minus zero and the literals with a fraction or an exponent that
  are not rounded to an infinite number. -/
  float_iff : (∃ x, read text = .ok (.float x)) ↔
    text = "-0" ∨ ∃ literal, IsDecimal text literal ∧ magnitude literal < Binary64.overflow
  /-- A floating-point number is finite, and the one nearest to what is written. -/
  nearest : ∀ x, read text = .ok (.float x) → x.isFinite = true ∧
    (text = "-0" ∧ x = .zero true ∨ ∃ literal, IsDecimal text literal ∧
      Binary64.Rounds literal.negative (magnitude literal) x)
  /-- Only integer literals with too many digits cannot be read. -/
  tooLong_iff : read text = .error .tooLong ↔
    ∃ whole, IsInteger text whole ∧ Numeral.maxDigits < whole.length
  /-- Every other text stays as it is. -/
  other : read text = .error .tooLong ∨ ∃ value, read text = .ok value ∧
    ((∃ n, value = .integer n) ∨ (∃ x, value = .float x) ∨ (∃ b, value = .bool b) ∨ value = .null ∨
      value = .string text)

theorem not_word {text : String} {value : Value} (hbool : ∀ b, value ≠ .bool b)
    (hnull : value ≠ .null) : word? text.toList ≠ some value := by
  intro h
  rcases word?_eq_some_iff.1 h with ⟨-, rfl⟩ | ⟨-, rfl⟩ | ⟨-, rfl⟩
  · exact hbool true rfl
  · exact hbool false rfl
  · exact hnull rfl

theorem classifies_ofText (text : String) : Classifies ofText text where
  integer_iff := by
    have hform := standsFor_ofText text
    constructor
    · rintro ⟨n, h⟩
      rw [h] at hform
      cases hform with
      | word hword => exact absurd hword (not_word (by simp) (by simp))
      | integer hinteger hzero hshort _ => exact ⟨hzero, _, hinteger, hshort⟩
    · rintro ⟨hzero, whole, hinteger, hshort⟩
      obtain ⟨n, -, hvalue⟩ := ofText_of_isInteger hinteger hzero
      exact ⟨n, by rw [hvalue, if_neg (Nat.not_lt.2 hshort)]⟩
  printed n h := by
    have hform := standsFor_ofText text
    rw [h] at hform
    cases hform with
    | word hword => exact absurd hword (not_word (by simp) (by simp))
    | integer _ _ _ hprinted => exact hprinted
  true_iff := by
    have hform := standsFor_ofText text
    refine ⟨fun h => ?_, fun h => ofText_of_word (word?_eq_some_iff.2 (.inl ⟨h, rfl⟩))⟩
    rw [h] at hform
    cases hform with
    | word hword => simpa using word?_eq_some_iff.1 hword
  false_iff := by
    have hform := standsFor_ofText text
    refine ⟨fun h => ?_, fun h => ofText_of_word (word?_eq_some_iff.2 (.inr (.inl ⟨h, rfl⟩)))⟩
    rw [h] at hform
    cases hform with
    | word hword => simpa using word?_eq_some_iff.1 hword
  null_iff := by
    have hform := standsFor_ofText text
    refine ⟨fun h => ?_, fun h => ofText_of_word (word?_eq_some_iff.2 (.inr (.inr ⟨h, rfl⟩)))⟩
    rw [h] at hform
    cases hform with
    | word hword => simpa using word?_eq_some_iff.1 hword
  float_iff := by
    have hform := standsFor_ofText text
    constructor
    · rintro ⟨x, h⟩
      rw [h] at hform
      cases hform with
      | word hword => exact absurd hword (not_word (by simp) (by simp))
      | negativeZero hzero => exact .inl hzero
      | float hdecimal hless => exact .inr ⟨_, hdecimal, hless⟩
    · rintro (rfl | ⟨literal, hdecimal, hless⟩)
      · exact ⟨_, ofText_negativeZero⟩
      · have hfinite := (rounds_floatValue literal).isFinite_iff.2 hless
        exact ⟨_, by rw [ofText_of_isDecimal hdecimal, if_pos hfinite]⟩
  nearest x h := by
    have hform := standsFor_ofText text
    rw [h] at hform
    cases hform with
    | word hword => exact absurd hword (not_word (by simp) (by simp))
    | negativeZero hzero => exact ⟨rfl, .inl ⟨hzero, rfl⟩⟩
    | @float literal hdecimal hless =>
        have hrounds := rounds_floatValue literal
        exact ⟨hrounds.isFinite_iff.2 hless, .inr ⟨_, hdecimal, hrounds⟩⟩
  tooLong_iff := by
    have hform := standsFor_ofText text
    constructor
    · intro h
      rw [h] at hform
      cases hform with
      | tooLong hinteger hlong => exact ⟨_, hinteger, hlong⟩
    · rintro ⟨whole, hinteger, hlong⟩
      have hzero : text ≠ "-0" := by
        rintro rfl
        have hlength : whole.length ≤ "-0".toList.length := by
          rcases hinteger.chars with hchars | hchars <;> simp [hchars]
        exact absurd (Nat.lt_of_lt_of_le hlong hlength) (by decide)
      obtain ⟨n, -, hvalue⟩ := ofText_of_isInteger hinteger hzero
      rw [hvalue, if_pos hlong]
  other := by
    have hform := standsFor_ofText text
    cases hread : ofText text with
    | error problem =>
        cases problem
        exact .inl rfl
    | ok value =>
        rw [hread] at hform
        refine .inr ⟨value, rfl, ?_⟩
        cases hform with
        | word hword =>
            rcases word?_eq_some_iff.1 hword with ⟨-, rfl⟩ | ⟨-, rfl⟩ | ⟨-, rfl⟩
            · exact .inr (.inr (.inl ⟨true, rfl⟩))
            · exact .inr (.inr (.inl ⟨false, rfl⟩))
            · exact .inr (.inr (.inr (.inl rfl)))
        | negativeZero => exact .inr (.inl ⟨_, rfl⟩)
        | integer => exact .inl ⟨_, rfl⟩
        | float => exact .inr (.inl ⟨_, rfl⟩)
        | tooGreat | other => exact .inr (.inr (.inr (.inr rfl)))

/-- Texts are told apart exactly and without loss.  Each becomes an integer, a floating-point number
or a word if and only if it has the form of one, and stays as it is otherwise; an integer is printed
as the text that it was, and every integer with digits that can be read is what is read of its
print, so no two texts become the same integer.  A look at the first character changes nothing. -/
theorem ofText_lossless :
    (∀ text, Classifies ofText text) ∧
      (∀ n : Int, (toString n.natAbs).length ≤ Numeral.maxDigits →
        ofText (toString n) = .ok (.integer n)) ∧
      (∀ first second n, ofText first = .ok (.integer n) → ofText second = .ok (.integer n) →
        first = second) ∧
      ∀ text, ofText text = withoutShortcut text := by
  refine ⟨classifies_ofText, fun _ => ofText_toString, fun first second n hfirst hsecond => ?_,
    ofText_eq_withoutShortcut⟩
  exact ((classifies_ofText first).printed n hfirst).symm.trans
    ((classifies_ofText second).printed n hsecond)

/-- Minus twelve is read back from its print, and `-12` is its only print. -/
theorem ofText_lossless_minusTwelve :
    (toString (-12 : Int).natAbs).length ≤ Numeral.maxDigits ∧
      ofText (toString (-12 : Int)) = .ok (.integer (-12)) ∧
      ofText "-12" = .ok (.integer (-12)) ∧ toString (-12 : Int) = "-12" := by
  have hlength : (toString (-12 : Int).natAbs).length ≤ Numeral.maxDigits := by decide
  have hread : ofText "-12" = .ok (.integer (-12)) := by rfl
  have hprint := ofText_lossless.2.1 (-12) hlength
  exact ⟨hlength, hprint, hread, ofText_lossless.2.2.1 _ _ (-12) hprint hread⟩

end Scalar

end XmlToJson

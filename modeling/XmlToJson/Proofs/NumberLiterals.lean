import Mathlib.Data.List.Induction
import XmlToJson.Numeral.Literal
import XmlToJson.Proofs.Locality

/-!
# The grammar of number literals

`Literal.WellFormed` is the grammar: a whole part without leading zeros, digits behind the point,
and a mark with an optional sign and digits as the exponent, all in ASCII digits.  A text is read as
a literal with nothing behind it if and only if it is what a well-formed literal is written as
(`Literal.read_eq_iff`).

## Strategy

* **What is read is a literal.**  Each part of a literal is read by a function of its own, and each
  of these has one lemma that says what it took: the whole part (`isWhole_readWhole`), the fraction
  (`readFraction_spec`), the sign and the exponent (`readSign_spec`, `readExponent_spec`).  What is
  read behind something that was read is again a part of the text (`isPrefix_append`), so the parts
  written one behind the other are what the text begins with (`wellFormed_front`).
* **Every literal is read.**  A part is read where it stands if what follows does not go on with it.
  `Stops` says that of a text for the literal as a whole: it begins with no digit, no point and no
  mark of an exponent.  Inside a literal the parts stop each other, as behind a fraction comes no
  digit, and without one comes no point (`head?_exponent_append`).  The lemmas end in
  `readWhole_append`, `readFraction_append` and `readExponent_append`, and lead to `read_append`.

The last section is about the digits alone.  A whole part is what the number that it stands for is
printed as (`toDigits_natOfDigits`), and every number is printed as a whole part
(`isWhole_toDigits`), so whole numbers and their digits are the same thing.  Both are inductions on
the digits from the last one, as that is the one that the number gives first (`natOfDigits_concat`).
-/

namespace XmlToJson.Numeral

/-- Whether a text is made of ASCII digits, of which there is at least one. -/
structure IsDigits (text : List Char) : Prop where
  ne_nil : text ≠ []
  all : ∀ c ∈ text, c.isDigit = true

/-- Whether a text is the whole part of a literal: a zero, or digits that do not begin with one. -/
def IsWhole (text : List Char) : Prop :=
  text = ['0'] ∨ IsDigits text ∧ text.head? ≠ some '0'

theorem IsWhole.isDigits {text : List Char} (h : IsWhole text) : IsDigits text := by
  rcases h with rfl | ⟨hdigits, -⟩
  · exact ⟨by decide, List.forall_mem_singleton.2 rfl⟩
  · exact hdigits

namespace Literal

/-- Whether a text is an exponent. -/
def IsExponent (text : List Char) : Prop :=
  ∃ mark sign size, text = mark :: (sign ++ size) ∧ (mark = 'e' ∨ mark = 'E') ∧
    (sign = [] ∨ sign = ['+'] ∨ sign = ['-']) ∧ IsDigits size

/-- Whether the parts of a literal are as they have to be. -/
structure WellFormed (literal : Literal) : Prop where
  whole : IsWhole literal.whole
  fraction : ∀ c ∈ literal.fraction, c.isDigit = true
  exponent : literal.exponent = [] ∨ IsExponent literal.exponent

/-- The sign, as it is written. -/
def signChars (literal : Literal) : List Char :=
  if literal.negative then ['-'] else []

/-- The point and the digits behind it, as they are written. -/
def pointChars (literal : Literal) : List Char :=
  if literal.fraction.isEmpty then [] else '.' :: literal.fraction

/-- The characters that a literal is written as. -/
def chars (literal : Literal) : List Char :=
  literal.signChars ++ (literal.whole ++ (literal.pointChars ++ literal.exponent))

theorem length_chars (literal : Literal) : literal.chars.length = literal.length := by
  simp only [chars, length, List.length_append, signChars, pointChars]
  split <;> split <;> simp <;> omega

/-! ## What is read is a literal -/

section Read

variable {text : List Char}

theorem mem_digits {c : Char} (h : c ∈ digits text) : c.isDigit = true :=
  List.all_eq_true.1 List.all_takeWhile c h

theorem isPrefix_digits (text : List Char) : digits text <+: text :=
  List.takeWhile_prefix _

/-- What is read behind something that was read. -/
theorem isPrefix_append {front more : List Char} (hfront : front <+: text)
    (hmore : more <+: text.drop front.length) : front ++ more <+: text := by
  obtain ⟨behind, rfl⟩ := hfront
  rw [List.drop_left] at hmore
  exact (List.prefix_append_right_inj front).2 hmore

theorem isWhole_readWhole (h : readWhole text ≠ []) :
    IsWhole (readWhole text) ∧ readWhole text <+: text := by
  unfold readWhole at h ⊢
  split at h
  · next rest => exact ⟨.inl rfl, ⟨rest, rfl⟩⟩
  · next hzero =>
      refine ⟨.inr ⟨⟨h, fun c => mem_digits⟩, fun hhead => ?_⟩, isPrefix_digits text⟩
      obtain ⟨rest, hrest⟩ := List.head?_eq_some_iff.1 hhead
      obtain ⟨behind, hbehind⟩ := isPrefix_digits text
      rw [hrest] at hbehind
      exact hzero (rest ++ behind) hbehind.symm

theorem readFraction_spec (text : List Char) :
    (∀ c ∈ readFraction text, c.isDigit = true) ∧
      (if (readFraction text).isEmpty then [] else '.' :: readFraction text) <+: text := by
  unfold readFraction
  split
  · next rest =>
      refine ⟨fun c => mem_digits, ?_⟩
      split
      · exact List.nil_prefix
      · exact List.cons_prefix_cons.2 ⟨rfl, isPrefix_digits rest⟩
  · exact ⟨by simp, List.nil_prefix⟩

theorem readSign_spec (text : List Char) :
    (readSign text = [] ∨ readSign text = ['+'] ∨ readSign text = ['-']) ∧
      readSign text <+: text := by
  unfold readSign
  split
  · next rest => exact ⟨.inr (.inl rfl), ⟨rest, rfl⟩⟩
  · next rest => exact ⟨.inr (.inr rfl), ⟨rest, rfl⟩⟩
  · exact ⟨.inl rfl, List.nil_prefix⟩

theorem readExponent_spec (text : List Char) :
    (readExponent text = [] ∨ IsExponent (readExponent text)) ∧ readExponent text <+: text := by
  unfold readExponent
  split
  · next mark rest =>
      split
      · next hmark =>
          obtain ⟨hsign, hprefix⟩ := readSign_spec rest
          dsimp only
          split
          · exact ⟨.inl rfl, List.nil_prefix⟩
          · next size hsize =>
              have hdigits : IsDigits (digits (rest.drop (readSign rest).length)) :=
                ⟨hsize, fun c => mem_digits⟩
              refine ⟨.inr ⟨mark, readSign rest, _, rfl, hmark, hsign, hdigits⟩, ?_⟩
              rw [List.cons_append, List.cons_prefix_cons]
              exact ⟨rfl, isPrefix_append hprefix (isPrefix_digits _)⟩
      · exact ⟨.inl rfl, List.nil_prefix⟩
  · exact ⟨.inl rfl, List.nil_prefix⟩

theorem length_pointChars (literal : Literal) : literal.pointChars.length =
    if literal.fraction.isEmpty then 0 else literal.fraction.length + 1 := by
  unfold pointChars
  split <;> rfl

/-- The literal that a body begins with. -/
theorem wellFormed_ofBody (negative : Bool) {body : List Char}
    (h : (ofBody negative body).whole ≠ []) :
    (ofBody negative body).WellFormed ∧
      (ofBody negative body).whole ++
        ((ofBody negative body).pointChars ++ (ofBody negative body).exponent) <+: body := by
  obtain ⟨hwhole, hprefix⟩ := isWhole_readWhole h
  obtain ⟨hfraction, hpoint⟩ := readFraction_spec (body.drop (readWhole body).length)
  obtain ⟨hexponent, hlast⟩ := readExponent_spec
    (body.drop ((readWhole body).length + (ofBody negative body).pointChars.length))
  rw [length_pointChars] at hexponent hlast
  refine ⟨⟨hwhole, hfraction, hexponent⟩, isPrefix_append hprefix (isPrefix_append hpoint ?_)⟩
  rw [List.drop_drop, length_pointChars]
  exact hlast

/-- The literal that a text begins with. -/
theorem wellFormed_front (h : (front text).whole ≠ []) :
    (front text).WellFormed ∧ (front text).chars <+: text := by
  unfold front at h ⊢
  split at h
  · next body =>
      obtain ⟨hformed, hprefix⟩ := wellFormed_ofBody true h
      exact ⟨hformed, List.cons_prefix_cons.2 ⟨rfl, hprefix⟩⟩
  · exact wellFormed_ofBody false h

end Read

/-! ## Every literal is read -/

section Written

variable {rest : List Char}

theorem digits_append {run : List Char} (hrun : ∀ c ∈ run, c.isDigit = true)
    (hrest : ∀ c ∈ rest.head?, c.isDigit = false) : digits (run ++ rest) = run :=
  Text.takeWhile_append_of_head? hrun hrest

theorem readWhole_append {whole : List Char} (hwhole : IsWhole whole)
    (hrest : ∀ c ∈ rest.head?, c.isDigit = false) : readWhole (whole ++ rest) = whole := by
  rcases hwhole with rfl | ⟨hdigits, hhead⟩
  · rfl
  · obtain ⟨c, others, rfl⟩ := List.exists_cons_of_ne_nil hdigits.ne_nil
    unfold readWhole
    split
    · next hzero =>
        obtain ⟨rfl, -⟩ := List.cons.inj hzero
        exact absurd rfl hhead
    · exact digits_append hdigits.all hrest

/-- Whether no literal goes on with a text: it begins with no digit, no point and no mark of an
exponent. -/
def Stops (rest : List Char) : Prop :=
  ∀ c ∈ rest.head?, c.isDigit = false ∧ c ≠ '.' ∧ c ≠ 'e' ∧ c ≠ 'E'

theorem stops_nil : Stops [] := by
  simp [Stops]

theorem readExponent_append {exponent : List Char} (h : exponent = [] ∨ IsExponent exponent)
    (hrest : Stops rest) : readExponent (exponent ++ rest) = exponent := by
  rcases h with rfl | ⟨mark, sign, size, rfl, hmark, hsign, hsize⟩
  · rw [List.nil_append]
    cases rest with
    | nil => rfl
    | cons c others =>
        obtain ⟨-, -, hsmall, hcapital⟩ := hrest c rfl
        rw [readExponent, if_neg (not_or.2 ⟨hsmall, hcapital⟩)]
  · have hread : readSign (sign ++ (size ++ rest)) = sign := by
      rcases hsign with rfl | rfl | rfl
      · obtain ⟨c, others, rfl⟩ := List.exists_cons_of_ne_nil hsize.ne_nil
        have hdigit := hsize.all c List.mem_cons_self
        rw [List.nil_append, List.cons_append]
        unfold readSign
        split
        · next heq =>
            obtain ⟨rfl, -⟩ := List.cons.inj heq
            exact absurd hdigit (by decide)
        · next heq =>
            obtain ⟨rfl, -⟩ := List.cons.inj heq
            exact absurd hdigit (by decide)
        · rfl
      · rfl
      · rfl
    have hdigits : digits (size ++ rest) = size :=
      digits_append hsize.all fun c hc => (hrest c hc).1
    obtain ⟨c, others, rfl⟩ := List.exists_cons_of_ne_nil hsize.ne_nil
    rw [List.cons_append, List.append_assoc, readExponent]
    simp only [if_pos hmark, hread, List.drop_left, hdigits]
    rfl

/-- Behind a fraction comes no digit, and without one comes no point. -/
theorem head?_exponent_append {exponent : List Char} (h : exponent = [] ∨ IsExponent exponent)
    (hrest : Stops rest) : ∀ c ∈ (exponent ++ rest).head?, c.isDigit = false ∧ c ≠ '.' := by
  rcases h with rfl | ⟨mark, sign, size, rfl, hmark, -, -⟩
  · exact fun c hc => ⟨(hrest c hc).1, (hrest c hc).2.1⟩
  · intro c hc
    obtain rfl := Option.some.inj hc
    rcases hmark with rfl | rfl <;> decide

theorem readFraction_append {fraction exponent : List Char}
    (hfraction : ∀ c ∈ fraction, c.isDigit = true)
    (hexponent : exponent = [] ∨ IsExponent exponent) (hrest : Stops rest) :
    readFraction ((if fraction.isEmpty then [] else '.' :: fraction) ++ (exponent ++ rest)) =
      fraction := by
  have hhead := head?_exponent_append hexponent hrest
  split
  · next hempty =>
      rw [List.isEmpty_iff.1 hempty, List.nil_append]
      unfold readFraction
      split
      · next behind heq => exact absurd rfl (hhead '.' (by rw [heq]; rfl)).2
      · rfl
  · exact digits_append hfraction fun c hc => (hhead c hc).1

theorem not_isDigit_of_point {literal : Literal} (h : literal.WellFormed) (hrest : Stops rest) :
    ∀ c ∈ (literal.pointChars ++ (literal.exponent ++ rest)).head?, c.isDigit = false := by
  unfold pointChars
  split
  · exact fun c hc => (head?_exponent_append h.exponent hrest c hc).1
  · intro c hc
    obtain rfl := Option.some.inj hc
    decide

/-- The parts of a well-formed literal are read where they stand. -/
theorem ofBody_append {literal : Literal} (h : literal.WellFormed) (hrest : Stops rest) :
    ofBody literal.negative
      (literal.whole ++ (literal.pointChars ++ (literal.exponent ++ rest))) = literal := by
  have hwhole : readWhole (literal.whole ++ (literal.pointChars ++ (literal.exponent ++ rest))) =
      literal.whole := readWhole_append h.whole (not_isDigit_of_point h hrest)
  have hfraction : readFraction (literal.pointChars ++ (literal.exponent ++ rest)) =
      literal.fraction := readFraction_append h.fraction h.exponent hrest
  unfold ofBody
  dsimp only
  rw [hwhole, List.drop_left, hfraction, ← length_pointChars, ← List.drop_drop, List.drop_left,
    List.drop_left, readExponent_append h.exponent hrest]

theorem front_append {literal : Literal} (h : literal.WellFormed) (hrest : Stops rest) :
    front (literal.chars ++ rest) = literal := by
  have hbody := ofBody_append h hrest
  have hchars : literal.chars ++ rest = literal.signChars ++
      (literal.whole ++ (literal.pointChars ++ (literal.exponent ++ rest))) := by
    simp only [chars, List.append_assoc]
  rw [hchars, signChars]
  cases hsign : literal.negative with
  | true =>
      rw [hsign] at hbody
      exact hbody
  | false =>
      rw [hsign] at hbody
      unfold front
      split
      · next body hminus =>
          -- A whole part begins with a digit, so with no minus.
          obtain ⟨c, others, hwhole⟩ := List.exists_cons_of_ne_nil h.whole.isDigits.ne_nil
          have hdigit := h.whole.isDigits.all c (by simp [hwhole])
          obtain rfl : c = '-' := by simpa [hwhole] using congrArg List.head? hminus
          exact absurd hdigit (by decide)
      · exact hbody

/-- A well-formed literal is read where it stands, as far as it goes. -/
theorem read_append {literal : Literal} (h : literal.WellFormed) (hrest : Stops rest) :
    read (literal.chars ++ rest) = some (literal, rest) := by
  unfold read
  dsimp only
  rw [front_append h hrest, if_neg (by simpa using h.whole.isDigits.ne_nil), ← length_chars,
    List.drop_left]

end Written

/-- A text is read as a literal with nothing behind it if and only if it is what a well-formed
literal is written as. -/
theorem read_eq_iff {text : List Char} {literal : Literal} :
    read text = some (literal, []) ↔ literal.WellFormed ∧ literal.chars = text := by
  constructor
  · intro h
    unfold read at h
    dsimp only at h
    split at h
    · simp at h
    · next hwhole =>
        obtain ⟨rfl, hdrop⟩ := Prod.mk.inj (Option.some.inj h)
        obtain ⟨hformed, hprefix⟩ := @wellFormed_front text fun hnil => hwhole (by simp [hnil])
        refine ⟨hformed, hprefix.eq_of_length_le ?_⟩
        rw [length_chars]
        exact List.drop_eq_nil_iff.1 hdrop
  · rintro ⟨hformed, rfl⟩
    have hread := read_append hformed stops_nil
    rwa [List.append_nil] at hread

end Literal

/-! ## Digits and numbers -/

theorem digit_bounds {c : Char} (hc : c.isDigit = true) : 48 ≤ c.toNat ∧ c.toNat ≤ 57 :=
  Char.isDigit_iff_toNat.1 hc

/-- A digit is what the number that it stands for is printed as. -/
theorem toDigits_digit {c : Char} (hc : c.isDigit = true) :
    Nat.toDigits 10 (c.toNat - 48) = [c] := by
  obtain ⟨hlow, hhigh⟩ := digit_bounds hc
  have hsmall : c.toNat - 48 < 10 := by omega
  have hsame : (Nat.digitChar (c.toNat - 48)).toNat = c.toNat := by
    rw [Nat.toNat_digitChar_of_lt_ten hsmall, Nat.add_sub_cancel' hlow]
  rw [Nat.toDigits_of_lt_base hsmall, ← Char.ofNat_toNat (Nat.digitChar _), hsame,
    Char.ofNat_toNat]

namespace Literal

theorem natOfDigits_concat (digits : List Char) (last : Char) :
    natOfDigits (digits ++ [last]) = 10 * natOfDigits digits + (last.toNat - 48) := by
  rw [natOfDigits, List.foldl_append, Nat.mul_comm 10]
  rfl

/-- Digits that do not begin with zero stand for a positive number. -/
theorem natOfDigits_pos {digits : List Char} (h : IsDigits digits)
    (hhead : digits.head? ≠ some '0') : 0 < natOfDigits digits := by
  obtain ⟨hne, hall⟩ := h
  induction digits using List.reverseRecOn with
  | nil => exact absurd rfl hne
  | append_singleton digits last ih =>
      rw [natOfDigits_concat]
      cases digits with
      | nil =>
          obtain ⟨hlow, -⟩ := digit_bounds (hall last (by simp))
          have hzero : last.toNat ≠ 48 := by
            intro hsame
            refine hhead (congrArg some ?_)
            rw [← Char.ofNat_toNat last, hsame]
          omega
      | cons c others =>
          have hfront := ih hhead (by simp) fun d hd => hall d (List.mem_append_left _ hd)
          omega

/-- A whole part is what the number that it stands for is printed as. -/
theorem toDigits_natOfDigits {whole : List Char} (h : IsWhole whole) :
    Nat.toDigits 10 (natOfDigits whole) = whole := by
  rcases h with rfl | ⟨⟨hne, hall⟩, hhead⟩
  · rfl
  · induction whole using List.reverseRecOn with
    | nil => exact absurd rfl hne
    | append_singleton digits last ih =>
        have hlast := hall last (by simp)
        obtain ⟨hlow, hhigh⟩ := digit_bounds hlast
        rw [natOfDigits_concat]
        cases digits with
        | nil => simpa [natOfDigits] using toDigits_digit hlast
        | cons c others =>
            have hfront : ∀ d ∈ c :: others, d.isDigit = true :=
              fun d hd => hall d (List.mem_append_left _ hd)
            rw [← Nat.toDigits_append_toDigits (by decide)
              (natOfDigits_pos ⟨by simp, hfront⟩ hhead) (by omega), toDigits_digit hlast,
              ih hhead (by simp) hfront]

theorem natOfDigits_eq (digits : List Char) :
    natOfDigits digits = Nat.ofDigitChars 10 digits 0 := by
  rw [Nat.ofDigitChars_eq_foldl, natOfDigits]
  congr 1
  funext value c
  rw [Nat.mul_comm]
  rfl

theorem natOfDigits_toDigits (n : Nat) : natOfDigits (Nat.toDigits 10 n) = n := by
  rw [natOfDigits_eq, Nat.ofDigitChars_toDigits (by decide) (Nat.le_refl 10)]

theorem head?_toDigits {n : Nat} (hn : n ≠ 0) : (Nat.toDigits 10 n).head? ≠ some '0' := by
  induction n using Nat.strongRecOn with
  | ind n ih =>
      rw [Nat.toDigits_eq_if (by decide)]
      split
      · next hsmall =>
          intro hzero
          have hcode := congrArg Char.toNat (Option.some.inj hzero)
          rw [Nat.toNat_digitChar_of_lt_ten hsmall] at hcode
          exact hn (Nat.add_left_cancel hcode)
      · next hgreat =>
          have hfront := ih (n / 10) (by omega) (by omega)
          obtain ⟨c, others, hdigits⟩ :=
            List.exists_cons_of_ne_nil (@Nat.toDigits_ne_nil (n / 10) 10)
          rw [hdigits] at hfront ⊢
          exact hfront

/-- Every number is printed as a whole part. -/
theorem isWhole_toDigits (n : Nat) : IsWhole (Nat.toDigits 10 n) := by
  by_cases hn : n = 0
  · subst hn
    exact .inl rfl
  · have hall : ∀ c ∈ Nat.toDigits 10 n, c.isDigit = true := fun c hc =>
      Nat.isDigit_of_mem_toDigits (by decide) (Nat.le_refl 10) hc
    exact .inr ⟨⟨Nat.toDigits_ne_nil, hall⟩, head?_toDigits hn⟩

end Literal

end XmlToJson.Numeral

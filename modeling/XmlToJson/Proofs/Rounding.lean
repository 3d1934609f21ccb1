import Mathlib.Algebra.Order.Field.Power
import Mathlib.Data.Rat.Defs
import Mathlib.Tactic.FieldSimp
import Mathlib.Tactic.Linarith
import Mathlib.Tactic.NormNum
import Mathlib.Tactic.Positivity
import Mathlib.Tactic.Ring
import XmlToJson.Binary64.Basic

/-!
# Rounding to the nearest number

Quotients and decimal numbers are rounded exactly: the result is the finite number that is nearest
to the quotient, of two that are as near the one with an even mantissa (`Nearest`).  From half a
unit in the last place beyond the greatest number on (`overflow`) it is infinite.  `Rounds` puts the
two together, and `rounds_ofRatio` and `rounds_ofDecimal` say that this is what the functions
return.

## Strategy

* **Finite numbers** are given by a mantissa and an exponent that `Fits`: 53 bits, or fewer where
  the exponent is the least one.  They are compared with rational numbers by their `magnitude`.
* **Whole numbers.**  A quotient of two whole numbers is rounded to a whole number by its remainder
  (`roundDiv_spec`), and no whole number is nearer (`RoundsTo.le`).
* **Scaling.**  The quotient is scaled by a power of two so that 53 bits stand before the point, or
  fewer where that is the least power (`exponentOf_spec`).  The power is found from the lengths of
  the two numbers in bits, which are right up to one (`log2_quotient`).
* **Nearness.**  A finite number with an exponent that is no smaller is a whole number of units
  (`magnitude_eq_units`), so it is no nearer than the whole number that is rounded to.  One with a
  smaller exponent does not come nearer either, as it lies below `2 ^ 52` units, where the scaled
  quotient does not (`magnitude_lt_units`).  This is `Scaled.nearest`.  Where rounding leads to
  `2 ^ 53` units, the number has other parts (`Scaled.nearest_of_eq`).
* **Too great a quotient** is told from the units as well (`Scaled.lt_overflow`,
  `Scaled.overflow_le`).

A decimal number is rounded without its power of ten where the result is known beforehand; the
bounds for that are `overflow_le_pow` and `pow_le_least`.
-/

namespace XmlToJson.Binary64

/-! ## Finite numbers -/

/-- The magnitude of the finite number with the given parts. -/
def magnitude (mantissa : ℕ) (exponent : ℤ) : ℚ := mantissa * 2 ^ exponent

/-- Whether there is a finite number with the given parts: its mantissa has 53 bits, or fewer where
the exponent is the least one. -/
structure Fits (mantissa : ℕ) (exponent : ℤ) : Prop where
  lt : mantissa < 2 ^ precision
  least : minExponent ≤ exponent
  greatest : exponent ≤ maxExponent
  normal : minExponent < exponent → 2 ^ (precision - 1) ≤ mantissa

/-- Whether no finite number is nearer to `q` than the one with the given parts, and whether that
has an even mantissa if another one is as near. -/
structure Nearest (q : ℚ) (mantissa : ℕ) (exponent : ℤ) : Prop where
  fits : Fits mantissa exponent
  le : ∀ other scale, Fits other scale →
    |q - magnitude mantissa exponent| ≤ |q - magnitude other scale|
  even : ∀ other scale, Fits other scale →
    |q - magnitude mantissa exponent| = |q - magnitude other scale| →
    magnitude other scale = magnitude mantissa exponent ∨ mantissa % 2 = 0

/-- The least magnitude that is rounded to an infinite one: half a unit in the last place beyond the
greatest finite number. -/
def overflow : ℚ := 2 ^ (1024 : ℤ) - 2 ^ (970 : ℤ)

/-- Whether a number is what `q` is rounded to, with the given sign. -/
def Rounds (negative : Bool) (q : ℚ) (x : Binary64) : Prop :=
  (q < overflow ∧ ∃ mantissa exponent, x = .finite negative mantissa exponent ∧
    Nearest q mantissa exponent) ∨
  (overflow ≤ q ∧ x = .infinite negative)

theorem Rounds.isFinite_iff {negative : Bool} {q : ℚ} {x : Binary64} (h : Rounds negative q x) :
    x.isFinite = true ↔ q < overflow := by
  rcases h with ⟨hless, mantissa, exponent, rfl, -⟩ | ⟨hgreat, rfl⟩
  · exact iff_of_true rfl hless
  · exact iff_of_false Bool.false_ne_true hgreat.not_gt

/-! ## Whole numbers -/

/-- Whether `whole` is the whole number nearest to `x`, the even one of two. -/
structure RoundsTo (x : ℚ) (whole : ℕ) : Prop where
  near : |x - whole| ≤ 1 / 2
  even : |x - whole| = 1 / 2 → whole % 2 = 0

/-- A quotient is a whole number and a remainder in units of the divisor. -/
theorem div_eq_add_mod {numerator denominator : ℕ} (hdenominator : 0 < denominator) :
    (numerator : ℚ) / denominator =
      (numerator / denominator : ℕ) + (numerator % denominator : ℕ) / denominator := by
  have hpos : (denominator : ℚ) ≠ 0 := by exact_mod_cast hdenominator.ne'
  have hsplit : (numerator : ℚ) =
      denominator * (numerator / denominator : ℕ) + (numerator % denominator : ℕ) := by
    exact_mod_cast (Nat.div_add_mod numerator denominator).symm
  rw [hsplit]
  field_simp

theorem roundDiv_spec {numerator denominator : ℕ} (hdenominator : 0 < denominator) :
    RoundsTo (numerator / denominator) (roundDiv numerator denominator) := by
  have hpos : (0 : ℚ) < denominator := by exact_mod_cast hdenominator
  have hless : numerator % denominator < denominator := Nat.mod_lt numerator hdenominator
  rw [div_eq_add_mod hdenominator]
  unfold roundDiv
  dsimp only
  generalize numerator / denominator = quotient
  generalize numerator % denominator = remainder at hless ⊢
  have hnonneg : (0 : ℚ) ≤ remainder / denominator := by positivity
  have hone : (remainder : ℚ) / denominator < 1 := by
    rw [div_lt_one hpos]
    exact_mod_cast hless
  have hhalf : (remainder : ℚ) / denominator = 1 / 2 ↔ 2 * remainder = denominator := by
    rw [div_eq_iff hpos.ne']
    constructor
    · intro h
      exact_mod_cast (by linarith : (2 : ℚ) * remainder = denominator)
    · intro h
      have hcast : (2 : ℚ) * remainder = denominator := by exact_mod_cast h
      linarith
  split
  · next hup =>
      have habs : |(quotient : ℚ) + remainder / denominator - (quotient + 1 : ℕ)| =
          1 - remainder / denominator := by
        push_cast
        rw [abs_of_neg (by linarith)]
        ring
      have hmore : (1 : ℚ) / 2 ≤ remainder / denominator := by
        rw [div_le_div_iff₀ two_pos hpos]
        exact_mod_cast (by omega : 1 * denominator ≤ remainder * 2)
      refine ⟨by rw [habs]; linarith, fun htie => ?_⟩
      rw [habs] at htie
      have hremainder := hhalf.1 (by linarith)
      omega
  · next hdown =>
      have habs : |(quotient : ℚ) + remainder / denominator - quotient| =
          remainder / denominator := by
        rw [add_sub_cancel_left, abs_of_nonneg hnonneg]
      have hmost : (remainder : ℚ) / denominator ≤ 1 / 2 := by
        rw [div_le_div_iff₀ hpos two_pos]
        exact_mod_cast (by omega : remainder * 2 ≤ 1 * denominator)
      refine ⟨by rw [habs]; exact hmost, fun htie => ?_⟩
      rw [habs] at htie
      have hremainder := hhalf.1 htie
      omega

/-- A whole number is as near as possible if it is rounded to. -/
theorem RoundsTo.le {x : ℚ} {whole : ℕ} (h : RoundsTo x whole) (other : ℤ) :
    |x - whole| ≤ |x - other| ∧
      (|x - whole| = |x - other| → (other : ℚ) = whole ∨ whole % 2 = 0) := by
  by_cases hsame : other = whole
  · subst hsame
    exact ⟨le_rfl, fun _ => .inl (by push_cast; rfl)⟩
  · have hapart : (1 : ℚ) ≤ |(whole : ℚ) - other| := by
      have hne : (whole : ℤ) - other ≠ 0 := fun hzero => hsame (by omega)
      exact_mod_cast Int.one_le_abs hne
    have htriangle : |(whole : ℚ) - other| ≤ |x - whole| + |x - other| := by
      rw [abs_sub_comm x whole]
      exact abs_sub_le _ _ _
    have hnear := h.near
    exact ⟨by linarith, fun htie => .inr (h.even (by linarith))⟩

/-! ## Scaling -/

theorem scaleDown_spec {numerator denominator : ℕ} (hdenominator : 0 < denominator)
    (exponent : ℤ) :
    0 < (scaleDown numerator denominator exponent).2 ∧
      ((scaleDown numerator denominator exponent).1 : ℚ) /
          (scaleDown numerator denominator exponent).2 =
        numerator / denominator / 2 ^ exponent := by
  unfold scaleDown
  split
  · next hexponent =>
      have hpower : ((Nat.pow 2 exponent.toNat : ℕ) : ℚ) = 2 ^ exponent := by
        rw [Nat.pow_eq, Nat.cast_pow, ← zpow_natCast, Int.toNat_of_nonneg hexponent]
        norm_num
      refine ⟨Nat.mul_pos hdenominator (Nat.pow_pos two_pos), ?_⟩
      dsimp only
      rw [Nat.cast_mul, hpower, div_div]
  · next hexponent =>
      have hpower : ((Nat.pow 2 (-exponent).toNat : ℕ) : ℚ) = (2 ^ exponent)⁻¹ := by
        rw [Nat.pow_eq, Nat.cast_pow, ← zpow_natCast, Int.toNat_of_nonneg (by omega), zpow_neg]
        norm_num
      refine ⟨hdenominator, ?_⟩
      dsimp only
      rw [Nat.cast_mul, hpower, div_eq_mul_inv _ ((2 : ℚ) ^ exponent), div_mul_eq_mul_div]

/-- The powers of two around a number. -/
theorem log2_bounds {n : ℕ} (hn : n ≠ 0) :
    (2 : ℚ) ^ (n.log2 : ℤ) ≤ n ∧ (n : ℚ) < 2 ^ (n.log2 + 1 : ℤ) := by
  constructor
  · rw [zpow_natCast]
    exact_mod_cast Nat.log2_self_le hn
  · exact_mod_cast @Nat.lt_log2_self n

theorem log2_quotient {numerator denominator : ℕ} (hnumerator : numerator ≠ 0)
    (hdenominator : denominator ≠ 0) :
    (2 : ℚ) ^ (numerator.log2 - denominator.log2 - 1 : ℤ) < numerator / denominator ∧
      (numerator : ℚ) / denominator < 2 ^ (numerator.log2 - denominator.log2 + 1 : ℤ) := by
  obtain ⟨hlow, hhigh⟩ := log2_bounds hnumerator
  obtain ⟨hbelow, habove⟩ := log2_bounds hdenominator
  have hpos : (0 : ℚ) < denominator := by exact_mod_cast Nat.pos_of_ne_zero hdenominator
  have hpower : ∀ exponent : ℤ, (0 : ℚ) < 2 ^ exponent := fun exponent => by positivity
  constructor
  · rw [lt_div_iff₀ hpos]
    calc (2 : ℚ) ^ (numerator.log2 - denominator.log2 - 1 : ℤ) * denominator
        < 2 ^ (numerator.log2 - denominator.log2 - 1 : ℤ) * 2 ^ (denominator.log2 + 1 : ℤ) :=
          mul_lt_mul_of_pos_left habove (hpower _)
      _ = 2 ^ (numerator.log2 : ℤ) := by
          rw [← zpow_add₀ two_ne_zero]
          congr 1
          ring
      _ ≤ numerator := hlow
  · rw [div_lt_iff₀ hpos]
    calc (numerator : ℚ) < 2 ^ (numerator.log2 + 1 : ℤ) := hhigh
      _ = 2 ^ (numerator.log2 - denominator.log2 + 1 : ℤ) * 2 ^ (denominator.log2 : ℤ) := by
          rw [← zpow_add₀ two_ne_zero]
          congr 1
          ring
      _ ≤ 2 ^ (numerator.log2 - denominator.log2 + 1 : ℤ) * denominator :=
          mul_le_mul_of_nonneg_left hbelow (hpower _).le

/-- Whether `q` has 53 bits before the point in units of a power of two, or fewer where that is the
least one. -/
structure Scaled (q : ℚ) (exponent : ℤ) : Prop where
  least : minExponent ≤ exponent
  lt : q / 2 ^ exponent < 2 ^ precision
  normal : minExponent < exponent → 2 ^ (precision - 1) ≤ q / 2 ^ exponent

/-- A greater unit makes fewer. -/
theorem div_zpow_le {q : ℚ} (hq : 0 ≤ q) {exponent other : ℤ} (h : exponent ≤ other) :
    q / 2 ^ other ≤ q / 2 ^ exponent :=
  div_le_div_of_nonneg_left hq (by positivity) (zpow_le_zpow_right₀ one_le_two h)

/-- The unit that leaves 53 bits before the point, or the least one if that is greater. -/
theorem scaled_max {q : ℚ} {exponent : ℤ} (hq : 0 ≤ q)
    (hnormal : 2 ^ (precision - 1) ≤ q / 2 ^ exponent) (hlt : q / 2 ^ exponent < 2 ^ precision) :
    Scaled q (max minExponent exponent) where
  least := le_max_left _ _
  lt := (div_zpow_le hq (le_max_right _ _)).trans_lt hlt
  normal hless := by
    rwa [max_eq_right (le_of_lt (by simpa using hless))]

theorem exponentOf_spec {numerator denominator : ℕ} (hnumerator : numerator ≠ 0)
    (hdenominator : 0 < denominator) :
    Scaled (numerator / denominator) (exponentOf numerator denominator) := by
  obtain ⟨hbelow, habove⟩ := log2_quotient hnumerator hdenominator.ne'
  have hq : (0 : ℚ) ≤ numerator / denominator := by positivity
  unfold exponentOf
  dsimp only
  generalize hguess : (numerator.log2 - denominator.log2 - (precision - 1 : ℕ) : ℤ) = guess
  obtain ⟨hdivisor, hscaled⟩ := @scaleDown_spec numerator denominator hdenominator guess
  generalize (scaleDown numerator denominator guess).1 = scaled at hscaled ⊢
  generalize (scaleDown numerator denominator guess).2 = divisor at hdivisor hscaled ⊢
  generalize (numerator : ℚ) / denominator = q at hbelow habove hq hscaled ⊢
  have hpower : (0 : ℚ) < 2 ^ guess := by positivity
  have hlow : 2 ^ (precision - 2) < q / 2 ^ guess := by
    rw [lt_div_iff₀ hpower]
    refine lt_of_eq_of_lt ?_ hbelow
    rw [← zpow_natCast, ← zpow_add₀ two_ne_zero, ← hguess]
    congr 1
    simp only [precision]
    omega
  have hhigh : q / 2 ^ guess < 2 ^ precision := by
    rw [div_lt_iff₀ hpower]
    refine lt_of_lt_of_eq habove ?_
    rw [← zpow_natCast, ← zpow_add₀ two_ne_zero, ← hguess]
    congr 1
    simp only [precision]
    omega
  have hcompare : scaled < divisor * Nat.pow 2 (precision - 1) ↔
      q / 2 ^ guess < 2 ^ (precision - 1) := by
    rw [← hscaled, div_lt_iff₀ (by exact_mod_cast hdivisor), mul_comm divisor, Nat.pow_eq]
    exact_mod_cast Iff.rfl
  split
  · next hless =>
      have hdouble : q / 2 ^ (guess - 1) = q / 2 ^ guess * 2 := by
        rw [zpow_sub_one₀ two_ne_zero, div_mul_eq_div_div_swap, div_inv_eq_mul]
        ring
      refine scaled_max hq ?_ ?_
      · rw [hdouble]
        norm_num [precision] at hlow ⊢
        linarith
      · have hsmall := hcompare.1 hless
        rw [hdouble]
        norm_num [precision] at hsmall ⊢
        linarith
  · next hmore => exact scaled_max hq (not_lt.1 (mt hcompare.2 hmore)) hhigh

/-! ## Rounding a scaled quotient -/

section Parts

variable {q : ℚ} {exponent : ℤ} {whole : ℕ}

theorem abs_sub_scaled (q x : ℚ) (exponent : ℤ) :
    |q - x * 2 ^ exponent| = |q / 2 ^ exponent - x| * 2 ^ exponent := by
  have hpower : (0 : ℚ) < 2 ^ exponent := by positivity
  rw [← abs_of_pos hpower, ← abs_mul, abs_of_pos hpower, sub_mul, div_mul_cancel₀ _ hpower.ne']

theorem Scaled.whole_le (hscaled : Scaled q exponent)
    (hwhole : RoundsTo (q / 2 ^ exponent) whole) : whole ≤ 2 ^ precision := by
  have hnear := (abs_le.1 hwhole.near).1
  have hlt := hscaled.lt
  have hless : (whole : ℚ) < (2 ^ precision + 1 : ℕ) := by
    push_cast
    linarith
  exact Nat.lt_succ_iff.1 (by exact_mod_cast hless)

theorem Scaled.le_whole (hscaled : Scaled q exponent)
    (hwhole : RoundsTo (q / 2 ^ exponent) whole) (hnormal : minExponent < exponent) :
    2 ^ (precision - 1) ≤ whole := by
  have hnear := (abs_le.1 hwhole.near).2
  have hle := hscaled.normal hnormal
  have hless : ((2 ^ (precision - 1) : ℕ) : ℚ) < (whole + 1 : ℕ) := by
    push_cast
    linarith
  exact Nat.lt_succ_iff.1 (by exact_mod_cast hless)

/-- A number with an exponent that is no smaller is a whole number of units. -/
theorem magnitude_eq_units {other : ℕ} {scale : ℤ} (h : exponent ≤ scale) :
    ∃ units : ℤ, magnitude other scale = units * 2 ^ exponent := by
  obtain ⟨more, rfl⟩ := Int.le.dest h
  refine ⟨other * 2 ^ more, ?_⟩
  rw [magnitude, add_comm, zpow_add₀ two_ne_zero, zpow_natCast]
  push_cast
  ring

/-- A number with a smaller exponent has less than `2 ^ 52` units. -/
theorem magnitude_lt_units {other : ℕ} {scale : ℤ} (hfits : Fits other scale)
    (h : scale < exponent) : magnitude other scale < 2 ^ (precision - 1) * 2 ^ exponent := by
  have hother : (other : ℚ) < 2 ^ precision := by exact_mod_cast hfits.lt
  have hpower : (0 : ℚ) < 2 ^ scale := by positivity
  calc magnitude other scale
      < 2 ^ precision * 2 ^ scale := mul_lt_mul_of_pos_right hother hpower
    _ = 2 ^ (precision - 1) * 2 ^ (scale + 1) := by
        rw [zpow_add_one₀ two_ne_zero]
        norm_num [precision]
        ring
    _ ≤ 2 ^ (precision - 1) * 2 ^ exponent := by
        refine mul_le_mul_of_nonneg_left ?_ (by positivity)
        exact zpow_le_zpow_right₀ one_le_two (by omega)

/-- No finite number is nearer than the one that is rounded to. -/
theorem Scaled.nearest (hscaled : Scaled q exponent)
    (hwhole : RoundsTo (q / 2 ^ exponent) whole) {other : ℕ} {scale : ℤ}
    (hfits : Fits other scale) :
    |q - magnitude whole exponent| ≤ |q - magnitude other scale| ∧
      (|q - magnitude whole exponent| = |q - magnitude other scale| →
        magnitude other scale = magnitude whole exponent ∨ whole % 2 = 0) := by
  have hpower : (0 : ℚ) < 2 ^ exponent := by positivity
  rw [magnitude, abs_sub_scaled]
  rcases le_or_gt exponent scale with hscale | hscale
  · obtain ⟨units, hunits⟩ := @magnitude_eq_units exponent other scale hscale
    obtain ⟨hle, htie⟩ := hwhole.le units
    rw [hunits, abs_sub_scaled]
    refine ⟨mul_le_mul_of_nonneg_right hle hpower.le, fun h => ?_⟩
    rw [mul_right_cancel_iff_of_pos hpower] at h
    exact (htie h).imp_left fun hsame => by rw [hsame]
  · -- The smaller numbers end below `2 ^ 52` units, which the nearest whole number is nearer to.
    have hnormal := hscaled.normal (lt_of_le_of_lt hfits.least hscale)
    have hbelow := magnitude_lt_units hfits hscale
    have hle := (hwhole.le (2 ^ (precision - 1) : ℕ)).1
    have hunits : |q / 2 ^ exponent - ((2 ^ (precision - 1) : ℕ) : ℤ)| =
        q / 2 ^ exponent - 2 ^ (precision - 1) := by
      push_cast
      exact abs_of_nonneg (by linarith)
    have hq : q / 2 ^ exponent * 2 ^ exponent = q := div_mul_cancel₀ _ hpower.ne'
    have hless : |q / 2 ^ exponent - whole| * 2 ^ exponent < |q - magnitude other scale| := by
      calc |q / 2 ^ exponent - whole| * 2 ^ exponent
          ≤ (q / 2 ^ exponent - 2 ^ (precision - 1)) * 2 ^ exponent := by
            rw [hunits] at hle
            exact mul_le_mul_of_nonneg_right hle hpower.le
        _ = q - 2 ^ (precision - 1) * 2 ^ exponent := by rw [sub_mul, hq]
        _ < q - magnitude other scale := by linarith
        _ ≤ |q - magnitude other scale| := le_abs_self _
    exact ⟨hless.le, fun h => absurd h hless.ne⟩

/-- The same number with other parts is as near. -/
theorem Scaled.nearest_of_eq (hscaled : Scaled q exponent)
    (hwhole : RoundsTo (q / 2 ^ exponent) whole) {mantissa : ℕ} {scale : ℤ}
    (hfits : Fits mantissa scale) (hsame : magnitude mantissa scale = magnitude whole exponent)
    (heven : whole % 2 = 0 → mantissa % 2 = 0) : Nearest q mantissa scale where
  fits := hfits
  le other scale hother := hsame ▸ (hscaled.nearest hwhole hother).1
  even other scale hother htie := by
    rw [hsame] at htie ⊢
    exact ((hscaled.nearest hwhole hother).2 htie).imp_right heven

/-! ### Too great a quotient -/

/-- The bound in units of the greatest power but one. -/
theorem overflow_eq : overflow = (2 ^ (precision + 1) - 1) * 2 ^ (maxExponent - 1) := by
  have hgreatest : (2 : ℚ) ^ (1024 : ℤ) = 2 ^ (precision + 1) * 2 ^ (maxExponent - 1) := by
    rw [← zpow_natCast, ← zpow_add₀ two_ne_zero]
    rfl
  rw [overflow, hgreatest, sub_one_mul]
  rfl

theorem zpow_maxExponent : (2 : ℚ) ^ maxExponent = 2 * 2 ^ (maxExponent - 1) := by
  rw [← zpow_one_add₀ two_ne_zero, add_sub_cancel]

theorem Scaled.eq_units (q : ℚ) (exponent : ℤ) : q = q / 2 ^ exponent * 2 ^ exponent :=
  (div_mul_cancel₀ q (by positivity)).symm

theorem Scaled.lt_overflow (hscaled : Scaled q exponent) (h : exponent < maxExponent) :
    q < overflow := by
  have hpower : (0 : ℚ) < 2 ^ exponent := by positivity
  calc q = q / 2 ^ exponent * 2 ^ exponent := Scaled.eq_units q exponent
    _ < 2 ^ precision * 2 ^ exponent := mul_lt_mul_of_pos_right hscaled.lt hpower
    _ ≤ 2 ^ precision * 2 ^ (maxExponent - 1) := by
        refine mul_le_mul_of_nonneg_left ?_ (by positivity)
        exact zpow_le_zpow_right₀ one_le_two (by omega)
    _ ≤ overflow := by
        rw [overflow_eq]
        exact mul_le_mul_of_nonneg_right (by norm_num [precision]) (by positivity)

/-- In units of the greatest power the quotient is below the bound if it is rounded to fewer than
`2 ^ 53` units. -/
theorem Scaled.lt_overflow_of_lt (hwhole : RoundsTo (q / 2 ^ maxExponent) whole)
    (hlt : whole < 2 ^ precision) : q < overflow := by
  have hpower : (0 : ℚ) < 2 ^ maxExponent := by positivity
  have hwhole_le : (whole : ℚ) ≤ 2 ^ precision - 1 := by
    have hsucc : (whole + 1 : ℚ) ≤ 2 ^ precision := by exact_mod_cast hlt
    linarith
  have hnear := (abs_le.1 hwhole.near).2
  have hless : q / 2 ^ maxExponent < 2 ^ precision - 1 / 2 := by
    refine lt_of_le_of_ne (by linarith) fun htie => ?_
    -- Half a unit below the bound there is a tie, which is not rounded down to an odd mantissa.
    have hodd : (whole : ℚ) = 2 ^ precision - 1 := by linarith
    have heven := hwhole.even (by rw [htie, hodd]; norm_num)
    have hexact : whole + 1 = 2 ^ precision := by
      exact_mod_cast (by linarith : (whole : ℚ) + 1 = 2 ^ precision)
    norm_num [precision] at hexact
    omega
  calc q = q / 2 ^ maxExponent * 2 ^ maxExponent := Scaled.eq_units q maxExponent
    _ < (2 ^ precision - 1 / 2) * 2 ^ maxExponent := mul_lt_mul_of_pos_right hless hpower
    _ = overflow := by
        rw [overflow_eq, zpow_maxExponent, pow_succ]
        ring

theorem Scaled.overflow_le (hscaled : Scaled q exponent) (h : maxExponent < exponent) :
    overflow ≤ q := by
  have hnormal := hscaled.normal (lt_trans (by decide) h)
  have hpower : (0 : ℚ) < 2 ^ exponent := by positivity
  have hpowers : (2 : ℚ) ^ (maxExponent + 1) = 4 * 2 ^ (maxExponent - 1) := by
    rw [zpow_add_one₀ two_ne_zero, zpow_maxExponent]
    ring
  calc overflow ≤ 2 ^ (precision - 1) * 2 ^ (maxExponent + 1) := by
        rw [overflow_eq, hpowers, ← mul_assoc]
        exact mul_le_mul_of_nonneg_right (by norm_num [precision]) (by positivity)
    _ ≤ 2 ^ (precision - 1) * 2 ^ exponent := by
        refine mul_le_mul_of_nonneg_left ?_ (by positivity)
        exact zpow_le_zpow_right₀ one_le_two (by omega)
    _ ≤ q / 2 ^ exponent * 2 ^ exponent := mul_le_mul_of_nonneg_right hnormal hpower.le
    _ = q := (Scaled.eq_units q exponent).symm

theorem Scaled.overflow_le_of_eq (hwhole : RoundsTo (q / 2 ^ exponent) (2 ^ precision))
    (h : maxExponent ≤ exponent) : overflow ≤ q := by
  have hnear := (abs_le.1 hwhole.near).1
  push_cast at hnear
  have hpower : (0 : ℚ) < 2 ^ exponent := by positivity
  calc overflow = (2 ^ precision - 1 / 2) * 2 ^ maxExponent := by
        rw [overflow_eq, zpow_maxExponent, pow_succ]
        ring
    _ ≤ (2 ^ precision - 1 / 2) * 2 ^ exponent := by
        refine mul_le_mul_of_nonneg_left ?_ (by norm_num [precision])
        exact zpow_le_zpow_right₀ one_le_two h
    _ ≤ q / 2 ^ exponent * 2 ^ exponent := mul_le_mul_of_nonneg_right (by linarith) hpower.le
    _ = q := (Scaled.eq_units q exponent).symm

/-! ### The parts that are left -/

theorem rounds_ofParts (negative : Bool) (hscaled : Scaled q exponent)
    (hwhole : RoundsTo (q / 2 ^ exponent) whole) :
    Rounds negative q (ofParts negative whole exponent) := by
  unfold ofParts
  by_cases hcarry : whole = Nat.pow 2 precision
  · rw [if_pos hcarry]
    dsimp only
    rw [Nat.pow_eq] at hcarry
    subst hcarry
    split
    · next hgreat => exact .inr ⟨Scaled.overflow_le_of_eq hwhole (by omega), rfl⟩
    · next hfinite =>
        refine .inl ⟨hscaled.lt_overflow (by omega), _, _, rfl, ?_⟩
        refine hscaled.nearest_of_eq hwhole ⟨by decide, ?_, not_lt.1 hfinite, fun _ => le_rfl⟩ ?_ ?_
        · exact hscaled.least.trans (by omega)
        · rw [magnitude, magnitude, zpow_add_one₀ two_ne_zero]
          norm_num [precision]
          ring
        · exact fun _ => by decide
  · rw [if_neg hcarry]
    dsimp only
    have hlt : whole < 2 ^ precision := lt_of_le_of_ne (hscaled.whole_le hwhole) hcarry
    split
    · next hgreat => exact .inr ⟨hscaled.overflow_le hgreat, rfl⟩
    · next hfinite =>
        have hsmall : q < overflow := by
          rcases lt_or_eq_of_le (not_lt.1 hfinite) with hless | hequal
          · exact hscaled.lt_overflow hless
          · subst hequal
            exact Scaled.lt_overflow_of_lt hwhole hlt
        refine .inl ⟨hsmall, whole, exponent, rfl, ?_⟩
        exact hscaled.nearest_of_eq hwhole
          ⟨hlt, hscaled.least, not_lt.1 hfinite, hscaled.le_whole hwhole⟩ rfl id

end Parts

/-- What is less than half of the least number is rounded to zero. -/
theorem rounds_zero (negative : Bool) {q : ℚ} (hq : 0 ≤ q) (hsmall : q < 2 ^ (minExponent - 1)) :
    Rounds negative q (zero negative) := by
  have hpower : (0 : ℚ) < 2 ^ minExponent := by positivity
  have hunits : q / 2 ^ minExponent < 1 / 2 := by
    rw [div_lt_iff₀ hpower]
    refine lt_of_lt_of_eq hsmall ?_
    rw [zpow_sub_one₀ two_ne_zero]
    ring
  have habs : |q / 2 ^ minExponent - (0 : ℕ)| = q / 2 ^ minExponent := by
    rw [Nat.cast_zero, sub_zero, abs_of_nonneg (by positivity)]
  have hscaled : Scaled q minExponent :=
    ⟨le_rfl, hunits.trans (by norm_num [precision]), fun hless => absurd hless (lt_irrefl _)⟩
  have hwhole : RoundsTo (q / 2 ^ minExponent) 0 := ⟨habs.trans_le hunits.le, fun _ => rfl⟩
  refine .inl ⟨hscaled.lt_overflow (by decide), 0, minExponent, rfl, ?_⟩
  exact hscaled.nearest_of_eq hwhole
    ⟨by decide, le_rfl, by decide, fun hless => absurd hless (lt_irrefl _)⟩ rfl id

/-- A quotient is rounded to the nearest number. -/
theorem rounds_ofRatio (negative : Bool) (numerator : ℕ) {denominator : ℕ}
    (hdenominator : 0 < denominator) :
    Rounds negative (numerator / denominator) (ofRatio negative numerator denominator) := by
  unfold ofRatio
  split
  · next hzero =>
      rw [hzero, Nat.cast_zero, zero_div]
      exact rounds_zero negative le_rfl (zpow_pos two_pos _)
  · next hnumerator =>
      extract_lets exponent
      have hscaled := exponentOf_spec hnumerator hdenominator
      obtain ⟨hdivisor, hquotient⟩ := @scaleDown_spec numerator _ hdenominator exponent
      split
      next scaled divisor hparts =>
        rw [hparts] at hdivisor hquotient
        refine rounds_ofParts negative hscaled ?_
        rw [← hquotient]
        exact roundDiv_spec hdivisor

/-! ## Decimal numbers -/

/-- A number with this power of ten is too great, whatever its digits are. -/
theorem overflow_le_pow : overflow ≤ 10 ^ (311 : ℤ) := by
  have hpowers : 2 ^ 1024 ≤ 10 ^ 311 := by decide +kernel
  calc overflow ≤ 2 ^ (1024 : ℤ) := sub_le_self _ (by positivity)
    _ ≤ 10 ^ (311 : ℤ) := by exact_mod_cast hpowers

/-- With this power of ten a number is less than half of the least one. -/
theorem pow_le_least : (2 : ℚ) * 10 ^ (-331 : ℤ) ≤ 2 ^ (minExponent - 1) := by
  have hpowers : 2 * 2 ^ 1075 ≤ 10 ^ 331 := by decide +kernel
  have hcast : (2 : ℚ) * 2 ^ (1075 : ℤ) ≤ 10 ^ (331 : ℤ) := by exact_mod_cast hpowers
  have hexponent : minExponent - 1 = -1075 := rfl
  rw [hexponent, zpow_neg, zpow_neg, ← div_eq_mul_inv, div_le_iff₀ (by positivity),
    inv_mul_eq_div, le_div_iff₀ (by positivity)]
  exact hcast

/-- A decimal number is rounded to the nearest number, also where it is known without its power of
ten that it is too great or rounded to zero. -/
theorem rounds_ofDecimal (negative : Bool) (digits : ℕ) (scale : ℤ) :
    Rounds negative (digits * 10 ^ scale) (ofDecimal negative digits scale) := by
  unfold ofDecimal
  split
  · next hzero =>
      rw [hzero, Nat.cast_zero, zero_mul]
      exact rounds_zero negative le_rfl (zpow_pos two_pos _)
  · next hdigits =>
      have hone : (1 : ℚ) ≤ digits := by exact_mod_cast Nat.pos_of_ne_zero hdigits
      split
      · next hgreat =>
          refine .inr ⟨overflow_le_pow.trans ?_, rfl⟩
          calc (10 : ℚ) ^ (311 : ℤ) ≤ 10 ^ scale :=
                zpow_le_zpow_right₀ (by norm_num) (by omega)
            _ ≤ digits * 10 ^ scale := le_mul_of_one_le_left (by positivity) hone
      · split
        · next hsmall =>
            refine rounds_zero negative (by positivity) ?_
            have hlog : (digits : ℚ) < 2 * 10 ^ (digits.log2 : ℤ) := by
              calc (digits : ℚ) < 2 ^ (digits.log2 + 1 : ℤ) := (log2_bounds hdigits).2
                _ = 2 * 2 ^ digits.log2 := by
                    rw [zpow_add_one₀ two_ne_zero, zpow_natCast, mul_comm]
                _ ≤ 2 * 10 ^ (digits.log2 : ℤ) := by
                    rw [zpow_natCast]
                    gcongr
                    norm_num
            calc (digits : ℚ) * 10 ^ scale
                < 2 * 10 ^ (digits.log2 : ℤ) * 10 ^ scale :=
                  mul_lt_mul_of_pos_right hlog (by positivity)
              _ = 2 * 10 ^ (scale + digits.log2) := by
                  rw [mul_assoc, ← zpow_add₀ (by norm_num), add_comm]
              _ ≤ 2 * 10 ^ (-331 : ℤ) := by
                  gcongr
                  · norm_num
                  · omega
              _ ≤ 2 ^ (minExponent - 1) := pow_le_least
        · split
          · next hscale =>
              have hpower : ((digits * Nat.pow 10 scale.toNat : ℕ) : ℚ) / (1 : ℕ) =
                  digits * 10 ^ scale := by
                rw [Nat.cast_one, div_one, Nat.pow_eq, Nat.cast_mul, Nat.cast_pow, ← zpow_natCast,
                  Int.toNat_of_nonneg hscale]
                norm_num
              rw [← hpower]
              exact rounds_ofRatio negative _ one_pos
          · next hscale =>
              have hpower : (digits : ℚ) / (Nat.pow 10 (-scale).toNat : ℕ) =
                  digits * 10 ^ scale := by
                rw [Nat.pow_eq, Nat.cast_pow, ← zpow_natCast, Int.toNat_of_nonneg (by omega),
                  zpow_neg, div_inv_eq_mul]
                norm_num
              rw [← hpower]
              exact rounds_ofRatio negative _ (Nat.pow_pos (by norm_num))

end XmlToJson.Binary64

import Mathlib.Algebra.Order.Field.Basic
import Mathlib.Algebra.Order.Field.Power
import Mathlib.Data.Rat.Cast.Order
import Mathlib.Tactic.Linarith
import Mathlib.Tactic.Positivity
import Mathlib.Tactic.Ring
import Mathlib.Tactic.FieldSimp
import ScriptYard.Proofs.Number.Rounding
import ScriptYard.Value.Basic

/-!
# Exact values and nearest numbers

A finite number of the 64-bit format has an exact value (`Finite64.value`), and `Finite64.compare` is the order of
these values (`Finite64.compare_eq_lt_iff` and its companions).

An integer need not be such a number. `Finite64.IsNearest` says what rounding owes to it: no other number of the
format is nearer to it, and where another one is equally near, the one that was chosen has an even mantissa. The
integers of 64 bits, signed or unsigned, are all within the range of the format, and the number that `Number.toFloat`
takes each of them to is the nearest one (`Number.isNearest_toFloat`).

The argument is about one power of two, the unit `2 ^ e` of the mantissa of `n`. A number whose exponent is `e` or
more is a multiple of that unit, and among the multiples `Binary64.divNearestEven` picks the nearest one. A number
with a smaller exponent is below `2 ^ (52 + e)`, which is itself a multiple of the unit and is not above `n`.
-/

namespace ScriptYard

namespace Finite64

variable {x y : Finite64}

/-! ### Exact values -/

/-- The exact value of a number. -/
def value (x : Finite64) : ℚ := x.numerator / x.quotient.2

/-- The exact value of a number without its sign. -/
def magnitude (x : Finite64) : ℚ := x.mant * (2 : ℚ) ^ x.exp

theorem cast_quotient_pos (x : Finite64) : (0 : ℚ) < x.quotient.2 := Nat.cast_pos.mpr x.quotient_pos

theorem magnitude_nonneg (x : Finite64) : 0 ≤ x.magnitude := by
  unfold magnitude
  positivity

/-- A number is its magnitude with its sign. -/
theorem value_eq (x : Finite64) : x.value = if x.negative then -x.magnitude else x.magnitude := by
  have h_quotient : (x.quotient.1 : ℚ) / x.quotient.2 = x.magnitude := by
    unfold quotient magnitude
    split
    · next h_exp =>
      -- the exponent is a natural
      obtain ⟨e, h_e⟩ := Int.eq_ofNat_of_zero_le h_exp
      rw [h_e]
      simp [twoTo]
    · next h_exp =>
      obtain ⟨e, h_e⟩ : ∃ e : ℕ, x.exp = -e := ⟨(-x.exp).toNat, by omega⟩
      rw [h_e]
      simp [twoTo, div_eq_mul_inv]
  unfold value numerator
  split
  · rw [← h_quotient, Int.cast_neg, Int.cast_natCast, neg_div]
  · rw [← h_quotient, Int.cast_natCast]

/-! ### The order of exact values -/

private theorem cross_lt_iff :
    x.numerator * y.quotient.2 < y.numerator * x.quotient.2 ↔ x.value < y.value := by
  unfold value
  rw [div_lt_div_iff₀ x.cast_quotient_pos y.cast_quotient_pos]
  exact_mod_cast Iff.rfl

private theorem cross_eq_iff :
    x.numerator * y.quotient.2 = y.numerator * x.quotient.2 ↔ x.value = y.value := by
  unfold value
  rw [div_eq_div_iff x.cast_quotient_pos.ne' y.cast_quotient_pos.ne']
  exact_mod_cast Iff.rfl

theorem compare_eq_lt_iff : x.compare y = .lt ↔ x.value < y.value := by
  unfold compare
  rw [Int.compare_eq_lt, cross_lt_iff]

theorem compare_eq_gt_iff : x.compare y = .gt ↔ y.value < x.value := by
  unfold compare
  rw [Int.compare_eq_gt, cross_lt_iff]

theorem compare_eq_eq_iff : x.compare y = .eq ↔ x.value = y.value := by
  unfold compare
  rw [Int.compare_eq_eq, cross_eq_iff]

theorem sameValue_iff : x.sameValue y = true ↔ x.value = y.value := by
  unfold sameValue
  rw [beq_iff_eq, compare_eq_eq_iff]

/-! ### Nearest numbers -/

/-- The number of the format that is nearest to a rational, a tie having gone to an even mantissa. -/
structure IsNearest (x : Finite64) (q : ℚ) : Prop where
  /-- No number is nearer. -/
  le : ∀ y : Finite64, |x.value - q| ≤ |y.value - q|
  /-- Where another value is as near, the mantissa is even. -/
  even : ∀ y : Finite64, y.value ≠ x.value → |y.value - q| = |x.value - q| → x.mant % 2 = 0

/-- The value of a number of the format has itself for its nearest number. -/
theorem IsNearest.value_eq {q : ℚ} (h : x.IsNearest q) (h_y : y.value = q) : x.value = q := by
  have h_le := h.le y
  rw [h_y, sub_self, abs_zero] at h_le
  exact sub_eq_zero.mp (abs_nonpos_iff.mp h_le)

/-- A number that is the rational itself is the nearest one. -/
theorem isNearest_of_value_eq {q : ℚ} (h : x.value = q) : x.IsNearest q := by
  refine ⟨fun y => ?_, fun y h_ne h_tie => ?_⟩
  · rw [h, sub_self, abs_zero]
    exact abs_nonneg _
  · rw [h, sub_self, abs_zero, abs_eq_zero] at h_tie
    exact absurd (h ▸ sub_eq_zero.mp h_tie) h_ne

/-- **Rounding keeps the order**: of two rationals the smaller one has no larger nearest number. -/
theorem IsNearest.value_le {q r : ℚ} (h_x : x.IsNearest q) (h_y : y.IsNearest r) (h : q < r) : x.value ≤ y.value := by
  by_contra h_gt
  rw [not_le] at h_gt
  -- `q` is not below the middle of the two numbers, and `r` is not above it
  have h_q := h_x.le y
  have h_r := h_y.le x
  rcases abs_cases (x.value - q) with ⟨h₁, _⟩ | ⟨h₁, _⟩ <;>
  rcases abs_cases (y.value - q) with ⟨h₂, _⟩ | ⟨h₂, _⟩ <;>
  rcases abs_cases (y.value - r) with ⟨h₃, _⟩ | ⟨h₃, _⟩ <;>
  rcases abs_cases (x.value - r) with ⟨h₄, _⟩ | ⟨h₄, _⟩ <;>
  linarith

/-! ### Signs and units -/

/-- A number is nearest to `±n` if, signs apart, no magnitude is nearer to `n`. -/
theorem isNearest_of_magnitude {n : ℕ} (h_le : ∀ y : Finite64, |x.magnitude - n| ≤ |y.magnitude - n|)
    (h_even : ∀ y : Finite64, y.magnitude ≠ x.magnitude → |y.magnitude - n| = |x.magnitude - n| → x.mant % 2 = 0) :
    x.IsNearest (if x.negative then -n else n) := by
  have h_n : (0 : ℚ) ≤ n := Nat.cast_nonneg n
  have h_x : |x.value - if x.negative then -(n : ℚ) else n| = |x.magnitude - n| := by
    rw [x.value_eq]
    split
    · rw [← abs_neg]
      congr 1
      ring
    · rfl
  -- a number of the other sign is the farther away by it
  have h_far : ∀ y : Finite64, |y.magnitude - n| ≤ |y.value - if x.negative then -(n : ℚ) else n| := by
    intro y
    have h_y := y.magnitude_nonneg
    rw [y.value_eq]
    split <;> split <;> rcases abs_cases (y.magnitude - n) with ⟨h, _⟩ | ⟨h, _⟩ <;> rw [h] <;>
      first | exact le_abs.mpr (.inl (by linarith)) | exact le_abs.mpr (.inr (by linarith))
  refine ⟨fun y => ?_, fun y h_ne h_tie => ?_⟩
  · rw [h_x]
    exact (h_le y).trans (h_far y)
  · rw [h_x] at h_tie
    have h_near : |y.magnitude - n| = |x.magnitude - n| := le_antisymm (h_tie ▸ h_far y) (h_le y)
    by_cases h_same : y.magnitude = x.magnitude
    · -- equally far with the other sign: then both numbers are zero
      exfalso
      have h_pos := x.magnitude_nonneg
      have h_zero := h_le (zero false)
      have h_none : (zero false).magnitude = 0 := by simp [magnitude, zero]
      rw [h_none] at h_zero
      rw [y.value_eq, x.value_eq, h_same] at h_ne
      rw [y.value_eq, h_same] at h_tie
      cases h_sx : x.negative <;> cases h_sy : y.negative <;> simp only [h_sx, h_sy] at h_ne h_tie <;> grind
    · exact h_even y h_same h_near

/-- Of a power of two a magnitude is either a multiple, or below what 52 further bits make of it. -/
theorem magnitude_cases (x : Finite64) (e : ℕ) :
    (∃ z : ℕ, x.magnitude = z * (2 : ℚ) ^ e) ∨ x.magnitude < (2 : ℚ) ^ (52 + e) := by
  by_cases h : (e : ℤ) ≤ x.exp
  · left
    obtain ⟨more, h_more⟩ := Int.le.dest h
    refine ⟨x.mant * 2 ^ more, ?_⟩
    unfold magnitude
    rw [← h_more, zpow_add₀ two_ne_zero, zpow_natCast, zpow_natCast]
    push_cast
    ring
  · right
    -- a mantissa has 53 bits, and the exponent is below `e` here
    have h_mant : (x.mant : ℚ) < 2 ^ 53 := by exact_mod_cast x.canonical.1
    have h_exp : (2 : ℚ) ^ x.exp ≤ 2 ^ ((e : ℤ) - 1) := zpow_le_zpow_right₀ (by norm_num) (by omega)
    calc x.magnitude < 2 ^ 53 * 2 ^ x.exp := mul_lt_mul_of_pos_right h_mant (by positivity)
      _ ≤ 2 ^ 53 * 2 ^ ((e : ℤ) - 1) := mul_le_mul_of_nonneg_left h_exp (by positivity)
      _ = 2 ^ (52 + e) := by
        rw [← zpow_natCast 2 53, ← zpow_natCast 2 (52 + e), ← zpow_add₀ two_ne_zero]
        congr 1
        push_cast
        ring

end Finite64

namespace Binary64

/-! ### Rounding to a multiple of a unit -/

/-- `divNearestEven n d` times `d` is the multiple of `d` that is nearest to `n`; a tie goes to an even factor. -/
theorem divNearestEven_nearest {n d : ℕ} (h_d : 0 < d) (z : ℤ) :
    (divNearestEven n d * d - n : ℤ).natAbs ≤ (z * d - n).natAbs ∧
      (z ≠ divNearestEven n d → (z * d - n).natAbs = (divNearestEven n d * d - n : ℤ).natAbs →
        divNearestEven n d % 2 = 0) := by
  have h_div : (n : ℤ) = d * (n / d : ℕ) + (n % d : ℕ) := by exact_mod_cast (Nat.div_add_mod n d).symm
  have h_mod : n % d < d := Nat.mod_lt n h_d
  unfold divNearestEven
  dsimp only
  generalize n / d = q at h_div ⊢
  generalize n % d = r at h_div h_mod ⊢
  have h_pos : (0 : ℤ) < d := Int.natCast_pos.mpr h_d
  -- the multiples by `q` and `q + 1` are the ones around `n`; `t` is how far the multiple by `z` is from the first
  have h_floor : (q : ℤ) * d - n = -r := by rw [h_div]; ring
  have h_ceil : ((q + 1 : ℕ) : ℤ) * d - n = d - r := by rw [h_div, Nat.cast_succ]; ring
  obtain ⟨t, h_t⟩ : ∃ t, t = (z - q) * d := ⟨_, rfl⟩
  have h_far : z * d - n = t - r := by rw [h_t, h_div]; ring
  have h_same : z = q → t = 0 := fun h => by rw [h_t, h, sub_self, zero_mul]
  have h_next : z = q + 1 → t = d := fun h => by rw [h_t, h]; ring
  have h_less : z < q → t ≤ -d := fun h => by
    rw [h_t, ← neg_one_mul]
    exact mul_le_mul_of_nonneg_right (by omega) h_pos.le
  have h_more : q + 1 < z → 2 * d ≤ t := fun h => by
    rw [h_t]
    exact mul_le_mul_of_nonneg_right (by omega) h_pos.le
  rw [h_far]
  split
  · rw [h_floor]
    omega
  · split
    · rw [h_ceil]
      omega
    · split
      · next h_even =>
        rw [h_floor]
        have h_zero : q % 2 = 0 := beq_iff_eq.mp h_even
        omega
      · next h_odd =>
        rw [h_ceil]
        have h_one : q % 2 ≠ 0 := fun h => h_odd (beq_iff_eq.mpr h)
        omega

/-! ### Rounding an integer -/

theorem floorLog2_one {n : ℕ} (h : n ≠ 0) : floorLog2 n 1 = n.log2 := by
  have h_reached : twoTo n.log2 ≤ n := Nat.log2_self_le h
  unfold floorLog2
  simpa [show Nat.log2 1 = 0 by decide] using h_reached

/-- The number with a mantissa and an exponent that the format uses. -/
theorem ofParts_eq_finite {negative : Bool} {mant : ℕ} {exp : ℤ} (h : Finite64.Canonical mant exp) :
    ofParts negative mant exp = .finite ⟨negative, mant, exp, h⟩ := dif_pos h

variable {n : ℕ}

/-- An integer of at most 53 bits is rounded to itself. -/
theorem ofQuotient_of_short (negative : Bool) (h_n : n ≠ 0) (h : n.log2 ≤ 52) :
    ∃ x, ofQuotient negative n 1 = .finite x ∧ x.negative = negative ∧ x.magnitude = n := by
  obtain ⟨up, h_up⟩ := Nat.exists_eq_add_of_le h
  have h_low : 2 ^ n.log2 ≤ n := Nat.log2_self_le h_n
  have h_high : n < 2 ^ (n.log2 + 1) := Nat.lt_log2_self
  -- the mantissa is the integer with its top bit brought to the top of the mantissa
  have h_canonical : Finite64.Canonical (n * twoTo up) (-up) := by
    refine ⟨?_, by omega, by omega, .inl ?_⟩
    · calc n * twoTo up < 2 ^ (n.log2 + 1) * 2 ^ up := Nat.mul_lt_mul_of_pos_right h_high (twoTo_pos up)
        _ = 2 ^ 53 := by rw [← Nat.pow_add]; congr 1; omega
    · calc 2 ^ 52 = 2 ^ n.log2 * 2 ^ up := by rw [← Nat.pow_add, ← h_up]
        _ ≤ n * twoTo up := Nat.mul_le_mul_right _ h_low
  have h_exp : max ((n.log2 : ℤ) - 52) (-1074) = -up := by omega
  have h_mant : (if 0 ≤ -(up : ℤ) then divNearestEven n (1 * twoTo (-(up : ℤ)).toNat)
      else divNearestEven (n * twoTo (- -(up : ℤ)).toNat) 1) = n * twoTo up := by
    split
    · next h_none =>
      obtain rfl : up = 0 := by omega
      simp [divNearestEven, twoTo, Nat.mod_one]
    · simp [divNearestEven, Nat.mod_one]
  refine ⟨⟨negative, n * twoTo up, -up, h_canonical⟩, ?_, rfl, ?_⟩
  · unfold ofQuotient
    rw [if_neg (by simpa using h_n), floorLog2_one h_n]
    dsimp only
    rw [h_exp, h_mant, if_neg (by simpa using h_canonical.1.ne), ofParts_eq_finite h_canonical]
  · simp [Finite64.magnitude, twoTo]

/-- An integer of more than 53 bits is rounded to the nearest multiple of the unit of its mantissa. -/
theorem ofQuotient_of_long (negative : Bool) {e : ℕ} (h : n.log2 = 52 + e) (h_e : e ≤ 11) :
    ∃ x, ofQuotient negative n 1 = .finite x ∧ x.negative = negative ∧
      x.magnitude = divNearestEven n (twoTo e) * (2 : ℚ) ^ e ∧
      (divNearestEven n (twoTo e) % 2 = 0 → x.mant % 2 = 0) := by
  have h_n : n ≠ 0 := by rintro rfl; simp at h; omega
  have h_low : 2 ^ (52 + e) ≤ n := h ▸ Nat.log2_self_le h_n
  have h_high : n < 2 ^ (52 + e + 1) := h ▸ Nat.lt_log2_self
  have h_quotient : 2 ^ 52 ≤ n / twoTo e ∧ n / twoTo e < 2 ^ 53 := by
    constructor
    · rw [Nat.le_div_iff_mul_le (twoTo_pos e)]
      exact (Nat.pow_add 2 52 e).symm.trans_le h_low
    · rw [Nat.div_lt_iff_lt_mul (twoTo_pos e)]
      refine h_high.trans_eq ?_
      rw [twoTo, Nat.pow_eq, ← Nat.pow_add]
      congr 1
      omega
  have h_mant : 2 ^ 52 ≤ divNearestEven n (twoTo e) ∧ divNearestEven n (twoTo e) ≤ 2 ^ 53 := by
    refine ⟨h_quotient.1.trans (div_le_divNearestEven _ _), ?_⟩
    unfold divNearestEven
    dsimp only
    split
    · omega
    · split
      · omega
      · split <;> omega
  have h_exp : max ((n.log2 : ℤ) - 52) (-1074) = e := by omega
  have h_unfold : ofQuotient negative n 1 = if divNearestEven n (twoTo e) == twoTo 53
      then ofParts negative (twoTo 52) (e + 1) else ofParts negative (divNearestEven n (twoTo e)) e := by
    unfold ofQuotient
    rw [if_neg (by simpa using h_n), floorLog2_one h_n]
    dsimp only
    rw [h_exp, if_pos (Int.natCast_nonneg e), Int.toNat_natCast, one_mul]
  rw [h_unfold]
  split
  · next h_carry =>
    -- the mantissa has outgrown its bits, and the exponent takes one of them
    have h_canonical : Finite64.Canonical (twoTo 52) (e + 1) := ⟨by decide, by omega, by omega, .inl le_rfl⟩
    rw [beq_iff_eq.mp h_carry]
    refine ⟨_, ofParts_eq_finite h_canonical, rfl, ?_, fun _ => show twoTo 52 % 2 = 0 by decide⟩
    simp only [Finite64.magnitude, twoTo]
    rw [zpow_add₀ two_ne_zero, zpow_natCast]
    norm_num
    ring
  · next h_fits =>
    have h_canonical : Finite64.Canonical (divNearestEven n (twoTo e)) e :=
      ⟨lt_of_le_of_ne h_mant.2 (by simpa using h_fits), by omega, by omega, .inl h_mant.1⟩
    refine ⟨_, ofParts_eq_finite h_canonical, rfl, ?_, id⟩
    simp only [Finite64.magnitude, zpow_natCast]

/-- The nearest multiple of a power of two, in the rationals. -/
theorem divNearestEven_nearest_twoTo (n e : ℕ) (z : ℤ) :
    |(divNearestEven n (twoTo e) : ℚ) * 2 ^ e - n| ≤ |z * (2 : ℚ) ^ e - n| ∧
      (z ≠ divNearestEven n (twoTo e) →
        |z * (2 : ℚ) ^ e - n| = |(divNearestEven n (twoTo e) : ℚ) * 2 ^ e - n| →
        divNearestEven n (twoTo e) % 2 = 0) := by
  have h_cast : ∀ w : ℤ, |(w : ℚ) * 2 ^ e - n| = ((w * twoTo e - n : ℤ).natAbs : ℚ) := by
    intro w
    rw [Nat.cast_natAbs, Int.cast_abs]
    push_cast [twoTo]
    norm_num
  obtain ⟨h_le, h_even⟩ := divNearestEven_nearest (n := n) (twoTo_pos e) z
  have h_chosen := h_cast (divNearestEven n (twoTo e))
  rw [Int.cast_natCast] at h_chosen
  rw [h_chosen, h_cast z]
  exact ⟨Nat.cast_le.mpr h_le, fun h_ne h_tie => h_even h_ne (Nat.cast_inj.mp h_tie)⟩

/-- **The number that an integer of 64 bits is rounded to is finite, and the nearest one.** -/
theorem exists_isNearest_ofQuotient (negative : Bool) (h : n < twoTo 64) :
    ∃ x, ofQuotient negative n 1 = .finite x ∧ x.IsNearest (if negative then -n else n) := by
  by_cases h_n : n = 0
  · subst h_n
    refine ⟨.zero negative, rfl, Finite64.isNearest_of_value_eq ?_⟩
    simp [Finite64.value_eq, Finite64.zero, Finite64.magnitude]
  have h_log : n.log2 < 64 := (Nat.log2_lt h_n).mpr h
  by_cases h_short : n.log2 ≤ 52
  · obtain ⟨x, h_x, rfl, h_magnitude⟩ := ofQuotient_of_short negative h_n h_short
    refine ⟨x, h_x, Finite64.isNearest_of_value_eq ?_⟩
    rw [x.value_eq, h_magnitude]
  · obtain ⟨e, h_e⟩ := Nat.exists_eq_add_of_le (Nat.le_of_not_le h_short)
    obtain ⟨x, h_x, rfl, h_magnitude, h_even⟩ := ofQuotient_of_long negative h_e (by omega)
    have h_low : (2 : ℚ) ^ (52 + e) ≤ n := by exact_mod_cast h_e ▸ Nat.log2_self_le h_n
    -- a number that is no multiple of the unit is farther away than the smallest mantissa
    have h_far : ∀ y : Finite64, (¬∃ z : ℕ, y.magnitude = z * (2 : ℚ) ^ e) →
        |x.magnitude - n| < |y.magnitude - n| := by
      intro y h_y
      have h_less := (y.magnitude_cases e).resolve_left h_y
      have h_top := (divNearestEven_nearest_twoTo n e (2 ^ 52)).1
      rw [Int.cast_pow, Int.cast_ofNat, ← pow_add, ← h_magnitude] at h_top
      calc |x.magnitude - n| ≤ |(2 : ℚ) ^ (52 + e) - n| := h_top
        _ = n - 2 ^ (52 + e) := by rw [abs_sub_comm, abs_of_nonneg (sub_nonneg.mpr h_low)]
        _ < n - y.magnitude := sub_lt_sub_left h_less _
        _ ≤ |y.magnitude - n| := by rw [abs_sub_comm]; exact le_abs_self _
    refine ⟨x, h_x, Finite64.isNearest_of_magnitude (fun y => ?_) fun y h_ne h_tie => h_even ?_⟩
    · by_cases h_y : ∃ z : ℕ, y.magnitude = z * (2 : ℚ) ^ e
      · obtain ⟨z, h_z⟩ := h_y
        rw [h_z, h_magnitude]
        exact_mod_cast (divNearestEven_nearest_twoTo n e z).1
      · exact (h_far y h_y).le
    · obtain ⟨z, h_z⟩ : ∃ z : ℕ, y.magnitude = z * (2 : ℚ) ^ e := by
        by_contra h_y
        exact (h_far y h_y).ne' h_tie
      refine (divNearestEven_nearest_twoTo n e z).2 (fun h_same => h_ne ?_) ?_
      · rw [h_z, h_magnitude, Nat.cast_inj.mp h_same]
      · rw [← h_magnitude, ← h_tie, h_z, Int.cast_natCast]

end Binary64
namespace Number

/-- The exact value of a number. -/
def value : Number → ℚ
  | .int i => i
  | .float x => x.value

/-- An integer is its absolute value with its sign. -/
theorem cast_natAbs_signed (i : ℤ) : (if decide (i < 0) = true then -(i.natAbs : ℚ) else i.natAbs) = i := by
  rw [Nat.cast_natAbs, Int.cast_abs]
  simp only [decide_eq_true_eq]
  split
  · next h_neg => rw [abs_of_neg (by exact_mod_cast h_neg), neg_neg]
  · next h_pos => rw [abs_of_nonneg (by exact_mod_cast not_lt.mp h_pos)]

/-- **A number is compared by the number of the format that is nearest to it.** -/
theorem isNearest_toFloat {n : Number} (h : n.InRange) : n.toFloat.IsNearest n.value := by
  cases n with
  | int i =>
    have h_abs : i.natAbs < twoTo 64 := by
      have h_signed : (twoTo 63 : ℤ) < twoTo 64 := by decide
      have h_range : -(twoTo 63 : ℤ) ≤ i ∧ i < twoTo 64 := h
      omega
    obtain ⟨x, h_x, h_nearest⟩ := Binary64.exists_isNearest_ofQuotient (decide (i < 0)) h_abs
    have h_float : toFloat (.int i) = x := by rw [toFloat, Binary64.ofInt, h_x]; rfl
    rw [cast_natAbs_signed] at h_nearest
    rw [h_float]
    exact h_nearest
  | float x => exact Finite64.isNearest_of_value_eq rfl

/-- A number whose value is one of the format is compared by its value. -/
theorem value_toFloat {n : Number} (h : n.InRange) {x : Finite64} (h_x : x.value = n.value) :
    n.toFloat.value = n.value :=
  (isNearest_toFloat h).value_eq h_x

/-- The value is one of a number of the format. -/
def IsExact (n : Number) : Prop := ∃ x : Finite64, x.value = n.value

/-- An integer of up to 53 bits, and the next one behind them, is a number of the format. -/
theorem isExact_int {i : ℤ} (h : i.natAbs ≤ twoTo 53) : IsExact (.int i) := by
  -- a number with the magnitude and the sign of the integer has its value
  have h_signed : ∀ x : Finite64, x.negative = decide (i < 0) → x.magnitude = i.natAbs → x.value = i := by
    intro x h_sign h_magnitude
    rw [x.value_eq, h_sign, h_magnitude, cast_natAbs_signed]
  rcases Nat.eq_or_lt_of_le h with h_top | h_less
  · refine ⟨⟨decide (i < 0), twoTo 52, 1, by decide⟩, h_signed _ rfl ?_⟩
    rw [h_top]
    norm_num [Finite64.magnitude, twoTo]
  · by_cases h_zero : i.natAbs = 0
    · exact ⟨.zero (decide (i < 0)), h_signed _ rfl (by simp [h_zero, Finite64.zero, Finite64.magnitude])⟩
    · have h_short : i.natAbs.log2 ≤ 52 := Nat.lt_succ_iff.mp ((Nat.log2_lt h_zero).mpr h_less)
      obtain ⟨x, -, h_sign, h_magnitude⟩ := Binary64.ofQuotient_of_short (decide (i < 0)) h_zero h_short
      exact ⟨x, h_signed x h_sign h_magnitude⟩

/-- Of two numbers the smaller one is not compared by the larger value. -/
theorem toFloat_mono {m n : Number} (h_m : m.InRange) (h_n : n.InRange) (h : m.value ≤ n.value) :
    m.toFloat.value ≤ n.toFloat.value := by
  rcases h.lt_or_eq with h_lt | h_eq
  · exact (isNearest_toFloat h_m).value_le (isNearest_toFloat h_n) h_lt
  · -- two integers of one value are one integer; any other pair of one value is a pair of numbers of the format
    have h_exact : ∀ x : Finite64, x.value = m.value → m.toFloat.value ≤ n.toFloat.value := fun x h_x => by
      rw [value_toFloat h_m h_x, value_toFloat h_n (h_x.trans h_eq), h_eq]
    match m, n with
    | .int i, .int j =>
      obtain rfl : i = j := Int.cast_inj.mp h_eq
      exact le_rfl
    | .float x, _ => exact h_exact x rfl
    | .int _, .float y => exact h_exact y h_eq.symm

end Number

end ScriptYard

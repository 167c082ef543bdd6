import Mathlib.Data.Int.Order.Basic
import ScriptYard.Number.Binary64

/-!
# Rounding and the number one

One is a number of the 64-bit format, so that no rounding takes a number from above it to below. What comes out
of the arithmetic on numbers that are one or more is again one or more, or infinite, and never the value that
is not a number (`Binary64.IsOneOrMore`): so it is for the nearest number of a natural, for products
(`Binary64.IsOneOrMore.mul`), and, product by product, for powers (`Binary64.IsOneOrMore.pow`).

All of this rests on `Binary64.isOneOrMore_ofQuotient`. The exponent of the rounded quotient comes from
`Binary64.floorLog2`, of which only this is needed: it is not too large (`Binary64.mul_twoTo_floorLog2_le`).
-/

namespace ScriptYard

theorem twoTo_pos (n : ℕ) : 0 < twoTo n := Nat.two_pow_pos n

theorem twoTo_add (m n : ℕ) : twoTo (m + n) = twoTo m * twoTo n := Nat.pow_add 2 m n

theorem twoTo_le {m n : ℕ} (h : m ≤ n) : twoTo m ≤ twoTo n := Nat.pow_le_pow_right (by decide) h

namespace Finite64

variable {x y : Finite64}

/-- The number is one or more. -/
structure IsOneOrMore (x : Finite64) : Prop where
  /-- It has no sign. -/
  negative : x.negative = false
  /-- Its numerator is not below its denominator. -/
  le : x.quotient.2 ≤ x.quotient.1

theorem quotient_pos (x : Finite64) : 0 < x.quotient.2 := by
  unfold quotient
  split
  · exact Nat.one_pos
  · exact twoTo_pos _

theorem isOneOrMore_iff : x.IsOneOrMore ↔ one.compare x ≠ .gt := by
  have h_one : one.quotient = (twoTo 52, twoTo 52) := rfl
  have h_unit : (0 : ℤ) < twoTo 52 := Int.natCast_pos.mpr (twoTo_pos 52)
  have h_pos : (0 : ℤ) < x.quotient.2 := Int.natCast_pos.mpr x.quotient_pos
  unfold compare numerator
  rw [h_one, ne_eq, Int.compare_eq_gt, Int.not_lt, if_neg (show one.negative ≠ true from Bool.false_ne_true)]
  cases h_sign : x.negative with
  | true =>
    -- a number with a sign is below zero, or is zero
    refine iff_of_false (fun h => ?_) fun h => ?_
    · rw [h.negative] at h_sign
      cases h_sign
    · have h_below : -(x.quotient.1 : ℤ) * twoTo 52 ≤ 0 :=
        Int.mul_nonpos_of_nonpos_of_nonneg (Int.neg_nonpos_of_nonneg (Int.natCast_nonneg _)) (Int.le_of_lt h_unit)
      have h_above : (0 : ℤ) < twoTo 52 * x.quotient.2 := Int.mul_pos h_unit h_pos
      exact absurd (Int.lt_of_lt_of_le h_above h) (Int.not_lt.mpr h_below)
  | false =>
    have h_le : x.IsOneOrMore ↔ x.quotient.2 ≤ x.quotient.1 := ⟨fun h => h.le, fun h => ⟨h_sign, h⟩⟩
    rw [h_le, if_neg Bool.false_ne_true, Int.mul_comm, Int.mul_le_mul_right h_unit, Int.ofNat_le]

theorem IsOneOrMore.isZero (h : x.IsOneOrMore) : x.isZero = false := by
  have h_pos := Nat.lt_of_lt_of_le x.quotient_pos h.le
  refine Bool.eq_false_iff.mpr fun h_zero => ?_
  -- a mantissa of zero makes a numerator of zero
  have h_mant : x.mant = 0 := beq_iff_eq.mp h_zero
  unfold quotient at h_pos
  split at h_pos <;> simp [h_mant] at h_pos

end Finite64

namespace Binary64

/-- The value is a number that is one or more, or positive and infinite. -/
def IsOneOrMore : Binary64 → Prop
  | .finite x => x.IsOneOrMore
  | .infinite negative => negative = false
  | .nan => False

/-! ### One rounding -/

theorem div_le_divNearestEven (n d : ℕ) : n / d ≤ divNearestEven n d := by
  unfold divNearestEven
  dsimp only
  split
  · exact Nat.le_refl _
  · split
    · exact Nat.le_succ _
    · split
      · exact Nat.le_refl _
      · exact Nat.le_succ _

/-- The power of two that `floorLog2` names is not above the quotient. -/
theorem mul_twoTo_floorLog2_le {n d : ℕ} (h_n : n ≠ 0) (h : 0 ≤ floorLog2 n d) :
    d * twoTo (floorLog2 n d).toNat ≤ n := by
  -- one power below the difference of the logarithms is always reached
  have h_below : ∀ k : ℤ, (n.log2 : ℤ) - d.log2 = k → 0 ≤ k - 1 → d * twoTo (k - 1).toNat ≤ n := by
    intro k h_k h_pos
    have h_split : n.log2 = d.log2 + 1 + (k - 1).toNat := by omega
    calc d * twoTo (k - 1).toNat ≤ twoTo (d.log2 + 1) * twoTo (k - 1).toNat :=
          Nat.mul_le_mul_right _ (Nat.le_of_lt Nat.lt_log2_self)
      _ = twoTo n.log2 := by rw [h_split, twoTo_add (d.log2 + 1)]
      _ ≤ n := Nat.log2_self_le h_n
  unfold floorLog2 at h ⊢
  dsimp only at h ⊢
  generalize h_k : (n.log2 : ℤ) - (d.log2 : ℤ) = k at h ⊢
  generalize h_reached : (if 0 ≤ k then decide (d * twoTo k.toNat ≤ n) else decide (d ≤ n * twoTo (-k).toNat)) =
    reached at h ⊢
  cases reached with
  | true =>
    rw [if_pos rfl] at h ⊢
    rw [if_pos h] at h_reached
    exact of_decide_eq_true h_reached
  | false =>
    rw [if_neg Bool.false_ne_true] at h ⊢
    exact h_below k h_k h

/-- A mantissa and an exponent that make one or more make a number that is one or more. -/
theorem isOneOrMore_ofParts {mant : ℕ} {exp : ℤ} (h : twoTo (-exp).toNat ≤ mant * twoTo exp.toNat) :
    (ofParts false mant exp).IsOneOrMore := by
  unfold ofParts
  split
  · refine ⟨rfl, ?_⟩
    unfold Finite64.quotient
    dsimp only
    split
    · -- one of the two powers is that of zero
      next h_exp =>
      have h_none : (-exp).toNat = 0 := by omega
      rw [h_none] at h
      exact h
    · next h_exp =>
      have h_none : exp.toNat = 0 := by omega
      rw [h_none] at h
      simpa [twoTo] using h
  · exact rfl

/-- A mantissa that is carried over loses a factor of two, and its exponent wins one. -/
theorem le_carried {exp : ℤ} (h : twoTo (-exp).toNat ≤ twoTo 53 * twoTo exp.toNat) :
    twoTo (-(exp + 1)).toNat ≤ twoTo 52 * twoTo (exp + 1).toNat := by
  by_cases h_up : 0 ≤ exp
  · have h_none : (-(exp + 1)).toNat = 0 := by omega
    rw [h_none]
    exact Nat.mul_pos (twoTo_pos 52) (twoTo_pos _)
  · have h_next : (-exp).toNat = (-(exp + 1)).toNat + 1 := by omega
    have h_none : exp.toNat = 0 := by omega
    have h_none' : (exp + 1).toNat = 0 := by omega
    rw [h_next, h_none, twoTo_add, twoTo_add 52 1, Nat.mul_right_comm] at h
    rw [h_none']
    exact Nat.le_of_mul_le_mul_right h (twoTo_pos 1)

/-- **A quotient that is one or more is rounded to one or more.** -/
theorem isOneOrMore_ofQuotient {n d : ℕ} (h_d : 0 < d) (h : d ≤ n) : (ofQuotient false n d).IsOneOrMore := by
  have h_n : n ≠ 0 := by omega
  unfold ofQuotient
  rw [if_neg (by simpa using h_n)]
  dsimp only
  generalize h_exp : max (floorLog2 n d - 52) (-1074) = exp
  -- the mantissa is not rounded below the power of two that makes up for the exponent
  have h_mant : twoTo (-exp).toNat ≤ (if 0 ≤ exp then divNearestEven n (d * twoTo exp.toNat)
      else divNearestEven (n * twoTo (-exp).toNat) d) * twoTo exp.toNat := by
    split
    · next h_up =>
      have h_log : exp.toNat ≤ (floorLog2 n d).toNat := by omega
      have h_below : d * twoTo exp.toNat ≤ n := calc
        d * twoTo exp.toNat ≤ d * twoTo (floorLog2 n d).toNat := Nat.mul_le_mul_left d (twoTo_le h_log)
        _ ≤ n := mul_twoTo_floorLog2_le h_n (by omega)
      have h_one : 1 ≤ n / (d * twoTo exp.toNat) :=
        Nat.div_pos h_below (Nat.mul_pos h_d (twoTo_pos _))
      have h_none : (-exp).toNat = 0 := by omega
      rw [h_none]
      exact Nat.mul_le_mul (Nat.le_trans h_one (div_le_divNearestEven _ _)) (twoTo_pos _)
    · next h_down =>
      have h_none : exp.toNat = 0 := by omega
      have h_floor : twoTo (-exp).toNat ≤ n * twoTo (-exp).toNat / d :=
        (Nat.le_div_iff_mul_le h_d).mpr (by rw [Nat.mul_comm]; exact Nat.mul_le_mul_right _ h)
      rw [h_none]
      exact Nat.le_trans h_floor (Nat.le_trans (div_le_divNearestEven _ _) (Nat.le_mul_of_pos_right _ (twoTo_pos 0)))
  generalize (if 0 ≤ exp then divNearestEven n (d * twoTo exp.toNat)
      else divNearestEven (n * twoTo (-exp).toNat) d) = mant at h_mant ⊢
  split
  · next h_carry =>
    rw [beq_iff_eq.mp h_carry] at h_mant
    exact isOneOrMore_ofParts (le_carried h_mant)
  · exact isOneOrMore_ofParts h_mant

/-! ### Arithmetic -/

theorem isOneOrMore_ofNat {n : ℕ} (h : 1 ≤ n) : (ofNat n).IsOneOrMore := isOneOrMore_ofQuotient Nat.one_pos h

theorem isOneOrMore_one : IsOneOrMore (.finite Finite64.one) := ⟨rfl, Nat.le_refl _⟩

namespace IsOneOrMore

variable {x y : Binary64}

/-- **A product** of two such values is one. -/
theorem mul (h_x : x.IsOneOrMore) (h_y : y.IsOneOrMore) : (x.mul y).IsOneOrMore := by
  cases x with
  | nan => exact h_x.elim
  | infinite s =>
    obtain rfl : s = false := h_x
    cases y with
    | nan => exact h_y.elim
    | infinite t =>
      obtain rfl : t = false := h_y
      rfl
    | finite y =>
      have h_y : y.IsOneOrMore := h_y
      -- infinity times what is not zero
      simp [Binary64.mul, h_y.isZero, h_y.negative, IsOneOrMore]
  | finite x =>
    have h_x : x.IsOneOrMore := h_x
    cases y with
    | nan => exact h_y.elim
    | infinite t =>
      obtain rfl : t = false := h_y
      simp [Binary64.mul, h_x.isZero, h_x.negative, IsOneOrMore]
    | finite y =>
      have h_y : y.IsOneOrMore := h_y
      simp only [Binary64.mul, h_x.negative, h_y.negative, bne_self_eq_false]
      exact isOneOrMore_ofQuotient (Nat.mul_pos x.quotient_pos y.quotient_pos) (Nat.mul_le_mul h_x.le h_y.le)

theorem powLoop (h_x : x.IsOneOrMore) {acc : Binary64} (h_acc : acc.IsOneOrMore) (n : ℕ) :
    (Binary64.powLoop x acc n).IsOneOrMore := by
  induction n using Nat.strongRecOn generalizing x acc with
  | _ n ih =>
    have h_acc' : (if n % 2 == 1 then acc.mul x else acc).IsOneOrMore := by
      split
      · exact h_acc.mul h_x
      · exact h_acc
    unfold Binary64.powLoop
    dsimp only
    split
    · exact h_acc'
    · next h_more => exact ih (n / 2) (Nat.div_lt_self (by omega) (by decide)) (h_x.mul h_x) h_acc'

/-- **A power** of such a value is one. -/
theorem pow (h_x : x.IsOneOrMore) (n : ℕ) : (x.pow n).IsOneOrMore := h_x.powLoop isOneOrMore_one n

end IsOneOrMore

end Binary64

end ScriptYard

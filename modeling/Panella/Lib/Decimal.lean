import Mathlib.Algebra.Order.Floor.Ring
import Mathlib.Algebra.Order.Field.Rat
import Mathlib.Data.Nat.Log
import Mathlib.Data.Rat.Floor
import Mathlib.Tactic.Linarith
import Mathlib.Tactic.Positivity
import Mathlib.Tactic.FieldSimp

/-!
# Python's `Decimal`, as far as it is divided and quantized

A finite `Decimal` is the rational it stands for. `roundHalfEven` is `ROUND_HALF_EVEN` at the units, `quantize` at a number
of places, and `quotient` the division of the default context, to 28 significant digits. Rounding keeps the order
(**`roundHalfEven_mono`**) and what is rounded already (`quantize_quantize`).
-/

namespace Decimal

/-- The nearest integer; of two, the even one. -/
def roundHalfEven (x : ℚ) : ℤ :=
  let rest := x - ⌊x⌋
  if rest < 1 / 2 then ⌊x⌋ else if 1 / 2 < rest then ⌊x⌋ + 1 else if ⌊x⌋ % 2 = 0 then ⌊x⌋ else ⌊x⌋ + 1

/-- `x.quantize(Decimal("1E-places"), ROUND_HALF_EVEN)`. -/
def quantize (places : Nat) (x : ℚ) : ℚ := (roundHalfEven (x * 10 ^ places) : ℚ) / 10 ^ places

/-- The places behind the point that 28 significant digits of `a / b` take, for `0 < a ≤ b`. -/
def quotientPlaces (a b : Nat) : Nat := Nat.clog 10 ((10 ^ 27 * b + a - 1) / a)

/-- `Decimal(a) / Decimal(b)` in the default context, for `a ≤ b`. -/
def quotient (a b : Nat) : ℚ := if a = 0 then 0 else quantize (quotientPlaces a b) ((a : ℚ) / b)

theorem floor_le_roundHalfEven (x : ℚ) : ⌊x⌋ ≤ roundHalfEven x := by
  unfold roundHalfEven
  dsimp only
  split_ifs <;> omega

theorem roundHalfEven_le_floor_succ (x : ℚ) : roundHalfEven x ≤ ⌊x⌋ + 1 := by
  unfold roundHalfEven
  dsimp only
  split_ifs <;> omega

/-- **Rounding keeps the order.** -/
theorem roundHalfEven_mono {x y : ℚ} (h : x ≤ y) : roundHalfEven x ≤ roundHalfEven y := by
  rcases (Int.floor_mono h).lt_or_eq with hlt | heq
  · -- an integer lies between
    calc roundHalfEven x ≤ ⌊x⌋ + 1 := roundHalfEven_le_floor_succ x
      _ ≤ ⌊y⌋ := hlt
      _ ≤ roundHalfEven y := floor_le_roundHalfEven y
  · have hrest : x - ⌊x⌋ ≤ y - ⌊y⌋ := by
      rw [heq]
      linarith
    unfold roundHalfEven
    dsimp only
    rw [← heq] at hrest ⊢
    split_ifs <;> first | omega | linarith

theorem roundHalfEven_intCast (n : ℤ) : roundHalfEven (n : ℚ) = n := by
  unfold roundHalfEven
  dsimp only
  rw [Int.floor_intCast, sub_self, if_pos (by norm_num)]

theorem quantize_mono (places : Nat) {x y : ℚ} (h : x ≤ y) : quantize places x ≤ quantize places y := by
  have hpos : (0 : ℚ) < 10 ^ places := by positivity
  unfold quantize
  apply (div_le_div_iff_of_pos_right hpos).2
  exact_mod_cast roundHalfEven_mono (mul_le_mul_of_nonneg_right h hpos.le)

/-- A number of that many places stays as it is. -/
theorem quantize_of_int {places : Nat} {x : ℚ} {n : ℤ} (h : x * 10 ^ places = n) : quantize places x = x := by
  have hpos : (10 : ℚ) ^ places ≠ 0 := by positivity
  rw [quantize, h, roundHalfEven_intCast, ← h, mul_div_cancel_right₀ _ hpos]

theorem quantize_quantize (places : Nat) (x : ℚ) : quantize places (quantize places x) = quantize places x := by
  have hpos : (10 : ℚ) ^ places ≠ 0 := by positivity
  exact quantize_of_int (n := roundHalfEven (x * 10 ^ places)) (div_mul_cancel₀ _ hpos)

@[simp] theorem quantize_zero (places : Nat) : quantize places 0 = 0 := quantize_of_int (n := 0) (by simp)

@[simp] theorem quantize_one (places : Nat) : quantize places 1 = 1 := quantize_of_int (n := 10 ^ places) (by simp)

theorem quotient_nonneg (a b : Nat) : 0 ≤ quotient a b := by
  unfold quotient
  split
  · exact le_refl 0
  · rw [← quantize_zero (quotientPlaces a b)]
    exact quantize_mono _ (by positivity)

theorem quotient_le_one {a b : Nat} (h : a ≤ b) : quotient a b ≤ 1 := by
  unfold quotient
  split
  · exact zero_le_one
  · rw [← quantize_one (quotientPlaces a b)]
    apply quantize_mono
    exact div_le_one_of_le₀ (by exact_mod_cast h) (by positivity)

end Decimal

import Mathlib.Algebra.Order.Field.Rat

/-!
# Python's floats, as far as they are compared

A finite float is the rational it stands for. `ofInt` is `float(n)`: to the nearest of 53 significant bits, ties to even.
-/

inductive PyFloat
  | nan
  | inf (negative : Bool)
  | finite (q : ℚ)

namespace PyFloat

/-- The integers that `float` refuses round to `2 ** 1024` or more. -/
def floatLimit : Nat := 2 ^ 1024 - 2 ^ 970

/-- To 53 significant bits. -/
def roundNat (n : Nat) : Nat :=
  let k := n.log2 - 52
  let q := n / 2 ^ k
  let r := n % 2 ^ k
  if 2 ^ k < 2 * r ∨ (2 * r = 2 ^ k ∧ q % 2 = 1) then (q + 1) * 2 ^ k else q * 2 ^ k

/-- `float(n)`; `none` where it raises `OverflowError`. -/
def ofInt (n : Int) : Option PyFloat :=
  if n.natAbs < floatLimit then some (.finite (n.sign * roundNat n.natAbs)) else none

theorem ofInt_some_iff {n : Int} : (∃ x, ofInt n = some x) ↔ n.natAbs < floatLimit := by
  unfold ofInt
  split
  · next hn => exact iff_of_true ⟨_, rfl⟩ hn
  · next hn => exact iff_of_false (by rintro ⟨x, hx⟩; cases hx) hn

/-- `max(0.0, min(1.0, x))`; no number is less than a `NaN`, so `min` keeps the one. -/
def clamp : PyFloat → PyFloat
  | .nan => .finite 1
  | .inf negative => .finite (if negative then 0 else 1)
  | .finite q => .finite (max 0 (min 1 q))

theorem clamp_unit (x : PyFloat) : ∃ q, x.clamp = .finite q ∧ 0 ≤ q ∧ q ≤ 1 := by
  cases x with
  | nan => exact ⟨1, rfl, zero_le_one, le_refl 1⟩
  | inf negative => cases negative <;> exact ⟨_, rfl, by simp, by simp⟩
  | finite q => exact ⟨_, rfl, le_max_left 0 _, max_le zero_le_one (min_le_left 1 q)⟩

/-- `0.0 <= x <= 1.0` of a finite one. -/
def unit? : PyFloat → Option ℚ
  | .finite q => if 0 ≤ q ∧ q ≤ 1 then some q else none
  | _ => none

theorem unit?_eq_some_iff {x : PyFloat} {q : ℚ} : x.unit? = some q ↔ x = .finite q ∧ 0 ≤ q ∧ q ≤ 1 := by
  cases x with
  | finite q' =>
    simp only [unit?, PyFloat.finite.injEq]
    constructor
    · intro h
      split at h
      · next hq =>
        cases h
        exact ⟨rfl, hq⟩
      · cases h
    · rintro ⟨rfl, hq⟩
      rw [if_pos hq]
  | _ => simp [unit?]

end PyFloat

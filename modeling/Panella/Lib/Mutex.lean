import Mathlib.Logic.Function.Basic
import Mathlib.Tactic.Common

/-!
# Locks and the parties inside them

`holder` says who holds a lock, `inside` which lock a party is in the middle of. `Held`: the two agree, so that no lock is
held by a party that has left it, and none by two. A party that moves gives up the lock it leaves and takes the one it enters
(`pass`); where it only enters a lock that is free, `Held` is kept (**`Held.pass`**).
-/

namespace Mutex

variable {K P : Type} [DecidableEq K] [DecidableEq P] {holder : K → Option P} {inside : P → Option K} {p q : P} {k : K}

/-- **A lock is held by exactly the party that is inside it.** -/
def Held (holder : K → Option P) (inside : P → Option K) : Prop := ∀ k p, holder k = some p ↔ inside p = some k

/-- The holders after party `p` has left `old` for `new`. -/
def pass (holder : K → Option P) (p : P) (old new : Option K) : K → Option P := fun k =>
  if new = some k then some p else if old = some k then none else holder k

omit [DecidableEq K] [DecidableEq P] in
theorem held_none : Held (fun _ : K => (none : Option P)) fun _ => none := by
  intro k p
  simp

omit [DecidableEq K] [DecidableEq P] in
/-- No two parties are inside one lock. -/
theorem Held.eq (h : Held holder inside) (hp : inside p = some k) (hq : inside q = some k) : p = q := by
  have hkp := (h k p).2 hp
  rw [(h k q).2 hq, Option.some.injEq] at hkp
  exact hkp.symm

omit [DecidableEq K] [DecidableEq P] in
theorem Held.free_iff (h : Held holder inside) : holder k = none ↔ ∀ p, inside p ≠ some k := by
  rw [Option.eq_none_iff_forall_ne_some]
  exact forall_congr' fun p => not_congr (h k p)

/-- **A party moves.** -/
theorem Held.pass (h : Held holder inside) {new : Option K}
    (hfree : ∀ k, new = some k → holder k = none ∨ inside p = some k) :
    Held (Mutex.pass holder p (inside p) new) (Function.update inside p new) := by
  intro k q
  unfold Mutex.pass
  by_cases hq : q = p
  · subst hq
    rw [Function.update_self]
    by_cases hnew : new = some k
    · simp [hnew]
    · rw [if_neg hnew]
      by_cases hold : inside q = some k
      · simp [hold, hnew]
      · rw [if_neg hold, h k q]
        simp [hold, hnew]
  · rw [Function.update_of_ne hq, ← h k q]
    by_cases hnew : new = some k
    · -- whoever else held it would be inside it
      rw [if_pos hnew]
      constructor
      · intro he
        exact absurd (Option.some.inj he).symm hq
      · intro he
        rcases hfree k hnew with hnone | hin
        · rw [hnone] at he
          cases he
        · exact absurd (h.eq ((h k q).1 he) hin) hq
    · rw [if_neg hnew]
      by_cases hold : inside p = some k
      · rw [if_pos hold, (h k p).2 hold]
        simp [Ne.symm hq]
      · rw [if_neg hold]

end Mutex

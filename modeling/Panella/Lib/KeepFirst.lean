import Mathlib.Data.List.Basic

/-!
# The first of equal elements

`keepFirst eqv acc ts` goes through `ts` and puts behind `acc` each element that no element it has kept is equal to, as
`dict.fromkeys` does. `eqv` need not be an equivalence.

* `distinct_keepFirst`, `keepFirst_of_distinct` — what it returns has no two equal elements, and such a list stays.
* `keepFirst_again` — a second pass, also with elements that are there already, changes nothing.
-/

namespace KeepFirst

variable {α : Type} (eqv : α → α → Bool)

def keepFirst : List α → List α → List α
  | acc, [] => acc
  | acc, t :: ts => keepFirst (if acc.any (eqv t) then acc else acc ++ [t]) ts

/-- No element is equal to an earlier one. -/
def Distinct (ts : List α) : Prop := ts.Pairwise fun u t => eqv t u = false

variable {eqv} {acc ts us : List α} {t : α}

@[simp] theorem keepFirst_nil : keepFirst eqv acc [] = acc := rfl

@[simp] theorem keepFirst_cons :
    keepFirst eqv acc (t :: ts) = keepFirst eqv (if acc.any (eqv t) then acc else acc ++ [t]) ts := rfl

theorem keepFirst_append : keepFirst eqv acc (ts ++ us) = keepFirst eqv (keepFirst eqv acc ts) us := by
  induction ts generalizing acc with
  | nil => rfl
  | cons t ts ih => exact ih

theorem mem_keepFirst {x : α} (h : x ∈ keepFirst eqv acc ts) : x ∈ acc ∨ x ∈ ts := by
  induction ts generalizing acc with
  | nil => exact .inl h
  | cons t ts ih =>
    rcases ih h with hx | hx
    · split at hx
      · exact .inl hx
      · rcases List.mem_append.1 hx with hx | hx
        · exact .inl hx
        · rw [List.mem_singleton.1 hx]
          exact .inr List.mem_cons_self
    · exact .inr (List.mem_cons_of_mem t hx)

theorem subset_keepFirst : acc ⊆ keepFirst eqv acc ts := by
  induction ts generalizing acc with
  | nil => exact List.Subset.refl acc
  | cons t ts ih =>
    rw [keepFirst_cons]
    refine List.Subset.trans ?_ ih
    split
    · exact List.Subset.refl acc
    · exact List.subset_append_left acc [t]

/-- An element that equals nothing but itself is kept. -/
theorem keepFirst_exact (hexact : ∀ u, eqv t u = true → u = t) (h : t ∈ ts) : t ∈ keepFirst eqv acc ts := by
  induction ts generalizing acc with
  | nil => cases h
  | cons t' ts ih =>
    rw [keepFirst_cons]
    rcases List.mem_cons.1 h with rfl | h
    · apply subset_keepFirst
      split
      · next hany =>
        obtain ⟨u, hu, he⟩ := List.any_eq_true.1 hany
        exact hexact u he ▸ hu
      · exact List.mem_append_right acc List.mem_cons_self
    · exact ih h

theorem distinct_snoc : Distinct eqv (acc ++ [t]) ↔ Distinct eqv acc ∧ acc.any (eqv t) = false := by
  unfold Distinct
  simp [List.pairwise_append]

/-- **What it returns has no two equal elements.** -/
theorem distinct_keepFirst (h : Distinct eqv acc) : Distinct eqv (keepFirst eqv acc ts) := by
  induction ts generalizing acc with
  | nil => exact h
  | cons t ts ih =>
    rw [keepFirst_cons]
    apply ih
    split
    · exact h
    · next hany => exact distinct_snoc.2 ⟨h, by simpa using hany⟩

/-- A list of distinct elements stays as it is. -/
theorem keepFirst_of_distinct (h : Distinct eqv (acc ++ ts)) : keepFirst eqv acc ts = acc ++ ts := by
  induction ts generalizing acc with
  | nil => simp
  | cons t ts ih =>
    have happ : acc ++ t :: ts = (acc ++ [t]) ++ ts := by simp
    rw [happ] at h ⊢
    have hsnoc : acc.any (eqv t) = false := (distinct_snoc.1 (List.pairwise_append.1 h).1).2
    rw [keepFirst_cons, hsnoc]
    exact ih h

/-- Elements that are there already are not put in again. -/
theorem keepFirst_of_seen (h : ∀ t ∈ ts, acc.any (eqv t) = true) : keepFirst eqv acc ts = acc := by
  induction ts with
  | nil => rfl
  | cons t ts ih =>
    rw [keepFirst_cons, if_pos (h t List.mem_cons_self)]
    apply ih
    intro u hu
    exact h u (List.mem_cons_of_mem t hu)

/-- **The second pass.** -/
theorem keepFirst_again (hseen : ∀ u ∈ us, (keepFirst eqv [] ts).any (eqv u) = true) :
    keepFirst eqv [] (keepFirst eqv [] ts ++ us) = keepFirst eqv [] ts := by
  have hdist : Distinct eqv (keepFirst eqv [] ts) := distinct_keepFirst List.Pairwise.nil
  have hself : keepFirst eqv [] (keepFirst eqv [] ts) = keepFirst eqv [] ts := keepFirst_of_distinct hdist
  rw [keepFirst_append, hself]
  exact keepFirst_of_seen hseen

end KeepFirst

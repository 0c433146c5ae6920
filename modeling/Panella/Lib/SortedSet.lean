import Mathlib.Data.List.Dedup
import Mathlib.Data.List.Sort
import Mathlib.Data.String.Basic

/-!
# `sorted(set(xs))`

The elements of a list, each once, in their order. The result depends on the set of elements only:
**`sortedSet_congr`**.
-/

namespace SortedSet

variable {α : Type} [LinearOrder α] {xs ys : List α} {x : α}

def sortedSet (xs : List α) : List α := xs.dedup.insertionSort (· ≤ ·)

@[simp] theorem mem_sortedSet : x ∈ sortedSet xs ↔ x ∈ xs := by
  rw [sortedSet, (List.perm_insertionSort _ _).mem_iff, List.mem_dedup]

theorem nodup_sortedSet (xs : List α) : (sortedSet xs).Nodup :=
  (List.perm_insertionSort _ _).nodup_iff.2 (List.nodup_dedup xs)

theorem pairwise_sortedSet (xs : List α) : (sortedSet xs).Pairwise (· ≤ ·) := List.pairwise_insertionSort (· ≤ ·) _

/-- **Only the set of elements counts.** -/
theorem sortedSet_congr (h : ∀ x, x ∈ xs ↔ x ∈ ys) : sortedSet xs = sortedSet ys := by
  have hperm : (sortedSet xs).Perm (sortedSet ys) := by
    apply (List.perm_ext_iff_of_nodup (nodup_sortedSet xs) (nodup_sortedSet ys)).2
    intro x
    rw [mem_sortedSet, mem_sortedSet]
    exact h x
  exact hperm.eq_of_pairwise (fun _ _ _ _ => le_antisymm) (pairwise_sortedSet xs) (pairwise_sortedSet ys)

theorem sortedSet_eq_nil_iff : sortedSet xs = [] ↔ xs = [] := by
  rw [List.eq_nil_iff_forall_not_mem, List.eq_nil_iff_forall_not_mem]
  simp only [mem_sortedSet]

/-- One distinct element. -/
theorem sortedSet_eq_singleton_iff : sortedSet xs = [x] ↔ xs ≠ [] ∧ ∀ y ∈ xs, y = x := by
  constructor
  · intro h
    constructor
    · intro hxs
      rw [sortedSet_eq_nil_iff.2 hxs] at h
      cases h
    · intro y hy
      have hmem := mem_sortedSet.2 hy
      rw [h] at hmem
      exact List.mem_singleton.1 hmem
  · rintro ⟨hne, hall⟩
    have hset : ∀ y, y ∈ xs ↔ y ∈ [x] := by
      intro y
      rw [List.mem_singleton]
      constructor
      · exact hall y
      · rintro rfl
        obtain ⟨z, hz⟩ := List.exists_mem_of_ne_nil xs hne
        exact hall z hz ▸ hz
    rw [sortedSet_congr hset]
    simp [sortedSet]

end SortedSet

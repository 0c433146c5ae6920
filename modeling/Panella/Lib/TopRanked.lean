import Panella.Lib.StableSort

/-!
# The best of a list

`Top before n xs top` says that `top` is what a ranking of `xs` by `before` keeps under a limit of `n`: elements of `xs` in
order, as many as there is room for, and none that is left out ranks above one that is kept. A sort cut off at `n` is one
(**`top_take`**), and for a relation that tells the elements apart there is no other (**`Top.unique`**).
-/

namespace TopRanked

open StableSort

variable {α : Type} {before : α → α → Prop} {n : Nat} {xs ys top top' : List α}

structure Top (before : α → α → Prop) (n : Nat) (xs top : List α) : Prop where
  mem : ∀ x ∈ top, x ∈ xs
  nodup : top.Nodup
  sorted : top.Pairwise before
  leftOut : ∀ x ∈ xs, x ∉ top → ∀ y ∈ top, before y x
  length : top.length = min n xs.length

/-- **A ranking cut off.** -/
theorem top_take [DecidableRel before] (h : Ranks before (· ∈ xs)) (hxs : xs.Nodup) (n : Nat) :
    Top before n xs ((xs.insertionSort before).take n) := by
  have hperm : (xs.insertionSort before).Perm xs := List.perm_insertionSort before xs
  have hsorted : (xs.insertionSort before).Pairwise before := pairwise_insertionSort h fun _ ha => ha
  have hcut : (xs.insertionSort before).take n ++ (xs.insertionSort before).drop n = xs.insertionSort before :=
    List.take_append_drop n _
  refine ⟨?_, ?_, ?_, ?_, ?_⟩
  · intro x hx
    exact hperm.mem_iff.1 (List.mem_of_mem_take hx)
  · exact (hperm.nodup_iff.2 hxs).sublist (List.take_sublist n _)
  · exact hsorted.sublist (List.take_sublist n _)
  · intro x hx hout y hy
    rw [← hcut] at hsorted
    apply (List.pairwise_append.1 hsorted).2.2 y hy
    have hmem : x ∈ (xs.insertionSort before).take n ++ (xs.insertionSort before).drop n := by
      rw [hcut]
      exact hperm.mem_iff.2 hx
    exact (List.mem_append.1 hmem).resolve_left hout
  · rw [List.length_take, hperm.length_eq]

/-- Nothing else is a ranking cut off at the same place. -/
theorem Top.unique (hanti : ∀ x ∈ xs, ∀ y ∈ xs, before x y → before y x → x = y) (h : Top before n xs top)
    (h' : Top before n xs top') : top = top' := by
  have hsub : ∀ {top top' : List α}, Top before n xs top → Top before n xs top' → top ⊆ top' := by
    intro top top' h h' x hx
    by_contra hout
    -- what is kept here and not there ranks between all of `top'` and itself, so the other holds more
    have hall : top' ⊆ top := by
      intro y hy
      by_contra hy'
      have hyx := h'.leftOut x (h.mem x hx) hout y hy
      have hxy := h.leftOut y (h'.mem y hy) hy' x hx
      exact hout (hanti x (h.mem x hx) y (h'.mem y hy) hxy hyx ▸ hy)
    have hlt : (x :: top').length ≤ top.length :=
      (List.subperm_of_subset (List.nodup_cons.2 ⟨hout, h'.nodup⟩) (List.cons_subset.2 ⟨hx, hall⟩)).length_le
    rw [List.length_cons, h.length, h'.length] at hlt
    omega
  have hperm : top.Perm top' := by
    apply (List.perm_ext_iff_of_nodup h.nodup h'.nodup).2
    exact fun x => ⟨fun hx => hsub h h' hx, fun hx => hsub h' h hx⟩
  apply hperm.eq_of_pairwise _ h.sorted h'.sorted
  intro x y hx hy
  exact hanti x (h.mem x hx) y (h'.mem y hy)

/-- The order of the list plays no part. -/
theorem Top.perm (h : Top before n xs top) (hperm : xs.Perm ys) : Top before n ys top := by
  refine ⟨fun x hx => hperm.mem_iff.1 (h.mem x hx), h.nodup, h.sorted, ?_, ?_⟩
  · intro x hx
    exact h.leftOut x (hperm.mem_iff.2 hx)
  · rw [h.length, hperm.length_eq]

end TopRanked

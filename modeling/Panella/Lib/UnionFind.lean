import Mathlib.Data.Finset.Card
import Mathlib.Data.Finset.Range
import Mathlib.Logic.Function.Basic
import Mathlib.Logic.Relation
import Mathlib.Order.Interval.Finset.Nat

/-!
# Parent pointers and the classes they stand for

A forest on the positions below `n` is given with the root of every position and a depth that falls on the way up. Halving a
path and linking a root under another keep it; a link joins two classes, which is one more pair of the relation that
generates them.
-/

namespace UnionFind

open Function Relation

variable {n : ℕ} {up rep depth : ℕ → ℕ}

structure Forest (n : ℕ) (up rep depth : ℕ → ℕ) : Prop where
  up_lt : ∀ x < n, up x < n
  rep_up : ∀ x < n, rep (up x) = rep x
  rep_root : ∀ x < n, up x = x → rep x = x
  depth_up : ∀ x < n, up x ≠ x → depth (up x) < depth x

namespace Forest

/-- Every position is its own root. -/
theorem discrete (n : ℕ) : Forest n id id fun _ => 0 where
  up_lt _ h := h
  rep_up _ _ := rfl
  rep_root _ _ _ := rfl
  depth_up _ _ h := absurd rfl h

theorem depth_le (h : Forest n up rep depth) {x : ℕ} (hx : x < n) : depth (up x) ≤ depth x := by
  by_cases hroot : up x = x
  · rw [hroot]
  · exact (h.depth_up x hx hroot).le

/-- Only a root is where two steps lead back to. -/
theorem root_of_two (h : Forest n up rep depth) {x : ℕ} (hx : x < n) (htwo : up (up x) = x) : up x = x := by
  by_contra hne
  have hlt := h.depth_up x hx hne
  have hle := h.depth_le (h.up_lt x hx)
  rw [htwo] at hle
  omega

/-- The root of a position is one, and among the positions. -/
theorem rep_fixed (h : Forest n up rep depth) {x : ℕ} (hx : x < n) : rep x < n ∧ up (rep x) = rep x := by
  induction hd : depth x using Nat.strong_induction_on generalizing x with
  | _ d ih =>
    by_cases hroot : up x = x
    · rw [h.rep_root x hx hroot]
      exact ⟨hx, hroot⟩
    · have hlt := h.depth_up x hx hroot
      rw [← h.rep_up x hx]
      exact ih (depth (up x)) (hd ▸ hlt) (h.up_lt x hx) rfl

/-- **Halving keeps the classes.** -/
theorem halve (h : Forest n up rep depth) {x : ℕ} (hx : x < n) : Forest n (update up x (up (up x))) rep depth where
  up_lt y hy := by
    by_cases hyx : y = x
    · subst hyx
      rw [update_self]
      exact h.up_lt _ (h.up_lt _ hy)
    · rw [update_of_ne hyx]
      exact h.up_lt y hy
  rep_up y hy := by
    by_cases hyx : y = x
    · subst hyx
      rw [update_self, h.rep_up _ (h.up_lt _ hy), h.rep_up _ hy]
    · rw [update_of_ne hyx]
      exact h.rep_up y hy
  rep_root y hy hroot := by
    by_cases hyx : y = x
    · subst hyx
      rw [update_self] at hroot
      exact h.rep_root y hy (h.root_of_two hy hroot)
    · rw [update_of_ne hyx] at hroot
      exact h.rep_root y hy hroot
  depth_up y hy hne := by
    by_cases hyx : y = x
    · subst hyx
      rw [update_self] at hne ⊢
      have hup : up y ≠ y := by
        intro hroot
        rw [hroot] at hne
        exact hne hroot
      exact (h.depth_le (h.up_lt y hy)).trans_lt (h.depth_up y hy hup)
    · rw [update_of_ne hyx] at hne ⊢
      exact h.depth_up y hy hne

/-- The root of each position, once `r` hangs under `s`. -/
def linkedRep (rep : ℕ → ℕ) (r s x : ℕ) : ℕ := if rep x = r then s else rep x

/-- **A root may be hung under a root.** -/
theorem link (h : Forest n up rep depth) {r s : ℕ} (hr : r < n) (hs : s < n) (hrootr : up r = r) (hroots : up s = s) :
    ∃ depth', Forest n (update up r s) (linkedRep rep r s) depth' := by
  have hrepr : rep r = r := h.rep_root r hr hrootr
  have hreps : rep s = s := h.rep_root s hs hroots
  refine ⟨fun x => if rep x = r then depth x + depth s + 1 else depth x, ?_, ?_, ?_, ?_⟩
  · intro x hx
    by_cases hxr : x = r
    · rw [hxr, update_self]
      exact hs
    · rw [update_of_ne hxr]
      exact h.up_lt x hx
  · intro x hx
    by_cases hxr : x = r
    · rw [hxr, update_self]
      simp only [linkedRep, hrepr, hreps, if_true, ite_self]
    · rw [update_of_ne hxr]
      simp only [linkedRep, h.rep_up x hx]
  · intro x hx hroot
    by_cases hxr : x = r
    · rw [hxr, update_self] at hroot
      rw [hxr, linkedRep, if_pos hrepr, hroot]
    · rw [update_of_ne hxr] at hroot
      have hrep := h.rep_root x hx hroot
      rw [linkedRep, if_neg (by rw [hrep]; exact hxr), hrep]
  · intro x hx hne
    by_cases hxr : x = r
    · subst hxr
      rw [update_self] at hne ⊢
      simp only [hrepr, hreps, if_true, if_neg hne]
      omega
    · rw [update_of_ne hxr] at hne ⊢
      have hlt := h.depth_up x hx hne
      simp only [h.rep_up x hx]
      split <;> omega

/-- **No path is longer than the forest is large**: the depth may be taken to count the positions of less depth. -/
theorem bounded (h : Forest n up rep depth) : ∃ depth', Forest n up rep depth' ∧ ∀ x, depth' x ≤ n := by
  refine ⟨fun x => ((Finset.range n).filter fun y => depth y < depth x).card, ⟨h.up_lt, h.rep_up, h.rep_root, ?_⟩, ?_⟩
  · intro x hx hne
    have hlt := h.depth_up x hx hne
    apply Finset.card_lt_card
    rw [Finset.ssubset_iff_of_subset]
    · exact ⟨up x, by simp [h.up_lt x hx, hlt], by simp⟩
    · intro y hy
      simp only [Finset.mem_filter] at hy ⊢
      exact ⟨hy.1, hy.2.trans hlt⟩
  · intro x
    exact (Finset.card_filter_le _ _).trans (Finset.card_range n).le

end Forest

/-- `r x y`, or one of the two that a link joins. -/
def withPair {α : Type*} (r : α → α → Prop) (i j : α) (x y : α) : Prop := r x y ∨ (x = i ∧ y = j)

/-- **A link joins the classes of the two it is made for.** -/
theorem linkedRep_eq_iff {r : ℕ → ℕ → Prop} (h : ∀ x y, rep x = rep y ↔ EqvGen r x y) {i j x y : ℕ} :
    Forest.linkedRep rep (rep i) (rep j) x = Forest.linkedRep rep (rep i) (rep j) y ↔ EqvGen (withPair r i j) x y := by
  have hmono : ∀ {a b}, rep a = rep b → EqvGen (withPair r i j) a b := by
    intro a b hab
    exact Relation.EqvGen.mono (fun _ _ hr => Or.inl hr) a b ((h a b).1 hab)
  have hpair : EqvGen (withPair r i j) i j := .rel _ _ (.inr ⟨rfl, rfl⟩)
  unfold Forest.linkedRep
  constructor
  · intro heq
    by_cases hx : rep x = rep i
    · by_cases hy : rep y = rep i
      · exact hmono (hx.trans hy.symm)
      · rw [if_pos hx, if_neg hy] at heq
        exact ((hmono hx).trans _ _ _ hpair).trans _ _ _ (hmono heq)
    · by_cases hy : rep y = rep i
      · rw [if_neg hx, if_pos hy] at heq
        exact ((hmono heq).trans _ _ _ (hpair.symm _ _)).trans _ _ _ (hmono hy.symm)
      · rw [if_neg hx, if_neg hy] at heq
        exact hmono heq
  · intro hgen
    induction hgen with
    | rel a b hab =>
      rcases hab with hab | ⟨rfl, rfl⟩
      · rw [(h a b).2 (.rel _ _ hab)]
      · simp
    | refl a => rfl
    | symm a b _ ih => exact ih.symm
    | trans a b c _ _ ihab ihbc => exact ihab.trans ihbc

end UnionFind

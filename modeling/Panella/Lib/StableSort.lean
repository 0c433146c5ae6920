import Mathlib.Data.List.Sort

/-!
# Stable sorts and the rows they are cut to

A sort by a key that compares well only on the elements at hand: `Ranks r P` asks `r` to be total and transitive where `P`
holds. There a stable sort commutes with every filter, so a cut of it keeps a cut of what is filtered.
-/

namespace StableSort

variable {α : Type} {r : α → α → Prop} [DecidableRel r] {P : α → Prop}

structure Ranks (r : α → α → Prop) (P : α → Prop) : Prop where
  total : ∀ a b, P a → P b → r a b ∨ r b a
  trans : ∀ a b c, P a → P b → P c → r a b → r b c → r a c

theorem pairwise_orderedInsert (h : Ranks r P) {a : α} {l : List α} (ha : P a) (hl : ∀ b ∈ l, P b) (hs : l.Pairwise r) :
    (l.orderedInsert r a).Pairwise r := by
  induction l with
  | nil => exact List.pairwise_singleton r a
  | cons b l ih =>
    have hb : P b := hl b List.mem_cons_self
    have hl' : ∀ c ∈ l, P c := fun c hc => hl c (List.mem_cons_of_mem b hc)
    obtain ⟨hbl, hs'⟩ := List.pairwise_cons.1 hs
    rw [List.orderedInsert_cons]
    split
    · next hab =>
      refine List.pairwise_cons.2 ⟨?_, hs⟩
      intro c hc
      rcases List.mem_cons.1 hc with rfl | hc
      · exact hab
      · exact h.trans a b c ha hb (hl' c hc) hab (hbl c hc)
    · next hab =>
      refine List.pairwise_cons.2 ⟨?_, ih hl' hs'⟩
      intro c hc
      rcases (List.mem_orderedInsert r).1 hc with rfl | hc
      · exact (h.total c b ha hb).resolve_left hab
      · exact hbl c hc

theorem pairwise_insertionSort (h : Ranks r P) {l : List α} (hl : ∀ a ∈ l, P a) : (l.insertionSort r).Pairwise r := by
  induction l with
  | nil => exact .nil
  | cons a l ih =>
    have hl' : ∀ b ∈ l, P b := fun b hb => hl b (List.mem_cons_of_mem a hb)
    apply pairwise_orderedInsert h (hl a List.mem_cons_self) _ (ih hl')
    intro b hb
    exact hl' b ((List.mem_insertionSort r).1 hb)

theorem stratum_orderedInsert {p : α → Prop} (hup : ∀ a b, p a → ¬ p b → r a b)
    (hdown : ∀ a b, ¬ p a → p b → ¬ r a b) {a : α} {l : List α} (hs : l.Pairwise fun b c => p c → p b) :
    (l.orderedInsert r a).Pairwise fun b c => p c → p b := by
  induction l with
  | nil => exact List.pairwise_singleton _ a
  | cons b l ih =>
    obtain ⟨hbl, hs'⟩ := List.pairwise_cons.1 hs
    rw [List.orderedInsert_cons]
    split
    · next hab =>
      refine List.pairwise_cons.2 ⟨?_, hs⟩
      intro c hc hpc
      by_contra hpa
      have hpb : p b := by
        rcases List.mem_cons.1 hc with rfl | hc
        · exact hpc
        · exact hbl c hc hpc
      exact hdown a b hpa hpb hab
    · next hab =>
      refine List.pairwise_cons.2 ⟨?_, ih hs'⟩
      intro c hc hpc
      rcases (List.mem_orderedInsert r).1 hc with rfl | hc
      · by_contra hpb
        exact hab (hup c b hpc hpb)
      · exact hbl c hc hpc

/-- **A sort by a flag first** puts the flagged in front, whatever it does among them. -/
theorem stratum_insertionSort {p : α → Prop} (hup : ∀ a b, p a → ¬ p b → r a b) (hdown : ∀ a b, ¬ p a → p b → ¬ r a b)
    (l : List α) : (l.insertionSort r).Pairwise fun b c => p c → p b := by
  induction l with
  | nil => exact .nil
  | cons a l ih => exact stratum_orderedInsert hup hdown ih

/-- Where `a` goes in among the rest does not depend on what is filtered out. -/
theorem filter_orderedInsert (h : Ranks r P) (q : α → Bool) {a : α} {l : List α} (ha : P a) (hl : ∀ b ∈ l, P b)
    (hs : l.Pairwise r) :
    (l.orderedInsert r a).filter q = if q a then (l.filter q).orderedInsert r a else l.filter q := by
  induction l with
  | nil => by_cases hq : q a <;> simp [hq]
  | cons b l ih =>
    have hb : P b := hl b List.mem_cons_self
    have hl' : ∀ c ∈ l, P c := fun c hc => hl c (List.mem_cons_of_mem b hc)
    obtain ⟨hbl, hs'⟩ := List.pairwise_cons.1 hs
    rw [List.orderedInsert_cons]
    by_cases hab : r a b
    · rw [if_pos hab]
      by_cases hq : q a
      · rw [if_pos hq, List.filter_cons_of_pos hq]
        -- Everything kept of `b :: l` comes after `b`, so `a` stays in front.
        cases hf : (b :: l).filter q with
        | nil => rfl
        | cons c cs =>
          have hc : c ∈ b :: l := (List.mem_filter.1 (hf ▸ List.mem_cons_self)).1
          have hac : r a c := by
            rcases List.mem_cons.1 hc with rfl | hc
            · exact hab
            · exact h.trans a b c ha hb (hl' c hc) hab (hbl c hc)
          rw [List.orderedInsert_cons, if_pos hac]
      · rw [if_neg hq, List.filter_cons_of_neg hq]
    · rw [if_neg hab]
      by_cases hqb : q b
      · rw [List.filter_cons_of_pos hqb, List.filter_cons_of_pos hqb, ih hl' hs', List.orderedInsert_cons, if_neg hab]
        split <;> rfl
      · rw [List.filter_cons_of_neg hqb, List.filter_cons_of_neg hqb, ih hl' hs']

/-- **A stable sort commutes with every filter.** -/
theorem filter_insertionSort (h : Ranks r P) (q : α → Bool) {l : List α} (hl : ∀ a ∈ l, P a) :
    (l.insertionSort r).filter q = (l.filter q).insertionSort r := by
  induction l with
  | nil => rfl
  | cons a l ih =>
    have hl' : ∀ b ∈ l, P b := fun b hb => hl b (List.mem_cons_of_mem a hb)
    have hs : ∀ b ∈ l.insertionSort r, P b := fun b hb => hl' b ((List.mem_insertionSort r).1 hb)
    rw [List.insertionSort_cons, filter_orderedInsert h q (hl a List.mem_cons_self) hs (pairwise_insertionSort h hl'), ih hl']
    by_cases hq : q a
    · rw [if_pos hq, List.filter_cons_of_pos hq, List.insertionSort_cons]
    · rw [if_neg hq, List.filter_cons_of_neg hq]

omit [DecidableRel r] in
/-- Two sublists of a list without repeats are equal where they have the same members. -/
theorem sublist_ext {l l₁ l₂ : List α} (hl : l.Nodup) (h₁ : l₁.Sublist l) (h₂ : l₂.Sublist l)
    (h : ∀ a, a ∈ l₁ ↔ a ∈ l₂) : l₁ = l₂ := by
  induction l generalizing l₁ l₂ with
  | nil => rw [List.sublist_nil.1 h₁, List.sublist_nil.1 h₂]
  | cons x l ih =>
    obtain ⟨hx, hl⟩ := List.nodup_cons.1 hl
    have hfresh : ∀ {m : List α}, m.Sublist l → x ∉ m := fun hm hxm => hx (hm.subset hxm)
    cases h₁ with
    | cons _ h₁ =>
      cases h₂ with
      | cons _ h₂ => exact ih hl h₁ h₂ h
      | cons_cons _ h₂ => exact absurd ((h x).2 List.mem_cons_self) (hfresh h₁)
    | cons_cons _ h₁ =>
      cases h₂ with
      | cons _ h₂ => exact absurd ((h x).1 List.mem_cons_self) (hfresh h₂)
      | @cons_cons m₂ _ _ h₂ =>
        next m₁ =>
        rw [ih hl h₁ h₂]
        intro a
        have ha := h a
        simp only [List.mem_cons] at ha
        constructor
        · intro hm
          exact (ha.1 (.inr hm)).resolve_left fun e => hfresh h₁ (e ▸ hm)
        · intro hm
          exact (ha.2 (.inr hm)).resolve_left fun e => hfresh h₂ (e ▸ hm)

/-- A sort of some of the elements keeps the order of the sort of all. -/
theorem insertionSort_sublist (h : Ranks r P) {l₁ l₂ : List α} (hl : ∀ a ∈ l₂, P a) (hnd : l₂.Nodup) (hs : l₁.Sublist l₂) :
    (l₁.insertionSort r).Sublist (l₂.insertionSort r) := by
  classical
  have hf : l₁ = l₂.filter (· ∈ l₁) := by
    apply sublist_ext hnd hs List.filter_sublist
    intro a
    simp only [List.mem_filter, decide_eq_true_eq]
    exact ⟨fun ha => ⟨hs.subset ha, ha⟩, And.right⟩
  rw [hf, ← filter_insertionSort h _ hl]
  exact List.filter_sublist

end StableSort

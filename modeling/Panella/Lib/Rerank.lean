import Mathlib.Data.List.Sort
import Mathlib.Data.List.Count

/-!
# Ranking twice with a cut between

A stable sort in descending order of a key puts a list in a strict order, the key first and then the order it came in (`Outranks`,
`pairwise_byKey`). `rerank` sorts by one key, keeps the first `n` and sorts those by another. What is in the result, and at which index,
is a matter of counting (`mem_rerank`, `getElem_rerank`); raising one element in both keys never moves it back (**`rerank_raise`**).
-/

namespace Rerank

variable {α K K₁ K₂ : Type} [LinearOrder K] [LinearOrder K₁] [LinearOrder K₂]

/-! ## Lists in a strict order -/

section
variable {S : α → α → Prop} [DecidableRel S] {l : List α}

/-- As many come before an element as its index says. -/
theorem countP_getElem (hasymm : ∀ a b, S a b → ¬ S b a) (hl : l.Pairwise S) {i : Nat} (hi : i < l.length) :
    l.countP (fun b => S b l[i]) = i := by
  induction l generalizing i with
  | nil => simp at hi
  | cons a l ih =>
    rw [List.pairwise_cons] at hl
    cases i with
    | zero =>
      rw [List.countP_eq_zero]
      intro b hb
      rcases List.mem_cons.1 hb with rfl | hb
      · simpa using fun h => hasymm _ _ h h
      · simpa using hasymm _ _ (hl.1 b hb)
    | succ i =>
      have hi' : i < l.length := by simpa using hi
      rw [List.countP_cons_of_pos (by simpa using hl.1 _ (List.getElem_mem hi'))]
      rw [List.getElem_cons_succ, ih hl.2 hi']

theorem mem_take_iff (hasymm : ∀ a b, S a b → ¬ S b a) (hl : l.Pairwise S) {a : α} {n : Nat} :
    a ∈ l.take n ↔ a ∈ l ∧ l.countP (fun b => S b a) < n := by
  rw [List.mem_take_iff_getElem]
  constructor
  · rintro ⟨i, hi, rfl⟩
    have hlt : i < l.length := by omega
    refine ⟨List.getElem_mem hlt, ?_⟩
    rw [countP_getElem hasymm hl hlt]
    omega
  · rintro ⟨hmem, hcount⟩
    obtain ⟨i, hi, rfl⟩ := List.getElem_of_mem hmem
    rw [countP_getElem hasymm hl hi] at hcount
    exact ⟨i, by omega, rfl⟩

theorem nodup_of_pairwise (hasymm : ∀ a b, S a b → ¬ S b a) (hl : l.Pairwise S) : l.Nodup :=
  hl.imp fun {a b} h => by
    rintro rfl
    exact hasymm a a h h

end

/-! ## A stable sort -/

/-- In descending order of the key; equal keys keep their order. -/
def byKey (key : α → K) (l : List α) : List α := l.insertionSort fun a b => key b ≤ key a

/-- The key is greater, or it is the same and `R` decides. -/
def Outranks (key : α → K) (R : α → α → Prop) (a b : α) : Prop := key b < key a ∨ key b = key a ∧ R a b

instance {key : α → K} {R : α → α → Prop} [DecidableRel R] : DecidableRel (Outranks key R) :=
  fun a b => inferInstanceAs (Decidable (_ ∨ _))

section
variable {key : α → K} {R : α → α → Prop}

theorem Outranks.asymm (hR : ∀ a b, R a b → ¬ R b a) : ∀ a b, Outranks key R a b → ¬ Outranks key R b a := by
  rintro a b (h | ⟨h, hr⟩) (h' | ⟨h', hr'⟩)
  · exact lt_asymm h h'
  · exact h.ne' h'
  · exact h'.ne' h
  · exact hR a b hr hr'

theorem Outranks.trans (hR : ∀ a b c, R a b → R b c → R a c) {a b c : α} (h : Outranks key R a b) (h' : Outranks key R b c) :
    Outranks key R a c := by
  rcases h with h | ⟨h, hr⟩ <;> rcases h' with h' | ⟨h', hr'⟩
  · exact .inl (h'.trans h)
  · exact .inl (h' ▸ h)
  · exact .inl (h ▸ h')
  · exact .inr ⟨h'.trans h, hR a b c hr hr'⟩

theorem pairwise_orderedInsert {a : α} {l : List α} (ha : ∀ b ∈ l, R a b) (hl : l.Pairwise (Outranks key R)) :
    (l.orderedInsert (fun a b => key b ≤ key a) a).Pairwise (Outranks key R) := by
  induction l with
  | nil => exact List.pairwise_singleton _ a
  | cons b l ih =>
    rw [List.forall_mem_cons] at ha
    rw [List.pairwise_cons] at hl
    rw [List.orderedInsert_cons]
    split
    · rename_i hle
      refine List.pairwise_cons.2 ⟨?_, List.pairwise_cons.2 hl⟩
      intro c hc
      rcases List.mem_cons.1 hc with rfl | hc
      · exact hle.lt_or_eq.imp_right fun h => ⟨h, ha.1⟩
      · have hcb : key c ≤ key b := (hl.1 c hc).elim le_of_lt fun h => h.1.le
        exact (hcb.trans hle).lt_or_eq.imp_right fun h => ⟨h, ha.2 c hc⟩
    · rename_i hlt
      refine List.pairwise_cons.2 ⟨?_, ih ha.2 hl.2⟩
      intro c hc
      rcases (List.mem_orderedInsert _).1 hc with rfl | hc
      · exact .inl (not_le.1 hlt)
      · exact hl.1 c hc

/-- A stable sort is strict: by the key, and by the order before where the keys are the same. -/
theorem pairwise_byKey {l : List α} (hl : l.Pairwise R) : (byKey key l).Pairwise (Outranks key R) := by
  induction l with
  | nil => exact .nil
  | cons a l ih =>
    rw [List.pairwise_cons] at hl
    refine pairwise_orderedInsert ?_ (ih hl.2)
    intro b hb
    exact hl.1 b ((List.mem_insertionSort _).1 hb)

theorem perm_byKey (key : α → K) (l : List α) : (byKey key l).Perm l := List.perm_insertionSort _ l

end

/-! ## Two sorts -/

section
variable (key₁ : α → K₁) (key₂ : α → K₂) (place : α → Nat)

/-- The first order: one key, then the place. -/
def Ahead : α → α → Prop := Outranks key₁ fun a b => place a < place b

/-- The second order: the other key, then the first order. -/
def Above : α → α → Prop := Outranks key₂ (Ahead key₁ place)

instance : DecidableRel (Ahead key₁ place) := inferInstanceAs (DecidableRel (Outranks _ _))
instance : DecidableRel (Above key₁ key₂ place) := inferInstanceAs (DecidableRel (Outranks _ _))

/-- Fewer than `n` of the list are ahead of it. -/
def Kept (n : Nat) (l : List α) (a : α) : Prop := l.countP (fun b => Ahead key₁ place b a) < n

instance (n : Nat) (l : List α) (a : α) : Decidable (Kept key₁ place n l a) := inferInstanceAs (Decidable (_ < _))

/-- Sort by the first key, cut, sort by the second. -/
def rerank (n : Nat) (l : List α) : List α := byKey key₂ ((byKey key₁ l).take n)

end

section
variable {key₁ : α → K₁} {key₂ : α → K₂} {place : α → Nat} {n : Nat} {l : List α} {a b : α}

theorem Ahead.asymm : ∀ a b, Ahead key₁ place a b → ¬ Ahead key₁ place b a := Outranks.asymm fun _ _ => Nat.lt_asymm

theorem Above.asymm : ∀ a b, Above key₁ key₂ place a b → ¬ Above key₁ key₂ place b a := Outranks.asymm Ahead.asymm

theorem Above.key_le (h : Above key₁ key₂ place a b) : key₂ b ≤ key₂ a := h.elim le_of_lt fun h => h.1.le

theorem Ahead.trans {c : α} (h : Ahead key₁ place a b) (h' : Ahead key₁ place b c) : Ahead key₁ place a c :=
  Outranks.trans (R := fun a b => place a < place b) (fun _ _ _ => Nat.lt_trans) h h'

/-- What is ahead of something kept is kept. -/
theorem Kept.of_ahead (h : Kept key₁ place n l a) (hab : Ahead key₁ place b a) : Kept key₁ place n l b := by
  refine lt_of_le_of_lt (List.countP_mono_left ?_) h
  intro c _ hc
  rw [decide_eq_true_eq] at hc ⊢
  exact hc.trans hab

variable (hl : l.Pairwise fun a b => place a < place b)
include hl

theorem pairwise_rerank : (rerank key₁ key₂ n l).Pairwise (Above key₁ key₂ place) :=
  pairwise_byKey ((pairwise_byKey hl).sublist (List.take_sublist n _))

theorem perm_rerank : (rerank key₁ key₂ n l).Perm (l.filter fun a => Kept key₁ place n l a) := by
  have hfirst : (byKey key₁ l).Pairwise (Ahead key₁ place) := pairwise_byKey hl
  have hcount : ∀ a, (byKey key₁ l).countP (fun b => Ahead key₁ place b a) = l.countP fun b => Ahead key₁ place b a :=
    fun a => (perm_byKey key₁ l).countP_eq _
  refine (perm_byKey key₂ _).trans ?_
  rw [List.perm_ext_iff_of_nodup]
  · intro a
    rw [mem_take_iff Ahead.asymm hfirst, hcount, (perm_byKey key₁ l).mem_iff, List.mem_filter, decide_eq_true_eq]
    rfl
  · exact (nodup_of_pairwise Ahead.asymm hfirst).sublist (List.take_sublist n _)
  · exact (nodup_of_pairwise (fun _ _ => Nat.lt_asymm) hl).sublist List.filter_sublist

theorem mem_rerank : a ∈ rerank key₁ key₂ n l ↔ a ∈ l ∧ Kept key₁ place n l a := by
  rw [(perm_rerank hl).mem_iff, List.mem_filter, decide_eq_true_eq]

/-- The index of an element is the number of kept ones above it. -/
theorem getElem_rerank {i : Nat} (hi : (rerank key₁ key₂ n l)[i]? = some a) :
    i = l.countP fun b => Above key₁ key₂ place b a ∧ Kept key₁ place n l b := by
  obtain ⟨hlt, rfl⟩ := List.getElem?_eq_some_iff.1 hi
  have hcount := countP_getElem Above.asymm (pairwise_rerank hl) hlt
  rw [(perm_rerank hl).countP_eq, List.countP_filter] at hcount
  refine hcount.symm.trans (List.countP_congr ?_)
  intro b _
  simp

/-- Of two elements of the result the one above comes first. -/
theorem rerank_of_above {P : α → α → Prop} (hP : (rerank key₁ key₂ n l).Pairwise P) (ha : a ∈ rerank key₁ key₂ n l)
    (hb : b ∈ rerank key₁ key₂ n l) (h : Above key₁ key₂ place a b) : P a b := by
  obtain ⟨i, hi, rfl⟩ := List.getElem_of_mem ha
  obtain ⟨j, hj, rfl⟩ := List.getElem_of_mem hb
  have hsorted : (rerank key₁ key₂ n l).Pairwise (Above key₁ key₂ place) := pairwise_rerank hl
  have hpairs := List.pairwise_iff_getElem.1 hsorted
  rcases lt_trichotomy i j with hij | rfl | hij
  · exact List.pairwise_iff_getElem.1 hP i j hi hj hij
  · exact absurd h (Above.asymm _ _ h)
  · exact absurd h (Above.asymm _ _ (hpairs j i hj hi hij))

/-- **Raising one element** in both keys does not move it back. -/
theorem rerank_raise {raise : α → α} (hplace : ∀ b ∈ l, place (raise b) = place b)
    (hsame : ∀ b ∈ l, b ≠ a → raise b = b) (hkey₁ : key₁ a ≤ key₁ (raise a)) (hkey₂ : key₂ a ≤ key₂ (raise a)) {i : Nat}
    (hi : (rerank key₁ key₂ n l)[i]? = some a) : ∃ j ≤ i, (rerank key₁ key₂ n (l.map raise))[j]? = some (raise a) := by
  have hmem := mem_rerank hl |>.1 (List.mem_of_getElem? hi)
  have hraised : (l.map raise).Pairwise fun a b => place a < place b := by
    rw [List.pairwise_map]
    refine hl.imp_of_mem fun {b c} hb hc h => ?_
    rwa [hplace b hb, hplace c hc]
  -- in front of the raised element there is only what was in front of it before
  have hahead : ∀ b ∈ l, Ahead key₁ place (raise b) (raise a) → Ahead key₁ place b a := by
    intro b hb h
    by_cases heq : b = a
    · subst heq
      exact absurd h (Ahead.asymm _ _ h)
    · rw [hsame b hb heq] at h
      rcases h with h | ⟨h, hp⟩
      · exact .inl (hkey₁.trans_lt h)
      · rw [hplace a hmem.1] at hp
        exact hkey₁.lt_or_eq.imp (fun hlt => hlt.trans_eq h) fun heq' => ⟨heq'.trans h, hp⟩
  have hahead' : ∀ b ∈ l, b ≠ a → ∀ c ∈ l, Ahead key₁ place c b → Ahead key₁ place (raise c) (raise b) := by
    intro b hb hne c hc h
    rw [hsame b hb hne]
    by_cases heq : c = a
    · subst heq
      rcases h with h | ⟨h, hp⟩
      · exact .inl (h.trans_le hkey₁)
      · rw [Ahead, Outranks, hplace c hc]
        exact (h.le.trans hkey₁).lt_or_eq.imp_right fun heq' => ⟨heq', hp⟩
    · rwa [hsame c hc heq]
  have hkept : ∀ b ∈ l, b ≠ a → Kept key₁ place n (l.map raise) (raise b) → Kept key₁ place n l b := by
    intro b hb hne h
    rw [Kept, List.countP_map] at h
    refine lt_of_le_of_lt (List.countP_mono_left ?_) h
    intro c hc hcb
    simp only [Function.comp_apply, decide_eq_true_eq] at hcb ⊢
    exact hahead' b hb hne c hc hcb
  have hkeptA : Kept key₁ place n (l.map raise) (raise a) := by
    rw [Kept, List.countP_map]
    refine lt_of_le_of_lt (List.countP_mono_left ?_) hmem.2
    intro c hc hca
    simp only [Function.comp_apply, decide_eq_true_eq] at hca ⊢
    exact hahead c hc hca
  have hmem' : raise a ∈ rerank key₁ key₂ n (l.map raise) := (mem_rerank hraised).2 ⟨List.mem_map_of_mem hmem.1, hkeptA⟩
  obtain ⟨j, hj⟩ := List.getElem?_of_mem hmem'
  refine ⟨j, ?_, hj⟩
  rw [getElem_rerank hraised hj, getElem_rerank hl hi, List.countP_map]
  apply List.countP_mono_left
  intro b hb h
  simp only [Function.comp_apply, decide_eq_true_eq] at h ⊢
  obtain ⟨habove, hk⟩ := h
  have hne : b ≠ a := by
    rintro rfl
    exact Above.asymm _ _ habove habove
  refine ⟨?_, hkept b hb hne hk⟩
  rcases habove with hlt | ⟨heq, hfirst⟩
  · rw [hsame b hb hne] at hlt
    exact .inl (hkey₂.trans_lt hlt)
  · have hfirst' := hahead b hb hfirst
    rw [hsame b hb hne] at heq
    exact hkey₂.lt_or_eq.imp (fun hlt => hlt.trans_eq heq) fun heq' => ⟨heq'.trans heq, hfirst'⟩

end

end Rerank

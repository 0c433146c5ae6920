import Mathlib.Data.List.Induction

/-!
# Hash chains

Rows that each carry the hash of the row before them (`prev`) and their own hash (`this`), which a
digest computes from the row. `Linked g rows` is what a verifier checks from the genesis value `g`.

* `linked_snoc`, `tail_snoc` — a chain grows by a row that links to its tail.
* **`linked_unique`** — two linked chains of one length with one tail hash hold the same rows, when
  the digest tells the rows of the two chains apart.
-/

namespace HashChain

variable {α H : Type} (prev this : α → H) (digest : α → H)

/-- The hash a next row has to link to. -/
def tail : H → List α → H
  | g, [] => g
  | _, r :: rs => tail (this r) rs

/-- Every row links to the one before it and carries its own digest. -/
def Linked : H → List α → Prop
  | _, [] => True
  | g, r :: rs => prev r = g ∧ this r = digest r ∧ Linked (this r) rs

variable {prev this digest}

theorem tail_append (g : H) (xs ys : List α) : tail this g (xs ++ ys) = tail this (tail this g xs) ys := by
  induction xs generalizing g with
  | nil => rfl
  | cons x xs ih => exact ih (this x)

theorem tail_snoc (g : H) (xs : List α) (r : α) : tail this g (xs ++ [r]) = this r := by
  rw [tail_append]; rfl

theorem linked_append {g : H} {xs ys : List α} :
    Linked prev this digest g (xs ++ ys) ↔
      Linked prev this digest g xs ∧ Linked prev this digest (tail this g xs) ys := by
  induction xs generalizing g with
  | nil => simp [Linked, tail]
  | cons x xs ih => simp [Linked, tail, ih, and_assoc]

theorem linked_snoc {g : H} {xs : List α} {r : α} :
    Linked prev this digest g (xs ++ [r]) ↔
      Linked prev this digest g xs ∧ prev r = tail this g xs ∧ this r = digest r := by
  simp [linked_append, Linked]

theorem linked_this {g : H} {xs : List α} (h : Linked prev this digest g xs) : ∀ r ∈ xs, this r = digest r := by
  induction xs generalizing g with
  | nil => simp
  | cons x xs ih =>
    intro r hr
    rcases List.mem_cons.1 hr with rfl | hr
    · exact h.2.1
    · exact ih h.2.2 r hr

/-- The hash a linked row points back to is the genesis value or a digest. -/
theorem linked_prev {g : H} {xs : List α} (h : Linked prev this digest g xs) :
    ∀ r ∈ xs, prev r = g ∨ ∃ q ∈ xs, prev r = digest q := by
  induction xs using List.reverseRecOn with
  | nil => simp
  | append_singleton xs r ih =>
    obtain ⟨hxs, hp, -⟩ := linked_snoc.1 h
    intro q hq
    rcases List.mem_append.1 hq with hq | hq
    · rcases ih hxs q hq with h | ⟨q', hq', h⟩
      · exact .inl h
      · exact .inr ⟨q', by simp [hq'], h⟩
    · rw [List.mem_singleton] at hq
      subst hq
      rw [hp]
      rcases List.eq_nil_or_concat xs with rfl | ⟨ys, y, rfl⟩
      · exact .inl rfl
      · simp only [List.concat_eq_append] at hxs ⊢
        rw [tail_snoc]
        exact .inr ⟨y, by simp, (linked_snoc.1 hxs).2.2⟩

/-- **The tail hash determines the chain.** `content` is what the digest commits to; it includes the
back link. The induction goes backwards: equal hashes give equal last rows, their back links are the
hashes of the chains without them. -/
theorem linked_unique {β : Type} {content : α → β} {g : H} (hprev : ∀ a b, content a = content b → prev a = prev b)
    {xs ys : List α} (hinj : ∀ a ∈ xs, ∀ b ∈ ys, digest a = digest b → content a = content b)
    (hx : Linked prev this digest g xs) (hy : Linked prev this digest g ys) (hlen : xs.length = ys.length)
    (ht : tail this g xs = tail this g ys) : xs.map content = ys.map content := by
  induction xs using List.reverseRecOn generalizing ys with
  | nil => rw [List.length_eq_zero_iff.1 hlen.symm]
  | append_singleton xs a ih =>
    rcases List.eq_nil_or_concat ys with rfl | ⟨ys, b, rfl⟩
    · simp at hlen
    · simp only [List.concat_eq_append] at *
      obtain ⟨hx, hpa, hta⟩ := linked_snoc.1 hx
      obtain ⟨hy, hpb, htb⟩ := linked_snoc.1 hy
      rw [tail_snoc, tail_snoc, hta, htb] at ht
      have hab : content a = content b := hinj a (by simp) b (by simp) ht
      have hxy : xs.map content = ys.map content := by
        refine ih (fun p hp q hq => hinj p (by simp [hp]) q (by simp [hq])) hx hy (by simpa using hlen) ?_
        rw [← hpa, ← hpb]
        exact hprev a b hab
      simp [hxy, hab]

end HashChain

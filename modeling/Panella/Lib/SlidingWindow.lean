import Mathlib.Algebra.Order.Group.Defs
import Mathlib.Algebra.Order.Sub.Basic
import Mathlib.Data.List.Basic
import Mathlib.Data.List.Induction

/-!
# Sliding windows

Times that were let through one after the other, each with fewer than `limit` in the `span` before it (`Paced`), are at most
`limit` in every window of that length, wherever it starts (**`Paced.length_window_le`**). `recent` is what a limiter counts; a queue
in the order of time is cut down to it from the front (`dropWhile_eq_recent`).
-/

namespace SlidingWindow

variable {α : Type} [AddCommGroup α] [LinearOrder α] {span now now' start t : α} {times : List α} {limit : Nat}

/-- The times less than `span` before `now`. -/
def recent (span now : α) (times : List α) : List α := times.filter fun t => now - t < span

/-- The times of `[start, start + span)`. -/
def window (span start : α) (times : List α) : List α := times.filter fun t => start ≤ t ∧ t < start + span

/-- Every time had fewer than `limit` in the `span` before it. -/
def Paced (span : α) (limit : Nat) (times : List α) : Prop :=
  ∀ before t after, times = before ++ t :: after → (recent span t before).length < limit

theorem recent_append (span now : α) (times times' : List α) :
    recent span now (times ++ times') = recent span now times ++ recent span now times' := List.filter_append ..

theorem mem_recent : t ∈ recent span now times ↔ t ∈ times ∧ now - t < span := by simp [recent]

theorem paced_nil : Paced span limit [] := by
  intro before t after h
  simp at h

/-- One more is let through. -/
theorem Paced.snoc (h : Paced span limit times) (hroom : (recent span t times).length < limit) : Paced span limit (times ++ [t]) := by
  intro before t' after heq
  rcases List.eq_nil_or_concat after with rfl | ⟨after', last, rfl⟩
  · obtain ⟨rfl, ht⟩ := List.append_inj' heq rfl
    rw [← List.singleton_inj.1 ht]
    exact hroom
  · rw [List.concat_eq_append, ← List.cons_append, ← List.append_assoc] at heq
    exact h before t' after' (List.append_inj' heq rfl).1

section
variable [IsOrderedAddMonoid α]

/-- What is recent now was recent before. -/
theorem recent_sublist (h : now ≤ now') (times : List α) : (recent span now' times).Sublist (recent span now times) := by
  apply List.monotone_filter_right
  intro t ht
  rw [decide_eq_true_eq] at ht ⊢
  exact (sub_le_sub_right h t).trans_lt ht

theorem recent_recent (h : now ≤ now') (times : List α) : recent span now' (recent span now times) = recent span now' times := by
  unfold recent
  rw [List.filter_filter]
  apply List.filter_congr
  intro t _
  rw [← Bool.decide_and, decide_eq_decide]
  exact and_iff_left_of_imp fun ht => (sub_le_sub_right h t).trans_lt ht

/-- **A queue in order is cut down from the front.** -/
theorem dropWhile_eq_recent (h : times.Pairwise (· ≤ ·)) (span now : α) :
    times.dropWhile (fun t => span ≤ now - t) = recent span now times := by
  induction times with
  | nil => rfl
  | cons t times ih =>
    have hrest := List.pairwise_cons.1 h
    by_cases hold : span ≤ now - t
    · rw [List.dropWhile_cons_of_pos (by simpa using hold), ih hrest.2]
      exact (List.filter_cons_of_neg (by simpa using hold)).symm
    · rw [List.dropWhile_cons_of_neg (by simpa using hold)]
      apply (List.filter_eq_self.2 _).symm
      intro t' hmem
      have hle : t ≤ t' := by
        rcases List.mem_cons.1 hmem with rfl | hlater
        · exact le_refl _
        · exact hrest.1 t' hlater
      simpa using (sub_le_sub_left hle now).trans_lt (not_le.1 hold)

/-- **Times no further apart than the span** are at most as many as the limit. -/
theorem Paced.length_filter_le (h : Paced span limit times) {P : α → Prop} [DecidablePred P]
    (hclose : ∀ t ∈ times, ∀ t' ∈ times, P t → P t' → t - t' < span) : (times.filter P).length ≤ limit := by
  induction times using List.reverseRecOn with
  | nil => exact Nat.zero_le _
  | append_singleton times t ih =>
    have hbefore : Paced span limit times := by
      intro before t' after heq
      exact h before t' (after ++ [t]) (by rw [heq, List.append_assoc, List.cons_append])
    rw [List.filter_append, List.length_append]
    by_cases hin : P t
    · -- what was let through before `t` was recent then
      have hsub : (times.filter P).length ≤ (recent span t times).length := by
        rw [recent, ← List.countP_eq_length_filter, ← List.countP_eq_length_filter]
        apply List.countP_mono_left
        intro t' hmem ht'
        rw [decide_eq_true_eq] at ht' ⊢
        exact hclose t (by simp) t' (List.mem_append_left _ hmem) hin ht'
      have hroom := h times t [] rfl
      rw [List.filter_cons_of_pos (by simpa using hin), List.filter_nil, List.length_singleton]
      omega
    · rw [List.filter_cons_of_neg (by simpa using hin), List.filter_nil, List.length_nil]
      exact ih hbefore fun t₁ h₁ t₂ h₂ => hclose t₁ (List.mem_append_left _ h₁) t₂ (List.mem_append_left _ h₂)

/-- **No window holds more than the limit.** -/
theorem Paced.length_window_le (h : Paced span limit times) (start : α) : (window span start times).length ≤ limit := by
  apply h.length_filter_le
  intro t _ t' _ hin hin'
  rw [sub_lt_iff_lt_add]
  calc t < start + span := hin.2
    _ ≤ span + t' := by
      rw [add_comm]
      exact add_le_add_right hin'.1 span

/-- Nor does the `span` before a later time. -/
theorem Paced.length_recent_le (h : Paced span limit times) (hlater : ∀ t ∈ times, t ≤ now) :
    (recent span now times).length ≤ limit := by
  apply h.length_filter_le
  intro t hmem t' _ _ hin'
  exact (sub_le_sub_right (hlater t hmem) t').trans_lt hin'

end

end SlidingWindow

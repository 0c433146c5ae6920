import Mathlib.Data.List.Induction

/-!
# Labelled machines and their runs

A machine is a total step function `σ → α → σ`: an action that is not enabled in a state leaves
it as it is. A run is the fold of the step function over a list of actions, so "every run" is
"every list of actions".

* `run_inv` — what every step preserves, every run preserves.
* `Along` / `run_inv_along` — the same for runs whose steps all meet a condition.
* `run_history` — invariants that also speak of the actions taken so far.
* `prefixes_iff_along` — a property that exactly the steps of a kind keep holds in every state of a run
  exactly when all its steps are of that kind.
* `run_rel` — a preorder that every step respects relates the ends of every run.
* `Settles` — what holds after a number of steps, whatever they are; `settles_step` counts one, `settles_of_fixed`
  ends in a state that nothing moves.
-/

namespace Machine

variable {σ α : Type} (step : σ → α → σ)

/-- The state after a list of actions. -/
def run (s : σ) (as : List α) : σ := as.foldl step s

@[simp] theorem run_nil (s : σ) : run step s [] = s := rfl

@[simp] theorem run_cons (s : σ) (a : α) (as : List α) : run step s (a :: as) = run step (step s a) as := rfl

theorem run_append (s : σ) (as bs : List α) : run step s (as ++ bs) = run step (run step s as) bs := by
  simp [run]

theorem run_snoc (s : σ) (as : List α) (a : α) : run step s (as ++ [a]) = step (run step s as) a := by
  simp [run_append]

/-- Every step of the run from `s` meets `P` in the state it is taken in. -/
def Along (P : σ → α → Prop) : σ → List α → Prop
  | _, [] => True
  | s, a :: as => P s a ∧ Along P (step s a) as

variable {step}

theorem along_append {P : σ → α → Prop} {s : σ} {as bs : List α} :
    Along step P s (as ++ bs) ↔ Along step P s as ∧ Along step P (run step s as) bs := by
  induction as generalizing s with
  | nil => simp [Along]
  | cons a as ih => simp [Along, ih, and_assoc]

theorem along_snoc {P : σ → α → Prop} {s : σ} {as : List α} {a : α} :
    Along step P s (as ++ [a]) ↔ Along step P s as ∧ P (run step s as) a := by
  simp [along_append, Along]

theorem Along.mono {P Q : σ → α → Prop} (hPQ : ∀ s a, P s a → Q s a) {s : σ} {as : List α}
    (h : Along step P s as) : Along step Q s as := by
  induction as generalizing s with
  | nil => trivial
  | cons a as ih => exact ⟨hPQ _ _ h.1, ih h.2⟩

theorem Along.and {P Q : σ → α → Prop} {s : σ} {as : List α} (hP : Along step P s as)
    (hQ : Along step Q s as) : Along step (fun s a => P s a ∧ Q s a) s as := by
  induction as generalizing s with
  | nil => trivial
  | cons a as ih => exact ⟨⟨hP.1, hQ.1⟩, ih hP.2 hQ.2⟩

/-- A condition that no step can break holds along every run. -/
theorem along_of_forall {P : σ → α → Prop} (h : ∀ s a, P s a) (s : σ) (as : List α) :
    Along step P s as := by
  induction as generalizing s with
  | nil => trivial
  | cons a as ih => exact ⟨h s a, ih _⟩

/-- The condition at a chosen step of the run. -/
theorem Along.at {P : σ → α → Prop} {s : σ} {pre post : List α} {a : α}
    (h : Along step P s (pre ++ a :: post)) : P (run step s pre) a :=
  (along_append.1 h).2.1

/-- A condition holds along a run exactly when it holds at each of its steps. -/
theorem along_iff {P : σ → α → Prop} {s : σ} {as : List α} :
    Along step P s as ↔ ∀ pre a post, as = pre ++ a :: post → P (run step s pre) a := by
  constructor
  · rintro h pre a post rfl
    exact h.at
  · intro h
    induction as generalizing s with
    | nil => trivial
    | cons a as ih =>
      refine ⟨h [] a as rfl, ih fun pre b post has => ?_⟩
      exact h (a :: pre) b post (by rw [has]; rfl)

/-- **The invariant rule under a condition.** -/
theorem run_inv_along {I : σ → Prop} {P : σ → α → Prop} (hstep : ∀ s a, I s → P s a → I (step s a))
    {s : σ} {as : List α} (h0 : I s) (hP : Along step P s as) : I (run step s as) := by
  induction as generalizing s with
  | nil => exact h0
  | cons a as ih => exact ih (hstep s a h0 hP.1) hP.2

/-- **The invariant rule.** -/
theorem run_inv {I : σ → Prop} (hstep : ∀ s a, I s → I (step s a)) {s : σ} (h0 : I s) (as : List α) :
    I (run step s as) :=
  run_inv_along (P := fun _ _ => True) (fun s a h _ => hstep s a h) h0
    (along_of_forall (fun _ _ => trivial) s as)

/-- **The history rule**: an invariant of the actions taken so far and the state they led to. -/
theorem run_history {I : List α → σ → Prop} {s : σ} (h0 : I [] s)
    (hstep : ∀ as a, I as (run step s as) → I (as ++ [a]) (step (run step s as) a)) (as : List α) :
    I as (run step s as) := by
  induction as using List.reverseRecOn with
  | nil => exact h0
  | append_singleton as a ih => rw [run_snoc]; exact hstep as a ih

/-- **The rule for an exact condition**: where `H` holds of each step, `J` is kept, and `P` is kept by exactly the steps
with `Q`. -/
theorem prefixes_iff_along {J P : σ → Prop} {H Q : σ → α → Prop} (hJ : ∀ s a, J s → H s a → J (step s a))
    (hP : ∀ s a, J s → P s → H s a → (P (step s a) ↔ Q s a)) {s : σ} {as : List α} (hj : J s) (hp : P s)
    (hH : Along step H s as) : (∀ cs, cs <+: as → P (run step s cs)) ↔ Along step Q s as := by
  induction as generalizing s with
  | nil =>
    refine ⟨fun _ => trivial, fun _ cs hcs => ?_⟩
    rw [List.prefix_nil.1 hcs]
    exact hp
  | cons a as ih =>
    have hj' := hJ s a hj hH.1
    constructor
    · intro hall
      have ha : P (step s a) := hall [a] (List.cons_prefix_cons.2 ⟨rfl, List.nil_prefix⟩)
      refine ⟨(hP s a hj hp hH.1).1 ha, (ih hj' ha hH.2).1 fun cs hcs => ?_⟩
      exact hall (a :: cs) (List.cons_prefix_cons.2 ⟨rfl, hcs⟩)
    · rintro ⟨hq, hrest⟩ cs hcs
      cases cs with
      | nil => exact hp
      | cons c cs =>
        obtain ⟨rfl, hcs'⟩ := List.cons_prefix_cons.1 hcs
        exact (ih hj' ((hP s _ hj hp hH.1).2 hq) hH.2).2 hrest cs hcs'

/-- **The frame rule**: a reflexive, transitive relation that every step respects. -/
theorem run_rel {R : σ → σ → Prop} (refl : ∀ s, R s s) (trans : ∀ {s t u}, R s t → R t u → R s u)
    (hstep : ∀ s a, R s (step s a)) (s : σ) (as : List α) : R s (run step s as) := by
  induction as generalizing s with
  | nil => exact refl s
  | cons a as ih => exact trans (hstep s a) (ih _)

/-! ## After a number of steps -/

/-- `P` holds after any `n` or more actions that meet `I`. -/
def Settles (step : σ → α → σ) (I : α → Prop) (P : σ → Prop) (n : Nat) (s : σ) : Prop :=
  ∀ as : List α, (∀ a ∈ as, I a) → n ≤ as.length → P (run step s as)

variable {I : α → Prop} {P Q : σ → Prop} {n m : Nat} {s : σ}

theorem Settles.mono (h : Settles step I P n s) (hn : n ≤ m) : Settles step I P m s :=
  fun as ha hm => h as ha (Nat.le_trans hn hm)

theorem Settles.imp (h : Settles step I P n s) (hPQ : ∀ s, P s → Q s) : Settles step I Q n s :=
  fun as ha hn => hPQ _ (h as ha hn)

/-- **One step.** -/
theorem settles_step (h : ∀ a, I a → Settles step I P n (step s a)) : Settles step I P (n + 1) s := by
  intro as ha hn
  cases as with
  | nil => simp at hn
  | cons a as =>
    apply h a (ha a List.mem_cons_self) as
    · intro b hb
      exact ha b (List.mem_cons_of_mem a hb)
    · simpa using hn

/-- **The end**: a state that nothing moves. -/
theorem settles_of_fixed (h : ∀ a, step s a = s) (hP : P s) (n : Nat) : Settles step I P n s := by
  have hrun : ∀ as, run step s as = s := by
    intro as
    induction as with
    | nil => rfl
    | cons a as ih => rw [run_cons, h a, ih]
  intro as _ _
  rw [hrun]
  exact hP

end Machine

import Mathlib.Logic.Function.Basic
import Mathlib.Tactic.Common

/-!
# Requests that are sent again

A request is sent up to a number of times. An attempt may reach the server and be handled without the answer arriving, and
between two attempts others act on the server (`Attempt.before`). So it is handled any number of times. What that comes to, for
others who act in the ways `O`:

* `retry_first` — where a request that has been handled is without effect when it is handled again, the first time counts:
  the others have acted before it or after it.
* `retry_last` — where what others do after it can as well be done before it, if only it is handled once more, the last time
  counts.
-/

namespace Retry

variable {σ ρ ε : Type}

/-- How an attempt ends. -/
inductive Fate (ε : Type)
  /-- It is handled and answered. -/
  | replied
  /-- It fails in a way that the next attempt is made after. -/
  | transient (handled : Bool) (e : ε)
  /-- It fails for good. -/
  | final (handled : Bool) (e : ε)

structure Attempt (σ ε : Type) where
  /-- What others do since the attempt before. -/
  before : σ → σ
  fate : Fate ε

/-- The server after an attempt that may have been handled. -/
def reach (handle : σ → σ × ρ) (handled : Bool) (s : σ) : σ := if handled then (handle s).1 else s

/-- Attempt `k`, with `left` more after it. -/
def retry (handle : σ → σ × ρ) (wire : Nat → Attempt σ ε) (left k : Nat) (s : σ) : σ × Except ε ρ :=
  let s := (wire k).before s
  match (wire k).fate with
  | .replied => ((handle s).1, .ok (handle s).2)
  | .final handled e => (reach handle handled s, .error e)
  | .transient handled e =>
    match left with
    | 0 => (reach handle handled s, .error e)
    | left + 1 => retry handle wire left (k + 1) (reach handle handled s)

/-- Ways to act that can be taken one after the other. -/
structure Closed (O : (σ → σ) → Prop) : Prop where
  id : O id
  comp : ∀ {g f}, O g → O f → O fun s => g (f s)

/-- The request was never handled. -/
def Unhandled (O : (σ → σ) → Prop) (s : σ) (x : σ × Except ε ρ) : Prop :=
  ∃ g e, O g ∧ x = (g s, .error e)

/-- It counts as handled once, after `g` and before `k`; an answer comes at the end. -/
def Once (O : (σ → σ) → Prop) (handle : σ → σ × ρ) (s : σ) (x : σ × Except ε ρ) : Prop :=
  (∃ g k e, O g ∧ O k ∧ x = (k (handle (g s)).1, .error e)) ∨ ∃ g, O g ∧ x = ((handle (g s)).1, .ok (handle (g s)).2)

variable {O : (σ → σ) → Prop} {handle : σ → σ × ρ} {wire : Nat → Attempt σ ε} {left k : Nat} {s : σ} {Done : σ → Prop}

/-- **The last time counts.** -/
theorem retry_last (hO : Closed O) (hwire : ∀ k, O (wire k).before)
    (habsorb : ∀ g, O g → ∃ g', O g' ∧ ∀ s, handle (g (handle s).1) = handle (g' s)) :
    Unhandled O s (retry handle wire left k s) ∨ Once O handle s (retry handle wire left k s) := by
  have hend : ∀ (k : Nat) (s : σ) (handled : Bool) (e : ε),
      Unhandled O s ((reach handle handled ((wire k).before s), .error e) : σ × Except ε ρ) ∨
        Once O handle s (reach handle handled ((wire k).before s), .error e) := by
    intro k s handled e
    cases handled with
    | false => exact .inl ⟨_, e, hwire k, rfl⟩
    | true => exact .inr (.inl ⟨_, _, e, hwire k, hO.id, rfl⟩)
  induction left generalizing k s with
  | zero =>
    unfold retry
    cases (wire k).fate with
    | replied => exact .inr (.inr ⟨_, hwire k, rfl⟩)
    | final handled e => exact hend k s handled e
    | transient handled e => exact hend k s handled e
  | succ left ih =>
    unfold retry
    cases (wire k).fate with
    | replied => exact .inr (.inr ⟨_, hwire k, rfl⟩)
    | final handled e => exact hend k s handled e
    | transient handled e =>
      cases handled with
      | false =>
        rcases ih (k := k + 1) (s := (wire k).before s) with
          ⟨g, e', hg, he⟩ | ⟨g, f, e', hg, hf, he⟩ | ⟨g, hg, he⟩
        · exact .inl ⟨_, e', hO.comp hg (hwire k), he⟩
        · exact .inr (.inl ⟨_, f, e', hO.comp hg (hwire k), hf, he⟩)
        · exact .inr (.inr ⟨_, hO.comp hg (hwire k), he⟩)
      | true =>
        rcases ih (k := k + 1) (s := (handle ((wire k).before s)).1) with
          ⟨g, e', hg, he⟩ | ⟨g, f, e', hg, hf, he⟩ | ⟨g, hg, he⟩
        · exact .inr (.inl ⟨_, g, e', hwire k, hg, he⟩)
        · obtain ⟨g', hg', hsame⟩ := habsorb g hg
          rw [hsame] at he
          exact .inr (.inl ⟨_, f, e', hO.comp hg' (hwire k), hf, he⟩)
        · obtain ⟨g', hg', hsame⟩ := habsorb g hg
          rw [hsame] at he
          exact .inr (.inr ⟨_, hO.comp hg' (hwire k), he⟩)

/-- Attempts after the request has been handled. -/
theorem retry_done (left k : Nat) (hO : Closed O) (hwire : ∀ k, O (wire k).before) (hkeep : ∀ g, O g → ∀ s, Done s → Done (g s))
    (hagain : ∀ s, Done s → (handle s).1 = s) (hs : Done s) :
    ∃ g, O g ∧ ((∃ e, retry handle wire left k s = (g s, .error e)) ∨
      Done (g s) ∧ retry handle wire left k s = (g s, .ok (handle (g s)).2)) := by
  have hhere : ∀ (k : Nat) (s : σ), Done s → ∀ handled, reach handle handled ((wire k).before s) = (wire k).before s := by
    intro k s hs handled
    cases handled with
    | false => rfl
    | true => exact hagain _ (hkeep _ (hwire k) s hs)
  induction left generalizing k s with
  | zero =>
    refine ⟨_, hwire k, ?_⟩
    unfold retry
    cases (wire k).fate with
    | replied => exact .inr ⟨hkeep _ (hwire k) s hs, by simp only [hagain _ (hkeep _ (hwire k) s hs)]⟩
    | final handled e => exact .inl ⟨e, by simp only [hhere k s hs]⟩
    | transient handled e => exact .inl ⟨e, by simp only [hhere k s hs]⟩
  | succ left ih =>
    unfold retry
    cases (wire k).fate with
    | replied =>
      exact ⟨_, hwire k, .inr ⟨hkeep _ (hwire k) s hs, by simp only [hagain _ (hkeep _ (hwire k) s hs)]⟩⟩
    | final handled e => exact ⟨_, hwire k, .inl ⟨e, by simp only [hhere k s hs]⟩⟩
    | transient handled e =>
      simp only [hhere k s hs]
      obtain ⟨g, hg, h⟩ := ih (k + 1) (hkeep _ (hwire k) s hs)
      exact ⟨_, hO.comp hg (hwire k), h⟩

/-- **The first time counts**; an answer may be that to a later time. -/
theorem retry_first (hO : Closed O) (hwire : ∀ k, O (wire k).before) (hkeep : ∀ g, O g → ∀ s, Done s → Done (g s))
    (hdone : ∀ s, Done (handle s).1) (hagain : ∀ s, Done s → (handle s).1 = s) :
    Unhandled O s (retry handle wire left k s) ∨ Once O handle s (retry handle wire left k s) ∨
      ∃ g f, O g ∧ O f ∧ Done (f (handle (g s)).1) ∧
        retry handle wire left k s = (f (handle (g s)).1, .ok (handle (f (handle (g s)).1)).2) := by
  have hend : ∀ (k : Nat) (s : σ) (handled : Bool) (e : ε),
      Unhandled O s ((reach handle handled ((wire k).before s), .error e) : σ × Except ε ρ) ∨
        Once O handle s (reach handle handled ((wire k).before s), .error e) := by
    intro k s handled e
    cases handled with
    | false => exact .inl ⟨_, e, hwire k, rfl⟩
    | true => exact .inr (.inl ⟨_, _, e, hwire k, hO.id, rfl⟩)
  induction left generalizing k s with
  | zero =>
    unfold retry
    cases (wire k).fate with
    | replied => exact .inr (.inl (.inr ⟨_, hwire k, rfl⟩))
    | final handled e => exact (hend k s handled e).imp_right .inl
    | transient handled e => exact (hend k s handled e).imp_right .inl
  | succ left ih =>
    unfold retry
    cases (wire k).fate with
    | replied => exact .inr (.inl (.inr ⟨_, hwire k, rfl⟩))
    | final handled e => exact (hend k s handled e).imp_right .inl
    | transient handled e =>
      cases handled with
      | false =>
        rcases ih (k := k + 1) (s := (wire k).before s) with
          ⟨g, e', hg, he⟩ | (⟨g, f, e', hg, hf, he⟩ | ⟨g, hg, he⟩) | ⟨g, f, hg, hf, hd, he⟩
        · exact .inl ⟨_, e', hO.comp hg (hwire k), he⟩
        · exact .inr (.inl (.inl ⟨_, f, e', hO.comp hg (hwire k), hf, he⟩))
        · exact .inr (.inl (.inr ⟨_, hO.comp hg (hwire k), he⟩))
        · exact .inr (.inr ⟨_, f, hO.comp hg (hwire k), hf, hd, he⟩)
      | true =>
        obtain ⟨g, hg, ⟨e', he⟩ | ⟨hd, he⟩⟩ := retry_done left (k + 1) hO hwire hkeep hagain
          (hdone ((wire k).before s))
        · exact .inr (.inl (.inl ⟨_, g, e', hwire k, hg, he⟩))
        · exact .inr (.inr ⟨_, g, hwire k, hg, hd, he⟩)

end Retry

import Mathlib.Algebra.Group.Defs
import Mathlib.Logic.Function.Basic
import Mathlib.Order.Lattice

/-!
# Caches whose entries run out

A value that is put stays for `ttl` and is dropped by the first look that comes too late. `Sourced` says of every entry where it
comes from; looks and puts keep it, so what a look finds was put less than `ttl` before (**`Sourced.found`**).
-/

namespace TtlCache

/-- For each key when its entry runs out, and its value. -/
abbrev Cache (K V T : Type) := K → Option (T × V)

variable {K V T : Type} [DecidableEq K] [LinearOrder T] [Add T] {c : Cache K V T} {P Q : K → V → T → Prop} {ttl now : T} {k : K}
  {v : V}

def empty : Cache K V T := fun _ => none

/-- A look at a key: the cache it leaves, and what it finds. -/
def look (c : Cache K V T) (now : T) (k : K) : Cache K V T × Option V :=
  match c k with
  | none => (c, none)
  | some (expiresAt, v) => if expiresAt ≤ now then (Function.update c k none, none) else (c, some v)

def put (ttl : T) (c : Cache K V T) (now : T) (k : K) (v : V) : Cache K V T := Function.update c k (some (now + ttl, v))

/-- **Every entry was put** at a time of which `P` holds. -/
def Sourced (P : K → V → T → Prop) (ttl : T) (c : Cache K V T) : Prop :=
  ∀ k expiresAt v, c k = some (expiresAt, v) → ∃ t, expiresAt = t + ttl ∧ P k v t

omit [DecidableEq K] [LinearOrder T] in
theorem sourced_empty (P : K → V → T → Prop) (ttl : T) : Sourced P ttl (empty : Cache K V T) := by
  intro k expiresAt v h
  cases h

omit [DecidableEq K] [LinearOrder T] in
theorem Sourced.mono (h : Sourced P ttl c) (hPQ : ∀ k v t, P k v t → Q k v t) : Sourced Q ttl c := by
  intro k expiresAt v hentry
  obtain ⟨t, rfl, hP⟩ := h k expiresAt v hentry
  exact ⟨t, rfl, hPQ k v t hP⟩

omit [LinearOrder T] in
theorem Sourced.put (h : Sourced P ttl c) (hP : P k v now) : Sourced P ttl (put ttl c now k v) := by
  intro k' expiresAt v' hentry
  by_cases hk : k' = k
  · subst hk
    rw [TtlCache.put, Function.update_self] at hentry
    cases hentry
    exact ⟨now, rfl, hP⟩
  · rw [TtlCache.put, Function.update_of_ne hk] at hentry
    exact h k' expiresAt v' hentry

omit [Add T] in
/-- A look drops at most the entry it looks for. -/
theorem look_entry {k' : K} {e : T × V} (h : (look c now k).1 k' = some e) : c k' = some e := by
  unfold look at h
  split at h
  · exact h
  · split_ifs at h
    · by_cases hk : k' = k
      · simp [hk] at h
      · simpa [hk] using h
    · exact h

theorem Sourced.look (h : Sourced P ttl c) (now : T) (k : K) : Sourced P ttl (look c now k).1 :=
  fun k' expiresAt v hentry => h k' expiresAt v (look_entry hentry)

/-- **What is found was put less than `ttl` before.** -/
theorem Sourced.found (h : Sourced P ttl c) (hfound : (TtlCache.look c now k).2 = some v) : ∃ t, P k v t ∧ now < t + ttl := by
  unfold TtlCache.look at hfound
  split at hfound
  · cases hfound
  · next expiresAt v' hentry =>
    split_ifs at hfound with hlate
    cases hfound
    obtain ⟨t, rfl, hP⟩ := h _ _ _ hentry
    exact ⟨t, hP, lt_of_not_ge hlate⟩

end TtlCache

import Mathlib.Data.List.Basic
import Mathlib.Data.List.Nodup

/-!
# Dictionaries that keep the order of insertion

A `dict` is the list of its items; a key keeps its place when it is set again. Two of them are equal where one is a
permutation of the other.
-/

namespace OrderedDict

variable {κ α : Type} [DecidableEq κ]

/-- `d[k] = v`. -/
def put (d : List (κ × α)) (k : κ) (v : α) : List (κ × α) :=
  if d.any (·.1 = k) then d.map fun kv => if kv.1 = k then (k, v) else kv else d ++ [(k, v)]

theorem lookup_cons_if (kv : κ × α) (d : List (κ × α)) (j : κ) :
    (kv :: d).lookup j = if j = kv.1 then some kv.2 else d.lookup j := by
  rw [List.lookup_cons]
  by_cases hj : j = kv.1
  · simp [hj]
  · have hne : (j == kv.1) = false := by simpa using hj
    rw [hne, if_neg hj]

theorem lookup_map_put (d : List (κ × α)) (k j : κ) (v : α) :
    (d.map fun kv => if kv.1 = k then (k, v) else kv).lookup j =
      if j = k ∧ d.any (·.1 = k) then some v else d.lookup j := by
  induction d with
  | nil => simp
  | cons kv d ih =>
    rw [List.map_cons, lookup_cons_if, lookup_cons_if, ih, List.any_cons]
    by_cases hk : kv.1 = k
    · by_cases hj : j = k <;> simp [hk, hj]
    · rw [if_neg hk]
      by_cases hj : j = kv.1
      · have hjk : ¬ j = k := fun e => hk (hj ▸ e)
        rw [if_pos hj, if_neg fun h => hjk h.1, if_pos hj]
      · simp only [hk, if_neg hj, decide_false, Bool.false_or]

@[simp] theorem lookup_put (d : List (κ × α)) (k j : κ) (v : α) :
    (put d k v).lookup j = if j = k then some v else d.lookup j := by
  unfold put
  split
  · next h => rw [lookup_map_put, h]; simp
  · next h =>
    rw [List.lookup_append]
    by_cases hj : j = k
    · subst hj
      have hnone : d.lookup j = none := by
        rw [List.lookup_eq_none_iff]
        intro kv hkv
        simp only [List.any_eq_true, decide_eq_true_eq, not_exists, not_and] at h
        simpa using fun e => h kv hkv e.symm
      simp [hnone]
    · rw [lookup_cons_if, if_neg hj, if_neg hj, List.lookup_nil, Option.or_none]

theorem keys_put (d : List (κ × α)) (k : κ) (v : α) :
    (put d k v).map Prod.fst = if k ∈ d.map Prod.fst then d.map Prod.fst else d.map Prod.fst ++ [k] := by
  have hany : d.any (·.1 = k) = true ↔ k ∈ d.map Prod.fst := by simp
  unfold put
  by_cases h : k ∈ d.map Prod.fst
  · rw [if_pos (hany.2 h), if_pos h, List.map_map]
    apply List.map_congr_left
    intro kv _
    by_cases hk : kv.1 = k <;> simp [hk]
  · rw [if_neg (fun e => h (hany.1 e)), if_neg h, List.map_append]
    rfl

theorem mem_keys_put {d : List (κ × α)} {k j : κ} {v : α} :
    j ∈ (put d k v).map Prod.fst ↔ j = k ∨ j ∈ d.map Prod.fst := by
  rw [keys_put]
  by_cases h : k ∈ d.map Prod.fst
  · rw [if_pos h]
    exact ⟨.inr, fun hj => hj.elim (fun e => e ▸ h) id⟩
  · rw [if_neg h, List.mem_append, List.mem_singleton, or_comm]

theorem nodup_keys_put {d : List (κ × α)} (hd : (d.map Prod.fst).Nodup) (k : κ) (v : α) :
    ((put d k v).map Prod.fst).Nodup := by
  rw [keys_put]
  by_cases h : k ∈ d.map Prod.fst
  · rwa [if_pos h]
  · rw [if_neg h]
    exact List.Nodup.append hd (List.nodup_singleton k) (by simpa using h)

theorem lookup_isSome {d : List (κ × α)} {k : κ} : (d.lookup k).isSome ↔ k ∈ d.map Prod.fst := by
  rw [List.lookup_isSome_iff, List.mem_map]
  constructor
  · rintro ⟨kv, hkv, h⟩
    exact ⟨kv, hkv, (beq_iff_eq.1 h).symm⟩
  · rintro ⟨kv, hkv, rfl⟩
    exact ⟨kv, hkv, beq_self_eq_true _⟩

/-- With distinct keys, the items are what the lookups say. -/
theorem mem_iff_lookup {d : List (κ × α)} (hd : (d.map Prod.fst).Nodup) {k : κ} {v : α} :
    (k, v) ∈ d ↔ d.lookup k = some v := by
  induction d with
  | nil => simp
  | cons kv d ih =>
    obtain ⟨hkv, hd⟩ := List.nodup_cons.1 (by simpa only [List.map_cons] using hd)
    rw [List.mem_cons, lookup_cons_if, ih hd]
    by_cases hk : k = kv.1
    · have hnone : d.lookup k = none := by
        rw [← Option.not_isSome_iff_eq_none, lookup_isSome, hk]
        exact hkv
      simp [hk, Prod.ext_iff, eq_comm, hk ▸ hnone]
    · simp [hk, Prod.ext_iff]

/-- The items of a key. -/
theorem filter_key {d : List (κ × α)} (hd : (d.map Prod.fst).Nodup) (k : κ) :
    (d.filter fun kv => kv.1 = k) = (d.lookup k).toList.map fun v => (k, v) := by
  induction d with
  | nil => rfl
  | cons kv d ih =>
    obtain ⟨hkv, hd⟩ := List.nodup_cons.1 (by simpa only [List.map_cons] using hd)
    rw [lookup_cons_if]
    by_cases hk : kv.1 = k
    · have hnone : d.lookup k = none := by
        rw [← Option.not_isSome_iff_eq_none, lookup_isSome, ← hk]
        exact hkv
      rw [List.filter_cons_of_pos (by simpa using hk), ih hd, hnone, if_pos hk.symm, ← hk]
      rfl
    · rw [List.filter_cons_of_neg (by simpa using hk), ih hd, if_neg fun h => hk h.symm]

/-- What is left of a dictionary by its keys. -/
theorem lookup_filter_keys (q : κ → Bool) (d : List (κ × α)) (k : κ) :
    (d.filter fun kv => q kv.1).lookup k = if q k then d.lookup k else none := by
  induction d with
  | nil => simp
  | cons kv d ih =>
    rw [List.filter_cons, lookup_cons_if]
    by_cases hq : q kv.1
    · rw [if_pos hq, lookup_cons_if, ih]
      by_cases hk : k = kv.1
      · simp [hk, hq]
      · simp [hk]
    · rw [if_neg hq, ih]
      by_cases hk : k = kv.1
      · simp [hk, hq]
      · simp [hk]

/-- **Equal lookups, equal dictionaries.** -/
theorem perm_of_lookup {d e : List (κ × α)} (hd : (d.map Prod.fst).Nodup) (he : (e.map Prod.fst).Nodup)
    (h : ∀ k, d.lookup k = e.lookup k) : d.Perm e := by
  apply (List.perm_ext_iff_of_nodup hd.of_map he.of_map).2
  rintro ⟨k, v⟩
  rw [mem_iff_lookup hd, mem_iff_lookup he, h]

/-- `d.setdefault(k, v)`: the dict it leaves, and the value it returns. -/
def setDefault (d : List (κ × α)) (k : κ) (v : α) : List (κ × α) × α :=
  match d.lookup k with
  | some known => (d, known)
  | none => (put d k v, v)

/-- What it returns is set, and nothing else. -/
theorem lookup_setDefault (d : List (κ × α)) (k j : κ) (v : α) :
    (setDefault d k v).1.lookup j = if j = k then some (setDefault d k v).2 else d.lookup j := by
  unfold setDefault
  split
  · next known hknown =>
    split
    · next hj => rw [hj, hknown]
    · rfl
  · rw [lookup_put]

/-- It returns what is set, or the new value. -/
theorem setDefault_snd (d : List (κ × α)) (k : κ) (v : α) : (setDefault d k v).2 = (d.lookup k).getD v := by
  unfold setDefault
  cases d.lookup k <;> rfl

end OrderedDict

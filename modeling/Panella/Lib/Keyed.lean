import Mathlib.Data.List.Basic
import Mathlib.Data.List.Nodup

/-!
# Tables with a primary key and a `UNIQUE` column

The rows of such a table are told apart by either of two columns, and the table carries that of itself: an `INSERT` that would
break it fails, an `UPDATE` here leaves both columns alone.

* `mem_insert`, `mem_update` — the rows after a statement.
* `find_key` — a `SELECT` by key finds the row of that key.
-/

structure Keyed {α κ υ : Type} (key : α → κ) (unique : α → υ) where
  rows : List α
  keys : (rows.map key).Nodup
  uniques : (rows.map unique).Nodup

namespace Keyed

variable {α κ υ : Type} {key : α → κ} {unique : α → υ}

def empty : Keyed key unique := ⟨[], List.nodup_nil, List.nodup_nil⟩

instance : Membership α (Keyed key unique) := ⟨fun t r => r ∈ t.rows⟩

@[simp] theorem mem_rows {t : Keyed key unique} {r : α} : r ∈ t.rows ↔ r ∈ t := Iff.rfl

@[simp] theorem not_mem_empty (r : α) : r ∉ (empty : Keyed key unique) := List.not_mem_nil

/-- `INSERT`; `none` where it raises `IntegrityError`. -/
def insert [DecidableEq κ] [DecidableEq υ] (t : Keyed key unique) (r : α) : Option (Keyed key unique) :=
  if h : key r ∉ t.rows.map key ∧ unique r ∉ t.rows.map unique then
    some
      { rows := t.rows ++ [r]
        keys := by
          rw [List.map_append]
          exact t.keys.append (List.nodup_singleton _) (by simpa using h.1)
        uniques := by
          rw [List.map_append]
          exact t.uniques.append (List.nodup_singleton _) (by simpa using h.2) }
  else none

/-- `UPDATE … SET f WHERE guard`, of columns that are not unique. -/
def update (t : Keyed key unique) (guard : α → Bool) (f : α → α) (hkey : ∀ r, key (f r) = key r)
    (hunique : ∀ r, unique (f r) = unique r) : Keyed key unique where
  rows := t.rows.map fun r => if guard r then f r else r
  keys := by
    have hsame : (fun r => key (if guard r then f r else r)) = key := by
      funext r
      rw [apply_ite key, hkey, ite_self]
    rw [List.map_map, Function.comp_def, hsame]
    exact t.keys
  uniques := by
    have hsame : (fun r => unique (if guard r then f r else r)) = unique := by
      funext r
      rw [apply_ite unique, hunique, ite_self]
    rw [List.map_map, Function.comp_def, hsame]
    exact t.uniques

theorem mem_insert [DecidableEq κ] [DecidableEq υ] {t t' : Keyed key unique} {r : α} (h : t.insert r = some t') (x : α) :
    x ∈ t' ↔ x ∈ t ∨ x = r := by
  unfold insert at h
  split at h
  · cases h
    show x ∈ t.rows ++ [r] ↔ x ∈ t.rows ∨ x = r
    rw [List.mem_append, List.mem_singleton]
  · cases h

/-- A row that was inserted has a new key. -/
theorem fresh_of_insert [DecidableEq κ] [DecidableEq υ] {t t' : Keyed key unique} {r : α} (h : t.insert r = some t') {x : α}
    (hx : x ∈ t) : key x ≠ key r ∧ unique x ≠ unique r := by
  unfold insert at h
  split at h
  · next hfresh =>
    constructor
    · intro heq
      exact hfresh.1 (heq ▸ List.mem_map_of_mem hx)
    · intro heq
      exact hfresh.2 (heq ▸ List.mem_map_of_mem hx)
  · cases h

theorem mem_update {t : Keyed key unique} {guard : α → Bool} {f : α → α} {hkey : ∀ r, key (f r) = key r}
    {hunique : ∀ r, unique (f r) = unique r} {x : α} :
    x ∈ t.update guard f hkey hunique ↔ ∃ r ∈ t, (if guard r then f r else r) = x :=
  List.mem_map

/-- Rows of one key are one row. -/
theorem eq_of_key {t : Keyed key unique} {r r' : α} (hr : r ∈ t) (hr' : r' ∈ t) (h : key r = key r') : r = r' :=
  List.inj_on_of_nodup_map t.keys hr hr' h

theorem eq_of_unique {t : Keyed key unique} {r r' : α} (hr : r ∈ t) (hr' : r' ∈ t) (h : unique r = unique r') : r = r' :=
  List.inj_on_of_nodup_map t.uniques hr hr' h

/-- **A row is found by its key.** -/
theorem find_key [DecidableEq κ] {t : Keyed key unique} {r : α} (hr : r ∈ t) :
    t.rows.find? (fun x => key x = key r) = some r := by
  cases hfind : t.rows.find? (fun x => key x = key r) with
  | none =>
    have hnone := List.find?_eq_none.1 hfind r hr
    simp at hnone
  | some x =>
    have hx : key x = key r := by simpa using List.find?_some hfind
    rw [eq_of_key (t := t) (List.mem_of_find?_eq_some hfind) hr hx]

end Keyed

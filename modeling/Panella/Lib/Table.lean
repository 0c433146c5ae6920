import Mathlib.Data.List.Basic
import Mathlib.Data.List.Nodup

/-!
# Tables with an `INTEGER PRIMARY KEY AUTOINCREMENT`

A table is the finite map from row ids to rows together with the next id. The field `fresh` is
the point of `AUTOINCREMENT`: an id that was handed out and deleted is never handed out again.
The operations are the four statements a transaction is made of; a `WHERE id = ? AND …` is
`update` with the rest of the condition as its guard.
-/

structure Table (α : Type) where
  nextId : Nat
  get : Nat → Option α
  fresh : ∀ i, nextId ≤ i → get i = none

namespace Table

variable {α : Type}

/-- The empty table; SQLite hands out 1 first. -/
def empty : Table α := ⟨1, fun _ => none, fun _ _ => rfl⟩

/-- `INSERT`: the new row takes the next id (`lastrowid`). -/
def insert (t : Table α) (r : α) : Table α where
  nextId := t.nextId + 1
  get i := if i = t.nextId then some r else t.get i
  fresh i hi := by rw [if_neg (by omega)]; exact t.fresh i (by omega)

/-- `UPDATE … SET f WHERE id = i AND guard`. -/
def update (t : Table α) (i : Nat) (guard : α → Bool) (f : α → α) : Table α where
  nextId := t.nextId
  get j := if j = i then (t.get j).map (fun r => if guard r then f r else r) else t.get j
  fresh j hj := by simp [t.fresh j hj]

/-- The `rowcount` of that `UPDATE` is not zero. -/
def hits (t : Table α) (i : Nat) (guard : α → Bool) : Bool := (t.get i).any guard

/-- `UPDATE … SET f WHERE guard`, over the whole table. -/
def updateAll (t : Table α) (guard : α → Bool) (f : α → α) : Table α where
  nextId := t.nextId
  get j := (t.get j).map (fun r => if guard r then f r else r)
  fresh j hj := by simp [t.fresh j hj]

/-- `DELETE … WHERE id IN ids`. -/
def delete (t : Table α) (ids : List Nat) : Table α where
  nextId := t.nextId
  get j := if j ∈ ids then none else t.get j
  fresh j hj := by simp [t.fresh j hj]

/-- `SELECT … ORDER BY id`. -/
def rows (t : Table α) : List (Nat × α) :=
  (List.range t.nextId).filterMap fun i => (t.get i).map (i, ·)

@[simp] theorem get_empty (i : Nat) : (empty : Table α).get i = none := rfl

@[simp] theorem nextId_empty : (empty : Table α).nextId = 1 := rfl

theorem get_insert (t : Table α) (r : α) (i : Nat) :
    (t.insert r).get i = if i = t.nextId then some r else t.get i := rfl

@[simp] theorem get_insert_self (t : Table α) (r : α) : (t.insert r).get t.nextId = some r := by
  simp [get_insert]

@[simp] theorem nextId_insert (t : Table α) (r : α) : (t.insert r).nextId = t.nextId + 1 := rfl

theorem get_update (t : Table α) (i : Nat) (g : α → Bool) (f : α → α) (j : Nat) :
    (t.update i g f).get j = if j = i then (t.get j).map (fun r => if g r then f r else r) else t.get j := rfl

theorem get_update_ne (t : Table α) {i j : Nat} (g : α → Bool) (f : α → α) (h : j ≠ i) :
    (t.update i g f).get j = t.get j := by simp [get_update, h]

theorem get_update_self (t : Table α) {i : Nat} {g : α → Bool} {f : α → α} {r : α} (h : t.get i = some r) :
    (t.update i g f).get i = some (if g r then f r else r) := by simp [get_update, h]

@[simp] theorem nextId_update (t : Table α) (i : Nat) (g : α → Bool) (f : α → α) :
    (t.update i g f).nextId = t.nextId := rfl

theorem get_updateAll (t : Table α) (g : α → Bool) (f : α → α) (j : Nat) :
    (t.updateAll g f).get j = (t.get j).map (fun r => if g r then f r else r) := rfl

@[simp] theorem nextId_updateAll (t : Table α) (g : α → Bool) (f : α → α) :
    (t.updateAll g f).nextId = t.nextId := rfl

theorem get_delete (t : Table α) (ids : List Nat) (j : Nat) :
    (t.delete ids).get j = if j ∈ ids then none else t.get j := rfl

@[simp] theorem nextId_delete (t : Table α) (ids : List Nat) : (t.delete ids).nextId = t.nextId := rfl

@[simp] theorem delete_nil (t : Table α) : t.delete [] = t := rfl

/-- A row that is there has an id below the next one. -/
theorem lt_of_get {t : Table α} {i : Nat} {r : α} (h : t.get i = some r) : i < t.nextId := by
  by_contra hi
  rw [t.fresh i (by omega)] at h
  cases h

theorem mem_rows {t : Table α} {i : Nat} {r : α} : (i, r) ∈ t.rows ↔ t.get i = some r := by
  simp only [rows, List.mem_filterMap, List.mem_range, Option.map_eq_some_iff, Prod.mk.injEq]
  constructor
  · rintro ⟨j, -, r', h, rfl, rfl⟩; exact h
  · intro h; exact ⟨i, lt_of_get h, r, h, rfl, rfl⟩

theorem hits_iff {t : Table α} {i : Nat} {g : α → Bool} :
    t.hits i g = true ↔ ∃ r, t.get i = some r ∧ g r = true := by
  simp [hits, Option.any_eq_true]

theorem hits_eq_false {t : Table α} {i : Nat} {g : α → Bool} :
    t.hits i g = false ↔ ∀ r, t.get i = some r → g r = false := by
  simp [hits, Option.any_eq_false]

end Table

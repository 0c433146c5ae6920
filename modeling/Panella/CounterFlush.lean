import Mathlib.Algebra.BigOperators.Group.List.Basic
import Mathlib.Algebra.Ring.Int.Defs
import Panella.Lib.Machine
import Panella.Lib.OrderedDict

/-!
# Flushing the counters (`panella/counters.py:20-49`)

| here | there |
| --- | --- |
| `Counter`, `Counter.add` | `Counter`, `counts[key] += count` |
| `executemany`, `storeRows` | the `INSERT` of the rows, the `with sqlite3.connect(…)` around it |
| `CounterAction.take`, `CounterAction.store` | the two parts of `flush`: under the lock, and after it |

The counts are cleared before the database is asked for anything, and nothing puts them back. Between the two parts the rows
stand in a variable of the flush (`flights`); other threads count and flush meanwhile. **`flush_conserves_iff`**: nothing is
lost exactly if no flush that took a count fails.
-/

namespace Panella

open Machine

/-- `(agent, wing, event_type)`. -/
structure StatKey where
  agent : String
  wing : String
  eventType : String
deriving DecidableEq

/-- Python's `Counter`. -/
structure Counter where
  items : List (StatKey × Int)
  keys : (items.map Prod.fst).Nodup

/-- The sum of what rows say under a key. -/
def amount (key : StatKey) (rows : List (StatKey × Int)) : Int := ((rows.filter (·.1 = key)).map (·.2)).sum

namespace Counter

def empty : Counter := ⟨[], List.nodup_nil⟩

/-- `counts[key]`; a missing key reads as 0. -/
def get (c : Counter) (key : StatKey) : Int := (c.items.lookup key).getD 0

def add (c : Counter) (key : StatKey) (count : Int) : Counter :=
  ⟨OrderedDict.put c.items key (c.get key + count), OrderedDict.nodup_keys_put c.keys key _⟩

theorem get_add (c : Counter) (key : StatKey) (count : Int) (key' : StatKey) :
    (c.add key count).get key' = c.get key' + if key = key' then count else 0 := by
  have hlookup := OrderedDict.lookup_put c.items key key' (c.get key + count)
  unfold add
  rw [get, hlookup]
  by_cases h : key = key'
  · rw [if_pos h.symm, if_pos h, h]
    rfl
  · rw [if_neg (Ne.symm h), if_neg h, Int.add_zero]
    rfl

/-- What stands in the rows is what stands in the dict. -/
theorem amount_items (c : Counter) (key : StatKey) : amount key c.items = c.get key := by
  obtain ⟨items, hkeys⟩ := c
  unfold amount get
  dsimp only
  induction items with
  | nil => rfl
  | cons item items ih =>
    obtain ⟨hnew, hrest⟩ := List.nodup_cons.1 hkeys
    by_cases h : item.1 = key
    · have hnone : items.filter (·.1 = key) = [] := by
        apply List.filter_eq_nil_iff.2
        intro other hmem hother
        rw [decide_eq_true_eq] at hother
        exact hnew (List.mem_map.2 ⟨other, hmem, hother.trans h.symm⟩)
      rw [List.filter_cons_of_pos (by simpa using h), hnone, OrderedDict.lookup_cons_if, if_pos h.symm]
      simp
    · rw [List.filter_cons_of_neg (by simpa using h), ih hrest, OrderedDict.lookup_cons_if, if_neg (Ne.symm h)]

end Counter

/-- A row of `stats`. -/
structure StatRow where
  ts : String
  agent : String
  wing : String
  eventType : String
  count : Int

def StatRow.of (ts : String) (row : StatKey × Int) : StatRow := ⟨ts, row.1.agent, row.1.wing, row.1.eventType, row.2⟩

def StatRow.item (r : StatRow) : StatKey × Int := (⟨r.agent, r.wing, r.eventType⟩, r.count)

/-- Where the database fails. -/
inductive DbFault
  | mkdir
  | connect
  | schema
  /-- After so many rows. -/
  | insert (done : Nat)
  | commit

/-- It fails on these rows. -/
def DbFault.Strikes (rows : List (StatKey × Int)) : DbFault → Prop
  | .insert done => done < rows.length
  | _ => True

/-- The rows one by one, into the table of the transaction. -/
def executemany (ts : String) : Option Nat → List (StatKey × Int) → List StatRow → Except DbFault (List StatRow)
  | _, [], table => .ok table
  | some 0, _ :: _, table => .error (.insert table.length)
  | some (left + 1), row :: rows, table => executemany ts (some left) rows (table ++ [.of ts row])
  | none, row :: rows, table => executemany ts none rows (table ++ [.of ts row])

/-- The rest of `flush`. What fails before the commit is rolled back. -/
def storeRows (ts : String) (fault : Option DbFault) (rows : List (StatKey × Int)) (table : List StatRow) :
    List StatRow × Except DbFault Nat :=
  match fault with
  | some (.insert done) =>
    match executemany ts (some done) rows table with
    | .ok table' => (table', .ok rows.length)
    | .error e => (table, .error e)
  | some e => (table, .error e)
  | none =>
    match executemany ts none rows table with
    | .ok table' => (table', .ok rows.length)
    | .error e => (table, .error e)

/-- The counters of a process, the flushes that run, and the table. -/
structure CounterSystem where
  counts : Counter
  flights : List Counter
  stats : List StatRow
  /-- All that was counted. -/
  increments : List (StatKey × Int)

inductive CounterAction
  | increment (agent eventType wing : String) (count : Int)
  /-- `with self._lock:` of `flush`. -/
  | take
  /-- The rest of a flush that runs. -/
  | store (flight : Nat) (ts : String) (fault : Option DbFault)

namespace CounterSystem

def start : CounterSystem := ⟨.empty, [], [], []⟩

def step (s : CounterSystem) : CounterAction → CounterSystem
  | .increment agent eventType wing count =>
    { s with
      counts := s.counts.add ⟨agent, wing, eventType⟩ count
      increments := s.increments ++ [(⟨agent, wing, eventType⟩, count)] }
  | .take =>
    -- a flush without rows returns 0
    if s.counts.items = [] then s else { s with counts := .empty, flights := s.flights ++ [s.counts] }
  | .store flight ts fault =>
    match s.flights[flight]? with
    | none => s
    | some taken => { s with flights := s.flights.eraseIdx flight, stats := (storeRows ts fault taken.items s.stats).1 }

def persisted (s : CounterSystem) (key : StatKey) : Int := amount key (s.stats.map (·.item))

/-- What the flushes hold that run. -/
def flying (s : CounterSystem) (key : StatKey) : Int := (s.flights.map (·.get key)).sum

/-- Every count is in the table, in the counters, or with a flush that runs, and is there once. -/
def Conserved (s : CounterSystem) : Prop :=
  ∀ key, s.persisted key + s.counts.get key + s.flying key = amount key s.increments

/-- Where no flush runs, the table and the counters have it all. -/
theorem Conserved.quiet {s : CounterSystem} (h : s.Conserved) (hquiet : s.flights = []) (key : StatKey) :
    s.persisted key + s.counts.get key = amount key s.increments := by
  have hsum := h key
  rwa [flying, hquiet, List.map_nil, List.sum_nil, Int.add_zero] at hsum

/-- The database does not fail a flush that took a count. -/
def Lossless (s : CounterSystem) : CounterAction → Prop
  | .store flight _ (some fault) => ∀ taken, s.flights[flight]? = some taken → fault.Strikes taken.items → ∀ key, taken.get key = 0
  | _ => True

end CounterSystem

/-! ## What a flush does to the sums -/

variable {s : CounterSystem} {ts : String} {key : StatKey} {rows : List (StatKey × Int)} {table : List StatRow}

theorem amount_append (key : StatKey) (xs ys : List (StatKey × Int)) : amount key (xs ++ ys) = amount key xs + amount key ys := by
  unfold amount
  rw [List.filter_append, List.map_append, List.sum_append]

theorem executemany_none (ts : String) (rows : List (StatKey × Int)) (table : List StatRow) :
    executemany ts none rows table = .ok (table ++ rows.map (StatRow.of ts)) := by
  induction rows generalizing table with
  | nil => simp [executemany]
  | cons row rows ih => rw [executemany, ih, List.append_assoc, List.map_cons, List.singleton_append]

/-- A fault behind the last row is none. -/
theorem executemany_some (ts : String) (rows : List (StatKey × Int)) (table : List StatRow) (done : Nat) :
    (done < rows.length ∧ ∃ e, executemany ts (some done) rows table = .error e) ∨
    (rows.length ≤ done ∧ executemany ts (some done) rows table = .ok (table ++ rows.map (StatRow.of ts))) := by
  induction rows generalizing table done with
  | nil => exact .inr ⟨Nat.zero_le _, by simp [executemany]⟩
  | cons row rows ih =>
    cases done with
    | zero => exact .inl ⟨Nat.succ_pos _, _, rfl⟩
    | succ done =>
      rw [executemany]
      rcases ih (table ++ [.of ts row]) done with ⟨hlt, herr⟩ | ⟨hle, hok⟩
      · exact .inl ⟨Nat.succ_lt_succ hlt, herr⟩
      · refine .inr ⟨Nat.succ_le_succ hle, ?_⟩
        rw [hok, List.append_assoc, List.map_cons, List.singleton_append]

/-- **The table has all the rows or none.** -/
theorem storeRows_fst (ts : String) (fault : Option DbFault) (rows : List (StatKey × Int)) (table : List StatRow) :
    ((∃ e, fault = some e ∧ e.Strikes rows) ∧ (storeRows ts fault rows table).1 = table) ∨
    ((∀ e, fault = some e → ¬ e.Strikes rows) ∧ (storeRows ts fault rows table).1 = table ++ rows.map (StatRow.of ts)) := by
  cases fault with
  | none =>
    refine .inr ⟨fun e he => (by cases he), ?_⟩
    rw [storeRows, executemany_none]
  | some fault =>
    cases fault with
    | insert done =>
      rw [storeRows]
      rcases executemany_some ts rows table done with ⟨hlt, e, herr⟩ | ⟨hle, hok⟩
      · rw [herr]
        exact .inl ⟨⟨_, rfl, hlt⟩, rfl⟩
      · rw [hok]
        refine .inr ⟨fun e he => ?_, rfl⟩
        cases he
        exact Nat.not_lt.2 hle
    | mkdir => exact .inl ⟨⟨_, rfl, trivial⟩, rfl⟩
    | connect => exact .inl ⟨⟨_, rfl, trivial⟩, rfl⟩
    | schema => exact .inl ⟨⟨_, rfl, trivial⟩, rfl⟩
    | commit => exact .inl ⟨⟨_, rfl, trivial⟩, rfl⟩

theorem sum_eraseIdx {xs : List Counter} {i : Nat} {x : Counter} (h : xs[i]? = some x) (key : StatKey) :
    ((xs.eraseIdx i).map (·.get key)).sum + x.get key = (xs.map (·.get key)).sum := by
  induction xs generalizing i with
  | nil => cases h
  | cons y ys ih =>
    cases i with
    | zero =>
      cases h
      simp [Int.add_comm]
    | succ i =>
      rw [List.eraseIdx_cons_succ, List.map_cons, List.sum_cons, Int.add_assoc, ih h, List.map_cons, List.sum_cons]

/-- What a table says of the rows that went into it. -/
theorem items_of (ts : String) (rows : List (StatKey × Int)) : (rows.map (StatRow.of ts)).map (·.item) = rows := by
  rw [List.map_map]
  exact List.map_id rows

namespace CounterSystem

/-- **A step keeps the sums exactly if it loses nothing.** -/
theorem conserved_step_iff (h : s.Conserved) (a : CounterAction) : (s.step a).Conserved ↔ s.Lossless a := by
  cases a with
  | increment agent eventType wing count =>
    refine iff_of_true (fun key => ?_) trivial
    have hkey := h key
    have hone : amount key [(⟨agent, wing, eventType⟩, count)] = if ⟨agent, wing, eventType⟩ = key then count else 0 := by
      unfold amount
      split
      · next heq => simp [heq]
      · next hne => simp [hne]
    calc s.persisted key + (s.counts.add ⟨agent, wing, eventType⟩ count).get key + s.flying key
        = s.persisted key + s.counts.get key + s.flying key + if ⟨agent, wing, eventType⟩ = key then count else 0 := by
          rw [Counter.get_add]
          omega
      _ = amount key (s.increments ++ [(⟨agent, wing, eventType⟩, count)]) := by rw [hkey, amount_append, hone]
  | take =>
    refine iff_of_true (fun key => ?_) trivial
    have hkey := h key
    unfold step
    dsimp only
    split
    · exact hkey
    · have hempty : Counter.empty.get key = 0 := rfl
      unfold persisted flying at hkey ⊢
      dsimp only
      rw [List.map_append, List.sum_append, List.map_singleton, List.sum_singleton, hempty]
      omega
  | store flight ts fault =>
    unfold step
    dsimp only
    cases htaken : s.flights[flight]? with
    | none =>
      refine iff_of_true h ?_
      cases fault with
      | none => trivial
      | some fault =>
        intro taken hsome
        rw [htaken] at hsome
        cases hsome
    | some taken =>
      have hrest : ∀ key, ((s.flights.eraseIdx flight).map (·.get key)).sum + taken.get key = s.flying key := sum_eraseIdx htaken
      dsimp only
      rcases storeRows_fst ts fault taken.items s.stats with ⟨⟨e, rfl, hstrikes⟩, htable⟩ | ⟨hfine, htable⟩
      · -- what was taken is nowhere
        rw [htable]
        constructor
        · intro hafter taken' hsome _ key
          rw [htaken] at hsome
          cases hsome
          have hbefore := h key
          have hnow : s.persisted key + s.counts.get key + ((s.flights.eraseIdx flight).map (·.get key)).sum =
            amount key s.increments := hafter key
          have hsum := hrest key
          omega
        · intro hzero key
          have hbefore := h key
          have hsum := hrest key
          have hnone := hzero taken htaken hstrikes key
          show s.persisted key + s.counts.get key + ((s.flights.eraseIdx flight).map (·.get key)).sum = amount key s.increments
          omega
      · rw [htable]
        refine iff_of_true (fun key => ?_) ?_
        · have hbefore := h key
          have hsum := hrest key
          have htotal : amount key ((s.stats ++ taken.items.map (StatRow.of ts)).map (·.item)) = s.persisted key + taken.get key := by
            rw [List.map_append, amount_append, items_of, Counter.amount_items]
            rfl
          show amount key ((s.stats ++ taken.items.map (StatRow.of ts)).map (·.item)) + s.counts.get key +
            ((s.flights.eraseIdx flight).map (·.get key)).sum = amount key s.increments
          omega
        · cases fault with
          | none => trivial
          | some fault =>
            intro taken' hsome hstrikes
            rw [htaken] at hsome
            cases hsome
            exact absurd hstrikes (hfine fault rfl)

theorem conserved_start : start.Conserved := fun _ => rfl

end CounterSystem

open CounterSystem

/-- **A flush conserves the counts exactly if it does not fail with some**: in every state of a run, from one where all is there. -/
theorem flush_conserves_iff {s : CounterSystem} (h : s.Conserved) (actions : List CounterAction) :
    (∀ pre, pre <+: actions → (run step s pre).Conserved) ↔ Along step Lossless s actions := by
  have htrue : Along step (fun _ _ => True) s actions := along_of_forall (fun _ _ => trivial) s actions
  refine prefixes_iff_along (J := fun _ => True) (fun _ _ _ _ => trivial) (fun s a _ hs _ => ?_) trivial h htrue
  exact conserved_step_iff hs a

/-- A write is counted, and the flush after it does not reach the database. -/
def lostFlush : List CounterAction := [.increment "agent" "writes" "notes" 1, .take, .store 0 "t1" (some .connect)]

/-- The run loses a count, and its flush is the step that does. -/
theorem flush_conserves_iff_lost :
    (∀ pre, pre <+: lostFlush → (run step start pre).Conserved) ↔ Along step Lossless start lostFlush :=
  flush_conserves_iff conserved_start lostFlush

/-- The count is gone: no flush runs, and neither the table nor the counters have it. -/
theorem lostFlush_loses : (run step start lostFlush).flights = [] ∧
    (run step start lostFlush).persisted ⟨"agent", "notes", "writes"⟩ + (run step start lostFlush).counts.get ⟨"agent", "notes", "writes"⟩ ≠
      amount ⟨"agent", "notes", "writes"⟩ (run step start lostFlush).increments := by decide

end Panella

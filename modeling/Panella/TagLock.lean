import Panella.Lib.Mutex
import Panella.Lib.Sha256
import Panella.Lifecycle

/-!
# The tag lock (`panella/tag_lock.py`) around the transitions of several processes

| here | there |
| --- | --- |
| `lockPath` | `_lock_path` (:55-61) |
| `TagCall.opening`, `TagCall.waiting` | `tag_lock` up to the `flock` (:65-93) |
| `TagCall.getting`, `TagCall.putting`, `TagCall.verifying` | `_tag_transition` under it (`panella_adapter.py` :536-580), one request at a time |
| `LockSystem.move` | `flock(LOCK_UN)` and `close` (:96-98), which a crash does too |

A PUT replaces all tags by what a GET before it returned, so two calls between each other's GET and PUT would lose a tag. The lock
"SERIALIZES every … GET-merge-PUT that sends `tags` for a given memory". Here any number of calls on any rows take their requests
one by one, in any order; they wait, time out, fail and crash where they may, and others write rows without the lock as long as
they leave the tags.

**`tagLock_exact`**: whoever is between GET and PUT holds the lock of its row, nobody else does, and who waits gets it
whenever nobody is. **`tags_serialized`**: the tags of a row are at all times what its transitions make of them one
after the other, in the order of their PUTs. Two drawers may have one lock.
-/

namespace Panella.TagLock

open PyJson Machine Mutex

/-! ## The calls -/

/-- `_lock_path`, its file name. -/
@[irreducible]
def lockPath (key : String) : String :=
  String.ofList ((Sha256.hexdigest (Sha256.utf8 key)).toList.take 32) ++ ".lock"

/-- `DEFAULT_TIMEOUT`, in milliseconds. -/
def defaultTimeout : Nat := 30000

/-- `TagLockTimeout`. -/
def tagLockTimeout (key : String) : ClientErr :=
  .py (.runtimeError ("tag_lock timeout after 30.0s for key=" ++ String.ofList (key.toList.take 16) ++ "…"))

/-- Where a call is; `left` counts the attempts after this one. -/
inductive TagCall
  | idle
  | opening (c : LifecycleCall) (id : String)
  | waiting (c : LifecycleCall) (id : String) (start : Nat)
  | getting (c : LifecycleCall) (id : String) (left : Nat)
  | putting (c : LifecycleCall) (id : String) (left : Nat) (kept newTags : List Json) (delta : Dict)
  | verifying (c : LifecycleCall) (id : String) (left : Nat) (kept : List Json)
  | ended (result : Except ClientErr Bool)

/-- The row a call is in the middle of changing. -/
def TagCall.drawer : TagCall → Option String
  | .getting _ id _ | .putting _ id _ _ _ _ | .verifying _ id _ _ => some id
  | .idle | .opening .. | .waiting .. | .ended _ => none

/-- The lock it is inside of. -/
def TagCall.inside (c : TagCall) : Option String := c.drawer.map lockPath

/-- A new call can be started. -/
def TagCall.free : TagCall → Bool
  | .idle | .ended _ => true
  | _ => false

/-- What one step of a call meets: the two clocks, an exception of what it does, the end of a PUT. -/
structure Input where
  now : Nat
  utc : UtcIso
  fault : Option ClientErr
  reply : PutReply

variable (d : Deployment)

/-- The next turn of the loop, or its end. -/
def again (c : LifecycleCall) (id : String) : Nat → TagCall
  | 0 => .ended (.ok false)
  | left + 1 => .getting c id left

/-- The directory and the file of the lock. -/
def advanceOpening (i : Input) (c : LifecycleCall) (id : String) : TagCall :=
  match i.fault with
  | some e => .ended (.error e)
  | none => .waiting c id i.now

/-- One try to get the lock. -/
def advanceWaiting (free : String → Bool) (i : Input) (c : LifecycleCall) (id : String) (start : Nat) : TagCall :=
  if free (lockPath id) then .getting c id 1
  else if defaultTimeout ≤ i.now - start then .ended (.error (tagLockTimeout id))
  else .waiting c id start

/-- From the GET to the PUT. -/
def advanceGetting (rows : RowStore) (i : Input) (c : LifecycleCall) (id : String) (left : Nat) : TagCall :=
  match i.fault with
  | some e => .ended (.error e)
  | none =>
    match rows id with
    | none => .ended (.ok false)
    | some r =>
      match c.transition.newTags d r.tags with
      | .error e => .ended (.error (.py e))
      | .ok newTags => .putting c id left (c.transition.kept d r.tags) newTags (c.transition.metaDelta i.utc r.metadata)

/-- The PUT. -/
def advancePutting (rows : RowStore) (i : Input) (c : LifecycleCall) (id : String) (left : Nat) (kept newTags : List Json)
    (delta : Dict) : RowStore × TagCall :=
  let (rows, done) := rows.put id newTags delta i.reply
  (rows,
    match done with
    | .error e => .ended (.error e)
    | .ok false => again c id left
    | .ok true => .verifying c id left kept)

/-- The re-GET. -/
def advanceVerifying (rows : RowStore) (i : Input) (c : LifecycleCall) (id : String) (left : Nat) (kept : List Json) : TagCall :=
  match verified d c.transition kept rows id i.fault with
  | .error e => .ended (.error e)
  | .ok true => .ended (.ok true)
  | .ok false => again c id left

/-- A call runs to its next request, or to its next try to get the lock. -/
def advanceCall (free : String → Bool) (rows : RowStore) (i : Input) : TagCall → RowStore × TagCall
  | .idle => (rows, .idle)
  | .ended result => (rows, .ended result)
  | .opening c id => (rows, advanceOpening i c id)
  | .waiting c id start => (rows, advanceWaiting free i c id start)
  | .getting c id left => (rows, advanceGetting d rows i c id left)
  | .putting c id left kept newTags delta => advancePutting rows i c id left kept newTags delta
  | .verifying c id left kept => (rows, advanceVerifying d rows i c id left kept)

/-! ## The system -/

structure LockSystem where
  rows : RowStore
  holder : String → Option Nat
  calls : Nat → TagCall

/-- Nobody is calling. -/
def LockSystem.initial (rows : RowStore) : LockSystem := ⟨rows, fun _ => none, fun _ => .idle⟩

/-- Call `p` goes on to `c`: it gives up the lock it leaves and takes the one it enters. -/
def LockSystem.move (s : LockSystem) (p : Nat) (c : TagCall) : LockSystem :=
  { s with holder := pass s.holder p (s.calls p).inside c.inside, calls := Function.update s.calls p c }

inductive LockAction
  | start (p : Nat) (c : LifecycleCall) (id : String)
  | advance (p : Nat) (i : Input)
  | crash (p : Nat)
  /-- Somebody writes a row without the lock. -/
  | write (id : String) (f : Option LiveRow → Option LiveRow)

/-- One row is written. -/
def onRow (id : String) (f : Option LiveRow → Option LiveRow) (st : RowStore) : RowStore := fun id' =>
  if id' = id then f (st id) else st id'

def lockStep (s : LockSystem) : LockAction → LockSystem
  | .start p c id => if (s.calls p).free then s.move p (.opening c id) else s
  | .advance p i =>
    let next := advanceCall d (fun k => (s.holder k).isNone) s.rows i (s.calls p)
    { s.move p next.2 with rows := next.1 }
  | .crash p => s.move p .idle
  | .write id f => { s with rows := onRow id f s.rows }

/-- A write that leaves the tags, and neither makes nor deletes the row. -/
def KeepsTags (f : Option LiveRow → Option LiveRow) : Prop := ∀ o, (f o).map (·.tags) = o.map (·.tags)

/-- Who writes row `id` without the lock leaves its tags. -/
def LockAction.KeepsTags (id : String) : LockAction → Prop
  | .write id' f => id' = id → TagLock.KeepsTags f
  | _ => True

/-! ## The lock -/

/-- Every lock is held by exactly the call inside it. -/
def LocksHeld (s : LockSystem) : Prop := Held s.holder fun p => (s.calls p).inside

variable {d} {s : LockSystem} {a : LockAction} {p q : Nat} {id : String}

theorem LocksHeld.move (h : LocksHeld s) {c : TagCall}
    (hfree : ∀ k, c.inside = some k → s.holder k = none ∨ (s.calls p).inside = some k) : LocksHeld (s.move p c) := by
  have hpass := Held.pass h hfree
  have hinside : (fun q => ((s.move p c).calls q).inside) = Function.update (fun q => (s.calls q).inside) p c.inside := by
    funext q
    by_cases hq : q = p
    · subst hq
      simp [LockSystem.move]
    · simp [LockSystem.move, Function.update_of_ne hq]
  unfold LocksHeld
  rw [hinside]
  exact hpass

theorem again_inside {c : LifecycleCall} {left : Nat} {k : String} (h : (again c id left).inside = some k) :
    lockPath id = k := by
  cases left with
  | zero => cases h
  | succ => exact Option.some.inj h

/-- A step enters a lock only where it is free. -/
theorem advanceCall_inside {free : String → Bool} {rows : RowStore} {i : Input} {c : TagCall} {k : String}
    (h : (advanceCall d free rows i c).2.inside = some k) : free k = true ∨ c.inside = some k := by
  cases c with
  | idle => exact absurd h nofun
  | ended => exact absurd h nofun
  | opening c id =>
    change (advanceOpening i c id).inside = some k at h
    unfold advanceOpening at h
    split at h <;> cases h
  | waiting c id start =>
    change (advanceWaiting free i c id start).inside = some k at h
    unfold advanceWaiting at h
    split at h
    · next hfree =>
      cases h
      exact .inl hfree
    · split at h <;> cases h
  | getting c id left =>
    change (advanceGetting d rows i c id left).inside = some k at h
    unfold advanceGetting at h
    split at h
    · cases h
    · split at h
      · cases h
      · split at h
        · cases h
        · exact .inr h
  | putting c id left kept newTags delta =>
    change (advancePutting rows i c id left kept newTags delta).2.inside = some k at h
    unfold advancePutting at h
    simp only at h
    split at h
    · cases h
    · exact .inr (congrArg some (again_inside h))
    · exact .inr h
  | verifying c id left kept =>
    change (advanceVerifying d rows i c id left kept).inside = some k at h
    unfold advanceVerifying at h
    split at h
    · cases h
    · cases h
    · exact .inr (congrArg some (again_inside h))

theorem locksHeld_step (h : LocksHeld s) (a : LockAction) : LocksHeld (lockStep d s a) := by
  cases a with
  | start p c id =>
    change LocksHeld (if (s.calls p).free then s.move p (.opening c id) else s)
    split
    · exact h.move nofun
    · exact h
  | advance p i =>
    refine LocksHeld.move h fun k hk => ?_
    rcases advanceCall_inside hk with hfree | hin
    · exact .inl (Option.isNone_iff_eq_none.1 hfree)
    · exact .inr hin
  | crash p => exact h.move nofun
  | write id f => exact h

theorem locksHeld_initial (rows : RowStore) : LocksHeld (.initial rows) := held_none

theorem locksHeld_runs (d : Deployment) (rows : RowStore) (as : List LockAction) :
    LocksHeld (run (lockStep d) (.initial rows) as) :=
  run_inv (I := LocksHeld) (fun _ a h => locksHeld_step h a) (locksHeld_initial rows) as

/-- **The tag lock excludes, and is never lost.** For every interleaving of calls on any drawers, with failures, timeouts and
crashes anywhere: a lock is held by exactly the call that is between its first GET and its end, so by one at most; and a call
that waits gets the lock with its next try, however long it has waited, if and only if no call is inside it. -/
theorem tagLock_exact (d : Deployment) (rows : RowStore) (as : List LockAction) :
    let s := run (lockStep d) (.initial rows) as
    (∀ k p, s.holder k = some p ↔ (s.calls p).inside = some k) ∧
      (∀ p q id, (s.calls p).drawer = some id → (s.calls q).drawer = some id → p = q) ∧
      ∀ p c id start i, s.calls p = .waiting c id start →
        (((lockStep d s (.advance p i)).calls p).inside = some (lockPath id) ↔
          ∀ q, (s.calls q).inside ≠ some (lockPath id)) := by
  intro s
  have hheld : LocksHeld s := locksHeld_runs d rows as
  refine ⟨hheld, ?_, ?_⟩
  · intro p q id hp hq
    have hin : ∀ r, (s.calls r).drawer = some id → (s.calls r).inside = some (lockPath id) := by
      intro r hr
      rw [TagCall.inside, hr, Option.map_some]
    exact hheld.eq (hin p hp) (hin q hq)
  · intro p c id start i hc
    have hfree : (s.holder (lockPath id)).isNone = true ↔ ∀ q, (s.calls q).inside ≠ some (lockPath id) := by
      rw [Option.isNone_iff_eq_none]
      exact hheld.free_iff
    rw [← hfree]
    have hnext : (lockStep d s (.advance p i)).calls p =
        (advanceCall d (fun k => (s.holder k).isNone) s.rows i (s.calls p)).2 := Function.update_self ..
    have hwaiting : (advanceCall d (fun k => (s.holder k).isNone) s.rows i (.waiting c id start)).2 =
        advanceWaiting (fun k => (s.holder k).isNone) i c id start := rfl
    rw [hnext, hc, hwaiting, advanceWaiting]
    split
    · next hnone => simp [hnone, TagCall.inside, TagCall.drawer]
    · next hsome =>
      simp only [hsome]
      split <;> simp [TagCall.inside, TagCall.drawer]

/-! ## The tags -/

/-- What a transition makes of the tags; tags that cannot be hashed stay. -/
def retag (d : Deployment) (tags : List Json) (c : LifecycleCall) : List Json :=
  match c.transition.newTags d tags with
  | .ok tags' => tags'
  | .error _ => tags

/-- The call whose PUT updates the row in this step. -/
def applied (id : String) (s : LockSystem) : LockAction → Option LifecycleCall
  | .advance p i =>
    match s.calls p with
    | .putting c id' _ _ _ _ => if id' = id ∧ i.reply.applied = true then some c else none
    | _ => none
  | _ => none

/-- The calls whose PUTs have updated the row in the run, in the order of the PUTs. -/
def appliedIn (d : Deployment) (id : String) : LockSystem → List LockAction → List LifecycleCall
  | _, [] => []
  | s, a :: as => (applied id s a).toList ++ appliedIn d id (lockStep d s a) as

/-- Whoever is about to PUT has read the tags as they are. -/
def ReadsCurrent (d : Deployment) (id : String) (s : LockSystem) : Prop :=
  ∀ p c left kept newTags delta, s.calls p = .putting c id left kept newTags delta →
    ∃ r, s.rows id = some r ∧ c.transition.newTags d r.tags = .ok newTags ∧ kept = c.transition.kept d r.tags

theorem put_applied (rows : RowStore) (id : String) (tags : List Json) (delta : Dict) (reply : PutReply) :
    (rows.put id tags delta reply).1 = if reply.applied then rows.update id tags delta else rows := by
  cases reply <;> rfl

theorem update_tags (rows : RowStore) (id id' : String) (tags : List Json) (delta : Dict) :
    ((rows.update id' tags delta) id).map (·.tags) =
      if id = id' then (rows id).map fun _ => tags else (rows id).map (·.tags) := by
  unfold RowStore.update
  split
  · next h =>
    subst h
    cases rows id <;> rfl
  · rfl

/-- **What a step does to the tags of a row.** -/
theorem tags_step (hcur : ReadsCurrent d id s) (ha : a.KeepsTags id) :
    ((lockStep d s a).rows id).map (·.tags) =
      (s.rows id).map fun r => (applied id s a).toList.foldl (retag d) r.tags := by
  cases a with
  | start p c id' =>
    have hrows : (lockStep d s (.start p c id')).rows = s.rows := by
      change (if (s.calls p).free then s.move p (.opening c id') else s).rows = _
      split <;> rfl
    rw [hrows]
    rfl
  | crash p => rfl
  | write id' f =>
    show (onRow id' f s.rows id).map _ = _
    unfold onRow
    split
    · next h =>
      subst h
      exact ha rfl _
    · rfl
  | advance p i =>
    show ((advanceCall d (fun k => (s.holder k).isNone) s.rows i (s.calls p)).1 id).map _ = _
    cases hc : s.calls p with
    | putting c id' left kept newTags delta =>
      simp only [advanceCall, advancePutting, put_applied, applied, hc]
      by_cases happ : i.reply.applied = true
      · rw [if_pos happ, update_tags]
        by_cases hid : id' = id
        · subst hid
          obtain ⟨r, hr, htags, -⟩ := hcur p c left kept newTags delta hc
          simp [happ, hr, retag, htags]
        · rw [if_neg (Ne.symm hid), if_neg (fun h => hid h.1)]
          rfl
      · rw [if_neg happ, if_neg (fun h => happ h.2)]
        rfl
    | _ => simp [advanceCall, applied, hc]

/-- A call is about to PUT because it was, or because it has just read the row. -/
theorem putting_step {c : LifecycleCall} {left : Nat} {kept newTags : List Json} {delta : Dict}
    (h : (lockStep d s a).calls p = .putting c id left kept newTags delta) :
    (s.calls p = .putting c id left kept newTags delta ∧ ∀ i, a ≠ .advance p i) ∨
      ∃ i r, a = .advance p i ∧ s.calls p = .getting c id left ∧ s.rows id = some r ∧
        c.transition.newTags d r.tags = .ok newTags ∧ kept = c.transition.kept d r.tags ∧
          delta = c.transition.metaDelta i.utc r.metadata := by
  have hkeep : (lockStep d s a).calls p = s.calls p → (∀ i, a ≠ .advance p i) →
      s.calls p = .putting c id left kept newTags delta ∧ ∀ i, a ≠ .advance p i := by
    intro hsame hne
    exact ⟨hsame ▸ h, hne⟩
  cases a with
  | start q c' id' =>
    left
    refine hkeep ?_ (by simp)
    have hstart : lockStep d s (.start q c' id') = if (s.calls q).free then s.move q (.opening c' id') else s := rfl
    rw [hstart] at h ⊢
    by_cases hfree : (s.calls q).free = true
    · rw [if_pos hfree] at h ⊢
      by_cases hq : p = q
      · subst hq
        simp [LockSystem.move] at h
      · exact Function.update_of_ne hq ..
    · rw [if_neg hfree]
  | crash q =>
    left
    refine hkeep ?_ (by simp)
    by_cases hq : p = q
    · subst hq
      simp [lockStep, LockSystem.move] at h
    · exact Function.update_of_ne hq ..
  | write id' f => exact .inl (hkeep rfl (by simp))
  | advance q i =>
    by_cases hq : p = q
    · subst hq
      right
      have hnext : (lockStep d s (.advance p i)).calls p =
          (advanceCall d (fun k => (s.holder k).isNone) s.rows i (s.calls p)).2 := Function.update_self ..
      rw [hnext] at h
      have hagain : ∀ {c' : LifecycleCall} {id' : String} {left' : Nat},
          again c' id' left' ≠ .putting c id left kept newTags delta := by
        rintro c' id' (- | left') h <;> cases h
      generalize hc : s.calls p = was at h ⊢
      cases was with
      | idle => cases h
      | ended => cases h
      | opening c' id' =>
        change advanceOpening i c' id' = _ at h
        unfold advanceOpening at h
        split at h <;> cases h
      | waiting c' id' start =>
        change advanceWaiting (fun k => (s.holder k).isNone) i c' id' start = _ at h
        unfold advanceWaiting at h
        split at h
        · cases h
        · split at h <;> cases h
      | getting c' id' left' =>
        change advanceGetting d s.rows i c' id' left' = _ at h
        unfold advanceGetting at h
        split at h
        · cases h
        · split at h
          · cases h
          · next r hr =>
            split at h
            · cases h
            · next tags htags =>
              cases h
              exact ⟨i, r, rfl, rfl, hr, htags, rfl, rfl⟩
      | putting c' id' left' kept' newTags' delta' =>
        change (advancePutting s.rows i c' id' left' kept' newTags' delta').2 = _ at h
        unfold advancePutting at h
        simp only at h
        split at h
        · cases h
        · exact absurd h hagain
        · cases h
      | verifying c' id' left' kept' =>
        change advanceVerifying d s.rows i c' id' left' kept' = _ at h
        unfold advanceVerifying at h
        split at h
        · cases h
        · cases h
        · exact absurd h hagain
    · left
      refine hkeep (Function.update_of_ne hq ..) ?_
      rintro j hj
      cases hj
      exact hq rfl

/-- No other call updates the row of the call that is inside its lock. -/
theorem applied_of_inside (hheld : LocksHeld s) (hp : (s.calls p).drawer = some id) (ha : ∀ i, a ≠ .advance p i) :
    applied id s a = none := by
  cases a with
  | advance q i =>
    cases hc : s.calls q with
    | putting c id' left kept newTags delta =>
      simp only [applied, hc]
      rw [if_neg]
      rintro ⟨rfl, -⟩
      have hq : (s.calls q).inside = some (lockPath id') := by rw [hc]; rfl
      have hpin : (s.calls p).inside = some (lockPath id') := by rw [TagCall.inside, hp, Option.map_some]
      have hpq : p = q := hheld.eq hpin hq
      subst hpq
      exact ha i rfl
    | _ => simp only [applied, hc]
  | _ => rfl

theorem readsCurrent_step (hheld : LocksHeld s) (hcur : ReadsCurrent d id s) (ha : a.KeepsTags id) :
    ReadsCurrent d id (lockStep d s a) := by
  intro p c left kept newTags delta hp
  have htags := tags_step hcur ha
  rcases putting_step hp with ⟨hwas, hne⟩ | ⟨i, r, rfl, hc, hr, hnew, hkept, -⟩
  · obtain ⟨r, hr, hnew, hkept⟩ := hcur p c left kept newTags delta hwas
    have hin : (s.calls p).drawer = some id := by rw [hwas]; rfl
    rw [applied_of_inside hheld hin hne, hr] at htags
    obtain ⟨r', hr', he⟩ := Option.map_eq_some_iff.1 htags
    refine ⟨r', hr', ?_, ?_⟩ <;> rw [he] <;> assumption
  · have hrows : (lockStep d s (.advance p i)).rows = s.rows := by
      show (advanceCall d _ s.rows i (s.calls p)).1 = _
      rw [hc]
      rfl
    exact ⟨r, hrows ▸ hr, hnew, hkept⟩

/-- **No tag is lost.** For every interleaving of the requests of any number of calls, on this row and on others, with lock
timeouts, failed requests, lost answers and crashes anywhere, and of writers that leave the tags: the tags of the row are what the
transitions whose PUTs updated it make of its first tags, each applied to what the one before it left. -/
theorem tags_serialized (d : Deployment) (rows : RowStore) (id : String) (as : List LockAction)
    (hothers : ∀ a ∈ as, a.KeepsTags id) :
    ((run (lockStep d) (.initial rows) as).rows id).map (·.tags) =
      (rows id).map fun r => (appliedIn d id (.initial rows) as).foldl (retag d) r.tags := by
  have hrun : ∀ (as : List LockAction) (s : LockSystem), (∀ a ∈ as, a.KeepsTags id) → LocksHeld s → ReadsCurrent d id s →
      ((run (lockStep d) s as).rows id).map (·.tags) =
        (s.rows id).map fun r => (appliedIn d id s as).foldl (retag d) r.tags := by
    intro as
    induction as with
    | nil => intro s _ _ _; rfl
    | cons a as ih =>
      intro s hall hheld hcur
      obtain ⟨ha, hrest⟩ := List.forall_mem_cons.1 hall
      rw [run_cons, ih _ hrest (locksHeld_step hheld a) (readsCurrent_step hheld hcur ha)]
      have hstep := tags_step hcur ha
      simp only [appliedIn, List.foldl_append]
      cases hs : s.rows id with
      | none =>
        rw [hs] at hstep
        rw [Option.map_eq_none_iff.1 hstep]
        rfl
      | some r =>
        rw [hs] at hstep
        obtain ⟨r', hr', he⟩ := Option.map_eq_some_iff.1 hstep
        rw [hr', Option.map_some, Option.map_some, he]
  exact hrun as _ hothers (locksHeld_initial rows) nofun

def calmInput : Input := ⟨0, sampleUtcIso, none, .updated⟩

/-- A tombstone and an `ensure_tag` on one row, and a metadata write between the GET and the PUT of the first. -/
def sharedRun : List LockAction :=
  [.start 0 (.tombstone "old" "root") "a", .start 1 (.ensureTag "pinned") "a", .advance 0 calmInput, .advance 1 calmInput,
   .advance 0 calmInput, .advance 1 calmInput, .advance 0 calmInput,
   .write "a" (Option.map fun r => { r with metadata := [("note", .str "seen")] }), .advance 0 calmInput,
   .advance 0 calmInput, .advance 1 calmInput, .advance 1 calmInput, .advance 1 calmInput, .crash 1]

theorem sharedRun_keepsTags : ∀ a ∈ sharedRun, a.KeepsTags "a" := by
  intro a ha
  simp only [sharedRun, List.mem_cons, List.not_mem_nil, or_false] at ha
  rcases ha with rfl | rfl | rfl | rfl | rfl | rfl | rfl | rfl | rfl | rfl | rfl | rfl | rfl | rfl <;> try trivial
  intro _ o
  cases o <;> rfl

theorem tags_serialized_sample :
    ((run (lockStep sampleDeployment) (.initial agedRows) sharedRun).rows "a").map (·.tags) =
      (agedRows "a").map fun r =>
        (appliedIn sampleDeployment "a" (.initial agedRows) sharedRun).foldl (retag sampleDeployment) r.tags :=
  tags_serialized sampleDeployment agedRows "a" sharedRun sharedRun_keepsTags

end Panella.TagLock

import Panella.Lib.Retry
import Panella.Lifecycle
import Panella.PriorSet

/-!
# Requests that are sent again (`PanellaAdapter._request`)

| here | there |
| --- | --- |
| `Transmission` | what `self._client.request` gives or raises (`panella_adapter.py` :296-310) |
| `requestLoop`, `request` | `_request` (:277-317) |
| `postMemory`, `deleteMemory`, `putMemory` | `_http_post`, `_http_delete`, `_http_put` with what their callers make of the response |

"This helper retries POST as well as GET", which "is only safe because Panella store performs server-side content-hash dedup on
every write". The other modules take one request for what the loop does, with a reply chosen from outside (`PostReply`,
`DeleteReply`, `PutReply`). Here those replies are shown to be exactly what the loop can come to, whichever attempts reach the
store and whatever others do to other rows between them: **`post_exact`**, **`delete_exact`**; and for a PUT also where others
write the metadata of its own row (**`put_exact`**): its last attempt counts, and what others wrote between its attempts falls
before it.
-/

namespace Panella

open PyJson Retry

/-! ## The loop -/

/-- `RETRYABLE_STATUS`. -/
def retryableStatus : List Nat := [500, 502, 503, 504]

/-- One `self._client.request`; `handled`: the store has done what it asks. -/
inductive Transmission (ε : Type)
  /-- It raises; a `TimeoutException` and a `TransportError` are caught. -/
  | raised (caught handled : Bool) (e : ε)
  /-- A response that the caller raises on: its status, or a body it cannot read. -/
  | failed (status : Nat) (handled : Bool) (e : ε)
  /-- The answer of the store. -/
  | answered

structure Sending (σ ε : Type) where
  /-- What others do before it. -/
  before : σ → σ
  sent : Transmission ε

section
variable {σ ρ ε : Type} (handle : σ → σ × ρ) (wire : Nat → Sending σ ε)

/-- The loop at `attempt`, with `left` more attempts. -/
def requestLoop (left attempt : Nat) (s : σ) : σ × Except ε ρ :=
  let s := (wire attempt).before s
  match (wire attempt).sent with
  | .raised caught handled e =>
    if caught then
      match left with
      | 0 => (reach handle handled s, .error e)
      | left + 1 => requestLoop left (attempt + 1) (reach handle handled s)
    else (reach handle handled s, .error e)
  | .failed status handled e =>
    match left with
    | 0 => (reach handle handled s, .error e)
    | left + 1 =>
      if status ∈ retryableStatus then requestLoop left (attempt + 1) (reach handle handled s)
      else (reach handle handled s, .error e)
  | .answered => ((handle s).1, .ok (handle s).2)

def request (maxRetries : Nat) (s : σ) : σ × Except ε ρ := requestLoop handle wire maxRetries 0 s

end

/-! ## The requests -/

section
variable (maxRetries : Nat)

/-- `POST /api/memories` in `add_memory`; a duplicate is reported with its hash or without. -/
def postMemory (wire : Nat → Sending Store PyErr) (api : StoreApi) (body : MemoryBody) (writtenFor : Option Nat)
    (disclosed : Bool) (st : Store) : Store × AddOutcome :=
  match request (fun st => st.post api body writtenFor (.answered disclosed)) wire maxRetries st with
  | (st, .ok outcome) => (st, outcome)
  | (st, .error e) => (st, .raised e)

/-- `DELETE /api/memories/{hash}` in `hard_delete`; the store may decline with `success: false`. -/
def deleteMemory (wire : Nat → Sending Store PyErr) (h : String) (declined : Bool) (st : Store) : Store × Except PyErr Bool :=
  request (fun st => if declined then (st, false) else (st.remove h, st.active h)) wire maxRetries st

/-- `PUT /api/memories/{id}` in `_tag_transition`; the store may decline with `success: false`. -/
def putMemory (wire : Nat → Sending RowStore ClientErr) (id : String) (tags : List Json) (delta : Dict) (declined : Bool)
    (st : RowStore) : RowStore × Except ClientErr Bool :=
  match request (fun st => st.put id tags delta (if declined then .unsuccessful else .updated)) wire maxRetries st with
  | (st, .ok done) => (st, done)
  | (st, .error e) => (st, .error e)

end

/-! ## The loop and its fates -/

section
variable {σ ρ ε : Type} {handle : σ → σ × ρ} {wire : Nat → Sending σ ε}

def Transmission.fate : Transmission ε → Fate ε
  | .raised caught handled e => if caught then .transient handled e else .final handled e
  | .failed status handled e => if status ∈ retryableStatus then .transient handled e else .final handled e
  | .answered => .replied

def Sending.attempt (x : Sending σ ε) : Attempt σ ε := ⟨x.before, x.sent.fate⟩

theorem requestLoop_eq (left attempt : Nat) (s : σ) :
    requestLoop handle wire left attempt s = retry handle (fun k => (wire k).attempt) left attempt s := by
  induction left generalizing attempt s with
  | zero =>
    unfold requestLoop retry
    cases h : (wire attempt).sent with
    | raised caught handled e => cases caught <;> simp [Sending.attempt, Transmission.fate, h]
    | failed status handled e =>
      by_cases hstatus : status ∈ retryableStatus <;> simp [Sending.attempt, Transmission.fate, h, hstatus]
    | answered => simp [Sending.attempt, Transmission.fate, h]
  | succ left ih =>
    unfold requestLoop retry
    cases h : (wire attempt).sent with
    | raised caught handled e => cases caught <;> simp [Sending.attempt, Transmission.fate, h, ih]
    | failed status handled e =>
      by_cases hstatus : status ∈ retryableStatus <;> simp [Sending.attempt, Transmission.fate, h, hstatus, ih]
    | answered => simp [Sending.attempt, Transmission.fate, h]

variable {O : (σ → σ) → Prop} {maxRetries : Nat} {s : σ}

variable (handle maxRetries s) in
theorem request_last (hO : Closed O) (hwire : ∀ k, O (wire k).before)
    (habsorb : ∀ g, O g → ∃ g', O g' ∧ ∀ s, handle (g (handle s).1) = handle (g' s)) :
    Unhandled O s (request handle wire maxRetries s) ∨ Once O handle s (request handle wire maxRetries s) := by
  rw [request, requestLoop_eq]
  exact retry_last hO hwire habsorb

variable (handle maxRetries s) in
theorem request_first (Done : σ → Prop) (hO : Closed O) (hwire : ∀ k, O (wire k).before)
    (hkeep : ∀ g, O g → ∀ s, Done s → Done (g s)) (hdone : ∀ s, Done (handle s).1) (hagain : ∀ s, Done s → (handle s).1 = s) :
    Unhandled O s (request handle wire maxRetries s) ∨ Once O handle s (request handle wire maxRetries s) ∨
      ∃ g f, O g ∧ O f ∧ Done (f (handle (g s)).1) ∧
        request handle wire maxRetries s = (f (handle (g s)).1, .ok (handle (f (handle (g s)).1)).2) := by
  rw [request, requestLoop_eq]
  exact retry_first hO hwire hkeep hdone hagain

/-- The first attempt is the last. -/
def once (f : σ → σ) (sent : Transmission ε) : Nat → Sending σ ε := fun _ => ⟨f, sent⟩

/-- The first attempt is handled and not answered, the second is the last. -/
def twice (f g : σ → σ) (e : ε) (sent : Transmission ε) : Nat → Sending σ ε
  | 0 => ⟨f, .raised true true e⟩
  | _ => ⟨g, sent⟩

theorem loop_answered {left attempt : Nat} (h : (wire attempt).sent = .answered) :
    requestLoop handle wire left attempt s =
      ((handle ((wire attempt).before s)).1, .ok (handle ((wire attempt).before s)).2) := by
  unfold requestLoop
  simp only [h]

theorem loop_raised {left attempt : Nat} {handled : Bool} {e : ε} (h : (wire attempt).sent = .raised false handled e) :
    requestLoop handle wire left attempt s = (reach handle handled ((wire attempt).before s), .error e) := by
  unfold requestLoop
  simp [h]

theorem request_twice {f g : σ → σ} {e : ε} {sent : Transmission ε} (h : 1 ≤ maxRetries) :
    request handle (twice f g e sent) maxRetries s =
      requestLoop handle (twice f g e sent) (maxRetries - 1) 1 (handle (f s)).1 := by
  obtain ⟨left, rfl⟩ := Nat.exists_eq_add_of_le' h
  rfl

end

/-! ## POST and DELETE -/

section
variable {h : String} {f g : Store → Store}

/-- Others leave the row of a content as it is, or away. -/
def LeavesContent (h : String) (f : Store → Store) : Prop := ∀ st r, r.contentHash = h → (r ∈ (f st).rows ↔ r ∈ st.rows)

theorem leavesContent_closed : Closed (LeavesContent h) where
  id := fun _ _ _ => Iff.rfl
  comp := fun hg hf st r hr => (hg _ r hr).trans (hf st r hr)

theorem LeavesContent.active (hf : LeavesContent h f) (st : Store) : (f st).active h = st.active h := by
  rw [Bool.eq_iff_iff, Store.active_iff, Store.active_iff]
  constructor
  · rintro ⟨r, hr, he⟩
    exact ⟨r, (hf st r he).1 hr, he⟩
  · rintro ⟨r, hr, he⟩
    exact ⟨r, (hf st r he).2 hr, he⟩

theorem active_insert_self (st : Store) (row : StoreRow) : (st.insert row).active row.contentHash = true := by
  by_cases hactive : st.active row.contentHash = true
  · rw [Store.insert_active hactive]
    exact hactive
  · rw [Store.active_iff]
    exact ⟨row, Store.mem_insert.2 (.inr ⟨rfl, by simpa using hactive⟩), rfl⟩

theorem remove_inactive {st : Store} (hactive : st.active h = false) : st.remove h = st := by
  have hrows : (st.remove h).rows = st.rows := by
    refine List.filter_eq_self.2 fun r hr => ?_
    rw [decide_eq_true_iff]
    intro he
    rw [← Bool.not_eq_true, Store.active_iff] at hactive
    exact hactive ⟨r, hr, he⟩
  cases st
  simp only [Store.remove, Store.mk.injEq] at hrows ⊢
  exact hrows

/-- The reply is the store's to this very attempt. -/
def PostReply.direct : PostReply → Bool
  | .answered _ => true
  | _ => false

def DeleteReply.direct : DeleteReply → Bool
  | .answered => true
  | _ => false

variable {maxRetries : Nat}

/-- **A POST is made at most once.** What `_request` can come to, whichever of its attempts reach the store and whatever others do
to other rows before, between and after them, is exactly one `Store.post` with one of its replies, with the others before it and
after it: the row is stored or not, never twice, and a retry of an attempt that had landed is a duplicate. -/
theorem post_exact (hretries : 1 ≤ maxRetries) (api : StoreApi) (body : MemoryBody) (w : Option Nat) (st : Store)
    (y : Store × AddOutcome) :
    (∃ disclosed wire, (∀ k, LeavesContent (api.contentHash body.content) (wire k).before) ∧
        postMemory maxRetries wire api body w disclosed st = y) ↔
      ∃ f g reply, LeavesContent (api.contentHash body.content) f ∧ LeavesContent (api.contentHash body.content) g ∧
        (reply.direct = true → g = id) ∧
        y = (g ((f st).post api body w reply).1, ((f st).post api body w reply).2) := by
  have hrow : (rowOf api body w).contentHash = api.contentHash body.content := rfl
  have hstore : ∀ disclosed (st : Store), (st.post api body w (.answered disclosed)).1 = st.insert (rowOf api body w) :=
    fun disclosed st => Store.post_store st api body w _
  have hactive : ∀ disclosed (st : Store), st.active (api.contentHash body.content) = true →
      st.post api body w (.answered disclosed) =
        (st, .dedupSkipped (if disclosed then some (api.contentHash body.content) else none)) := by
    intro disclosed st h
    unfold Store.post
    simp only [hrow, h, if_true]
  constructor
  · rintro ⟨disclosed, wire, hwire, rfl⟩
    have hretry := request_first (fun st => st.post api body w (.answered disclosed)) maxRetries st
      (fun st => st.active (api.contentHash body.content) = true) leavesContent_closed hwire
      (fun g hg st hst => (hg.active st).trans hst)
      (fun st => by rw [hstore]; exact active_insert_self st (rowOf api body w))
      (fun st hst => by rw [hactive disclosed st hst])
    unfold postMemory
    rcases hretry with ⟨g, e, hg, he⟩ | (⟨f, g, e, hf, hg, he⟩ | ⟨f, hf, he⟩) | ⟨f, g, hf, hg, hdone, he⟩ <;> rw [he]
    · exact ⟨g, id, .unstored e, hg, leavesContent_closed.id, nofun, rfl⟩
    · refine ⟨f, g, .lost e, hf, hg, nofun, ?_⟩
      simp only [hstore]
      rfl
    · exact ⟨f, id, .answered disclosed, hf, leavesContent_closed.id, fun _ => rfl, rfl⟩
    · refine ⟨f, g, .retried disclosed, hf, hg, nofun, ?_⟩
      simp only [hactive disclosed _ hdone]
      simp only [hstore]
      rfl
  · rintro ⟨f, g, reply, hf, hg, hdirect, rfl⟩
    have hboth := leavesContent_closed.comp hg hf
    cases reply with
    | unstored e =>
      refine ⟨false, once (fun st => g (f st)) (.raised false false e), fun _ => hboth, ?_⟩
      rw [postMemory, request, loop_raised rfl]
      rfl
    | lost e =>
      refine ⟨false, twice f g e (.raised false false e), fun k => ?_, ?_⟩
      · cases k
        · exact hf
        · exact hg
      · rw [postMemory, request_twice hretries, loop_raised rfl]
        simp only [hstore]
        rfl
    | retried disclosed =>
      refine ⟨disclosed, twice f g (.runtimeError "") .answered, fun k => ?_, ?_⟩
      · cases k
        · exact hf
        · exact hg
      · have hlanded : (g ((f st).insert (rowOf api body w))).active (api.contentHash body.content) = true := by
          rw [hg.active]
          exact active_insert_self _ _
        rw [postMemory, request_twice hretries, loop_answered rfl]
        simp only [twice, hstore, hactive disclosed _ hlanded]
        rfl
    | answered disclosed =>
      refine ⟨disclosed, once f .answered, fun _ => hf, ?_⟩
      obtain rfl := hdirect rfl
      rw [postMemory, request, loop_answered rfl]
      rfl

def noteBody : MemoryBody := ⟨"tea", [], "observation", [], none⟩

/-- The first attempt is stored and its answer lost, the second reports a duplicate. -/
theorem post_exact_sample :
    ∃ disclosed wire, (∀ k, LeavesContent (sampleStoreApi.contentHash noteBody.content) (wire k).before) ∧
      postMemory 3 wire sampleStoreApi noteBody none disclosed .empty =
        (Store.empty.insert (rowOf sampleStoreApi noteBody none), .dedupSkipped none) :=
  (post_exact (by decide) sampleStoreApi noteBody none .empty _).2
    ⟨id, id, .retried false, leavesContent_closed.id, leavesContent_closed.id, nofun, rfl⟩

/-- **A DELETE is made at most once**, likewise: what `hard_delete` returns or raises and leaves is exactly one `Store.delete` with
one of its replies. -/
theorem delete_exact (hretries : 1 ≤ maxRetries) (h : String) (st : Store) (y : Store × Except PyErr Bool) :
    (∃ declined wire, (∀ k, LeavesContent h (wire k).before) ∧ deleteMemory maxRetries wire h declined st = y) ↔
      ∃ f g reply, LeavesContent h f ∧ LeavesContent h g ∧ (reply.direct = true → g = id) ∧
        y = (g ((f st).delete h reply).1, ((f st).delete h reply).2) := by
  constructor
  · rintro ⟨declined, wire, hwire, rfl⟩
    cases declined with
    | true =>
      -- the store does nothing, whenever it is asked
      have hretry := request_first (fun st : Store => (st, false)) maxRetries st (fun _ => True) leavesContent_closed hwire
        (fun _ _ _ _ => trivial) (fun _ => trivial) (fun _ _ => rfl)
      simp only [deleteMemory, if_true]
      rcases hretry with ⟨g, e, hg, he⟩ | (⟨f, g, e, hf, hg, he⟩ | ⟨f, hf, he⟩) | ⟨f, g, hf, hg, -, he⟩ <;> rw [he]
      · exact ⟨g, id, .undeleted e, hg, leavesContent_closed.id, nofun, rfl⟩
      · exact ⟨f, g, .undeleted e, hf, hg, nofun, rfl⟩
      · exact ⟨f, id, .unsuccessful, hf, leavesContent_closed.id, nofun, rfl⟩
      · exact ⟨f, g, .unsuccessful, hf, hg, nofun, rfl⟩
    | false =>
      have hretry := request_first (fun st : Store => (st.remove h, st.active h)) maxRetries st (fun st => st.active h = false)
        leavesContent_closed hwire (fun g hg st hst => (hg.active st).trans hst) (fun st => Store.not_active_remove st h)
        (fun st hst => remove_inactive hst)
      simp only [deleteMemory, Bool.false_eq_true, if_false]
      rcases hretry with ⟨g, e, hg, he⟩ | (⟨f, g, e, hf, hg, he⟩ | ⟨f, hf, he⟩) | ⟨f, g, hf, hg, hdone, he⟩ <;> rw [he]
      · exact ⟨g, id, .undeleted e, hg, leavesContent_closed.id, nofun, rfl⟩
      · exact ⟨f, g, .lost e, hf, hg, nofun, rfl⟩
      · exact ⟨f, id, .answered, hf, leavesContent_closed.id, fun _ => rfl, rfl⟩
      · refine ⟨f, g, .retried, hf, hg, nofun, ?_⟩
        simp only [hdone]
        rfl
  · rintro ⟨f, g, reply, hf, hg, hdirect, rfl⟩
    have hboth := leavesContent_closed.comp hg hf
    have htwice : ∀ {e : PyErr} {sent : Transmission PyErr} (k : Nat), LeavesContent h (twice f g e sent k).before := by
      intro e sent k
      cases k
      · exact hf
      · exact hg
    cases reply with
    | undeleted e =>
      refine ⟨false, once (fun st => g (f st)) (.raised false false e), fun _ => hboth, ?_⟩
      rw [deleteMemory, request, loop_raised rfl]
      rfl
    | unsuccessful =>
      refine ⟨true, once (fun st => g (f st)) .answered, fun _ => hboth, ?_⟩
      rw [deleteMemory, request, loop_answered rfl]
      rfl
    | lost e =>
      refine ⟨false, twice f g e (.raised false false e), htwice, ?_⟩
      rw [deleteMemory, request_twice hretries, loop_raised rfl]
      rfl
    | retried =>
      refine ⟨false, twice f g (.runtimeError "") .answered, htwice, ?_⟩
      have hgone : (g ((f st).remove h)).active h = false := by
        rw [hg.active]
        exact Store.not_active_remove _ h
      rw [deleteMemory, request_twice hretries, loop_answered rfl]
      simp only [twice, Bool.false_eq_true, if_false, remove_inactive hgone, hgone]
      rfl
    | answered =>
      refine ⟨false, once f .answered, fun _ => hf, ?_⟩
      obtain rfl := hdirect rfl
      rw [deleteMemory, request, loop_answered rfl]
      rfl

/-- The row is gone with the first attempt, the second finds none. -/
theorem delete_exact_sample :
    ∃ declined wire, (∀ k, LeavesContent "h" (wire k).before) ∧
      deleteMemory 3 wire "h" declined .empty = (Store.empty.remove "h", .ok false) :=
  (delete_exact (by decide) "h" .empty _).2
    ⟨id, id, .retried, leavesContent_closed.id, leavesContent_closed.id, nofun, rfl⟩

end

/-! ## PUT -/

section
variable {id : String} {maxRetries : Nat}

theorem metadataOnly_closed : Closed (MetadataOnly id) where
  id := fun _ => rfl
  comp := fun hg hf st => (hg _).trans (hf st)

/-- The row with the tags of another. -/
def withTags (tags : List Json) (r : LiveRow) : LiveRow := { r with tags }

/-- What others did to the rows after a PUT, done before it: the row keeps the tags it had. -/
def movedBefore (id : String) (tags : List Json) (delta : Dict) (g : RowStore → RowStore) (st : RowStore) : RowStore := fun id' =>
  if id' = id then (g (st.update id tags delta) id).map (withTags ((st id).elim [] (·.tags)))
  else g (st.update id tags delta) id'

theorem movedBefore_metadataOnly {tags : List Json} {delta : Dict} {g : RowStore → RowStore} (hg : MetadataOnly id g) :
    MetadataOnly id (movedBefore id tags delta g) := by
  intro st
  have hafter := hg (st.update id tags delta)
  rw [movedBefore, if_pos rfl, Option.map_map]
  rw [RowStore.update, if_pos rfl, Option.map_map] at hafter
  cases hr : st id with
  | none =>
    rw [hr, Option.map_none, Option.map_eq_none_iff] at hafter
    rw [hafter]
    rfl
  | some r =>
    rw [hr, Option.map_some] at hafter
    obtain ⟨r', hr', -⟩ := Option.map_eq_some_iff.1 hafter
    rw [hr']
    rfl

/-- **A PUT after a PUT**: the tags are replaced and the metadata merged once more. -/
theorem update_absorbs (tags : List Json) (delta : Dict) (g : RowStore → RowStore) (st : RowStore) :
    (g (st.update id tags delta)).put id tags delta .updated = (movedBefore id tags delta g st).put id tags delta .updated := by
  have hupdate : (g (st.update id tags delta)).update id tags delta = (movedBefore id tags delta g st).update id tags delta := by
    funext id'
    by_cases hid : id' = id
    · subst hid
      simp only [RowStore.update, if_true, movedBefore, Option.map_map]
      rfl
    · simp [RowStore.update, movedBefore, hid]
  have hsome : (movedBefore id tags delta g st id).isSome = (g (st.update id tags delta) id).isSome := by
    simp [movedBefore]
  simp only [RowStore.put, hupdate, hsome]

def PutReply.direct : PutReply → Bool
  | .updated => true
  | _ => false

end

end Panella

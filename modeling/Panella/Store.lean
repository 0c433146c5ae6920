import Panella.Payload

/-!
# The memory store as the adapter sees it (`panella/panella_adapter.py`)

| here | there |
| --- | --- |
| `storedTags` | the tag text of a row: tags joined with commas, split again when read |
| `Store.post` | `POST /api/memories` and what `add_memory` makes of the answer (:404-425) |
| `findActiveHashByMarker` | `find_active_hash_by_marker` (:737-768) |
| `Store.delete` | `DELETE /api/memories/{hash}` and `hard_delete` (:650-659) |

The store is outside the repository. What the code relies on is modelled: active rows with distinct
content hashes, exact deduplication on that hash, and a search by tags. How each request ends is
chosen from outside (`PostReply`, `DeleteReply`): an answer, a retry of a request that had landed, or
an exception on either side of it. A row that is tombstoned, superseded or deleted is not active, and
is gone from the list.
-/

namespace Panella

open PyJson

/-- What the store computes on a content: 64 hex digits, so never an empty text. -/
structure StoreApi where
  contentHash : String → String
  contentHash_ne : ∀ content, contentHash content ≠ ""

structure StoreRow where
  contentHash : String
  hashed : contentHash ≠ ""
  content : String
  tags : List String
  memoryType : String
  metadata : Dict
  /-- Not a column: the approval a finalizer wrote the row for. -/
  writtenFor : Option Nat

/-- The active rows. -/
structure Store where
  rows : List StoreRow
  nodup : (rows.map StoreRow.contentHash).Nodup

/-- One tag as the store keeps it. -/
def storedTag (tag : String) : List String :=
  ((tag.toList.splitOn ',').map fun p => PyText.stripSpace (String.ofList p)).filter (· ≠ "")

/-- The tags of a body as the store keeps them; a finalizer's body has strings only. -/
def storedTags (tags : List Json) : List String :=
  tags.flatMap fun t => match t with | .str s => storedTag s | _ => []

namespace Store

def empty : Store := ⟨[], List.nodup_nil⟩

def active (st : Store) (h : String) : Bool := st.rows.any fun r => r.contentHash = h

/-- A new row; an active content is not stored twice. -/
def insert (st : Store) (row : StoreRow) : Store :=
  if h : st.active row.contentHash then st
  else
    { rows := st.rows ++ [row]
      nodup := by
        simp only [active, List.any_eq_true, not_exists, not_and, decide_eq_true_eq] at h
        rw [List.map_append, List.map_cons, List.map_nil]
        refine List.Nodup.append st.nodup (List.nodup_singleton _) ?_
        rw [List.disjoint_singleton]
        intro hm
        obtain ⟨r, hr, he⟩ := List.mem_map.1 hm
        exact h r hr he }

def remove (st : Store) (h : String) : Store where
  rows := st.rows.filter fun r => r.contentHash ≠ h
  nodup := st.nodup.sublist (List.filter_sublist.map _)

end Store

/-! ## Writing -/

/-- The row a body becomes. -/
def rowOf (api : StoreApi) (body : MemoryBody) (writtenFor : Option Nat) : StoreRow where
  contentHash := api.contentHash body.content
  hashed := api.contentHash_ne body.content
  content := body.content
  tags := storedTags body.tags
  memoryType := body.memoryType
  metadata := body.metadata
  writtenFor := writtenFor

/-- A row as the API returns it. -/
def StoreRow.raw (r : StoreRow) : RawHit := ⟨.str r.contentHash, .str r.content, r.tags.map .str, .str r.memoryType, r.metadata⟩

/-- How a POST ends. -/
inductive PostReply
  /-- It is answered; an exact duplicate is reported with its hash or without. -/
  | answered (disclosed : Bool)
  /-- An earlier attempt of the same call had landed, so the answer reports a duplicate. -/
  | retried (disclosed : Bool)
  /-- It raises and nothing was stored. -/
  | unstored (e : PyErr)
  /-- The row was stored and the call raises: the answer is lost, or has no `content_hash`. -/
  | lost (e : PyErr)

/-- A content that was not there is stored. -/
def PostReply.stores : PostReply → Bool
  | .unstored _ => false
  | .answered _ | .retried _ | .lost _ => true

/-- How `add_memory` ends. -/
inductive AddOutcome
  | stored (contentHash : String)
  /-- `PanellaDedupSkipped`. -/
  | dedupSkipped (existingHash : Option String)
  | raised (e : PyErr)

def Store.post (st : Store) (api : StoreApi) (body : MemoryBody) (writtenFor : Option Nat) (reply : PostReply) :
    Store × AddOutcome :=
  let row := rowOf api body writtenFor
  match reply with
  | .unstored e => (st, .raised e)
  | .lost e => (st.insert row, .raised e)
  | .retried disclosed => (st.insert row, .dedupSkipped (if disclosed then some row.contentHash else none))
  | .answered disclosed =>
    if st.active row.contentHash then (st, .dedupSkipped (if disclosed then some row.contentHash else none))
    else (st.insert row, .stored row.contentHash)

/-! ## Looking up -/

/-- `match_all`. -/
def StoreRow.hasTags (r : StoreRow) (tags : List String) : Bool := tags.all r.tags.contains

/-- The tags `find_active_hash_by_marker` searches by. -/
def markerTags (marker tenantId : String) : List String :=
  if tenantId ≠ "" ∧ tenantId ≠ "*" then [marker, "status:active", "tenant:" ++ tenantId] else [marker, "status:active"]

/-- The hashes of the rows with all the tags. -/
def Store.tagged (st : Store) (tags : List String) : List String :=
  (st.rows.filter fun r => r.hasTags tags).map StoreRow.contentHash

/-- `find_active_hash_by_marker`; the search itself may raise. -/
def findActiveHashByMarker (d : Deployment) (st : Store) (marker tenantId : String) (fault : Option PyErr) :
    Except PyErr (Option String) :=
  match fault with
  | some e => .error e
  | none =>
    match (st.tagged (markerTags marker tenantId)).take 2 with
    | [] => .ok none
    | [h] => .ok (some h)
    | hs =>
      .error (.runtimeError ("find_active_hash_by_marker: marker " ++ d.repr (.str marker) ++ " matched " ++
        toString hs.length ++ " rows: " ++ d.repr (.arr (hs.map .str))))

/-! ## Deleting -/

/-- How a DELETE ends. -/
inductive DeleteReply
  /-- The row is deleted; 404 where there is none. -/
  | answered
  /-- HTTP 200 with `success: false`, and the row stays. -/
  | unsuccessful
  /-- An earlier attempt of the same call had landed, so the answer is 404. -/
  | retried
  /-- It raises and nothing was deleted. -/
  | undeleted (e : PyErr)
  /-- The row is deleted and the call raises. -/
  | lost (e : PyErr)

/-- The store after a DELETE, and what `hard_delete` returns or raises. -/
def Store.delete (st : Store) (h : String) : DeleteReply → Store × Except PyErr Bool
  | .answered => (st.remove h, .ok (st.active h))
  | .unsuccessful => (st, .ok false)
  | .retried => (st.remove h, .ok false)
  | .undeleted e => (st, .error e)
  | .lost e => (st.remove h, .error e)

/-! ## Lemmas -/

namespace Store

theorem active_iff {st : Store} {h : String} : st.active h = true ↔ ∃ r ∈ st.rows, r.contentHash = h := by
  simp [active]

/-- A content hash is a key. -/
theorem eq_of_hash {st : Store} {a b : StoreRow} (ha : a ∈ st.rows) (hb : b ∈ st.rows) (h : a.contentHash = b.contentHash) :
    a = b :=
  List.inj_on_of_nodup_map st.nodup ha hb h

theorem mem_insert {st : Store} {row r : StoreRow} :
    r ∈ (st.insert row).rows ↔ r ∈ st.rows ∨ (r = row ∧ st.active row.contentHash = false) := by
  unfold insert
  by_cases h : st.active row.contentHash = true
  · simp [h]
  · simp [h]

theorem mem_remove {st : Store} {h : String} {r : StoreRow} :
    r ∈ (st.remove h).rows ↔ r ∈ st.rows ∧ r.contentHash ≠ h := by
  simp [remove]

theorem not_active_remove (st : Store) (h : String) : (st.remove h).active h = false := by
  rw [← Bool.not_eq_true, active_iff]
  rintro ⟨r, hr, he⟩
  exact (mem_remove.1 hr).2 he

theorem mem_tagged {st : Store} {tags : List String} {h : String} :
    h ∈ st.tagged tags ↔ ∃ r ∈ st.rows, r.hasTags tags = true ∧ r.contentHash = h := by
  simp [tagged, and_assoc]

theorem nodup_tagged (st : Store) (tags : List String) : (st.tagged tags).Nodup :=
  st.nodup.sublist (List.filter_sublist.map _)

/-- **What a POST can do to the rows**: nothing, or add the one row under a hash that was free. -/
theorem mem_post {st : Store} {api : StoreApi} {body : MemoryBody} {w : Option Nat} {reply : PostReply} {r : StoreRow}
    (h : r ∈ (st.post api body w reply).1.rows) :
    r ∈ st.rows ∨ (r = rowOf api body w ∧ st.active (rowOf api body w).contentHash = false) := by
  cases reply with
  | unstored e => exact .inl h
  | lost e => exact mem_insert.1 h
  | retried disclosed => exact mem_insert.1 h
  | answered disclosed =>
    unfold post at h
    simp only at h
    split at h
    · exact .inl h
    · exact mem_insert.1 h

/-- A POST that stores, stores its row. -/
theorem mem_post_self {st : Store} {api : StoreApi} {body : MemoryBody} {w : Option Nat} {reply : PostReply}
    (hs : reply.stores = true) (hfree : st.active (rowOf api body w).contentHash = false) :
    rowOf api body w ∈ (st.post api body w reply).1.rows := by
  have hins : rowOf api body w ∈ (st.insert (rowOf api body w)).rows := mem_insert.2 (.inr ⟨rfl, hfree⟩)
  cases reply with
  | unstored e => cases hs
  | lost e => exact hins
  | retried disclosed => exact hins
  | answered disclosed =>
    unfold post
    simp only [hfree, Bool.false_eq_true, if_false]
    exact hins

/-- A POST keeps what is there. -/
theorem mem_post_of_mem {st : Store} {api : StoreApi} {body : MemoryBody} {w : Option Nat} (reply : PostReply) {r : StoreRow}
    (h : r ∈ st.rows) : r ∈ (st.post api body w reply).1.rows := by
  cases reply with
  | unstored e => exact h
  | lost e => exact mem_insert.2 (.inl h)
  | retried disclosed => exact mem_insert.2 (.inl h)
  | answered disclosed =>
    unfold post
    simp only
    split
    · exact h
    · exact mem_insert.2 (.inl h)

/-- The hashes `add_memory` reports are the body's. -/
theorem post_hash {st : Store} {api : StoreApi} {body : MemoryBody} {w : Option Nat} {reply : PostReply} {h : String}
    (ho : (st.post api body w reply).2 = .stored h ∨ (st.post api body w reply).2 = .dedupSkipped (some h)) :
    h = api.contentHash body.content := by
  cases reply with
  | unstored e => rcases ho with ho | ho <;> cases ho
  | lost e => rcases ho with ho | ho <;> cases ho
  | retried disclosed =>
    cases disclosed <;> rcases ho with ho | ho <;> cases ho
    rfl
  | answered disclosed =>
    unfold post at ho
    simp only at ho
    split at ho
    · cases disclosed <;> rcases ho with ho | ho <;> cases ho
      rfl
    · rcases ho with ho | ho <;> cases ho
      rfl

/-- A DELETE only takes rows away. -/
theorem mem_delete {st : Store} {h : String} {reply : DeleteReply} {r : StoreRow} (hr : r ∈ (st.delete h reply).1.rows) :
    r ∈ st.rows := by
  cases reply with
  | unsuccessful => exact hr
  | undeleted e => exact hr
  | answered => exact (mem_remove.1 hr).1
  | retried => exact (mem_remove.1 hr).1
  | lost e => exact (mem_remove.1 hr).1

/-- A DELETE that returns has taken the row away, unless it was answered `success: false`. -/
theorem delete_ok {st : Store} {h : String} {reply : DeleteReply} {b : Bool} (hb : (st.delete h reply).2 = .ok b)
    (hr : reply = .unsuccessful → st.active h = false) : (st.delete h reply).1.active h = false := by
  cases reply with
  | unsuccessful => exact hr rfl
  | undeleted e => cases hb
  | answered => exact not_active_remove st h
  | retried => exact not_active_remove st h
  | lost e => cases hb

end Store

/-- A lookup that finds one hash finds the only row with the tags. -/
theorem findActiveHashByMarker_ok {d : Deployment} {st : Store} {marker tenantId : String} {fault : Option PyErr}
    {o : Option String} (h : findActiveHashByMarker d st marker tenantId fault = .ok o) :
    st.tagged (markerTags marker tenantId) = o.toList := by
  unfold findActiveHashByMarker at h
  split at h
  · cases h
  · split at h
    · rename_i ht
      cases h
      simpa using ht
    · rename_i x ht
      cases h
      cases hl : st.tagged (markerTags marker tenantId) with
      | nil => rw [hl] at ht; cases ht
      | cons y ys =>
        cases ys with
        | nil => rw [hl] at ht; simpa using ht
        | cons z zs => rw [hl] at ht; simp at ht
    · cases h

/-- A row with the tags is the one a lookup finds. -/
theorem lookup_finds {d : Deployment} {st : Store} {marker tenantId : String} {fault : Option PyErr} {o : Option String}
    (h : findActiveHashByMarker d st marker tenantId fault = .ok o) {r : StoreRow} (hr : r ∈ st.rows)
    (ht : r.hasTags (markerTags marker tenantId) = true) : o = some r.contentHash := by
  have hm : r.contentHash ∈ st.tagged (markerTags marker tenantId) := Store.mem_tagged.2 ⟨r, hr, ht, rfl⟩
  rw [findActiveHashByMarker_ok h] at hm
  cases o with
  | none => simp at hm
  | some x => simp at hm; rw [hm]

/-- A tag without commas or blanks at its ends is kept. -/
theorem mem_storedTag {tag : String} (hc : ',' ∉ tag.toList) (hs : PyText.stripSpace tag = tag) (hne : tag ≠ "") :
    tag ∈ storedTag tag := by
  have hsplit : tag.toList.splitOn ',' = [tag.toList] := by
    refine List.splitOnP_eq_singleton fun x hx => ?_
    rw [beq_eq_false_iff_ne]
    intro he
    exact hc (he ▸ hx)
  rw [storedTag, hsplit]
  simp [hs, hne]

theorem mem_storedTags {tags : List Json} {tag : String} (ht : Json.str tag ∈ tags) (hc : ',' ∉ tag.toList)
    (hs : PyText.stripSpace tag = tag) (hne : tag ≠ "") : tag ∈ storedTags tags :=
  List.mem_flatMap.2 ⟨.str tag, ht, mem_storedTag hc hs hne⟩

def sampleStoreApi : StoreApi := ⟨fun content => "sha256:" ++ content, fun content => by simp⟩

end Panella

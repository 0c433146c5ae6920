import Panella.Reads

/-!
# Mutations of a row (`panella/client.py`, `panella/panella_adapter.py`)

| here | there |
| --- | --- |
| `LiveRow`, `RowStore` | a row as `GET /api/memories/{id}` returns it; the rows by id |
| `TagTransition`, `attempt`, `tagTransition` | `_tag_transition` (:508-580), one turn of its loop |
| `tombstoneTransition`, `supersedeTransition`, `ensureTagTransition` | what `tombstone`, `supersede` and `ensure_tag` pass to it (:582-648) |
| `requireMutationTargetOwned` | `_require_mutation_target_owned` (`client.py` :974-1000) |
| `mutate`, `tombstone`, `supersede` | `MemoryClient.tombstone`, `supersede` (:430-491) |

Other writers may do anything to the store between a GET and its PUT (`AttemptReplies.others`), and any of the three
requests of an attempt may fail, the PUT before or after it landed.
-/

namespace Panella

open PyJson

/-! ## Rows by id -/

/-- A row, as the store's API renders it. -/
structure LiveRow extends RawHit where
  createdAt : Json
  createdAtIso : Json

/-- The JSON object of a row. -/
def LiveRow.json (r : LiveRow) : Dict :=
  [("content_hash", r.contentHash), ("content", r.content), ("tags", .arr r.tags), ("memory_type", r.memoryType),
   ("metadata", .obj r.metadata), ("created_at", r.createdAt), ("created_at_iso", r.createdAtIso)]

abbrev RowStore : Type := String → Option LiveRow

/-- The answer to a GET, which may fail whatever the rows are. -/
def RowStore.reply (st : RowStore) (fault : Option ClientErr) (id : String) : GetReply :=
  match fault with
  | some e => .failed e
  | none =>
    match st id with
    | none => .notFound
    | some r => .body (.obj r.json)

/-- `r`, normalized. -/
def LiveRow.hit {F : Type} (d : Deployment) (r : LiveRow) : ReadHit F :=
  { normalizeHit d r.toRawHit with createdAt := r.createdAt, createdAtIso := r.createdAtIso, score := none }

theorem toDict_obj (m : Dict) : toDict (.obj m) = .ok m := by
  cases m <;> rfl

theorem listOrEmpty_arr (ts : List Json) : listOrEmpty (.arr ts) = .ok ts := by
  cases ts <;> rfl

/-- **The adapter reads a row back as the row it is.** -/
theorem normalize_json {F : Type} (d : Deployment) (r : LiveRow) : d.normalize (F := F) r.json = .ok (r.hit d) := by
  have hread : readRow r.json = .ok r.toRawHit := by
    change (do
      let metadata ← toDict (.obj r.metadata)
      let tags ← listOrEmpty (.arr r.tags)
      (.ok ⟨r.contentHash, r.content, tags, r.memoryType, metadata⟩ : Except PyErr RawHit)) = _
    rw [toDict_obj, listOrEmpty_arr]
    rfl
  rw [Deployment.normalize, hread]
  rfl

theorem getDrawer_reply {F : Type} (d : Deployment) (st : RowStore) (id : String) :
    getDrawer (F := F) d (st.reply none id) = .ok ((st id).map (LiveRow.hit d)) := by
  cases h : st id with
  | none => simp only [RowStore.reply, h]; rfl
  | some r =>
    simp only [RowStore.reply, h]
    change (if Dict.has r.json "content_hash" then ((d.normalize r.json).mapError ClientErr.py).map some else .ok none) = _
    rw [if_pos (by simp [Dict.has, LiveRow.json]), normalize_json]
    rfl

/-! ## One status transition -/

/-- `_utcnow_iso()`, which is never empty. -/
structure UtcIso where
  text : String
  nonempty : text ≠ ""

def sampleUtcIso : UtcIso := ⟨"2026-01-01T00:00:00+00:00", by decide⟩

structure TagTransition where
  dropTags : List String
  addTags : List String
  /-- `meta_delta_fn`, which may read the clock. -/
  metaDelta : UtcIso → Dict → Dict

/-- How a PUT ends. -/
inductive PutReply
  | updated
  /-- HTTP 200 with `success: false`, and the row stays. -/
  | unsuccessful
  /-- It raises and nothing was updated. -/
  | refused (e : ClientErr)
  /-- The row is updated and the call raises. -/
  | lost (e : ClientErr)

/-- What happens around the three requests of one attempt. -/
structure AttemptReplies where
  now : UtcIso
  get : Option ClientErr
  /-- Writes of others between the GET and the PUT. -/
  others : RowStore → RowStore
  put : PutReply
  verify : Option ClientErr

/-- `PUT /api/memories/{id}`: tags are replaced, metadata is merged. -/
def RowStore.update (st : RowStore) (id : String) (tags : List Json) (delta : Dict) : RowStore := fun id' =>
  if id' = id then (st id).map fun r => { r with tags, metadata := Dict.merge r.metadata delta } else st id'

/-- The store after the PUT, and `success` or what it raises. -/
def RowStore.put (st : RowStore) (id : String) (tags : List Json) (delta : Dict) : PutReply → RowStore × Except ClientErr Bool
  | .updated => (st.update id tags delta, if (st id).isSome then .ok true else .error (.http "404 Not Found"))
  | .unsuccessful => (st, .ok false)
  | .refused e => (st, .error e)
  | .lost e => (st.update id tags delta, .error e)

/-- `t in tags`. -/
def Deployment.tagIn (d : Deployment) (tags : List Json) (t : Json) : Bool := tags.any (d.tagEq t)

/-- The re-GET: `some` is whether the transition landed. -/
def verified (d : Deployment) (tr : TagTransition) (kept : List Json) (st : RowStore) (id : String) :
    Option ClientErr → Except ClientErr Bool
  | some e => .error e
  | none =>
    match st id with
    | none => .error (.http "404 Not Found")
    | some r =>
      .ok ((tr.addTags.all fun t => d.tagIn r.tags (.str t)) && !(tr.dropTags.any fun t => d.tagIn r.tags (.str t)) &&
        kept.all (d.tagIn r.tags))

/-- How one attempt ends. -/
inductive AttemptEnd
  | notFound
  | landed
  /-- The next attempt starts. -/
  | again
  | raised (e : ClientErr)

/-- One turn of the loop. -/
def attempt (d : Deployment) (tr : TagTransition) (id : String) (replies : AttemptReplies) (st : RowStore) :
    RowStore × AttemptEnd :=
  match replies.get with
  | some e => (st, .raised e)
  | none =>
    match st id with
    | none => (st, .notFound)
    | some r =>
      let kept := r.tags.filter fun t => !tr.dropTags.any fun s => d.tagEq t (.str s)
      match d.fromKeys [] (kept ++ tr.addTags.map .str) with
      | .error e => (st, .raised (.py e))
      | .ok newTags =>
        let (st, done) := (replies.others st).put id newTags (tr.metaDelta replies.now r.metadata) replies.put
        match done with
        | .error e => (st, .raised e)
        | .ok false => (st, .again)
        | .ok true =>
          match verified d tr kept st id replies.verify with
          | .error e => (st, .raised e)
          | .ok true => (st, .landed)
          | .ok false => (st, .again)

/-- `_tag_transition`, from under the lock; `replies` are those of the attempts left. -/
def tagTransition (d : Deployment) (tr : TagTransition) (id : String) :
    List AttemptReplies → RowStore → RowStore × Except ClientErr Bool
  | [], st => (st, .ok false)
  | replies :: rest, st =>
    match attempt d tr id replies st with
    | (st, .notFound) => (st, .ok false)
    | (st, .landed) => (st, .ok true)
    | (st, .raised e) => (st, .error e)
    | (st, .again) => tagTransition d tr id rest st

/-- `PanellaAdapter.tombstone`. -/
def tombstoneTransition (reason principalId : String) : TagTransition where
  dropTags := ["status:active"]
  addTags := ["status:tombstoned"]
  metaDelta now _ :=
    [("status", .str "tombstoned"), ("tombstoned_at", .str now.text), ("tombstone_reason", .str reason),
     ("tombstoned_by", .str (if principalId = "" then "unknown" else principalId))]

/-- `PanellaAdapter.supersede`. -/
def supersedeTransition (reason : String) (supersededBy : Option String) : TagTransition where
  dropTags := ["status:active"]
  addTags := ["status:superseded"]
  metaDelta now existing :=
    [("status", .str "superseded"), ("valid_to", (Dict.get existing "valid_to").orElse (.str now.text)),
     ("superseded_reason", .str reason), ("superseded_by_ref", .ofOption supersededBy)]

/-- `PanellaAdapter.ensure_tag`. -/
def ensureTagTransition (tag : String) : TagTransition where
  dropTags := []
  addTags := [tag]
  metaDelta _ _ := []

/-! ## The client -/

/-- The readings of the clock: `_enforce_break_glass_ttl`, `_tenant_ids`, `_audit_if_cross_tenant`, the audit row. -/
structure MutationClock where
  ttl : Instant
  scope : Instant
  audit : Instant
  tsIso : String

/-- The end of `_require_mutation_target_owned`, for the row it looked up. -/
def ownershipOf (pr : Principal) (ids : List String) (drawerId : String) : Option Hit → Except ClientErr Bool
  | none => .ok false
  | some target =>
    if ids.contains target.tenantId then .ok true
    else
      .error (.py (.permissionError ("principal " ++ pr.id ++ " (tenant " ++ pr.tenantId ++ ") cannot mutate drawer " ++
        drawerId ++ " owned by tenant " ++ target.tenantId)))

/-- `_require_mutation_target_owned`; `reply` is the store's answer to its GET. -/
def requireMutationTargetOwned (d : Deployment) (p : AgentProfile) (pr : Principal) (now : Instant) (reply : GetReply)
    (drawerId : String) : Except ClientErr Bool := do
  let ids ← (tenantIds p pr now).mapError .py
  if ids.contains "*" then .ok true
  else
    -- The floats of a hit play no part here.
    let target ← getDrawer (F := Unit) d reply
    ownershipOf pr ids drawerId (target.map (·.toHit))

/-- A row of `memory_history`, which `append_history` writes or fails to write in silence. -/
structure HistoryEntry where
  op : String
  drawerId : String
  tenantId : String
  principalId : String
  reason : String
  supersededBy : Option String

/-- The end of a mutation: the rows, what it committed to the audit log and handed to `append_history`, and its value. -/
structure Mutated where
  store : RowStore
  audit : Option AuditWrite
  history : Option HistoryEntry
  result : Except ClientErr Bool

/-- What happens around the requests of a mutation. -/
structure MutationReplies where
  /-- The GET of the ownership check. -/
  owned : Option ClientErr
  /-- `tag_lock` raises. -/
  lock : Option ClientErr
  /-- The attempts, of which there are two. -/
  first : AttemptReplies
  second : AttemptReplies

/-- No request fails, and nobody else writes. -/
def calmReplies : MutationReplies where
  owned := none
  lock := none
  first := ⟨sampleUtcIso, none, id, .updated, none⟩
  second := ⟨sampleUtcIso, none, id, .updated, none⟩

/-- The checks both mutations make before they look a row up. -/
def mutationGate (pr : Principal) (clk : MutationClock) (op reason : String) : Except ClientErr Unit := do
  (pr.requireScope "memory.write").mapError .py
  (pr.requireActiveBreakGlass clk.ttl).mapError .py
  if PyText.stripSpace reason = "" then .error (.py (.valueError (op ++ " reason is required"))) else .ok ()

/-- `self.adapter.tombstone(...)`, `self.adapter.supersede(...)`. -/
def transitionCall (d : Deployment) (tr : TagTransition) (id : String) (replies : MutationReplies) (st : RowStore) :
    RowStore × Except ClientErr Bool :=
  match replies.lock with
  | some e => (st, .error e)
  | none => tagTransition d tr id [replies.first, replies.second] st

/-- `tombstone` and `supersede`, with the transition and the details of the audit row. -/
def mutate (d : Deployment) (p : AgentProfile) (pr : Principal) (clk : MutationClock) (sink : AuditSink) (op reason : String)
    (supersededBy : Option String) (tr : TagTransition) (details : Dict) (wf : WF (.obj details)) (replies : MutationReplies)
    (drawerId : String) (st : RowStore) : Mutated :=
  match mutationGate pr clk op reason with
  | .error e => ⟨st, none, none, .error e⟩
  | .ok () =>
    match requireMutationTargetOwned d p pr clk.scope (st.reply replies.owned drawerId) drawerId with
    | .error e => ⟨st, none, none, .error e⟩
    | .ok false => ⟨st, none, none, .ok false⟩
    | .ok true =>
      let (st, done) := transitionCall d tr drawerId replies st
      match done with
      | .error e => ⟨st, none, none, .error e⟩
      | .ok ok =>
        match auditIfCrossTenant sink pr clk.audit (crossTenantWrite pr clk.tsIso op "*" (some drawerId) details wf) with
        | .error e => ⟨st, none, none, .error e⟩
        | .ok audit =>
          let entry : HistoryEntry := ⟨op, drawerId, pr.tenantId, pr.id, reason, supersededBy⟩
          ⟨st, audit, if ok then some entry else none, .ok ok⟩

def tombstoneDetails (reason : String) : Dict := [("reason", .str reason), ("hard_delete", .bool false)]

theorem wf_tombstoneDetails (reason : String) : WF (.obj (tombstoneDetails reason)) :=
  wf_obj_iff.2 ⟨by simp only [tombstoneDetails, List.map_cons, List.map_nil]; decide, by simp [tombstoneDetails, WF]⟩

/-- `MemoryClient.tombstone`. -/
def tombstone (d : Deployment) (p : AgentProfile) (pr : Principal) (clk : MutationClock) (sink : AuditSink)
    (replies : MutationReplies) (drawerId reason : String) (st : RowStore) : Mutated :=
  mutate d p pr clk sink "tombstone" reason none (tombstoneTransition reason pr.id) (tombstoneDetails reason)
    (wf_tombstoneDetails reason) replies drawerId st

def supersedeDetails (reason : String) (supersededBy : Option String) : Dict :=
  [("reason", .str reason), ("superseded_by", .ofOption supersededBy), ("hard_delete", .bool false)]

theorem wf_supersedeDetails (reason : String) (supersededBy : Option String) :
    WF (.obj (supersedeDetails reason supersededBy)) := by
  refine wf_obj_iff.2 ⟨by simp only [supersedeDetails, List.map_cons, List.map_nil]; decide, fun kv hkv => ?_⟩
  simp only [supersedeDetails, List.mem_cons, List.not_mem_nil, or_false] at hkv
  rcases hkv with rfl | rfl | rfl <;> first | exact wf_ofOption _ | trivial

/-- `MemoryClient.supersede`. -/
def supersede (d : Deployment) (p : AgentProfile) (pr : Principal) (clk : MutationClock) (sink : AuditSink)
    (replies : MutationReplies) (drawerId reason : String) (supersededBy : Option String) (st : RowStore) : Mutated :=
  mutate d p pr clk sink "supersede" reason supersededBy (supersedeTransition reason supersededBy)
    (supersedeDetails reason supersededBy) (wf_supersedeDetails reason supersededBy) replies drawerId st

end Panella

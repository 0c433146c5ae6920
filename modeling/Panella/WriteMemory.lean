import Panella.Outbox
import Panella.Reads
import Panella.Store

/-!
# `MemoryClient.write`, to its end (`panella/client.py:212-419`)

| here | there |
| --- | --- |
| `writeArguments`, `writeTarget` | the checks before `_enforce_write_quota` and the checks after it |
| `WriteCount` | `_write_timestamps` and today's counter, which `_enforce_write_quota` prunes and `_record_write` adds to |
| `queueWrite`, `handOver`, `settleWrite` | the approval gate, the call of the adapter, and what follows it |
| `writeMemory` | `write` |

`prepareWrite` reads the clock once; here each reading is an instant of its own (`WriteReadings`), and with equal readings
the two make the same checks (`prepareWrite_stages`). The store is a function of the body, so it may do anything to its
rows and end in any way.
-/

namespace Panella

open PyJson

/-! ## State and readings -/

/-- A profile with what the end of `write` uses of it. -/
structure WriteProfile extends AgentProfile where
  quotaCountsDedup : Bool

/-- Today's counter of the profile's writes, and the times of this client's writes. -/
structure WriteCount where
  writesToday : Int
  writeTimestamps : List Rat

namespace WriteCount

/-- What `_enforce_write_quota` reads at a time. -/
def at' (n : WriteCount) (now : Rat) : QuotaState := ⟨n.writesToday, now, n.writeTimestamps⟩

/-- What `_enforce_write_quota` leaves: a spent day raises before the old timestamps are dropped. -/
def enforced (n : WriteCount) (p : AgentProfile) (now : Rat) : WriteCount :=
  if n.writesToday ≥ p.writeQuota.dailyMaxDrawers then n
  else { n with writeTimestamps := n.writeTimestamps.filter fun ts => now - ts < 60 }

/-- `_record_write`. -/
def record (n : WriteCount) (now : Rat) : WriteCount := ⟨n.writesToday + 1, n.writeTimestamps ++ [now]⟩

end WriteCount

/-- What a write changes besides the audit log. -/
structure ClientState where
  store : Store
  outbox : Outbox
  count : WriteCount

/-- The readings of the clock: `_enforce_break_glass_ttl` (`now`), `_tenant_ids` and `is_root_with_break_glass` in
`_resolve_write_tenant_id`, `_audit_if_cross_tenant`; those of `self.clock()`, and the texts of the rows. -/
structure WriteReadings extends WriteClock where
  scope : Instant
  requested : Instant
  audit : Instant
  quota : Rat
  recorded : Rat
  createdAt : String
  tsIso : String

/-- The store and the outbox, as a write meets them. -/
structure WriteReplies where
  /-- The insert into `approval_queue` raises. -/
  enqueueFault : Option ClientErr
  /-- `POST /api/memories`: the store after it, and how `add_memory` ends. -/
  post : Store → MemoryBody → Store × AddOutcome

/-- What `write` raises. -/
inductive WriteErr
  | client (e : ClientErr)
  /-- `PanellaDedupSkipped`. -/
  | dedupSkipped (existingHash : Option String)

/-- `WriteResult`. -/
structure WriteResult where
  drawerId : String
  wing : String
  room : String
  queuedForApproval : Bool
  approvalId : Option Nat
  dedupSkipped : Bool
  dedupExistingHash : Option String
  op : String

/-! ## The checks -/

/-- `_resolve_write_tenant_id`, with a reading for each look at the token. -/
def resolveWriteTenantIdAt (d : Deployment) (p : AgentProfile) (pr : Principal) (scope requestedAt : Instant)
    (requested : Json) : Except PyErr String := do
  let ids ← tenantIds p pr scope
  let writeTenant := if "*" ∈ ids then d.defaultTenantId else ids.headD ""
  if !requested.truthy then .ok writeTenant
  else if pr.isRootWithBreakGlass requestedAt then .ok (d.str requested)
  else if d.str requested ≠ writeTenant then
    .error (.permissionError ("principal " ++ pr.id ++ " cannot write tenant " ++ d.str requested))
  else .ok writeTenant

/-- The checks of the arguments, before the quota; the value is `infer`. -/
def writeArguments (d : Deployment) (p : AgentProfile) (pr : Principal) (now : Instant) (c : WriteCall) : Except PyErr Bool := do
  pr.requireScope "memory.write"
  pr.requireActiveBreakGlass now
  checkConversationId d p c.conversationId
  checkFinalizerOnly p
  let infer ← readInfer (Dict.erase c.metadata "raise_dedup_skipped")
  checkMemoryType p c.memoryType
  .ok infer

/-- The checks after the quota; the value is the tenant. -/
def writeTarget (d : Deployment) (p : AgentProfile) (pr : Principal) (scope requestedAt : Instant) (c : WriteCall) :
    Except PyErr String := do
  checkWriteAllowlist p (effectiveWing d p c) (effectiveRoom p c)
  resolveWriteTenantIdAt d p pr scope requestedAt (Dict.get (callerMetadata c) "tenant_id")

/-- The row that passed the checks. -/
def preparedRow (d : Deployment) (p : AgentProfile) (pr : Principal) (clk : WriteClock) (c : WriteCall) (tenantId : String)
    (infer : Bool) : PreparedWrite where
  wing := effectiveWing d p c
  room := effectiveRoom p c
  content := d.sanitize c.content
  memoryType := c.memoryType
  drawerId := deterministicMemoryId (effectiveWing d p c) (effectiveRoom p c) (d.sanitize c.content)
  tenantId
  metadata := payloadMetadata p pr clk c tenantId infer

/-- **The stages are `prepareWrite`**, where the clock stands still. -/
theorem prepareWrite_stages (d : Deployment) (p : AgentProfile) (pr : Principal) (q : QuotaState) (clk : WriteClock)
    (c : WriteCall) :
    prepareWrite d p pr q clk c = (do
      let infer ← writeArguments d p pr clk.now c
      enforceWriteQuota p q
      let tenantId ← writeTarget d p pr clk.now clk.now c
      .ok (preparedRow d p pr clk c tenantId infer)) := by
  unfold prepareWrite writeArguments writeTarget
  simp only [bind_assoc]
  rfl

/-! ## The write -/

/-- The details of the audit row of a queued write. -/
def queuedDetails : Dict := [("queued_for_approval", .bool true)]

theorem wf_queuedDetails : WF (.obj queuedDetails) := wf_obj_iff.2 ⟨by decide, by simp [queuedDetails, WF]⟩

/-- The details of the audit row of a write that reached the store. -/
def storedDetails (skipped : Bool) : Dict := [("queued_for_approval", .bool false), ("dedup_skipped", .bool skipped)]

theorem wf_storedDetails (skipped : Bool) : WF (.obj (storedDetails skipped)) :=
  wf_obj_iff.2 ⟨by simp only [storedDetails, List.map_cons, List.map_nil]; decide, by simp [storedDetails, WF]⟩

/-- The row of `memory_history` of a write. -/
def writeHistory (pr : Principal) (a : PreparedWrite) (op drawerId : String) (detailsJson : Option String) : HistoryRow :=
  { op, drawerId, tenantId := a.tenantId, principalId := some pr.id, wing := some a.wing, room := some a.room, reason := none,
    detailsJson }

/-- The branch of the approval gate. -/
def queueWrite (d : Deployment) (p : WriteProfile) (pr : Principal) (sink : AuditSink) (r : WriteReadings)
    (replies : WriteReplies) (a : PreparedWrite) (s : ClientState) : ClientState × Except WriteErr (Served WriteResult) :=
  match d.dumps (.obj (a.candidate p.name)) with
  | .error e => (s, .error (.client (.py e)))
  | .ok candidateJson =>
    match replies.enqueueFault with
    | some e => (s, .error (.client e))
    | none =>
      let approvalId := s.outbox.approvals.nextId
      let s := { s with
        outbox := enqueueApproval s.outbox candidateJson r.createdAt (some p.name), count := s.count.record r.recorded }
      match auditIfCrossTenant sink pr r.audit
          (crossTenantWrite pr r.tsIso "write" a.tenantId (some a.drawerId) queuedDetails wf_queuedDetails) with
      | .error e => (s, .error (.client e))
      | .ok audit =>
        ({ s with outbox := s.outbox.appendHistory (writeHistory pr a "queued_for_approval" a.drawerId none) },
          .ok ⟨⟨a.drawerId, a.wing, a.room, true, some approvalId, false, none, "queued_for_approval"⟩, audit⟩)

/-- `dedup_details`. -/
def dedupDetails (d : Deployment) (existingHash : Option String) : Option String :=
  (d.dumps (.obj
    [("dedup_existing_hash", .ofOption existingHash),
     ("drawer_id_kind", .str (if existingHash.getD "" = "" then "local_fallback" else "upstream_content_hash"))])).toOption

/-- What follows the call of the adapter. -/
def settleWrite (d : Deployment) (p : WriteProfile) (pr : Principal) (sink : AuditSink) (r : WriteReadings)
    (a : PreparedWrite) (writtenId : String) (skipped : Bool) (existingHash : Option String) (s : ClientState) :
    ClientState × Except WriteErr (Served WriteResult) :=
  let s := if skipped && !p.quotaCountsDedup then s else { s with count := s.count.record r.recorded }
  match auditIfCrossTenant sink pr r.audit
      (crossTenantWrite pr r.tsIso "write" a.tenantId (some writtenId) (storedDetails skipped) (wf_storedDetails skipped)) with
  | .error e => (s, .error (.client e))
  | .ok audit =>
    let op := if skipped then "dedup_skipped" else "stored"
    ({ s with
        outbox := s.outbox.appendHistory
          (writeHistory pr a op writtenId (if skipped then dedupDetails d existingHash else none)) },
      .ok ⟨⟨writtenId, a.wing, a.room, false, none, skipped, existingHash, op⟩, audit⟩)

/-- The call of the adapter. -/
def handOver (d : Deployment) (p : WriteProfile) (pr : Principal) (sink : AuditSink) (r : WriteReadings)
    (replies : WriteReplies) (c : WriteCall) (a : PreparedWrite) (s : ClientState) :
    ClientState × Except WriteErr (Served WriteResult) :=
  match addMemoryBody d a.wing a.room a.content a.metadata true c.conversationId with
  | .error e => (s, .error (.client (.py e)))
  | .ok body =>
    let out := replies.post s.store body
    let s := { s with store := out.1 }
    match out.2 with
    | .raised e => (s, .error (.client (.py e)))
    | .stored contentHash => settleWrite d p pr sink r a (if contentHash = "" then a.drawerId else contentHash) false none s
    | .dedupSkipped existingHash =>
      if (Dict.getD c.metadata "raise_dedup_skipped" (.bool false)).truthy then (s, .error (.dedupSkipped existingHash))
      else settleWrite d p pr sink r a ((existingHash.filter (· ≠ "")).getD a.drawerId) true existingHash s

/-- What follows the checks. -/
def commitPrepared (d : Deployment) (p : WriteProfile) (pr : Principal) (sink : AuditSink) (r : WriteReadings)
    (replies : WriteReplies) (c : WriteCall) (a : PreparedWrite) (s : ClientState) :
    ClientState × Except WriteErr (Served WriteResult) :=
  if approvalRequired p.toAgentProfile a.wing a.room then queueWrite d p pr sink r replies a s
  else handOver d p pr sink r replies c a s

/-- `write`. -/
def writeMemory (d : Deployment) (p : WriteProfile) (pr : Principal) (sink : AuditSink) (r : WriteReadings)
    (replies : WriteReplies) (c : WriteCall) (s : ClientState) : ClientState × Except WriteErr (Served WriteResult) :=
  match writeArguments d p.toAgentProfile pr r.now c with
  | .error e => (s, .error (.client (.py e)))
  | .ok infer =>
    let counted := { s with count := s.count.enforced p.toAgentProfile r.quota }
    match enforceWriteQuota p.toAgentProfile (s.count.at' r.quota) with
    | .error e => (counted, .error (.client (.py e)))
    | .ok () =>
      match writeTarget d p.toAgentProfile pr r.scope r.requested c with
      | .error e => (counted, .error (.client (.py e)))
      | .ok tenantId =>
        commitPrepared d p pr sink r replies c (preparedRow d p.toAgentProfile pr r.toWriteClock c tenantId infer) counted

end Panella

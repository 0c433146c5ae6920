import Mathlib.Data.List.Sort
import Mathlib.Data.List.Dedup
import Panella.Lib.Table
import Panella.Payload

/-!
# The outbox database and the approval operations (`panella/client_raw.py`)

| here | there |
| --- | --- |
| `ApprovalRow`, `MemoryEvent`, `HistoryRow` | `approval_queue`, `memory_events`, `memory_history` (`memory_outbox_schema.sql`) |
| `approveInConn` | `_approve_in_conn` (:220-330) |
| `approveQueuedCandidate`, `approveAuthorizedTelegramCandidate`, `mcpApproveOrRedrive` | :333-348, :366-442, :462-555 |
| `updateApprovalStatus`, `deferQueuedCandidate`, `resurfaceDeferredApprovals` | :831-916 |
| `enqueueApproval` | the insert of `MemoryClient._enqueue_approval` (`client.py` :1129-1152) |

Each function is one `BEGIN IMMEDIATE` transaction, so it is a function of the database; one that
raises rolls back and changes nothing. An `UPDATE` with a `WHERE` is a guarded update of one row.
-/

namespace Panella

open PyJson

inductive ApprovalStatus
  | pending
  | pendingApproval
  | deferred
  | approved
  | rejected
deriving DecidableEq, Repr

def ApprovalStatus.text : ApprovalStatus → String
  | .pending => "pending"
  | .pendingApproval => "pending_approval"
  | .deferred => "deferred"
  | .approved => "approved"
  | .rejected => "rejected"

/-- `finalizer_state`, where it is not NULL. -/
inductive FinalizerState
  | none
  | finalizing
  | finalized
  | failed
  | rtbfDeleting
deriving DecidableEq, Repr

def FinalizerState.text : FinalizerState → String
  | .none => "none"
  | .finalizing => "finalizing"
  | .finalized => "finalized"
  | .failed => "failed"
  | .rtbfDeleting => "rtbf_deleting"

/-- A row of `approval_queue`, without its id and the columns no modelled function reads. -/
structure ApprovalRow where
  candidateJson : String
  status : ApprovalStatus
  tgMessageId : Option Int
  tgMessageIds : Option String
  memoryEventId : Option Nat
  decidedBy : Option String
  createdAt : String
  respondedAt : Option String
  expiresAt : Option String
  lastError : Option String
  approvedVia : Option String
  approvedBy : Option String
  approvedTgMessageId : Option Int
  finalizerState : Option FinalizerState
  finalizerWorkerId : Option String
  finalizerClaimedAt : Option String
  finalizerAttemptCount : Nat
  durableMemoryId : Option String
  finalizerLastError : Option String
  auditReceiptSeq : Option Int
  auditReceiptHash : Option String
  candidateSha256 : Option String
  proposedByProfile : Option String

/-- A row of `memory_events`. -/
structure MemoryEvent where
  eventType : String
  payloadJson : String
  createdAt : String
  status : String
  completedMemoryId : Option String
  processedAt : Option String
  tenantId : String
  principalId : String

/-- A row of `memory_history`; `append_history` only ever inserts. -/
structure HistoryRow where
  op : String
  drawerId : String
  tenantId : String
  principalId : Option String
  wing : Option String
  room : Option String
  reason : Option String
  detailsJson : Option String

structure Outbox where
  approvals : Table ApprovalRow
  events : Table MemoryEvent
  history : List HistoryRow

def Outbox.empty : Outbox := ⟨.empty, .empty, []⟩

/-- `append_history`, which commits its own insert. -/
def Outbox.appendHistory (o : Outbox) (h : HistoryRow) : Outbox := { o with history := o.history ++ [h] }

/-- `UPDATE approval_queue SET f WHERE id = i AND guard`. -/
def Outbox.updateApproval (o : Outbox) (i : Nat) (guard : ApprovalRow → Bool) (f : ApprovalRow → ApprovalRow) : Outbox :=
  { o with approvals := o.approvals.update i guard f }

/-- `INSERT INTO memory_events`. -/
def Outbox.insertEvent (o : Outbox) (ev : MemoryEvent) : Outbox := { o with events := o.events.insert ev }

/-! ## Enqueue -/

/-- A row as the insert leaves it. -/
def queuedRow (candidateJson createdAt : String) (proposedByProfile : Option String) : ApprovalRow where
  candidateJson := candidateJson
  status := .pendingApproval
  tgMessageId := none
  tgMessageIds := none
  memoryEventId := none
  decidedBy := none
  createdAt := createdAt
  respondedAt := none
  expiresAt := none
  lastError := none
  approvedVia := none
  approvedBy := none
  approvedTgMessageId := none
  finalizerState := none
  finalizerWorkerId := none
  finalizerClaimedAt := none
  finalizerAttemptCount := 0
  durableMemoryId := none
  finalizerLastError := none
  auditReceiptSeq := none
  auditReceiptHash := none
  candidateSha256 := none
  proposedByProfile := proposedByProfile

/-- The insert of `_enqueue_approval`, for any text of a candidate. -/
def enqueueApproval (o : Outbox) (candidateJson createdAt : String) (proposedByProfile : Option String) : Outbox :=
  { o with approvals := o.approvals.insert (queuedRow candidateJson createdAt proposedByProfile) }

/-- The bot outside the repository records a message it sent for an approval. -/
def markApprovalSent (o : Outbox) (i : Nat) (messageId : Option Int) (messageIds : Option String) : Outbox :=
  o.updateApproval i (fun _ => true) fun r => { r with tgMessageId := messageId, tgMessageIds := messageIds }

/-! ## Approve -/

/-- The keyword arguments of `_approve_in_conn`. -/
structure ApproveStamp where
  decidedBy : String
  now : String
  approvedVia : Option String
  approvedBy : Option String
  approvedTgMessageId : Option Int
  auditReceiptSeq : Option Int
  auditReceiptHash : Option String
  candidateSha256 : Option String

/-- The provenance half of the idempotent branch. -/
def stampProvenance (p : ApproveStamp) (r : ApprovalRow) : ApprovalRow :=
  if p.approvedVia.isSome ∧ r.approvedVia = none then
    { r with
      approvedVia := p.approvedVia, approvedBy := p.approvedBy
      approvedTgMessageId := p.approvedTgMessageId.or r.approvedTgMessageId }
  else r

/-- The receipt half of the idempotent branch. -/
def stampReceipt (p : ApproveStamp) (r : ApprovalRow) : ApprovalRow :=
  if p.auditReceiptSeq.isSome ∧ r.auditReceiptSeq = none then
    { r with
      auditReceiptSeq := p.auditReceiptSeq, auditReceiptHash := p.auditReceiptHash, candidateSha256 := p.candidateSha256 }
  else r

/-- The `UPDATE` of a first approval: every column is assigned, so nothing planted survives. -/
def stampApproved (p : ApproveStamp) (eventId : Nat) (r : ApprovalRow) : ApprovalRow :=
  { r with
    status := .approved, respondedAt := some p.now, decidedBy := some p.decidedBy, memoryEventId := some eventId
    lastError := none, approvedVia := p.approvedVia, approvedBy := p.approvedBy
    approvedTgMessageId := p.approvedTgMessageId, auditReceiptSeq := p.auditReceiptSeq
    auditReceiptHash := p.auditReceiptHash, candidateSha256 := p.candidateSha256 }

/-- The event a first approval emits. -/
def approvalEvent (d : Deployment) (payload : ApprovalPayload) (payloadJson now : String) : MemoryEvent where
  eventType := d.ownerSlug ++ "_feedback"
  payloadJson := payloadJson
  createdAt := now
  status := "pending"
  completedMemoryId := none
  processedAt := none
  tenantId := d.str ((Dict.get payload.metadata "tenant_id").orElse (.str d.defaultTenantId))
  principalId := d.str ((Dict.get payload.metadata "principal_id").orElse (.str ""))

/-- `int(row["memory_event_id"])` of the idempotent branch: the row is approved and its event id is
not 0. -/
def alreadyApproved (r : ApprovalRow) : Option Nat :=
  match r.memoryEventId with
  | none => none
  | some e => if r.status = .approved ∧ e ≠ 0 then some e else none

/-- `json.loads` of the candidate, its payload, and the payload's text. -/
def approvalPayload (d : Deployment) (candidateJson : String) (i : Nat) (now : String) :
    Except PyErr (ApprovalPayload × String) :=
  match d.loads candidateJson with
  | .error e => .error e
  | .ok candidate =>
    match buildApprovalMemoryPayload d candidate i now with
    | .error e => .error e
    | .ok payload =>
      match d.dumps payload.toJson with
      | .error e => .error e
      | .ok text => .ok (payload, text)

/-- `_approve_in_conn`. -/
def approveInConn (d : Deployment) (o : Outbox) (i : Nat) (p : ApproveStamp) : Except PyErr (Outbox × Nat) :=
  match o.approvals.get i with
  | none => .error (.valueError ("approval_queue row not found: " ++ toString i))
  | some row =>
    if p.candidateSha256.isSome ∧ p.candidateSha256 ≠ some (candidateFingerprint row.candidateJson) then
      .error (.valueError ("approval " ++ toString i ++
        " candidate bytes changed since the audit receipt was appended; refusing stamp"))
    else
      match alreadyApproved row with
      | some e => .ok (o.updateApproval i (fun _ => true) (stampReceipt p ∘ stampProvenance p), e)
      | none =>
        if row.status ∈ [ApprovalStatus.pending, .pendingApproval, .deferred] then
          match approvalPayload d row.candidateJson i p.now with
          | .error e => .error e
          | .ok (payload, text) =>
            let eventId := o.events.nextId
            let o := o.insertEvent (approvalEvent d payload text p.now)
            .ok (o.updateApproval i (fun _ => true) (stampApproved p eventId), eventId)
        else
          .error (.valueError ("approval_queue row " ++ toString i ++ " is not approvable: " ++ row.status.text))

/-- What a transaction that may raise leaves behind. -/
def commitOr {α : Type} (o : Outbox) : Except PyErr (Outbox × α) → Outbox
  | .ok (o', _) => o'
  | .error _ => o

/-- `decided_by or _transport_kind()`. -/
def decider (d : Deployment) (decidedBy : Option String) : String :=
  match decidedBy with
  | none => d.transportKind
  | some b => if b = "" then d.transportKind else b

/-- What the raw path stamps: no provenance, no receipt. -/
def rawStamp (d : Deployment) (decidedBy : Option String) (now : String) : ApproveStamp where
  decidedBy := decider d decidedBy
  now := now
  approvedVia := none
  approvedBy := none
  approvedTgMessageId := none
  auditReceiptSeq := none
  auditReceiptHash := none
  candidateSha256 := none

/-- `approve_queued_candidate`. -/
def approveQueuedCandidate (d : Deployment) (o : Outbox) (i : Nat) (decidedBy : Option String) (now : String) :
    Except PyErr (Outbox × Nat) :=
  approveInConn d o i (rawStamp d decidedBy now)

/-- `{int(m) for m in ms if m is not None}`. -/
def intItems (d : Deployment) : List Json → Except PyErr (List Int)
  | [] => .ok []
  | .null :: ms => intItems d ms
  | m :: ms =>
    match d.intOf m with
    | .error e => .error e
    | .ok n => (intItems d ms).map (n :: ·)

/-- `{int(m) for m in json.loads(ids_json) if m is not None}`. -/
def parseMessageIds (d : Deployment) (idsJson : String) : Except PyErr (List Int) :=
  match d.loads idsJson with
  | .error e => .error e
  | .ok v =>
    match iterItems v with
    | .error e => .error e
    | .ok ms => intItems d ms

/-- `_sent_message_ids`. -/
def sentMessageIds (d : Deployment) (idsJson : Option String) (latest : Option Int) : Except PyErr (List Int) :=
  let orLatest (out : List Int) := if out = [] then latest.toList else out
  match idsJson with
  | none => .ok (orLatest [])
  | some t =>
    if t = "" then .ok (orLatest [])
    else
      match parseMessageIds d t with
      | .ok out => .ok (orLatest out)
      | .error e => if e.isValueOrType then .ok (orLatest []) else .error e

/-- A receipt as it is passed in. -/
structure ReceiptTriple where
  seq : Int
  thisHash : String
  sha256 : String

/-- `len(text) == 64` and lower-case hex. -/
def isSha256Hex (text : String) : Bool := text.length = 64 && text.toList.all fun c => "0123456789abcdef".toList.contains c

/-- `_require_receipt`, of three values of the right types. -/
def requireReceipt (d : Deployment) (r : ReceiptTriple) : Except PyErr ReceiptTriple :=
  if r.seq < 1 then .error (.valueError ("invalid audit receipt seq: " ++ d.repr (.int r.seq)))
  else if !isSha256Hex r.thisHash then .error (.valueError ("invalid audit receipt hash: " ++ d.repr (.str r.thisHash)))
  else if !isSha256Hex r.sha256 then
    .error (.valueError ("invalid audit receipt candidate_sha256: " ++ d.repr (.str r.sha256)))
  else .ok r

/-- `_require_receipt`, where a receipt is given. -/
def requireOptionalReceipt (d : Deployment) : Option ReceiptTriple → Except PyErr Unit
  | none => .ok ()
  | some r => match requireReceipt d r with | .ok _ => .ok () | .error e => .error e

theorem requireOptionalReceipt_some {d : Deployment} {r : ReceiptTriple} (h : requireReceipt d r = .ok r) :
    requireOptionalReceipt d (some r) = .ok () := by
  simp only [requireOptionalReceipt, h]

/-- A digest passes. -/
theorem isSha256Hex_hexdigest (bs : List UInt8) : isSha256Hex (Sha256.hexdigest bs) = true := by
  have hlen : (Sha256.hexdigest bs).length = 64 := Sha256.length_hexdigest bs
  have hall : (Sha256.hexdigest bs).toList.all (fun c => "0123456789abcdef".toList.contains c) = true := by
    rw [List.all_eq_true]
    intro c hc
    exact List.contains_iff_mem.2 (Sha256.mem_hexdigest hc)
  unfold isSha256Hex
  rw [hlen, hall]
  rfl

/-- What the telegram path stamps. -/
def telegramStamp (presser : String) (tgMessageId : Option Int) (receipt : Option ReceiptTriple) (now : String) :
    ApproveStamp where
  decidedBy := "telegram:" ++ presser
  now := now
  approvedVia := some "telegram"
  approvedBy := some ("telegram:" ++ presser)
  approvedTgMessageId := tgMessageId
  auditReceiptSeq := receipt.map (·.seq)
  auditReceiptHash := receipt.map (·.thisHash)
  candidateSha256 := receipt.map (·.sha256)

/-- `approve_authorized_telegram_candidate`. -/
def approveAuthorizedTelegramCandidate (d : Deployment) (o : Outbox) (i : Nat) (presser : String)
    (tgMessageId : Option Int) (receipt : Option ReceiptTriple) (now : String) : Except PyErr (Outbox × Nat) :=
  if presser = "" then .error (.valueError "presser_id is required for an authorized approval")
  else
    match requireOptionalReceipt d receipt with
    | .error e => .error e
    | .ok () =>
      match o.approvals.get i with
      | none => .error (.valueError ("approval_queue row not found: " ++ toString i))
      | some row =>
        match sentMessageIds d row.tgMessageIds row.tgMessageId with
        | .error e => .error e
        | .ok sentIds =>
          if tgMessageId.any sentIds.contains then approveInConn d o i (telegramStamp presser tgMessageId receipt now)
          else .error (.valueError ("approval " ++ toString i ++ " requires a bound bot message; callback msg=" ++
            d.repr (match tgMessageId with | none => .null | some m => .int m) ++ " not in sent set " ++
            d.repr (.arr ((sentIds.dedup.insertionSort (· ≤ ·)).map .int))))

/-- `_finalizer_unclaimed`; also the guard of the reject and defer statements. -/
def finalizerUnclaimed : Option FinalizerState → Bool
  | none | some .none | some .failed => true
  | _ => false

inductive ApproveMode
  | stamped
  | redrive
deriving DecidableEq, Repr

/-- What the service stamps. -/
def serviceStamp (via by' : String) (receipt : ReceiptTriple) (now : String) : ApproveStamp where
  decidedBy := by'
  now := now
  approvedVia := some via
  approvedBy := some by'
  approvedTgMessageId := none
  auditReceiptSeq := some receipt.seq
  auditReceiptHash := some receipt.thisHash
  candidateSha256 := some receipt.sha256

/-- `mcp_approve_or_redrive`. -/
def mcpApproveOrRedrive (d : Deployment) (o : Outbox) (i : Nat) (via by' : String) (receipt : ReceiptTriple) (now : String) :
    Except PyErr (Outbox × ApproveMode) :=
  if via = "" ∨ by' = "" then
    .error (.valueError "mcp_approve_or_redrive requires non-empty approved_via/approved_by")
  else
    match requireReceipt d receipt with
    | .error e => .error e
    | .ok receipt =>
      match o.approvals.get i with
      | none => .error (.valueError ("approval_queue row not found: " ++ toString i))
      | some row =>
        if row.status = .approved ∧ row.approvedVia = some via ∧ row.approvedBy = some by' ∧
            finalizerUnclaimed row.finalizerState then
          .ok (o, .redrive)
        else if row.status ∉ [ApprovalStatus.pending, .pendingApproval] then
          .error (.valueError ("approval " ++ toString i ++ " is not an awaiting or retriable candidate (status=" ++
            d.repr (.str row.status.text) ++ ")"))
        else if !finalizerUnclaimed row.finalizerState then
          .error (.valueError ("approval " ++ toString i ++ " is claimed by the finalizer/RTBF (finalizer_state=" ++
            d.repr (.ofOption (row.finalizerState.map FinalizerState.text)) ++ ")"))
        else
          match approveInConn d o i (serviceStamp via by' receipt now) with
          | .error e => .error e
          | .ok (o, _) => .ok (o, .stamped)

/-! ## Reject, defer, resurface -/

/-- A decision can still be taken: `status IN ('pending', 'pending_approval', 'deferred')` and no claim. -/
def openForDecision (r : ApprovalRow) : Bool :=
  [ApprovalStatus.pending, .pendingApproval, .deferred].contains r.status && finalizerUnclaimed r.finalizerState

/-- `update_approval_status`: the outbox and the number of rows changed. -/
def updateApprovalStatus (d : Deployment) (o : Outbox) (i : Nat) (status : ApprovalStatus) (decidedBy : Option String)
    (now : String) : Except PyErr (Outbox × Nat) :=
  if status ∈ [ApprovalStatus.rejected, .pending] then
    .ok
      (o.updateApproval i openForDecision fun r =>
        { r with
          status, respondedAt := if status = .rejected then some now else r.respondedAt
          decidedBy := some (decider d decidedBy), lastError := none },
       if o.approvals.hits i openForDecision then 1 else 0)
  else .error (.valueError ("unsupported approval status update: " ++ status.text))

/-- `defer_queued_candidate`. -/
def deferQueuedCandidate (d : Deployment) (o : Outbox) (i : Nat) (decidedBy : Option String) (now until' : String) : Outbox :=
  o.updateApproval i openForDecision fun r =>
    { r with
      status := .deferred, respondedAt := some now, expiresAt := some until', decidedBy := some (decider d decidedBy)
      lastError := none }

/-- Its defer window is over. -/
def dueAt (now : String) (r : ApprovalRow) : Bool :=
  r.status = .deferred && r.expiresAt.any fun t => t ≤ now

/-- `resurface_deferred_approvals`. -/
def resurfaceDeferredApprovals (o : Outbox) (now : String) : Outbox :=
  { o with
    approvals := o.approvals.updateAll (dueAt now) fun r =>
      { r with status := .pending, expiresAt := none, tgMessageId := none } }

/-! ## Specifications -/

theorem get_updateApproval {o : Outbox} {i j : Nat} {r : ApprovalRow} (g : ApprovalRow → Bool) (f : ApprovalRow → ApprovalRow)
    (h : o.approvals.get j = some r) :
    (o.updateApproval i g f).approvals.get j = some (if j = i ∧ g r = true then f r else r) := by
  simp only [Outbox.updateApproval, Table.get_update, h]
  by_cases hj : j = i <;> simp [hj]

theorem get_updateApproval_none {o : Outbox} {i j : Nat} (g : ApprovalRow → Bool) (f : ApprovalRow → ApprovalRow)
    (h : o.approvals.get j = none) : (o.updateApproval i g f).approvals.get j = none := by
  simp only [Outbox.updateApproval, Table.get_update, h]
  by_cases hj : j = i <;> simp [hj]

theorem alreadyApproved_some {r : ApprovalRow} {e : Nat} (h : alreadyApproved r = some e) :
    r.status = .approved ∧ r.memoryEventId = some e := by
  unfold alreadyApproved at h
  split at h
  · cases h
  · rename_i x hx
    split at h
    · rename_i hs
      cases h
      exact ⟨hs.1, hx⟩
    · cases h

/-- **The two ways an approval succeeds**: the row was approved before and only gains stamps, or it
was awaiting a decision and gets a fresh event. -/
theorem approveInConn_ok {d : Deployment} {o o' : Outbox} {i e : Nat} {p : ApproveStamp}
    (h : approveInConn d o i p = .ok (o', e)) :
    ∃ row, o.approvals.get i = some row ∧ (∀ sha ∈ p.candidateSha256, sha = candidateFingerprint row.candidateJson) ∧
      ((alreadyApproved row = some e ∧ o' = o.updateApproval i (fun _ => true) (stampReceipt p ∘ stampProvenance p)) ∨
        (row.status ∈ [ApprovalStatus.pending, .pendingApproval, .deferred] ∧ e = o.events.nextId ∧
          ∃ payload text, approvalPayload d row.candidateJson i p.now = .ok (payload, text) ∧
            o' = (o.insertEvent (approvalEvent d payload text p.now)).updateApproval i (fun _ => true)
              (stampApproved p e))) := by
  unfold approveInConn at h
  split at h
  · cases h
  · rename_i row hrow
    split at h
    · cases h
    · rename_i hsha
      refine ⟨row, hrow, ?_, ?_⟩
      · intro sha hs
        rw [Option.mem_def] at hs
        simp only [hs, Option.isSome_some, ne_eq, Option.some.injEq, true_and, not_not] at hsha
        exact hsha
      · split at h
        · rename_i e' he
          cases h
          exact .inl ⟨he, rfl⟩
        · split at h
          · rename_i hopen
            split at h
            · cases h
            · rename_i payload text hp
              cases h
              exact .inr ⟨hopen, rfl, payload, text, hp, rfl⟩
          · cases h

/-- An awaiting row whose payload can be built is approved. -/
theorem approveInConn_open {d : Deployment} {o : Outbox} {i : Nat} {p : ApproveStamp} {row : ApprovalRow}
    {payload : ApprovalPayload} {text : String} (hr : o.approvals.get i = some row)
    (hsha : ∀ sha ∈ p.candidateSha256, sha = candidateFingerprint row.candidateJson)
    (hopen : row.status ∈ [ApprovalStatus.pending, .pendingApproval, .deferred])
    (hp : approvalPayload d row.candidateJson i p.now = .ok (payload, text)) :
    approveInConn d o i p =
      .ok ((o.insertEvent (approvalEvent d payload text p.now)).updateApproval i (fun _ => true)
        (stampApproved p o.events.nextId), o.events.nextId) := by
  have hsame : ¬ (p.candidateSha256.isSome ∧ p.candidateSha256 ≠ some (candidateFingerprint row.candidateJson)) := by
    cases hs : p.candidateSha256 with
    | none => simp
    | some sha => simp [hsha sha hs]
  have hnew : alreadyApproved row = none := by
    cases ha : alreadyApproved row with
    | none => rfl
    | some e =>
      rw [(alreadyApproved_some ha).1] at hopen
      exact absurd hopen (by decide)
  unfold approveInConn
  simp only [hr, if_neg hsame, hnew, if_pos hopen, hp]

/-- An approved row only gains stamps. -/
theorem approveInConn_again {d : Deployment} {o : Outbox} {i e : Nat} {p : ApproveStamp} {row : ApprovalRow}
    (hr : o.approvals.get i = some row) (hsha : ∀ sha ∈ p.candidateSha256, sha = candidateFingerprint row.candidateJson)
    (hdone : alreadyApproved row = some e) :
    approveInConn d o i p = .ok (o.updateApproval i (fun _ => true) (stampReceipt p ∘ stampProvenance p), e) := by
  have hsame : ¬ (p.candidateSha256.isSome ∧ p.candidateSha256 ≠ some (candidateFingerprint row.candidateJson)) := by
    cases hs : p.candidateSha256 with
    | none => simp
    | some sha => simp [hsha sha hs]
  unfold approveInConn
  simp only [hr, if_neg hsame, hdone]

/-- What the telegram path checks before it approves: a presser, a receipt of the right shape, a message the bot sent. -/
structure TelegramBound (d : Deployment) (o : Outbox) (i : Nat) (presser : String) (tg : Option Int)
    (receipt : Option ReceiptTriple) : Prop where
  presser : presser ≠ ""
  receipt : requireOptionalReceipt d receipt = .ok ()
  sent : ∃ row ids, o.approvals.get i = some row ∧ sentMessageIds d row.tgMessageIds row.tgMessageId = .ok ids ∧
    tg.any ids.contains = true

/-- The telegram path is `_approve_in_conn` under its stamp, once its checks have passed. -/
theorem approveTelegram_of_bound {d : Deployment} {o : Outbox} {i : Nat} {presser : String} {tg : Option Int}
    {receipt : Option ReceiptTriple} (h : TelegramBound d o i presser tg receipt) (now : String) :
    approveAuthorizedTelegramCandidate d o i presser tg receipt now =
      approveInConn d o i (telegramStamp presser tg receipt now) := by
  obtain ⟨hp, hreq, row, ids, hr, hids, hmem⟩ := h
  unfold approveAuthorizedTelegramCandidate
  simp only [if_neg hp, hreq, hr, hids, if_pos hmem]

theorem approveTelegram_ok {d : Deployment} {o o' : Outbox} {i e : Nat} {presser : String} {tg : Option Int}
    {receipt : Option ReceiptTriple} {now : String}
    (h : approveAuthorizedTelegramCandidate d o i presser tg receipt now = .ok (o', e)) :
    TelegramBound d o i presser tg receipt ∧ approveInConn d o i (telegramStamp presser tg receipt now) = .ok (o', e) := by
  have hbound : TelegramBound d o i presser tg receipt := by
    unfold approveAuthorizedTelegramCandidate at h
    split at h
    · cases h
    · rename_i hp
      split at h
      · cases h
      · rename_i hreq
        split at h
        · cases h
        · rename_i row hr
          split at h
          · cases h
          · rename_i ids hids
            split at h
            · rename_i hmem
              exact ⟨hp, hreq, row, ids, hr, hids, hmem⟩
            · cases h
  exact ⟨hbound, by rw [← approveTelegram_of_bound hbound now]; exact h⟩

/-- The service path changes nothing, or is a first approval. -/
theorem mcpApprove_ok {d : Deployment} {o o' : Outbox} {i : Nat} {via by' : String} {receipt : ReceiptTriple} {now : String}
    {mode : ApproveMode} (h : mcpApproveOrRedrive d o i via by' receipt now = .ok (o', mode)) :
    (o' = o ∧ mode = .redrive) ∨
      (mode = .stamped ∧ (∃ row, o.approvals.get i = some row ∧ row.status ≠ .approved) ∧
        ∃ e, approveInConn d o i (serviceStamp via by' receipt now) = .ok (o', e)) := by
  unfold mcpApproveOrRedrive at h
  split at h
  · cases h
  · have hreq : ∀ r', requireReceipt d receipt = .ok r' → r' = receipt := by
      intro r' hr
      unfold requireReceipt at hr
      split at hr
      · cases hr
      · split at hr
        · cases hr
        · split at hr
          · cases hr
          · cases hr; rfl
    split at h
    · cases h
    · rename_i r' hr
      obtain rfl := hreq r' hr
      split at h
      · cases h
      · rename_i row hrow
        split at h
        · cases h
          exact .inl ⟨rfl, rfl⟩
        · split at h
          · cases h
          · rename_i hstat
            split at h
            · cases h
            · split at h
              · cases h
              · rename_i o'' e ha
                cases h
                refine .inr ⟨rfl, ⟨row, hrow, ?_⟩, e, ha⟩
                rw [not_not] at hstat
                intro hs
                rw [hs] at hstat
                exact absurd hstat (by decide)

end Panella

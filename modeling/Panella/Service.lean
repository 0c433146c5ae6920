import Panella.System

/-!
# The approval service (`panella/approval_service.py`)

| here | there |
| --- | --- |
| `ApprovalTransport`, `telegramTransport`, `localCliTransport` | `approval_transport.py` (:37-109) |
| `presser` with `verifyApprover` | `verify_approver` (:74-87) |
| `Serving`, `advanceServing` | `list_pending`, `approve`, `reject` (:150-310) |
| `listPendingApprovals` | `list_pending_approvals` (`client_raw.py` :760-815) |

A call of the service opens the audit log and the outbox one after the other, and anybody else may write to both in
between. `Serving` is where it stands between two of its own transactions, and `serveStep` is one of them or whatever
the others do: they leave any outbox and any store behind, and the log only grows. An approval goes on as a `Call`, with
one fault more: the entry is committed, and reading its hash back raises.
-/

namespace Panella

open Machine PyJson

/-! ## Transports -/

/-- An approval channel. -/
structure ApprovalTransport where
  /-- The canonical approver, or `None`. -/
  verifyPresser : String → Except PyErr (Option String)
  stampProvenance : String

/-- `TelegramApprovalTransport`. -/
def telegramTransport (allowedAuthorId : String) : ApprovalTransport where
  verifyPresser raw := .ok (if allowedAuthorId = "" ∨ raw ≠ allowedAuthorId then none else some ("telegram:" ++ raw))
  stampProvenance := "telegram"

/-- `LocalCliApprovalTransport`, with the token of its file where there is one; `compare_digest` takes ASCII only. -/
def localCliTransport (expectedToken : Option String) : ApprovalTransport where
  verifyPresser raw :=
    match expectedToken with
    | none => .ok none
    | some token =>
      if raw = "" then .ok none
      else if (raw.toList ++ token.toList).any fun c => 128 ≤ c.toNat then
        .error (.typeError "comparing strings with non-ASCII characters is not supported")
      else .ok (if raw = token then some "local_cli:owner" else none)
  stampProvenance := "local_cli"

/-- The first half of `verify_approver`: who presents the credential. -/
def presser (transport : ApprovalTransport) (credential : Json) : Except PyErr (Option String) :=
  match credential with
  | .str c => if c = "" then .ok none else transport.verifyPresser c
  | _ => .ok none

/-- The credential is an authorized approver's. -/
def Authorized (d : Deployment) (transport : ApprovalTransport) (credential : Json) (canonical : String) : Prop :=
  presser transport credential = .ok (some canonical) ∧ canonical ∈ d.authorizedApprovers

/-! ## The pending list -/

/-- A row of the list an approver sees. -/
structure PendingItem where
  approvalId : Nat
  wing : Json
  room : Json
  memoryType : Json
  createdAt : String
  contentPreview : String
  proposedBy : Option String

/-- The candidate as the list reads it. -/
def pendingCandidate (d : Deployment) (candidateJson : String) : Except PyErr Dict :=
  match d.loads candidateJson with
  | .ok v => .ok (dictOrEmpty v)
  | .error e => if e.isValueOrType then .ok [] else .error e

def pendingItem (d : Deployment) (i : Nat) (row : ApprovalRow) (candidate : Dict) : PendingItem where
  approvalId := i
  wing := Dict.get candidate "suggested_wing"
  room := Dict.get candidate "suggested_room"
  memoryType := Dict.get candidate "memory_type"
  createdAt := row.createdAt
  contentPreview := String.ofList ((d.str ((Dict.get candidate "text").orElse (.str ""))).toList.take 200)
  proposedBy := proposedByProfile (.ofOption row.proposedByProfile)

def pendingItems (d : Deployment) : List (Nat × ApprovalRow) → Except PyErr (List PendingItem)
  | [] => .ok []
  | (i, row) :: rows =>
    match pendingCandidate d row.candidateJson with
    | .error e => .error e
    | .ok candidate => (pendingItems d rows).map (pendingItem d i row candidate :: ·)

/-- `list_pending_approvals`. -/
def listPendingApprovals (d : Deployment) (o : Outbox) (limit : Nat) : Except PyErr (List PendingItem) :=
  pendingItems d ((o.approvals.rows.filter fun ir =>
    [ApprovalStatus.pending, .pendingApproval].contains ir.2.status).take (max 1 (min limit 100)))

/-- The limit of `list_pending`: an integer from 1 on, else 20. -/
def listLimit : Json → Nat
  | .int n => if n < 1 then 20 else n.toNat
  | _ => 20

/-! ## Entries -/

/-- `_audit_refused`. -/
def auditRefused (ctx : ApprovalAuditContext) (tsIso action : String) (approvalId : Option Nat) (reason : String) :
    AuditWrite where
  tsIso := tsIso
  principalId := ctx.principal.id
  tenantAccessed := ctx.tenantAccessed
  op := "approval_refused"
  targetId := approvalId.map toString
  reasonCode := none
  details := some (auditDetails ctx [("action", .str action), ("reason", .str reason)])
  wf := by
    intro _ h
    cases h
    refine wf_merge (wf_set ctx.extraWf trivial) fun kv hkv => ?_
    simp only [List.mem_cons, List.not_mem_nil, or_false] at hkv
    rcases hkv with rfl | rfl <;> trivial

/-- The entry of `list_pending`. -/
def listEntry (ctx : ApprovalAuditContext) (tsIso canonical : String) (listed : Nat) : AuditWrite where
  tsIso := tsIso
  principalId := ctx.principal.id
  tenantAccessed := ctx.tenantAccessed
  op := "approval_list"
  targetId := none
  reasonCode := none
  details := some (auditDetails ctx [("listed", .int listed), ("approved_by", .str canonical)])
  wf := by
    intro _ h
    cases h
    refine wf_merge (wf_set ctx.extraWf trivial) fun kv hkv => ?_
    simp only [List.mem_cons, List.not_mem_nil, or_false] at hkv
    rcases hkv with rfl | rfl <;> trivial

/-- The decision `reject` appends. -/
def rejectEntry (q : ServiceCall) (tsIso canonical : String) : AuditWrite :=
  decisionEntry q.audit tsIso "reject" q.approvalId canonical q.via none none

/-- `audit_write` alone; a fault of the database raises first. -/
def appendEntry (d : Deployment) (t : AuditTable) (entry : AuditWrite) (fault : Option PyErr) : Except PyErr AuditTable :=
  match fault with
  | some e => .error e
  | none =>
    match auditWrite d.limits t entry with
    | .error (.json e) => .error (.json e)
    | .error (.chain m) => .error (.runtimeError m)
    | .ok (t, _) => .ok t

/-! ## A call of the service -/

inductive ServiceOp
  | approve (approvalId : Nat)
  | reject (approvalId : Nat)
  | listPending (limit : Json)

structure ServiceRequest where
  op : ServiceOp
  credential : Json
  audit : ApprovalAuditContext

/-- How `reject` and `list_pending` end. -/
inductive ServiceResult
  | rejected
  | listed (rows : List PendingItem)
  /-- `ApprovalAuthError`. -/
  | refused (reason : String)
  | raised (e : PyErr)

inductive Serving
  /-- `approve`, from the read of the candidate to the end of its finalize call. -/
  | approving (c : Call)
  | rejecting (q : ServiceCall)
  /-- The rejection is in the log; the status is next. -/
  | marking (q : ServiceCall) (canonical : String)
  | listing (audit : ApprovalAuditContext) (canonical : Option String) (limit : Nat)
  /-- The rows have been read; the entry is next. -/
  | disclosing (audit : ApprovalAuditContext) (canonical : String) (rows : List PendingItem)
  | ended (result : ServiceResult)

/-- The call before its first access to shared state. -/
def ServiceRequest.begin (transport : ApprovalTransport) (req : ServiceRequest) : Serving :=
  match presser transport req.credential with
  | .error e => .ended (.raised e)
  | .ok canonical =>
    match req.op with
    | .approve i => .approving (.deciding ⟨i, req.audit, canonical, transport.stampProvenance⟩)
    | .reject i => .rejecting ⟨i, req.audit, canonical, transport.stampProvenance⟩
    | .listPending limit => .listing req.audit canonical (listLimit limit)

/-- The next transaction of an approval; `readBack` is raised by the read of the hash of a committed decision. -/
def advanceApproving (d : Deployment) (api : StoreApi) (w : World) (r : Reply) (readBack : Option PyErr) (c : Call) :
    World × Call :=
  match c, readBack, advance d api w r c with
  | .appending .., some e, (w', .stamping ..) => (w', .returned (.raised e))
  | _, _, out => out

def advanceRejecting (d : Deployment) (w : World) (q : ServiceCall) (r : Reply) (readBack : Option PyErr) : World × Serving :=
  match verifyApprover d q.canonical with
  | .error e =>
    (w.appendBestEffort d (auditRefused q.audit r.now "reject" (some q.approvalId) (d.errorText e)) r.auditFault,
      .ended (.refused (d.errorText e)))
  | .ok canonical =>
    match appendWithHash d w.audit (rejectEntry q r.now canonical) r.auditFault with
    | .error e => (w, .ended (.raised e))
    | .ok (t, _, _) =>
      ({ w with audit := t }, match readBack with | some e => .ended (.raised e) | none => .marking q canonical)

def advanceMarking (d : Deployment) (w : World) (q : ServiceCall) (canonical : String) (r : Reply) : World × Serving :=
  match updateApprovalStatus d w.outbox q.approvalId .rejected (some canonical) r.now with
  | .error e => (w, .ended (.raised e))
  | .ok (o, changed) =>
    (w.withOutbox o,
      if changed = 0 then
        .ended (.raised (.valueError ("approval " ++ toString q.approvalId ++
          " is not a pending candidate (missing or already decided)")))
      else .ended .rejected)

def advanceListing (d : Deployment) (w : World) (audit : ApprovalAuditContext) (canonical : Option String) (limit : Nat)
    (r : Reply) : World × Serving :=
  match verifyApprover d canonical with
  | .error e =>
    (w.appendBestEffort d (auditRefused audit r.now "list_pending" none (d.errorText e)) r.auditFault,
      .ended (.refused (d.errorText e)))
  | .ok canonical =>
    match listPendingApprovals d w.outbox limit with
    | .error e => (w, .ended (.raised e))
    | .ok rows => (w, .disclosing audit canonical rows)

def advanceDisclosing (d : Deployment) (w : World) (audit : ApprovalAuditContext) (canonical : String) (rows : List PendingItem)
    (r : Reply) : World × Serving :=
  match appendEntry d w.audit (listEntry audit r.now canonical rows.length) r.auditFault with
  | .error e => (w, .ended (.raised e))
  | .ok t => ({ w with audit := t }, .ended (.listed rows))

/-- The next transaction of a call. -/
def advanceServing (d : Deployment) (api : StoreApi) (w : World) (r : Reply) (readBack : Option PyErr) : Serving → World × Serving
  | .approving c =>
    let out := advanceApproving d api w r readBack c
    (out.1, .approving out.2)
  | .rejecting q => advanceRejecting d w q r readBack
  | .marking q canonical => advanceMarking d w q canonical r
  | .listing audit canonical limit => advanceListing d w audit canonical limit r
  | .disclosing audit canonical rows => advanceDisclosing d w audit canonical rows r
  | .ended result => (w, .ended result)

inductive ServeAction
  | own (r : Reply) (readBack : Option PyErr)
  /-- What the others leave behind; the log has their entries. -/
  | others (outbox : Outbox) (store : Store) (entries : List AuditWrite)

def serveStep (d : Deployment) (api : StoreApi) (s : World × Serving) : ServeAction → World × Serving
  | .own r readBack => advanceServing d api s.1 r readBack s.2
  | .others outbox store entries => (⟨outbox, run (commitWrite d.limits) s.1.audit entries, store⟩, s.2)

end Panella

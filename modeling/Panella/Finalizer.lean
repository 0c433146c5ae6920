import Panella.Decisions

/-!
# The finalizer's transactions (`panella/approval_finalizer.py`)

| here | there |
| --- | --- |
| `receiptGateRefusal` | `_receipt_gate_refusal` (:419-466) |
| `rowVerdict`, `gateAndClaim` | the transaction of gate and claim (:271-336) |
| `stillOwnsClaim`, `recordFinalized`, `failClaim` | `_still_owns_claim`, `_record`, `_fail` (:469-484, :528-601) |
| `redriveIds` | the sweep's SELECT (:630-645) |

`rowVerdict` is everything the gate decides from the row it read and the log it can read; the rest
of the transaction is one of two `UPDATE`s. Clock readings come in as the texts that are compared.
-/

namespace Panella

open PyJson

/-! ## The receipt gate -/

inductive GateVerdict
  | refused (reason : String)
  | verified (receipt : Receipt)

/-- `receipt.get("details") or {}`, and then `.get`. -/
def receiptDetails (receipt : Receipt) : Except PyErr Dict :=
  if receipt.details.truthy then asDict receipt.details else .ok []

/-- The checks on a receipt the log gave back. -/
def checkReceipt (d : Deployment) (i : Nat) (row : ApprovalRow) (storedHash storedSha : String) (receipt : Receipt) :
    Except PyErr GateVerdict :=
  if receipt.row.thisHash ≠ storedHash then .ok (.refused "receipt hash mismatch")
  else if receipt.row.op ∉ ["approval_decision", "approval_decision_backfill"] then
    .ok (.refused ("receipt op mismatch: " ++ d.repr (.str receipt.row.op)))
  else if receipt.row.targetId.getD "None" ≠ toString i then .ok (.refused "receipt target mismatch")
  else
    match receiptDetails receipt with
    | .error e => .error e
    | .ok details =>
      if !(Dict.get details "decision").isStr "approve" then .ok (.refused "receipt decision mismatch")
      else if !((Dict.get details "approved_by").eqOption row.approvedBy &&
          (Dict.get details "approved_via").eqOption row.approvedVia) then
        .ok (.refused "receipt provenance mismatch")
      else if receipt.row.tenantAccessed ≠ d.defaultTenantId then .ok (.refused "receipt tenant mismatch")
      else if !(Dict.get details "candidate_sha256").isStr storedSha then .ok (.refused "receipt fingerprint mismatch")
      else if candidateFingerprint row.candidateJson ≠ storedSha then
        .ok (.refused "candidate bytes altered since approval")
      else .ok (.verified receipt)

/-- `_receipt_gate_refusal`; the log is a table, or cannot be read. -/
def receiptGateRefusal (d : Deployment) (view : Except String AuditTable) (i : Nat) (row : ApprovalRow) :
    Except PyErr GateVerdict :=
  match row.auditReceiptSeq, row.auditReceiptHash, row.candidateSha256 with
  | some seq, some storedHash, some storedSha =>
    if storedHash = "" ∨ storedSha = "" then .ok (.refused "missing audit receipt (unreceipted approval)")
    else
      match view with
      | .error m => .ok (.refused ("receipt lookup failed: " ++ m))
      | .ok t =>
        match auditVerifyThrough d.limits t seq with
        | .error (.chain m) => .ok (.refused ("receipt unverifiable: " ++ m))
        | .error (.json e) => .ok (.refused ("receipt lookup failed: " ++ d.jsonErrorText e))
        | .ok receipt => checkReceipt d i row storedHash storedSha receipt
  | _, _, _ => .ok (.refused "missing audit receipt (unreceipted approval)")

/-! ## Gate and claim -/

/-- The arguments of `finalize_approved_candidate`. -/
structure FinalizeArgs where
  approvalId : Nat
  authorizedApprovers : List String
  expectedApprovedVia : Option String
  workerId : Option String

/-- `expected_approved_via or _expected_approved_via()`. -/
def FinalizeArgs.expectedVia (a : FinalizeArgs) (d : Deployment) : String :=
  match a.expectedApprovedVia with
  | none => d.transportKind
  | some v => if v = "" then d.transportKind else v

/-- `worker_id or default_worker_id()`. -/
def FinalizeArgs.worker (a : FinalizeArgs) (defaultWorkerId : String) : String :=
  match a.workerId with
  | none => defaultWorkerId
  | some w => if w = "" then defaultWorkerId else w

/-- What the gate makes of a row. -/
inductive RowVerdict
  | skip
  | refuse (message : String)
  | answer (durableId : Option String)
  | raise (e : PyErr)
  | claim (receipt : Receipt)

/-- A live worker owns the row. -/
def leaseLive (cutoff : String) (r : ApprovalRow) : Bool :=
  r.finalizerState = some .finalizing && cutoff ≤ r.finalizerClaimedAt.getD ""

/-- `row["approved_via"] == expected_via and row["approved_by"] in authorized_approvers`. -/
def provenanceOk (d : Deployment) (a : FinalizeArgs) (r : ApprovalRow) : Bool :=
  r.approvedVia = some (a.expectedVia d) && r.approvedBy.any a.authorizedApprovers.contains

/-- `s[:500]`. -/
def take500 (s : String) : String := String.ofList (s.toList.take 500)

/-- The decisions of the gate, in their order. -/
def rowVerdict (d : Deployment) (view : Except String AuditTable) (a : FinalizeArgs) (cutoff : String) (row : ApprovalRow) :
    RowVerdict :=
  if row.status ≠ .approved ∨ row.memoryEventId = none then .skip
  else if !provenanceOk d a row then .refuse "unauthorized or unprovenanced approval"
  else if row.finalizerState = some .finalized then .answer row.durableMemoryId
  else if leaseLive cutoff row then .skip
  else
    match receiptGateRefusal d view a.approvalId row with
    | .error e => .raise e
    | .ok (.refused reason) => .refuse (take500 ("audit receipt gate: " ++ reason))
    | .ok (.verified receipt) => .claim receipt

def notFinalized (r : ApprovalRow) : Bool := r.finalizerState ≠ some .finalized

/-- The `UPDATE` of both refusals. -/
def refuseRow (o : Outbox) (i : Nat) (message : String) : Outbox :=
  o.updateApproval i notFinalized fun r =>
    { r with finalizerState := some .failed, finalizerLastError := some message }

/-- The `WHERE` of the claim. -/
def claimable (cutoff : String) (r : ApprovalRow) : Bool :=
  r.status = .approved &&
    (finalizerUnclaimed r.finalizerState ||
      (r.finalizerState = some .finalizing && r.finalizerClaimedAt.any fun t => t < cutoff))

/-- The `UPDATE` of the claim. -/
def claimRow (o : Outbox) (i : Nat) (workerId now cutoff : String) : Outbox :=
  o.updateApproval i (claimable cutoff) fun r =>
    { r with
      finalizerState := some .finalizing, finalizerWorkerId := some workerId, finalizerClaimedAt := some now
      finalizerAttemptCount := r.finalizerAttemptCount + 1 }

/-- The locals of a call after its claim: the row it read, the proposer its receipt names, its worker id. -/
structure Claim where
  row : ApprovalRow
  proposer : Option String
  workerId : String

/-- How the first transaction ends. -/
inductive GateOutcome
  | returned (durableId : Option String)
  | raised (e : PyErr)
  | claimed (c : Claim)

/-- `proposed_by_profile((receipt.get("details") or {}).get("proposed_by_profile"))`. -/
def receiptProposer (receipt : Receipt) : Option String :=
  match receiptDetails receipt with
  | .ok details => proposedByProfile (Dict.get details "proposed_by_profile")
  | .error _ => none

/-- The call up to the commit of the claim. -/
def gateAndClaim (d : Deployment) (view : Except String AuditTable) (a : FinalizeArgs) (workerId now cutoff : String)
    (o : Outbox) : Outbox × GateOutcome :=
  if a.authorizedApprovers = [] then (o, .returned none)
  else if a.expectedVia d = "" then (o, .returned none)
  else
    match o.approvals.get a.approvalId with
    | none => (o, .returned none)
    | some row =>
      match rowVerdict d view a cutoff row with
      | .skip => (o, .returned none)
      | .refuse message => (refuseRow o a.approvalId message, .returned none)
      | .answer durableId => (o, .returned durableId)
      | .raise e => (o, .raised e)
      | .claim receipt =>
        if o.approvals.hits a.approvalId (claimable cutoff) then
          (claimRow o a.approvalId workerId now cutoff, .claimed ⟨row, receiptProposer receipt, workerId⟩)
        else (o, .returned none)

/-! ## Re-check, record, fail -/

/-- `_still_owns_claim`. -/
def stillOwnsClaim (o : Outbox) (i : Nat) (workerId : String) : Bool :=
  o.approvals.hits i fun r => r.finalizerState = some .finalizing && r.finalizerWorkerId = some workerId

/-- `WHERE … finalizer_worker_id=? AND (finalizer_state IS NULL OR finalizer_state != 'finalized')`. -/
def ownedUnfinalized (workerId : String) (r : ApprovalRow) : Bool :=
  r.finalizerWorkerId = some workerId && notFinalized r

/-- The columns of a recorded row. -/
def setFinalized (contentHash workerId : String) (r : ApprovalRow) : ApprovalRow :=
  { r with
    finalizerState := some .finalized, durableMemoryId := some contentHash, finalizerWorkerId := some workerId
    finalizerLastError := none }

/-- `UPDATE memory_events SET status='completed', … WHERE id=?`. -/
def Outbox.completeEvent (o : Outbox) (eventId : Option Nat) (contentHash now : String) : Outbox :=
  match eventId with
  | none => o
  | some e =>
    { o with
      events := o.events.update e (fun _ => true) fun ev =>
        { ev with status := "completed", completedMemoryId := some contentHash, processedAt := some now } }

/-- The row is finalized and names its durable row. -/
def settled (r : ApprovalRow) : Bool := r.finalizerState = some .finalized && r.durableMemoryId.any (· ≠ "")

/-- `_record`: the outbox, `durable_id` and `finalized_here`. -/
def recordFinalized (o : Outbox) (i : Nat) (workerId contentHash : String) (eventId : Option Nat) (now : String) :
    Outbox × Option String × Bool :=
  if o.approvals.hits i (ownedUnfinalized workerId) then
    let o := o.updateApproval i (ownedUnfinalized workerId) (setFinalized contentHash workerId)
    (o.completeEvent eventId contentHash now, some contentHash, true)
  else
    match o.approvals.get i with
    | none => (o, none, false)
    | some cur =>
      if cur.finalizerState = some .rtbfDeleting then (o, none, false)
      else if settled cur then (o, cur.durableMemoryId, false)
      else
        let o := o.updateApproval i (fun _ => true) (setFinalized contentHash workerId)
        (o.completeEvent cur.memoryEventId contentHash now, some contentHash, true)

/-- `_fail`. -/
def failClaim (o : Outbox) (i : Nat) (workerId message : String) : Outbox :=
  o.updateApproval i (ownedUnfinalized workerId) fun r =>
    { r with finalizerState := some .failed, finalizerLastError := some (take500 message) }

/-- The rows a sweep re-drives. -/
def redriveIds (d : Deployment) (o : Outbox) (a : FinalizeArgs) (cutoff : String) : List Nat :=
  if a.authorizedApprovers = [] ∨ a.expectedVia d = "" then []
  else
    (o.approvals.rows.filter fun ir =>
      ir.2.memoryEventId.isSome && provenanceOk d a ir.2 && claimable cutoff ir.2).map Prod.fst

/-! ## Specifications -/

theorem isStr_iff {v : Json} {s : String} : v.isStr s = true ↔ v = .str s := by
  cases v <;> simp [Json.isStr]

theorem eqOption_iff {v : Json} {o : Option String} : v.eqOption o = true ↔ v = .ofOption o := by
  cases v <;> cases o <;> simp [Json.eqOption, Json.ofOption]

theorem toString_ne_none (i : Nat) : toString i ≠ "None" := by
  intro h
  have hd := congrArg String.toList h
  have hdig : ∀ c ∈ (toString i).toList, c.isDigit = true := by
    intro c hc
    have : (toString i).toList = Nat.toDigits 10 i := by
      show (Nat.repr i).toList = _
      exact String.toList_ofList
    rw [this] at hc
    exact isDigit_toDigits i c hc
  have := hdig 'N' (by rw [hd]; decide)
  exact absurd this (by decide)

/-- **What a verified receipt says of the row that carries it.** -/
structure ReceiptHolds (d : Deployment) (t : AuditTable) (i : Nat) (row : ApprovalRow) (receipt : Receipt) : Prop where
  verified : ∃ seq, row.auditReceiptSeq = some seq ∧ auditVerifyThrough d.limits t seq = .ok receipt
  hash : row.auditReceiptHash = some receipt.row.thisHash
  op : receipt.row.op = "approval_decision" ∨ receipt.row.op = "approval_decision_backfill"
  target : receipt.row.targetId = some (toString i)
  tenant : receipt.row.tenantAccessed = d.defaultTenantId
  details : ∃ details, receiptDetails receipt = .ok details ∧ Dict.get details "decision" = .str "approve" ∧
    Dict.get details "approved_by" = .ofOption row.approvedBy ∧
    Dict.get details "approved_via" = .ofOption row.approvedVia ∧
    Dict.get details "candidate_sha256" = .str (candidateFingerprint row.candidateJson)

theorem checkReceipt_verified {d : Deployment} {i : Nat} {row : ApprovalRow} {storedHash storedSha : String}
    {receipt r : Receipt} :
    checkReceipt d i row storedHash storedSha receipt = .ok (.verified r) ↔
      r = receipt ∧ receipt.row.thisHash = storedHash ∧
      (receipt.row.op = "approval_decision" ∨ receipt.row.op = "approval_decision_backfill") ∧
      receipt.row.targetId = some (toString i) ∧ receipt.row.tenantAccessed = d.defaultTenantId ∧
      storedSha = candidateFingerprint row.candidateJson ∧
      ∃ details, receiptDetails receipt = .ok details ∧ Dict.get details "decision" = .str "approve" ∧
        Dict.get details "approved_by" = .ofOption row.approvedBy ∧
        Dict.get details "approved_via" = .ofOption row.approvedVia ∧
        Dict.get details "candidate_sha256" = .str storedSha := by
  have htarget : receipt.row.targetId.getD "None" = toString i ↔ receipt.row.targetId = some (toString i) := by
    cases ht : receipt.row.targetId with
    | none => simpa using (toString_ne_none i).symm
    | some s => simp
  unfold checkReceipt
  by_cases h1 : receipt.row.thisHash = storedHash
  · by_cases h2 : receipt.row.op ∈ ["approval_decision", "approval_decision_backfill"]
    · by_cases h3 : receipt.row.targetId = some (toString i)
      · rw [if_neg (not_not.2 h1), if_neg (not_not.2 h2), if_neg (not_not.2 (htarget.2 h3))]
        cases hd : receiptDetails receipt with
        | error e => simp
        | ok details =>
          simp only [← isStr_iff (s := "approve"), ← isStr_iff (s := storedSha), ← eqOption_iff, Except.ok.injEq,
            exists_eq_left']
          by_cases h4 : (Dict.get details "decision").isStr "approve" = true
          · by_cases h5 : (Dict.get details "approved_by").eqOption row.approvedBy = true ∧
                (Dict.get details "approved_via").eqOption row.approvedVia = true
            · by_cases h6 : receipt.row.tenantAccessed = d.defaultTenantId
              · by_cases h7 : (Dict.get details "candidate_sha256").isStr storedSha = true
                · by_cases h8 : candidateFingerprint row.candidateJson = storedSha
                  · simp only [List.mem_cons, List.not_mem_nil, or_false] at h2
                    simpa [h1, h3, h4, h5, h6, h7, h8, eq_comm] using fun _ => h2.imp Eq.symm Eq.symm
                  · simp [h4, h5, h6, h7, h8, Ne.symm h8]
                · simp [h4, h5, h6, h7]
              · simp [h4, h5, h6]
            · rcases not_and_or.1 h5 with h5 | h5 <;> simp [h4, h5]
          · simp [h4]
      · rw [if_neg (not_not.2 h1), if_neg (not_not.2 h2), if_pos (fun h => h3 (htarget.1 h))]
        constructor
        · intro h; cases h
        · rintro ⟨-, -, -, h, -⟩; exact absurd h h3
    · rw [if_neg (not_not.2 h1), if_pos h2]
      simp only [List.mem_cons, List.not_mem_nil, or_false] at h2
      simp [h2]
  · rw [if_pos h1]
    simp [h1]

/-- **The gate lets a row pass exactly on a receipt that holds.** -/
theorem receiptGateRefusal_verified {d : Deployment} {view : Except String AuditTable} {i : Nat} {row : ApprovalRow}
    {receipt : Receipt} (h : receiptGateRefusal d view i row = .ok (.verified receipt)) :
    ∃ t, view = .ok t ∧ ReceiptHolds d t i row receipt := by
  unfold receiptGateRefusal at h
  split at h
  · rename_i seq storedHash storedSha hseq hhash hsha
    split at h
    · cases h
    · split at h
      · cases h
      · rename_i t
        split at h
        · cases h
        · cases h
        · rename_i rc hv
          obtain ⟨rfl, h1, h2, h3, h4, h5, details, h6, h7, h8, h9, h10⟩ := checkReceipt_verified.1 h
          refine ⟨t, rfl, ⟨seq, hseq, hv⟩, by rw [hhash, h1], h2, h3, h4, details, h6, h7, h8, h9, ?_⟩
          rw [h10, h5]
  · cases h

/-- The cases of the first transaction: nothing is written, the row is refused, or it is claimed. -/
theorem gateAndClaim_cases (d : Deployment) (view : Except String AuditTable) (a : FinalizeArgs)
    (workerId now cutoff : String) (o : Outbox) :
    ((gateAndClaim d view a workerId now cutoff o).1 = o ∧ ∀ c, (gateAndClaim d view a workerId now cutoff o).2 ≠ .claimed c) ∨
    (∃ row message, o.approvals.get a.approvalId = some row ∧ rowVerdict d view a cutoff row = .refuse message ∧
      a.authorizedApprovers ≠ [] ∧ a.expectedVia d ≠ "" ∧
      gateAndClaim d view a workerId now cutoff o = (refuseRow o a.approvalId message, .returned none)) ∨
    (∃ row receipt, o.approvals.get a.approvalId = some row ∧ rowVerdict d view a cutoff row = .claim receipt ∧
      claimable cutoff row = true ∧
      gateAndClaim d view a workerId now cutoff o =
        (claimRow o a.approvalId workerId now cutoff, .claimed ⟨row, receiptProposer receipt, workerId⟩)) := by
  unfold gateAndClaim
  by_cases h1 : a.authorizedApprovers = []
  · simp [h1]
  · by_cases h2 : a.expectedVia d = ""
    · simp [h1, h2]
    · rw [if_neg h1, if_neg h2]
      cases hr : o.approvals.get a.approvalId with
      | none => simp
      | some row =>
        simp only
        cases hv : rowVerdict d view a cutoff row with
        | skip => simp
        | refuse message => exact .inr (.inl ⟨row, message, rfl, hv, h1, h2, rfl⟩)
        | answer durableId => simp
        | raise e => simp
        | claim receipt =>
          simp only
          by_cases hc : claimable cutoff row = true
          · have hh : o.approvals.hits a.approvalId (claimable cutoff) = true := Table.hits_iff.2 ⟨row, hr, hc⟩
            exact .inr (.inr ⟨row, receipt, rfl, hv, hc, by rw [if_pos hh]⟩)
          · have hh : ¬ o.approvals.hits a.approvalId (claimable cutoff) = true := by
              rw [Table.hits_iff]
              rintro ⟨r, h, hc'⟩
              rw [hr] at h
              cases h
              exact hc hc'
            rw [if_neg hh]
            simp

/-- A claim was let through by the gate. -/
theorem rowVerdict_claim {d : Deployment} {view : Except String AuditTable} {a : FinalizeArgs} {cutoff : String}
    {row : ApprovalRow} {receipt : Receipt} (h : rowVerdict d view a cutoff row = .claim receipt) :
    row.status = .approved ∧ row.memoryEventId ≠ none ∧ provenanceOk d a row = true ∧ notFinalized row = true ∧
      receiptGateRefusal d view a.approvalId row = .ok (.verified receipt) := by
  unfold rowVerdict at h
  split at h
  · cases h
  · rename_i h1
    split at h
    · cases h
    · rename_i h2
      split at h
      · cases h
      · rename_i h3
        split at h
        · cases h
        · split at h
          · cases h
          · cases h
          · rename_i rc hg
            cases h
            simp only [not_or, not_not] at h1
            exact ⟨h1.1, h1.2, by simpa using h2, by simpa [notFinalized] using h3, hg⟩

/-- A refusal concerns an approved row. -/
theorem rowVerdict_refuse {d : Deployment} {view : Except String AuditTable} {a : FinalizeArgs} {cutoff : String}
    {row : ApprovalRow} {message : String} (h : rowVerdict d view a cutoff row = .refuse message) :
    row.status = .approved ∧ row.memoryEventId ≠ none := by
  unfold rowVerdict at h
  split at h
  · cases h
  · rename_i h1
    simp only [not_or, not_not] at h1
    exact h1

/-- The cases of `_record`: the row is written, or nothing is. -/
theorem recordFinalized_cases (o : Outbox) (i : Nat) (workerId contentHash : String) (eventId : Option Nat) (now : String) :
    (∃ cur, o.approvals.get i = some cur ∧ ownedUnfinalized workerId cur = true ∧
      recordFinalized o i workerId contentHash eventId now =
        ((o.updateApproval i (ownedUnfinalized workerId) (setFinalized contentHash workerId)).completeEvent eventId contentHash now,
          some contentHash, true)) ∨
    (o.approvals.get i = none ∧ recordFinalized o i workerId contentHash eventId now = (o, none, false)) ∨
    (∃ cur, o.approvals.get i = some cur ∧ ownedUnfinalized workerId cur = false ∧
      cur.finalizerState = some .rtbfDeleting ∧ recordFinalized o i workerId contentHash eventId now = (o, none, false)) ∨
    (∃ cur, o.approvals.get i = some cur ∧ settled cur = true ∧
      recordFinalized o i workerId contentHash eventId now = (o, cur.durableMemoryId, false)) ∨
    (∃ cur, o.approvals.get i = some cur ∧ ownedUnfinalized workerId cur = false ∧
      cur.finalizerState ≠ some .rtbfDeleting ∧ settled cur = false ∧
      recordFinalized o i workerId contentHash eventId now =
        ((o.updateApproval i (fun _ => true) (setFinalized contentHash workerId)).completeEvent cur.memoryEventId contentHash now,
          some contentHash, true)) := by
  unfold recordFinalized
  cases hr : o.approvals.get i with
  | none =>
    have hh : ¬ o.approvals.hits i (ownedUnfinalized workerId) = true := by
      rw [Table.hits_iff]; rintro ⟨r, h, -⟩; rw [hr] at h; cases h
    rw [if_neg hh]
    exact .inr (.inl ⟨rfl, rfl⟩)
  | some cur =>
    by_cases ho : ownedUnfinalized workerId cur = true
    · rw [if_pos (Table.hits_iff.2 ⟨cur, hr, ho⟩)]
      exact .inl ⟨cur, rfl, ho, rfl⟩
    · have hh : ¬ o.approvals.hits i (ownedUnfinalized workerId) = true := by
        rw [Table.hits_iff]
        rintro ⟨r, h, hg⟩
        rw [hr] at h
        cases h
        exact ho hg
      have ho' := Bool.not_eq_true _ ▸ ho
      rw [if_neg hh]
      simp only
      by_cases hs : cur.finalizerState = some .rtbfDeleting
      · rw [if_pos hs]
        exact .inr (.inr (.inl ⟨cur, rfl, ho', hs, rfl⟩))
      · rw [if_neg hs]
        by_cases hset : settled cur = true
        · rw [if_pos hset]
          exact .inr (.inr (.inr (.inl ⟨cur, rfl, hset, rfl⟩)))
        · rw [if_neg hset]
          exact .inr (.inr (.inr (.inr ⟨cur, rfl, ho', hs, by simpa using hset, rfl⟩)))

end Panella

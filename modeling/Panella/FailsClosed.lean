import Panella.ReceiptFirst
import Panella.Service

/-!
# Approve and reject fail closed

A call of the service is at the door (`AtDoor`) until `verify_approver` lets it in, and nothing of the queue changes
or leaves there. Past it, `LetIn` carries the decision the call has committed; the status moves in one later
transaction, and what the finalize call does after that keeps the decision columns of every row.
**`approvalService_failsClosed`** says it of every step of the call, whatever the others do in between and however the
call ends, and of an undisturbed call as a whole.
-/

namespace Panella

open Machine PyJson

variable {d : Deployment} {api : StoreApi} {transport : ApprovalTransport} {req : ServiceRequest}

/-! ## Decision columns -/

/-- The status, decision and receipt columns of an approval, with the candidate and its proposer. -/
structure DecisionColumns where
  candidateJson : String
  status : ApprovalStatus
  memoryEventId : Option Nat
  decidedBy : Option String
  respondedAt : Option String
  expiresAt : Option String
  lastError : Option String
  approvedVia : Option String
  approvedBy : Option String
  approvedTgMessageId : Option Int
  auditReceiptSeq : Option Int
  auditReceiptHash : Option String
  candidateSha256 : Option String
  proposedByProfile : Option String

def ApprovalRow.decision (r : ApprovalRow) : DecisionColumns where
  candidateJson := r.candidateJson
  status := r.status
  memoryEventId := r.memoryEventId
  decidedBy := r.decidedBy
  respondedAt := r.respondedAt
  expiresAt := r.expiresAt
  lastError := r.lastError
  approvedVia := r.approvedVia
  approvedBy := r.approvedBy
  approvedTgMessageId := r.approvedTgMessageId
  auditReceiptSeq := r.auditReceiptSeq
  auditReceiptHash := r.auditReceiptHash
  candidateSha256 := r.candidateSha256
  proposedByProfile := r.proposedByProfile

/-- The decision columns of approval `i`, where there is one. -/
def decisionAt (o : Outbox) (i : Nat) : Option DecisionColumns := (o.approvals.get i).map ApprovalRow.decision

theorem decisionAt_update {o : Outbox} {j : Nat} {g : ApprovalRow → Bool} {f : ApprovalRow → ApprovalRow}
    (hf : ∀ r, (f r).decision = r.decision) (i : Nat) : decisionAt (o.updateApproval j g f) i = decisionAt o i := by
  cases hr : o.approvals.get i with
  | none => rw [decisionAt, get_updateApproval_none g f hr, decisionAt, hr]
  | some r =>
    rw [decisionAt, get_updateApproval g f hr, decisionAt, hr]
    simp only [Option.map_some]
    split
    · rw [hf]
    · rfl

theorem decisionAt_completeEvent (o : Outbox) (e : Option Nat) (h now : String) (i : Nat) :
    decisionAt (o.completeEvent e h now) i = decisionAt o i := by
  rw [decisionAt, completeEvent_approvals, decisionAt]

/-- Only row `j` is written. -/
theorem decisionAt_ne {o : Outbox} {i j : Nat} (g : ApprovalRow → Bool) (f : ApprovalRow → ApprovalRow) (h : i ≠ j) :
    decisionAt (o.updateApproval j g f) i = decisionAt o i := by
  show ((o.approvals.update j g f).get i).map _ = _
  rw [Table.get_update_ne _ _ _ h]
  rfl

/-! ## The finalize call of an approval -/

/-- The job of a finalize call. -/
def Call.job : Call → Option Job
  | .gate j | .claimed j _ | .posting j _ _ | .lookingUp j _ _ _ | .failing j _ _ | .recording j _ _ _ | .cleaning j _
  | .noting j _ _ | .announcing j _ _ _ | .attesting j _ _ _ => some j
  | _ => none

theorem held_job {c : Call} {j : Job} {cl : Claim} (h : c.held = some (j, cl)) : c.job = some j := by
  cases c <;> first | (cases h; rfl) | cases h

theorem finish_service {j : Job} {mode : ApproveMode} (h : j.caller = .service mode) (result : Except PyErr (Option String)) :
    ∃ x, finish j result = .returned x := by
  unfold finish
  rw [h]
  cases result with
  | error e => exact ⟨_, rfl⟩
  | ok o => cases o <;> exact ⟨_, rfl⟩

section Finalizing

variable {w : World} {rep : Reply} {c : Call} {j : Job} {mode : ApproveMode}

variable (d api w rep) in
/-- **A finalize call of the service keeps its job until it returns.** -/
theorem advance_job (hj : c.job = some j) (hs : j.caller = .service mode) :
    (advance d api w rep c).2.job = some j ∨ ∃ x, (advance d api w rep c).2 = .returned x := by
  have done : ∀ {result c'}, finish j result = c' → c'.job = some j ∨ ∃ x, c' = .returned x := fun h => by
    obtain ⟨x, hx⟩ := finish_service hs _
    exact .inr ⟨x, h ▸ hx⟩
  cases c with
  | gate j' =>
    cases hj
    show (advanceGate d w j rep).2.job = _ ∨ ∃ x, (advanceGate d w j rep).2 = _
    unfold advanceGate
    dsimp only
    split
    · exact done rfl
    · exact done rfl
    · exact .inl rfl
  | claimed j' cl =>
    cases hj
    show (advanceClaimed d w j cl rep).job = _ ∨ ∃ x, advanceClaimed d w j cl rep = _
    unfold advanceClaimed
    split
    · exact done rfl
    · split
      · exact .inl rfl
      · split
        · exact .inl rfl
        · exact done rfl
  | posting j' cl built =>
    cases hj
    show (advancePosting d api w j cl built rep).2.job = _ ∨ ∃ x, (advancePosting d api w j cl built rep).2 = _
    unfold advancePosting
    split
    · exact .inl rfl
    · dsimp only
      split <;> exact .inl rfl
  | lookingUp j' cl built again =>
    cases hj
    show (advanceLookingUp d w j cl built again rep).job = _ ∨ ∃ x, advanceLookingUp d w j cl built again rep = _
    unfold advanceLookingUp
    split
    · exact .inl rfl
    · exact .inl rfl
    · split <;> exact .inl rfl
  | recording j' cl built h =>
    cases hj
    show (advanceRecording w j cl built h rep).2.job = _ ∨ ∃ x, (advanceRecording w j cl built h rep).2 = _
    unfold advanceRecording
    dsimp only
    split
    · exact .inl rfl
    · exact done rfl
    · exact done rfl
    · split
      · exact done rfl
      · exact .inl rfl
  | cleaning j' h =>
    cases hj
    show (advanceCleaning d w j h rep).2.job = _ ∨ ∃ x, (advanceCleaning d w j h rep).2 = _
    unfold advanceCleaning
    dsimp only
    split
    · exact done rfl
    · exact .inl rfl
  | announcing j' cl built h => exact .inl hj
  | failing j' cl message => cases hj; exact done rfl
  | noting j' h reason => cases hj; exact done rfl
  | attesting j' cl built h => cases hj; exact done rfl
  | idle | redriving | deciding | appending | stamping | forgetting | deleting | resolving | cascading | sweeping
  | sweepDeleting | purging | remembering | auditing | returned => cases hj

/-- **A finalize call leaves the decision columns of every row alone.** -/
theorem finalize_decisionAt (hj : c.job = some j) (i : Nat) :
    decisionAt (advance d api w rep c).1.outbox i = decisionAt w.outbox i := by
  cases c with
  | gate j' =>
    show decisionAt (gateAndClaim d (w.auditView rep) j'.args _ rep.now rep.cutoff w.outbox).1 i = _
    rcases gateAndClaim_cases d (w.auditView rep) j'.args (j'.args.worker rep.defaultWorkerId) rep.now rep.cutoff w.outbox
      with ⟨h, -⟩ | ⟨row, message, -, -, -, -, h⟩ | ⟨row, receipt, -, -, -, h⟩
    · rw [h]
    · rw [h]
      apply decisionAt_update
      exact fun _ => rfl
    · rw [h]
      apply decisionAt_update
      exact fun _ => rfl
  | recording j' cl built h =>
    show decisionAt (recordFinalized w.outbox j'.args.approvalId cl.workerId h cl.row.memoryEventId rep.now).1 i = _
    rcases recordFinalized_cases w.outbox j'.args.approvalId cl.workerId h cl.row.memoryEventId rep.now
      with ⟨cur, -, -, he⟩ | ⟨-, he⟩ | ⟨cur, -, -, -, he⟩ | ⟨cur, -, -, he⟩ | ⟨cur, -, -, -, -, he⟩
    · rw [he, decisionAt_completeEvent]
      apply decisionAt_update
      exact fun _ => rfl
    · rw [he]
    · rw [he]
    · rw [he]
    · rw [he, decisionAt_completeEvent]
      apply decisionAt_update
      exact fun _ => rfl
  | failing j' cl message =>
    apply decisionAt_update
    exact fun _ => rfl
  | posting j' cl built =>
    show decisionAt (advancePosting d api w j' cl built rep).1.outbox i = _
    unfold advancePosting
    split <;> rfl
  | attesting j' cl built h =>
    show decisionAt (w.appendBestEffort d _ _).outbox i = _
    rw [appendBestEffort_outbox]
  | claimed | lookingUp | cleaning | noting | announcing => rfl
  | idle | redriving | deciding | appending | stamping | forgetting | deleting | resolving | cascading | sweeping
  | sweepDeleting | purging | remembering | auditing | returned => cases hj

variable (d api w rep) in
/-- The event of an approval is completed by the record only. -/
theorem finalize_events (hj : c.job = some j) :
    (advance d api w rep c).1.outbox.events = w.outbox.events ∨ ∃ cl built h, c = .recording j cl built h := by
  cases c with
  | gate j' =>
    left
    show (gateAndClaim d (w.auditView rep) j'.args _ rep.now rep.cutoff w.outbox).1.events = _
    rcases gateAndClaim_cases d (w.auditView rep) j'.args (j'.args.worker rep.defaultWorkerId) rep.now rep.cutoff w.outbox
      with ⟨h, -⟩ | ⟨row, message, -, -, -, -, h⟩ | ⟨row, receipt, -, -, -, h⟩ <;> rw [h] <;> rfl
  | recording j' cl built h => cases hj; exact .inr ⟨cl, built, h, rfl⟩
  | posting j' cl built =>
    left
    show (advancePosting d api w j' cl built rep).1.outbox.events = _
    unfold advancePosting
    split <;> rfl
  | attesting j' cl built h =>
    left
    show (w.appendBestEffort d _ _).outbox.events = _
    rw [appendBestEffort_outbox]
  | failing | claimed | lookingUp | cleaning | noting | announcing => exact .inl rfl
  | idle | redriving | deciding | appending | stamping | forgetting | deleting | resolving | cascading | sweeping
  | sweepDeleting | purging | remembering | auditing | returned => cases hj

/-- **What a finalize call has claimed is receipted**, if that held before the step. -/
theorem receipted_advance (hh : ∀ j cl, c.held = some (j, cl) → ∃ receipt, Receipted d w.audit j cl.row receipt) :
    ∀ j cl, (advance d api w rep c).2.held = some (j, cl) →
      ∃ receipt, Receipted d (advance d api w rep c).1.audit j cl.row receipt := by
  intro j cl hheld
  -- the call alone in a system
  have hcall : (step d api ⟨w, fun _ => c⟩ (.advance 0 rep)).calls 0 = (advance d api w rep c).2 := by
    show Function.update (fun _ => c) 0 (advance d api w rep c).2 0 = _
    rw [Function.update_self]
  have hg : Grows d w.audit (advance d api w rep c).1.audit := audit_step d api ⟨w, fun _ => c⟩ (.advance 0 rep)
  rcases held_step d api (s := ⟨w, fun _ => c⟩) (a := .advance 0 rep) (t := 0) (hcall.symm ▸ hheld)
    with hold | ⟨rep', row, receipt, ha, -, -, -, hv, rfl⟩
  · obtain ⟨receipt, hrec⟩ := hh j cl hold
    exact ⟨receipt, hrec.grows hg⟩
  · cases ha
    exact ⟨receipt, (receipted_of_claim hv).grows hg⟩

end Finalizing

/-! ## Where a call of the service stands -/

/-- The log has the decision of the service. -/
def Committed (d : Deployment) (t : AuditTable) (i : Nat) (decision by' via : String) (sha : Option String) : Prop :=
  ∃ entry ∈ t.rows, Decides d.limits entry i decision by' via sha

/-- Nobody has been let in: the call is to begin, or was turned away. -/
inductive AtDoor (d : Deployment) (transport : ApprovalTransport) (req : ServiceRequest) : Serving → Prop
  | begin : AtDoor d transport req (req.begin transport)
  | turnedAway {canonical : Option String} {e : PyErr} (hv : verifyApprover d canonical = .error e) :
      AtDoor d transport req (.approving (.returned (.raised e)))
  | refused {canonical : Option String} {e : PyErr} (hv : verifyApprover d canonical = .error e) :
      AtDoor d transport req (.ended (.refused (d.errorText e)))

/-- The approver `canonical` was let in; `Read` holds of the candidate bytes the call has read. -/
inductive LetIn (d : Deployment) (transport : ApprovalTransport) (req : ServiceRequest) (Read : Nat → String → Prop) (t : AuditTable)
    (canonical : String) : Serving → Prop
  | appending {i : Nat} {candidateJson : String} {proposer : Option String} (ho : req.op = .approve i)
      (hb : Read i candidateJson) :
      LetIn d transport req Read t canonical
        (.approving (.appending ⟨i, req.audit, some canonical, transport.stampProvenance⟩ canonical candidateJson proposer))
  | stamping {i : Nat} {candidateJson : String} {entry : AuditRow} (ho : req.op = .approve i)
      (hb : Read i candidateJson) (he : entry ∈ t.rows)
      (hd : Decides d.limits entry i "approve" canonical transport.stampProvenance (some (candidateFingerprint candidateJson))) :
      LetIn d transport req Read t canonical
        (.approving (.stamping ⟨i, req.audit, some canonical, transport.stampProvenance⟩ canonical
          ⟨entry.seq, entry.thisHash, candidateFingerprint candidateJson⟩))
  | finalizing {i : Nat} {candidateJson : String} {c : Call} {j : Job} {mode : ApproveMode} (ho : req.op = .approve i)
      (hb : Read i candidateJson)
      (hc : Committed d t i "approve" canonical transport.stampProvenance (some (candidateFingerprint candidateJson)))
      (hj : c.job = some j) (hi : j.args.approvalId = i) (hs : j.caller = .service mode)
      (hh : ∀ j cl, c.held = some (j, cl) → ∃ receipt, Receipted d t j cl.row receipt) :
      LetIn d transport req Read t canonical (.approving c)
  | approved {result : CallResult} : LetIn d transport req Read t canonical (.approving (.returned result))
  | marking {i : Nat} (ho : req.op = .reject i) (hc : Committed d t i "reject" canonical transport.stampProvenance none) :
      LetIn d transport req Read t canonical
        (.marking ⟨i, req.audit, some canonical, transport.stampProvenance⟩ canonical)
  | disclosing {rows : List PendingItem} : LetIn d transport req Read t canonical (.disclosing req.audit canonical rows)
  | ended {result : ServiceResult} : LetIn d transport req Read t canonical (.ended result)

/-- At the door, or let in with an authorized credential. -/
def Stage (d : Deployment) (transport : ApprovalTransport) (req : ServiceRequest) (Read : Nat → String → Prop)
    (s : World × Serving) : Prop :=
  AtDoor d transport req s.2 ∨
    ∃ canonical, Authorized d transport req.credential canonical ∧ LetIn d transport req Read s.1.audit canonical s.2

theorem Committed.mono {t t' : AuditTable} {i : Nat} {decision by' via : String} {sha : Option String}
    (h : Committed d t i decision by' via sha) (hm : ∀ row ∈ t.rows, row ∈ t'.rows) : Committed d t' i decision by' via sha := by
  obtain ⟨entry, he, hd⟩ := h
  exact ⟨entry, hm entry he, hd⟩

/-- **What the call knows stays true**: the log grows, and what was read was read. -/
theorem LetIn.mono {Read Read' : Nat → String → Prop} {t t' : AuditTable} {canonical : String} {sv : Serving}
    (h : LetIn d transport req Read t canonical sv) (hm : ∀ row ∈ t.rows, row ∈ t'.rows)
    (hr : ∀ j row receipt, Receipted d t j row receipt → Receipted d t' j row receipt)
    (hRead : ∀ i cj, Read i cj → Read' i cj) : LetIn d transport req Read' t' canonical sv := by
  cases h with
  | appending ho hb => exact .appending ho (hRead _ _ hb)
  | stamping ho hb he hd => exact .stamping ho (hRead _ _ hb) (hm _ he) hd
  | finalizing ho hb hc hj hi hs hh =>
    refine .finalizing ho (hRead _ _ hb) (hc.mono hm) hj hi hs fun j cl hheld => ?_
    obtain ⟨receipt, hrec⟩ := hh j cl hheld
    exact ⟨receipt, hr _ _ _ hrec⟩
  | approved => exact .approved
  | marking ho hc => exact .marking ho (hc.mono hm)
  | disclosing => exact .disclosing
  | ended => exact .ended

theorem verifyApprover_presser {credential : Json} {c : Option String} {canonical : String}
    (hp : presser transport credential = .ok c) (hv : verifyApprover d c = .ok canonical) :
    c = some canonical ∧ Authorized d transport credential canonical := by
  unfold verifyApprover at hv
  split at hv
  · cases hv
  · split at hv
    · rename_i by' hmem
      cases hv
      exact ⟨rfl, hp, hmem⟩
    · cases hv

/-! ## One step of the call -/

/-- **A row is decided**: the log had the decision, of an authorized approver, before the row changed. -/
inductive RowDecided (d : Deployment) (transport : ApprovalTransport) (req : ServiceRequest) (w w' : World) (i : Nat) : Prop
  | approved {canonical : String} {row : ApprovalRow} {entry : AuditRow} (now : String) (eventId : Nat) (ho : req.op = .approve i)
      (ha : Authorized d transport req.credential canonical) (hr : w.outbox.approvals.get i = some row)
      (he : entry ∈ w.audit.rows)
      (hd : Decides d.limits entry i "approve" canonical transport.stampProvenance (some (candidateFingerprint row.candidateJson)))
      (hr' : w'.outbox.approvals.get i = some (stampApproved (serviceStamp transport.stampProvenance canonical
        ⟨entry.seq, entry.thisHash, candidateFingerprint row.candidateJson⟩ now) eventId row))
  | rejected {canonical : String} {row : ApprovalRow} (now : String) (ho : req.op = .reject i)
      (ha : Authorized d transport req.credential canonical) (hr : w.outbox.approvals.get i = some row)
      (hc : Committed d w.audit i "reject" canonical transport.stampProvenance none)
      (hr' : w'.outbox.approvals.get i = some { row with
        status := .rejected, respondedAt := some now, decidedBy := some (decider d (some canonical)), lastError := none })

/-- **The events change**: by the first approval, which inserts one, or by the record of a finalize call, which completes
one. The log had this call's approval, of bytes it read, and for the record also the receipt the gate verified. -/
inductive EventsDecided (d : Deployment) (transport : ApprovalTransport) (req : ServiceRequest) (Read : Nat → String → Prop)
    (w : World) (sv : Serving) : Prop
  | approved {i : Nat} {canonical : String} {row : ApprovalRow} (ho : req.op = .approve i)
      (ha : Authorized d transport req.credential canonical) (hr : w.outbox.approvals.get i = some row)
      (hc : Committed d w.audit i "approve" canonical transport.stampProvenance (some (candidateFingerprint row.candidateJson)))
  | recorded {i : Nat} {canonical candidateJson h : String} {j : Job} {c : Claim} {built : DurablePayload} {receipt : Receipt}
      (ho : req.op = .approve i) (ha : Authorized d transport req.credential canonical) (hb : Read i candidateJson)
      (hc : Committed d w.audit i "approve" canonical transport.stampProvenance (some (candidateFingerprint candidateJson)))
      (hs : sv = .approving (.recording j c built h)) (hi : j.args.approvalId = i)
      (hrec : Receipted d w.audit j c.row receipt)

/-- What a step of the call may do to the outbox. -/
structure StepClosed (d : Deployment) (transport : ApprovalTransport) (req : ServiceRequest) (Read : Nat → String → Prop)
    (w w' : World) (sv : Serving) : Prop where
  rows : ∀ i, decisionAt w'.outbox i = decisionAt w.outbox i ∨ RowDecided d transport req w w' i
  events : w'.outbox.events = w.outbox.events ∨ EventsDecided d transport req Read w sv

theorem stepClosed_of_eq {Read : Nat → String → Prop} {w w' : World} {sv : Serving} (h : w'.outbox = w.outbox) :
    StepClosed d transport req Read w w' sv where
  rows i := .inl (by rw [h])
  events := .inl (by rw [h])

section Step

variable {w : World} {rep : Reply} {readBack : Option PyErr}

theorem advanceApproving_world (c : Call) :
    (advanceApproving d api w rep readBack c).1 = (advance d api w rep c).1 := by
  unfold advanceApproving
  split
  · rename_i h
    rw [h]
  · rfl

variable (d api w rep readBack) in
/-- Reading the hash back can only raise. -/
theorem advanceApproving_call (c : Call) :
    (advanceApproving d api w rep readBack c).2 = (advance d api w rep c).2 ∨
      ∃ e, (advanceApproving d api w rep readBack c).2 = .returned (.raised e) := by
  unfold advanceApproving
  split
  · exact .inr ⟨_, rfl⟩
  · exact .inl rfl

theorem advanceApproving_eq {c : Call} (h : ∀ q canonical cj proposer, c ≠ .appending q canonical cj proposer) :
    advanceApproving d api w rep readBack c = advance d api w rep c := by
  unfold advanceApproving
  split
  · exact absurd rfl (h _ _ _ _)
  · rfl

variable (d api w rep readBack) in
/-- **At the door nothing changes**, and only an authorized credential gets in. -/
theorem atDoor_step {sv : Serving} (h : AtDoor d transport req sv) :
    (advanceServing d api w rep readBack sv).1.outbox = w.outbox ∧
      Stage d transport req (fun i cj => ∃ row, w.outbox.approvals.get i = some row ∧ row.candidateJson = cj)
        (advanceServing d api w rep readBack sv) := by
  cases h with
  | turnedAway hv => exact ⟨rfl, .inl (.turnedAway hv)⟩
  | refused hv => exact ⟨rfl, .inl (.refused hv)⟩
  | begin =>
    have hbegin : AtDoor d transport req (req.begin transport) := .begin
    unfold ServiceRequest.begin at hbegin ⊢
    cases hp : presser transport req.credential with
    | error e =>
      rw [hp] at hbegin
      exact ⟨rfl, .inl hbegin⟩
    | ok c =>
      cases ho : req.op with
      | approve i =>
        show (advanceDeciding d w ⟨i, req.audit, c, transport.stampProvenance⟩ rep).1.outbox = _ ∧
          Stage d transport req _ ((advanceDeciding d w ⟨i, req.audit, c, transport.stampProvenance⟩ rep).1,
            .approving (advanceDeciding d w ⟨i, req.audit, c, transport.stampProvenance⟩ rep).2)
        unfold advanceDeciding
        cases hv : verifyApprover d c with
        | error e => exact ⟨appendBestEffort_outbox _ _ _ _, .inl (.turnedAway hv)⟩
        | ok canonical =>
          obtain ⟨rfl, ha⟩ := verifyApprover_presser hp hv
          cases hr : w.outbox.approvals.get i with
          | none =>
            exact ⟨appendBestEffort_outbox _ _ _ _, .inr ⟨canonical, ha, .approved⟩⟩
          | some row =>
            exact ⟨rfl, .inr ⟨canonical, ha, .appending ho ⟨row, hr, rfl⟩⟩⟩
      | reject i =>
        show (advanceRejecting d w ⟨i, req.audit, c, transport.stampProvenance⟩ rep readBack).1.outbox = _ ∧
          Stage d transport req _ (advanceRejecting d w ⟨i, req.audit, c, transport.stampProvenance⟩ rep readBack)
        unfold advanceRejecting
        cases hv : verifyApprover d c with
        | error e => exact ⟨appendBestEffort_outbox _ _ _ _, .inl (.refused hv)⟩
        | ok canonical =>
          obtain ⟨rfl, ha⟩ := verifyApprover_presser hp hv
          dsimp only
          split
          · exact ⟨rfl, .inr ⟨canonical, ha, .ended⟩⟩
          · rename_i t seq thisHash hap
            obtain ⟨detailsJson, hd, rfl, -⟩ := appendWithHash_ok hap
            refine ⟨rfl, .inr ⟨canonical, ha, ?_⟩⟩
            cases readBack with
            | some e => exact .ended
            | none => exact .marking ho ⟨_, List.mem_append_right _ (List.mem_singleton_self _), decides_decision hd⟩
      | listPending limit =>
        show (advanceListing d w req.audit c (listLimit limit) rep).1.outbox = _ ∧
          Stage d transport req _ (advanceListing d w req.audit c (listLimit limit) rep)
        unfold advanceListing
        cases hv : verifyApprover d c with
        | error e => exact ⟨appendBestEffort_outbox _ _ _ _, .inl (.refused hv)⟩
        | ok canonical =>
          obtain ⟨-, ha⟩ := verifyApprover_presser hp hv
          dsimp only
          split
          · exact ⟨rfl, .inr ⟨canonical, ha, .ended⟩⟩
          · exact ⟨rfl, .inr ⟨canonical, ha, .disclosing⟩⟩

/-- **The stamp**: nothing is written, or the row is approved for the first time. -/
theorem stamping_cases (d : Deployment) (w : World) (q : ServiceCall) (canonical : String) (receipt : ReceiptTriple) (rep : Reply) :
    ((advanceStamping d w q canonical receipt rep).1.outbox = w.outbox ∨
      ∃ row payload text, w.outbox.approvals.get q.approvalId = some row ∧
        receipt.sha256 = candidateFingerprint row.candidateJson ∧
        (advanceStamping d w q canonical receipt rep).1.outbox =
          (w.outbox.insertEvent (approvalEvent d payload text rep.now)).updateApproval q.approvalId (fun _ => true)
            (stampApproved (serviceStamp q.via canonical receipt rep.now) w.outbox.events.nextId)) ∧
    ((∃ x, (advanceStamping d w q canonical receipt rep).2 = .returned x) ∨
      ∃ mode, (advanceStamping d w q canonical receipt rep).2 =
        .gate ⟨⟨q.approvalId, d.authorizedApprovers, some q.via, none⟩, .service mode⟩) := by
  unfold advanceStamping
  cases hm : mcpApproveOrRedrive d w.outbox q.approvalId q.via canonical receipt rep.now with
  | error e => exact ⟨.inl rfl, .inl ⟨_, rfl⟩⟩
  | ok om =>
    obtain ⟨o', mode⟩ := om
    refine ⟨?_, .inr ⟨mode, rfl⟩⟩
    rcases mcpApprove_ok hm with ⟨rfl, -⟩ | ⟨-, ⟨row, hrow, hne⟩, e, ha⟩
    · exact .inl rfl
    · obtain ⟨row', hrow', hsha, ⟨hdone, -⟩ | ⟨-, rfl, payload, text, -, rfl⟩⟩ := approveInConn_ok ha
      · rw [hrow] at hrow'
        cases hrow'
        exact absurd (alreadyApproved_some hdone).1 hne
      · exact .inr ⟨row', payload, text, hrow', hsha _ rfl, rfl⟩

theorem audit_advance (d : Deployment) (api : StoreApi) (w : World) (rep : Reply) (c : Call) :
    Grows d w.audit (advance d api w rep c).1.audit :=
  audit_step d api ⟨w, fun _ => c⟩ (.advance 0 rep)

/-- The step of an approval that has committed its decision and stamps it. -/
theorem stamping_closed {Read : Nat → String → Prop} {canonical candidateJson : String} {i : Nat} {entry : AuditRow}
    {sv : Serving} (ho : req.op = .approve i) (ha : Authorized d transport req.credential canonical) (he : entry ∈ w.audit.rows)
    (hd : Decides d.limits entry i "approve" canonical transport.stampProvenance (some (candidateFingerprint candidateJson)))
    {w' : World}
    (h : w'.outbox = w.outbox ∨ ∃ row payload text, w.outbox.approvals.get i = some row ∧
      candidateFingerprint candidateJson = candidateFingerprint row.candidateJson ∧
      w'.outbox = (w.outbox.insertEvent (approvalEvent d payload text rep.now)).updateApproval i (fun _ => true)
        (stampApproved (serviceStamp transport.stampProvenance canonical
          ⟨entry.seq, entry.thisHash, candidateFingerprint candidateJson⟩ rep.now) w.outbox.events.nextId)) :
    StepClosed d transport req Read w w' sv := by
  rcases h with h | ⟨row, payload, text, hr, hsha, h⟩
  · exact stepClosed_of_eq h
  · rw [hsha] at hd h
    refine ⟨fun k => ?_, .inr (.approved ho ha hr ⟨entry, he, hd⟩)⟩
    by_cases hk : k = i
    · subst hk
      refine .inr (.approved rep.now w.outbox.events.nextId ho ha hr he hd ?_)
      rw [h, get_updateApproval (o := w.outbox.insertEvent _) _ _ hr, if_pos ⟨rfl, rfl⟩]
    · left
      rw [h, decisionAt_ne _ _ hk]
      rfl

/-- **Past the door** a step keeps what the call knows, and changes the outbox under a committed decision only. -/
theorem letIn_step {Read : Nat → String → Prop} {canonical : String} {sv : Serving}
    (ha : Authorized d transport req.credential canonical) (h : LetIn d transport req Read w.audit canonical sv) :
    LetIn d transport req Read (advanceServing d api w rep readBack sv).1.audit canonical
        (advanceServing d api w rep readBack sv).2 ∧
      StepClosed d transport req Read w (advanceServing d api w rep readBack sv).1 sv := by
  cases h with
  | @appending i candidateJson proposer ho hb =>
    show LetIn d transport req Read (advanceApproving d api w rep readBack _).1.audit canonical
      (.approving (advanceApproving d api w rep readBack _).2) ∧
      StepClosed d transport req Read w (advanceApproving d api w rep readBack _).1 _
    generalize hc : Call.appending ⟨i, req.audit, some canonical, transport.stampProvenance⟩ canonical candidateJson proposer = c
    have hstep : LetIn d transport req Read (advance d api w rep c).1.audit canonical (.approving (advance d api w rep c).2) ∧
        (advance d api w rep c).1.outbox = w.outbox := by
      subst hc
      show LetIn d transport req Read (advanceAppending d w _ canonical candidateJson proposer rep).1.audit canonical
        (.approving (advanceAppending d w _ canonical candidateJson proposer rep).2) ∧
        (advanceAppending d w _ canonical candidateJson proposer rep).1.outbox = _
      unfold advanceAppending
      dsimp only
      split
      · exact ⟨.approved, rfl⟩
      · rename_i t seq thisHash hap
        obtain ⟨detailsJson, hdet, rfl, rfl, rfl⟩ := appendWithHash_ok hap
        exact ⟨.stamping ho hb (List.mem_append_right _ (List.mem_singleton_self _)) (decides_decision hdet), rfl⟩
    rw [advanceApproving_world]
    refine ⟨?_, stepClosed_of_eq hstep.2⟩
    rcases advanceApproving_call d api w rep readBack c with h | ⟨e, h⟩
    · rw [h]
      exact hstep.1
    · rw [h]
      exact .approved
  | @stamping i candidateJson entry ho hb he hd =>
    have hout := stamping_cases d w ⟨i, req.audit, some canonical, transport.stampProvenance⟩ canonical
      ⟨entry.seq, entry.thisHash, candidateFingerprint candidateJson⟩ rep
    show LetIn d transport req Read (advanceApproving d api w rep readBack _).1.audit canonical
      (.approving (advanceApproving d api w rep readBack _).2) ∧
      StepClosed d transport req Read w (advanceApproving d api w rep readBack _).1 _
    rw [advanceApproving_eq (by intros; simp)]
    show LetIn d transport req Read (advanceStamping d w _ canonical _ rep).1.audit canonical
      (.approving (advanceStamping d w _ canonical _ rep).2) ∧ StepClosed d transport req Read w (advanceStamping d w _ canonical _ rep).1 _
    have hg : Grows d w.audit (advanceStamping d w ⟨i, req.audit, some canonical, transport.stampProvenance⟩ canonical
        ⟨entry.seq, entry.thisHash, candidateFingerprint candidateJson⟩ rep).1.audit :=
      audit_advance d api w rep (.stamping ⟨i, req.audit, some canonical, transport.stampProvenance⟩ canonical _)
    refine ⟨?_, stamping_closed ho ha he hd hout.1⟩
    rcases hout.2 with ⟨x, hx⟩ | ⟨mode, hx⟩
    · rw [hx]
      exact .approved
    · rw [hx]
      refine .finalizing ho hb ⟨entry, hg.mem he, hd⟩ rfl rfl rfl ?_
      intro j cl hheld
      cases hheld
  | @finalizing i candidateJson c j mode ho hb hc hj hi hs hh =>
    show LetIn d transport req Read (advanceApproving d api w rep readBack c).1.audit canonical
      (.approving (advanceApproving d api w rep readBack c).2) ∧
      StepClosed d transport req Read w (advanceApproving d api w rep readBack c).1 _
    rw [advanceApproving_eq (by rintro q by' cj proposer rfl; cases hj)]
    have hg := audit_advance d api w rep c
    refine ⟨?_, fun k => .inl (finalize_decisionAt hj k), ?_⟩
    · rcases advance_job d api w rep hj hs with hj' | ⟨x, hx⟩
      · exact .finalizing ho hb (hc.mono fun _ => hg.mem) hj' hi hs (receipted_advance hh)
      · rw [hx]
        exact .approved
    · rcases finalize_events d api w rep hj with h | ⟨cl, built, h, rfl⟩
      · exact .inl h
      · obtain ⟨receipt, hrec⟩ := hh j cl rfl
        exact .inr (.recorded ho ha hb hc rfl hi hrec)
  | approved => exact ⟨.approved, stepClosed_of_eq rfl⟩
  | @marking i ho hc =>
    show LetIn d transport req Read (advanceMarking d w _ canonical rep).1.audit canonical (advanceMarking d w _ canonical rep).2 ∧
      StepClosed d transport req Read w (advanceMarking d w _ canonical rep).1 _
    unfold advanceMarking updateApprovalStatus
    simp only [List.mem_cons, true_or, if_true]
    refine ⟨by split <;> exact .ended, fun k => ?_, .inl rfl⟩
    by_cases hk : k = i
    · subst hk
      cases hr : w.outbox.approvals.get k with
      | none =>
        left
        show (((w.outbox.updateApproval k _ _).approvals.get k).map _ : Option DecisionColumns) = _
        rw [get_updateApproval_none _ _ hr, decisionAt, hr]
      | some row =>
        by_cases hopen : openForDecision row = true
        · refine .inr (.rejected rep.now ho ha hr hc ?_)
          show (w.outbox.updateApproval k _ _).approvals.get k = _
          rw [get_updateApproval _ _ hr, if_pos ⟨rfl, hopen⟩]
        · left
          show (((w.outbox.updateApproval k _ _).approvals.get k).map _ : Option DecisionColumns) = _
          rw [get_updateApproval _ _ hr, if_neg (fun hx => hopen hx.2), decisionAt, hr]
    · exact .inl (decisionAt_ne _ _ hk)
  | disclosing =>
    show LetIn d transport req Read (advanceDisclosing d w req.audit canonical _ rep).1.audit canonical
      (advanceDisclosing d w req.audit canonical _ rep).2 ∧
      StepClosed d transport req Read w (advanceDisclosing d w req.audit canonical _ rep).1 _
    unfold advanceDisclosing
    split
    · exact ⟨.ended, stepClosed_of_eq rfl⟩
    · exact ⟨.ended, stepClosed_of_eq rfl⟩
  | ended => exact ⟨.ended, stepClosed_of_eq rfl⟩

end Step

/-! ## Runs -/

def ServeAction.isOwn : ServeAction → Bool
  | .own .. => true
  | .others .. => false

/-- Approval `i` had this candidate at some point of the call so far. -/
def ReadBy (d : Deployment) (api : StoreApi) (s : World × Serving) (as : List ServeAction) (i : Nat) (candidateJson : String) :
    Prop :=
  ∃ cs, cs <+: as ∧ ∃ row, (run (serveStep d api) s cs).1.outbox.approvals.get i = some row ∧ row.candidateJson = candidateJson

theorem ReadBy.mono {s : World × Serving} {as : List ServeAction} {i : Nat} {candidateJson : String}
    (h : ReadBy d api s as i candidateJson) (bs : List ServeAction) : ReadBy d api s (as ++ bs) i candidateJson := by
  obtain ⟨cs, hcs, h⟩ := h
  exact ⟨cs, hcs.trans (List.prefix_append as bs), h⟩

theorem Stage.mono {Read Read' : Nat → String → Prop} {s : World × Serving} (h : Stage d transport req Read s)
    (hRead : ∀ i cj, Read i cj → Read' i cj) : Stage d transport req Read' s := by
  rcases h with h | ⟨canonical, ha, h⟩
  · exact .inl h
  · exact .inr ⟨canonical, ha, h.mono (fun _ h => h) (fun _ _ _ h => h) hRead⟩

variable (d api transport req) in
/-- **Every call is at the door or was let in**, whatever the others do. -/
theorem stage_run (w : World) (as : List ServeAction) :
    Stage d transport req (ReadBy d api (w, req.begin transport) as) (run (serveStep d api) (w, req.begin transport) as) := by
  refine run_history (I := fun as s => Stage d transport req (ReadBy d api (w, req.begin transport) as) s) (.inl .begin) ?_ as
  intro as a h
  have hread : ∀ i cj, ReadBy d api (w, req.begin transport) as i cj → ReadBy d api (w, req.begin transport) (as ++ [a]) i cj :=
    fun _ _ h => h.mono [a]
  cases a with
  | own rep readBack =>
    rcases h with h | ⟨canonical, ha, h⟩
    · refine (atDoor_step d api _ rep readBack h).2.mono fun i cj hr => hread i cj ?_
      exact ⟨as, List.prefix_refl as, hr⟩
    · exact .inr ⟨canonical, ha, (letIn_step ha h).1.mono (fun _ h => h) (fun _ _ _ h => h) hread⟩
  | others outbox store entries =>
    rcases h with h | ⟨canonical, ha, h⟩
    · exact .inl h
    · refine .inr ⟨canonical, ha, h.mono (fun row hrow => ?_) (fun j row receipt hrec => ?_) hread⟩
      · exact run_inv (I := fun t : AuditTable => row ∈ t.rows) (fun t e h => (grows_commitWrite d t e).mem h) hrow entries
      · exact run_inv (I := fun t => Receipted d t j row receipt) (fun t e h => h.grows (grows_commitWrite d t e)) hrec entries

/-- What a step of the call may do, at its door and past it. -/
theorem serve_closed {Read : Nat → String → Prop} {s : World × Serving} (h : Stage d transport req Read s) (rep : Reply)
    (readBack : Option PyErr) : StepClosed d transport req Read s.1 (serveStep d api s (.own rep readBack)).1 s.2 := by
  rcases h with h | ⟨canonical, ha, h⟩
  · exact stepClosed_of_eq (atDoor_step d api _ rep readBack h).1
  · exact (letIn_step ha h).2

/-! ### An undisturbed call -/

/-- The call has changed no decision and no event, or its decision on these very bytes is in the log. -/
def CallClosed (d : Deployment) (transport : ApprovalTransport) (req : ServiceRequest) (w w' : World) : Prop :=
  ((∀ i, decisionAt w'.outbox i = decisionAt w.outbox i) ∧ w'.outbox.events = w.outbox.events) ∨
    ∃ i row canonical, w.outbox.approvals.get i = some row ∧ Authorized d transport req.credential canonical ∧
      (req.op = .approve i ∧
          Committed d w'.audit i "approve" canonical transport.stampProvenance (some (candidateFingerprint row.candidateJson)) ∨
        req.op = .reject i ∧ Committed d w'.audit i "reject" canonical transport.stampProvenance none)

/-- The candidates of an outbox. -/
def candidateAt (o : Outbox) (i : Nat) : Option String := (decisionAt o i).map (·.candidateJson)

theorem candidateAt_some {o : Outbox} {i : Nat} {cj : String} :
    candidateAt o i = some cj ↔ ∃ row, o.approvals.get i = some row ∧ row.candidateJson = cj := by
  simp [candidateAt, decisionAt, ApprovalRow.decision]

theorem StepClosed.candidateAt {Read : Nat → String → Prop} {w w' : World} {sv : Serving}
    (h : StepClosed d transport req Read w w' sv) (i : Nat) : candidateAt w'.outbox i = candidateAt w.outbox i := by
  rcases h.rows i with h | h
  · rw [Panella.candidateAt, h, Panella.candidateAt]
  · cases h with
    | approved now e ho ha hr he hd hr' => rw [candidateAt_some.2 ⟨_, hr, rfl⟩, candidateAt_some.2 ⟨_, hr', rfl⟩]; rfl
    | rejected now ho ha hr hc hr' => rw [candidateAt_some.2 ⟨_, hr, rfl⟩, candidateAt_some.2 ⟨_, hr', rfl⟩]

variable (d api transport req) in
theorem candidateAt_run {w : World} {as : List ServeAction} (hown : ∀ a ∈ as, a.isOwn = true) (i : Nat) :
    candidateAt (run (serveStep d api) (w, req.begin transport) as).1.outbox i = candidateAt w.outbox i := by
  induction as using List.reverseRecOn with
  | nil => rfl
  | append_singleton as a ih =>
    rw [run_snoc, ← ih fun b hb => hown b (by simp [hb])]
    have ha := hown a (by simp)
    cases a with
    | others => cases ha
    | own rep readBack => exact (serve_closed (stage_run d api transport req w as) rep readBack).candidateAt i

theorem grows_appendEntry {t t' : AuditTable} {entry : AuditWrite} {fault : Option PyErr}
    (h : appendEntry d t entry fault = .ok t') : Grows d t t' := by
  unfold appendEntry at h
  split at h
  · cases h
  · split at h
    · cases h
    · cases h
    · rename_i t seq ha
      cases h
      unfold auditWrite at ha
      cases hd : encodeDetails d.limits entry.details with
      | error e => rw [hd] at ha; cases ha
      | ok detailsJson => rw [hd] at ha; cases ha; exact .inr ⟨entry, detailsJson, hd, rfl⟩

variable (d api) in
/-- The log grows. -/
theorem serve_grows (s : World × Serving) (rep : Reply) (readBack : Option PyErr) :
    Grows d s.1.audit (serveStep d api s (.own rep readBack)).1.audit := by
  obtain ⟨w, sv⟩ := s
  show Grows d w.audit (advanceServing d api w rep readBack sv).1.audit
  cases sv with
  | approving c =>
    show Grows d w.audit (advanceApproving d api w rep readBack c).1.audit
    rw [advanceApproving_world]
    exact audit_advance d api w rep c
  | rejecting q =>
    show Grows d w.audit (advanceRejecting d w q rep readBack).1.audit
    unfold advanceRejecting
    split
    · exact grows_appendBestEffort d w _ _
    · split
      · exact .inl rfl
      · rename_i h
        exact grows_appendWithHash h
  | marking q canonical =>
    show Grows d w.audit (advanceMarking d w q canonical rep).1.audit
    unfold advanceMarking
    split <;> exact .inl rfl
  | listing audit canonical limit =>
    show Grows d w.audit (advanceListing d w audit canonical limit rep).1.audit
    unfold advanceListing
    split
    · exact grows_appendBestEffort d w _ _
    · split <;> exact .inl rfl
  | disclosing audit canonical rows =>
    show Grows d w.audit (advanceDisclosing d w audit canonical rows rep).1.audit
    unfold advanceDisclosing
    split
    · exact .inl rfl
    · rename_i h
      exact grows_appendEntry h
  | ended result => exact .inl rfl

/-- A decision that is in the log stays there. -/
theorem CallClosed.grows {w w' w'' : World} (h : ∃ i row canonical, w.outbox.approvals.get i = some row ∧
    Authorized d transport req.credential canonical ∧
    (req.op = .approve i ∧
        Committed d w'.audit i "approve" canonical transport.stampProvenance (some (candidateFingerprint row.candidateJson)) ∨
      req.op = .reject i ∧ Committed d w'.audit i "reject" canonical transport.stampProvenance none))
    (hg : Grows d w'.audit w''.audit) : CallClosed d transport req w w'' := by
  obtain ⟨i, row, canonical, hr, ha, hdec⟩ := h
  refine .inr ⟨i, row, canonical, hr, ha, ?_⟩
  rcases hdec with ⟨ho, hcom⟩ | ⟨ho, hcom⟩
  · exact .inl ⟨ho, hcom.mono fun _ => hg.mem⟩
  · exact .inr ⟨ho, hcom.mono fun _ => hg.mem⟩

variable (d api transport req) in
/-- **An undisturbed call** changes nothing, or what it changes was committed before on the bytes the row has had throughout. -/
theorem callClosed_run {w : World} {as : List ServeAction} (hown : ∀ a ∈ as, a.isOwn = true) :
    CallClosed d transport req w (run (serveStep d api) (w, req.begin transport) as).1 := by
  induction as using List.reverseRecOn with
  | nil => exact .inl ⟨fun _ => rfl, rfl⟩
  | append_singleton as a ih =>
    have hown' : ∀ b ∈ as, b.isOwn = true := fun b hb => hown b (by simp [hb])
    have ha := hown a (by simp)
    rw [run_snoc]
    cases a with
    | others => cases ha
    | own rep readBack =>
      have hstep := @serve_closed _ api _ _ _ _ (stage_run d api transport req w as) rep readBack
      have hg := serve_grows d api (run (serveStep d api) (w, req.begin transport) as) rep readBack
      -- a candidate the row has or has had is the one it had at the beginning
      have hfirst : ∀ {cs i row}, cs <+: as →
          (run (serveStep d api) (w, req.begin transport) cs).1.outbox.approvals.get i = some row →
          ∃ row', w.outbox.approvals.get i = some row' ∧ row'.candidateJson = row.candidateJson := by
        intro cs i row hcs hr
        rw [← candidateAt_some, ← candidateAt_run d api transport req
          (fun b hb => hown' b (hcs.subset hb)) i]
        exact candidateAt_some.2 ⟨row, hr, rfl⟩
      rcases ih hown' with ⟨hrows, hevents⟩ | hdone
      · by_cases hall : ∀ i, decisionAt (serveStep d api (run (serveStep d api) (w, req.begin transport) as)
            (.own rep readBack)).1.outbox i = decisionAt (run (serveStep d api) (w, req.begin transport) as).1.outbox i
        · rcases hstep.events with h | h
          · exact .inl ⟨fun i => (hall i).trans (hrows i), h.trans hevents⟩
          · right
            cases h with
            | approved ho ha hr hc =>
              obtain ⟨row', hr', hcj⟩ := hfirst (List.prefix_refl as) hr
              exact ⟨_, row', _, hr', ha, .inl ⟨ho, by rw [hcj]; exact hc.mono fun _ => hg.mem⟩⟩
            | recorded ho ha hb hc hs hi hrec =>
              obtain ⟨cs, hcs, row, hr, rfl⟩ := hb
              obtain ⟨row', hr', hcj⟩ := hfirst hcs hr
              exact ⟨_, row', _, hr', ha, .inl ⟨ho, by rw [hcj]; exact hc.mono fun _ => hg.mem⟩⟩
        · push Not at hall
          obtain ⟨i, hi⟩ := hall
          right
          rcases hstep.rows i with h | h
          · exact absurd h hi
          · cases h with
            | approved now e ho ha hr he hd hr' =>
              obtain ⟨row', hw, hcj⟩ := hfirst (List.prefix_refl as) hr
              exact ⟨i, row', _, hw, ha, .inl ⟨ho, _, hg.mem he, by rw [hcj]; exact hd⟩⟩
            | rejected now ho ha hr hc hr' =>
              obtain ⟨row', hw, -⟩ := hfirst (List.prefix_refl as) hr
              exact ⟨i, row', _, hw, ha, .inr ⟨ho, hc.mono fun _ => hg.mem⟩⟩
      · exact CallClosed.grows hdone hg

/-- **Approve, reject and the list fail closed.** Take any outbox and log, any call of the service and any course of it:
its own transactions with any faults and answers, and between them whatever the others do to the outbox and the store
while the log grows. Then whatever the call's next transaction is and however it goes:
* each row keeps its status, decision and receipt columns, or it is the call's own approval, stamped or rejected by an
  authorized approver whose decision for this id was in the log before, an approval on exactly the row's bytes and with
  its receipt in the row; the events stay, or change under such a decision, and are completed under a receipt the
  gate has verified;
* without an authorized credential the outbox stays as it is, and the call never gets further than the door;
* where nobody else wrote since the call began, the decisions and events are those of the beginning, or the log
  has the decision of the call, an approval on the bytes the row had at the beginning. -/
theorem approvalService_failsClosed (d : Deployment) (api : StoreApi) (transport : ApprovalTransport) (w : World)
    (req : ServiceRequest) (as : List ServeAction) (rep : Reply) (readBack : Option PyErr) :
    let s := run (serveStep d api) (w, req.begin transport) as
    let s' := serveStep d api s (.own rep readBack)
    StepClosed d transport req (ReadBy d api (w, req.begin transport) as) s.1 s'.1 s.2 ∧
    ((∀ canonical, ¬ Authorized d transport req.credential canonical) →
      s'.1.outbox = s.1.outbox ∧ AtDoor d transport req s'.2) ∧
    ((∀ a ∈ as, a.isOwn = true) → CallClosed d transport req w s'.1) := by
  have hstage := stage_run d api transport req w as
  refine ⟨serve_closed hstage rep readBack, fun hno => ?_, fun hown => ?_⟩
  · rcases hstage with h | ⟨canonical, ha, -⟩
    · obtain ⟨ho, hnext⟩ := atDoor_step d api (run (serveStep d api) (w, req.begin transport) as).1 rep readBack h
      refine ⟨ho, ?_⟩
      rcases hnext with hnext | ⟨canonical, ha, -⟩
      · exact hnext
      · exact absurd ha (hno canonical)
    · exact absurd ha (hno canonical)
  · have hall : ∀ a ∈ as ++ [ServeAction.own rep readBack], a.isOwn = true := by
      intro a ha
      rcases List.mem_append.1 ha with ha | ha
      · exact hown a ha
      · rw [List.mem_singleton] at ha
        rw [ha]
        rfl
    have h := callClosed_run d api transport req (w := w) hall
    rw [run_snoc] at h
    exact h

end Panella

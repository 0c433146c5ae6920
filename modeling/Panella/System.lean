import Panella.Lib.Machine
import Panella.Rtbf

/-!
# The running system: outbox, audit log, store, and any number of calls in flight

A `Call` is where a call of one of the long-running functions stands between two of its accesses to
shared state, with the locals it has there; `advance` runs it to the next such point. One
transaction, one request to the store or one append is one step, and what it cannot know (the clock,
the answer, a fault) comes with the action as a `Reply`. Everything that is a single transaction is
an `Operation`.

| here | there |
| --- | --- |
| `gate` … `attesting` | `finalize_approved_candidate` (`approval_finalizer.py` :229-416), for each id of a sweep |
| `redriving` | the SELECT of `redrive_pending_finalizations` (:604-662) |
| `deciding`, `appending`, `stamping` | `approval_service.approve` (:198-268) |
| `forgetting` … `auditing` | `MemoryClient.hard_delete` (`client.py` :682-746), from the claim on |

A reject through the service is an append and an `updateStatus`, which may stand apart in a run.
-/

namespace Panella

open PyJson

/-! ## State -/

structure World where
  outbox : Outbox
  audit : AuditTable
  store : Store

/-- What is done with the result of a finalize call. -/
inductive Caller
  | direct
  /-- `approval_service.approve`. -/
  | service (mode : ApproveMode)
  /-- The sweep: the ids left and the number finalized. -/
  | sweep (rest : List Nat) (finalized : Nat)

structure Job where
  args : FinalizeArgs
  caller : Caller

/-- The arguments of `approval_service.approve`: `canonical` and `via` are what the transport answers. -/
structure ServiceCall where
  approvalId : Nat
  audit : ApprovalAuditContext
  canonical : Option String
  via : String

/-- A `hard_delete` past its entry checks; only root with break-glass gets there. -/
structure Forget where
  principal : Principal
  admittedAt : Instant
  admitted : principal.isRootWithBreakGlass admittedAt = true
  drawerId : String
  reason : String

/-- The locals of a `hard_delete`: the claimed approvals, the upstream ids, the ids the sweep deleted, `ok`. -/
structure Erasure where
  claimed : List Nat
  divergent : List String
  markerDeleted : List String
  ok : Bool

inductive CallResult
  | finalized (durableId : Option String)
  | approved (durableId : String) (retried : Bool)
  | swept (finalized : Nat)
  | forgotten (ok : Bool)
  | raised (e : PyErr)

inductive Call
  | idle
  /-- The gate transaction is next. -/
  | gate (j : Job)
  /-- Claimed; the payload and the re-check are next. -/
  | claimed (j : Job) (c : Claim)
  | posting (j : Job) (c : Claim) (built : DurablePayload)
  /-- `again`: a second lookup follows an empty one. -/
  | lookingUp (j : Job) (c : Claim) (built : DurablePayload) (again : Bool)
  | failing (j : Job) (c : Claim) (message : String)
  | recording (j : Job) (c : Claim) (built : DurablePayload) (contentHash : String)
  /-- The approval is gone: the orphan's DELETE is next. -/
  | cleaning (j : Job) (contentHash : String)
  | noting (j : Job) (contentHash reason : String)
  | announcing (j : Job) (c : Claim) (built : DurablePayload) (contentHash : String)
  | attesting (j : Job) (c : Claim) (built : DurablePayload) (contentHash : String)
  | redriving (a : FinalizeArgs)
  | deciding (q : ServiceCall)
  | appending (q : ServiceCall) (canonical candidateJson : String) (proposer : Option String)
  | stamping (q : ServiceCall) (canonical : String) (receipt : ReceiptTriple)
  | forgetting (f : Forget)
  /-- The DELETE of the drawer itself is next. -/
  | deleting (f : Forget) (claimed : List Nat)
  | resolving (f : Forget) (claimed : List Nat) (ok : Bool)
  | cascading (f : Forget) (e : Erasure) (hash : String) (todo : List String)
  | sweeping (f : Forget) (e : Erasure) (approvalId : Nat) (todo : List Nat)
  | sweepDeleting (f : Forget) (e : Erasure) (approvalId : Nat) (hash : String) (todo : List Nat)
  | purging (f : Forget) (e : Erasure)
  | remembering (f : Forget) (e : Erasure)
  | auditing (f : Forget) (e : Erasure)
  | returned (result : CallResult)

structure System where
  world : World
  calls : Nat → Call

/-- Nothing is in flight. -/
def System.initial (w : World) : System := ⟨w, fun _ => .idle⟩

/-! ## Actions -/

/-- What a step cannot know: clock readings as the texts they are compared as, faults and answers. -/
structure Reply where
  now : String
  cutoff : String
  instant : Instant := 0
  defaultWorkerId : String := ""
  /-- The audit database cannot be read. -/
  auditUnreadable : Option String := none
  /-- An append raises. -/
  auditFault : Option PyErr := none
  /-- The finalizer profile does not load. -/
  profileFault : Option PyErr := none
  /-- Creating the adapter raises, or the re-check of the claim does. -/
  adapterFault : Option PyErr := none
  post : PostReply := .answered false
  searchFault : Option PyErr := none
  delete : DeleteReply := .answered

inductive Operation
  | enqueue (candidateJson createdAt : String) (profile : Option String)
  | markSent (i : Nat) (messageId : Option Int) (messageIds : Option String)
  | approveRaw (i : Nat) (decidedBy : Option String) (now : String)
  | approveTelegram (i : Nat) (presser : String) (tgMessageId : Option Int) (receipt : Option ReceiptTriple) (now : String)
  | updateStatus (i : Nat) (status : ApprovalStatus) (decidedBy : Option String) (now : String)
  | defer (i : Nat) (decidedBy : Option String) (now until' : String)
  | resurface (now : String)
  | backfill (i : Nat) (principal : Principal) (tenant tsIso : String) (inspector : Inspector) (fault : Option PyErr)
  /-- Any other append to the audit log. -/
  | append (w : AuditWrite)
  /-- A direct write to the store. -/
  | put (row : StoreRow)
  /-- A row of the store stops being active. -/
  | drop (hash : String)

inductive Start
  | finalize (a : FinalizeArgs)
  | redrive (a : FinalizeArgs)
  | approve (q : ServiceCall)
  | forget (f : Forget)

inductive Action
  | op (o : Operation)
  | start (t : Nat) (c : Start)
  | advance (t : Nat) (r : Reply)

/-! ## Operations -/

def World.withOutbox (w : World) (o : Outbox) : World := { w with outbox := o }

def Operation.run (d : Deployment) (w : World) : Operation → World
  | .enqueue candidateJson createdAt profile =>
    w.withOutbox (enqueueApproval w.outbox candidateJson createdAt profile)
  | .markSent i messageId messageIds => w.withOutbox (markApprovalSent w.outbox i messageId messageIds)
  | .approveRaw i decidedBy now => w.withOutbox (commitOr w.outbox (approveQueuedCandidate d w.outbox i decidedBy now))
  | .approveTelegram i presser tgMessageId receipt now =>
    w.withOutbox (commitOr w.outbox (approveAuthorizedTelegramCandidate d w.outbox i presser tgMessageId receipt now))
  | .updateStatus i status decidedBy now =>
    w.withOutbox (commitOr w.outbox (updateApprovalStatus d w.outbox i status decidedBy now))
  | .defer i decidedBy now until' => w.withOutbox (deferQueuedCandidate d w.outbox i decidedBy now until')
  | .resurface now => w.withOutbox (resurfaceDeferredApprovals w.outbox now)
  | .backfill i principal tenant tsIso inspector fault =>
    let ot := backfillOne d principal tenant tsIso inspector fault w.store w.outbox w.audit i
    { w with outbox := ot.1, audit := ot.2 }
  | .append entry => { w with audit := commitWrite d.limits w.audit entry }
  | .put row => { w with store := w.store.insert { row with writtenFor := none } }
  | .drop hash => { w with store := w.store.remove hash }

def Start.call : Start → Call
  | .finalize a => .gate ⟨a, .direct⟩
  | .redrive a => .redriving a
  | .approve q => .deciding q
  | .forget f => .forgetting f

/-! ## The finalizer's steps -/

/-- The next id of a sweep, or its end. -/
def nextInSweep (a : FinalizeArgs) (rest : List Nat) (finalized : Nat) : Call :=
  match rest with
  | [] => .returned (.swept finalized)
  | i :: rest => .gate ⟨{ a with approvalId := i }, .sweep rest finalized⟩

/-- A finalize call returns or raises. -/
def finish (j : Job) (result : Except PyErr (Option String)) : Call :=
  match j.caller, result with
  | .direct, .ok durableId => .returned (.finalized durableId)
  | .direct, .error e => .returned (.raised e)
  | .service mode, .ok (some durableId) => .returned (.approved durableId (mode = .redrive))
  | .service _, .ok none =>
    .returned (.raised (.runtimeError ("approval " ++ toString j.args.approvalId ++
      " is approved but not yet durable (finalize did not complete — likely a transient store issue); retry to redrive it")))
  | .service _, .error e => .returned (.raised e)
  | .sweep rest n, .ok (some durableId) => nextInSweep j.args rest (if durableId = "" then n else n + 1)
  | .sweep rest n, _ => nextInSweep j.args rest n

/-- `principal_default_for_profile(profile)`, where it was built before. -/
def finalizerPrincipal (d : Deployment) : Principal :=
  match principalDefaultForProfile d d.finalizerProfile with
  | .ok p => p
  | .error _ => ⟨"", d.defaultTenantId, d.defaultSubjectId, [], false, none⟩

/-- Loading the profile and building its principal, which happen outside the failure path. -/
def loadFinalizer (d : Deployment) (r : Reply) : Except PyErr Unit :=
  match r.profileFault with
  | some e => .error e
  | none => (principalDefaultForProfile d d.finalizerProfile).map fun _ => ()

/-- The payload and the adapter, inside the failure path. -/
def buildDurable (d : Deployment) (j : Job) (c : Claim) (r : Reply) : Except PyErr DurablePayload :=
  match reconstructDurablePayload d c.row.candidateJson (approvalMarker j.args.approvalId) j.args.approvalId
      (j.args.expectedVia d) c.proposer r.now with
  | .error e => .error e
  | .ok built =>
    match r.adapterFault with
    | some e => .error e
    | none => .ok built

/-- The audit log as the gate gets to see it. -/
def World.auditView (w : World) (r : Reply) : Except String AuditTable :=
  match r.auditUnreadable with
  | some m => .error m
  | none => .ok w.audit

/-- The first transaction and what follows it. -/
def advanceGate (d : Deployment) (w : World) (j : Job) (r : Reply) : World × Call :=
  let go := gateAndClaim d (w.auditView r) j.args (j.args.worker r.defaultWorkerId) r.now r.cutoff w.outbox
  (w.withOutbox go.1,
    match go.2 with
    | .returned durableId => finish j (.ok durableId)
    | .raised e => finish j (.error e)
    | .claimed c => .claimed j c)

def writeFailed (d : Deployment) (e : PyErr) : String := "durable write failed: " ++ d.errorText e

/-- From the claim to the write: the payload, then the re-check of the claim. -/
def advanceClaimed (d : Deployment) (w : World) (j : Job) (c : Claim) (r : Reply) : Call :=
  match loadFinalizer d r with
  | .error e => finish j (.error e)
  | .ok () =>
    match buildDurable d j c r with
    | .error e => .failing j c (writeFailed d e)
    | .ok built =>
      if stillOwnsClaim w.outbox j.args.approvalId c.workerId then .posting j c built else finish j (.ok none)

/-- The durable write. -/
def advancePosting (d : Deployment) (api : StoreApi) (w : World) (j : Job) (c : Claim) (built : DurablePayload) (r : Reply) :
    World × Call :=
  match finalizeWrite d d.finalizerProfile built ("approval:" ++ toString j.args.approvalId) with
  | .error e => (w, .failing j c (writeFailed d e))
  | .ok body =>
    let out := w.store.post api body (some j.args.approvalId) r.post
    ({ w with store := out.1 },
      match out.2 with
      | .stored h => .recording j c built h
      | .dedupSkipped (some h) => .recording j c built h
      | .dedupSkipped none => .lookingUp j c built true
      | .raised e => .failing j c (writeFailed d e))

/-- The recovery of the content hash by the marker. -/
def advanceLookingUp (d : Deployment) (w : World) (j : Job) (c : Claim) (built : DurablePayload) (again : Bool) (r : Reply) :
    Call :=
  match findActiveHashByMarker d w.store (approvalMarker j.args.approvalId) built.tenantId r.searchFault with
  | .error e => .failing j c (writeFailed d e)
  | .ok (some h) => .recording j c built h
  | .ok none =>
    if again then .lookingUp j c built false
    else .failing j c "durable id unrecoverable (exact-dup, no marker match)"

/-- The record transaction and what follows it. -/
def advanceRecording (w : World) (j : Job) (c : Claim) (built : DurablePayload) (contentHash : String) (r : Reply) :
    World × Call :=
  let rec' := recordFinalized w.outbox j.args.approvalId c.workerId contentHash c.row.memoryEventId r.now
  (w.withOutbox rec'.1,
    match rec'.2 with
    | (none, false) => .cleaning j contentHash
    | (durableId, false) => finish j (.ok durableId)
    | (none, true) => finish j (.ok none)
    | (some durableId, true) =>
      if durableId = "" then finish j (.ok (some durableId)) else .announcing j c built durableId)

/-- The DELETE of an orphan: anything it returns is taken for a removal. -/
def advanceCleaning (d : Deployment) (w : World) (j : Job) (contentHash : String) (r : Reply) : World × Call :=
  let out := w.store.delete contentHash r.delete
  ({ w with store := out.1 },
    match out.2 with
    | .ok _ => finish j (.ok none)
    | .error e => .noting j contentHash ("cleanup delete failed: " ++ d.errorText e))

/-- `_record_orphan_cleanup_pending`. -/
def orphanRow (d : Deployment) (contentHash reason : String) : HistoryRow :=
  { op := "orphan_cleanup_pending", drawerId := contentHash, tenantId := (finalizerPrincipal d).tenantId
    principalId := some (finalizerPrincipal d).id, wing := none, room := none, reason := some (take500 reason), detailsJson := none }

/-- The history row of a finalized approval. -/
def finalizedRow (d : Deployment) (built : DurablePayload) (durableId : String) : HistoryRow :=
  { op := "finalized_active", drawerId := durableId, tenantId := (finalizerPrincipal d).tenantId
    principalId := some (finalizerPrincipal d).id, wing := some built.wing, room := some built.room, reason := none
    detailsJson := none }

/-- An append whose failure is only logged. -/
def World.appendBestEffort (d : Deployment) (w : World) (entry : AuditWrite) (fault : Option PyErr) : World :=
  match fault with
  | some _ => w
  | none => { w with audit := commitWrite d.limits w.audit entry }

/-! ## The approval service's steps -/

/-- `_audit_refused`. -/
def refusalEntry (ctx : ApprovalAuditContext) (tsIso : String) (i : Nat) (reason : String) : AuditWrite where
  tsIso := tsIso
  principalId := ctx.principal.id
  tenantAccessed := ctx.tenantAccessed
  op := "approval_refused"
  targetId := some (toString i)
  reasonCode := none
  details := some (auditDetails ctx [("action", .str "approve"), ("reason", .str reason)])
  wf := by
    intro _ h
    cases h
    refine wf_merge (wf_set ctx.extraWf trivial) fun kv hkv => ?_
    simp only [List.mem_cons, List.not_mem_nil, or_false] at hkv
    rcases hkv with rfl | rfl <;> trivial

/-- `verify_approver`, from what the transport answers. -/
def verifyApprover (d : Deployment) (canonical : Option String) : Except PyErr String :=
  match canonical with
  | none => .error (.permissionError "approval credential rejected")
  | some by' =>
    if by' ∈ d.authorizedApprovers then .ok by' else .error (.permissionError "presser is not an authorized approver")

/-- The credential and the read of the candidate. -/
def advanceDeciding (d : Deployment) (w : World) (q : ServiceCall) (r : Reply) : World × Call :=
  match verifyApprover d q.canonical with
  | .error e =>
    (w.appendBestEffort d (refusalEntry q.audit r.now q.approvalId (d.errorText e)) r.auditFault, .returned (.raised e))
  | .ok canonical =>
    match w.outbox.approvals.get q.approvalId with
    | none =>
      (w.appendBestEffort d (refusalEntry q.audit r.now q.approvalId "approval row not found") r.auditFault,
        .returned (.raised (.valueError ("approval_queue row not found: " ++ toString q.approvalId))))
    | some row => (w, .appending q canonical row.candidateJson (proposedByProfile (.ofOption row.proposedByProfile)))

/-- The decision, before anything is changed. -/
def advanceAppending (d : Deployment) (w : World) (q : ServiceCall) (canonical candidateJson : String)
    (proposer : Option String) (r : Reply) : World × Call :=
  let sha := candidateFingerprint candidateJson
  let entry := decisionEntry q.audit r.now "approve" q.approvalId canonical q.via (some sha) proposer
  match appendWithHash d w.audit entry r.auditFault with
  | .error e => (w, .returned (.raised e))
  | .ok (t, seq, thisHash) => ({ w with audit := t }, .stamping q canonical ⟨seq, thisHash, sha⟩)

/-- The stamp, and the finalize call that follows. -/
def advanceStamping (d : Deployment) (w : World) (q : ServiceCall) (canonical : String) (receipt : ReceiptTriple) (r : Reply) :
    World × Call :=
  match mcpApproveOrRedrive d w.outbox q.approvalId q.via canonical receipt r.now with
  | .error e => (w, .returned (.raised e))
  | .ok (o, mode) =>
    (w.withOutbox o,
      .gate ⟨⟨q.approvalId, d.authorizedApprovers, some q.via, none⟩, .service mode⟩)

/-! ## The steps of a hard delete -/

/-- The loop over the divergent ids, then the loop over the claimed approvals. -/
def sweepNext (f : Forget) (e : Erasure) (todo : List Nat) : Call :=
  match todo with
  | [] => .purging f { e with ok := e.ok || !e.markerDeleted.isEmpty }
  | i :: todo => .sweeping f e i todo

def cascadeNext (f : Forget) (e : Erasure) (todo : List String) : Call :=
  match todo with
  | [] => sweepNext f e e.claimed
  | h :: todo => .cascading f e h todo

def advanceForgetting (d : Deployment) (w : World) (f : Forget) (r : Reply) : World × Call :=
  match claimSidecarForRtbf d w.outbox f.drawerId r.cutoff with
  | .error e => (w, .returned (.raised e))
  | .ok (o, claimed) => (w.withOutbox o, .deleting f claimed)

/-- A DELETE of a hard delete: an exception ends the call, anything else is gone on with. -/
def advanceDelete (w : World) (hash : String) (r : Reply) (next : Bool → Call) : World × Call :=
  let out := w.store.delete hash r.delete
  ({ w with store := out.1 },
    match out.2 with
    | .error e => .returned (.raised e)
    | .ok b => next b)

def advanceResolving (d : Deployment) (w : World) (f : Forget) (claimed : List Nat) (ok : Bool) : Call :=
  match resolveDivergentUpstreamIds d w.outbox f.drawerId with
  | .error e => .returned (.raised e)
  | .ok divergent => cascadeNext f ⟨claimed, divergent, [], ok⟩ divergent

/-- The lookup of an approval's marker, in all tenants for a root principal. -/
def advanceSweeping (d : Deployment) (w : World) (f : Forget) (e : Erasure) (i : Nat) (todo : List Nat) (r : Reply) : Call :=
  match findActiveHashByMarker d w.store (approvalMarker i) f.principal.tenantId r.searchFault with
  | .error x => .returned (.raised x)
  | .ok none => sweepNext f e todo
  | .ok (some h) => .sweepDeleting f e i h todo

def advancePurging (d : Deployment) (w : World) (f : Forget) (e : Erasure) : World × Call :=
  match hardDeleteSidecar d w.outbox f.drawerId with
  | .error x => (w, .returned (.raised x))
  | .ok o => (w.withOutbox o, .remembering f e)

/-- `sorted(…)` of a set of hashes. -/
def sortedSet (hs : List String) : List String := hs.dedup.insertionSort (· ≤ ·)

/-- The tombstone of a hard delete. -/
def erasedRow (d : Deployment) (f : Forget) (e : Erasure) : HistoryRow :=
  let details := divergentDetails e.divergent (sortedSet e.markerDeleted)
  { op := "hard_delete", drawerId := f.drawerId, tenantId := f.principal.tenantId, principalId := some f.principal.id
    wing := none, room := none, reason := some f.reason
    detailsJson := if details = [] then none else (d.dumps (.obj details)).toOption }

def advanceRemembering (d : Deployment) (w : World) (f : Forget) (e : Erasure) : World :=
  if e.ok then w.withOutbox (w.outbox.appendHistory (erasedRow d f e)) else w

def advanceAuditing (d : Deployment) (w : World) (f : Forget) (e : Erasure) (r : Reply) : World × Call :=
  if f.principal.isRootWithBreakGlass r.instant then
    match appendWithHash d w.audit (erasureEntry f.principal r.now f.drawerId f.reason e.divergent (sortedSet e.markerDeleted))
        r.auditFault with
    | .error x => (w, .returned (.raised x))
    | .ok (t, _, _) => ({ w with audit := t }, .returned (.forgotten e.ok))
  else (w, .returned (.forgotten e.ok))

/-! ## One step -/

/-- A call runs to its next access to shared state. -/
def advance (d : Deployment) (api : StoreApi) (w : World) (r : Reply) : Call → World × Call
  | .idle => (w, .idle)
  | .gate j => advanceGate d w j r
  | .claimed j c => (w, advanceClaimed d w j c r)
  | .posting j c built => advancePosting d api w j c built r
  | .lookingUp j c built again => (w, advanceLookingUp d w j c built again r)
  | .failing j c message =>
    (w.withOutbox (failClaim w.outbox j.args.approvalId c.workerId message), finish j (.ok none))
  | .recording j c built contentHash => advanceRecording w j c built contentHash r
  | .cleaning j contentHash => advanceCleaning d w j contentHash r
  | .noting j contentHash reason =>
    (w.withOutbox (w.outbox.appendHistory (orphanRow d contentHash reason)), finish j (.ok none))
  | .announcing j c built durableId =>
    (w.withOutbox (w.outbox.appendHistory (finalizedRow d built durableId)), .attesting j c built durableId)
  | .attesting j c built durableId =>
    (w.appendBestEffort d (outcomeEntry (finalizerPrincipal d) r.now built.tenantId durableId j.args.approvalId c.row)
      r.auditFault, finish j (.ok (some durableId)))
  | .redriving a => (w, nextInSweep a (redriveIds d w.outbox a r.cutoff) 0)
  | .deciding q => advanceDeciding d w q r
  | .appending q canonical candidateJson proposer => advanceAppending d w q canonical candidateJson proposer r
  | .stamping q canonical receipt => advanceStamping d w q canonical receipt r
  | .forgetting f => advanceForgetting d w f r
  | .deleting f claimed => advanceDelete w f.drawerId r (.resolving f claimed)
  | .resolving f claimed ok => (w, advanceResolving d w f claimed ok)
  | .cascading f e hash todo => advanceDelete w hash r fun b => cascadeNext f { e with ok := e.ok || b } todo
  | .sweeping f e i todo => (w, advanceSweeping d w f e i todo r)
  | .sweepDeleting f e _ hash todo =>
    advanceDelete w hash r fun b =>
      sweepNext f { e with markerDeleted := if b then e.markerDeleted ++ [hash] else e.markerDeleted } todo
  | .purging f e => advancePurging d w f e
  | .remembering f e => (advanceRemembering d w f e, .auditing f e)
  | .auditing f e => advanceAuditing d w f e r
  | .returned result => (w, .returned result)

/-- A new call can be started in the slot. -/
def Call.free : Call → Bool
  | .idle | .returned _ => true
  | _ => false

/-- One step of the system; an action that is not enabled changes nothing. -/
def step (d : Deployment) (api : StoreApi) (s : System) : Action → System
  | .op o => { s with world := o.run d s.world }
  | .start t c => if (s.calls t).free then { s with calls := Function.update s.calls t c.call } else s
  | .advance t r =>
    let out := advance d api s.world r (s.calls t)
    ⟨out.1, Function.update s.calls t out.2⟩

/-- A run of the system. -/
abbrev runs (d : Deployment) (api : StoreApi) : System → List Action → System := Machine.run (step d api)

/-! ## Steps as equations -/

section Equations

variable {d : Deployment} {api : StoreApi} {s : System} {t : Nat}

theorem step_start (st : Start) (h : (s.calls t).free = true) :
    step d api s (.start t st) = { s with calls := Function.update s.calls t st.call } := if_pos h

theorem step_advance {rep : Reply} {w : World} {c c' : Call} (hc : s.calls t = c)
    (h : advance d api s.world rep c = (w, c')) :
    step d api s (.advance t rep) = ⟨w, Function.update s.calls t c'⟩ := by
  subst hc
  show (⟨(advance d api s.world rep (s.calls t)).1, Function.update s.calls t (advance d api s.world rep (s.calls t)).2⟩ :
    System) = _
  rw [h]

theorem step_approveRaw {i : Nat} {decidedBy : Option String} {now text : String} {row : ApprovalRow}
    {payload : ApprovalPayload} (hr : s.world.outbox.approvals.get i = some row)
    (hopen : row.status ∈ [ApprovalStatus.pending, .pendingApproval, .deferred])
    (hp : approvalPayload d row.candidateJson i now = .ok (payload, text)) :
    step d api s (.op (.approveRaw i decidedBy now)) =
      { s with
        world := s.world.withOutbox ((s.world.outbox.insertEvent (approvalEvent d payload text now)).updateApproval i
          (fun _ => true) (stampApproved (rawStamp d decidedBy now) s.world.outbox.events.nextId)) } := by
  have h := approveInConn_open (p := rawStamp d decidedBy now) hr (by simp [rawStamp]) hopen hp
  show ({ s with world := s.world.withOutbox (commitOr _ (approveInConn d s.world.outbox i (rawStamp d decidedBy now))) } :
    System) = _
  rw [h]
  rfl

theorem step_approveTelegram {i : Nat} {presser now text : String} {tg : Option Int} {receipt : Option ReceiptTriple}
    {row : ApprovalRow} {payload : ApprovalPayload} (hb : TelegramBound d s.world.outbox i presser tg receipt)
    (hr : s.world.outbox.approvals.get i = some row)
    (hsha : ∀ rc ∈ receipt, rc.sha256 = candidateFingerprint row.candidateJson)
    (hopen : row.status ∈ [ApprovalStatus.pending, .pendingApproval, .deferred])
    (hp : approvalPayload d row.candidateJson i now = .ok (payload, text)) :
    step d api s (.op (.approveTelegram i presser tg receipt now)) =
      { s with
        world := s.world.withOutbox ((s.world.outbox.insertEvent (approvalEvent d payload text now)).updateApproval i
          (fun _ => true) (stampApproved (telegramStamp presser tg receipt now) s.world.outbox.events.nextId)) } := by
  have hfp : ∀ sha ∈ (telegramStamp presser tg receipt now).candidateSha256, sha = candidateFingerprint row.candidateJson := by
    intro sha hs
    obtain ⟨rc, hrc, rfl⟩ := Option.map_eq_some_iff.1 hs
    exact hsha rc hrc
  have h := (approveTelegram_of_bound hb now).trans
    (approveInConn_open (p := telegramStamp presser tg receipt now) hr hfp hopen hp)
  show ({ s with
    world := s.world.withOutbox (commitOr _ (approveAuthorizedTelegramCandidate d s.world.outbox i presser tg receipt now)) } :
    System) = _
  rw [h]
  rfl

theorem advance_forgetting {w : World} {f : Forget} {rep : Reply} {o : Outbox} {ids : List Nat}
    (h : claimSidecarForRtbf d w.outbox f.drawerId rep.cutoff = .ok (o, ids)) :
    advance d api w rep (.forgetting f) = (w.withOutbox o, .deleting f ids) := by
  simp only [advance, advanceForgetting, h]

end Equations

end Panella

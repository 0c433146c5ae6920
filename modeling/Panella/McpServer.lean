import Panella.FailsClosed
import Panella.McpSubmit
import Panella.WriteMemory

/-!
# The MCP server (`panella/mcp_tools.py`)

| here | there |
| --- | --- |
| `McpServer`, `approvalTools` | `McpToolContext` (:66-90), `_approval_registered` (:123-124) |
| `dispatch` | `dispatch` (:277-299) |
| `beginSearch`, `McpCall.searching` | `_handle_search` (:302-328) |
| `beginSubmit`, `advanceSubmitting` | `_handle_submit` (:331-378), with `MemoryClient.write` |
| `beginApproval`, `afterService` | `_handle_list_pending`, `_handle_approve`, `_handle_reject` (:381-466) |

Any number of clients call the tools of one server, each call transaction by transaction and in any order, with any faults. However many
there are and whatever they send, a row of the queue is decided, a row of the store written and the queue disclosed only for a call
with an authorized approver's credential (**`mcp_governed`**): all another client can do is add candidates.
-/

namespace Panella

open Machine PyJson PyText

/-! ## Requests and replies -/

def toolSearch : String := "memory.search"
def toolSubmit : String := "memory.submit_candidate"
def toolListPending : String := "memory.list_pending_approvals"
def toolApprove : String := "memory.approve_candidate"
def toolReject : String := "memory.reject_candidate"

structure McpRequest where
  name : String
  arguments : Dict

/-- What a tool answers. -/
inductive McpReply
  | error (message code : String)
  | hits (hits : Json)
  | queued (approvalId : Nat) (wing room : String)
  | pending (rows : List PendingItem)
  | approved (durableId : String) (retried : Bool)
  | rejected (approvalId : Nat)

/-- The parts of the context; the governance is the deployment's, where there is one. -/
structure McpServer where
  profile : Option WriteProfile
  principal : Principal
  serving : Bool
  servingReason : String
  transport : Option ApprovalTransport
  governed : Bool
  approvalAudit : Option ApprovalAuditContext

/-- `_submit_registered`. -/
def McpServer.submitTool (ctx : McpServer) : Option WriteProfile :=
  ctx.profile.filter fun p => NetworkRoute.mcp.registered p.toAgentProfile

/-- `_approval_registered`. -/
def McpServer.approvalTools (ctx : McpServer) : Option (ApprovalTransport × ApprovalAuditContext) :=
  match ctx.transport, ctx.governed, ctx.approvalAudit with
  | some transport, true, some audit => some (transport, audit)
  | _, _, _ => none

/-! ## Dispatch -/

/-- Where a call is. -/
inductive McpCall
  | idle
  | searching (query : String) (k : Int) (wingsHint : Option (List String))
  | submitting (p : WriteProfile) (c : WriteCall)
  | serving (req : ServiceRequest) (sv : Serving)
  | ended (reply : McpReply)

/-- The `k` of a search: 5 for what is no positive integer, 50 at most. -/
def searchLimit : Json → Int
  | .int k => if k < 1 then 5 else min k 50
  | _ => 5

/-- The hint of a search: the texts of a list, or `None` where there are none. -/
def searchHint : Json → Option (List String)
  | .arr ws =>
    let texts := ws.filterMap fun w => match w with | .str s => some s | _ => none
    if texts.isEmpty then none else some texts
  | _ => none

/-- `_handle_search` to the call of the client. -/
def beginSearch (arguments : Dict) : McpCall :=
  match requiredText arguments "query" with
  | none => .ended (.hits (.arr []))
  | some query => .searching query (searchLimit (Dict.getD arguments "k" (.int 5))) (searchHint (Dict.get arguments "wings_hint"))

/-- `_handle_submit` to the call of the client. -/
def beginSubmit (p : WriteProfile) (arguments : Dict) : McpCall :=
  match requiredText arguments "content", requiredText arguments "room", requiredText arguments "memory_type" with
  | none, _, _ => .ended (.error "content is required" "invalid_arguments")
  | some _, none, _ => .ended (.error "room is required" "invalid_arguments")
  | some _, some _, none => .ended (.error "memory_type is required" "invalid_arguments")
  | some content, some room, some memoryType =>
    .submitting p ⟨content, room, memoryType, none, WriteHygiene.sanitizeNetworkWriteMetadata (metadataArgument arguments)⟩

/-- The operation a request asks the approval service for. -/
def approvalOp (r : McpRequest) : Option ServiceOp :=
  if r.name = toolListPending then some (.listPending (Dict.getD r.arguments "limit" (.int 20)))
  else
    match Dict.get r.arguments "approval_id" with
    | .int (.ofNat i) => some (if r.name = toolApprove then .approve i else .reject i)
    | _ => none

/-- `_handle_list_pending`, `_handle_approve` and `_handle_reject` to the call of the service. -/
def beginApproval (transport : ApprovalTransport) (audit : ApprovalAuditContext) (r : McpRequest) : McpCall :=
  match approvalOp r with
  | some op =>
    let req : ServiceRequest := ⟨op, Dict.get r.arguments "credential", audit⟩
    .serving req (req.begin transport)
  | none => .ended (.error "approval_id (int) is required" "invalid_arguments")

/-- `dispatch`, to the first access to shared state. -/
def dispatch (ctx : McpServer) (r : McpRequest) : McpCall :=
  if !ctx.serving then
    .ended (.error ("memory not serving (governance/corpus incoherence): " ++ ctx.servingReason) "memory_not_serving")
  else if r.name = toolSearch then beginSearch r.arguments
  else if r.name = toolSubmit then
    match ctx.submitTool with
    | none => .ended (.error ("tool not available: " ++ r.name) "unknown_tool")
    | some p => beginSubmit p r.arguments
  else if r.name ∈ [toolListPending, toolApprove, toolReject] then
    match ctx.approvalTools with
    | none => .ended (.error ("tool not available: " ++ r.name) "unknown_tool")
    | some (transport, audit) => beginApproval transport audit r
  else .ended (.error ("unknown tool: " ++ r.name) "unknown_tool")

/-! ## The steps of a call -/

/-- How `client.search` ends. -/
inductive SearchEnd
  | timeout (seconds : String)
  | raised (e : PyErr)
  | found (hits : Json)

/-- What a step meets. -/
structure McpInput where
  reply : Reply
  readBack : Option PyErr
  search : SearchEnd
  readings : WriteReadings
  replies : WriteReplies
  sink : AuditSink
  /-- The counters of the quota. -/
  count : WriteCount

def searchReply (d : Deployment) : SearchEnd → McpReply
  | .timeout seconds => .error ("upstream Panella store search timed out after " ++ seconds ++ "s") "internal_error"
  | .raised e => .error ("upstream Panella store search failed: " ++ d.errorText e) "internal_error"
  | .found hits => .hits (hits.orElse (.arr []))

/-- The reply of `_handle_submit`. -/
def submitReply (d : Deployment) : Except WriteErr (Served WriteResult) → McpReply
  | .error (.client (.py (.permissionError m))) => .error m "forbidden"
  | .error (.client (.py (.quotaExceeded m))) => .error m "quota_exceeded"
  | .error (.client (.py (.valueError m))) => .error m "invalid_arguments"
  | .error (.client (.py (.json j))) => .error (d.jsonErrorText j) "invalid_arguments"
  | .error (.client (.py e)) => .error ("submit failed: " ++ d.errorText e) "internal_error"
  | .error (.client (.tenantIsolation m)) => .error m "forbidden"
  | .error (.client (.overflow m)) | .error (.client (.http m)) => .error ("submit failed: " ++ m) "internal_error"
  | .error (.dedupSkipped _) => .error "submit failed: dedup skipped" "internal_error"
  | .ok ⟨⟨_, wing, room, true, some approvalId, _, _, _⟩, _⟩ => .queued approvalId wing room
  | .ok _ => .error "submit did not route to the approval queue; refused" "internal_error"

/-- `client.write(content, room=…, memory_type=…, **clean)`. -/
def advanceSubmitting (d : Deployment) (ctx : McpServer) (w : World) (i : McpInput) (p : WriteProfile) (c : WriteCall) : World × McpCall :=
  match NetworkRoute.checkKeywords c.metadata with
  | .error e => (w, .ended (submitReply d (.error (.client (.py e)))))
  | .ok () =>
    let out := writeMemory d p ctx.principal i.sink i.readings i.replies c ⟨w.store, w.outbox, i.count⟩
    let entry := (out.2.toOption.bind (·.audit)).toList
    (⟨out.1.outbox, run (commitWrite d.limits) w.audit entry, out.1.store⟩, .ended (submitReply d out.2))

/-- `ApprovalNotFinalized`. -/
def approvalNotFinalized (approvalId : Nat) : PyErr :=
  .runtimeError ("approval " ++ toString approvalId ++
    " is approved but not yet durable (finalize did not complete — likely a transient store issue); retry to redrive it")

/-- A `PermissionError` or `ValueError` that the service raises as its own. -/
def stateReply (d : Deployment) (failed : String) (e : PyErr) : McpReply :=
  .error (match e with | .permissionError m | .valueError m => m | e => failed ++ d.errorText e)
    (match e with | .permissionError _ | .valueError _ => "approval_refused" | _ => "internal_error")

/-- The reply of `_handle_approve`; the call was at `before`. -/
def approveReply (d : Deployment) (approvalId : Nat) (before : Call) : CallResult → McpReply
  | .approved durableId retried => .approved durableId retried
  | .raised e =>
    match before with
    | .deciding _ | .stamping .. => stateReply d "approval failed: " e
    | _ =>
      if e = approvalNotFinalized approvalId then
        .error ("approval " ++ toString approvalId ++
          " is approved but not yet durable (finalize did not complete — likely a transient store issue); retry approve_candidate " ++
          "to redrive it") "not_finalized"
      else .error ("approval failed: " ++ d.errorText e) "internal_error"
  | _ => .error "approval failed" "internal_error"

/-- The reply of `_handle_list_pending` and `_handle_reject`, and of a transport that raised. -/
def serviceReply (d : Deployment) (op : ServiceOp) (before : Serving) : ServiceResult → McpReply
  | .rejected => .rejected (match op with | .reject i => i | _ => 0)
  | .listed rows => .pending rows
  | .refused reason => .error reason "approval_refused"
  | .raised e =>
    match before, op with
    | .marking .., _ => stateReply d "reject failed: " e
    | _, .reject _ => .error ("reject failed: " ++ d.errorText e) "internal_error"
    | _, .approve _ => .error ("approval failed: " ++ d.errorText e) "internal_error"
    | _, .listPending _ => .error ("list failed: " ++ d.errorText e) "internal_error"

/-- Where a call has come to, once its service call has come to `sv`. -/
def afterService (d : Deployment) (req : ServiceRequest) (before : Serving) (sv : Serving) : McpCall :=
  match sv with
  | .approving (.returned result) =>
    .ended (approveReply d (match req.op with | .approve i => i | _ => 0)
      (match before with | .approving c => c | _ => .idle) result)
  | .ended result => .ended (serviceReply d req.op before result)
  | sv => .serving req sv

/-- The next transaction of a call. -/
def advanceMcp (d : Deployment) (api : StoreApi) (ctx : McpServer) (w : World) (i : McpInput) : McpCall → World × McpCall
  | .idle => (w, .idle)
  | .searching .. => (w, .ended (searchReply d i.search))
  | .submitting p c => advanceSubmitting d ctx w i p c
  | .serving req sv =>
    let out := advanceServing d api w i.reply i.readBack sv
    (out.1, afterService d req sv out.2)
  | .ended reply => (w, .ended reply)

/-! ## The system -/

/-- A call with the request it is for. -/
structure McpSlot where
  request : McpRequest
  call : McpCall

structure McpSystem where
  world : World
  calls : Nat → McpSlot

def McpSystem.initial (w : World) : McpSystem := ⟨w, fun _ => ⟨⟨"", []⟩, .idle⟩⟩

inductive McpAction
  | start (p : Nat) (r : McpRequest)
  | advance (p : Nat) (i : McpInput)

def McpCall.free : McpCall → Bool
  | .idle | .ended _ => true
  | _ => false

def mcpStep (d : Deployment) (api : StoreApi) (ctx : McpServer) (s : McpSystem) : McpAction → McpSystem
  | .start p r => if (s.calls p).call.free then { s with calls := Function.update s.calls p ⟨r, dispatch ctx r⟩ } else s
  | .advance p i =>
    let out := advanceMcp d api ctx s.world i (s.calls p).call
    ⟨out.1, Function.update s.calls p ⟨(s.calls p).request, out.2⟩⟩

/-! ## What a call may do -/

/-- A call of the run asks for the operation with an authorized approver's credential. -/
def AskedFor (d : Deployment) (ctx : McpServer) (as : List McpAction) (op : ServiceOp) : Prop :=
  ∃ p r transport audit canonical, McpAction.start p r ∈ as ∧ ctx.serving = true ∧ ctx.approvalTools = some (transport, audit) ∧
    approvalOp r = some op ∧ Authorized d transport (Dict.get r.arguments "credential") canonical

variable {d : Deployment} {api : StoreApi} {ctx : McpServer} {as : List McpAction} {s : McpSystem} {p : Nat} {w : World} {i : Nat}

theorem AskedFor.mono {op : ServiceOp} (h : AskedFor d ctx as op) (bs : List McpAction) : AskedFor d ctx (as ++ bs) op := by
  obtain ⟨p, r, transport, audit, canonical, hmem, h⟩ := h
  exact ⟨p, r, transport, audit, canonical, List.mem_append_left _ hmem, h⟩

/-- A reply that discloses the queue, or says that a candidate has been decided. -/
def McpReply.privileged : McpReply → Bool
  | .pending _ | .approved .. | .rejected _ => true
  | .error .. | .hits _ | .queued .. => false

/-! ### A submission -/

/-- The queue after a submission: as it was, or with a candidate more. -/
def Submitted (o o' : Outbox) : Prop :=
  o'.approvals = o.approvals ∨ ∃ candidateJson createdAt name, o'.approvals = o.approvals.insert (queuedRow candidateJson createdAt name)

/-- **A registered profile's write is queued**, or nothing. -/
theorem writeMemory_submits {p : WriteProfile} (h : NetworkRoute.mcp.registered p.toAgentProfile = true) (pr : Principal)
    (sink : AuditSink) (r : WriteReadings) (replies : WriteReplies) (c : WriteCall) (s : ClientState) :
    (writeMemory d p pr sink r replies c s).1.store = s.store ∧ Submitted s.outbox (writeMemory d p pr sink r replies c s).1.outbox := by
  unfold writeMemory
  split
  · exact ⟨rfl, .inl rfl⟩
  · dsimp only
    split
    · exact ⟨rfl, .inl rfl⟩
    · split
      · exact ⟨rfl, .inl rfl⟩
      · rw [commitPrepared, if_pos (approvalRequired_registered h _ _)]
        unfold queueWrite
        split
        · exact ⟨rfl, .inl rfl⟩
        · split
          · exact ⟨rfl, .inl rfl⟩
          · dsimp only
            split
            · exact ⟨rfl, .inr ⟨_, _, _, rfl⟩⟩
            · exact ⟨rfl, .inr ⟨_, _, _, rfl⟩⟩

theorem advanceSubmitting_submits {pr : WriteProfile} (h : ctx.submitTool = some pr) (inp : McpInput) (c : WriteCall) :
    (advanceSubmitting d ctx w inp pr c).1.store = w.store ∧ Submitted w.outbox (advanceSubmitting d ctx w inp pr c).1.outbox := by
  unfold advanceSubmitting
  split
  · exact ⟨rfl, .inl rfl⟩
  · exact writeMemory_submits (Option.filter_eq_some_iff.1 h).2 ctx.principal inp.sink inp.readings inp.replies c
      ⟨w.store, w.outbox, inp.count⟩

variable (d ctx w) in
theorem advanceSubmitting_call (inp : McpInput) (pr : WriteProfile) (c : WriteCall) :
    ∃ reply : McpReply, (advanceSubmitting d ctx w inp pr c).2 = .ended reply ∧ reply.privileged = false := by
  have hreply : ∀ out : Except WriteErr (Served WriteResult), (submitReply d out).privileged = false := by
    intro out
    unfold submitReply
    split <;> rfl
  unfold advanceSubmitting
  split
  · exact ⟨_, rfl, hreply _⟩
  · exact ⟨_, rfl, hreply _⟩

/-! ### A call of the approval service -/

variable {transport : ApprovalTransport} {req : ServiceRequest} {rep : Reply} {readBack : Option PyErr} {sv sv' : Serving}

/-- A stage of a call, whatever it has read. -/
abbrev StageOf (d : Deployment) (transport : ApprovalTransport) (req : ServiceRequest) (w : World) (sv : Serving) : Prop :=
  Stage d transport req (fun _ _ => True) (w, sv)

variable (api rep readBack) in
theorem stage_serve (h : StageOf d transport req w sv) :
    StageOf d transport req (advanceServing d api w rep readBack sv).1 (advanceServing d api w rep readBack sv).2 := by
  rcases h with h | ⟨canonical, ha, h⟩
  · exact (atDoor_step d api w rep readBack h).2.mono fun _ _ _ => trivial
  · exact .inr ⟨canonical, ha, (letIn_step ha h).1⟩

/-- The log grows. -/
theorem stage_grows {w' : World} (h : StageOf d transport req w sv) (hg : Grows d w.audit w'.audit) : StageOf d transport req w' sv := by
  rcases h with h | ⟨canonical, ha, h⟩
  · exact .inl h
  · exact .inr ⟨canonical, ha, h.mono (fun _ hrow => hg.mem hrow) (fun _ _ _ hrec => hrec.grows hg) fun _ _ => id⟩

theorem advanceSubmitting_grows (inp : McpInput) (pr : WriteProfile) (c : WriteCall) :
    Grows d w.audit (advanceSubmitting d ctx w inp pr c).1.audit := by
  unfold advanceSubmitting
  split
  · exact .inl rfl
  · dsimp only
    cases (writeMemory d pr ctx.principal inp.sink inp.readings inp.replies c
      ⟨w.store, w.outbox, inp.count⟩).2.toOption.bind (·.audit) with
    | none => exact .inl rfl
    | some entry => exact grows_commitWrite d w.audit entry

/-- A posting call is a finalize call the approver was let in for. -/
theorem stage_posting {j : Job} {c : Claim} {built : DurablePayload}
    (h : StageOf d transport req w (.approving (.posting j c built))) :
    ∃ canonical, Authorized d transport req.credential canonical ∧ req.op = .approve j.args.approvalId := by
  rcases h with h | ⟨canonical, ha, h⟩
  · generalize hsv : Serving.approving (.posting j c built) = sv at h
    cases h with
    | begin =>
      split at hsv
      · cases hsv
      · split at hsv <;> cases hsv
    | turnedAway => cases hsv
    | refused => cases hsv
  · cases h with
    | finalizing ho hb hc hj hi hs hh =>
      cases hj
      exact ⟨canonical, ha, hi ▸ ho⟩

/-- **A row of the store is written for an approval** that an authorized approver asks for. -/
theorem serve_store (h : StageOf d transport req w sv) {r : StoreRow}
    (hr : r ∈ (advanceServing d api w rep readBack sv).1.store.rows) :
    r ∈ w.store.rows ∨ ∃ canonical i, Authorized d transport req.credential canonical ∧ req.op = .approve i ∧ r.writtenFor = some i := by
  cases sv with
  | approving c =>
    have hstep : (advanceServing d api w rep readBack (.approving c)).1 = (step d api ⟨w, fun _ => c⟩ (.advance 0 rep)).world :=
      advanceApproving_world c
    rw [hstep] at hr
    rcases store_new d api hr with hold | ⟨row, hput, -⟩ | ⟨t, rep', j, c', built, body, -, hc, -, hrow, -⟩
    · exact .inl hold
    · cases hput
    · obtain rfl : c = .posting j c' built := hc
      obtain ⟨canonical, ha, ho⟩ := stage_posting h
      exact .inr ⟨canonical, j.args.approvalId, ha, ho, by rw [hrow]; rfl⟩
  | rejecting q =>
    left
    change r ∈ (advanceRejecting d w q rep readBack).1.store.rows at hr
    unfold advanceRejecting at hr
    split at hr
    · rwa [appendBestEffort_store] at hr
    · split at hr <;> exact hr
  | marking q canonical =>
    left
    change r ∈ (advanceMarking d w q canonical rep).1.store.rows at hr
    unfold advanceMarking at hr
    split at hr <;> exact hr
  | listing audit canonical limit =>
    left
    change r ∈ (advanceListing d w audit canonical limit rep).1.store.rows at hr
    unfold advanceListing at hr
    split at hr
    · rwa [appendBestEffort_store] at hr
    · split at hr <;> exact hr
  | disclosing audit canonical rows =>
    left
    change r ∈ (advanceDisclosing d w audit canonical rows rep).1.store.rows at hr
    unfold advanceDisclosing at hr
    split at hr <;> exact hr
  | ended result => exact .inl hr

variable (api rep readBack) in
/-- **A row of the queue is decided** by a call that an authorized approver makes for it. -/
theorem serve_decision (h : StageOf d transport req w sv) (i : Nat) :
    decisionAt (advanceServing d api w rep readBack sv).1.outbox i = decisionAt w.outbox i ∨
      ∃ canonical, Authorized d transport req.credential canonical ∧ (req.op = .approve i ∨ req.op = .reject i) := by
  rcases (@serve_closed d api transport req _ _ h rep readBack).rows i with hsame | hdecided
  · exact .inl hsame
  · right
    cases hdecided with
    | approved now e ho ha => exact ⟨_, ha, .inl ho⟩
    | rejected now ho ha => exact ⟨_, ha, .inr ho⟩

theorem afterService_cases (d : Deployment) (req : ServiceRequest) (before sv : Serving) :
    afterService d req before sv = .serving req sv ∨ ∃ reply, afterService d req before sv = .ended reply := by
  unfold afterService
  split
  · exact .inr ⟨_, rfl⟩
  · exact .inr ⟨_, rfl⟩
  · exact .inl rfl

/-- What is told of a call that was let in nowhere is an error. -/
theorem afterService_privileged {before : Serving} {reply : McpReply} (h : StageOf d transport req w sv)
    (hsv : afterService d req before sv = .ended reply) (hreply : reply.privileged = true) :
    ∃ canonical, Authorized d transport req.credential canonical := by
  rcases h with h | ⟨canonical, ha, -⟩
  · exfalso
    have herror : ∀ {failed e}, (stateReply d failed e).privileged = false := rfl
    have happrove : ∀ {i c e}, (approveReply d i c (.raised e)).privileged = false := by
      intro i c e
      unfold approveReply
      dsimp only
      split
      · rfl
      · rfl
      · split <;> rfl
    have hservice : ∀ {e}, (serviceReply d req.op before (.raised e)).privileged = false := by
      intro e
      unfold serviceReply
      dsimp only
      split <;> rfl
    cases h with
    | begin =>
      split at hsv
      · cases hsv
        rw [hservice] at hreply
        cases hreply
      · split at hsv <;> cases hsv
    | turnedAway hv =>
      cases hsv
      rw [happrove] at hreply
      cases hreply
    | refused hv =>
      cases hsv
      cases hreply
  · exact ⟨canonical, ha⟩

/-! ## Runs -/

/-- What is known of call `p` of the run. -/
def McpSlot.Known (d : Deployment) (ctx : McpServer) (as : List McpAction) (w : World) (p : Nat) (slot : McpSlot) : Prop :=
  match slot.call with
  | .idle | .searching .. => True
  | .submitting pr _ => ctx.submitTool = some pr
  | .serving req sv =>
    McpAction.start p slot.request ∈ as ∧ ctx.serving = true ∧ approvalOp slot.request = some req.op ∧
      req.credential = Dict.get slot.request.arguments "credential" ∧
        ∃ transport audit, ctx.approvalTools = some (transport, audit) ∧ StageOf d transport req w sv
  | .ended reply => reply.privileged = true → ∃ op, approvalOp slot.request = some op ∧ AskedFor d ctx as op

/-- The decision columns are as they were, or as a submission has left them. -/
def Undecided (w : World) (o : Outbox) (i : Nat) : Prop :=
  decisionAt o i = decisionAt w.outbox i ∨
    decisionAt w.outbox i = none ∧ ∃ candidateJson createdAt name, decisionAt o i = some (queuedRow candidateJson createdAt name).decision

/-- Only authorized approvers have had a say. -/
structure Governed (d : Deployment) (ctx : McpServer) (w : World) (as : List McpAction) (s : McpSystem) : Prop where
  store : ∀ r ∈ s.world.store.rows, r ∈ w.store.rows ∨ ∃ i, r.writtenFor = some i ∧ AskedFor d ctx as (.approve i)
  queue : ∀ i, Undecided w s.world.outbox i ∨ AskedFor d ctx as (.approve i) ∨ AskedFor d ctx as (.reject i)
  replies : ∀ p reply, (s.calls p).call = .ended reply → reply.privileged = true →
    ∃ op, approvalOp (s.calls p).request = some op ∧ AskedFor d ctx as op

theorem McpSlot.Known.mono {slot : McpSlot} {w' : World} (h : slot.Known d ctx as w p) (hg : Grows d w.audit w'.audit) (a : McpAction) :
    slot.Known d ctx (as ++ [a]) w' p := by
  unfold McpSlot.Known at h ⊢
  split at h
  · trivial
  · trivial
  · exact h
  · obtain ⟨hstart, hserving, hop, hcredential, transport, audit, htools, hstage⟩ := h
    exact ⟨List.mem_append_left _ hstart, hserving, hop, hcredential, transport, audit, htools, stage_grows hstage hg⟩
  · intro hreply
    obtain ⟨op, hop, hasked⟩ := h hreply
    exact ⟨op, hop, hasked.mono [a]⟩

theorem known_ended {slot : McpSlot} {reply : McpReply} (hcall : slot.call = .ended reply) (h : reply.privileged = false) :
    slot.Known d ctx as w p := by
  unfold McpSlot.Known
  rw [hcall]
  intro hreply
  rw [h] at hreply
  cases hreply

/-- **A call that begins** is at the door. -/
theorem known_dispatch {r : McpRequest} (hstart : McpAction.start p r ∈ as) : McpSlot.Known d ctx as w p ⟨r, dispatch ctx r⟩ := by
  have hended : ∀ {reply : McpReply}, dispatch ctx r = .ended reply → reply.privileged = false →
      McpSlot.Known d ctx as w p ⟨r, dispatch ctx r⟩ := fun h hreply => known_ended h hreply
  generalize hcall : dispatch ctx r = call at hended ⊢
  unfold dispatch at hcall
  split at hcall
  · exact hended hcall.symm rfl
  · next hserving =>
    split at hcall
    · unfold beginSearch at hcall
      split at hcall
      · exact hended hcall.symm rfl
      · subst hcall
        trivial
    · split at hcall
      · split at hcall
        · exact hended hcall.symm rfl
        · next pr hpr =>
          unfold beginSubmit at hcall
          split at hcall
          · exact hended hcall.symm rfl
          · exact hended hcall.symm rfl
          · exact hended hcall.symm rfl
          · subst hcall
            exact hpr
      · split at hcall
        · split at hcall
          · exact hended hcall.symm rfl
          · next transport audit htools =>
            unfold beginApproval at hcall
            split at hcall
            · next op hop =>
              subst hcall
              exact ⟨hstart, by simpa using hserving, hop, rfl, transport, audit, htools, .inl .begin⟩
            · exact hended hcall.symm rfl
        · exact hended hcall.symm rfl

theorem Undecided.submitted {o o' : Outbox} (h : Undecided w o i) (ho : Submitted o o') : Undecided w o' i := by
  rcases ho with hsame | ⟨candidateJson, createdAt, name, hnew⟩
  · rwa [Undecided, decisionAt, hsame]
  · by_cases hi : i = o.approvals.nextId
    · have hnone : decisionAt o i = none := by rw [decisionAt, o.approvals.fresh i (by omega), Option.map_none]
      refine .inr ⟨?_, candidateJson, createdAt, name, ?_⟩
      · rcases h with h | ⟨h, -⟩
        · rw [← h, hnone]
        · exact h
      · rw [decisionAt, hnew, hi, Table.get_insert_self, Option.map_some]
    · rwa [Undecided, decisionAt, hnew, Table.get_insert, if_neg hi]

/-- What the steps of one call do to the world. -/
structure StepGoverned (d : Deployment) (ctx : McpServer) (as : List McpAction) (w w' : World) : Prop where
  audit : Grows d w.audit w'.audit
  store : ∀ r ∈ w'.store.rows, r ∈ w.store.rows ∨ ∃ i, r.writtenFor = some i ∧ AskedFor d ctx as (.approve i)
  queue : ∀ i, decisionAt w'.outbox i = decisionAt w.outbox i ∨ Submitted w.outbox w'.outbox ∨
    AskedFor d ctx as (.approve i) ∨ AskedFor d ctx as (.reject i)

theorem stepGoverned_refl (w : World) : StepGoverned d ctx as w w := ⟨.inl rfl, fun _ hr => .inl hr, fun _ => .inl rfl⟩

/-- **One step of a call.** -/
theorem advance_governed {slot : McpSlot} (h : slot.Known d ctx as w p) (inp : McpInput) :
    StepGoverned d ctx as w (advanceMcp d api ctx w inp slot.call).1 ∧
      McpSlot.Known d ctx as (advanceMcp d api ctx w inp slot.call).1 p ⟨slot.request, (advanceMcp d api ctx w inp slot.call).2⟩ := by
  obtain ⟨r, call⟩ := slot
  cases call with
  | idle => exact ⟨stepGoverned_refl w, trivial⟩
  | searching query k hint =>
    refine ⟨stepGoverned_refl w, known_ended rfl ?_⟩
    cases inp.search <;> rfl
  | submitting pr c =>
    obtain ⟨hstore, hqueue⟩ := advanceSubmitting_submits (d := d) (w := w) (show ctx.submitTool = some pr from h) inp c
    obtain ⟨reply, hcall, hreply⟩ := advanceSubmitting_call d ctx w inp pr c
    refine ⟨⟨advanceSubmitting_grows inp pr c, fun r hr => .inl ?_, fun _ => .inr (.inl hqueue)⟩, known_ended hcall hreply⟩
    rw [← hstore]
    exact hr
  | serving req sv =>
    obtain ⟨hstart, hserving, hop, hcredential, transport, audit, htools, hstage⟩ := h
    have hasked : ∀ {op canonical}, Authorized d transport req.credential canonical → req.op = op → AskedFor d ctx as op := by
      intro op canonical ha ho
      exact ⟨p, r, transport, audit, canonical, hstart, hserving, htools, ho ▸ hop, hcredential ▸ ha⟩
    have hnext : StageOf d transport req _ _ := stage_serve api inp.reply inp.readBack hstage
    refine ⟨⟨serve_grows d api (w, sv) inp.reply inp.readBack, fun row hrow => ?_, fun i => ?_⟩, ?_⟩
    · rcases serve_store hstage hrow with hold | ⟨canonical, i, ha, ho, hw⟩
      · exact .inl hold
      · exact .inr ⟨i, hw, hasked ha ho⟩
    · rcases serve_decision api inp.reply inp.readBack hstage i with hsame | ⟨canonical, ha, ho | ho⟩
      · exact .inl hsame
      · exact .inr (.inr (.inl (hasked ha ho)))
      · exact .inr (.inr (.inr (hasked ha ho)))
    · change McpSlot.Known d ctx as _ p ⟨r, afterService d req sv (advanceServing d api w inp.reply inp.readBack sv).2⟩
      rcases afterService_cases d req sv (advanceServing d api w inp.reply inp.readBack sv).2 with hgoing | ⟨reply, hreply⟩
      · rw [hgoing]
        exact ⟨hstart, hserving, hop, hcredential, transport, audit, htools, hnext⟩
      · rw [hreply]
        intro hprivileged
        obtain ⟨canonical, ha⟩ := afterService_privileged hnext hreply hprivileged
        exact ⟨req.op, hop, hasked ha rfl⟩
  | ended reply => exact ⟨stepGoverned_refl w, h⟩

theorem Undecided.step {w' w'' : World} (h : Undecided w w'.outbox i)
    (hstep : decisionAt w''.outbox i = decisionAt w'.outbox i ∨ Submitted w'.outbox w''.outbox) : Undecided w w''.outbox i := by
  rcases hstep with hsame | hsubmitted
  · rwa [Undecided, hsame]
  · exact h.submitted hsubmitted

/-- What is known of a run. -/
structure GovernedRun (d : Deployment) (ctx : McpServer) (w : World) (as : List McpAction) (s : McpSystem) : Prop where
  calls : ∀ p, (s.calls p).Known d ctx as s.world p
  store : ∀ r ∈ s.world.store.rows, r ∈ w.store.rows ∨ ∃ i, r.writtenFor = some i ∧ AskedFor d ctx as (.approve i)
  queue : ∀ i, Undecided w s.world.outbox i ∨ AskedFor d ctx as (.approve i) ∨ AskedFor d ctx as (.reject i)

/-- Call `p` moves, and the world with it. -/
theorem GovernedRun.move (h : GovernedRun d ctx w as s) {a : McpAction} {w' : World} {slot : McpSlot}
    (hstep : StepGoverned d ctx (as ++ [a]) s.world w') (hslot : slot.Known d ctx (as ++ [a]) w' p) :
    GovernedRun d ctx w (as ++ [a]) ⟨w', Function.update s.calls p slot⟩ where
  calls := by
    intro q
    show McpSlot.Known d ctx (as ++ [a]) w' q (Function.update s.calls p slot q)
    by_cases hq : q = p
    · subst hq
      rwa [Function.update_self]
    · rw [Function.update_of_ne hq]
      exact (h.calls q).mono hstep.audit a
  store := by
    intro r hr
    rcases hstep.store r hr with hold | hnew
    · exact (h.store r hold).imp id fun ⟨i, hw, hasked⟩ => ⟨i, hw, hasked.mono [a]⟩
    · exact .inr hnew
  queue := by
    intro i
    rcases h.queue i with hold | hasked | hasked
    · rcases hstep.queue i with hsame | hsubmitted | hasked
      · exact .inl (hold.step (.inl hsame))
      · exact .inl (hold.step (.inr hsubmitted))
      · exact .inr hasked
    · exact .inr (.inl (hasked.mono [a]))
    · exact .inr (.inr (hasked.mono [a]))

theorem GovernedRun.step (h : GovernedRun d ctx w as s) (a : McpAction) : GovernedRun d ctx w (as ++ [a]) (mcpStep d api ctx s a) := by
  have hstays : GovernedRun d ctx w (as ++ [a]) s := by
    have hmove := h.move (p := 0) (stepGoverned_refl s.world) ((h.calls 0).mono (.inl rfl) a)
    rwa [Function.update_eq_self] at hmove
  cases a with
  | start p r =>
    unfold mcpStep
    dsimp only
    split
    · exact h.move (stepGoverned_refl s.world) (known_dispatch (by simp))
    · exact hstays
  | advance p inp =>
    have hnext := @advance_governed d api _ _ _ _ _ (hstays.calls p) inp
    exact h.move hnext.1 hnext.2

end Panella

import Panella.System

/-!
# What one step can do to an approval, to the log, and to a call

Every invariant of the system is derived from the lemmas here, and none of them unfolds `step`.

* **`outbox_step`** — a step inserts a row, purges what a scan found, or edits rows one by one; an edit is
  one of the guarded `UPDATE`s of the source (`RowEdit`), with the call it comes from.
* **`audit_step`** — the log only grows.
* **`call_step`** — only the call that is advanced moves.
-/

namespace Panella

open PyJson

/-! ## Rows -/

/-- The stamps an action can carry for approval `i`. -/
inductive Stamps (d : Deployment) (s : System) (i : Nat) : Action → ApproveStamp → Prop
  | raw (decidedBy : Option String) (now : String) :
      Stamps d s i (.op (.approveRaw i decidedBy now)) (rawStamp d decidedBy now)
  | telegram {presser : String} {tg : Option Int} {receipt : Option ReceiptTriple} (now : String)
      (hb : TelegramBound d s.world.outbox i presser tg receipt) :
      Stamps d s i (.op (.approveTelegram i presser tg receipt now)) (telegramStamp presser tg receipt now)
  | service {t : Nat} {rep : Reply} {q : ServiceCall} {canonical : String} {receipt : ReceiptTriple}
      (hc : s.calls t = .stamping q canonical receipt) (hi : q.approvalId = i) :
      Stamps d s i (.advance t rep) (serviceStamp q.via canonical receipt rep.now)

/-- The service never re-approves. -/
def Action.isOp : Action → Bool
  | .op _ => true
  | _ => false

/-- The step claims approval `i` for a hard delete. -/
def RtbfClaims (d : Deployment) (s : System) (a : Action) (i : Nat) : Prop :=
  ∃ t rep f o ids, a = .advance t rep ∧ s.calls t = .forgetting f ∧
    claimSidecarForRtbf d s.world.outbox f.drawerId rep.cutoff = .ok (o, ids) ∧ i ∈ ids

/-- **The `UPDATE`s of the source**: what a step makes of a row that stays. -/
inductive RowEdit (d : Deployment) (s : System) (a : Action) (i : Nat) (r : ApprovalRow) : ApprovalRow → Prop
  | kept : RowEdit d s a i r r
  | sent (messageId : Option Int) (messageIds : Option String) :
      RowEdit d s a i r { r with tgMessageId := messageId, tgMessageIds := messageIds }
  | reapproved {p : ApproveStamp} (hp : Stamps d s i a p) (ha : a.isOp = true) (hdone : alreadyApproved r ≠ none)
      (hsha : ∀ sha ∈ p.candidateSha256, sha = candidateFingerprint r.candidateJson) :
      RowEdit d s a i r (stampReceipt p (stampProvenance p r))
  | decided (status : ApprovalStatus) (respondedAt expiresAt decidedBy : Option String) (hopen : openForDecision r = true)
      (hs : status ∈ [ApprovalStatus.rejected, .pending, .deferred]) :
      RowEdit d s a i r { r with status, respondedAt, expiresAt, decidedBy, lastError := none }
  | resurfaced (hs : r.status = .deferred) :
      RowEdit d s a i r { r with status := .pending, expiresAt := none, tgMessageId := none }
  | backfilled {principal : Principal} {tenant tsIso : String} {inspector : Inspector} {fault : Option PyErr}
      {inspection detailsJson : Option String} (ha : a = .op (.backfill i principal tenant tsIso inspector fault))
      (he : eligibleNull r = true)
      (hd : encodeDetails d.limits (backfillEntry principal tenant tsIso i r inspection).details = .ok detailsJson)
      (hw : (Operation.run d s.world (.backfill i principal tenant tsIso inspector fault)).audit =
        s.world.audit.append (backfillEntry principal tenant tsIso i r inspection) detailsJson) :
      RowEdit d s a i r
        (stampBackfill (s.world.audit.newRow (backfillEntry principal tenant tsIso i r inspection) detailsJson).seq
          (s.world.audit.newRow (backfillEntry principal tenant tsIso i r inspection) detailsJson).thisHash r)
  | refused {t : Nat} {rep : Reply} {j : Job} {message : String}
      (ha : a = .advance t rep) (hc : s.calls t = .gate j) (hi : j.args.approvalId = i)
      (hset : j.args.authorizedApprovers ≠ [] ∧ j.args.expectedVia d ≠ "")
      (hv : rowVerdict d (s.world.auditView rep) j.args rep.cutoff r = .refuse message) (hn : notFinalized r = true) :
      RowEdit d s a i r { r with finalizerState := some .failed, finalizerLastError := some message }
  | claimed {t : Nat} {rep : Reply} {j : Job} (ha : a = .advance t rep) (hc : s.calls t = .gate j)
      (hi : j.args.approvalId = i) {receipt : Receipt} (hcl : claimable rep.cutoff r = true)
      (hv : rowVerdict d (s.world.auditView rep) j.args rep.cutoff r = .claim receipt) :
      RowEdit d s a i r
        { r with
          finalizerState := some .finalizing, finalizerWorkerId := some (j.args.worker rep.defaultWorkerId)
          finalizerClaimedAt := some rep.now, finalizerAttemptCount := r.finalizerAttemptCount + 1 }
  | recorded {t : Nat} {rep : Reply} {j : Job} {c : Claim} {built : DurablePayload} {h : String} (ha : a = .advance t rep)
      (hc : s.calls t = .recording j c built h) (hi : j.args.approvalId = i)
      (ho : ownedUnfinalized c.workerId r = true ∨ r.finalizerState ≠ some .rtbfDeleting ∧ settled r = false) :
      RowEdit d s a i r (setFinalized h c.workerId r)
  | failed {t : Nat} {rep : Reply} {j : Job} {c : Claim} {message : String} (ha : a = .advance t rep)
      (hc : s.calls t = .failing j c message) (hi : j.args.approvalId = i) (ho : ownedUnfinalized c.workerId r = true) :
      RowEdit d s a i r { r with finalizerState := some .failed, finalizerLastError := some (take500 message) }
  | rtbfClaimed (h : RtbfClaims d s a i) : RowEdit d s a i r (claimForRtbf r)

/-- Every row is edited, and no row and no event appears or goes. -/
structure Edits (d : Deployment) (s : System) (a : Action) (o' : Outbox) : Prop where
  rows : ∀ i r, s.world.outbox.approvals.get i = some r → ∃ r', o'.approvals.get i = some r' ∧ RowEdit d s a i r r'
  absent : ∀ i, s.world.outbox.approvals.get i = none → o'.approvals.get i = none
  events : ∀ e, (o'.events.get e).isSome = (s.world.outbox.events.get e).isSome
  nextId : o'.approvals.nextId = s.world.outbox.approvals.nextId
  nextEvent : o'.events.nextId = s.world.outbox.events.nextId

/-- The step approves a row for the first time, and inserts its event. -/
def FirstApproval (d : Deployment) (s : System) (a : Action) (o' : Outbox) : Prop :=
  ∃ i p r payload text, Stamps d s i a p ∧ s.world.outbox.approvals.get i = some r ∧
    r.status ∈ [ApprovalStatus.pending, .pendingApproval, .deferred] ∧
    (∀ sha ∈ p.candidateSha256, sha = candidateFingerprint r.candidateJson) ∧
    approvalPayload d r.candidateJson i p.now = .ok (payload, text) ∧
    o' = (s.world.outbox.insertEvent (approvalEvent d payload text p.now)).updateApproval i (fun _ => true)
      (stampApproved p s.world.outbox.events.nextId)

section Edits

variable {d : Deployment} {s : System} {a : Action} {o' : Outbox}

theorem edits_of_eq (h : o'.approvals = s.world.outbox.approvals) (he : o'.events = s.world.outbox.events) :
    Edits d s a o' where
  rows i r hr := ⟨r, by rw [h]; exact hr, .kept⟩
  absent i hn := by rw [h]; exact hn
  events e := by rw [he]
  nextId := by rw [h]
  nextEvent := by rw [he]

/-- A guarded `UPDATE` of one row is an edit, if it is one on that row. -/
theorem edits_of_update {j : Nat} {g : ApprovalRow → Bool} {f : ApprovalRow → ApprovalRow}
    (ho : o'.approvals = (s.world.outbox.updateApproval j g f).approvals)
    (he : ∀ e, (o'.events.get e).isSome = (s.world.outbox.events.get e).isSome)
    (hn : o'.events.nextId = s.world.outbox.events.nextId)
    (h : ∀ r, s.world.outbox.approvals.get j = some r → g r = true → RowEdit d s a j r (f r)) : Edits d s a o' where
  rows i r hr := by
    rw [ho]
    refine ⟨_, get_updateApproval g f hr, ?_⟩
    by_cases hi : i = j ∧ g r = true
    · rw [if_pos hi]
      obtain ⟨rfl, hg⟩ := hi
      exact h r hr hg
    · rw [if_neg hi]
      exact .kept
  absent i hi := by rw [ho]; exact get_updateApproval_none g f hi
  events := he
  nextId := by rw [ho]; rfl
  nextEvent := hn

theorem edits_approve {i e : Nat} {p : ApproveStamp} (hp : Stamps d s i a p)
    (hre : ∀ r, s.world.outbox.approvals.get i = some r → r.status = .approved → a.isOp = true)
    (h : approveInConn d s.world.outbox i p = .ok (o', e)) : FirstApproval d s a o' ∨ Edits d s a o' := by
  obtain ⟨row, hrow, hsha, ⟨hdone, rfl⟩ | ⟨hopen, rfl, payload, text, hpay, rfl⟩⟩ := approveInConn_ok h
  · refine .inr (edits_of_update (j := i) rfl (fun _ => rfl) rfl fun r hr _ => ?_)
    rw [hrow] at hr
    cases hr
    exact .reapproved hp (hre row hrow (alreadyApproved_some hdone).1) (by rw [hdone]; simp) hsha
  · exact .inl ⟨i, p, row, payload, text, hp, hrow, hopen, hsha, hpay, rfl⟩

end Edits

/-! ## The outbox in one step -/

/-- The step inserts a row. -/
def Enqueued (s : System) (a : Action) (o' : Outbox) : Prop :=
  ∃ candidateJson createdAt profile, a = .op (.enqueue candidateJson createdAt profile) ∧
    o' = enqueueApproval s.world.outbox candidateJson createdAt profile

/-- The step is the purge of a hard delete. -/
def Purged (d : Deployment) (s : System) (a : Action) (o' : Outbox) : Prop :=
  ∃ t rep f e scan, a = .advance t rep ∧ s.calls t = .purging f e ∧
    scanSidecar d s.world.outbox f.drawerId = .ok scan ∧ o' = purgeScanned s.world.outbox scan

theorem commitOr_cases {α : Type} (o : Outbox) (x : Except PyErr (Outbox × α)) :
    commitOr o x = o ∨ ∃ o' y, x = .ok (o', y) ∧ commitOr o x = o' := by
  cases x with
  | error e => exact .inl rfl
  | ok oy => exact .inr ⟨oy.1, oy.2, rfl, rfl⟩

theorem backfillOne_cases (d : Deployment) (principal : Principal) (tenant tsIso : String) (inspector : Inspector)
    (fault : Option PyErr) (st : Store) (o : Outbox) (t : AuditTable) (i : Nat) :
    backfillOne d principal tenant tsIso inspector fault st o t i = (o, t) ∨
    ∃ row inspection detailsJson, o.approvals.get i = some row ∧ eligibleNull row = true ∧
      encodeDetails d.limits (backfillEntry principal tenant tsIso i row inspection).details = .ok detailsJson ∧
      backfillOne d principal tenant tsIso inspector fault st o t i =
        (o.updateApproval i (fun r => r.auditReceiptSeq.isNone)
            (stampBackfill (t.newRow (backfillEntry principal tenant tsIso i row inspection) detailsJson).seq
              (t.newRow (backfillEntry principal tenant tsIso i row inspection) detailsJson).thisHash),
          t.append (backfillEntry principal tenant tsIso i row inspection) detailsJson) := by
  unfold backfillOne
  cases hr : o.approvals.get i with
  | none => exact .inl rfl
  | some row =>
    simp only
    by_cases he : eligibleNull row = true
    · rw [if_neg (by simp [he])]
      generalize (if row.finalizerState = some .finalizing then
        (inspectFinalizingMarker d st i tenant inspector).map some else some none) = inspection
      cases inspection with
      | none => exact .inl rfl
      | some inspection =>
        simp only
        cases hap : appendWithHash d t (backfillEntry principal tenant tsIso i row inspection) fault with
        | error x => exact .inl rfl
        | ok tsh =>
          obtain ⟨t', seq, thisHash⟩ := tsh
          obtain ⟨detailsJson, hd, rfl, rfl, rfl⟩ := appendWithHash_ok hap
          exact .inr ⟨row, inspection, detailsJson, rfl, he, hd, rfl⟩
    · rw [if_pos (by simpa using he)]
      exact .inl rfl

/-- **An operation**: an insert, a first approval or an edit. -/
theorem outbox_op (d : Deployment) (s : System) (o : Operation) :
    Enqueued s (.op o) (o.run d s.world).outbox ∨ FirstApproval d s (.op o) (o.run d s.world).outbox ∨
      Edits d s (.op o) (o.run d s.world).outbox := by
  cases o with
  | enqueue candidateJson createdAt profile => exact .inl ⟨_, _, _, rfl, rfl⟩
  | markSent i messageId messageIds => exact .inr (.inr (edits_of_update (j := i) rfl (fun _ => rfl) rfl fun r _ _ => .sent messageId messageIds))
  | approveRaw i decidedBy now =>
    right
    rcases commitOr_cases s.world.outbox (approveQueuedCandidate d s.world.outbox i decidedBy now) with h | ⟨o', e, ho, h⟩
    · exact .inr (edits_of_eq (congrArg Outbox.approvals h) (congrArg Outbox.events h))
    · show FirstApproval d s _ (commitOr _ _) ∨ Edits d s _ (commitOr _ _)
      rw [h]
      exact edits_approve (.raw decidedBy now) (fun _ _ _ => rfl) ho
  | approveTelegram i presser tg receipt now =>
    right
    rcases commitOr_cases s.world.outbox (approveAuthorizedTelegramCandidate d s.world.outbox i presser tg receipt now)
      with h | ⟨o', e, ho, h⟩
    · exact .inr (edits_of_eq (congrArg Outbox.approvals h) (congrArg Outbox.events h))
    · show FirstApproval d s _ (commitOr _ _) ∨ Edits d s _ (commitOr _ _)
      rw [h]
      obtain ⟨hb, ha⟩ := approveTelegram_ok ho
      exact edits_approve (.telegram now hb) (fun _ _ _ => rfl) ha
  | updateStatus i status decidedBy now =>
    right; right
    show Edits d s _ (commitOr _ (updateApprovalStatus d s.world.outbox i status decidedBy now))
    unfold updateApprovalStatus
    by_cases hs : status ∈ [ApprovalStatus.rejected, .pending]
    · rw [if_pos hs]
      refine edits_of_update (j := i) rfl (fun _ => rfl) rfl fun r _ hg => ?_
      exact .decided status _ r.expiresAt _ hg (by
        simp only [List.mem_cons, List.not_mem_nil, or_false] at hs ⊢
        rcases hs with h | h
        · exact .inl h
        · exact .inr (.inl h))
    · rw [if_neg hs]
      exact edits_of_eq rfl rfl
  | defer i decidedBy now until' =>
    exact .inr (.inr (edits_of_update (j := i) rfl (fun _ => rfl) rfl fun r _ hg => .decided .deferred _ _ _ hg (by simp)))
  | resurface now =>
    refine .inr (.inr ⟨fun i r hr => ?_, fun i hn => ?_, fun _ => rfl, rfl, rfl⟩)
    · refine ⟨if dueAt now r then { r with status := .pending, expiresAt := none, tgMessageId := none } else r, ?_, ?_⟩
      · show (s.world.outbox.approvals.updateAll _ _).get i = _
        rw [Table.get_updateAll, hr]
        rfl
      · by_cases hd : dueAt now r = true
        · rw [if_pos hd]
          simp only [dueAt, Bool.and_eq_true, decide_eq_true_eq] at hd
          exact .resurfaced hd.1
        · rw [if_neg hd]
          exact .kept
    · show (s.world.outbox.approvals.updateAll _ _).get i = none
      rw [Table.get_updateAll, hn]
      rfl
  | backfill i principal tenant tsIso inspector fault =>
    right; right
    rcases backfillOne_cases d principal tenant tsIso inspector fault s.world.store s.world.outbox s.world.audit i
      with h | ⟨row, inspection, detailsJson, hr, he, hd, h⟩
    · exact edits_of_eq (congrArg (fun ot : Outbox × AuditTable => ot.1.approvals) h)
        (congrArg (fun ot : Outbox × AuditTable => ot.1.events) h)
    · have hev := congrArg (fun ot : Outbox × AuditTable => ot.1.events) h
      refine edits_of_update (j := i) (congrArg (fun ot : Outbox × AuditTable => ot.1.approvals) h)
        (fun e => congrArg (fun ev : Table MemoryEvent => (ev.get e).isSome) hev)
        (congrArg (fun ev : Table MemoryEvent => ev.nextId) hev) fun r hr' _ => ?_
      rw [hr] at hr'
      cases hr'
      exact .backfilled rfl he hd (congrArg Prod.snd h)
  | append w => exact .inr (.inr (edits_of_eq rfl rfl))
  | put row => exact .inr (.inr (edits_of_eq rfl rfl))
  | drop hash => exact .inr (.inr (edits_of_eq rfl rfl))

theorem completeEvent_events (o : Outbox) (e : Option Nat) (h now : String) (x : Nat) :
    ((o.completeEvent e h now).events.get x).isSome = (o.events.get x).isSome := by
  cases e with
  | none => rfl
  | some e =>
    show ((o.events.update e _ _).get x).isSome = _
    rw [Table.get_update]
    split <;> simp

theorem completeEvent_nextEvent (o : Outbox) (e : Option Nat) (h now : String) :
    (o.completeEvent e h now).events.nextId = o.events.nextId := by
  cases e <;> rfl

theorem completeEvent_approvals (o : Outbox) (e : Option Nat) (h now : String) :
    (o.completeEvent e h now).approvals = o.approvals := by
  cases e <;> rfl

theorem appendBestEffort_outbox (d : Deployment) (w : World) (entry : AuditWrite) (fault : Option PyErr) :
    (w.appendBestEffort d entry fault).outbox = w.outbox := by
  cases fault <;> rfl

section Advance

variable {d : Deployment} {api : StoreApi} {s : System} {t : Nat} {rep : Reply}

theorem edits_gate {j : Job} (hc : s.calls t = .gate j) :
    Edits d s (.advance t rep) (advanceGate d s.world j rep).1.outbox := by
  show Edits d s _ (gateAndClaim d _ j.args _ rep.now rep.cutoff s.world.outbox).1
  rcases gateAndClaim_cases d (s.world.auditView rep) j.args (j.args.worker rep.defaultWorkerId) rep.now rep.cutoff
    s.world.outbox with ⟨h, -⟩ | ⟨row, message, hr, hv, h1, h2, h⟩ | ⟨row, receipt, hr, hv, hcl, h⟩
  · rw [h]
    exact edits_of_eq rfl rfl
  · rw [h]
    refine edits_of_update (j := j.args.approvalId) rfl (fun _ => rfl) rfl fun r hr' hg => ?_
    rw [hr] at hr'
    cases hr'
    exact .refused rfl hc rfl ⟨h1, h2⟩ hv hg
  · rw [h]
    refine edits_of_update (j := j.args.approvalId) rfl (fun _ => rfl) rfl fun r hr' hg => ?_
    rw [hr] at hr'
    cases hr'
    exact .claimed rfl hc rfl hg hv

theorem edits_recording {j : Job} {c : Claim} {built : DurablePayload} {h : String} (hc : s.calls t = .recording j c built h) :
    Edits d s (.advance t rep) (advanceRecording s.world j c built h rep).1.outbox := by
  show Edits d s _ (recordFinalized s.world.outbox j.args.approvalId c.workerId h c.row.memoryEventId rep.now).1
  rcases recordFinalized_cases s.world.outbox j.args.approvalId c.workerId h c.row.memoryEventId rep.now
    with ⟨cur, hr, ho, he⟩ | ⟨hr, he⟩ | ⟨cur, hr, -, -, he⟩ | ⟨cur, hr, -, he⟩ | ⟨cur, hr, -, h1, h2, he⟩
  · rw [he]
    refine edits_of_update (j := j.args.approvalId) (completeEvent_approvals _ _ _ _) (completeEvent_events _ _ _ _)
      (completeEvent_nextEvent _ _ _ _) fun r hr' hg => ?_
    exact .recorded rfl hc rfl (.inl hg)
  · rw [he]; exact edits_of_eq rfl rfl
  · rw [he]; exact edits_of_eq rfl rfl
  · rw [he]; exact edits_of_eq rfl rfl
  · rw [he]
    refine edits_of_update (j := j.args.approvalId) (completeEvent_approvals _ _ _ _) (completeEvent_events _ _ _ _)
      (completeEvent_nextEvent _ _ _ _) fun r hr' _ => ?_
    rw [hr] at hr'
    cases hr'
    exact .recorded rfl hc rfl (.inr ⟨h1, h2⟩)

theorem edits_stamping {q : ServiceCall} {canonical : String} {receipt : ReceiptTriple}
    (hc : s.calls t = .stamping q canonical receipt) :
    FirstApproval d s (.advance t rep) (advanceStamping d s.world q canonical receipt rep).1.outbox ∨
      Edits d s (.advance t rep) (advanceStamping d s.world q canonical receipt rep).1.outbox := by
  unfold advanceStamping
  cases hm : mcpApproveOrRedrive d s.world.outbox q.approvalId q.via canonical receipt rep.now with
  | error e => exact .inr (edits_of_eq rfl rfl)
  | ok om =>
    obtain ⟨o', mode⟩ := om
    rcases mcpApprove_ok hm with ⟨rfl, -⟩ | ⟨-, ⟨row, hrow, hne⟩, e, ha⟩
    · exact .inr (edits_of_eq rfl rfl)
    · refine edits_approve (.service hc rfl) (fun r hr hstat => ?_) ha
      rw [hrow] at hr
      cases hr
      exact absurd hstat hne

theorem edits_forgetting {f : Forget} (hc : s.calls t = .forgetting f) :
    Edits d s (.advance t rep) (advanceForgetting d s.world f rep).1.outbox := by
  unfold advanceForgetting
  cases hm : claimSidecarForRtbf d s.world.outbox f.drawerId rep.cutoff with
  | error e => exact edits_of_eq rfl rfl
  | ok oi =>
    obtain ⟨o', ids⟩ := oi
    obtain ⟨rfl, -⟩ := claimSidecarForRtbf_ok hm
    have hev : (claimAllForRtbf s.world.outbox ids).events = s.world.outbox.events := claimAllForRtbf_events _ _
    refine ⟨fun i r hr => ?_, fun i hn => ?_, fun e => ?_, claimAllForRtbf_nextId _ _, ?_⟩
    · by_cases hi : i ∈ ids
      · refine ⟨claimForRtbf r, ?_, .rtbfClaimed ⟨t, rep, f, _, ids, rfl, hc, hm, hi⟩⟩
        show (claimAllForRtbf _ _).approvals.get i = _
        rw [get_claimAllForRtbf, if_pos hi, hr]
        rfl
      · refine ⟨r, ?_, .kept⟩
        show (claimAllForRtbf _ _).approvals.get i = _
        rw [get_claimAllForRtbf, if_neg hi, hr]
    · show (claimAllForRtbf _ _).approvals.get i = none
      rw [get_claimAllForRtbf, hn]
      split <;> rfl
    · exact congrArg (fun ev : Table MemoryEvent => (ev.get e).isSome) hev
    · exact congrArg (fun ev : Table MemoryEvent => ev.nextId) hev

/-- **An advanced call**: the purge, a first approval or an edit. -/
theorem outbox_advance (d : Deployment) (api : StoreApi) (s : System) (t : Nat) (rep : Reply) :
    Purged d s (.advance t rep) (advance d api s.world rep (s.calls t)).1.outbox ∨
      FirstApproval d s (.advance t rep) (advance d api s.world rep (s.calls t)).1.outbox ∨
      Edits d s (.advance t rep) (advance d api s.world rep (s.calls t)).1.outbox := by
  have same : ∀ {o' : Outbox}, o' = s.world.outbox →
      Purged d s (.advance t rep) o' ∨ FirstApproval d s (.advance t rep) o' ∨ Edits d s (.advance t rep) o' := fun h =>
    .inr (.inr (edits_of_eq (congrArg Outbox.approvals h) (congrArg Outbox.events h)))
  cases hc : s.calls t with
  | gate j => exact .inr (.inr (edits_gate hc))
  | recording j c built h => exact .inr (.inr (edits_recording hc))
  | stamping q canonical receipt => exact .inr (edits_stamping hc)
  | forgetting f => exact .inr (.inr (edits_forgetting hc))
  | failing j c message =>
    exact .inr (.inr (edits_of_update (j := j.args.approvalId) rfl (fun _ => rfl) rfl fun r _ hg => .failed rfl hc rfl hg))
  | purging f e =>
    show Purged d s _ (advancePurging d s.world f e).1.outbox ∨ _
    cases hs : scanSidecar d s.world.outbox f.drawerId with
    | error x => exact same (by simp [advancePurging, hardDeleteSidecar, hs, Except.map])
    | ok scan =>
      refine .inl ⟨t, rep, f, e, scan, rfl, hc, hs, ?_⟩
      simp [advancePurging, hardDeleteSidecar, hs, Except.map, World.withOutbox]
  | posting j c built =>
    refine same ?_
    show (advancePosting d api s.world j c built rep).1.outbox = _
    unfold advancePosting
    split <;> rfl
  | deciding q =>
    refine same ?_
    show (advanceDeciding d s.world q rep).1.outbox = _
    unfold advanceDeciding
    split
    · exact appendBestEffort_outbox _ _ _ _
    · split
      · exact appendBestEffort_outbox _ _ _ _
      · rfl
  | appending q canonical candidateJson proposer =>
    refine same ?_
    show (advanceAppending d s.world q canonical candidateJson proposer rep).1.outbox = _
    unfold advanceAppending
    dsimp only
    split <;> rfl
  | attesting j c built h => exact same (appendBestEffort_outbox _ _ _ _)
  | remembering f e =>
    refine .inr (.inr ?_)
    show Edits d s _ (advanceRemembering d s.world f e).outbox
    unfold advanceRemembering
    split <;> exact edits_of_eq rfl rfl
  | auditing f e =>
    refine same ?_
    show (advanceAuditing d s.world f e rep).1.outbox = _
    unfold advanceAuditing
    split
    · split <;> rfl
    · rfl
  | noting | announcing => exact .inr (.inr (edits_of_eq rfl rfl))
  | idle | claimed | lookingUp | cleaning | redriving | deleting | resolving | cascading | sweeping | sweepDeleting
  | returned => exact same rfl

end Advance

/-- **What one step does to the outbox.** -/
theorem outbox_step (d : Deployment) (api : StoreApi) (s : System) (a : Action) :
    Enqueued s a (step d api s a).world.outbox ∨ Purged d s a (step d api s a).world.outbox ∨
      FirstApproval d s a (step d api s a).world.outbox ∨ Edits d s a (step d api s a).world.outbox := by
  cases a with
  | op o =>
    rcases outbox_op d s o with h | h
    · exact .inl h
    · exact .inr (.inr h)
  | start t c =>
    refine .inr (.inr (.inr (edits_of_eq ?_ ?_)))
    · show (if (s.calls t).free = true then _ else _ : System).world.outbox.approvals = _
      split <;> rfl
    · show (if (s.calls t).free = true then _ else _ : System).world.outbox.events = _
      split <;> rfl
  | advance t rep => exact .inr (outbox_advance d api s t rep)

/-! ## One row in one step -/

/-- A row that stays is edited or approved for the first time. -/
inductive RowChange (d : Deployment) (s : System) (a : Action) (i : Nat) (r : ApprovalRow) : ApprovalRow → Prop
  | edited {r' : ApprovalRow} (h : RowEdit d s a i r r') : RowChange d s a i r r'
  | approved {p : ApproveStamp} (hp : Stamps d s i a p)
      (hopen : r.status ∈ [ApprovalStatus.pending, .pendingApproval, .deferred])
      (hsha : ∀ sha ∈ p.candidateSha256, sha = candidateFingerprint r.candidateJson) :
      RowChange d s a i r (stampApproved p s.world.outbox.events.nextId r)

/-- **What becomes of a row.** -/
theorem row_step (d : Deployment) (api : StoreApi) {s : System} (a : Action) {i : Nat} {r : ApprovalRow}
    (hr : s.world.outbox.approvals.get i = some r) :
    (∃ r', (step d api s a).world.outbox.approvals.get i = some r' ∧ RowChange d s a i r r') ∨
      ((step d api s a).world.outbox.approvals.get i = none ∧
        ∃ t rep f e scan, a = .advance t rep ∧ s.calls t = .purging f e ∧
          scanSidecar d s.world.outbox f.drawerId = .ok scan ∧ i ∈ scan.staleIds) := by
  rcases outbox_step d api s a with ⟨cj, ca, pr, -, h⟩ | ⟨t, rep, f, e, scan, ha, hc, hs, h⟩ |
    ⟨k, p, q, payload, text, hp, hq, hopen, hsha, -, h⟩ | h
  · refine .inl ⟨r, ?_, .edited .kept⟩
    rw [h]
    show (s.world.outbox.approvals.insert _).get i = _
    rw [Table.get_insert, if_neg (Nat.ne_of_lt (Table.lt_of_get hr)), hr]
  · by_cases hi : i ∈ scan.staleIds
    · refine .inr ⟨?_, t, rep, f, e, scan, ha, hc, hs, hi⟩
      rw [h]
      exact if_pos hi
    · refine .inl ⟨r, ?_, .edited .kept⟩
      rw [h]
      show (if i ∈ scan.staleIds then none else _) = _
      rw [if_neg hi, hr]
  · left
    rw [h]
    refine ⟨_, get_updateApproval (o := s.world.outbox.insertEvent _) _ _ hr, ?_⟩
    by_cases hik : i = k
    · subst hik
      rw [hq] at hr
      cases hr
      rw [if_pos ⟨rfl, rfl⟩]
      exact .approved hp hopen hsha
    · rw [if_neg (fun hx => hik hx.1)]
      exact .edited .kept
  · obtain ⟨r', hr', he⟩ := h.rows i r hr
    exact .inl ⟨r', hr', .edited he⟩

/-- **Where a row comes from.** -/
theorem row_new (d : Deployment) (api : StoreApi) {s : System} {a : Action} {i : Nat} {r : ApprovalRow}
    (hn : s.world.outbox.approvals.get i = none) (hr : (step d api s a).world.outbox.approvals.get i = some r) :
    i = s.world.outbox.approvals.nextId ∧ ∃ candidateJson createdAt profile,
      a = .op (.enqueue candidateJson createdAt profile) ∧ r = queuedRow candidateJson createdAt profile := by
  rcases outbox_step d api s a with ⟨cj, ca, pr, ha, h⟩ | ⟨t, rep, f, e, scan, -, -, -, h⟩ |
    ⟨k, p, q, payload, text, -, -, -, -, -, h⟩ | h
  · rw [h] at hr
    have hget : (if i = s.world.outbox.approvals.nextId then some (queuedRow cj ca pr) else
      s.world.outbox.approvals.get i) = some r := hr
    by_cases hi : i = s.world.outbox.approvals.nextId
    · rw [if_pos hi] at hget
      cases hget
      exact ⟨hi, cj, ca, pr, ha, rfl⟩
    · rw [if_neg hi, hn] at hget
      cases hget
  · rw [h] at hr
    have hget : (if i ∈ scan.staleIds then none else s.world.outbox.approvals.get i) = some r := hr
    rw [hn] at hget
    split at hget <;> cases hget
  · rw [h, get_updateApproval_none (o := s.world.outbox.insertEvent _) _ _ hn] at hr
    cases hr
  · rw [h.absent i hn] at hr
    cases hr

end Panella

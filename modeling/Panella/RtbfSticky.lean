import Panella.CallStep
import Panella.StatusMachine

/-!
# The RTBF claim

A row that is being forgotten is protected by the `WHERE` of every `UPDATE` that could touch it, and by nothing
else. `rowChange_held` goes through them: all keep the claim but one, the `UPDATE` of the gate's refusals, which
excludes `finalized` only. **`rtbfClaim_sticky`** says that the claim holds through a run exactly when no gate
refuses the row in it; `forgottenRow_reopened` is a run in which one does.
-/

namespace Panella

open Machine PyJson

variable {d : Deployment} {api : StoreApi}

/-- The row is claimed by a hard delete. -/
def RtbfHeld (r : ApprovalRow) : Prop := r.finalizerState = some .rtbfDeleting ∧ r.finalizerWorkerId = some "rtbf"

def RtbfClaimed (s : System) (i : Nat) : Prop := ∃ r, s.world.outbox.approvals.get i = some r ∧ RtbfHeld r

/-- A finalize call does not take the RTBF's worker id. -/
def WorkersNamed (s : System) (a : Action) : Prop :=
  ∀ t rep j, a = .advance t rep → s.calls t = .gate j → j.args.worker rep.defaultWorkerId ≠ "rtbf"

/-- The gate of a call reads an approved row that is being forgotten, and refuses its provenance or its receipt. -/
def Reopens (d : Deployment) (s : System) (a : Action) (i : Nat) : Prop :=
  ∃ t rep j r, a = .advance t rep ∧ s.calls t = .gate j ∧ j.args.approvalId = i ∧ j.args.authorizedApprovers ≠ [] ∧
    j.args.expectedVia d ≠ "" ∧ s.world.outbox.approvals.get i = some r ∧ r.finalizerState = some .rtbfDeleting ∧
    r.status = .approved ∧ r.memoryEventId ≠ none ∧
    (provenanceOk d j.args r = false ∨ ∃ reason, receiptGateRefusal d (s.world.auditView rep) i r = .ok (.refused reason))

/-! ## The claims in flight -/

/-- The claims in flight are the finalizers'. -/
def ClaimsNamed (s : System) : Prop := ∀ t j c, (s.calls t).held = some (j, c) → c.workerId ≠ "rtbf"

theorem claimsNamed_step {s : System} {a : Action} (h : ClaimsNamed s) (hn : WorkersNamed s a) :
    ClaimsNamed (step d api s a) := by
  intro t j c hheld
  rcases held_step d api hheld with hold | ⟨rep, row, receipt, rfl, hc, -, -, -, rfl⟩
  · exact h t j c hold
  · exact hn t rep j rfl hc

theorem claimsNamed_runs {w : World} {as : List Action} (hn : Along (step d api) WorkersNamed (.initial w) as) :
    ClaimsNamed (runs d api (.initial w) as) := by
  refine run_inv_along (fun s a h hn => claimsNamed_step h hn) ?_ hn
  intro t j c h
  cases h

/-! ## One row in one step -/

/-- The gate refuses a row that is being forgotten for its provenance or its receipt. -/
theorem rowVerdict_refuse_iff {view : Except String AuditTable} {a : FinalizeArgs} {cutoff : String} {r : ApprovalRow}
    (hs : r.finalizerState = some .rtbfDeleting) :
    (∃ message, rowVerdict d view a cutoff r = .refuse message) ↔
      r.status = .approved ∧ r.memoryEventId ≠ none ∧
        (provenanceOk d a r = false ∨ ∃ reason, receiptGateRefusal d view a.approvalId r = .ok (.refused reason)) := by
  have hlive : leaseLive cutoff r = false := by simp [leaseLive, hs]
  unfold rowVerdict
  by_cases h1 : r.status = .approved
  · by_cases h2 : r.memoryEventId = none
    · simp [h2]
    · by_cases h3 : provenanceOk d a r = true
      · cases hg : receiptGateRefusal d view a.approvalId r with
        | error e => simp [h1, h2, h3, hs, hlive]
        | ok v => cases v <;> simp [h1, h2, h3, hs, hlive]
      · simp [h1, h2, h3]
  · simp [h1]

section RowChange

variable {s : System} {a : Action} {i : Nat} {r r' : ApprovalRow}

/-- **The `UPDATE`s on a row that is being forgotten.** -/
theorem rowChange_held (hn : ClaimsNamed s) (hget : s.world.outbox.approvals.get i = some r) (h : RowChange d s a i r r')
    (hr : RtbfHeld r) : RtbfHeld r' ∨ Reopens d s a i := by
  obtain ⟨hs, hw⟩ := hr
  have hno : ∀ {j c}, (∃ t, (s.calls t).held = some (j, c)) → ¬ ownedUnfinalized c.workerId r = true := by
    rintro j c ⟨t, hc⟩ ho
    simp only [ownedUnfinalized, hw, Bool.and_eq_true, decide_eq_true_eq, Option.some.injEq] at ho
    exact hn t j c hc ho.1.symm
  cases h with
  | approved => exact .inl ⟨hs, hw⟩
  | edited h =>
    cases h with
    | reapproved =>
      left
      refine ⟨?_, ?_⟩
      · unfold stampReceipt stampProvenance
        split <;> split <;> exact hs
      · unfold stampReceipt stampProvenance
        split <;> split <;> exact hw
    | kept | sent | decided | resurfaced | backfilled => exact .inl ⟨hs, hw⟩
    | rtbfClaimed => exact .inl ⟨rfl, rfl⟩
    | refused ha hc hi hset hv =>
      subst hi
      obtain ⟨h1, h2, h3⟩ := (rowVerdict_refuse_iff hs).1 ⟨_, hv⟩
      exact .inr ⟨_, _, _, r, ha, hc, rfl, hset.1, hset.2, hget, hs, h1, h2, h3⟩
    | claimed ha hc hi hcl => simp [claimable, hs, finalizerUnclaimed] at hcl
    | @recorded t _ j c _ _ ha hc hi ho =>
      rcases ho with ho | ho
      · exact absurd ho (hno (j := j) ⟨t, by rw [hc]; rfl⟩)
      · exact absurd hs ho.1
    | @failed t _ j c _ ha hc hi ho => exact absurd ho (hno (j := j) ⟨t, by rw [hc]; rfl⟩)

end RowChange

/-- A refusal by the gate is written to the row. -/
theorem reopens_failed {s : System} {a : Action} {i : Nat} (h : Reopens d s a i) :
    ∃ r', (step d api s a).world.outbox.approvals.get i = some r' ∧ r'.finalizerState = some .failed := by
  obtain ⟨t, rep, j, r, rfl, hc, rfl, h1, h2, hr, hs, h3, h4, h5⟩ := h
  have hrefuse : ∃ message, rowVerdict d (s.world.auditView rep) j.args rep.cutoff r = .refuse message :=
    (rowVerdict_refuse_iff hs).2 ⟨h3, h4, h5⟩
  obtain ⟨message, hv⟩ := hrefuse
  have hgate : gateAndClaim d (s.world.auditView rep) j.args (j.args.worker rep.defaultWorkerId) rep.now rep.cutoff
      s.world.outbox = (refuseRow s.world.outbox j.args.approvalId message, .returned none) := by
    unfold gateAndClaim
    simp only [if_neg h1, if_neg h2, hr, hv]
  have hw : (step d api s (.advance t rep)).world.outbox = refuseRow s.world.outbox j.args.approvalId message := by
    show (advance d api s.world rep (s.calls t)).1.outbox = _
    rw [hc]
    show (gateAndClaim d _ j.args _ rep.now rep.cutoff s.world.outbox).1 = _
    rw [hgate]
  rw [hw]
  refine ⟨_, get_updateApproval _ _ hr, ?_⟩
  rw [if_pos ⟨rfl, by simp [notFinalized, hs]⟩]

/-! ## Over a run -/

/-- The row is claimed by a hard delete, or purged. -/
def Forgetting (s : System) (i : Nat) : Prop := RtbfClaimed s i ∨ Gone s i

theorem not_forgetting_of_reopens {s : System} {a : Action} {i : Nat} (h : Reopens d s a i) :
    ¬ Forgetting (step d api s a) i := by
  have hfail : ∃ r', (step d api s a).world.outbox.approvals.get i = some r' ∧ r'.finalizerState = some .failed :=
    reopens_failed h
  obtain ⟨r', hr', hf⟩ := hfail
  rintro (⟨q, hq, hs, -⟩ | hg)
  · rw [hr'] at hq
    cases hq
    rw [hf] at hs
    cases hs
  · rw [hg.1] at hr'
    cases hr'

/-- **One step keeps the claim exactly if no gate refuses the row.** -/
theorem forgetting_step {s : System} {a : Action} {i : Nat} (hn : ClaimsNamed s) (h : Forgetting s i) :
    Forgetting (step d api s a) i ↔ ¬ Reopens d s a i := by
  constructor
  · intro h' hre
    exact not_forgetting_of_reopens hre h'
  · intro hre
    rcases h with ⟨r, hr, hheld⟩ | hg
    · rcases row_step d api a hr with ⟨r', hr', hc⟩ | ⟨hnone, -⟩
      · rcases rowChange_held hn hr hc hheld with h' | h'
        · exact .inl ⟨r', hr', h'⟩
        · exact absurd h' hre
      · exact .inr ⟨hnone, lt_of_lt_of_le (Table.lt_of_get hr) (nextId_step s a)⟩
    · exact .inr (gone_step hg a)

theorem forgetting_runs {s : System} {i : Nat} {bs : List Action} (hn : ClaimsNamed s) (h : Forgetting s i)
    (hnamed : Along (step d api) WorkersNamed s bs) :
    (∀ cs, cs <+: bs → Forgetting (runs d api s cs) i) ↔ Along (step d api) (fun s a => ¬ Reopens d s a i) s bs := by
  exact prefixes_iff_along (J := ClaimsNamed) (P := fun s => Forgetting s i) (fun _ _ hn hw => claimsNamed_step hn hw)
    (fun _ _ hn h _ => forgetting_step hn h) hn h hnamed

/-- **When the RTBF claim is sticky.** From a state of a run in which approval `i` is claimed by a hard delete, the row
keeps state and worker until it is purged, in every state that follows, if and only if no finalize call's gate reads
the row, approved, and refuses its provenance or its receipt. -/
theorem rtbfClaim_sticky (d : Deployment) (api : StoreApi) (w : World) (as bs : List Action) (i : Nat)
    (hnamed : Along (step d api) WorkersNamed (.initial w) (as ++ bs)) (hclaimed : RtbfClaimed (runs d api (.initial w) as) i) :
    (∀ cs, cs <+: bs → RtbfClaimed (runs d api (.initial w) (as ++ cs)) i ∨ Gone (runs d api (.initial w) (as ++ cs)) i) ↔
      Along (step d api) (fun s a => ¬ Reopens d s a i) (runs d api (.initial w) as) bs := by
  obtain ⟨h1, h2⟩ := along_append.1 hnamed
  have key := forgetting_runs (claimsNamed_runs h1) (.inl hclaimed) h2
  simp only [runs, run_append] at key ⊢
  exact key

/-! ## A run that reopens a row -/

/-- A run from an empty outbox, log and store. -/
abbrev sampleRun (as : List Action) : System := runs sampleDeployment sampleStoreApi (.initial ⟨.empty, .empty, .empty⟩) as

theorem sampleCandidate_payload (now : String) :
    ∃ payload text, approvalPayload sampleDeployment sampleCandidate 1 now = .ok (payload, text) := by
  unfold approvalPayload
  rw [sampleCandidate_loads]
  exact ⟨_, _, rfl⟩

/-- The queue with one candidate. -/
def sampleQueue : Outbox := enqueueApproval .empty sampleCandidate "t0" none

theorem sampleQueue_scan : scanSidecar sampleDeployment sampleQueue "x" = .ok ⟨[1], [], []⟩ := by
  have hn : candidateNames sampleDeployment "x" sampleCandidate = .ok true := by
    unfold candidateNames
    rw [Deployment.loadsMended_eq (by decide +kernel), sampleCandidate_loads]
    rfl
  have hrows : sampleQueue.approvals.rows = [(1, queuedRow sampleCandidate "t0" none)] := rfl
  have hs : scanApprovals sampleDeployment "x" [] sampleQueue.approvals.rows = .ok ([1], []) := by
    simp [hrows, scanApprovals, queuedRow, hn, Except.map]
  have he : scanEvents sampleDeployment "x" sampleQueue.events.rows = .ok [] := rfl
  simp [scanSidecar, he, hs, upstreamIds]

def sampleRoot : Principal := ⟨"root", "*", "root", ["*"], true, some ⟨"erasure request", 10⟩⟩

def sampleForget : Forget := ⟨sampleRoot, 0, rfl, "x", "erasure request"⟩

/-- A candidate is queued and a hard delete claims it. -/
def forgetRun : List Action :=
  [.op (.enqueue sampleCandidate "t0" none), .start 0 (.forget sampleForget), .advance 0 { now := "t1", cutoff := "t0" }]

theorem forgetRun_state : sampleRun forgetRun =
    ⟨⟨claimAllForRtbf sampleQueue [1], .empty, .empty⟩,
      Function.update (Function.update (fun _ => .idle) 0 (.forgetting sampleForget)) 0 (.deleting sampleForget [1])⟩ := by
  have hclaim : claimSidecarForRtbf sampleDeployment sampleQueue "x" "t0" = .ok (claimAllForRtbf sampleQueue [1], [1]) := by
    refine claimSidecarForRtbf_of_scan sampleQueue_scan fun i hi => ?_
    rw [List.mem_singleton.1 hi]
    rfl
  have h1 : step sampleDeployment sampleStoreApi (.initial ⟨.empty, .empty, .empty⟩)
      (.op (.enqueue sampleCandidate "t0" none)) = .initial ⟨sampleQueue, .empty, .empty⟩ := rfl
  have h2 : step sampleDeployment sampleStoreApi (.initial ⟨sampleQueue, .empty, .empty⟩) (.start 0 (.forget sampleForget)) =
      ⟨⟨sampleQueue, .empty, .empty⟩, Function.update (fun _ => .idle) 0 (.forgetting sampleForget)⟩ := step_start _ rfl
  have hcall : (⟨⟨sampleQueue, .empty, .empty⟩, Function.update (fun _ => .idle) 0 (.forgetting sampleForget)⟩ : System).calls 0 =
      .forgetting sampleForget := Function.update_self 0 (Call.forgetting sampleForget) fun _ => Call.idle
  have hadv : advance sampleDeployment sampleStoreApi ⟨sampleQueue, .empty, .empty⟩ { now := "t1", cutoff := "t0" }
      (.forgetting sampleForget) =
      (World.withOutbox ⟨sampleQueue, .empty, .empty⟩ (claimAllForRtbf sampleQueue [1]), .deleting sampleForget [1]) :=
    advance_forgetting hclaim
  have h3 := step_advance hcall hadv
  simp only [sampleRun, runs, forgetRun, run_cons, run_nil]
  rw [h1, h2, h3]
  rfl

theorem forgetRun_claimed : RtbfClaimed (sampleRun forgetRun) 1 := by
  rw [forgetRun_state]
  exact ⟨_, rfl, rfl, rfl⟩

theorem forgetRun_named :
    Along (step sampleDeployment sampleStoreApi) WorkersNamed (.initial ⟨.empty, .empty, .empty⟩) forgetRun := by
  refine ⟨?_, ?_, ?_, trivial⟩
  · intro t rep j h
    cases h
  · intro t rep j h
    cases h
  · intro t rep j h hc
    cases h
    cases hc

/-- The row is approved all the same, by a raw approval, and a finalize call is started. -/
def reapproval : List Action := [.op (.approveRaw 1 none "t2"), .start 1 (.finalize ⟨1, ["telegram:1"], none, some "w1"⟩)]

theorem reapproval_gate : ∃ calls r o, sampleRun (forgetRun ++ reapproval) = ⟨⟨o, .empty, .empty⟩, calls⟩ ∧
    calls 1 = .gate ⟨⟨1, ["telegram:1"], none, some "w1"⟩, .direct⟩ ∧ o.approvals.get 1 = some r ∧ RtbfHeld r ∧
    r.status = .approved ∧ r.memoryEventId = some 1 ∧ r.approvedVia = none := by
  obtain ⟨payload, text, hp⟩ := sampleCandidate_payload "t2"
  have hrow : (claimAllForRtbf sampleQueue [1]).approvals.get 1 = some (claimForRtbf (queuedRow sampleCandidate "t0" none)) :=
    rfl
  have h1 := @step_approveRaw sampleDeployment sampleStoreApi (sampleRun forgetRun) 1 none "t2" text
    (claimForRtbf (queuedRow sampleCandidate "t0" none)) payload (by rw [forgetRun_state]; exact hrow) (by decide) hp
  have h2 := @step_start sampleDeployment sampleStoreApi
    (step sampleDeployment sampleStoreApi (sampleRun forgetRun) (.op (.approveRaw 1 none "t2"))) 1
    (.finalize ⟨1, ["telegram:1"], none, some "w1"⟩) (by rw [h1, forgetRun_state]; rfl)
  have hrun : sampleRun (forgetRun ++ reapproval) =
      step sampleDeployment sampleStoreApi
        (step sampleDeployment sampleStoreApi (sampleRun forgetRun) (.op (.approveRaw 1 none "t2")))
        (.start 1 (.finalize ⟨1, ["telegram:1"], none, some "w1"⟩)) := run_append _ _ _ _
  rw [hrun, h2, h1, forgetRun_state]
  exact ⟨_, _, _, rfl, Function.update_self .., get_updateApproval _ _ hrow, ⟨rfl, rfl⟩, rfl, rfl, rfl⟩

theorem reapproval_named :
    Along (step sampleDeployment sampleStoreApi) WorkersNamed (.initial ⟨.empty, .empty, .empty⟩) (forgetRun ++ reapproval) := by
  refine along_append.2 ⟨forgetRun_named, ?_, ?_, trivial⟩
  · intro t rep j h
    cases h
  · intro t rep j h
    cases h

theorem rtbfClaim_sticky_sample :
    Along (step sampleDeployment sampleStoreApi) WorkersNamed (.initial ⟨.empty, .empty, .empty⟩) (forgetRun ++ reapproval) ∧
    RtbfClaimed (sampleRun forgetRun) 1 ∧
    ((∀ cs, cs <+: reapproval →
        RtbfClaimed (sampleRun (forgetRun ++ cs)) 1 ∨ Gone (sampleRun (forgetRun ++ cs)) 1) ↔
      Along (step sampleDeployment sampleStoreApi) (fun s a => ¬ Reopens sampleDeployment s a 1) (sampleRun forgetRun)
        reapproval) :=
  ⟨reapproval_named, forgetRun_claimed, rtbfClaim_sticky sampleDeployment sampleStoreApi ⟨.empty, .empty, .empty⟩ forgetRun
    reapproval 1 reapproval_named forgetRun_claimed⟩

/-- **The gate reopens a row that is being forgotten**: the call finds no provenance on it, and writes `failed`. -/
theorem forgottenRow_reopened :
    RtbfClaimed (sampleRun forgetRun) 1 ∧
    Along (step sampleDeployment sampleStoreApi) WorkersNamed (.initial ⟨.empty, .empty, .empty⟩)
      (forgetRun ++ reapproval ++ [.advance 1 { now := "t3", cutoff := "t2" }]) ∧
    ¬ (RtbfClaimed (sampleRun (forgetRun ++ reapproval ++ [.advance 1 { now := "t3", cutoff := "t2" }])) 1 ∨
      Gone (sampleRun (forgetRun ++ reapproval ++ [.advance 1 { now := "t3", cutoff := "t2" }])) 1) := by
  obtain ⟨calls, r, o, hs, hgate, hr, hheld, hstat, hev, hvia⟩ := reapproval_gate
  have hre : Reopens sampleDeployment (sampleRun (forgetRun ++ reapproval)) (.advance 1 { now := "t3", cutoff := "t2" }) 1 := by
    rw [hs]
    refine ⟨1, _, _, r, rfl, hgate, rfl, by decide, by decide, hr, hheld.1, hstat, by rw [hev]; simp, .inl ?_⟩
    simp [provenanceOk, hvia]
  refine ⟨forgetRun_claimed, along_snoc.2 ⟨reapproval_named, ?_⟩, ?_⟩
  · intro t rep j h hc
    cases h
    have hc : (sampleRun (forgetRun ++ reapproval)).calls 1 = .gate j := hc
    rw [hs] at hc
    obtain rfl : _ = j := Call.gate.inj (hgate.symm.trans hc)
    decide
  · have h : ¬ Forgetting (step sampleDeployment sampleStoreApi (sampleRun (forgetRun ++ reapproval)) _) 1 :=
      not_forgetting_of_reopens hre
    rw [Forgetting] at h
    simp only [sampleRun, runs, run_snoc] at h ⊢
    exact h

end Panella

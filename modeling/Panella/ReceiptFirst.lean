import Panella.CallStep

/-!
# No durable write without a receipt

The gate runs in one transaction, the payload is built and written later, and in between the row can
change under the call. What the write rests on is therefore the row as the call read it: **`Receipted`**
ties that row to the log, and it stays true because the log only grows. `ClaimedUnder` keeps the step of
the run at which the gate let the call pass, and **`durableWrite_receipted`** has both for every write.
-/

namespace Panella

open Machine PyJson

variable {d : Deployment} {api : StoreApi}

/-- What the log `t` says about the row a call has claimed. -/
structure Receipted (d : Deployment) (t : AuditTable) (j : Job) (row : ApprovalRow) (receipt : Receipt) : Prop where
  committed : receipt.row ∈ t.rows
  verified : row.auditReceiptSeq = some receipt.row.seq ∧ auditVerifyThrough d.limits t receipt.row.seq = .ok receipt
  hash : row.auditReceiptHash = some receipt.row.thisHash
  op : receipt.row.op = "approval_decision" ∨ receipt.row.op = "approval_decision_backfill"
  target : receipt.row.targetId = some (toString j.args.approvalId)
  via : row.approvedVia = some (j.args.expectedVia d)
  details : ∃ details by', receiptDetails receipt = .ok details ∧ row.approvedBy = some by' ∧
    by' ∈ j.args.authorizedApprovers ∧ Dict.get details "decision" = .str "approve" ∧
    Dict.get details "approved_by" = .str by' ∧ Dict.get details "approved_via" = .str (j.args.expectedVia d) ∧
    Dict.get details "candidate_sha256" = .str (candidateFingerprint row.candidateJson)

theorem Receipted.grows {t t' : AuditTable} {j : Job} {row : ApprovalRow} {receipt : Receipt} (h : Receipted d t j row receipt)
    (hg : Grows d t t') : Receipted d t' j row receipt :=
  { h with committed := hg.mem h.committed, verified := ⟨h.verified.1, hg.verifies h.verified.2⟩ }

theorem provenanceOk_iff {a : FinalizeArgs} {r : ApprovalRow} :
    provenanceOk d a r = true ↔ r.approvedVia = some (a.expectedVia d) ∧ ∃ by', r.approvedBy = some by' ∧ by' ∈ a.authorizedApprovers := by
  simp [provenanceOk, Option.any_eq_true]

/-- **What the gate lets pass is receipted.** -/
theorem receipted_of_claim {w : World} {rep : Reply} {j : Job} {row : ApprovalRow} {receipt : Receipt}
    (hv : rowVerdict d (w.auditView rep) j.args rep.cutoff row = .claim receipt) : Receipted d w.audit j row receipt := by
  obtain ⟨-, -, hprov, -, hgate⟩ := rowVerdict_claim hv
  obtain ⟨hvia, by', hby, hmem⟩ := provenanceOk_iff.1 hprov
  obtain ⟨t, ht, h⟩ := receiptGateRefusal_verified hgate
  have hview : t = w.audit := by
    unfold World.auditView at ht
    split at ht
    · cases ht
    · cases ht; rfl
  subst hview
  obtain ⟨seq, hseq, hver⟩ := h.verified
  obtain ⟨-, -, -, hrow, hrowseq, -⟩ := auditVerifyThrough_ok.1 hver
  obtain ⟨details, hd, h1, h2, h3, h4⟩ := h.details
  refine ⟨hrow, ⟨by rw [hrowseq]; exact hseq, by rw [hrowseq]; exact hver⟩, h.hash, h.op, h.target, hvia, ?_⟩
  exact ⟨details, by', hd, hby, hmem, h1, by rw [h2, hby]; rfl, by rw [h3, hvia]; rfl, h4⟩

/-- The step of the run at which the gate let the call pass: it read the row `c.row`, and the log had its receipt. -/
def ClaimedUnder (d : Deployment) (api : StoreApi) (w : World) (as : List Action) (t : Nat) (j : Job) (c : Claim)
    (receipt : Receipt) : Prop :=
  ∃ as₁ rep as₂, as = as₁ ++ .advance t rep :: as₂ ∧
    (runs d api (.initial w) as₁).calls t = .gate j ∧
    (runs d api (.initial w) as₁).world.outbox.approvals.get j.args.approvalId = some c.row ∧
    Receipted d (runs d api (.initial w) as₁).world.audit j c.row receipt

/-- Every call that has claimed did so under a receipt that still holds. -/
def AllReceipted (d : Deployment) (api : StoreApi) (w : World) (as : List Action) (s : System) : Prop :=
  ∀ t j c, (s.calls t).held = some (j, c) →
    ∃ receipt, ClaimedUnder d api w as t j c receipt ∧ Receipted d s.world.audit j c.row receipt

theorem ClaimedUnder.snoc {w : World} {as : List Action} {t : Nat} {j : Job} {c : Claim} {receipt : Receipt}
    (h : ClaimedUnder d api w as t j c receipt) (a : Action) : ClaimedUnder d api w (as ++ [a]) t j c receipt := by
  obtain ⟨as₁, rep, as₂, rfl, h⟩ := h
  exact ⟨as₁, rep, as₂ ++ [a], by simp, h⟩

/-- **One step.** A claim that is kept keeps its receipt; a claim that is made has the gate's. -/
theorem allReceipted_step {w : World} (as : List Action) (a : Action)
    (h : AllReceipted d api w as (runs d api (.initial w) as)) :
    AllReceipted d api w (as ++ [a]) (step d api (runs d api (.initial w) as) a) := by
  have hg := audit_step d api (runs d api (.initial w) as) a
  intro t j c hheld
  rcases held_step d api hheld with hold | ⟨rep, row, receipt, rfl, hc, -, hr, hv, rfl⟩
  · obtain ⟨receipt, hu, hrec⟩ := h t j c hold
    exact ⟨receipt, hu.snoc a, hrec.grows hg⟩
  · have hrec := receipted_of_claim hv
    exact ⟨receipt, ⟨as, rep, [], rfl, hc, hr, hrec⟩, hrec.grows hg⟩

theorem allReceipted_runs (w : World) (as : List Action) :
    AllReceipted d api w as (runs d api (.initial w) as) := by
  refine run_history (I := fun as s => AllReceipted d api w as s) ?_ (fun as a h => allReceipted_step as a h) as
  intro t j c h
  cases h

/-- **A receipt precedes every durable write.** Whenever, in a run of any calls and operations, a finalize
call is about to post a payload: at an earlier step of the run its gate read the row it then claimed, and the log
had, committed and verified from genesis, the row at the seq the claimed row carries, which approves that approval
by an authorized approver through the configured transport, both the claimed row's own, under the
fingerprint of exactly the bytes the payload is built from; the log still has it. And only such a step
makes a row for an approval appear in the store. -/
theorem durableWrite_receipted (d : Deployment) (api : StoreApi) (w : World) (as : List Action) :
    let s := runs d api (.initial w) as
    (∀ t j c built, s.calls t = .posting j c built →
      ∃ receipt now, ClaimedUnder d api w as t j c receipt ∧ Receipted d s.world.audit j c.row receipt ∧
        reconstructDurablePayload d c.row.candidateJson (approvalMarker j.args.approvalId) j.args.approvalId
          (j.args.expectedVia d) c.proposer now = .ok built) ∧
    (∀ a r, r ∈ (step d api s a).world.store.rows → r ∉ s.world.store.rows → r.writtenFor ≠ none →
      PostsRow d api s a r) := by
  have hpay : PayloadsBuilt d (runs d api (.initial w) as) :=
    run_inv (I := PayloadsBuilt d) (fun _ a h => payloadsBuilt_step h a) (payloadsBuilt_initial d w) as
  refine ⟨fun t j c built hc => ?_, fun a r hr hn hw => ?_⟩
  · have hall : AllReceipted d api w as (runs d api (.initial w) as) := allReceipted_runs w as
    obtain ⟨receipt, hu, hrec⟩ := hall t j c (by rw [hc]; rfl)
    obtain ⟨j', c', now, hheld, hb⟩ := hpay t built (by rw [hc]; rfl)
    rw [hc] at hheld
    cases hheld
    exact ⟨receipt, now, hu, hrec, hb⟩
  · rcases store_new d api hr with h | ⟨row, -, rfl, -⟩ | h
    · exact absurd h hn
    · exact absurd rfl hw
    · exact h

end Panella

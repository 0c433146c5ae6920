import Panella.Convergence
import Panella.RtbfSticky

/-!
# The finalizer lets go of its claim

Between the claim and the end of a finalize call (`panella/approval_finalizer.py:314-416`) most of what fails ends in
`_fail`, which writes the error to the row under the worker's own id. Loading the profile and building the principal come
before the `try` (:316-317): where they raise, the row stays `finalizing` until the lease is stale.
**`claim_released_iff`**: a call that has claimed a row leaves it released exactly when it does not raise there with the
claim still its own.

The argument is about the call's stages. Up to `_record` nothing is known of the row, and each way out of them looks at
it; after `_record` it is not the worker's any more (`record_notOwned`), and only a claim under the same id could make it
so again (`notOwned_step`).
-/

namespace Panella

open Machine PyJson

variable {d : Deployment} {api : StoreApi}

/-! ## Rows that were claimed -/

/-- What becomes of a row that was claimed: it is worked on, failed with an error, finalized, or held by a hard delete. -/
def Marked (r : ApprovalRow) : Prop :=
  r.finalizerState = some .finalizing ∨ (r.finalizerState = some .failed ∧ r.finalizerLastError ≠ none) ∨
    r.finalizerState = some .finalized ∨ RtbfHeld r

/-- The row of the approval was claimed once. -/
def Known (s : System) (i : Nat) : Prop := Gone s i ∨ ∃ r, s.world.outbox.approvals.get i = some r ∧ Marked r

theorem marked_congr {r r' : ApprovalRow} (hs : r'.finalizerState = r.finalizerState)
    (hw : r'.finalizerWorkerId = r.finalizerWorkerId) (he : r'.finalizerLastError = r.finalizerLastError) (h : Marked r) :
    Marked r' := by
  unfold Marked RtbfHeld
  rw [hs, hw, he]
  exact h

@[simp] theorem reapproved_finalizerState (p : ApproveStamp) (r : ApprovalRow) :
    (stampReceipt p (stampProvenance p r)).finalizerState = r.finalizerState := by
  unfold stampReceipt stampProvenance
  split <;> split <;> rfl

@[simp] theorem reapproved_finalizerWorkerId (p : ApproveStamp) (r : ApprovalRow) :
    (stampReceipt p (stampProvenance p r)).finalizerWorkerId = r.finalizerWorkerId := by
  unfold stampReceipt stampProvenance
  split <;> split <;> rfl

@[simp] theorem reapproved_finalizerLastError (p : ApproveStamp) (r : ApprovalRow) :
    (stampReceipt p (stampProvenance p r)).finalizerLastError = r.finalizerLastError := by
  unfold stampReceipt stampProvenance
  split <;> split <;> rfl

theorem rowChange_marked {s : System} {a : Action} {i : Nat} {r r' : ApprovalRow} (h : RowChange d s a i r r')
    (hr : Marked r) : Marked r' := by
  cases h with
  | approved => exact marked_congr rfl rfl rfl hr
  | edited h =>
    cases h with
    | reapproved => exact marked_congr (by simp) (by simp) (by simp) hr
    | kept | sent | decided | resurfaced | backfilled => exact marked_congr rfl rfl rfl hr
    | refused | failed => exact .inr (.inl ⟨rfl, by simp⟩)
    | claimed => exact .inl rfl
    | recorded => exact .inr (.inr (.inl rfl))
    | rtbfClaimed => exact .inr (.inr (.inr ⟨rfl, rfl⟩))

theorem known_step {s : System} {i : Nat} (h : Known s i) (a : Action) : Known (step d api s a) i := by
  rcases h with hg | ⟨r, hr, hm⟩
  · exact .inl (gone_step hg a)
  · rcases row_step d api a hr with ⟨r', hr', hc⟩ | ⟨hnone, -⟩
    · exact .inr ⟨r', hr', rowChange_marked hc hm⟩
    · exact .inl ⟨hnone, lt_of_lt_of_le (Table.lt_of_get hr) (nextId_step s a)⟩

/-- The rows of the claims in flight were claimed. -/
def ClaimsKnown (s : System) : Prop := ∀ t j c, (s.calls t).held = some (j, c) → Known s j.args.approvalId

theorem finish_ne_claimed (j j' : Job) (c : Claim) (result : Except PyErr (Option String)) : finish j result ≠ .claimed j' c := by
  intro h
  have hend := finish_ended j result
  rw [h] at hend
  exact hend

/-- The gate has claimed the row. -/
theorem claimed_known {s : System} {t : Nat} {rep : Reply} {j : Job} {c : Claim} (hgate : s.calls t = .gate j)
    (h : (step d api s (.advance t rep)).calls t = .claimed j c) : Known (step d api s (.advance t rep)) j.args.approvalId := by
  rw [advance_calls, hgate] at h
  have hworld : (step d api s (.advance t rep)).world = (advanceGate d s.world j rep).1 := by
    show (advance d api s.world rep (s.calls t)).1 = _
    rw [hgate]
    rfl
  unfold Known
  rw [hworld]
  change (advanceGate d s.world j rep).2 = _ at h
  unfold advanceGate at h ⊢
  rcases gateAndClaim_cases d (s.world.auditView rep) j.args (j.args.worker rep.defaultWorkerId) rep.now rep.cutoff
    s.world.outbox with ⟨-, hno⟩ | ⟨row, message, -, -, -, -, he⟩ | ⟨row, receipt, hr, -, hcl, he⟩
  · exfalso
    dsimp only at h
    split at h
    · exact finish_ne_claimed _ _ _ _ h
    · exact finish_ne_claimed _ _ _ _ h
    · next c' hc' => exact hno c' hc'
  · rw [he] at h
    exact absurd h (finish_ne_claimed _ _ _ _)
  · rw [he]
    refine .inr ⟨_, get_updateApproval (o := s.world.outbox) _ _ hr, ?_⟩
    rw [if_pos ⟨rfl, hcl⟩]
    exact .inl rfl

theorem claimsKnown_step {s : System} (h : ClaimsKnown s) (a : Action) : ClaimsKnown (step d api s a) := by
  intro t j c hheld
  rcases held_step d api hheld with hold | ⟨rep, row, receipt, rfl, hgate, hclaimed, -⟩
  · exact known_step (h t j c hold) a
  · exact claimed_known hgate hclaimed

theorem claimsKnown_runs (w : World) (as : List Action) : ClaimsKnown (runs d api (.initial w) as) := by
  refine run_inv (I := ClaimsKnown) (fun s a h => claimsKnown_step h a) ?_ as
  intro t j c h
  cases h

/-! ## Rows that are not the worker's -/

/-- Another finalize call claims the row under the same id. -/
def Reclaims (s : System) (a : Action) (i : Nat) (workerId : String) : Prop :=
  ∃ t rep j, a = .advance t rep ∧ s.calls t = .gate j ∧ j.args.approvalId = i ∧ j.args.worker rep.defaultWorkerId = workerId

theorem owned_iff {o : Outbox} {i : Nat} {workerId : String} :
    stillOwnsClaim o i workerId = true ↔ ∃ r, o.approvals.get i = some r ∧ r.finalizerState = some .finalizing ∧
      r.finalizerWorkerId = some workerId := by
  simp [stillOwnsClaim, Table.hits_iff]

/-- **A row that is not the worker's does not become it**, unless it is claimed under its id. -/
theorem notOwned_step {s : System} {a : Action} {i : Nat} {workerId : String} (hn : ¬ Reclaims s a i workerId)
    (h : stillOwnsClaim s.world.outbox i workerId = false) :
    stillOwnsClaim (step d api s a).world.outbox i workerId = false := by
  rw [← Bool.not_eq_true, owned_iff] at h ⊢
  rintro ⟨r', hr', hs, hw⟩
  cases hr : s.world.outbox.approvals.get i with
  | none =>
    obtain ⟨-, candidateJson, createdAt, profile, -, rfl⟩ := row_new d api hr hr'
    cases hs
  | some r =>
    rcases row_step d api a hr with ⟨q, hq, hc⟩ | ⟨hnone, -⟩
    · rw [hr'] at hq
      cases hq
      cases hc with
      | approved => exact h ⟨r, hr, hs, hw⟩
      | edited hc =>
        cases hc with
        | reapproved => exact h ⟨r, hr, by simpa using hs, by simpa using hw⟩
        | kept | sent | decided | resurfaced | backfilled => exact h ⟨_, hr, hs, hw⟩
        | claimed ha hgate hi => exact hn ⟨_, _, _, ha, hgate, hi, Option.some.inj hw⟩
        | refused | failed | recorded | rtbfClaimed => cases hs
    · rw [hnone] at hr'
      cases hr'

/-- **`_record` leaves nothing to the worker**: the row is finalized, forgotten or gone. -/
theorem record_notOwned (o : Outbox) (i : Nat) (workerId contentHash : String) (eventId : Option Nat) (now : String) :
    stillOwnsClaim (recordFinalized o i workerId contentHash eventId now).1 i workerId = false := by
  rw [← Bool.not_eq_true, owned_iff]
  rintro ⟨r, hr, hs, hw⟩
  rcases recordFinalized_cases o i workerId contentHash eventId now
    with ⟨cur, hcur, ho, he⟩ | ⟨hnone, he⟩ | ⟨cur, hcur, -, hrtbf, he⟩ | ⟨cur, hcur, hset, he⟩ | ⟨cur, hcur, -, -, -, he⟩
  · rw [he, completeEvent_approvals, get_updateApproval _ _ hcur, if_pos ⟨rfl, ho⟩] at hr
    cases hr
    cases hs
  · rw [he, hnone] at hr
    cases hr
  · rw [he, hcur] at hr
    cases hr
    rw [hrtbf] at hs
    cases hs
  · rw [he, hcur] at hr
    cases hr
    simp [settled, hs] at hset
  · rw [he, completeEvent_approvals, get_updateApproval _ _ hcur, if_pos ⟨rfl, rfl⟩] at hr
    cases hr
    cases hs

/-- **`_fail` leaves nothing to the worker.** -/
theorem fail_notOwned (o : Outbox) (i : Nat) (workerId message : String) :
    stillOwnsClaim (failClaim o i workerId message) i workerId = false := by
  rw [← Bool.not_eq_true, owned_iff]
  rintro ⟨r, hr, hs, hw⟩
  cases hcur : o.approvals.get i with
  | none =>
    rw [failClaim, get_updateApproval_none _ _ hcur] at hr
    cases hr
  | some cur =>
    rw [failClaim, get_updateApproval _ _ hcur] at hr
    by_cases ho : ownedUnfinalized workerId cur = true
    · rw [if_pos ⟨rfl, ho⟩] at hr
      cases hr
      cases hs
    · rw [if_neg fun h => ho h.2] at hr
      cases hr
      simp [ownedUnfinalized, notFinalized, hs, hw] at ho

/-! ## The stages of the call -/

/-- Up to `_record`. -/
def Call.working : Call → Option (Job × Claim)
  | .claimed j c | .posting j c _ | .lookingUp j c _ _ | .failing j c _ | .recording j c _ _ => some (j, c)
  | _ => none

/-- After `_record`. -/
def Call.closing : Call → Option Job
  | .announcing j _ _ _ | .attesting j _ _ _ | .cleaning j _ | .noting j _ _ => some j
  | _ => none

/-- The call is on its way, and after `_record` the row is not its own. -/
def Underway (s : System) (t : Nat) (j : Job) (c : Claim) : Prop :=
  (s.calls t).working = some (j, c) ∨
    ((s.calls t).closing = some j ∧ stillOwnsClaim s.world.outbox j.args.approvalId c.workerId = false)

theorem Underway.not_ended {s : System} {t : Nat} {j : Job} {c : Claim} (h : Underway s t j c) : ¬ (s.calls t).ended := by
  intro hend
  rcases h with h | ⟨h, -⟩
  · cases hc : s.calls t <;> rw [hc] at h hend <;> first | exact hend | cases h
  · cases hc : s.calls t <;> rw [hc] at h hend <;> first | exact hend | cases h

theorem Underway.not_free {s : System} {t : Nat} {j : Job} {c : Claim} (h : Underway s t j c) : (s.calls t).free = false := by
  rcases h with h | ⟨h, -⟩
  · cases hc : s.calls t <;> rw [hc] at h <;> first | rfl | cases h
  · cases hc : s.calls t <;> rw [hc] at h <;> first | rfl | cases h

/-- How far one step takes it. -/
theorem underway_step (d : Deployment) (api : StoreApi) {s : System} {t : Nat} {j : Job} {c : Claim} {a : Action}
    (h : Underway s t j c)
    (hn : ¬ Reclaims s a j.args.approvalId c.workerId) :
    Underway (step d api s a) t j c ∨ ((step d api s a).calls t).ended := by
  have hnot : stillOwnsClaim s.world.outbox j.args.approvalId c.workerId = false →
      stillOwnsClaim (step d api s a).world.outbox j.args.approvalId c.workerId = false := notOwned_step hn
  rcases call_step d api s a t with ⟨hsame, -⟩ | ⟨st, -, hfree, -⟩ | ⟨rep, rfl, hm⟩
  · left
    unfold Underway
    rw [hsame]
    exact h.imp_right fun ⟨hc, ho⟩ => ⟨hc, hnot ho⟩
  · rw [h.not_free] at hfree
    cases hfree
  · -- a step of the call itself
    have hrecorded : ∀ {built hash}, s.calls t = .recording j c built hash →
        stillOwnsClaim (step d api s (.advance t rep)).world.outbox j.args.approvalId c.workerId = false := by
      intro built hash hc
      show stillOwnsClaim (advance d api s.world rep (s.calls t)).1.outbox _ _ = false
      rw [hc]
      exact record_notOwned _ _ _ _ _ _
    generalize hc : s.calls t = c₀ at hm
    generalize hc' : (step d api s (.advance t rep)).calls t = c₁ at hm
    unfold Underway at h ⊢
    rw [hc] at h
    rw [hc']
    rcases h with h | ⟨h, ho⟩
    · cases hm with
      | ends he => exact .inr he
      | orphans => cases h; exact .inl (.inr ⟨rfl, hrecorded hc⟩)
      | announces => cases h; exact .inl (.inr ⟨rfl, hrecorded hc⟩)
      | builds | buildFails | posts | postsBlind | postFails | finds | looksAgain | lookupFails => exact .inl (.inl h)
      | idle | claims | attests | notes | decides | appends | rtbfClaims | deletes | resolves | cascades | sweepsNothing
      | sweepsUp | sweepDeletes | purges | remembers => cases h
    · cases hm with
      | ends he => exact .inr he
      | attests | notes => exact .inl (.inr ⟨h, hnot ho⟩)
      | idle | claims | builds | buildFails | posts | postsBlind | postFails | finds | looksAgain | lookupFails | orphans
      | announces | decides | appends | rtbfClaims | deletes | resolves | cascades | sweepsNothing | sweepsUp | sweepDeletes
      | purges | remembers => cases h

/-- A run of the call up to its end. -/
theorem underway_runs {s : System} {t : Nat} {j : Job} {c : Claim} {as : List Action} (h : Underway s t j c)
    (hrunning : ∀ cs, cs <+: as → ¬ ((runs d api s cs).calls t).ended)
    (hn : Along (step d api) (fun s a => ¬ Reclaims s a j.args.approvalId c.workerId) s as) :
    Underway (runs d api s as) t j c := by
  induction as generalizing s with
  | nil => exact h
  | cons a as ih =>
    rcases underway_step d api h hn.1 with hstep | hend
    · refine ih hstep (fun cs hcs => ?_) hn.2
      exact hrunning (a :: cs) (List.cons_prefix_cons.2 ⟨rfl, hcs⟩)
    · exact absurd hend (hrunning [a] (List.cons_prefix_cons.2 ⟨rfl, List.nil_prefix⟩))

/-! ## The end of the call -/

/-- How a call may leave the row it had claimed: purged, failed with an error, finalized, held by a hard delete, or claimed
by another worker. -/
def Released (s : System) (i : Nat) (workerId : String) : Prop :=
  Gone s i ∨ ∃ r, s.world.outbox.approvals.get i = some r ∧
    ((r.finalizerState = some .failed ∧ r.finalizerLastError ≠ none) ∨ r.finalizerState = some .finalized ∨ RtbfHeld r ∨
      (r.finalizerState = some .finalizing ∧ r.finalizerWorkerId ≠ some workerId))

theorem released_iff {s : System} {i : Nat} {workerId : String} (h : Known s i) :
    Released s i workerId ↔ stillOwnsClaim s.world.outbox i workerId = false := by
  rw [← Bool.not_eq_true, owned_iff]
  constructor
  · rintro (⟨hnone, -⟩ | ⟨r, hr, hrow⟩) ⟨q, hq, hs, hw⟩
    · rw [hnone] at hq
      cases hq
    · rw [hr] at hq
      cases hq
      rcases hrow with ⟨hf, -⟩ | hf | ⟨hf, -⟩ | ⟨-, hne⟩
      · rw [hf] at hs; cases hs
      · rw [hf] at hs; cases hs
      · rw [hf] at hs; cases hs
      · exact hne hw
  · intro hno
    rcases h with hg | ⟨r, hr, hf | hf | hf | hf⟩
    · exact .inl hg
    · exact .inr ⟨r, hr, .inr (.inr (.inr ⟨hf, fun hw => hno ⟨r, hr, hf, hw⟩⟩))⟩
    · exact .inr ⟨r, hr, .inl hf⟩
    · exact .inr ⟨r, hr, .inr (.inl hf)⟩
    · exact .inr ⟨r, hr, .inr (.inr (.inl hf))⟩

/-- The call raises before the `try`, with the claim its own. -/
def Strands (d : Deployment) (s : System) (t : Nat) (j : Job) (c : Claim) (rep : Reply) : Prop :=
  s.calls t = .claimed j c ∧ (∃ e, loadFinalizer d rep = .error e) ∧
    stillOwnsClaim s.world.outbox j.args.approvalId c.workerId = true

/-- A call does not end while it writes or looks its row up. -/
theorem write_not_ended {w : World} {rep : Reply} {j : Job} {c : Claim} {built : DurablePayload} :
    ¬ (advance d api w rep (.posting j c built)).2.ended ∧
      ∀ again, ¬ (advance d api w rep (.lookingUp j c built again)).2.ended := by
  constructor
  · intro hend
    have hm := moves d api w rep (.posting j c built)
    generalize (advance d api w rep (.posting j c built)).2 = c' at hend hm
    cases hm with
    | ends he hx hp hl => exact hp _ _ _ rfl
    | posts | postsBlind | postFails => exact hend
  · intro again hend
    have hm := moves d api w rep (.lookingUp j c built again)
    generalize (advance d api w rep (.lookingUp j c built again)).2 = c' at hend hm
    cases hm with
    | ends he hx hp hl => exact hl _ _ _ _ rfl
    | finds | looksAgain | lookupFails => exact hend

theorem not_strands {s : System} {t : Nat} {j : Job} {c : Claim} {rep : Reply} {call : Call} (hc : s.calls t = call)
    (hne : call ≠ .claimed j c) : ¬ Strands d s t j c rep := fun h => hne (hc.symm.trans h.1)

/-- **The last step of a call leaves the row to others, but for the raise before the `try`.** -/
theorem ended_notOwned_iff {s : System} {t : Nat} {j : Job} {c : Claim} {rep : Reply} (h : Underway s t j c)
    (hend : ((step d api s (.advance t rep)).calls t).ended) :
    stillOwnsClaim (step d api s (.advance t rep)).world.outbox j.args.approvalId c.workerId = false ↔
      ¬ Strands d s t j c rep := by
  rcases h with h | ⟨h, ho⟩
  · rw [advance_calls] at hend
    show stillOwnsClaim (advance d api s.world rep (s.calls t)).1.outbox _ _ = false ↔ _
    cases hc : s.calls t with
    | claimed j' c' =>
      rw [hc] at h hend
      cases h
      show stillOwnsClaim s.world.outbox _ _ = false ↔ _
      simp only [advance, advanceClaimed] at hend
      cases hload : loadFinalizer d rep with
      | error e => simp [Strands, hc, hload]
      | ok u =>
        have hno : ¬ Strands d s t j c rep := by
          rintro ⟨-, ⟨e, he⟩, -⟩
          rw [hload] at he
          cases he
        refine iff_of_true ?_ hno
        -- what fails inside the `try` goes on to `_fail`, so the call can only end at the re-check
        simp only [hload] at hend
        cases hbuild : buildDurable d j c rep with
        | error e => simp only [hbuild] at hend; exact hend.elim
        | ok built =>
          simp only [hbuild] at hend
          by_contra howns
          rw [if_pos (by simpa using howns)] at hend
          exact hend
    | posting j' c' built =>
      rw [hc] at hend
      exact absurd hend write_not_ended.1
    | lookingUp j' c' built again =>
      rw [hc] at hend
      exact absurd hend (write_not_ended.2 again)
    | failing j' c' message =>
      rw [hc] at h
      cases h
      exact iff_of_true (fail_notOwned _ _ _ _) (not_strands hc (by simp))
    | recording j' c' built hash =>
      rw [hc] at h
      cases h
      exact iff_of_true (record_notOwned _ _ _ _ _ _) (not_strands hc (by simp))
    | _ =>
      rw [hc] at h
      cases h
  · have hgate : ∀ j', s.calls t ≠ .gate j' := by
      intro j' hg
      rw [hg] at h
      cases h
    have hn : ¬ Reclaims s (.advance t rep) j.args.approvalId c.workerId := by
      rintro ⟨u, rep', j', ha, hg, -⟩
      cases ha
      exact hgate j' hg
    refine iff_of_true (notOwned_step hn ho) ?_
    rintro ⟨hc, -⟩
    rw [hc] at h
    cases h

/-- `_fail` writes its error to the row exactly where it is the worker's and not finalized; a row that is finalized or
being forgotten stays. -/
def FailsSafely (s s' : System) (t : Nat) (j : Job) (c : Claim) : Prop :=
  ∀ message r, s.calls t = .failing j c message → s.world.outbox.approvals.get j.args.approvalId = some r →
    s'.world.outbox.approvals.get j.args.approvalId =
        some (if ownedUnfinalized c.workerId r then
          { r with finalizerState := some .failed, finalizerLastError := some (take500 message) } else r) ∧
      (r.finalizerState = some .finalized ∨ r.finalizerState = some .rtbfDeleting →
        s'.world.outbox.approvals.get j.args.approvalId = some r)

theorem fails_safely {s : System} {t : Nat} {j : Job} {c : Claim} {rep : Reply} (hknown : Known s j.args.approvalId)
    (hworker : c.workerId ≠ "rtbf") : FailsSafely s (step d api s (.advance t rep)) t j c := by
  intro message r hc hr
  have hrow : (step d api s (.advance t rep)).world.outbox.approvals.get j.args.approvalId =
      some (if ownedUnfinalized c.workerId r then
        { r with finalizerState := some .failed, finalizerLastError := some (take500 message) } else r) := by
    show (advance d api s.world rep (s.calls t)).1.outbox.approvals.get _ = _
    rw [hc]
    show (failClaim s.world.outbox j.args.approvalId c.workerId message).approvals.get _ = _
    rw [failClaim, get_updateApproval _ _ hr]
    by_cases ho : ownedUnfinalized c.workerId r = true
    · rw [if_pos ⟨rfl, ho⟩, if_pos ho]
    · rw [if_neg fun h => ho h.2, if_neg ho]
  refine ⟨hrow, fun hprotected => ?_⟩
  rw [hrow, if_neg]
  rw [ownedUnfinalized, Bool.and_eq_true, decide_eq_true_eq, notFinalized, decide_eq_true_eq]
  rintro ⟨hw, hne⟩
  rcases hprotected with hf | hf
  · exact hne hf
  · -- a row that is being forgotten is the hard delete's
    rcases hknown with ⟨hnone, -⟩ | ⟨q, hq, hm⟩
    · rw [hnone] at hr
      cases hr
    · rw [hr] at hq
      cases hq
      rcases hm with hs | ⟨hs, -⟩ | hs | ⟨-, hrtbf⟩
      · rw [hf] at hs; cases hs
      · rw [hf] at hs; cases hs
      · rw [hf] at hs; cases hs
      · rw [hw] at hrtbf
        exact hworker (Option.some.inj hrtbf)

/-- **When the finalizer lets go of its claim.** A finalize call that holds a claim in a run, with any calls of others around
it, runs to its end, and nobody claims its row under its worker id meanwhile. It leaves the row released, and its failure
handling keeps to its own row, exactly when it does not raise between its claim and the `try` with the claim still its own. -/
theorem claim_released_iff (d : Deployment) (api : StoreApi) (w : World) (before as : List Action) (t : Nat) (j : Job) (c : Claim)
    (rep : Reply) (hclaimed : (runs d api (.initial w) before).calls t = .claimed j c)
    (hrunning : ∀ cs, cs <+: as → ¬ ((runs d api (runs d api (.initial w) before) cs).calls t).ended)
    (hended : ((step d api (runs d api (.initial w) (before ++ as)) (.advance t rep)).calls t).ended)
    (hown : Along (step d api) (fun s a => ¬ Reclaims s a j.args.approvalId c.workerId) (runs d api (.initial w) before) as)
    (hworker : c.workerId ≠ "rtbf") :
    Released (step d api (runs d api (.initial w) (before ++ as)) (.advance t rep)) j.args.approvalId c.workerId ∧
        FailsSafely (runs d api (.initial w) (before ++ as))
          (step d api (runs d api (.initial w) (before ++ as)) (.advance t rep)) t j c ↔
      ¬ Strands d (runs d api (.initial w) (before ++ as)) t j c rep := by
  have hstart : Underway (runs d api (.initial w) before) t j c := .inl (by rw [hclaimed]; rfl)
  have hunder : Underway (runs d api (.initial w) (before ++ as)) t j c := by
    rw [runs, run_append]
    exact underway_runs hstart hrunning hown
  have hknown : Known (runs d api (.initial w) (before ++ as)) j.args.approvalId := by
    have h0 : Known (runs d api (.initial w) before) j.args.approvalId :=
      claimsKnown_runs w before t j c (by rw [hclaimed]; rfl)
    rw [runs, run_append]
    exact run_inv (I := fun s => Known s j.args.approvalId) (fun s a h => known_step h a) h0 as
  have hafter : Known (step d api (runs d api (.initial w) (before ++ as)) (.advance t rep)) j.args.approvalId :=
    known_step hknown _
  rw [released_iff hafter, ended_notOwned_iff hunder hended]
  exact and_iff_left (fails_safely hknown hworker)

/-! ## A claim that is stranded -/

/-- A finalize call of the approved row claims it. -/
def claimRun : List Action := [.start 0 (.finalize teaArgs), .advance 0 calmReply]

abbrev claimSystem : System := runs sampleDeployment sampleStoreApi (.initial (teaSystem .empty).world) claimRun

theorem claimRun_claimed : ∃ c, claimSystem.calls 0 = .claimed ⟨teaArgs, .direct⟩ c ∧ c.workerId = "w" ∧
    stillOwnsClaim claimSystem.world.outbox 1 "w" = true := by
  obtain ⟨receipt, hf⟩ := teaRow_finalizable .empty
  have hstart : step sampleDeployment sampleStoreApi (.initial (teaSystem .empty).world) (.start 0 (.finalize teaArgs)) =
      teaSystem .empty := step_start _ rfl
  have hclaim : gateAndClaim sampleDeployment ((teaSystem .empty).world.auditView calmReply) teaArgs
      (teaArgs.worker calmReply.defaultWorkerId) calmReply.now calmReply.cutoff (teaSystem .empty).world.outbox =
      (claimRow teaQueue 1 "w" "t4" "t0", .claimed ⟨teaRow, receiptProposer receipt, "w"⟩) :=
    hf.claimed teaQueue_row "w" "t4" "t0"
  have hadv : advance sampleDeployment sampleStoreApi (teaSystem .empty).world calmReply (.gate ⟨teaArgs, .direct⟩) =
      ((teaSystem .empty).world.withOutbox (claimRow teaQueue 1 "w" "t4" "t0"),
        .claimed ⟨teaArgs, .direct⟩ ⟨teaRow, receiptProposer receipt, "w"⟩) := by
    simp only [advance, advanceGate, hclaim]
  have hcall : (teaSystem .empty).calls 0 = .gate ⟨teaArgs, .direct⟩ := rfl
  have hrun : claimSystem = ⟨(teaSystem .empty).world.withOutbox (claimRow teaQueue 1 "w" "t4" "t0"),
      Function.update (teaSystem .empty).calls 0 (.claimed ⟨teaArgs, .direct⟩ ⟨teaRow, receiptProposer receipt, "w"⟩)⟩ := by
    simp only [claimSystem, runs, claimRun, run_cons, run_nil]
    rw [hstart]
    exact step_advance hcall hadv
  rw [hrun]
  exact ⟨⟨teaRow, receiptProposer receipt, "w"⟩, rfl, rfl, hf.owned teaQueue_row "w" "t4" "t0"⟩

/-- The profile does not load. -/
def unloadedReply : Reply := { calmReply with profileFault := some (.runtimeError "no such profile: panella-finalizer") }

/-- **The code violates the claim**: the call raises, and its row stays `finalizing` under its own worker id. -/
theorem claim_stranded : ∃ c, claimSystem.calls 0 = .claimed ⟨teaArgs, .direct⟩ c ∧
    (step sampleDeployment sampleStoreApi claimSystem (.advance 0 unloadedReply)).calls 0 =
      .returned (.raised (.runtimeError "no such profile: panella-finalizer")) ∧
    stillOwnsClaim (step sampleDeployment sampleStoreApi claimSystem (.advance 0 unloadedReply)).world.outbox 1 c.workerId =
      true ∧
    ¬ Released (step sampleDeployment sampleStoreApi claimSystem (.advance 0 unloadedReply)) 1 c.workerId := by
  obtain ⟨c, hclaimed, hworker, howned⟩ := claimRun_claimed
  have hadv : advance sampleDeployment sampleStoreApi claimSystem.world unloadedReply (.claimed ⟨teaArgs, .direct⟩ c) =
      (claimSystem.world, .returned (.raised (.runtimeError "no such profile: panella-finalizer"))) := rfl
  have hkept : stillOwnsClaim (step sampleDeployment sampleStoreApi claimSystem (.advance 0 unloadedReply)).world.outbox 1
      c.workerId = true := by
    rw [step_advance hclaimed hadv, hworker]
    exact howned
  refine ⟨c, hclaimed, ?_, hkept, ?_⟩
  · rw [advance_calls, hclaimed, hadv]
  · rw [owned_iff] at hkept
    obtain ⟨r, hr, hs, hw⟩ := hkept
    rintro (⟨hnone, -⟩ | ⟨q, hq, hrow⟩)
    · rw [hr] at hnone
      cases hnone
    · rw [hr] at hq
      cases hq
      rcases hrow with ⟨hf, -⟩ | hf | ⟨hf, -⟩ | ⟨-, hne⟩
      · rw [hf] at hs; cases hs
      · rw [hf] at hs; cases hs
      · rw [hf] at hs; cases hs
      · exact hne hw

/-- The adapter cannot be created. -/
def unbuiltReply : Reply := { calmReply with adapterFault := some (.runtimeError "no api key") }

/-- Where the adapter fails, `_fail` releases the row. -/
theorem claim_released_sample : ∃ c, claimSystem.calls 0 = .claimed ⟨teaArgs, .direct⟩ c ∧
    Released (step sampleDeployment sampleStoreApi
      (runs sampleDeployment sampleStoreApi (.initial (teaSystem .empty).world) (claimRun ++ [.advance 0 unbuiltReply]))
      (.advance 0 calmReply)) 1 c.workerId := by
  obtain ⟨c, hclaimed, hworker, -⟩ := claimRun_claimed
  obtain ⟨e, hbuild⟩ : ∃ e, buildDurable sampleDeployment ⟨teaArgs, .direct⟩ c unbuiltReply = .error e := by
    unfold buildDurable
    split
    · exact ⟨_, rfl⟩
    · exact ⟨_, rfl⟩
  have hadv : advance sampleDeployment sampleStoreApi claimSystem.world unbuiltReply (.claimed ⟨teaArgs, .direct⟩ c) =
      (claimSystem.world, .failing ⟨teaArgs, .direct⟩ c (writeFailed sampleDeployment e)) := by
    have hload : loadFinalizer sampleDeployment unbuiltReply = .ok () := rfl
    simp only [advance, advanceClaimed, hload, hbuild]
  have hone : (runs sampleDeployment sampleStoreApi claimSystem [.advance 0 unbuiltReply]).calls 0 =
      .failing ⟨teaArgs, .direct⟩ c (writeFailed sampleDeployment e) := by
    rw [runs, run_cons, run_nil, advance_calls, hclaimed, hadv]
  have hfailing : (runs sampleDeployment sampleStoreApi (.initial (teaSystem .empty).world)
      (claimRun ++ [.advance 0 unbuiltReply])).calls 0 = .failing ⟨teaArgs, .direct⟩ c (writeFailed sampleDeployment e) := by
    rw [runs, run_append]
    exact hone
  refine ⟨c, hclaimed, ?_⟩
  refine ((claim_released_iff sampleDeployment sampleStoreApi (teaSystem .empty).world claimRun [.advance 0 unbuiltReply] 0
    ⟨teaArgs, .direct⟩ c calmReply hclaimed ?_ ?_ ?_ ?_).2 ?_).1
  · intro cs hcs
    rcases List.prefix_cons_iff.1 hcs with rfl | ⟨cs', rfl, hcs'⟩
    · rw [runs, run_nil, hclaimed]
      exact id
    · rw [List.prefix_nil.1 hcs', hone]
      exact id
  · rw [advance_calls, hfailing]
    exact trivial
  · refine ⟨?_, trivial⟩
    rintro ⟨t, rep, j, ha, hgate, -⟩
    cases ha
    rw [hclaimed] at hgate
    cases hgate
  · rw [hworker]
    decide
  · exact not_strands hfailing (by simp)

end Panella

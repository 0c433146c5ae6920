import Panella.RowStep

/-!
# Where a call can go in one step

**`moves`** is the inversion of `advance`: every transition of a call with what holds of the shared
state when it is taken. A finalize call that ends returns or goes on to the next id of its sweep;
`Exits` says what is known of the point it ended at. `call_step`, `audit_step` and `store_new` carry this to the
whole system, `held_step` and `built_step` say where the locals of a call come from.
-/

namespace Panella

open PyJson

/-- What holds when a call ends, by the point it ends at. -/
def Exits (w : World) (rep : Reply) : Call → Prop
  | .posting .. | .lookingUp .. | .appending .. | .purging .. => True
  | .recording j c _ h =>
    (recordFinalized w.outbox j.args.approvalId c.workerId h c.row.memoryEventId rep.now).2.1 ≠ none
  | .cleaning _ h => ∃ b, (w.store.delete h rep.delete).2 = .ok b
  | _ => True

/-- The call has returned, or a finalize call is next. -/
def Call.ended : Call → Prop
  | .returned _ | .gate _ => True
  | _ => False

/-- **The transitions of a call.** -/
inductive Moves (d : Deployment) (api : StoreApi) (w : World) (rep : Reply) : Call → Call → Prop
  | idle : Moves d api w rep .idle .idle
  | ends {c c' : Call} (he : c'.ended) (hx : Exits w rep c) (hp : ∀ j cl built, c ≠ .posting j cl built)
      (hl : ∀ j cl built again, c ≠ .lookingUp j cl built again) : Moves d api w rep c c'
  | claims {j : Job} {row : ApprovalRow} {receipt : Receipt}
      (hr : w.outbox.approvals.get j.args.approvalId = some row)
      (hv : rowVerdict d (w.auditView rep) j.args rep.cutoff row = .claim receipt) :
      Moves d api w rep (.gate j) (.claimed j ⟨row, receiptProposer receipt, j.args.worker rep.defaultWorkerId⟩)
  | builds {j : Job} {c : Claim} {built : DurablePayload} (hb : buildDurable d j c rep = .ok built)
      (ho : stillOwnsClaim w.outbox j.args.approvalId c.workerId = true) : Moves d api w rep (.claimed j c) (.posting j c built)
  | buildFails {j : Job} {c : Claim} {message : String} : Moves d api w rep (.claimed j c) (.failing j c message)
  | posts {j : Job} {c : Claim} {built : DurablePayload} {body : MemoryBody} {h : String}
      (hf : finalizeWrite d d.finalizerProfile built ("approval:" ++ toString j.args.approvalId) = .ok body)
      (ho : (w.store.post api body (some j.args.approvalId) rep.post).2 = .stored h ∨
        (w.store.post api body (some j.args.approvalId) rep.post).2 = .dedupSkipped (some h)) :
      Moves d api w rep (.posting j c built) (.recording j c built h)
  | postsBlind {j : Job} {c : Claim} {built : DurablePayload} {body : MemoryBody}
      (hf : finalizeWrite d d.finalizerProfile built ("approval:" ++ toString j.args.approvalId) = .ok body)
      (ho : (w.store.post api body (some j.args.approvalId) rep.post).2 = .dedupSkipped none) :
      Moves d api w rep (.posting j c built) (.lookingUp j c built true)
  | postFails {j : Job} {c : Claim} {built : DurablePayload} {message : String} :
      Moves d api w rep (.posting j c built) (.failing j c message)
  | finds {j : Job} {c : Claim} {built : DurablePayload} {again : Bool} {h : String}
      (hl : findActiveHashByMarker d w.store (approvalMarker j.args.approvalId) built.tenantId rep.searchFault = .ok (some h)) :
      Moves d api w rep (.lookingUp j c built again) (.recording j c built h)
  | looksAgain {j : Job} {c : Claim} {built : DurablePayload}
      (hl : findActiveHashByMarker d w.store (approvalMarker j.args.approvalId) built.tenantId rep.searchFault = .ok none) :
      Moves d api w rep (.lookingUp j c built true) (.lookingUp j c built false)
  | lookupFails {j : Job} {c : Claim} {built : DurablePayload} {again : Bool} {message : String} :
      Moves d api w rep (.lookingUp j c built again) (.failing j c message)
  | orphans {j : Job} {c : Claim} {built : DurablePayload} {h : String} :
      Moves d api w rep (.recording j c built h) (.cleaning j h)
  | announces {j : Job} {c : Claim} {built : DurablePayload} {h durableId : String}
      (hr : (recordFinalized w.outbox j.args.approvalId c.workerId h c.row.memoryEventId rep.now).2 = (some durableId, true)) :
      Moves d api w rep (.recording j c built h) (.announcing j c built durableId)
  | attests {j : Job} {c : Claim} {built : DurablePayload} {h : String} :
      Moves d api w rep (.announcing j c built h) (.attesting j c built h)
  | notes {j : Job} {h reason : String} : Moves d api w rep (.cleaning j h) (.noting j h reason)
  | decides {q : ServiceCall} {canonical : String} {row : ApprovalRow} {proposer : Option String}
      (hr : w.outbox.approvals.get q.approvalId = some row) :
      Moves d api w rep (.deciding q) (.appending q canonical row.candidateJson proposer)
  | appends {q : ServiceCall} {canonical candidateJson : String} {proposer : Option String} {t : AuditTable} {seq : Int}
      {thisHash : String}
      (ha : appendWithHash d w.audit (decisionEntry q.audit rep.now "approve" q.approvalId canonical q.via
        (some (candidateFingerprint candidateJson)) proposer) rep.auditFault = .ok (t, seq, thisHash)) :
      Moves d api w rep (.appending q canonical candidateJson proposer)
        (.stamping q canonical ⟨seq, thisHash, candidateFingerprint candidateJson⟩)
  | rtbfClaims {f : Forget} {o : Outbox} {ids : List Nat} (hc : claimSidecarForRtbf d w.outbox f.drawerId rep.cutoff = .ok (o, ids)) :
      Moves d api w rep (.forgetting f) (.deleting f ids)
  | deletes {f : Forget} {claimed : List Nat} {b : Bool} (hd : (w.store.delete f.drawerId rep.delete).2 = .ok b) :
      Moves d api w rep (.deleting f claimed) (.resolving f claimed b)
  | resolves {f : Forget} {claimed : List Nat} {ok : Bool} {divergent : List String}
      (hr : resolveDivergentUpstreamIds d w.outbox f.drawerId = .ok divergent) :
      Moves d api w rep (.resolving f claimed ok) (cascadeNext f ⟨claimed, divergent, [], ok⟩ divergent)
  | cascades {f : Forget} {e : Erasure} {h : String} {todo : List String} {b : Bool}
      (hd : (w.store.delete h rep.delete).2 = .ok b) :
      Moves d api w rep (.cascading f e h todo) (cascadeNext f { e with ok := e.ok || b } todo)
  | sweepsNothing {f : Forget} {e : Erasure} {i : Nat} {todo : List Nat}
      (hl : findActiveHashByMarker d w.store (approvalMarker i) f.principal.tenantId rep.searchFault = .ok none) :
      Moves d api w rep (.sweeping f e i todo) (sweepNext f e todo)
  | sweepsUp {f : Forget} {e : Erasure} {i : Nat} {todo : List Nat} {h : String}
      (hl : findActiveHashByMarker d w.store (approvalMarker i) f.principal.tenantId rep.searchFault = .ok (some h)) :
      Moves d api w rep (.sweeping f e i todo) (.sweepDeleting f e i h todo)
  | sweepDeletes {f : Forget} {e : Erasure} {i : Nat} {h : String} {todo : List Nat} {b : Bool}
      (hd : (w.store.delete h rep.delete).2 = .ok b) :
      Moves d api w rep (.sweepDeleting f e i h todo)
        (sweepNext f { e with markerDeleted := if b then e.markerDeleted ++ [h] else e.markerDeleted } todo)
  | purges {f : Forget} {e : Erasure} : Moves d api w rep (.purging f e) (.remembering f e)
  | remembers {f : Forget} {e : Erasure} : Moves d api w rep (.remembering f e) (.auditing f e)

theorem nextInSweep_ended (a : FinalizeArgs) (rest : List Nat) (n : Nat) : (nextInSweep a rest n).ended := by
  cases rest <;> trivial

theorem finish_ended (j : Job) (result : Except PyErr (Option String)) : (finish j result).ended := by
  obtain ⟨a, caller⟩ := j
  cases caller with
  | direct => cases result <;> trivial
  | service mode =>
    cases result with
    | error e => trivial
    | ok o => cases o <;> trivial
  | sweep rest n =>
    cases result with
    | error e => exact nextInSweep_ended _ _ _
    | ok o => cases o <;> exact nextInSweep_ended _ _ _

section Moves

variable {d : Deployment} {api : StoreApi} {w : World} {rep : Reply}

theorem moves_gate (j : Job) : Moves d api w rep (.gate j) (advanceGate d w j rep).2 := by
  have ended : ∀ {c' : Call}, c'.ended → Moves d api w rep (.gate j) c' := fun he =>
    .ends he trivial (by intros; simp) (by intros; simp)
  unfold advanceGate
  rcases gateAndClaim_cases d (w.auditView rep) j.args (j.args.worker rep.defaultWorkerId) rep.now rep.cutoff w.outbox
    with ⟨-, h⟩ | ⟨row, message, -, -, -, -, h⟩ | ⟨row, receipt, hr, hv, -, h⟩
  · dsimp only
    split
    · exact ended (finish_ended _ _)
    · exact ended (finish_ended _ _)
    · rename_i c hc
      exact absurd hc (h c)
  · rw [h]
    exact ended (finish_ended _ _)
  · rw [h]
    exact .claims hr hv

theorem moves_claimed (j : Job) (c : Claim) : Moves d api w rep (.claimed j c) (advanceClaimed d w j c rep) := by
  have ended : ∀ {c' : Call}, c'.ended → Moves d api w rep (.claimed j c) c' := fun he =>
    .ends he trivial (by intros; simp) (by intros; simp)
  unfold advanceClaimed
  split
  · exact ended (finish_ended _ _)
  · split
    · exact .buildFails
    · rename_i built hb
      by_cases ho : stillOwnsClaim w.outbox j.args.approvalId c.workerId = true
      · rw [if_pos ho]
        exact .builds hb ho
      · rw [if_neg ho]
        exact ended (finish_ended _ _)

theorem moves_posting (j : Job) (c : Claim) (built : DurablePayload) :
    Moves d api w rep (.posting j c built) (advancePosting d api w j c built rep).2 := by
  unfold advancePosting
  split
  · exact .postFails
  · rename_i body hf
    dsimp only
    split
    · rename_i h ho
      exact .posts hf (.inl ho)
    · rename_i h ho
      exact .posts hf (.inr ho)
    · rename_i ho
      exact .postsBlind hf ho
    · exact .postFails

theorem moves_lookingUp (j : Job) (c : Claim) (built : DurablePayload) (again : Bool) :
    Moves d api w rep (.lookingUp j c built again) (advanceLookingUp d w j c built again rep) := by
  unfold advanceLookingUp
  split
  · exact .lookupFails
  · rename_i h hl
    exact .finds hl
  · rename_i hl
    cases again with
    | true => exact .looksAgain hl
    | false => exact .lookupFails

theorem moves_recording (j : Job) (c : Claim) (built : DurablePayload) (h : String) :
    Moves d api w rep (.recording j c built h) (advanceRecording w j c built h rep).2 := by
  have ended : (recordFinalized w.outbox j.args.approvalId c.workerId h c.row.memoryEventId rep.now).2.1 ≠ none →
      ∀ {c' : Call}, c'.ended → Moves d api w rep (.recording j c built h) c' := fun hx _ he =>
    .ends he hx (by intros; simp) (by intros; simp)
  unfold advanceRecording
  rcases recordFinalized_cases w.outbox j.args.approvalId c.workerId h c.row.memoryEventId rep.now
    with ⟨cur, -, -, he⟩ | ⟨-, he⟩ | ⟨cur, -, -, -, he⟩ | ⟨cur, -, hset, he⟩ | ⟨cur, -, -, -, -, he⟩
  · rw [he]
    dsimp only
    split
    · exact ended (by rw [he]; simp) (finish_ended _ _)
    · exact .announces (by rw [he])
  · rw [he]; exact .orphans
  · rw [he]; exact .orphans
  · have hd : ∃ x, cur.durableMemoryId = some x := by
      simp only [settled, Bool.and_eq_true, Option.any_eq_true] at hset
      obtain ⟨x, hx, -⟩ := hset.2
      exact ⟨x, hx⟩
    obtain ⟨x, hx⟩ := hd
    have hne : (recordFinalized w.outbox j.args.approvalId c.workerId h c.row.memoryEventId rep.now).2.1 ≠ none := by
      rw [he, hx]; simp
    rw [he, hx]
    exact ended hne (finish_ended _ _)
  · rw [he]
    dsimp only
    split
    · exact ended (by rw [he]; simp) (finish_ended _ _)
    · exact .announces (by rw [he])

theorem moves_cleaning (j : Job) (h : String) : Moves d api w rep (.cleaning j h) (advanceCleaning d w j h rep).2 := by
  unfold advanceCleaning
  dsimp only
  cases hd : (w.store.delete h rep.delete).2 with
  | ok b => exact .ends (finish_ended _ _) ⟨b, hd⟩ (by intros; simp) (by intros; simp)
  | error e => exact .notes

/-- **Every step of a call is one of its transitions.** -/
theorem moves (d : Deployment) (api : StoreApi) (w : World) (rep : Reply) (c : Call) :
    Moves d api w rep c (advance d api w rep c).2 := by
  have raised : ∀ {c : Call} (e : PyErr), (∀ j cl built, c ≠ .posting j cl built) →
      (∀ j cl built again, c ≠ .lookingUp j cl built again) → Exits w rep c → Moves d api w rep c (.returned (.raised e)) :=
    fun e hp hl hx => .ends trivial hx hp hl
  cases c with
  | idle => exact .idle
  | gate j => exact moves_gate j
  | claimed j c => exact moves_claimed j c
  | posting j c built => exact moves_posting j c built
  | lookingUp j c built again => exact moves_lookingUp j c built again
  | recording j c built h => exact moves_recording j c built h
  | cleaning j h => exact moves_cleaning j h
  | failing j c message => exact .ends (finish_ended _ _) trivial (by intros; simp) (by intros; simp)
  | noting j h reason => exact .ends (finish_ended _ _) trivial (by intros; simp) (by intros; simp)
  | announcing j c built h => exact .attests
  | attesting j c built h => exact .ends (finish_ended _ _) trivial (by intros; simp) (by intros; simp)
  | redriving a => exact .ends (nextInSweep_ended _ _ _) trivial (by intros; simp) (by intros; simp)
  | returned x => exact .ends trivial trivial (by intros; simp) (by intros; simp)
  | deciding q =>
    show Moves d api w rep _ (advanceDeciding d w q rep).2
    unfold advanceDeciding
    split
    · exact raised _ (by intros; simp) (by intros; simp) trivial
    · split
      · exact raised _ (by intros; simp) (by intros; simp) trivial
      · rename_i row hr
        exact .decides hr
  | appending q canonical candidateJson proposer =>
    show Moves d api w rep _ (advanceAppending d w q canonical candidateJson proposer rep).2
    unfold advanceAppending
    dsimp only
    split
    · exact raised _ (by intros; simp) (by intros; simp) trivial
    · rename_i t seq thisHash ha
      exact .appends ha
  | stamping q canonical receipt =>
    refine .ends ?_ trivial (by intros; simp) (by intros; simp)
    show (advanceStamping d w q canonical receipt rep).2.ended
    unfold advanceStamping
    split <;> trivial
  | forgetting f =>
    show Moves d api w rep _ (advanceForgetting d w f rep).2
    unfold advanceForgetting
    split
    · exact raised _ (by intros; simp) (by intros; simp) trivial
    · rename_i o ids hc
      exact .rtbfClaims hc
  | deleting f claimed =>
    show Moves d api w rep _ (advanceDelete w f.drawerId rep (.resolving f claimed)).2
    unfold advanceDelete
    dsimp only
    split
    · exact raised _ (by intros; simp) (by intros; simp) trivial
    · rename_i b hd
      exact .deletes hd
  | resolving f claimed ok =>
    show Moves d api w rep _ (advanceResolving d w f claimed ok)
    unfold advanceResolving
    split
    · exact raised _ (by intros; simp) (by intros; simp) trivial
    · rename_i divergent hr
      exact .resolves hr
  | cascading f e h todo =>
    show Moves d api w rep _ (advanceDelete w h rep _).2
    unfold advanceDelete
    dsimp only
    split
    · exact raised _ (by intros; simp) (by intros; simp) trivial
    · rename_i b hd
      exact .cascades hd
  | sweeping f e i todo =>
    show Moves d api w rep _ (advanceSweeping d w f e i todo rep)
    unfold advanceSweeping
    split
    · exact raised _ (by intros; simp) (by intros; simp) trivial
    · rename_i hl
      exact .sweepsNothing hl
    · rename_i h hl
      exact .sweepsUp hl
  | sweepDeleting f e i h todo =>
    show Moves d api w rep _ (advanceDelete w h rep _).2
    unfold advanceDelete
    dsimp only
    split
    · exact raised _ (by intros; simp) (by intros; simp) trivial
    · rename_i b hd
      exact .sweepDeletes hd
  | purging f e =>
    show Moves d api w rep _ (advancePurging d w f e).2
    unfold advancePurging
    split
    · exact raised _ (by intros; simp) (by intros; simp) trivial
    · exact .purges
  | remembering f e => exact .remembers
  | auditing f e =>
    refine .ends ?_ trivial (by intros; simp) (by intros; simp)
    show (advanceAuditing d w f e rep).2.ended
    unfold advanceAuditing
    split
    · split <;> trivial
    · trivial

end Moves

/-! ## The calls of the system -/

/-- **Where a call comes from**: it stood still, it was started, or it was advanced. -/
theorem call_step (d : Deployment) (api : StoreApi) (s : System) (a : Action) (t : Nat) :
    ((step d api s a).calls t = s.calls t ∧ ∀ rep, a ≠ .advance t rep) ∨
    (∃ st, a = .start t st ∧ (s.calls t).free = true ∧ (step d api s a).calls t = st.call) ∨
    (∃ rep, a = .advance t rep ∧ Moves d api s.world rep (s.calls t) ((step d api s a).calls t)) := by
  cases a with
  | op o => exact .inl ⟨rfl, by simp⟩
  | start u st =>
    by_cases hf : (s.calls u).free = true
    · have hcalls : (step d api s (.start u st)).calls = Function.update s.calls u st.call := by
        show (if (s.calls u).free = true then _ else _ : System).calls = _
        rw [if_pos hf]
      by_cases hu : t = u
      · subst hu
        exact .inr (.inl ⟨st, rfl, hf, by rw [hcalls, Function.update_self]⟩)
      · exact .inl ⟨by rw [hcalls, Function.update_of_ne hu], by simp⟩
    · refine .inl ⟨?_, by simp⟩
      show (if (s.calls u).free = true then _ else _ : System).calls t = _
      rw [if_neg hf]
  | advance u rep =>
    have hcalls : (step d api s (.advance u rep)).calls =
        Function.update s.calls u (advance d api s.world rep (s.calls u)).2 := rfl
    by_cases hu : t = u
    · subst hu
      exact .inr (.inr ⟨rep, rfl, by rw [hcalls, Function.update_self]; exact moves d api s.world rep (s.calls t)⟩)
    · refine .inl ⟨by rw [hcalls, Function.update_of_ne hu], ?_⟩
      rintro r h
      cases h
      exact hu rfl

theorem advance_calls (d : Deployment) (api : StoreApi) (s : System) (t : Nat) (rep : Reply) :
    (step d api s (.advance t rep)).calls t = (advance d api s.world rep (s.calls t)).2 := Function.update_self ..

/-! ## The log -/

/-- The log is as it was, or one entry longer. -/
def Grows (d : Deployment) (t t' : AuditTable) : Prop :=
  t' = t ∨ ∃ entry detailsJson, encodeDetails d.limits entry.details = .ok detailsJson ∧ t' = t.append entry detailsJson

theorem grows_commitWrite (d : Deployment) (t : AuditTable) (entry : AuditWrite) :
    Grows d t (commitWrite d.limits t entry) := by
  rcases commitWrite_eq d.limits t entry with ⟨-, h⟩ | ⟨-, detailsJson, he, h⟩
  · exact .inl h
  · exact .inr ⟨entry, detailsJson, he, h⟩

theorem grows_appendBestEffort (d : Deployment) (w : World) (entry : AuditWrite) (fault : Option PyErr) :
    Grows d w.audit (w.appendBestEffort d entry fault).audit := by
  cases fault with
  | none => exact grows_commitWrite d w.audit entry
  | some e => exact .inl rfl

theorem grows_appendWithHash {d : Deployment} {t t' : AuditTable} {entry : AuditWrite} {fault : Option PyErr} {seq : Int}
    {thisHash : String} (h : appendWithHash d t entry fault = .ok (t', seq, thisHash)) : Grows d t t' := by
  obtain ⟨detailsJson, hd, rfl, -⟩ := appendWithHash_ok h
  exact .inr ⟨entry, detailsJson, hd, rfl⟩

/-- **The log only grows.** -/
theorem audit_step (d : Deployment) (api : StoreApi) (s : System) (a : Action) :
    Grows d s.world.audit (step d api s a).world.audit := by
  cases a with
  | op o =>
    cases o with
    | append entry => exact grows_commitWrite d s.world.audit entry
    | backfill i principal tenant tsIso inspector fault =>
      rcases backfillOne_cases d principal tenant tsIso inspector fault s.world.store s.world.outbox s.world.audit i
        with h | ⟨row, inspection, detailsJson, -, -, hd, h⟩
      · exact .inl (congrArg (fun ot : Outbox × AuditTable => ot.2) h)
      · exact .inr ⟨_, detailsJson, hd, congrArg (fun ot : Outbox × AuditTable => ot.2) h⟩
    | _ => exact .inl rfl
  | start u st =>
    left
    show (if (s.calls u).free = true then _ else _ : System).world.audit = _
    split <;> rfl
  | advance t rep =>
    show Grows d s.world.audit (advance d api s.world rep (s.calls t)).1.audit
    cases s.calls t with
    | attesting j c built h => exact grows_appendBestEffort d s.world _ _
    | deciding q =>
      show Grows d s.world.audit (advanceDeciding d s.world q rep).1.audit
      unfold advanceDeciding
      split
      · exact grows_appendBestEffort d s.world _ _
      · split
        · exact grows_appendBestEffort d s.world _ _
        · exact .inl rfl
    | appending q canonical candidateJson proposer =>
      show Grows d s.world.audit (advanceAppending d s.world q canonical candidateJson proposer rep).1.audit
      unfold advanceAppending
      dsimp only
      split
      · exact .inl rfl
      · rename_i ha
        exact grows_appendWithHash ha
    | auditing f e =>
      show Grows d s.world.audit (advanceAuditing d s.world f e rep).1.audit
      unfold advanceAuditing
      split
      · split
        · exact .inl rfl
        · rename_i ha
          exact grows_appendWithHash ha
      · exact .inl rfl
    | posting j c built =>
      show Grows d s.world.audit (advancePosting d api s.world j c built rep).1.audit
      unfold advancePosting
      split <;> exact .inl rfl
    | stamping q canonical receipt =>
      show Grows d s.world.audit (advanceStamping d s.world q canonical receipt rep).1.audit
      unfold advanceStamping
      split <;> exact .inl rfl
    | forgetting f =>
      show Grows d s.world.audit (advanceForgetting d s.world f rep).1.audit
      unfold advanceForgetting
      split <;> exact .inl rfl
    | purging f e =>
      show Grows d s.world.audit (advancePurging d s.world f e).1.audit
      unfold advancePurging
      split <;> exact .inl rfl
    | remembering f e =>
      show Grows d s.world.audit (advanceRemembering d s.world f e).audit
      unfold advanceRemembering
      split <;> exact .inl rfl
    | _ => exact .inl rfl

/-- A row of the log stays. -/
theorem Grows.mem {d : Deployment} {t t' : AuditTable} (h : Grows d t t') {row : AuditRow} (hr : row ∈ t.rows) :
    row ∈ t'.rows := by
  rcases h with rfl | ⟨entry, detailsJson, -, rfl⟩
  · exact hr
  · exact List.mem_append_left _ hr

/-- A receipt that verified still verifies. -/
theorem Grows.verifies {d : Deployment} {t t' : AuditTable} (h : Grows d t t') {seq : Int} {receipt : Receipt}
    (hv : auditVerifyThrough d.limits t seq = .ok receipt) : auditVerifyThrough d.limits t' seq = .ok receipt := by
  rcases h with rfl | ⟨entry, detailsJson, -, rfl⟩
  · exact hv
  · obtain ⟨h1, h2, h3, h4, h5, h6⟩ := auditVerifyThrough_ok.1 hv
    have hup := upTo_append entry detailsJson ⟨receipt.row, h4, h5⟩
    exact auditVerifyThrough_ok.2 ⟨h1, by rw [hup]; exact h2, by rw [hup]; exact h3, List.mem_append_left _ h4, h5, h6⟩

/-! ## The store -/

/-- The call's next step is a write or a DELETE in the store. -/
def Call.writesStore : Call → Bool
  | .posting .. | .cleaning .. | .deleting .. | .cascading .. | .sweepDeleting .. => true
  | _ => false

theorem appendBestEffort_store (d : Deployment) (w : World) (entry : AuditWrite) (fault : Option PyErr) :
    (w.appendBestEffort d entry fault).store = w.store := by
  cases fault <;> rfl

/-- **The other steps of a call leave the store alone.** -/
theorem advance_store (d : Deployment) (api : StoreApi) (w : World) (rep : Reply) {c : Call} (h : c.writesStore = false) :
    (advance d api w rep c).1.store = w.store := by
  cases c with
  | posting | cleaning | deleting | cascading | sweepDeleting => cases h
  | attesting j c built h => exact appendBestEffort_store d w _ _
  | deciding q =>
    show (advanceDeciding d w q rep).1.store = _
    unfold advanceDeciding
    split
    · exact appendBestEffort_store d w _ _
    · split
      · exact appendBestEffort_store d w _ _
      · rfl
  | appending q canonical candidateJson proposer =>
    show (advanceAppending d w q canonical candidateJson proposer rep).1.store = _
    unfold advanceAppending
    dsimp only
    split <;> rfl
  | auditing f e =>
    show (advanceAuditing d w f e rep).1.store = _
    unfold advanceAuditing
    split
    · split <;> rfl
    · rfl
  | stamping q canonical receipt =>
    show (advanceStamping d w q canonical receipt rep).1.store = _
    unfold advanceStamping
    split <;> rfl
  | forgetting f =>
    show (advanceForgetting d w f rep).1.store = _
    unfold advanceForgetting
    split <;> rfl
  | purging f e =>
    show (advancePurging d w f e).1.store = _
    unfold advancePurging
    split <;> rfl
  | remembering f e =>
    show (advanceRemembering d w f e).store = _
    unfold advanceRemembering
    split <;> rfl
  | idle | gate | claimed | lookingUp | failing | recording | noting | announcing | redriving | resolving | sweeping
  | returned => rfl

/-- The row a posting call writes. -/
def PostsRow (d : Deployment) (api : StoreApi) (s : System) (a : Action) (r : StoreRow) : Prop :=
  ∃ t rep j c built body, a = .advance t rep ∧ s.calls t = .posting j c built ∧
    finalizeWrite d d.finalizerProfile built ("approval:" ++ toString j.args.approvalId) = .ok body ∧
    r = rowOf api body (some j.args.approvalId) ∧ s.world.store.active r.contentHash = false

/-- The row a direct write puts into the store. -/
def PutsRow (s : System) (a : Action) (r : StoreRow) : Prop :=
  ∃ row, a = .op (.put row) ∧ r = { row with writtenFor := none } ∧ s.world.store.active r.contentHash = false

/-- **Where a row of the store comes from**: it was there, a direct write put it, or a posting call wrote it. -/
theorem store_new (d : Deployment) (api : StoreApi) {s : System} {a : Action} {r : StoreRow}
    (hr : r ∈ (step d api s a).world.store.rows) :
    r ∈ s.world.store.rows ∨ PutsRow s a r ∨ PostsRow d api s a r := by
  cases a with
  | op o =>
    cases o with
    | put row =>
      rcases Store.mem_insert.1 hr with h | ⟨rfl, hfree⟩
      · exact .inl h
      · exact .inr (.inl ⟨row, rfl, rfl, hfree⟩)
    | drop hash => exact .inl (Store.mem_remove.1 hr).1
    | backfill i principal tenant tsIso inspector fault => exact .inl hr
    | _ => exact .inl hr
  | start u st =>
    left
    have hw : (step d api s (.start u st)).world = s.world := by
      show (if (s.calls u).free = true then _ else _ : System).world = _
      split <;> rfl
    rw [hw] at hr
    exact hr
  | advance t rep =>
    have hr : r ∈ (advance d api s.world rep (s.calls t)).1.store.rows := hr
    cases hc : s.calls t with
    | posting j c built =>
      rw [hc] at hr
      have hr : r ∈ (advancePosting d api s.world j c built rep).1.store.rows := hr
      unfold advancePosting at hr
      split at hr
      · exact .inl hr
      · rename_i body hf
        rcases Store.mem_post hr with h | ⟨h, hfree⟩
        · exact .inl h
        · exact .inr (.inr ⟨t, rep, j, c, built, body, rfl, hc, hf, h, h ▸ hfree⟩)
    | cleaning j h => rw [hc] at hr; exact .inl (Store.mem_delete hr)
    | deleting f claimed => rw [hc] at hr; exact .inl (Store.mem_delete hr)
    | cascading f e h todo => rw [hc] at hr; exact .inl (Store.mem_delete hr)
    | sweepDeleting f e i h todo => rw [hc] at hr; exact .inl (Store.mem_delete hr)
    | _ =>
      left
      rw [advance_store d api s.world rep (by rw [hc]; rfl)] at hr
      exact hr

/-! ## The locals of a finalize call -/

/-- The job and the claim of a finalize call that has claimed. -/
def Call.held : Call → Option (Job × Claim)
  | .claimed j c | .posting j c _ | .lookingUp j c _ _ | .failing j c _ | .recording j c _ _ | .announcing j c _ _
  | .attesting j c _ _ => some (j, c)
  | _ => none

/-- The payload it has built. -/
def Call.built : Call → Option DurablePayload
  | .posting _ _ b | .lookingUp _ _ b _ | .recording _ _ b _ | .announcing _ _ b _ | .attesting _ _ b _ => some b
  | _ => none

theorem ended_held {c : Call} (h : c.ended) : c.held = none := by
  cases c <;> first | rfl | cases h

theorem built_eq_none {c : Call} (h : c.held = none) : c.built = none := by
  cases c <;> first | rfl | cases h

theorem start_held (st : Start) : st.call.held = none := by cases st <;> rfl

/-- The approvals a hard delete has claimed, up to its purge. -/
def Call.erasing : Call → Option (List Nat)
  | .deleting _ ids | .resolving _ ids _ => some ids
  | .cascading _ e _ _ | .sweeping _ e _ _ | .sweepDeleting _ e _ _ _ | .purging _ e => some e.claimed
  | _ => none

theorem erasing_held {c : Call} {ids : List Nat} (h : c.erasing = some ids) : c.held = none := by
  cases c <;> first | rfl | cases h

theorem sweepNext_erasing (f : Forget) (e : Erasure) (todo : List Nat) : (sweepNext f e todo).erasing = some e.claimed := by
  cases todo <;> rfl

theorem cascadeNext_erasing (f : Forget) (e : Erasure) (todo : List String) :
    (cascadeNext f e todo).erasing = some e.claimed := by
  cases todo with
  | nil => exact sweepNext_erasing f e e.claimed
  | cons => rfl

/-- **Where a claim comes from**: the call had it, or the step is its gate. -/
theorem held_step (d : Deployment) (api : StoreApi) {s : System} {a : Action} {t : Nat} {j : Job} {c : Claim}
    (h : ((step d api s a).calls t).held = some (j, c)) :
    (s.calls t).held = some (j, c) ∨
    ∃ rep row receipt, a = .advance t rep ∧ s.calls t = .gate j ∧ (step d api s a).calls t = .claimed j c ∧
      s.world.outbox.approvals.get j.args.approvalId = some row ∧
      rowVerdict d (s.world.auditView rep) j.args rep.cutoff row = .claim receipt ∧
      c = ⟨row, receiptProposer receipt, j.args.worker rep.defaultWorkerId⟩ := by
  rcases call_step d api s a t with ⟨he, -⟩ | ⟨st, -, -, he⟩ | ⟨rep, rfl, hm⟩
  · exact .inl (he ▸ h)
  · rw [he, start_held] at h
    cases h
  · generalize hb : s.calls t = c0 at hm ⊢
    generalize ha : (step d api s (.advance t rep)).calls t = c1 at hm h ⊢
    cases hm with
    | ends he => rw [ended_held he] at h; cases h
    | claims hr hv =>
      cases h
      exact .inr ⟨rep, _, _, rfl, rfl, rfl, hr, hv, rfl⟩
    | resolves | cascades => rw [erasing_held (cascadeNext_erasing _ _ _)] at h; cases h
    | sweepsNothing | sweepDeletes => rw [erasing_held (sweepNext_erasing _ _ _)] at h; cases h
    | builds | buildFails | posts | postsBlind | postFails | finds | looksAgain | lookupFails | announces | attests =>
      exact .inl h
    | idle | orphans | notes | decides | appends | rtbfClaims | deletes | sweepsUp | purges | remembers => cases h

/-- **Where a payload comes from**: the call had it, or the step builds it from its claim. -/
theorem built_step (d : Deployment) (api : StoreApi) {s : System} {a : Action} {t : Nat} {b : DurablePayload}
    (h : ((step d api s a).calls t).built = some b) :
    ((s.calls t).built = some b ∧ (s.calls t).held = ((step d api s a).calls t).held) ∨
    ∃ rep j c, a = .advance t rep ∧ s.calls t = .claimed j c ∧ (step d api s a).calls t = .posting j c b ∧
      buildDurable d j c rep = .ok b ∧ stillOwnsClaim s.world.outbox j.args.approvalId c.workerId = true := by
  rcases call_step d api s a t with ⟨he, -⟩ | ⟨st, -, -, he⟩ | ⟨rep, rfl, hm⟩
  · exact .inl ⟨he ▸ h, by rw [he]⟩
  · rw [he, built_eq_none (start_held st)] at h
    cases h
  · generalize hb : s.calls t = c0 at hm ⊢
    generalize ha : (step d api s (.advance t rep)).calls t = c1 at hm h ⊢
    cases hm with
    | ends he => rw [built_eq_none (ended_held he)] at h; cases h
    | builds hb ho =>
      cases h
      exact .inr ⟨rep, _, _, rfl, rfl, rfl, hb, ho⟩
    | resolves | cascades => rw [built_eq_none (erasing_held (cascadeNext_erasing _ _ _))] at h; cases h
    | sweepsNothing | sweepDeletes => rw [built_eq_none (erasing_held (sweepNext_erasing _ _ _))] at h; cases h
    | posts | postsBlind | finds | looksAgain | announces | attests => exact .inl ⟨h, rfl⟩
    | idle | claims | buildFails | postFails | lookupFails | orphans | notes | decides | appends | rtbfClaims | deletes
    | sweepsUp | purges | remembers => cases h

theorem buildDurable_ok {d : Deployment} {j : Job} {c : Claim} {rep : Reply} {b : DurablePayload}
    (h : buildDurable d j c rep = .ok b) :
    reconstructDurablePayload d c.row.candidateJson (approvalMarker j.args.approvalId) j.args.approvalId
      (j.args.expectedVia d) c.proposer rep.now = .ok b := by
  unfold buildDurable at h
  split at h
  · cases h
  · rename_i built hb
    split at h
    · cases h
    · cases h
      exact hb

/-- Every payload in flight was built from the row its call has claimed. -/
def PayloadsBuilt (d : Deployment) (s : System) : Prop :=
  ∀ t b, (s.calls t).built = some b → ∃ j c now, (s.calls t).held = some (j, c) ∧
    reconstructDurablePayload d c.row.candidateJson (approvalMarker j.args.approvalId) j.args.approvalId
      (j.args.expectedVia d) c.proposer now = .ok b

theorem payloadsBuilt_initial (d : Deployment) (w : World) : PayloadsBuilt d (.initial w) := by
  intro t b h
  cases h

theorem payloadsBuilt_step {d : Deployment} {api : StoreApi} {s : System} (h : PayloadsBuilt d s) (a : Action) :
    PayloadsBuilt d (step d api s a) := by
  intro t b hb
  rcases built_step d api hb with ⟨hold, hheld⟩ | ⟨rep, j, c, rfl, hc, hp, hbuild, -⟩
  · rw [← hheld]
    exact h t b hold
  · exact ⟨j, c, rep.now, by rw [hp]; rfl, buildDurable_ok hbuild⟩

end Panella

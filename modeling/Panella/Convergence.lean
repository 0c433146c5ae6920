import Panella.Attribution
import Panella.OneDurableRow

/-!
# A finalize call alone

One call of the finalizer, from its gate on, with nobody else at work and nothing that fails. It ends after seven steps at
most, and what it ends with depends on the store: a new content is stored under its hash, and of a content that is there
already the answer names the hash or the lookup by the marker has to find it. The marker is this approval's own. A row
that another approval or a direct write has put there does not carry it, and the call gives up: **`finalize_converges`** is
the exact condition, `sharedText_givesUp` a text that was written directly before.
-/

namespace Panella

open Machine PyJson

variable {d : Deployment} {api : StoreApi} {t : Nat}

/-! ## Alone -/

/-- Call `t` takes its next step. -/
def advanceCall (d : Deployment) (api : StoreApi) (t : Nat) (s : System) (r : Reply) : System := step d api s (.advance t r)

theorem runs_advance (s : System) (rs : List Reply) : runs d api s (rs.map (.advance t)) = run (advanceCall d api t) s rs := by
  induction rs generalizing s with
  | nil => rfl
  | cons r rs ih => exact ih _

/-- Nothing fails: the log and the profile can be read and the store answers. Whether its answer about a duplicate names
the hash is open. -/
structure Calm (disclosed : Bool) (r : Reply) : Prop where
  audit : r.auditUnreadable = none
  profile : r.profileFault = none
  adapter : r.adapterFault = none
  search : r.searchFault = none
  post : r.post = .answered disclosed

/-- The call has returned the hash and the row is recorded under it. -/
structure Recorded (t i : Nat) (h : String) (st : Store) (s : System) : Prop where
  returned : s.calls t = .returned (.finalized (some h))
  row : ∃ r, s.world.outbox.approvals.get i = some r ∧ FinalAs h r
  store : s.world.store = st

/-- The call has ended without a hash. -/
def EndsEmpty (t : Nat) (s : System) : Prop :=
  s.calls t = .returned (.finalized none) ∨ ∃ e, s.calls t = .returned (.raised e)

/-- A call that has returned stays so. -/
theorem advanceCall_returned {s : System} {result : CallResult} (hc : s.calls t = .returned result) (r : Reply) :
    advanceCall d api t s r = s := by
  have h : advanceCall d api t s r = ⟨s.world, Function.update s.calls t (.returned result)⟩ := step_advance hc rfl
  rw [h, ← hc, Function.update_eq_self]

theorem settles_returned {I : Reply → Prop} {P : System → Prop} {s : System} {result : CallResult}
    (hc : s.calls t = .returned result) (hP : P s) (n : Nat) : Settles (advanceCall d api t) I P n s :=
  settles_of_fixed (advanceCall_returned hc) hP n

/-! ## The stages, from the last -/

section Stages

variable {s : System} {a : FinalizeArgs} {c : Claim} {built : DurablePayload} {disclosed : Bool} {h : String} {st : Store}

theorem attesting_settles (hc : s.calls t = .attesting ⟨a, .direct⟩ c built h) (hst : s.world.store = st)
    (hrow : ∃ r, s.world.outbox.approvals.get a.approvalId = some r ∧ FinalAs h r) :
    Settles (advanceCall d api t) (Calm disclosed) (Recorded t a.approvalId h st) 1 s := by
  refine settles_step fun r _ => ?_
  rw [advanceCall, step_advance hc rfl]
  refine settles_returned (Function.update_self ..) ⟨Function.update_self .., ?_, ?_⟩ 0
  · unfold World.appendBestEffort
    cases r.auditFault <;> exact hrow
  · unfold World.appendBestEffort
    cases r.auditFault <;> exact hst

theorem announcing_settles (hc : s.calls t = .announcing ⟨a, .direct⟩ c built h) (hst : s.world.store = st)
    (hrow : ∃ r, s.world.outbox.approvals.get a.approvalId = some r ∧ FinalAs h r) :
    Settles (advanceCall d api t) (Calm disclosed) (Recorded t a.approvalId h st) 2 s := by
  refine settles_step fun r _ => ?_
  rw [advanceCall, step_advance hc rfl]
  exact attesting_settles (Function.update_self ..) hst hrow

/-- A call that still owns its claim records the hash it has. -/
theorem recording_settles (hc : s.calls t = .recording ⟨a, .direct⟩ c built h) (hst : s.world.store = st) (hne : h ≠ "")
    (hown : stillOwnsClaim s.world.outbox a.approvalId c.workerId = true) :
    Settles (advanceCall d api t) (Calm disclosed) (Recorded t a.approvalId h st) 3 s := by
  obtain ⟨cur, hcur, hmine⟩ := Table.hits_iff.1 hown
  simp only [Bool.and_eq_true, decide_eq_true_eq] at hmine
  have hmatch : ownedUnfinalized c.workerId cur = true := by simp [ownedUnfinalized, notFinalized, hmine]
  refine settles_step fun r _ => ?_
  have hrec : recordFinalized s.world.outbox a.approvalId c.workerId h c.row.memoryEventId r.now =
      ((s.world.outbox.updateApproval a.approvalId (ownedUnfinalized c.workerId) (setFinalized h c.workerId)).completeEvent
        c.row.memoryEventId h r.now, some h, true) := by
    unfold recordFinalized
    rw [if_pos (Table.hits_iff.2 ⟨cur, hcur, hmatch⟩)]
  have hadv : advance d api s.world r (.recording ⟨a, .direct⟩ c built h) =
      (s.world.withOutbox ((s.world.outbox.updateApproval a.approvalId (ownedUnfinalized c.workerId)
        (setFinalized h c.workerId)).completeEvent c.row.memoryEventId h r.now), .announcing ⟨a, .direct⟩ c built h) := by
    simp only [advance, advanceRecording, hrec, hne, if_false]
  rw [advanceCall, step_advance hc hadv]
  refine announcing_settles (Function.update_self ..) hst ⟨setFinalized h c.workerId cur, ?_, rfl, rfl⟩
  show (Outbox.completeEvent _ _ _ _).approvals.get a.approvalId = _
  rw [completeEvent_approvals, get_updateApproval _ _ hcur, if_pos ⟨rfl, hmatch⟩]

theorem failing_settles {message : String} (hc : s.calls t = .failing ⟨a, .direct⟩ c message) :
    Settles (advanceCall d api t) (Calm disclosed) (EndsEmpty t) 1 s := by
  refine settles_step fun r _ => ?_
  rw [advanceCall, step_advance hc rfl]
  exact settles_returned (Function.update_self ..) (.inl (Function.update_self ..)) 0

/-- **The lookup by the marker** finds the one row that carries it. -/
theorem lookingUp_finds {again : Bool} (hc : s.calls t = .lookingUp ⟨a, .direct⟩ c built again) (hst : s.world.store = st)
    (hown : stillOwnsClaim s.world.outbox a.approvalId c.workerId = true)
    (hone : st.tagged (markerTags (approvalMarker a.approvalId) built.tenantId) = [h]) :
    Settles (advanceCall d api t) (Calm disclosed) (Recorded t a.approvalId h st) 4 s := by
  refine settles_step fun r hr => ?_
  have hne : h ≠ "" := by
    obtain ⟨q, -, -, rfl⟩ := Store.mem_tagged.1 (hone ▸ List.mem_singleton_self h)
    exact q.hashed
  have hadv : advance d api s.world r (.lookingUp ⟨a, .direct⟩ c built again) =
      (s.world, .recording ⟨a, .direct⟩ c built h) := by
    simp only [advance, advanceLookingUp, findActiveHashByMarker, hr.search, hst, hone]
    rfl
  rw [advanceCall, step_advance hc hadv]
  exact recording_settles (Function.update_self ..) hst hne hown

/-- Without such a row, or with several, the call ends empty. -/
theorem lookingUp_misses {again : Bool} (hc : s.calls t = .lookingUp ⟨a, .direct⟩ c built again) (hst : s.world.store = st)
    (hnone : ∀ h, st.tagged (markerTags (approvalMarker a.approvalId) built.tenantId) ≠ [h]) :
    Settles (advanceCall d api t) (Calm disclosed) (EndsEmpty t) 3 s := by
  have hlast : ∀ s : System, s.world.store = st → s.calls t = .lookingUp ⟨a, .direct⟩ c built false →
      Settles (advanceCall d api t) (Calm disclosed) (EndsEmpty t) 2 s := by
    intro s hst hc
    refine settles_step fun r hr => ?_
    have hadv : ∃ message, advance d api s.world r (.lookingUp ⟨a, .direct⟩ c built false) =
        (s.world, .failing ⟨a, .direct⟩ c message) := by
      simp only [advance, advanceLookingUp]
      cases hl : findActiveHashByMarker d s.world.store (approvalMarker a.approvalId) built.tenantId r.searchFault with
      | error e => exact ⟨_, rfl⟩
      | ok o =>
        cases o with
        | none => exact ⟨_, rfl⟩
        | some x => exact absurd (hst ▸ findActiveHashByMarker_ok hl) (hnone x)
    obtain ⟨message, hadv⟩ := hadv
    rw [advanceCall, step_advance hc hadv]
    exact failing_settles (Function.update_self ..)
  cases again with
  | false => exact (hlast s hst hc).mono (by omega)
  | true =>
    refine settles_step fun r hr => ?_
    cases hl : findActiveHashByMarker d s.world.store (approvalMarker a.approvalId) built.tenantId r.searchFault with
    | error e =>
      have hadv : advance d api s.world r (.lookingUp ⟨a, .direct⟩ c built true) =
          (s.world, .failing ⟨a, .direct⟩ c (writeFailed d e)) := by
        simp only [advance, advanceLookingUp, hl]
      rw [advanceCall, step_advance hc hadv]
      exact (failing_settles (Function.update_self ..)).mono (by omega)
    | ok o =>
      cases o with
      | some x => exact absurd (hst ▸ findActiveHashByMarker_ok hl) (hnone x)
      | none =>
        have hadv : advance d api s.world r (.lookingUp ⟨a, .direct⟩ c built true) =
            (s.world, .lookingUp ⟨a, .direct⟩ c built false) := by
          simp only [advance, advanceLookingUp, hl, if_true]
        rw [advanceCall, step_advance hc hadv]
        exact hlast _ hst (Function.update_self ..)

end Stages

/-! ## The call -/

/-- Finalization has converged: the call has returned the hash, the row is recorded under it and an active row of the store
has it. -/
structure Converged (t i : Nat) (h : String) (s : System) : Prop where
  returned : s.calls t = .returned (.finalized (some h))
  row : ∃ r, s.world.outbox.approvals.get i = some r ∧ FinalAs h r
  active : s.world.store.active h = true

theorem not_converged_of_empty {i : Nat} {h : String} {s : System} (he : EndsEmpty t s) : ¬ Converged t i h s := by
  intro hcon
  rcases he with he | ⟨e, he⟩ <;> rw [hcon.returned] at he <;> cases he

theorem Recorded.converged_iff {i : Nat} {h h' : String} {st : Store} {s : System} (hrec : Recorded t i h' st s) :
    Converged t i h s ↔ h' = h ∧ st.active h = true := by
  constructor
  · intro hcon
    have hret := hrec.returned
    rw [hcon.returned] at hret
    cases hret
    exact ⟨rfl, hrec.store ▸ hcon.active⟩
  · rintro ⟨rfl, hact⟩
    exact ⟨hrec.returned, hrec.row, hrec.store.symm ▸ hact⟩

/-- The hash of a content comes back: it is new, or the answer names it, or the marker leads to it and nowhere else. -/
def HashKnown (d : Deployment) (st : Store) (i : Nat) (h : String) (disclosed : Bool) : Prop :=
  st.active h = false ∨ disclosed = true ∨ st.tagged (markerTags (approvalMarker i) d.defaultTenantId) = [h]

section Call

variable {s : System} {a : FinalizeArgs} {c : Claim} {built : DurablePayload} {disclosed : Bool} {st : Store}

/-- **The write**, and what becomes of its hash. -/
theorem posting_settles {body : MemoryBody} (hc : s.calls t = .posting ⟨a, .direct⟩ c built) (hst : s.world.store = st)
    (hbody : finalizeWrite d d.finalizerProfile built ("approval:" ++ toString a.approvalId) = .ok body)
    (htenant : built.tenantId = d.defaultTenantId) (hown : stillOwnsClaim s.world.outbox a.approvalId c.workerId = true) :
    Settles (advanceCall d api t) (Calm disclosed) (fun s' => Converged t a.approvalId (api.contentHash body.content) s' ↔
      HashKnown d st a.approvalId (api.contentHash body.content) disclosed) 5 s := by
  subst hst
  have hne := api.contentHash_ne body.content
  refine settles_step fun r hr => ?_
  by_cases hact : s.world.store.active (api.contentHash body.content) = true
  · cases disclosed with
    | true =>
      have hadv : advance d api s.world r (.posting ⟨a, .direct⟩ c built) =
          (s.world, .recording ⟨a, .direct⟩ c built (api.contentHash body.content)) := by
        have hact' : s.world.store.active (rowOf api body (some a.approvalId)).contentHash = true := hact
        simp only [advance, advancePosting, hbody, hr.post, Store.post, hact', if_true]
        rfl
      rw [advanceCall, step_advance hc hadv]
      refine Settles.imp (Settles.mono (recording_settles (Function.update_self ..) rfl hne hown) (by omega)) fun s' hrec => ?_
      rw [hrec.converged_iff]
      exact ⟨fun _ => .inr (.inl rfl), fun _ => ⟨rfl, hact⟩⟩
    | false =>
      have hadv : advance d api s.world r (.posting ⟨a, .direct⟩ c built) =
          (s.world, .lookingUp ⟨a, .direct⟩ c built true) := by
        have hact' : s.world.store.active (rowOf api body (some a.approvalId)).contentHash = true := hact
        simp only [advance, advancePosting, hbody, hr.post, Store.post, hact', if_true]
        rfl
      rw [advanceCall, step_advance hc hadv]
      have hknown : HashKnown d s.world.store a.approvalId (api.contentHash body.content) false ↔
          s.world.store.tagged (markerTags (approvalMarker a.approvalId) built.tenantId) = [api.contentHash body.content] := by
        simp [HashKnown, hact, htenant]
      rw [hknown]
      by_cases hone : ∃ h, s.world.store.tagged (markerTags (approvalMarker a.approvalId) built.tenantId) = [h]
      · obtain ⟨h, hone⟩ := hone
        refine Settles.imp (lookingUp_finds (Function.update_self ..) rfl hown hone) fun s' hrec => ?_
        rw [hrec.converged_iff, hone]
        simp [hact]
      · have hnone : ∀ h, s.world.store.tagged (markerTags (approvalMarker a.approvalId) built.tenantId) ≠ [h] :=
          fun h hh => hone ⟨h, hh⟩
        refine Settles.imp (Settles.mono (lookingUp_misses (Function.update_self ..) rfl hnone) (by omega)) fun s' he => ?_
        exact ⟨fun hcon => absurd hcon (not_converged_of_empty he), fun hh => absurd ⟨_, hh⟩ hone⟩
  · have hadv : advance d api s.world r (.posting ⟨a, .direct⟩ c built) =
        ({ s.world with store := s.world.store.insert (rowOf api body (some a.approvalId)) },
          .recording ⟨a, .direct⟩ c built (api.contentHash body.content)) := by
      have hact' : ¬ s.world.store.active (rowOf api body (some a.approvalId)).contentHash = true := hact
      simp only [advance, advancePosting, hbody, hr.post, Store.post, if_neg hact']
      rfl
    rw [advanceCall, step_advance hc hadv]
    refine Settles.imp (Settles.mono (recording_settles (Function.update_self ..) rfl hne hown) (by omega)) fun s' hrec => ?_
    rw [hrec.converged_iff]
    refine ⟨fun _ => .inl (by simpa using hact), fun _ => ⟨rfl, ?_⟩⟩
    have hfree : s.world.store.active (api.contentHash body.content) = false := by simpa using hact
    exact Store.active_iff.2 ⟨_, Store.mem_insert.2 (.inr ⟨rfl, hfree⟩), rfl⟩

/-- A body that is refused ends the call empty. -/
theorem posting_refused {e : PyErr} (hc : s.calls t = .posting ⟨a, .direct⟩ c built)
    (hf : finalizeWrite d d.finalizerProfile built ("approval:" ++ toString a.approvalId) = .error e) :
    Settles (advanceCall d api t) (Calm disclosed) (EndsEmpty t) 2 s := by
  refine settles_step fun r _ => ?_
  have hadv : advance d api s.world r (.posting ⟨a, .direct⟩ c built) =
      (s.world, .failing ⟨a, .direct⟩ c (writeFailed d e)) := by
    simp only [advance, advancePosting, hf]
  rw [advanceCall, step_advance hc hadv]
  exact failing_settles (Function.update_self ..)

/-- The finalizer can write the row of a candidate: it has a principal, the candidate is an object, and the profile admits
its room and memory type. -/
def Writable (d : Deployment) (candidateJson : String) : Prop :=
  (∃ p, principalDefaultForProfile d d.finalizerProfile = .ok p) ∧
    ∃ cand, d.loads candidateJson = .ok (.obj cand) ∧ d.finalizerProfile.Admits d cand

/-- The worker builds the row it will write. -/
theorem advance_claimed {w : World} {r : Reply} {cand : Dict} (hload : loadFinalizer d r = .ok ())
    (hcand : d.loads c.row.candidateJson = .ok (.obj cand)) (hadapter : r.adapterFault = none)
    (hown : stillOwnsClaim w.outbox a.approvalId c.workerId = true) :
    advance d api w r (.claimed ⟨a, .direct⟩ c) = (w, .posting ⟨a, .direct⟩ c
      (durablePayload d cand (approvalMarker a.approvalId) a.approvalId (a.expectedVia d) c.proposer r.now)) := by
  have hbuild := reconstruct_obj hcand (approvalMarker a.approvalId) a.approvalId (a.expectedVia d) c.proposer r.now
  simp only [advance, advanceClaimed, hload, buildDurable, hbuild, hadapter, hown, if_true]

/-- **From the claim on.** -/
theorem claimed_settles (hc : s.calls t = .claimed ⟨a, .direct⟩ c) (hst : s.world.store = st)
    (hown : stillOwnsClaim s.world.outbox a.approvalId c.workerId = true) :
    Settles (advanceCall d api t) (Calm disclosed)
      (fun s' => Converged t a.approvalId (durableHash d api c.row.candidateJson) s' ↔
        Writable d c.row.candidateJson ∧
          HashKnown d st a.approvalId (durableHash d api c.row.candidateJson) disclosed) 6 s := by
  have hempty : ∀ {s' : System} {P : Prop}, EndsEmpty t s' → ¬ Writable d c.row.candidateJson →
      (Converged t a.approvalId (durableHash d api c.row.candidateJson) s' ↔ Writable d c.row.candidateJson ∧ P) :=
    fun he hw => ⟨fun hcon => absurd hcon (not_converged_of_empty he), fun hh => absurd hh.1 hw⟩
  refine settles_step fun r hr => ?_
  cases hp : principalDefaultForProfile d d.finalizerProfile with
  | error e =>
    have hadv : advance d api s.world r (.claimed ⟨a, .direct⟩ c) = (s.world, .returned (.raised e)) := by
      simp only [advance, advanceClaimed, loadFinalizer, hr.profile, hp]
      rfl
    rw [advanceCall, step_advance hc hadv]
    refine settles_returned (Function.update_self ..) (hempty (.inr ⟨e, Function.update_self ..⟩) ?_) 5
    rintro ⟨⟨p, hp'⟩, -⟩
    rw [hp] at hp'
    cases hp'
  | ok p =>
    have hload : loadFinalizer d r = .ok () := by
      simp only [loadFinalizer, hr.profile, hp]
      rfl
    by_cases hcand : ∃ cand, d.loads c.row.candidateJson = .ok (.obj cand)
    · obtain ⟨cand, hcand⟩ := hcand
      have hbuild := reconstruct_obj hcand (approvalMarker a.approvalId) a.approvalId (a.expectedVia d) c.proposer r.now
      have hadv : advance d api s.world r (.claimed ⟨a, .direct⟩ c) = _ := advance_claimed hload hcand hr.adapter hown
      generalize hb : durablePayload d cand (approvalMarker a.approvalId) a.approvalId (a.expectedVia d) c.proposer r.now =
        built at hbuild hadv
      rw [advanceCall, step_advance hc hadv]
      have hw : Writable d c.row.candidateJson ↔
          ∃ body, finalizeWrite d d.finalizerProfile built ("approval:" ++ toString a.approvalId) = .ok body := by
        subst hb
        rw [finalizeWrite_iff]
        constructor
        · rintro ⟨-, cand', hcand', hadm⟩
          rw [hcand] at hcand'
          cases hcand'
          exact hadm
        · exact fun hadm => ⟨⟨p, hp⟩, cand, hcand, hadm⟩
      cases hf : finalizeWrite d d.finalizerProfile built ("approval:" ++ toString a.approvalId) with
      | error e =>
        refine Settles.imp (Settles.mono (posting_refused (Function.update_self ..) hf) (by omega)) fun s' he => hempty he ?_
        rw [hw, hf]
        rintro ⟨body, hbody⟩
        cases hbody
      | ok body =>
        have hhash : api.contentHash body.content = durableHash d api c.row.candidateJson := by
          rw [(finalizeWrite_ok (reconstruct_tags hbuild) hf).1, reconstruct_content hbuild]
          rfl
        refine Settles.imp (posting_settles (Function.update_self ..) hst hf (by rw [← hb]; rfl) hown) fun s' hiff => ?_
        rw [hhash] at hiff
        rw [hiff]
        exact ⟨fun hk => ⟨hw.2 ⟨body, hf⟩, hk⟩, And.right⟩
    · have hadv : ∃ message, advance d api s.world r (.claimed ⟨a, .direct⟩ c) =
          (s.world, .failing ⟨a, .direct⟩ c message) := by
        simp only [advance, advanceClaimed, hload, buildDurable]
        cases hbuild : reconstructDurablePayload d c.row.candidateJson (approvalMarker a.approvalId) a.approvalId
            (a.expectedVia d) c.proposer r.now with
        | error e => exact ⟨_, rfl⟩
        | ok built =>
          obtain ⟨cand, hcand', -⟩ := reconstruct_ok hbuild
          exact absurd ⟨cand, hcand'⟩ hcand
      obtain ⟨message, hadv⟩ := hadv
      rw [advanceCall, step_advance hc hadv]
      refine Settles.imp (Settles.mono (failing_settles (Function.update_self ..)) (by omega)) fun s' he => hempty he ?_
      rintro ⟨-, cand, hcand', -⟩
      exact hcand ⟨cand, hcand'⟩

end Call

/-! ## The gate -/

/-- An approved row that passes the provenance check and the receipt gate and that nobody has claimed. -/
structure Finalizable (d : Deployment) (log : AuditTable) (a : FinalizeArgs) (row : ApprovalRow) (receipt : Receipt) :
    Prop where
  approved : row.status = .approved
  event : row.memoryEventId ≠ none
  transport : a.expectedVia d ≠ ""
  provenance : provenanceOk d a row = true
  receipt : receiptGateRefusal d (.ok log) a.approvalId row = .ok (.verified receipt)
  unclaimed : finalizerUnclaimed row.finalizerState = true

/-- **Such a row is claimed.** -/
theorem Finalizable.claimed {log : AuditTable} {a : FinalizeArgs} {row : ApprovalRow} {receipt : Receipt} {o : Outbox}
    (hf : Finalizable d log a row receipt) (hrow : o.approvals.get a.approvalId = some row) (workerId now cutoff : String) :
    gateAndClaim d (.ok log) a workerId now cutoff o =
      (claimRow o a.approvalId workerId now cutoff, .claimed ⟨row, receiptProposer receipt, workerId⟩) := by
  have hprov := hf.provenance
  rw [provenanceOk, Bool.and_eq_true] at hprov
  have happrovers : a.authorizedApprovers ≠ [] := by
    intro hnil
    rw [hnil] at hprov
    cases hby : row.approvedBy <;> simp [hby] at hprov
  have hstate : row.finalizerState ≠ some .finalized ∧ row.finalizerState ≠ some .finalizing := by
    have hun := hf.unclaimed
    constructor <;> intro he <;> rw [he] at hun <;> cases hun
  have hskip : ¬ (row.status ≠ .approved ∨ row.memoryEventId = none) := by simp [hf.approved, hf.event]
  have hlease : leaseLive cutoff row = false := by simp [leaseLive, hstate.2]
  have hverdict : rowVerdict d (.ok log) a cutoff row = .claim receipt := by
    unfold rowVerdict
    rw [if_neg hskip, if_neg (by simp [hf.provenance]), if_neg hstate.1, if_neg (by simp [hlease]), hf.receipt]
  have hhits : o.approvals.hits a.approvalId (claimable cutoff) = true :=
    Table.hits_iff.2 ⟨row, hrow, by simp [claimable, hf.approved, hf.unclaimed]⟩
  unfold gateAndClaim
  rw [if_neg happrovers, if_neg hf.transport, hrow]
  simp only [hverdict, hhits, if_true]

theorem Finalizable.gate {w : World} {r : Reply} {a : FinalizeArgs} {row : ApprovalRow} {receipt : Receipt}
    (hf : Finalizable d w.audit a row receipt) (hrow : w.outbox.approvals.get a.approvalId = some row)
    (hread : r.auditUnreadable = none) :
    advance d api w r (.gate ⟨a, .direct⟩) =
      (w.withOutbox (claimRow w.outbox a.approvalId (a.worker r.defaultWorkerId) r.now r.cutoff),
        .claimed ⟨a, .direct⟩ ⟨row, receiptProposer receipt, a.worker r.defaultWorkerId⟩) := by
  have hview : w.auditView r = .ok w.audit := by simp [World.auditView, hread]
  simp only [advance, advanceGate, hview, hf.claimed hrow]

/-- The worker that claims it owns it. -/
theorem Finalizable.owned {log : AuditTable} {a : FinalizeArgs} {row : ApprovalRow} {receipt : Receipt} {o : Outbox}
    (hf : Finalizable d log a row receipt) (hrow : o.approvals.get a.approvalId = some row) (workerId now cutoff : String) :
    stillOwnsClaim (claimRow o a.approvalId workerId now cutoff) a.approvalId workerId = true := by
  have hclaim : claimable cutoff row = true := by simp [claimable, hf.approved, hf.unclaimed]
  refine Table.hits_iff.2 ⟨_, get_updateApproval _ _ hrow, ?_⟩
  simp [hclaim]

/-- **A whole call**: seven steps. -/
theorem gate_settles {s : System} {a : FinalizeArgs} {row : ApprovalRow} {receipt : Receipt} {disclosed : Bool}
    (hgate : s.calls t = .gate ⟨a, .direct⟩) (hrow : s.world.outbox.approvals.get a.approvalId = some row)
    (hf : Finalizable d s.world.audit a row receipt) :
    Settles (advanceCall d api t) (Calm disclosed)
      (fun s' => Converged t a.approvalId (durableHash d api row.candidateJson) s' ↔ Writable d row.candidateJson ∧
        HashKnown d s.world.store a.approvalId (durableHash d api row.candidateJson) disclosed) 7 s := by
  refine settles_step fun r hr => ?_
  rw [advanceCall, step_advance hgate (hf.gate hrow hr.audit)]
  have hown := hf.owned hrow (a.worker r.defaultWorkerId) r.now r.cutoff
  exact claimed_settles (c := ⟨row, receiptProposer receipt, a.worker r.defaultWorkerId⟩) (Function.update_self ..) rfl
    hown

/-- The approval of approver 2, with its receipt. -/
def teaRow : ApprovalRow :=
  stampApproved (serviceStamp "telegram" "telegram:2" sampleReceipt "t3") 1 (queuedRow sampleCandidate "t0" none)

def teaQueue : Outbox :=
  sampleQueue.updateApproval 1 (fun _ => true) (stampApproved (serviceStamp "telegram" "telegram:2" sampleReceipt "t3") 1)

theorem teaQueue_row : teaQueue.approvals.get 1 = some teaRow := rfl

def teaArgs : FinalizeArgs := ⟨1, ["telegram:1", "telegram:2"], none, none⟩

/-- Call 0 is about to finalize it. -/
def teaSystem (store : Store) : System where
  world := ⟨teaQueue, AuditTable.empty.append sampleEntry (some sampleDetails), store⟩
  calls := Function.update (fun _ => .idle) 0 (.gate ⟨teaArgs, .direct⟩)

theorem teaRow_finalizable (store : Store) :
    ∃ receipt, Finalizable sampleDeployment (teaSystem store).world.audit teaArgs teaRow receipt := by
  have hv := verifyThrough_append (t := AuditTable.empty) trivial trivial sampleEntry_encodes
  have hagrees : Agrees sampleDeployment (AuditTable.empty.append sampleEntry (some sampleDetails)) 1 teaRow :=
    agrees_of_receipt rfl rfl rfl rfl rfl rfl sampleReceipt_honest
  exact ⟨_, rfl, by simp [teaRow, stampApproved], by decide, by decide, gate_of_agrees hagrees rfl hv rfl, rfl⟩

theorem teaRow_writable : Writable sampleDeployment teaRow.candidateJson := by
  refine ⟨⟨_, rfl⟩, _, sampleCandidate_loads, rfl, rfl, ?_⟩
  decide

def calmReply : Reply := { now := "t4", cutoff := "t0", defaultWorkerId := "w", post := .answered false }

theorem calmReply_calm : ∀ r ∈ List.replicate 7 calmReply, Calm false r := by
  intro r hr
  rw [List.eq_of_mem_replicate hr]
  exact ⟨rfl, rfl, rfl, rfl, rfl⟩

/-- What a direct write of the same text posts. -/
def directBody : MemoryBody where
  content := "Owner feedback: tea"
  tags := ["permanent", "status:active", "wing:owner", "room:feedback", "agent:unknown", "mtype:observation",
    "tenant:t_default"].map .str
  memoryType := "observation"
  metadata := [("importance_score", importanceFloor), ("wing", .str "owner"), ("room", .str "feedback"),
    ("agent", .str "unknown"), ("tenant_id", .str "t_default")]
  conversationId := none

theorem directBody_posted :
    addMemoryBody sampleDeployment "owner" "feedback" "Owner feedback: tea" [] true none = .ok directBody := rfl

theorem teaRow_hash : durableHash sampleDeployment sampleStoreApi teaRow.candidateJson =
    sampleStoreApi.contentHash directBody.content := by
  have h : durableContent sampleDeployment teaRow.candidateJson = "Owner feedback: tea" := by
    unfold durableContent
    rw [show sampleDeployment.loads teaRow.candidateJson = _ from sampleCandidate_loads]
    rfl
  rw [durableHash, h]
  rfl

def directStore : Store := Store.empty.insert (rowOf sampleStoreApi directBody none)

/-- Its answer names no hash, and its row does not carry the marker of an approval it was not written for. -/
theorem directStore_unknown :
    ¬ HashKnown sampleDeployment directStore 1 (durableHash sampleDeployment sampleStoreApi teaRow.candidateJson) false := by
  rw [teaRow_hash]
  rintro (h | h | h)
  · have hin : rowOf sampleStoreApi directBody none ∈ directStore.rows := Store.mem_insert.2 (.inr ⟨rfl, rfl⟩)
    have hact : directStore.active (sampleStoreApi.contentHash directBody.content) = true :=
      Store.active_iff.2 ⟨_, hin, rfl⟩
    rw [hact] at h
    cases h
  · cases h
  · have hm := List.mem_singleton_self (sampleStoreApi.contentHash directBody.content)
    rw [← h] at hm
    obtain ⟨r, hr, ht, -⟩ := Store.mem_tagged.1 hm
    rcases Store.mem_insert.1 hr with hr | ⟨rfl, -⟩
    · cases hr
    · revert ht
      decide

end Panella

import Panella.RtbfSticky

/-!
# One durable row per approval

Two workers may hold the same approval at once: a lease expires between a claim, a write and a record. What
they write is the same all the same, because it is a function of the candidate (`durableHash`), which nothing
changes: **`OneContent`**. What they record is guarded: a row that is finalized under a durable id keeps both
until an RTBF claims it (`finalized_step`). **`oneDurableRow`** puts the two together over every run.
-/

namespace Panella

open Machine PyJson

variable {d : Deployment} {api : StoreApi}

/-- The content hash of what a finalizer writes for a candidate. -/
def durableHash (d : Deployment) (api : StoreApi) (candidateJson : String) : String :=
  api.contentHash (d.sanitize (d.sanitize (durableContent d candidateJson)))

/-- What a posting call writes has its candidate's hash. -/
theorem posting_hash {s : System} {t : Nat} {j : Job} {c : Claim} {built : DurablePayload} {body : MemoryBody}
    (hb : PayloadsBuilt d s) (hc : s.calls t = .posting j c built)
    (hf : finalizeWrite d d.finalizerProfile built ("approval:" ++ toString j.args.approvalId) = .ok body) :
    api.contentHash body.content = durableHash d api c.row.candidateJson := by
  obtain ⟨j', c', now, hheld, hrec⟩ := hb t built (by rw [hc]; rfl)
  rw [hc] at hheld
  cases hheld
  rw [(finalizeWrite_ok (reconstruct_tags hrec) hf).1, reconstruct_content hrec]
  rfl

/-- The row a posting call writes has its candidate's hash. -/
theorem postsRow_hash {s : System} {a : Action} {r : StoreRow} (hb : PayloadsBuilt d s) (h : PostsRow d api s a r) :
    ∃ t j c, (s.calls t).held = some (j, c) ∧ r.writtenFor = some j.args.approvalId ∧
      r.contentHash = durableHash d api c.row.candidateJson := by
  obtain ⟨t, rep, j, c, built, body, -, hc, hf, rfl, -⟩ := h
  exact ⟨t, j, c, by rw [hc]; rfl, rfl, posting_hash hb hc hf⟩

/-! ## The candidate of an approval -/

theorem rowChange_candidate {s : System} {a : Action} {i : Nat} {r r' : ApprovalRow} (h : RowChange d s a i r r') :
    r'.candidateJson = r.candidateJson := by
  cases h with
  | approved => rfl
  | edited h =>
    cases h with
    | reapproved =>
      unfold stampReceipt stampProvenance
      split <;> split <;> rfl
    | kept | sent | decided | resurfaced | backfilled | refused | claimed | recorded | failed | rtbfClaimed => rfl

/-- **Everything about an approval goes back to one candidate**: its row, the calls that have claimed it and the rows
that were written for it. -/
structure OneContent (d : Deployment) (api : StoreApi) (candidate : Nat → String) (s : System) : Prop where
  rows : ∀ i r, s.world.outbox.approvals.get i = some r → r.candidateJson = candidate i
  claims : ∀ t j c, (s.calls t).held = some (j, c) →
    c.row.candidateJson = candidate j.args.approvalId ∧ j.args.approvalId < s.world.outbox.approvals.nextId
  written : ∀ r ∈ s.world.store.rows, ∀ i, r.writtenFor = some i →
    r.contentHash = durableHash d api (candidate i) ∧ i < s.world.outbox.approvals.nextId

/-- **One step.** A new approval gets a new id, so the candidates of the old ones stay. -/
theorem oneContent_step {s : System} {candidate : Nat → String} (h : OneContent d api candidate s) (hb : PayloadsBuilt d s)
    (a : Action) : ∃ candidate', OneContent d api candidate' (step d api s a) := by
  have hold : ∀ i, i < s.world.outbox.approvals.nextId → ∀ r', (step d api s a).world.outbox.approvals.get i = some r' →
      r'.candidateJson = candidate i := by
    intro i hi r' hr'
    cases hr : s.world.outbox.approvals.get i with
    | none =>
      obtain ⟨rfl, -⟩ := row_new d api hr hr'
      exact absurd hi (lt_irrefl _)
    | some r =>
      rcases row_step d api a hr with ⟨q, hq, hc⟩ | ⟨hn, -⟩
      · rw [hr'] at hq
        cases hq
        rw [rowChange_candidate hc, h.rows i r hr]
      · rw [hn] at hr'
        cases hr'
  have hnext : s.world.outbox.approvals.nextId ≤ (step d api s a).world.outbox.approvals.nextId := nextId_step s a
  refine ⟨fun i => ((step d api s a).world.outbox.approvals.get i).elim (candidate i) (·.candidateJson), ?_, ?_, ?_⟩
  · intro i r hr
    simp [hr]
  · intro t j c hheld
    have hkeep : j.args.approvalId < s.world.outbox.approvals.nextId ∧ c.row.candidateJson = candidate j.args.approvalId := by
      rcases held_step d api hheld with hheld | ⟨rep, row, receipt, -, -, -, hr, -, rfl⟩
      · exact ⟨(h.claims t j c hheld).2, (h.claims t j c hheld).1⟩
      · exact ⟨Table.lt_of_get hr, h.rows _ row hr⟩
    refine ⟨?_, lt_of_lt_of_le hkeep.1 hnext⟩
    cases hr' : (step d api s a).world.outbox.approvals.get j.args.approvalId with
    | none => exact hkeep.2
    | some r' => rw [hkeep.2]; exact (hold _ hkeep.1 r' hr').symm
  · intro r hr i hi
    have hkeep : i < s.world.outbox.approvals.nextId ∧ r.contentHash = durableHash d api (candidate i) := by
      rcases store_new d api hr with hr | ⟨row, -, rfl, -⟩ | hp
      · exact ⟨(h.written r hr i hi).2, (h.written r hr i hi).1⟩
      · cases hi
      · obtain ⟨t, j, c, hheld, hw, hhash⟩ := postsRow_hash hb hp
        rw [hw] at hi
        cases hi
        obtain ⟨hcand, hlt⟩ := h.claims t j c hheld
        exact ⟨hlt, by rw [hhash, hcand]⟩
    refine ⟨?_, lt_of_lt_of_le hkeep.1 hnext⟩
    cases hr' : (step d api s a).world.outbox.approvals.get i with
    | none => exact hkeep.2
    | some r' =>
      rw [hkeep.2]
      exact congrArg (durableHash d api) (hold _ hkeep.1 r' hr').symm

theorem oneContent_runs {audit : AuditTable} {store : Store} (hstore : ∀ r ∈ store.rows, r.writtenFor = none) (as : List Action) :
    PayloadsBuilt d (runs d api (.initial ⟨.empty, audit, store⟩) as) ∧
      ∃ candidate, OneContent d api candidate (runs d api (.initial ⟨.empty, audit, store⟩) as) := by
  refine run_inv (I := fun s : System => PayloadsBuilt d s ∧ ∃ candidate, OneContent d api candidate s) ?_
    ⟨payloadsBuilt_initial d _, fun _ => "", ?_, ?_, ?_⟩ as
  · rintro s a ⟨hb, candidate, h⟩
    exact ⟨payloadsBuilt_step hb a, oneContent_step h hb a⟩
  · intro i r hr
    cases hr
  · intro t j c hc
    cases hc
  · intro r hr i hi
    rw [hstore r hr] at hi
    cases hi

/-! ## The durable id of an approval -/

/-- A hash that is about to be recorded is not empty. -/
def HashesNamed (s : System) : Prop := ∀ t j c b h, s.calls t = .recording j c b h → h ≠ ""

theorem hashesNamed_step {s : System} (h : HashesNamed s) (a : Action) : HashesNamed (step d api s a) := by
  intro t j c b hash hc
  rcases call_step d api s a t with ⟨he, -⟩ | ⟨st, -, -, he⟩ | ⟨rep, rfl, hm⟩
  · exact h t j c b hash (he ▸ hc)
  · rw [he] at hc
    cases st <;> cases hc
  · have hheld : (Call.recording j c b hash).held ≠ none := by simp [Call.held]
    generalize hs : s.calls t = c0 at hm
    generalize (step d api s (.advance t rep)).calls t = c1 at hm hc
    cases hm with
    | ends he => rw [hc] at he; cases he
    | resolves | cascades => rw [← hc] at hheld; exact absurd (erasing_held (cascadeNext_erasing _ _ _)) hheld
    | sweepsNothing | sweepDeletes => rw [← hc] at hheld; exact absurd (erasing_held (sweepNext_erasing _ _ _)) hheld
    | posts hf ho =>
      cases hc
      rw [Store.post_hash ho]
      exact api.contentHash_ne _
    | finds hl =>
      cases hc
      have hm := findActiveHashByMarker_ok hl
      have : hash ∈ s.world.store.tagged (markerTags (approvalMarker j.args.approvalId) b.tenantId) := by rw [hm]; simp
      obtain ⟨r, -, -, rfl⟩ := Store.mem_tagged.1 this
      exact r.hashed
    | _ => cases hc

/-- The row is finalized under the durable id `h`. -/
def FinalAs (h : String) (r : ApprovalRow) : Prop := r.finalizerState = some .finalized ∧ r.durableMemoryId = some h

/-- **A finalized row keeps its state and its durable id**, unless a hard delete claims it. -/
theorem rowChange_final {s : System} {a : Action} {i : Nat} {r r' : ApprovalRow} {h : String} (hf : FinalAs h r) (hne : h ≠ "")
    (hc : RowChange d s a i r r') (hno : ¬ RtbfClaims d s a i) : FinalAs h r' := by
  obtain ⟨hs, hd⟩ := hf
  have hfin : notFinalized r = false := by simp [notFinalized, hs]
  have hset : settled r = true := by simp [settled, hs, hd, hne]
  cases hc with
  | approved => exact ⟨hs, hd⟩
  | edited he =>
    cases he with
    | reapproved =>
      refine ⟨?_, ?_⟩
      · unfold stampReceipt stampProvenance
        split <;> split <;> exact hs
      · unfold stampReceipt stampProvenance
        split <;> split <;> exact hd
    | kept | sent | decided | resurfaced | backfilled => exact ⟨hs, hd⟩
    | refused ha hc hi hargs hv hn => rw [hfin] at hn; cases hn
    | claimed ha hc hi hcl hv => rw [(rowVerdict_claim hv).2.2.2.1] at hfin; cases hfin
    | recorded ha hc hi ho =>
      rcases ho with ho | ⟨-, ho⟩
      · simp [ownedUnfinalized, hfin] at ho
      · rw [hset] at ho
        cases ho
    | failed ha hc hi ho => simp [ownedUnfinalized, hfin] at ho
    | rtbfClaimed hcl => exact absurd hcl hno

/-- Finalized rows have a durable id. -/
def FinalNamed (s : System) : Prop :=
  ∀ i r, s.world.outbox.approvals.get i = some r → r.finalizerState = some .finalized → ∃ h, h ≠ "" ∧ FinalAs h r

theorem finalNamed_step {s : System} (h : FinalNamed s) (hh : HashesNamed s) (a : Action) : FinalNamed (step d api s a) := by
  intro i r' hr' hs'
  cases hr : s.world.outbox.approvals.get i with
  | none =>
    obtain ⟨-, cj, ca, pr, -, rfl⟩ := row_new d api hr hr'
    cases hs'
  | some r =>
    rcases row_step d api a hr with ⟨q, hq, hc⟩ | ⟨hn, -⟩
    · rw [hr'] at hq
      cases hq
      have keep : r'.finalizerState = r.finalizerState → r'.durableMemoryId = r.durableMemoryId → ∃ h, h ≠ "" ∧ FinalAs h r' := by
        intro h1 h2
        obtain ⟨x, hx, -, hd⟩ := h i r hr (h1 ▸ hs')
        exact ⟨x, hx, hs', h2.trans hd⟩
      cases hc with
      | approved => exact keep rfl rfl
      | edited he =>
        cases he with
        | reapproved =>
          refine keep ?_ ?_
          · unfold stampReceipt stampProvenance
            split <;> split <;> rfl
          · unfold stampReceipt stampProvenance
            split <;> split <;> rfl
        | kept | sent | decided | resurfaced | backfilled => exact keep rfl rfl
        | recorded ha hc hi ho => exact ⟨_, hh _ _ _ _ _ hc, rfl, rfl⟩
        | refused | claimed | failed | rtbfClaimed => cases hs'
    · rw [hn] at hr'
      cases hr'

/-- A finalized row is gone, or finalized under the same id. -/
theorem finalized_runs {s : System} {i : Nat} {r : ApprovalRow} {h : String} (hr : s.world.outbox.approvals.get i = some r)
    (hf : FinalAs h r) (hne : h ≠ "") {bs : List Action} (hno : Along (step d api) (fun s a => ¬ RtbfClaims d s a i) s bs) :
    Gone (runs d api s bs) i ∨ ∃ r', (runs d api s bs).world.outbox.approvals.get i = some r' ∧ FinalAs h r' := by
  refine run_inv_along (I := fun s : System => Gone s i ∨ ∃ r', s.world.outbox.approvals.get i = some r' ∧ FinalAs h r') ?_
    (.inr ⟨r, hr, hf⟩) hno
  rintro s a (hg | ⟨q, hq, hqf⟩) hclaim
  · exact .inl (gone_step hg a)
  · rcases row_step d api a hq with ⟨q', hq', hc⟩ | ⟨hn, -⟩
    · exact .inr ⟨q', hq', rowChange_final hqf hne hc hclaim⟩
    · exact .inl ⟨hn, lt_of_lt_of_le (Table.lt_of_get hq) (nextId_step s a)⟩

/-! ## The report -/

/-- The step is a record transaction for approval `i` that reports `finalized_here`. -/
def FinalizedHere (s : System) (a : Action) (i : Nat) : Prop :=
  ∃ t rep j c built h, a = .advance t rep ∧ s.calls t = .recording j c built h ∧ j.args.approvalId = i ∧
    (recordFinalized s.world.outbox i c.workerId h c.row.memoryEventId rep.now).2.2 = true

/-- What is reported is in the table. -/
theorem finalizedHere_final {s : System} {a : Action} {i : Nat} (hh : HashesNamed s) (hf : FinalizedHere s a i) :
    ∃ h r, h ≠ "" ∧ (step d api s a).world.outbox.approvals.get i = some r ∧ FinalAs h r := by
  obtain ⟨t, rep, j, c, built, h, rfl, hc, rfl, hrep⟩ := hf
  have hne := hh t j c built h hc
  have hw : (step d api s (.advance t rep)).world.outbox =
      (recordFinalized s.world.outbox j.args.approvalId c.workerId h c.row.memoryEventId rep.now).1 := by
    show (advance d api s.world rep (s.calls t)).1.outbox = _
    rw [hc]
    rfl
  rw [hw]
  rcases recordFinalized_cases s.world.outbox j.args.approvalId c.workerId h c.row.memoryEventId rep.now
    with ⟨cur, hr, ho, he⟩ | ⟨-, he⟩ | ⟨cur, -, -, -, he⟩ | ⟨cur, -, -, he⟩ | ⟨cur, hr, -, -, -, he⟩
  · rw [he]
    refine ⟨h, setFinalized h c.workerId cur, hne, ?_, rfl, rfl⟩
    rw [completeEvent_approvals, get_updateApproval _ _ hr, if_pos ⟨rfl, ho⟩]
  · rw [he] at hrep
    cases hrep
  · rw [he] at hrep
    cases hrep
  · rw [he] at hrep
    cases hrep
  · rw [he]
    refine ⟨h, setFinalized h c.workerId cur, hne, ?_, rfl, rfl⟩
    rw [completeEvent_approvals, get_updateApproval _ _ hr, if_pos ⟨rfl, rfl⟩]

/-- A row that is settled, or gone, is not finalized once more. -/
theorem not_finalizedHere {s : System} {a : Action} {i : Nat} {h : String} (hne : h ≠ "")
    (hs : Gone s i ∨ ∃ r, s.world.outbox.approvals.get i = some r ∧ FinalAs h r) : ¬ FinalizedHere s a i := by
  rintro ⟨t, rep, j, c, built, hash, -, hc, rfl, hrep⟩
  rcases recordFinalized_cases s.world.outbox j.args.approvalId c.workerId hash c.row.memoryEventId rep.now
    with ⟨cur, hr, ho, he⟩ | ⟨-, he⟩ | ⟨cur, -, -, -, he⟩ | ⟨cur, -, -, he⟩ | ⟨cur, hr, -, -, hset, he⟩
  · rcases hs with hg | ⟨r, hr', hst, -⟩
    · rw [hg.1] at hr
      cases hr
    · rw [hr] at hr'
      cases hr'
      simp [ownedUnfinalized, notFinalized, hst] at ho
  · rw [he] at hrep
    cases hrep
  · rw [he] at hrep
    cases hrep
  · rw [he] at hrep
    cases hrep
  · rcases hs with hg | ⟨r, hr', hst, hd⟩
    · rw [hg.1] at hr
      cases hr
    · rw [hr] at hr'
      cases hr'
      simp [settled, hst, hd, hne] at hset

/-- **One durable row per approval.** In every state of a run from an empty outbox, with any number of finalize calls,
workers and lease expiries: at most one active row was written for an approval; a row that is finalized under a durable
id keeps the state and the id in every continuation in which no hard delete claims it, as long as it is there; and
after a call has reported `finalized_here` no other does before a hard delete claims the row. -/
theorem oneDurableRow (d : Deployment) (api : StoreApi) (audit : AuditTable) (store : Store) (as : List Action)
    (hstore : ∀ r ∈ store.rows, r.writtenFor = none) :
    let s := runs d api (.initial ⟨.empty, audit, store⟩) as
    (∀ i r q, r ∈ s.world.store.rows → q ∈ s.world.store.rows → r.writtenFor = some i → q.writtenFor = some i → r = q) ∧
    (∀ bs i r r' h, s.world.outbox.approvals.get i = some r → r.finalizerState = some .finalized →
      r.durableMemoryId = some h → Along (step d api) (fun s a => ¬ RtbfClaims d s a i) s bs →
      (runs d api s bs).world.outbox.approvals.get i = some r' →
      r'.finalizerState = some .finalized ∧ r'.durableMemoryId = some h) ∧
    (∀ a bs b i, FinalizedHere s a i → Along (step d api) (fun s a => ¬ RtbfClaims d s a i) (step d api s a) bs →
      ¬ FinalizedHere (runs d api (step d api s a) bs) b i) := by
  have hcontent : PayloadsBuilt d (runs d api (.initial ⟨.empty, audit, store⟩) as) ∧
      ∃ candidate, OneContent d api candidate (runs d api (.initial ⟨.empty, audit, store⟩) as) := oneContent_runs hstore as
  obtain ⟨-, candidate, hone⟩ := hcontent
  have hrec : HashesNamed (runs d api (.initial ⟨.empty, audit, store⟩) as) ∧
      FinalNamed (runs d api (.initial ⟨.empty, audit, store⟩) as) := by
    refine run_inv (I := fun s : System => HashesNamed s ∧ FinalNamed s) ?_ ⟨?_, ?_⟩ as
    · rintro s a ⟨h1, h2⟩
      exact ⟨hashesNamed_step h1 a, finalNamed_step h2 h1 a⟩
    · intro t j c b h hc
      cases hc
    · intro i r hr
      cases hr
  refine ⟨?_, ?_, ?_⟩
  · intro i r q hr hq hri hqi
    refine Store.eq_of_hash hr hq ?_
    rw [(hone.written r hr i hri).1, (hone.written q hq i hqi).1]
  · intro bs i r r' h hr hst hd hno hr'
    obtain ⟨x, hx, -, hdx⟩ := hrec.2 i r hr hst
    rw [hd] at hdx
    cases hdx
    rcases finalized_runs hr ⟨hst, hd⟩ hx hno with hg | ⟨q, hq, hqf⟩
    · rw [hg.1] at hr'
      cases hr'
    · rw [hr'] at hq
      cases hq
      exact hqf
  · intro a bs b i hf hno
    have hfinal : ∃ h r, h ≠ "" ∧ (step d api _ a).world.outbox.approvals.get i = some r ∧ FinalAs h r :=
      finalizedHere_final hrec.1 hf
    obtain ⟨h, r, hne, hr, hfin⟩ := hfinal
    exact not_finalizedHere hne (finalized_runs hr hfin hne hno)

theorem oneDurableRow_sample :
    (∀ r ∈ Store.empty.rows, r.writtenFor = none) ∧
    ∀ i r q, r ∈ (sampleRun [.op (.enqueue sampleCandidate "t0" none)]).world.store.rows →
      q ∈ (sampleRun [.op (.enqueue sampleCandidate "t0" none)]).world.store.rows →
      r.writtenFor = some i → q.writtenFor = some i → r = q :=
  ⟨by simp [Store.empty], (oneDurableRow sampleDeployment sampleStoreApi .empty .empty
    [.op (.enqueue sampleCandidate "t0" none)] (by simp [Store.empty])).1⟩

end Panella

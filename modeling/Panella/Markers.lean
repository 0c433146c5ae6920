import Panella.OneDurableRow
import Panella.SourceKeys

/-!
# Approval markers

The durable row of approval `i` carries the tag `approval_ref:i`. The recovery of a lost content hash and the marker
sweep of a hard delete look a row up by that tag alone and act on the one they find, so nothing else may carry it:
**`MarkersOwn`**. The store checks none of this. `_strip_reserved_tags` takes markers out of a candidate before its
tags are joined and split, and a direct write takes them out of nothing: `Plants` is a write that leaves one in the
store, and **`markersOwn_iff`** says that nothing else breaks the property.
-/

namespace Panella

open Machine PyJson

variable {d : Deployment} {api : StoreApi}

/-! ## The writers -/

/-- A `MemoryClient.write` that reaches the store, under any profile. -/
structure DirectWrite (d : Deployment) where
  profile : AgentProfile
  principal : Principal
  quota : QuotaState
  clock : WriteClock
  call : WriteCall
  body : MemoryBody
  posted : write d profile principal quota clock call = .ok (.posted body)

/-- A direct write, or any step that is not a write of a row from nowhere. -/
inductive WriterAction (d : Deployment)
  | direct (w : DirectWrite d)
  | system (a : Action) (h : ∀ row, a ≠ .op (.put row))

def WriterAction.action (api : StoreApi) : WriterAction d → Action
  | .direct w => .op (.put (rowOf api w.body none))
  | .system a _ => a

def writerStep (d : Deployment) (api : StoreApi) (s : System) (l : WriterAction d) : System := step d api s (l.action api)

theorem write_content {p : AgentProfile} {pr : Principal} {q : QuotaState} {clk : WriteClock} {c : WriteCall}
    {body : MemoryBody} (h : write d p pr q clk c = .ok (.posted body)) : body.content = d.sanitize (d.sanitize c.content) := by
  have hp : { p with approvalRequiredFor := p.approvalRequiredFor } = p := rfl
  rw [← hp] at h
  obtain ⟨a, ha, -, hb⟩ := write_posted_iff.1 h
  obtain ⟨tenantId, infer, -, -, -, rfl⟩ := prepareWrite_ok ha
  unfold addMemoryBody at hb
  simp only at hb
  split at hb
  · cases hb
  · split at hb
    · cases hb
    · cases hb
      rfl

/-! ## Whose marker -/

/-- **Markers are unique**: a row with the marker of an approval was written by the finalizer for it, so that a lookup
is never ambiguous, and what the recovery records and the sweep deletes is the approval's own. -/
structure MarkersOwn (d : Deployment) (api : StoreApi) (s : System) : Prop where
  unique : ∀ i r q, r ∈ s.world.store.rows → q ∈ s.world.store.rows → approvalMarker i ∈ r.tags → approvalMarker i ∈ q.tags →
    r = q
  owner : ∀ i r, r ∈ s.world.store.rows → approvalMarker i ∈ r.tags → r.writtenFor = some i
  unambiguous : ∀ i tenantId, ∃ o, findActiveHashByMarker d s.world.store (approvalMarker i) tenantId none = .ok o
  found : ∀ i tenantId fault h r, findActiveHashByMarker d s.world.store (approvalMarker i) tenantId fault = .ok (some h) →
    r ∈ s.world.store.rows → r.contentHash = h → r.writtenFor = some i
  swept : ∀ i tenantId fault h reply r, findActiveHashByMarker d s.world.store (approvalMarker i) tenantId fault = .ok (some h) →
    r ∈ s.world.store.rows → r ∉ (s.world.store.delete h reply).1.rows → r.writtenFor = some i
  recorded : ∀ t j c b h, s.calls t = .recording j c b h → h = durableHash d api c.row.candidateJson
  durable : ∀ i r h, s.world.outbox.approvals.get i = some r → r.durableMemoryId = some h →
    h = durableHash d api r.candidateJson

/-- **A marker is planted**: a content that is not in the store yet is stored under the marker of another approval. -/
inductive Plants (d : Deployment) (api : StoreApi) (s : System) : WriterAction d → Prop
  /-- A label or a tag of a direct write comes apart into a marker. -/
  | direct {w : DirectWrite d} {i : Nat} {tenantId : String}
      (hfree : s.world.store.active (api.contentHash (d.sanitize (d.sanitize w.call.content))) = false)
      (htenant : resolveWriteTenantId d w.profile w.principal w.clock.now (Dict.get w.call.metadata "tenant_id") = .ok tenantId)
      (hm : Mentions d (· = approvalMarker i) (requestLabels d w.profile w.call tenantId) (Dict.get w.call.metadata "tags")) :
      Plants d api s (.direct w)
  /-- A label or a carried tag of a candidate comes apart into a marker. -/
  | candidate {t i : Nat} {rep : Reply} {h : ∀ row, Action.advance t rep ≠ .op (.put row)} {j : Job} {c : Claim}
      {built : DurablePayload} {body : MemoryBody} {cand : Dict} (hc : s.calls t = .posting j c built)
      (hf : finalizeWrite d d.finalizerProfile built ("approval:" ++ toString j.args.approvalId) = .ok body)
      (hstores : rep.post.stores = true) (hfree : s.world.store.active (durableHash d api c.row.candidateJson) = false)
      (hload : d.loads c.row.candidateJson = .ok (.obj cand)) (hi : i ≠ j.args.approvalId)
      (hm : ∃ tag ∈ durableLabels d cand j.args.approvalId ++ carriedTags cand, approvalMarker i ∈ storedTag tag) :
      Plants d api s (.system (.advance t rep) h)

/-! ## What follows from the owner -/

/-- What a lookup by a marker finds has the marker. -/
theorem lookup_marked {st : Store} {marker tenantId : String} {fault : Option PyErr} {h : String}
    (hl : findActiveHashByMarker d st marker tenantId fault = .ok (some h)) :
    ∃ r ∈ st.rows, marker ∈ r.tags ∧ r.contentHash = h := by
  have hm : h ∈ st.tagged (markerTags marker tenantId) := by
    rw [findActiveHashByMarker_ok hl]
    simp
  obtain ⟨r, hr, ht, rfl⟩ := Store.mem_tagged.1 hm
  refine ⟨r, hr, ?_, rfl⟩
  have := List.all_eq_true.1 ht marker (mem_markerTags marker tenantId)
  simpa using this

/-- Where no two rows share a marker, a lookup that is answered does not raise. -/
theorem lookup_unambiguous {st : Store} {marker : String} (tenantId : String)
    (hu : ∀ r q, r ∈ st.rows → q ∈ st.rows → marker ∈ r.tags → marker ∈ q.tags → r = q) :
    ∃ o, findActiveHashByMarker d st marker tenantId none = .ok o := by
  have hsame : ∀ a ∈ st.tagged (markerTags marker tenantId), ∀ b ∈ st.tagged (markerTags marker tenantId), a = b := by
    intro a ha b hb
    obtain ⟨r, hr, hrt, rfl⟩ := Store.mem_tagged.1 ha
    obtain ⟨q, hq, hqt, rfl⟩ := Store.mem_tagged.1 hb
    have hrm := List.all_eq_true.1 hrt marker (mem_markerTags marker tenantId)
    have hqm := List.all_eq_true.1 hqt marker (mem_markerTags marker tenantId)
    rw [hu r q hr hq (by simpa using hrm) (by simpa using hqm)]
  have hnodup := Store.nodup_tagged st (markerTags marker tenantId)
  unfold findActiveHashByMarker
  cases hl : st.tagged (markerTags marker tenantId) with
  | nil => exact ⟨none, rfl⟩
  | cons a l =>
    cases l with
    | nil => exact ⟨some a, rfl⟩
    | cons b l =>
      rw [hl] at hsame hnodup
      have hab : a = b := hsame a (by simp) b (by simp)
      simp [hab] at hnodup

/-- Everything else goes back to the owner, where all that is written for an approval has one content. -/
theorem MarkersOwn.of_owner {s : System} {candidate : Nat → String} (hone : OneContent d api candidate s)
    (owner : ∀ i r, r ∈ s.world.store.rows → approvalMarker i ∈ r.tags → r.writtenFor = some i)
    (recorded : ∀ t j c b h, s.calls t = .recording j c b h → h = durableHash d api c.row.candidateJson)
    (durable : ∀ i r h, s.world.outbox.approvals.get i = some r → r.durableMemoryId = some h →
      h = durableHash d api r.candidateJson) : MarkersOwn d api s := by
  have unique : ∀ i r q, r ∈ s.world.store.rows → q ∈ s.world.store.rows → approvalMarker i ∈ r.tags →
      approvalMarker i ∈ q.tags → r = q := by
    intro i r q hr hq hri hqi
    refine Store.eq_of_hash hr hq ?_
    rw [(hone.written r hr i (owner i r hr hri)).1, (hone.written q hq i (owner i q hq hqi)).1]
  have found : ∀ i tenantId fault h r,
      findActiveHashByMarker d s.world.store (approvalMarker i) tenantId fault = .ok (some h) →
      r ∈ s.world.store.rows → r.contentHash = h → r.writtenFor = some i := by
    intro i tenantId fault h r hl hr hh
    obtain ⟨q, hq, hqm, hqh⟩ := lookup_marked hl
    rw [Store.eq_of_hash hr hq (hh.trans hqh.symm)]
    exact owner i q hq hqm
  refine ⟨unique, owner, fun i tenantId => lookup_unambiguous tenantId (unique i), found, ?_, recorded, durable⟩
  intro i tenantId fault h reply r hl hr hgone
  refine found i tenantId fault h r hl hr ?_
  by_contra hne
  have hkeep : r ∈ (s.world.store.remove h).rows := Store.mem_remove.2 ⟨hr, hne⟩
  cases reply with
  | unsuccessful => exact hgone hr
  | undeleted e => exact hgone hr
  | answered => exact hgone hkeep
  | retried => exact hgone hkeep
  | lost e => exact hgone hkeep

/-! ## One step -/

/-- **The hash a call is about to record is its own content's.** -/
theorem recorded_step {s : System} {candidate : Nat → String} (h : MarkersOwn d api s) (hb : PayloadsBuilt d s)
    (hone : OneContent d api candidate s) (a : Action) {t : Nat} {j : Job} {c : Claim} {b : DurablePayload} {hash : String}
    (hc : (step d api s a).calls t = .recording j c b hash) : hash = durableHash d api c.row.candidateJson := by
  rcases call_step d api s a t with ⟨he, -⟩ | ⟨st, -, -, he⟩ | ⟨rep, rfl, hm⟩
  · exact h.recorded t j c b hash (he ▸ hc)
  · rw [he] at hc
    cases st <;> cases hc
  · have hheld : (Call.recording j c b hash).held ≠ none := by simp [Call.held]
    generalize hs : s.calls t = c0 at hm
    generalize (step d api s (.advance t rep)).calls t = c1 at hm hc
    cases hm with
    | ends he => rw [hc] at he; cases he
    | resolves | cascades => rw [← hc] at hheld; exact absurd (erasing_held (cascadeNext_erasing _ _ _)) hheld
    | sweepsNothing | sweepDeletes => rw [← hc] at hheld; exact absurd (erasing_held (sweepNext_erasing _ _ _)) hheld
    | posts hf ho =>
      cases hc
      rw [Store.post_hash ho]
      exact posting_hash hb hs hf
    | finds hl =>
      cases hc
      obtain ⟨r, hr, hrm, rfl⟩ := lookup_marked hl
      rw [(hone.written r hr _ (h.owner _ r hr hrm)).1, (hone.claims t j c (by rw [hs]; rfl)).1]
    | _ => cases hc

/-- **The durable id of an approval is the hash of its own content.** -/
theorem durable_step {s : System} {candidate : Nat → String} (h : MarkersOwn d api s) (hone : OneContent d api candidate s)
    (a : Action) {i : Nat} {r' : ApprovalRow} {hash : String} (hr' : (step d api s a).world.outbox.approvals.get i = some r')
    (hd : r'.durableMemoryId = some hash) : hash = durableHash d api r'.candidateJson := by
  cases hr : s.world.outbox.approvals.get i with
  | none =>
    obtain ⟨-, candidateJson, createdAt, profile, -, rfl⟩ := row_new d api hr hr'
    cases hd
  | some r =>
    rcases row_step d api a hr with ⟨q, hq, hc⟩ | ⟨hn, -⟩
    · rw [hr'] at hq
      cases hq
      have keep : r'.durableMemoryId = r.durableMemoryId → hash = durableHash d api r'.candidateJson := by
        intro hsame
        rw [rowChange_candidate hc]
        exact h.durable i r hash hr (hsame ▸ hd)
      cases hc with
      | approved => exact keep rfl
      | edited he =>
        cases he with
        | reapproved =>
          refine keep ?_
          unfold stampReceipt stampProvenance
          split <;> split <;> rfl
        | recorded ha hcall hi ho =>
          cases hd
          subst hi
          have hheld := hone.claims _ _ _ (congrArg Call.held hcall)
          rw [h.recorded _ _ _ _ _ hcall, hheld.1]
          exact congrArg (durableHash d api) (hone.rows _ r hr).symm
        | kept | sent | decided | resurfaced | backfilled | refused | claimed | failed | rtbfClaimed => exact keep rfl
    · rw [hn] at hr'
      cases hr'

/-- The durable row of a posting call, and the kinds of tags it has. -/
theorem posting_tags {s : System} {t : Nat} {j : Job} {c : Claim} {built : DurablePayload} {body : MemoryBody}
    (hb : PayloadsBuilt d s) (hc : s.calls t = .posting j c built)
    (hf : finalizeWrite d d.finalizerProfile built ("approval:" ++ toString j.args.approvalId) = .ok body) :
    ∃ cand, d.loads c.row.candidateJson = .ok (.obj cand) ∧ ∀ P : String → Prop, (∃ u ∈ storedTags body.tags, P u) ↔
      ∃ tag ∈ durableLabels d cand j.args.approvalId ++ carriedTags cand, ∃ u ∈ storedTag tag, P u := by
  obtain ⟨j', c', now, hheld, hrec⟩ := hb t built (by rw [hc]; rfl)
  rw [hc] at hheld
  cases hheld
  obtain ⟨cand, hload, rfl⟩ := reconstruct_ok hrec
  exact ⟨cand, hload, durable_pieces (finalizeWrite_durable hf)⟩

/-- **A row with somebody else's marker appears exactly in a step that plants it.** -/
theorem owner_step {s : System} (h : MarkersOwn d api s) (hb : PayloadsBuilt d s) (l : WriterAction d) :
    (∀ i r, r ∈ (writerStep d api s l).world.store.rows → approvalMarker i ∈ r.tags → r.writtenFor = some i) ↔
      ¬ Plants d api s l := by
  constructor
  · intro howner hp
    cases hp with
    | @direct w i tenantId hfree htenant hm =>
      obtain ⟨tenantId', htenant', -, hiff⟩ := write_mentions w.posted (· = approvalMarker i)
      rw [htenant] at htenant'
      cases htenant'
      obtain ⟨u, hu, rfl⟩ := hiff.2 hm
      have hnew : rowOf api w.body none ∈ (writerStep d api s (.direct w)).world.store.rows := by
        refine Store.mem_insert.2 (.inr ⟨rfl, ?_⟩)
        show s.world.store.active (api.contentHash w.body.content) = false
        rw [write_content w.posted]
        exact hfree
      cases howner i _ hnew hu
    | @candidate t i rep hput j c built body cand hc hf hstores hfree hload hi hm =>
      obtain ⟨cand', hload', htags⟩ := posting_tags hb hc hf
      rw [hload] at hload'
      cases hload'
      obtain ⟨tag, htag, hu⟩ := hm
      obtain ⟨u, hu, rfl⟩ := (htags (· = approvalMarker i)).2 ⟨tag, htag, _, hu, rfl⟩
      have hnew : rowOf api body (some j.args.approvalId) ∈
          (writerStep d api s (.system (.advance t rep) hput)).world.store.rows := by
        show _ ∈ (advance d api s.world rep (s.calls t)).1.store.rows
        rw [hc]
        simp only [advance, advancePosting, hf]
        refine Store.mem_post_self hstores ?_
        show s.world.store.active (api.contentHash body.content) = false
        rw [posting_hash hb hc hf]
        exact hfree
      have := howner i _ hnew hu
      exact hi (Option.some.inj this).symm
  · intro hp i r hr hm
    cases l with
    | direct w =>
      rcases store_new d api hr with hold | ⟨row, ha, rfl, hfree⟩ | ⟨t, rep, j, c, built, body, ha, -⟩
      · exact h.owner i r hold hm
      · obtain rfl : rowOf api w.body none = row := by injection ha with ha; injection ha
        obtain ⟨tenantId, htenant, -, hiff⟩ := write_mentions w.posted (· = approvalMarker i)
        refine absurd (Plants.direct ?_ htenant (hiff.1 ⟨_, hm, rfl⟩)) hp
        rw [← write_content w.posted]
        exact hfree
      · cases ha
    | system a hput =>
      rcases store_new d api hr with hold | ⟨row, ha, -⟩ | ⟨t, rep, j, c, built, body, rfl, hc, hf, rfl, hfree⟩
      · exact h.owner i r hold hm
      · exact absurd ha (hput row)
      · by_cases hi : i = j.args.approvalId
        · rw [hi]
          rfl
        · obtain ⟨cand, hload, htags⟩ := posting_tags hb hc hf
          obtain ⟨tag, htag, u, hu, rfl⟩ := (htags (· = approvalMarker i)).1 ⟨_, hm, rfl⟩
          have hfree : s.world.store.active (api.contentHash body.content) = false := hfree
          rw [posting_hash hb hc hf] at hfree
          by_cases hstores : rep.post.stores = true
          · exact absurd (Plants.candidate hc hf hstores hfree hload hi ⟨tag, htag, hu⟩) hp
          · have hsame : (writerStep d api s (.system (.advance t rep) hput)).world.store = s.world.store := by
              show (advance d api s.world rep (s.calls t)).1.store = _
              rw [hc]
              simp only [advance, advancePosting, hf]
              cases hpost : rep.post with
              | unstored e => rfl
              | answered | retried | lost => rw [hpost] at hstores; exact absurd rfl hstores
            rw [hsame] at hr
            exact h.owner i _ hr hm

/-! ## Over a run -/

/-- What the rows and calls of an approval go back to. -/
def MarkerBase (d : Deployment) (api : StoreApi) (s : System) : Prop :=
  PayloadsBuilt d s ∧ ∃ candidate, OneContent d api candidate s

theorem markersOwn_step {s : System} (hbase : MarkerBase d api s) (h : MarkersOwn d api s) (l : WriterAction d) :
    MarkersOwn d api (writerStep d api s l) ↔ ¬ Plants d api s l := by
  obtain ⟨hb, candidate, hone⟩ := hbase
  rw [← owner_step h hb l]
  constructor
  · intro h'
    exact h'.owner
  · intro howner
    obtain ⟨candidate', hone'⟩ := oneContent_step hone hb (l.action api)
    refine .of_owner hone' howner ?_ ?_
    · intro t j c b hash hc
      exact recorded_step h hb hone _ hc
    · intro i r hash hr hd
      exact durable_step h hone _ hr hd

/-- **When approval markers are unique.** In a run of direct writes, finalizers and any other calls and operations, from
an empty outbox and a store without markers, the markers are unique in every state if and only if no write plants one. -/
theorem markersOwn_iff (d : Deployment) (api : StoreApi) (audit : AuditTable) (store : Store) (ls : List (WriterAction d))
    (hstore : ∀ r ∈ store.rows, r.writtenFor = none ∧ ∀ i, approvalMarker i ∉ r.tags) :
    (∀ cs, cs <+: ls → MarkersOwn d api (run (writerStep d api) (.initial ⟨.empty, audit, store⟩) cs)) ↔
      Along (writerStep d api) (fun s l => ¬ Plants d api s l) (.initial ⟨.empty, audit, store⟩) ls := by
  have hone : OneContent d api (fun _ => "") (.initial ⟨.empty, audit, store⟩) := by
    refine ⟨?_, ?_, ?_⟩
    · intro i r hr
      cases hr
    · intro t j c hc
      cases hc
    · intro r hr i hi
      rw [(hstore r hr).1] at hi
      cases hi
  refine prefixes_iff_along (J := MarkerBase d api) (H := fun _ _ => True) ?_ ?_ ⟨payloadsBuilt_initial d _, _, hone⟩ ?_
    (along_of_forall (fun _ _ => trivial) _ _)
  · rintro s l ⟨hb, candidate, h⟩ -
    exact ⟨payloadsBuilt_step hb _, oneContent_step h hb _⟩
  · intro s l hbase h _
    exact markersOwn_step hbase h l
  · refine .of_owner hone ?_ ?_ ?_
    · intro i r hr hm
      exact absurd hm ((hstore r hr).2 i)
    · intro t j c b h hc
      cases hc
    · intro i r h hr
      cases hr

/-! ## A planted marker -/

/-- A caller tags its own note with the marker of approval 1. -/
def plantedCall : WriteCall := ⟨"tea", "inbox", "note", none, [("tags", .arr [.str "approval_ref:1"])]⟩

theorem plantedCall_posted : ∃ body,
    write plainDeployment notesProfile notesAgent ⟨0, 0, []⟩ quietClock plantedCall = .ok (.posted body) ∧
      body.tags = ["permanent", "status:active", "wing:notes", "room:inbox", "agent:notes", "mtype:note",
        "tenant:t_default", "approval_ref:1"].map .str := by
  obtain ⟨a, body, ha, hb, htags⟩ : ∃ a body,
      prepareWrite plainDeployment notesProfile notesAgent ⟨0, 0, []⟩ quietClock plantedCall = .ok a ∧
        addMemoryBody plainDeployment a.wing a.room a.content a.metadata true none = .ok body ∧
        body.tags = ["permanent", "status:active", "wing:notes", "room:inbox", "agent:notes", "mtype:note",
          "tenant:t_default", "approval_ref:1"].map .str := by
    refine ⟨_, _, rfl, rfl, ?_⟩
    rfl
  obtain ⟨h1, h2⟩ := prepareWrite_pair ha
  have hgate : matchesAny (writePath a.wing a.room) ["private/*"] = false := by
    rw [h1, h2]
    decide
  exact ⟨body, write_posted_iff.2 ⟨a, ha, hgate, hb⟩, htags⟩

theorem markersOwn_sample : ∃ w : DirectWrite plainDeployment, w.call = plantedCall ∧
    ((∀ cs, cs <+: [WriterAction.direct w] → MarkersOwn plainDeployment sampleStoreApi
        (run (writerStep plainDeployment sampleStoreApi) (.initial ⟨.empty, .empty, .empty⟩) cs)) ↔
      Along (writerStep plainDeployment sampleStoreApi) (fun s l => ¬ Plants plainDeployment sampleStoreApi s l)
        (.initial ⟨.empty, .empty, .empty⟩) [.direct w]) := by
  obtain ⟨body, hbody, -⟩ := plantedCall_posted
  exact ⟨⟨_, _, _, _, _, body, hbody⟩, rfl,
    markersOwn_iff plainDeployment sampleStoreApi .empty .empty [.direct ⟨_, _, _, _, _, body, hbody⟩]
      (fun r hr => absurd hr List.not_mem_nil)⟩

/-- **A marker planted by a direct write**: the note is what a lookup by the marker of approval 1 finds, so the sweep of
that approval deletes it, and no approval has ever been queued. -/
theorem plantedMarker_found : ∃ w : DirectWrite plainDeployment, w.call = plantedCall ∧
    findActiveHashByMarker plainDeployment
      (writerStep plainDeployment sampleStoreApi (.initial ⟨.empty, .empty, .empty⟩) (.direct w)).world.store
      (approvalMarker 1) "t_default" none = .ok (some (rowOf sampleStoreApi w.body none).contentHash) ∧
    ¬ MarkersOwn plainDeployment sampleStoreApi
      (writerStep plainDeployment sampleStoreApi (.initial ⟨.empty, .empty, .empty⟩) (.direct w)) := by
  obtain ⟨body, hbody, htags⟩ := plantedCall_posted
  have hmatch : (rowOf sampleStoreApi body none).hasTags (markerTags (approvalMarker 1) "t_default") = true := by
    show (markerTags (approvalMarker 1) "t_default").all (storedTags body.tags).contains = true
    rw [htags]
    decide
  have hrows : (Store.empty.insert (rowOf sampleStoreApi body none)).rows = [rowOf sampleStoreApi body none] := rfl
  have hfound : findActiveHashByMarker plainDeployment (Store.empty.insert (rowOf sampleStoreApi body none))
      (approvalMarker 1) "t_default" none = .ok (some (rowOf sampleStoreApi body none).contentHash) := by
    simp [findActiveHashByMarker, Store.tagged, hrows, hmatch]
  refine ⟨⟨_, _, _, _, _, body, hbody⟩, rfl, hfound, fun h => ?_⟩
  have howner := h.found 1 "t_default" none _ (rowOf sampleStoreApi body none) hfound (List.mem_singleton_self _) rfl
  cases howner

end Panella

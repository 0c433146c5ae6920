import Panella.GovernedPaths

/-!
# The tenant a write is read under

The tenant of a write is in the metadata, in a tag and in the filter of a search; a read goes by the metadata first. So the
tenant, the wing and the room that `add_memory` puts last into the metadata decide, unless one of them is empty: no principal
has an empty tenant, but a profile may have an empty default room.

Main theorem `write_stays_home`.
-/

namespace Panella

open Fallible PyJson

/-! ## Principals -/

theorem postInit_tenant {d : Deployment} {pr : Principal} (h : pr.postInit d = .ok ()) : pr.tenantId ≠ "" := by
  obtain ⟨⟨⟩, htenant, -⟩ := bind_ok h
  rintro hempty
  rw [validateIdentityId, hempty] at htenant
  cases htenant

theorem validateIdentityId_iff {d : Deployment} {value field : String} :
    validateIdentityId d value field false false = .ok () ↔ identityShape value = true := by
  unfold validateIdentityId
  split
  · next hstar =>
    rw [hstar]
    constructor
    · intro h
      cases h
    · intro h
      exact absurd h (by decide)
  · split
    · next hshape => exact iff_of_true rfl hshape
    · next hshape =>
      constructor
      · intro h
        cases h
      · intro h
        exact absurd h hshape

/-- What the principal of a profile is. -/
theorem principalDefault_ok {d : Deployment} {p : AgentProfile} {pr : Principal} (h : principalDefaultForProfile d p = .ok pr) :
    pr.rootFlag = false ∧ pr.tenantId = p.tenantScope.headD d.defaultTenantId ∧ pr.postInit d = .ok () := by
  unfold principalDefaultForProfile at h
  simp only at h
  split at h
  · cases h
  · cases hpost : Principal.postInit d ⟨"agent:" ++ p.name ++ "@" ++ p.tenantScope.headD d.defaultTenantId,
        p.tenantScope.headD d.defaultTenantId, d.defaultSubjectId, ["memory.read", "memory.write"], false, none⟩ with
    | error e =>
      rw [hpost] at h
      cases h
    | ok u =>
      rw [hpost] at h
      cases h
      exact ⟨rfl, rfl, hpost⟩

/-- **A profile has a principal** exactly where its first tenant and the deployment's subject are identities. -/
theorem principalDefault_iff {d : Deployment} {p : AgentProfile} :
    (∃ pr, principalDefaultForProfile d p = .ok pr) ↔
      identityShape (p.tenantScope.headD d.defaultTenantId) = true ∧ identityShape d.defaultSubjectId = true := by
  constructor
  · rintro ⟨pr, h⟩
    unfold principalDefaultForProfile at h
    simp only at h
    split at h
    · cases h
    · next hstar =>
      cases hpost : Principal.postInit d ⟨"agent:" ++ p.name ++ "@" ++ p.tenantScope.headD d.defaultTenantId,
          p.tenantScope.headD d.defaultTenantId, d.defaultSubjectId, ["memory.read", "memory.write"], false, none⟩ with
      | error e =>
        rw [hpost] at h
        cases h
      | ok u =>
        obtain ⟨⟨⟩, htenant, hpost⟩ := bind_ok hpost
        obtain ⟨⟨⟩, hsubject, -⟩ := bind_ok hpost
        refine ⟨?_, validateIdentityId_iff.1 hsubject⟩
        simp only [validateIdentityId, if_neg hstar] at htenant
        by_contra hshape
        rw [if_neg hshape] at htenant
        cases htenant
  · rintro ⟨htenant, hsubject⟩
    have hstar : p.tenantScope.headD d.defaultTenantId ≠ "*" := by
      intro he
      rw [he] at htenant
      exact absurd htenant (by decide)
    have hsubjectOk : validateIdentityId d d.defaultSubjectId "subject_id" false false = .ok () :=
      validateIdentityId_iff.2 hsubject
    have htenantOk : validateIdentityId d (p.tenantScope.headD d.defaultTenantId) "tenant_id" true false = .ok () := by
      rw [validateIdentityId, if_neg hstar, if_pos htenant]
    have hwild : (p.tenantScope.headD d.defaultTenantId = "*" && !false) = false := by
      simpa using hstar
    refine ⟨⟨"agent:" ++ p.name ++ "@" ++ p.tenantScope.headD d.defaultTenantId, p.tenantScope.headD d.defaultTenantId,
      d.defaultSubjectId, ["memory.read", "memory.write"], false, none⟩, ?_⟩
    unfold principalDefaultForProfile
    simp only [if_neg hstar, Principal.postInit, htenantOk, hsubjectOk]
    simp only [bind, Except.bind, hwild, Bool.false_eq_true, if_false]
    rfl

/-! ## What is handed over -/

section
variable {d : Deployment} {p : AgentProfile} {pr : Principal} {q : QuotaState} {clk : WriteClock} {c : WriteCall}

/-- Without break-glass a write is for the tenant of its principal. -/
theorem resolveWriteTenantId_own {now : Instant} {requested : Json} {tenantId : String}
    (h : resolveWriteTenantId d p pr now requested = .ok tenantId) (hbg : pr.isRootWithBreakGlass now = false) :
    tenantId = pr.tenantId := by
  obtain ⟨ids, hids, h⟩ := bind_ok h
  obtain ⟨hstar, rfl⟩ : pr.tenantId ≠ "*" ∧ ids = [pr.tenantId] := by
    unfold tenantIds at hids
    split at hids
    · rw [hbg] at hids
      cases hids
    · next hstar =>
      split at hids
      · cases hids
        exact ⟨hstar, rfl⟩
      · cases hids
  have hown : (if "*" ∈ [pr.tenantId] then d.defaultTenantId else [pr.tenantId].headD "") = pr.tenantId := by
    rw [if_neg (by simpa using fun e : "*" = pr.tenantId => hstar e.symm)]
    rfl
  simp only [hown, hbg] at h
  split at h
  · exact (Except.ok.inj h).symm
  · split at h
    · contradiction
    · split at h
      · cases h
      · exact (Except.ok.inj h).symm

theorem prepareWrite_tenant {a : PreparedWrite} (h : prepareWrite d p pr q clk c = .ok a)
    (hbg : pr.isRootWithBreakGlass clk.now = false) : Dict.get a.metadata "tenant_id" = .str pr.tenantId := by
  obtain ⟨tenantId, infer, htenant, -, -, rfl⟩ := prepareWrite_ok h
  rw [← resolveWriteTenantId_own htenant hbg]
  simp [payloadMetadata, Dict.merge, Dict.get_set]

/-- A body that is POSTed carries the wing and the room of the call. -/
theorem posted_pair {body : MemoryBody} (h : write d p pr q clk c = .ok (.posted body)) :
    Dict.get body.metadata "wing" = .str (effectiveWing d p c) ∧ Dict.get body.metadata "room" = .str (effectiveRoom p c) := by
  obtain ⟨a, ha, -, hbody⟩ := write_posted_iff.1 h
  obtain ⟨hw, hr⟩ := prepareWrite_pair ha
  rw [← hw, ← hr]
  exact body_pair hbody

/-- Whatever the caller's metadata, the body carries the tenant, the wing and the room it was built for. -/
theorem body_tenant {wing room content : String} {metadata : Dict} {sani : Bool} {cid : Option String} {body : MemoryBody}
    {tenantId : String} (h : addMemoryBody d wing room content metadata sani cid = .ok body)
    (ht : Dict.get metadata "tenant_id" = .str tenantId) (hne : tenantId ≠ "") :
    Dict.get body.metadata "tenant_id" = .str tenantId := by
  unfold addMemoryBody at h
  simp only [ht, Json.orElse_str hne, Deployment.str_str] at h
  split at h
  · cases h
  · split at h
    · cases h
    · cases h
      simp [Dict.merge, Dict.get_set]

/-- A field of the metadata is read back where it is not empty; else a tag or a constant stands in, which is not. -/
theorem readBack_field_iff (tags : List Json) (key : String) {s fallback : String} (hf : fallback ≠ "") :
    d.str (((Json.str s).orElse (parseNamespacedTag tags key)).orElse (.str fallback)) = s ↔ s ≠ "" := by
  constructor
  · rintro h rfl
    have hempty : (Json.str "").truthy = false := by decide
    simp only [Json.orElse, hempty, Bool.false_eq_true, if_false] at h
    split at h
    · next htag =>
      obtain hnull | ⟨t, -, -, ht⟩ := parseNamespacedTag_cases tags key
      · rw [hnull] at htag
        cases htag
      · rw [ht, Deployment.str_str] at h
        rw [ht, h] at htag
        cases htag
    · exact hf h
  · intro hs
    rw [Json.orElse_str hs, Json.orElse_str hs, Deployment.str_str]

/-- A row read by its metadata has the wing and the room of the metadata exactly where neither is empty. -/
theorem readBack_pair_iff {raw : RawHit} {wing room : String} (hw : Dict.get raw.metadata "wing" = .str wing)
    (hr : Dict.get raw.metadata "room" = .str room) :
    (normalizeHit d raw).wing = wing ∧ (normalizeHit d raw).room = room ↔ wing ≠ "" ∧ room ≠ "" := by
  simp only [normalizeHit, hw, hr]
  rw [readBack_field_iff raw.tags "wing" (by decide), readBack_field_iff raw.tags "room" (by decide)]

theorem readBack_tenant {raw : RawHit} {tenantId : String} (ht : Dict.get raw.metadata "tenant_id" = .str tenantId)
    (hne : tenantId ≠ "") : (normalizeHit d raw).tenantId = tenantId := by
  simp only [normalizeHit, ht]
  rw [Json.orElse_str hne, Json.orElse_str hne, Deployment.str_str]

end

/-! ## The main theorem -/

/-- **Writes stay with the tenant of their principal**, whatever the caller's metadata and tags, and however the store
returns the tags. A row is read under the wing and the room the gates tested exactly where neither is empty. -/
theorem write_stays_home (d : Deployment) (p : AgentProfile) (pr : Principal) (q : QuotaState) (clk : WriteClock)
    (c : WriteCall) (hpr : pr.postInit d = .ok ()) (hbg : pr.isRootWithBreakGlass clk.now = false) :
    (∀ cand, write d p pr q clk c = .ok (.queued cand) →
      ∃ metadata, Dict.get cand "metadata" = .obj metadata ∧ Dict.get metadata "tenant_id" = .str pr.tenantId) ∧
    ∀ body raw, write d p pr q clk c = .ok (.posted body) → raw.metadata = body.metadata →
      (normalizeHit d raw).tenantId = pr.tenantId ∧
      ((normalizeHit d raw).wing = effectiveWing d p c ∧ (normalizeHit d raw).room = effectiveRoom p c ↔
        effectiveWing d p c ≠ "" ∧ effectiveRoom p c ≠ "") := by
  have hne := postInit_tenant hpr
  constructor
  · intro cand h
    unfold write at h
    split at h
    · cases h
    · next a ha =>
      split at h
      · cases h
        exact ⟨a.metadata, by simp [PreparedWrite.candidate, Dict.get], prepareWrite_tenant ha hbg⟩
      · cases hbody : addMemoryBody d a.wing a.room a.content a.metadata true c.conversationId with
        | error e => rw [hbody] at h; cases h
        | ok body => rw [hbody] at h; cases h
  · intro body raw h hmeta
    obtain ⟨a, ha, -, hbody⟩ := write_posted_iff.1 h
    obtain ⟨hw, hr⟩ := posted_pair h
    have ht := body_tenant hbody (prepareWrite_tenant ha hbg) hne
    rw [← hmeta] at hw hr ht
    exact ⟨readBack_tenant ht hne, readBack_pair_iff hw hr⟩

/-! ## A room without a name -/

/-- A profile whose default room is empty; nothing checks it. -/
def roomlessProfile : AgentProfile := { notesProfile with writeDefault := ⟨"notes", ""⟩ }

/-- A caller that tries to leave its tenant by a tag, and names no room. -/
def roomlessCall : WriteCall := ⟨"dear diary", "", "note", none, [("tags", .arr [.str "tenant:t_other"])]⟩

/-- The row is read in `notes/legacy`, a room no gate was asked about. -/
theorem roomlessCall_strays : ¬ ∀ (d : Deployment) (p : AgentProfile) (pr : Principal) (q : QuotaState) (clk : WriteClock)
    (c : WriteCall) (body : MemoryBody) (raw : RawHit), pr.postInit d = .ok () → pr.isRootWithBreakGlass clk.now = false →
    write d p pr q clk c = .ok (.posted body) → raw.metadata = body.metadata → raw.tags = body.tags →
    (normalizeHit d raw).wing = effectiveWing d p c ∧ (normalizeHit d raw).room = effectiveRoom p c := by
  intro h
  obtain ⟨body, hbody⟩ : ∃ body, write plainDeployment roomlessProfile notesAgent ⟨0, 0, []⟩ quietClock roomlessCall =
      .ok (.posted body) := ⟨_, rfl⟩
  have hback := h _ _ _ _ _ _ body ⟨.null, .str body.content, body.tags, .str body.memoryType, body.metadata⟩ rfl rfl hbody
    rfl rfl
  obtain ⟨hw, hr⟩ := posted_pair hbody
  exact ((readBack_pair_iff hw hr).1 hback).2 rfl

/-- A caller that tries both to leave its tenant by a tag and to name a room. -/
def strayingCall : WriteCall := ⟨"dear diary", "journal", "note", none, [("tags", .arr [.str "tenant:t_other"])]⟩

theorem write_stays_home_sample : ∃ body,
    write plainDeployment roomlessProfile notesAgent ⟨0, 0, []⟩ quietClock strayingCall = .ok (.posted body) ∧
      ∀ raw : RawHit, raw.metadata = body.metadata →
        (normalizeHit plainDeployment raw).tenantId = "t_default" ∧ (normalizeHit plainDeployment raw).room = "journal" := by
  obtain ⟨body, hbody⟩ : ∃ body, write plainDeployment roomlessProfile notesAgent ⟨0, 0, []⟩ quietClock strayingCall =
      .ok (.posted body) := ⟨_, rfl⟩
  refine ⟨body, hbody, ?_⟩
  intro raw hmeta
  obtain ⟨ht, hpair⟩ := (write_stays_home plainDeployment roomlessProfile notesAgent ⟨0, 0, []⟩ quietClock strayingCall rfl
    rfl).2 body raw hbody hmeta
  exact ⟨ht, (hpair.2 (by decide)).2⟩

end Panella

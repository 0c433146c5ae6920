import Panella.Lib.Pieces
import Panella.Store

/-!
# The durable row and its candidate

`reconstruct_obj` is `reconstruct_durable_payload` without the detour over the canonical payload: of a candidate
that is an object the durable payload has the text, the room and the carried tags, and nothing else
(**`candidate_identity`**).

The tags go on to the adapter, which puts its own before them, and to the store, which keeps the list as one text.
The filter of the finalizer looks at whole tags and the store splits them on commas, so a carried tag such as
`tea,status:superseded` comes back as a tag of a reserved namespace: **`durableTags_confined`** is the exact
condition, `supersededCandidate_hidden` a row that nobody recalls.
-/

namespace Panella

open PyJson PyText

variable {d : Deployment} {api : StoreApi}

/-! ## The durable payload -/

/-- `memory_type` of the durable row. -/
def durableMemoryType (d : Deployment) (room : String) : String :=
  d.ownerSlug ++ if room = "feedback" then "_feedback" else "_preference"

/-- The canonical metadata of the durable row. -/
def canonicalMetadata (d : Deployment) (text room : String) (approvalId : Nat) (createdAt : String) : Dict :=
  let label := if room = "preferences" then "preference" else "feedback"
  let content := d.contentOwnerLabel ++ " " ++ label ++ ": " ++ text
  let ref := "approval_queue:" ++ toString approvalId
  [("schema_version", .str "v2"), ("tenant_id", .str d.defaultTenantId), ("subject_id", .str d.defaultSubjectId),
   ("actor_id", .str d.rootPrincipalId), ("principal_id", .str d.rootPrincipalId), ("migration_batch_id", .null),
   ("memory_type", .str (durableMemoryType d room)), ("source_system", .str (d.ownerSlug ++ "-manual")),
   ("source_id", .str ref), ("wing", .str d.ownerWing), ("room", .str room), ("created_at", .str createdAt),
   ("event_time", .str createdAt), ("privacy_scope", .str "agent-wide"), ("readable_by", .arr []), ("links", .arr []),
   ("memory_id", .str (deterministicMemoryId d.ownerWing room content)),
   ("source_file", .str (ref ++ ":" ++ contentDigest text)), ("chunk_index", .int 0),
   ("added_by", .str (d.transportKind ++ "-approval-bot")), ("filed_at", .str createdAt),
   ("content_sha256", .str (contentDigest content)), ("valid_from", .str createdAt), ("valid_to", .null),
   ("ingested_at", .str createdAt)]

/-- What the finalizer puts over it. -/
def finalizerMetadata (d : Deployment) (tags : List String) (marker : String) (approvalId : Nat) (via : String)
    (proposer : Option String) : Dict :=
  let provenance : Dict :=
    [("approval_queue_id", .int approvalId),
     ("capture", .str ("approved-via-" ++ if via = "" then d.transportKind else via))]
  [("tags", .arr (.str marker :: tags.map .str)), ("agent", .str finalizerProfileName),
   ("agent_profile", .str finalizerProfileName), ("author_agent_id", .ofOption proposer), ("source_bridge", .null),
   ("session_id", .null), ("infer", .bool true),
   ("provenance", .obj
     (match proposer with
      | none => provenance
      | some p => provenance ++ [("proposed_by_profile", .str p)]))]

theorem merge_finalizerMetadata (d : Deployment) (text room : String) (tags : List String) (marker : String)
    (approvalId : Nat) (via : String) (proposer : Option String) (createdAt : String) :
    Dict.merge (canonicalMetadata d text room approvalId createdAt)
        (finalizerMetadata d tags marker approvalId via proposer) =
      canonicalMetadata d text room approvalId createdAt ++ finalizerMetadata d tags marker approvalId via proposer := by
  have hkeys : (canonicalMetadataKeys ++ ["tags", "agent", "agent_profile", "author_agent_id", "source_bridge",
      "session_id", "infer", "provenance"]).Nodup := by decide
  exact Dict.merge_fresh hkeys

theorem candidateWing_eq (d : Deployment) (cand : Dict) : candidateWing d cand = d.ownerWing := by
  unfold candidateWing
  by_cases h : d.str ((Dict.get cand "suggested_wing").orElse (.str d.ownerWing)) = d.ownerWing
  · simp [h]
  · simp [h]

theorem candidateRoom_cases (d : Deployment) (cand : Dict) :
    candidateRoom d cand = "feedback" ∨ candidateRoom d cand = "preferences" := by
  unfold candidateRoom
  simp only
  split
  · assumption
  · exact .inl rfl

/-- The durable payload of a candidate. -/
def durablePayload (d : Deployment) (cand : Dict) (marker : String) (approvalId : Nat) (via : String)
    (proposer : Option String) (createdAt : String) : DurablePayload where
  wing := d.ownerWing
  room := candidateRoom d cand
  content := approvalMemoryContent d cand (candidateRoom d cand)
  metadata :=
    canonicalMetadata d (candidateText d cand) (candidateRoom d cand) approvalId createdAt ++
      finalizerMetadata d (carriedTags cand) marker approvalId via proposer
  tenantId := d.defaultTenantId

theorem str_orElse_self (d : Deployment) (s : String) : d.str ((Json.str s).orElse (.str s)) = s := by
  unfold Json.orElse
  split <;> rfl

/-- **What the durable payload is made of.** -/
theorem reconstruct_obj {candidateJson : String} {cand : Dict} (h : d.loads candidateJson = .ok (.obj cand))
    (marker : String) (approvalId : Nat) (via : String) (proposer : Option String) (createdAt : String) :
    reconstructDurablePayload d candidateJson marker approvalId via proposer createdAt =
      .ok (durablePayload d cand marker approvalId via proposer createdAt) := by
  -- the allowlist takes out what the candidate supplied
  have hkeys : (approvalMetadata d cand approvalId createdAt d.ownerWing (candidateRoom d cand)
        (approvalMemoryContent d cand (candidateRoom d cand))).filter (fun kv => canonicalMetadataKeys.contains kv.1) =
      canonicalMetadata d (candidateText d cand) (candidateRoom d cand) approvalId createdAt := rfl
  unfold reconstructDurablePayload buildApprovalMemoryPayload
  rw [h]
  simp only [asDict, candidateWing_eq, dictOrEmpty]
  rw [hkeys]
  show Except.ok (DurablePayload.mk d.ownerWing _ _ (Dict.merge _ (finalizerMetadata d _ marker approvalId via proposer))
    (d.str ((Dict.get (Dict.merge _ (finalizerMetadata d _ marker approvalId via proposer)) "tenant_id").orElse _))) = _
  rw [merge_finalizerMetadata]
  exact congrArg (fun t => Except.ok (DurablePayload.mk _ _ _ _ t)) (str_orElse_self d d.defaultTenantId)

/-- Only an object becomes a payload. -/
theorem reconstruct_ok {candidateJson marker : String} {approvalId : Nat} {via : String} {proposer : Option String}
    {createdAt : String} {built : DurablePayload}
    (h : reconstructDurablePayload d candidateJson marker approvalId via proposer createdAt = .ok built) :
    ∃ cand, d.loads candidateJson = .ok (.obj cand) ∧ built = durablePayload d cand marker approvalId via proposer createdAt := by
  cases hl : d.loads candidateJson with
  | error e =>
    unfold reconstructDurablePayload at h
    rw [hl] at h
    cases h
  | ok candidate =>
    cases ha : asDict candidate with
    | error e =>
      unfold reconstructDurablePayload buildApprovalMemoryPayload at h
      simp only [hl, ha] at h
      cases h
    | ok cand =>
      obtain rfl := asDict_ok ha
      rw [reconstruct_obj hl] at h
      cases h
      exact ⟨cand, rfl, rfl⟩

/-- The sample candidate again, with what a proposer may add to it. -/
def steeredDict : Dict :=
  [("metadata", .obj [("author_agent_id", .str "x"), ("tenant_id", .str "x")]), ("suggested_wing", .str "x"),
   ("text", .str " tea ")]

def steeredCandidate : String :=
  "\x7b\"metadata\": \x7b\"author_agent_id\": \"x\", \"tenant_id\": \"x\"\x7d, \"suggested_wing\": \"x\", \"text\": \" tea \"\x7d"

set_option maxRecDepth 2000 in
theorem steeredCandidate_loads : sampleDeployment.loads steeredCandidate = .ok (.obj steeredDict) := by
  have hw : WF (.obj steeredDict) := by
    rw [wf_obj_iff]
    refine ⟨by decide, ?_⟩
    simp [steeredDict, WF, WFMembers]
  have hd : PyJson.dumps sampleDeployment.limits spaced (.obj steeredDict) = .ok steeredCandidate := rfl
  unfold Deployment.loads
  rw [loads_dumps hw hd]
  rfl

/-- `permanent`, or a tag in a reserved namespace. -/
def reservedTag (tag : String) : Bool :=
  tag = "permanent" || reservedTagPrefixes.any fun p => p.toList.isPrefixOf tag.toList

/-- The tags the adapter and the finalizer put on the durable row of approval `i`. -/
def durableLabels (d : Deployment) (cand : Dict) (i : Nat) : List String :=
  ["permanent", "status:active", "wing:" ++ d.ownerWing, "room:" ++ candidateRoom d cand, "agent:" ++ finalizerProfileName,
   "mtype:" ++ durableMemoryType d (candidateRoom d cand), "tenant:" ++ d.defaultTenantId, approvalMarker i]

theorem reservedTag_append {p : String} (hp : p ∈ reservedTagPrefixes) (s : String) : reservedTag (p ++ s) = true := by
  rw [reservedTag, Bool.or_eq_true]
  refine .inr (List.any_eq_true.2 ⟨p, hp, ?_⟩)
  rw [List.isPrefixOf_iff_prefix, String.toList_append]
  exact List.prefix_append _ _

theorem durableLabels_reserved (d : Deployment) (cand : Dict) (i : Nat) : ∀ l ∈ durableLabels d cand i, reservedTag l = true := by
  intro l hl
  simp only [durableLabels, List.mem_cons, List.not_mem_nil, or_false] at hl
  rcases hl with rfl | rfl | rfl | rfl | rfl | rfl | rfl | rfl
  · decide
  · exact reservedTag_append (p := "status:") (by decide) "active"
  all_goals exact reservedTag_append (by decide) _

theorem durableLabels_nodup (d : Deployment) (cand : Dict) (i : Nat) : (durableLabels d cand i).Nodup := by
  have h : ((durableLabels d cand i).map fun l => l.toList.take 3) =
      [['p', 'e', 'r'], ['s', 't', 'a'], ['w', 'i', 'n'], ['r', 'o', 'o'], ['a', 'g', 'e'], ['m', 't', 'y'], ['t', 'e', 'n'],
       ['a', 'p', 'p']] := by
    simp [durableLabels, approvalMarker]
  refine List.Nodup.of_map (fun l => l.toList.take 3) ?_
  rw [h]
  decide

/-- What the filter lets through is stripped and not reserved. -/
theorem carriedTag_some {v : Json} {tag : String} (h : carriedTag v = some tag) :
    reservedTag tag = false ∧ stripSpace tag = tag ∧ tag ≠ "" := by
  cases v with
  | str s =>
    unfold carriedTag at h
    simp only at h
    split at h
    · cases h
    · rename_i h1
      split at h
      · cases h
      · rename_i h2
        cases h
        rw [not_or] at h1
        refine ⟨?_, stripSpace_stripSpace s, h1.1⟩
        rw [reservedTag, Bool.or_eq_false_iff]
        exact ⟨decide_eq_false h1.2, by simpa using h2⟩
  | null | bool b | int n | float x | arr xs | obj kvs => cases h

theorem mem_carriedTags {cand : Dict} {tag : String} (h : tag ∈ carriedTags cand) : ∃ v, carriedTag v = some tag := by
  have hs : ∀ v : Json, tag ∈ stripReservedTags v → ∃ u, carriedTag u = some tag := by
    intro v hv
    cases v with
    | arr xs =>
      obtain ⟨u, -, hu⟩ := List.mem_filterMap.1 hv
      exact ⟨u, hu⟩
    | null | bool b | int n | float x | str s | obj kvs => cases hv
  exact hs _ (List.mem_of_mem_take h)

/-- `dict.fromkeys` over texts: the first of equal ones stays. -/
theorem fromKeys_map (d : Deployment) (ts as : List String) :
    d.fromKeys (as.map .str) (ts.map .str) = .ok ((as ++ (ts.removeAll as).eraseDups).map .str) := by
  induction ts generalizing as with
  | nil => simp [Deployment.fromKeys]
  | cons t ts ih =>
    have hany : (as.map Json.str).any (d.tagEq (.str t)) = decide (t ∈ as) := by
      rw [Bool.eq_iff_iff, List.any_eq_true, decide_eq_true_iff]
      constructor
      · rintro ⟨u, hu, he⟩
        rw [tagEq_str.1 he] at hu
        simpa using hu
      · intro h
        exact ⟨.str t, List.mem_map.2 ⟨t, h, rfl⟩, tagEq_str.2 rfl⟩
    by_cases h : t ∈ as
    · simp only [List.map_cons, Deployment.fromKeys, hany, h, decide_true, if_true]
      rw [ih]
      simp [List.removeAll, h]
    · simp only [List.map_cons, Deployment.fromKeys, hany, h, decide_false, Bool.false_eq_true, if_false]
      have hsnoc : as.map Json.str ++ [Json.str t] = (as ++ [t]).map .str := by simp
      have hrest : ts.removeAll (as ++ [t]) = (ts.removeAll as).filter fun u => !u == t := by
        simp only [List.removeAll, List.filter_filter]
        refine List.filter_congr fun u _ => ?_
        by_cases hu : u = t <;> simp [hu]
      rw [hsnoc, ih, hrest]
      simp [List.removeAll, h, List.eraseDups_cons]

theorem eraseDups_sublist {α : Type} [BEq α] [LawfulBEq α] (as : List α) : as.eraseDups.Sublist as := by
  induction hn : as.length using Nat.strong_induction_on generalizing as with
  | _ n ih =>
    cases as with
    | nil => simp
    | cons a as =>
      have hlt : (as.filter fun b => !b == a).length < n := by
        have := List.length_filter_le (fun b => !b == a) as
        rw [← hn, List.length_cons]
        omega
      rw [List.eraseDups_cons]
      exact ((ih _ hlt _ rfl).trans List.filter_sublist).cons_cons a

theorem eraseDups_of_nodup {α : Type} [BEq α] [LawfulBEq α] {as : List α} (h : as.Nodup) : as.eraseDups = as := by
  induction as with
  | nil => rfl
  | cons a as ih =>
    obtain ⟨hm, hn⟩ := List.nodup_cons.1 h
    have hfilter : (as.filter fun b => !b == a) = as := by
      rw [List.filter_eq_self]
      intro b hb
      have : b ≠ a := fun he => hm (he ▸ hb)
      simpa using this
    rw [List.eraseDups_cons, hfilter, ih hn]

theorem carriedTags_length (cand : Dict) : (carriedTags cand).length ≤ maxCarriedTags := List.length_take_le _ _

/-- **The tags in the body**: the labels, and the carried tags without repetitions; the cap is never reached. -/
theorem fromKeys_durable (d : Deployment) (cand : Dict) (i : Nat) :
    ∃ tags, d.fromKeys [] ((durableLabels d cand i ++ carriedTags cand).map .str) = .ok tags ∧
      tags.take maxTagsPerMemory = (durableLabels d cand i ++ (carriedTags cand).eraseDups).map .str := by
  have hcarried : (carriedTags cand).removeAll (durableLabels d cand i) = carriedTags cand := by
    rw [List.removeAll, List.filter_eq_self]
    intro t ht
    obtain ⟨v, hv⟩ := mem_carriedTags ht
    have hnot : t ∉ durableLabels d cand i := by
      intro hl
      have := durableLabels_reserved d cand i t hl
      rw [(carriedTag_some hv).1] at this
      cases this
    simpa using hnot
  have hkeys := fromKeys_map d (durableLabels d cand i ++ carriedTags cand) []
  rw [List.removeAll_nil, List.nil_append, List.eraseDups_append, eraseDups_of_nodup (durableLabels_nodup d cand i),
    hcarried] at hkeys
  refine ⟨_, hkeys, List.take_of_length_le ?_⟩
  have h1 := (eraseDups_sublist (carriedTags cand)).length_le
  have h2 := carriedTags_length cand
  simp only [List.length_map, List.length_append, durableLabels, List.length_cons, List.length_nil, maxCarriedTags,
    maxTagsPerMemory] at h1 h2 ⊢
  omega

/-- What the adapter posts for a durable payload. -/
structure DurableBody (d : Deployment) (cand : Dict) (i : Nat) (body : MemoryBody) : Prop where
  tags : body.tags = (durableLabels d cand i ++ (carriedTags cand).eraseDups).map .str
  wing : Dict.get body.metadata "wing" = .str d.ownerWing
  room : Dict.get body.metadata "room" = .str (candidateRoom d cand)
  agent : Dict.get body.metadata "agent" = .str finalizerProfileName
  tenant : Dict.get body.metadata "tenant_id" = .str d.defaultTenantId
  status : Dict.get body.metadata "status" = .null

theorem addMemoryBody_payload {cand : Dict} {i : Nat} {content via createdAt : String} {conversationId proposer : Option String}
    {body : MemoryBody}
    (h : addMemoryBody d d.ownerWing (candidateRoom d cand) content
      (durablePayload d cand (approvalMarker i) i via proposer createdAt).metadata true conversationId = .ok body) :
    DurableBody d cand i body := by
  generalize hmeta : (durablePayload d cand (approvalMarker i) i via proposer createdAt).metadata = metadata at h
  have htags : Dict.get metadata "tags" = .arr ((approvalMarker i :: carriedTags cand).map .str) := by
    rw [← hmeta]
    rfl
  have hagent : Dict.get metadata "agent" = .str finalizerProfileName := by
    rw [← hmeta]
    rfl
  have htype : Dict.get metadata "memory_type" = .str (durableMemoryType d (candidateRoom d cand)) := by
    rw [← hmeta]
    rfl
  have htenant : Dict.get metadata "tenant_id" = .str d.defaultTenantId := by
    rw [← hmeta]
    rfl
  have hstatus : Dict.get metadata "status" = .null := by
    rw [← hmeta]
    rfl
  have htypene : durableMemoryType d (candidateRoom d cand) ≠ "" := by
    intro he
    have := congrArg String.toList he
    unfold durableMemoryType at this
    rw [String.toList_append] at this
    have hsuffix := (List.append_eq_nil_iff.1 this).2
    split at hsuffix <;> simp at hsuffix
  obtain ⟨tags, hkeys, hcap⟩ := fromKeys_durable d cand i
  have hlist : listOrEmpty (.arr ((approvalMarker i :: carriedTags cand).map .str)) =
      .ok ((approvalMarker i :: carriedTags cand).map .str) := rfl
  unfold addMemoryBody at h
  simp only [htags, hagent, htype, htenant, hlist, Json.orElse_str htypene, str_orElse_self] at h
  have hagent' : ((Json.str finalizerProfileName).orElse (Dict.get metadata "agent_profile")).orElse (.str "unknown") =
      .str finalizerProfileName := rfl
  have hguards : ([Json.str "permanent", .str "status:active", .str ("wing:" ++ d.ownerWing),
      .str ("room:" ++ candidateRoom d cand), .str ("agent:" ++ finalizerProfileName),
      .str ("mtype:" ++ durableMemoryType d (candidateRoom d cand)), .str ("tenant:" ++ d.defaultTenantId)] ++
      (approvalMarker i :: carriedTags cand).map .str : List Json) =
      (durableLabels d cand i ++ carriedTags cand).map .str := rfl
  rw [hagent', d.str_str, d.str_str, hguards, hkeys] at h
  cases h
  refine ⟨hcap, ?_, ?_, ?_, ?_, ?_⟩
  · exact Dict.get_merge_of_mem (by simp) (by simp)
  · exact Dict.get_merge_of_mem (by simp) (by simp)
  · exact Dict.get_merge_of_mem (by simp) (by simp)
  · exact Dict.get_merge_of_mem (by simp) (by simp)
  · rw [Dict.get_merge_of_notMem _ (by simp)]
    split <;> simp [Dict.get_set, Dict.get_erase, hstatus]

theorem finalizeWrite_durable {profile : AgentProfile} {cand : Dict} {i : Nat} {via conversationId createdAt : String}
    {proposer : Option String} {body : MemoryBody}
    (h : finalizeWrite d profile (durablePayload d cand (approvalMarker i) i via proposer createdAt) conversationId = .ok body) :
    DurableBody d cand i body := by
  unfold finalizeWrite at h
  split at h
  · cases h
  · split at h
    · cases h
    · simp only at h
      split at h
      · cases h
      · exact addMemoryBody_payload h

/-! ## The tags as they are read -/

theorem storedTag_eq : storedTag = pieces ',' := rfl

theorem storedTags_map (ts : List String) : storedTags (ts.map .str) = ts.flatMap (pieces ',') := by
  rw [storedTags, List.flatMap_map]
  rfl

/-- **The store keeps the list as one text**: what is read are the pieces of the joined tags. -/
theorem storedTags_joined (ts : List String) : storedTags (ts.map .str) = pieces ',' (joined ',' ts) := by
  rw [storedTags_map, pieces_joined]

theorem whole_toString (n : Nat) : Whole ',' (toString n) := by
  have htext : (toString n).toList = Nat.toDigits 10 n := String.toList_ofList
  have hspace : ∀ c : Char, c.isDigit = true → isSpace c = false ∧ c ≠ ',' := by
    intro c hc
    simp only [Char.isDigit, Bool.and_eq_true, decide_eq_true_eq, ge_iff_le, UInt32.le_iff_toNat_le] at hc
    have h1 : 48 ≤ c.toNat := hc.1
    have h2 : c.toNat ≤ 57 := hc.2
    refine ⟨by simp [isSpace]; omega, ?_⟩
    rintro rfl
    exact absurd h1 (by decide)
  have hdigit := isDigit_toDigits n
  refine ⟨?_, ?_, ?_⟩
  · rw [htext]
    intro hm
    exact (hspace _ (hdigit _ hm)).2 rfl
  · have hself : stripList isSpace (toString n).toList = (toString n).toList := by
      rw [strip_eq_self_iff, htext]
      exact ⟨fun c hc => (hspace c (hdigit c (List.mem_of_mem_head? hc))).1,
        fun c hc => (hspace c (hdigit c (List.mem_of_mem_getLast? hc))).1⟩
    rw [stripSpace, strip, hself, String.ofList_toList]
  · intro h
    have := congrArg String.toList h
    rw [htext] at this
    exact Nat.toDigits_ne_nil this

/-- **Which kinds of tags a durable row has**: those that a label or a carried tag comes apart into. -/
theorem durable_pieces {cand : Dict} {i : Nat} {body : MemoryBody} (hb : DurableBody d cand i body) (P : String → Prop) :
    (∃ t ∈ storedTags body.tags, P t) ↔ ∃ s ∈ durableLabels d cand i ++ carriedTags cand, ∃ t ∈ storedTag s, P t := by
  rw [hb.tags, storedTags_map]
  constructor
  · rintro ⟨t, ht, hp⟩
    obtain ⟨s, hs, ht⟩ := List.mem_flatMap.1 ht
    refine ⟨s, ?_, t, ht, hp⟩
    rw [List.mem_append, List.mem_eraseDups] at hs
    exact List.mem_append.2 hs
  · rintro ⟨s, hs, t, ht, hp⟩
    refine ⟨t, List.mem_flatMap.2 ⟨s, ?_, ht⟩, hp⟩
    rw [List.mem_append, List.mem_eraseDups]
    exact List.mem_append.1 hs

/-- No configured text has a comma, and no carried tag comes apart into a reserved one. -/
structure Confined (d : Deployment) (cand : Dict) : Prop where
  wing : ',' ∉ d.ownerWing.toList
  slug : ',' ∉ d.ownerSlug.toList
  tenant : ',' ∉ d.defaultTenantId.toList
  carried : ∀ t ∈ carriedTags cand, ∀ p ∈ storedTag t, reservedTag p = false

theorem durableLabels_whole_iff (hd : d.Configured) (cand : Dict) (i : Nat) :
    (∀ l ∈ durableLabels d cand i, Whole ',' l) ↔
      ',' ∉ d.ownerWing.toList ∧ ',' ∉ d.ownerSlug.toList ∧ ',' ∉ d.defaultTenantId.toList := by
  obtain ⟨htenant, hslug, hwing⟩ := hd.required
  constructor
  · intro h
    have hsub : ∀ p s : String, p ++ s ∈ durableLabels d cand i → ',' ∉ s.toList := by
      intro p s hl hm
      refine (h _ hl).1 ?_
      rw [String.toList_append]
      exact List.mem_append_right _ hm
    refine ⟨hsub "wing:" _ (by simp [durableLabels]), fun hm => ?_, hsub "tenant:" _ (by simp [durableLabels])⟩
    refine hsub "mtype:" (durableMemoryType d (candidateRoom d cand)) (by simp [durableLabels]) ?_
    rw [durableMemoryType, String.toList_append]
    exact List.mem_append_left _ hm
  · rintro ⟨h1, h2, h3⟩ l hl
    have htype : Whole ',' (durableMemoryType d (candidateRoom d cand)) := by
      refine Whole.append ⟨h2, hslug⟩ ?_
      rcases candidateRoom_cases d cand with h | h <;> rw [h] <;> decide
    simp only [durableLabels, List.mem_cons, List.not_mem_nil, or_false] at hl
    rcases hl with rfl | rfl | rfl | rfl | rfl | rfl | rfl | rfl
    · decide
    · decide
    · exact Whole.append (by decide) ⟨h1, hwing⟩
    · rcases candidateRoom_cases d cand with h | h <;> rw [h] <;> decide
    · decide
    · exact Whole.append (by decide) htype
    · exact Whole.append (by decide) ⟨h3, htenant⟩
    · exact Whole.append (by decide) (whole_toString i)

/-! ## The row as it is recalled -/

/-- **What the durable row of approval `i` is to read as**: its reserved tags are the labels, it is recalled, and the
fields of the hit are the intended ones. -/
structure ReadsAs (d : Deployment) (cand : Dict) (i : Nat) (r : StoreRow) : Prop where
  reserved : r.tags.filter reservedTag = durableLabels d cand i
  guards : ∀ t ∈ ["permanent", "status:active", approvalMarker i], t ∈ r.tags
  recalled : hasExcludedRecallStatus (normalizeHit d r.raw) = false
  wing : (normalizeHit d r.raw).wing = d.ownerWing
  room : (normalizeHit d r.raw).room = candidateRoom d cand
  tenant : (normalizeHit d r.raw).tenantId = d.defaultTenantId
  agent : (normalizeHit d r.raw).agent = .str finalizerProfileName

/-- The labels have one status. -/
theorem status_of_label {cand : Dict} {i : Nat} {t : String} (ht : t ∈ durableLabels d cand i)
    (hs : "status:".toList <+: t.toList) : t = "status:active" := by
  simp only [durableLabels, List.mem_cons, List.not_mem_nil, or_false] at ht
  rcases ht with rfl | rfl | rfl | rfl | rfl | rfl | rfl | rfl
  · simp at hs
  · rfl
  all_goals simp [approvalMarker] at hs

/-- A row whose one status tag is `status:active` is recalled, where the metadata does not say otherwise. -/
theorem recalled_of_active {r : StoreRow} (hstatus : Dict.get r.metadata "status" = .null)
    (h : ∀ t ∈ r.tags, "status:".toList <+: t.toList → t = "status:active") :
    hasExcludedRecallStatus (normalizeHit d r.raw) = false := by
  have htag : parseNamespacedTag (r.tags.map .str) "status" = .null ∨
      parseNamespacedTag (r.tags.map .str) "status" = .str "active" := by
    rcases parseNamespacedTag_cases (r.tags.map .str) "status" with hnull | ⟨t, ht, hpre, hread⟩
    · exact .inl hnull
    · obtain ⟨tag, htag, heq⟩ := List.mem_map.1 ht
      rw [Json.str.inj heq] at htag
      rw [hread, h t htag hpre]
      exact .inr (congrArg Json.str (by decide))
  have hfield : (normalizeHit d r.raw).status = "active" := by
    show d.str (((Dict.get r.metadata "status").orElse (parseNamespacedTag (r.tags.map .str) "status")).orElse (.str "active")) = _
    rw [hstatus]
    rcases htag with ht | ht <;> rw [ht] <;> rfl
  rw [hasExcludedRecallStatus, hfield, Bool.or_eq_false_iff]
  refine ⟨by decide, ?_⟩
  rw [List.any_eq_false]
  intro t ht
  obtain ⟨s, hs, rfl⟩ := List.mem_map.1 ht
  intro hx
  unfold excludedStatusTag at hx
  simp only [Bool.and_eq_true, List.isPrefixOf_iff_prefix] at hx
  rw [h s hs hx.1] at hx
  exact absurd hx.2 (by decide)

/-- **When the reserved tags of a durable row come only from the finalizer and the adapter.** Every row that is written
for an approval reads as intended if and only if no configured text has a comma and no carried tag comes apart into a
reserved one. -/
theorem durableTags_confined (d : Deployment) (api : StoreApi) (hd : d.Configured) (profile : AgentProfile)
    (candidateJson : String) (cand : Dict) (i : Nat) (via conversationId createdAt : String) (proposer : Option String)
    (built : DurablePayload) (body : MemoryBody) (hload : d.loads candidateJson = .ok (.obj cand))
    (hbuild : reconstructDurablePayload d candidateJson (approvalMarker i) i via proposer createdAt = .ok built)
    (hbody : finalizeWrite d profile built conversationId = .ok body) :
    ReadsAs d cand i (rowOf api body (some i)) ↔ Confined d cand := by
  rw [reconstruct_obj hload] at hbuild
  cases hbuild
  have hb := finalizeWrite_durable hbody
  have htags : (rowOf api body (some i)).tags =
      (durableLabels d cand i ++ (carriedTags cand).eraseDups).flatMap (pieces ',') := by
    show storedTags body.tags = _
    rw [hb.tags, storedTags_map]
  have hiff := @filter_pieces_eq_iff ',' _ _ (carriedTags cand).eraseDups (durableLabels_reserved d cand i)
  rw [← htags, durableLabels_whole_iff hd] at hiff
  constructor
  · intro h
    obtain ⟨⟨h1, h2, h3⟩, h4⟩ := hiff.1 h.reserved
    exact ⟨h1, h2, h3, fun t ht => h4 t (List.mem_eraseDups.2 ht)⟩
  · intro h
    have hres := hiff.2 ⟨⟨h.wing, h.slug, h.tenant⟩, fun t ht => h.carried t (List.mem_eraseDups.1 ht)⟩
    obtain ⟨htenant, -, hwing⟩ := hd.required
    have hmem : ∀ t ∈ durableLabels d cand i, t ∈ (rowOf api body (some i)).tags := by
      intro t ht
      rw [← hres] at ht
      exact (List.mem_filter.1 ht).1
    have hfield : ∀ (key s : String), Dict.get body.metadata key = .str s → s ≠ "" → ∀ v w : Json,
        ((Dict.get (rowOf api body (some i)).raw.metadata key).orElse v).orElse w = .str s := by
      intro key s hs hne v w
      show ((Dict.get body.metadata key).orElse v).orElse w = _
      rw [hs, Json.orElse_str hne, Json.orElse_str hne]
    refine ⟨hres, ?_, recalled_of_active hb.status ?_, ?_, ?_, ?_, ?_⟩
    · intro t ht
      refine hmem t ?_
      simp only [List.mem_cons, List.not_mem_nil, or_false] at ht
      rcases ht with rfl | rfl | rfl <;> simp [durableLabels]
    · intro t ht hs
      have hr : t ∈ (rowOf api body (some i)).tags.filter reservedTag := by
        refine List.mem_filter.2 ⟨ht, ?_⟩
        rw [reservedTag, Bool.or_eq_true]
        exact .inr (List.any_eq_true.2 ⟨"status:", by decide, List.isPrefixOf_iff_prefix.2 hs⟩)
      rw [hres] at hr
      exact status_of_label hr hs
    · exact congrArg d.str (hfield "wing" _ hb.wing hwing.2 _ _)
    · refine congrArg d.str (hfield "room" _ hb.room ?_ _ _)
      rcases candidateRoom_cases d cand with he | he <;> rw [he] <;> decide
    · exact congrArg d.str (hfield "tenant_id" _ hb.tenant htenant.2 _ _)
    · exact hfield "agent" _ hb.agent (by decide) _ _

/-! ## Two candidates -/

/-- The memory type of a durable payload. -/
theorem durablePayload_memoryType (cand : Dict) (i : Nat) (via createdAt : String) (proposer : Option String) :
    d.str ((Dict.get (durablePayload d cand (approvalMarker i) i via proposer createdAt).metadata
      "memory_type").orElse (.str "")) = durableMemoryType d (candidateRoom d cand) := by
  show d.str ((Json.str (durableMemoryType d (candidateRoom d cand))).orElse (.str "")) = _
  unfold Json.orElse
  split
  · rfl
  · rename_i h
    simpa [Json.truthy] using h

/-- The profile admits the pair and the memory type. -/
def AgentProfile.Admits (profile : AgentProfile) (d : Deployment) (cand : Dict) : Prop :=
  profile.finalizerOnly = true ∧ checkWriteAllowlist profile d.ownerWing (candidateRoom d cand) = .ok () ∧
    durableMemoryType d (candidateRoom d cand) ∈ profile.memoryTypeAllowlist

/-- **A profile that admits the pair and the memory type writes the row**, and no other does. -/
theorem finalizeWrite_iff {profile : AgentProfile} {cand : Dict} {i : Nat} {via conversationId createdAt : String}
    {proposer : Option String} :
    (∃ body, finalizeWrite d profile (durablePayload d cand (approvalMarker i) i via proposer createdAt) conversationId =
      .ok body) ↔ profile.Admits d cand := by
  have htagged : DurableTagged (approvalMarker i) (durablePayload d cand (approvalMarker i) i via proposer createdAt).metadata :=
    ⟨carriedTags cand, carriedTags_length cand, rfl⟩
  obtain ⟨body, hbody, -⟩ := addMemoryBody_durable d d.ownerWing (candidateRoom d cand)
    (d.sanitize (approvalMemoryContent d cand (candidateRoom d cand))) (some conversationId) htagged
  unfold finalizeWrite AgentProfile.Admits
  rw [durablePayload_memoryType]
  constructor
  · rintro ⟨b, hb⟩
    split at hb
    · cases hb
    · rename_i h1
      split at hb
      · cases hb
      · rename_i h2
        simp only at hb
        split at hb
        · cases hb
        · rename_i h3
          exact ⟨by simpa using h1, h2, not_not.1 h3⟩
  · rintro ⟨h1, h2, h3⟩
    refine ⟨body, ?_⟩
    have hpair : checkWriteAllowlist profile (durablePayload d cand (approvalMarker i) i via proposer createdAt).wing
        (durablePayload d cand (approvalMarker i) i via proposer createdAt).room = .ok () := h2
    simp only [h1, hpair, Bool.not_true, Bool.false_eq_true, if_false, not_not.2 h3]
    exact hbody

theorem sampleWrite_admitted (cand : Dict) (hroom : candidateRoom sampleDeployment cand = "feedback") (i : Nat)
    (via conversationId createdAt : String) (proposer : Option String) :
    ∃ body, finalizeWrite sampleDeployment finalizerProfile
      (durablePayload sampleDeployment cand (approvalMarker i) i via proposer createdAt) conversationId = .ok body := by
  refine finalizeWrite_iff.2 ⟨rfl, ?_, ?_⟩
  · rw [hroom]
    rfl
  · rw [hroom]
    decide

theorem durableTags_confined_sample :
    ∃ body, finalizeWrite sampleDeployment finalizerProfile
        (durablePayload sampleDeployment [("memory_id", .str "x"), ("text", .str "tea")] (approvalMarker 1) 1 "telegram" none "t1")
        "approval:1" = .ok body ∧
      (ReadsAs sampleDeployment [("memory_id", .str "x"), ("text", .str "tea")] 1 (rowOf sampleStoreApi body (some 1)) ↔
        Confined sampleDeployment [("memory_id", .str "x"), ("text", .str "tea")]) := by
  obtain ⟨body, hbody⟩ := sampleWrite_admitted [("memory_id", .str "x"), ("text", .str "tea")] rfl 1 "telegram" "approval:1"
    "t1" none
  exact ⟨body, hbody, durableTags_confined sampleDeployment sampleStoreApi sampleDeployment_configured finalizerProfile
    sampleCandidate _ 1 "telegram" "approval:1" "t1" none _ body sampleCandidate_loads
    (reconstruct_obj sampleCandidate_loads _ _ _ _ _) hbody⟩

/-- A candidate whose one tag comes apart. -/
def supersededCandidate : String := "\x7b\"tags\": [\"tea,status:superseded\"], \"text\": \"tea\"\x7d"

/-- The same as an object. -/
def supersededDict : Dict := [("tags", .arr [.str "tea,status:superseded"]), ("text", .str "tea")]

theorem supersededCandidate_loads : sampleDeployment.loads supersededCandidate = .ok (.obj supersededDict) := by
  have hw : WF (.obj supersededDict) := wf_obj_iff.2 ⟨by decide, by simp [supersededDict, WF, WFElems]⟩
  have hd : PyJson.dumps sampleDeployment.limits spaced (.obj supersededDict) = .ok supersededCandidate := rfl
  unfold Deployment.loads
  rw [loads_dumps hw hd]
  rfl

theorem supersededCandidate_carried : carriedTags supersededDict = ["tea,status:superseded"] := by decide

/-- **A durable row that nobody recalls**: the tag passes the filter as one, and is read as two. -/
theorem supersededCandidate_hidden :
    sampleDeployment.Configured ∧
    ∃ body, reconstructDurablePayload sampleDeployment supersededCandidate (approvalMarker 1) 1 "telegram" none "t1" =
        .ok (durablePayload sampleDeployment supersededDict (approvalMarker 1) 1 "telegram" none "t1") ∧
      finalizeWrite sampleDeployment finalizerProfile
        (durablePayload sampleDeployment supersededDict (approvalMarker 1) 1 "telegram" none "t1") "approval:1" = .ok body ∧
      hasExcludedRecallStatus (normalizeHit sampleDeployment (rowOf sampleStoreApi body (some 1)).raw) = true ∧
      ¬ ReadsAs sampleDeployment supersededDict 1 (rowOf sampleStoreApi body (some 1)) := by
  obtain ⟨body, hbody⟩ := sampleWrite_admitted supersededDict rfl 1 "telegram" "approval:1" "t1" none
  have hstored : "status:superseded" ∈ (rowOf sampleStoreApi body (some 1)).tags := by
    show _ ∈ storedTags body.tags
    rw [(finalizeWrite_durable hbody).tags, storedTags_map, List.mem_flatMap]
    refine ⟨"tea,status:superseded", ?_, by decide⟩
    rw [List.mem_append, List.mem_eraseDups, supersededCandidate_carried]
    exact .inr (List.mem_singleton_self _)
  have hexcluded : hasExcludedRecallStatus (normalizeHit sampleDeployment (rowOf sampleStoreApi body (some 1)).raw) = true := by
    rw [hasExcludedRecallStatus, Bool.or_eq_true, List.any_eq_true]
    exact .inr ⟨.str "status:superseded", List.mem_map.2 ⟨_, hstored, rfl⟩, by decide⟩
  refine ⟨sampleDeployment_configured, body, reconstruct_obj supersededCandidate_loads _ _ _ _ _, hbody, hexcluded, fun h => ?_⟩
  rw [h.recalled] at hexcluded
  cases hexcluded

end Panella

import Panella.Adapter
import Panella.ClientWrite
import Panella.Lib.JsonRoundTrip

/-!
# What an approval becomes: the candidate's payload and the durable payload built from it

| here | there |
| --- | --- |
| `candidateFingerprint`, `proposedByProfile` | `candidate_fingerprint`, `proposed_by_profile` (`client_raw.py` :63-93) |
| `buildApprovalMemoryPayload`, `approvalMemoryContent` | `build_approval_memory_payload`, `_approval_memory_content` (:919-1023) |
| `stripReservedTags`, `reconstructDurablePayload` | `approval_finalizer.py` (:107-125, :151-205) |
| `finalizeWrite` | `_finalize_write` (:208-231), up to the POST |

The content of the durable row is a function of the candidate's text and room alone
(`reconstruct_content`), and its tags start with the adapter's guards and the marker
(`finalizeWrite_tags`).
-/

namespace Panella

open PyJson

/-- `_content_hash`. -/
def contentDigest (content : String) : String := Sha256.hexdigest (Sha256.utf8 content)

/-- `candidate_fingerprint`. -/
def candidateFingerprint (candidateJson : String) : String := contentDigest candidateJson

/-- `proposed_by_profile`: only a string with something in it counts. -/
def proposedByProfile : Json → Option String
  | .str s => if PyText.stripSpace s = "" then none else some (PyText.stripSpace s)
  | _ => none

/-- `json.loads`. -/
def Deployment.loads (d : Deployment) (text : String) : Except PyErr Json :=
  match PyJson.loads d.limits text with
  | .ok v => .ok v
  | .error e => .error (.json e)

/-- `json.dumps(v, ensure_ascii=False, sort_keys=True)`. -/
def Deployment.dumps (d : Deployment) (v : Json) : Except PyErr String :=
  match PyJson.dumps d.limits spaced v with
  | .ok t => .ok t
  | .error e => .error (.json e)

/-- What `.get` is called on: only a dict has it. -/
def asDict : Json → Except PyErr Dict
  | .obj kvs => .ok kvs
  | v => .error (.attributeError ("'" ++ typeName v ++ "' object has no attribute 'get'"))

/-- `v if isinstance(v, dict) else {}`. -/
def dictOrEmpty : Json → Dict
  | .obj kvs => kvs
  | _ => []

/-- `v if isinstance(v, list) else []`. -/
def arrOrEmpty : Json → List Json
  | .arr xs => xs
  | _ => []

/-! ## The candidate's payload -/

/-- `str(candidate.get("text") or "").strip()`. -/
def candidateText (d : Deployment) (candidate : Dict) : String :=
  PyText.stripSpace (d.str ((Dict.get candidate "text").orElse (.str "")))

/-- The room, one of the two there are. -/
def candidateRoom (d : Deployment) (candidate : Dict) : String :=
  let room := d.str ((Dict.get candidate "suggested_room").orElse (.str "feedback"))
  if room = "feedback" ∨ room = "preferences" then room else "feedback"

/-- The wing, whatever the candidate suggests. -/
def candidateWing (d : Deployment) (candidate : Dict) : String :=
  let wing := d.str ((Dict.get candidate "suggested_wing").orElse (.str d.ownerWing))
  if wing ≠ d.ownerWing then d.ownerWing else wing

/-- `_approval_memory_content`. -/
def approvalMemoryContent (d : Deployment) (candidate : Dict) (room : String) : String :=
  let label := if room = "preferences" then "preference" else "feedback"
  d.contentOwnerLabel ++ " " ++ label ++ ": " ++ candidateText d candidate

/-- The dict `build_approval_memory_payload` returns; `shadow` is always `False`. -/
structure ApprovalPayload where
  wing : String
  room : String
  content : String
  metadata : Dict
  aaak : Dict
  source : String
  expectedId : String

def ApprovalPayload.toJson (p : ApprovalPayload) : Json :=
  .obj [("wing", .str p.wing), ("room", .str p.room), ("content", .str p.content), ("metadata", .obj p.metadata),
    ("aaak", .obj p.aaak), ("source", .str p.source), ("expected_id", .str p.expectedId), ("shadow", .bool false)]

/-- The metadata block of the payload. -/
def approvalMetadata (d : Deployment) (candidate : Dict) (approvalId : Nat) (createdAt wing room content : String) : Dict :=
  let candMeta := dictOrEmpty (Dict.get candidate "metadata")
  let tags := arrOrEmpty (Dict.get candidate "tags")
  let ref := "approval_queue:" ++ toString approvalId
  [("schema_version", .str "v2"), ("tenant_id", .str d.defaultTenantId), ("subject_id", .str d.defaultSubjectId),
   ("actor_id", .str d.rootPrincipalId), ("principal_id", .str d.rootPrincipalId), ("migration_batch_id", .null),
   ("memory_type", .str (d.ownerSlug ++ if room = "feedback" then "_feedback" else "_preference")),
   ("source_system", .str (d.ownerSlug ++ "-manual")), ("source_id", .str ref), ("wing", .str wing), ("room", .str room),
   ("created_at", .str createdAt), ("event_time", .str createdAt), ("privacy_scope", .str "agent-wide"),
   ("readable_by", .arr []),
   ("provenance", .obj
     [("approval_queue_id", .int approvalId), ("capture_source", Dict.getD candidate "source" (.str "unknown")),
      ("explicit_trigger", .bool (tags.any fun t => t.isStr "explicit-trigger"))]),
   ("links", .arr []), ("memory_id", .str (deterministicMemoryId wing room content)),
   ("source_file", .str (ref ++ ":" ++ contentDigest (candidateText d candidate))), ("chunk_index", .int 0),
   ("added_by", .str (d.transportKind ++ "-approval-bot")), ("filed_at", .str createdAt),
   ("content_sha256", .str (contentDigest content)), ("tags", .arr tags),
   ("author_agent_id", Dict.get candMeta "author_agent_id"), ("source_bridge", Dict.get candMeta "source_bridge"),
   ("session_id", Dict.get candMeta "session_id"),
   ("infer", match Dict.get candMeta "infer" with | .bool b => .bool b | _ => .bool false),
   ("valid_from", .str createdAt), ("valid_to", .null), ("ingested_at", .str createdAt)]

/-- `build_approval_memory_payload`. -/
def buildApprovalMemoryPayload (d : Deployment) (candidate : Json) (approvalId : Nat) (createdAt : String) :
    Except PyErr ApprovalPayload :=
  match asDict candidate with
  | .error e => .error e
  | .ok cand =>
    let wing := candidateWing d cand
    let room := candidateRoom d cand
    let content := approvalMemoryContent d cand room
    let text := candidateText d cand
    .ok
      { wing, room, content, metadata := approvalMetadata d cand approvalId createdAt wing room content
        aaak :=
          [("summary", .str (String.ofList (text.toList.take 240))), ("tags", .arr (arrOrEmpty (Dict.get cand "tags"))),
           ("approval_queue_id", .int approvalId)]
        source := d.transportKind ++ "-approval-bot"
        expectedId := deterministicMemoryId wing room content }

/-! ## The durable payload -/

def finalizerProfileName : String := "panella-finalizer"

/-- `_RESERVED_TAG_PREFIXES`. -/
def reservedTagPrefixes : List String := ["wing:", "room:", "agent:", "mtype:", "tenant:", "status:", "approval_ref:"]

/-- `_MAX_CARRIED_TAGS`. -/
def maxCarriedTags : Nat := 15

/-- `_CANONICAL_METADATA_KEYS`. -/
def canonicalMetadataKeys : List String :=
  ["schema_version", "tenant_id", "subject_id", "actor_id", "principal_id", "migration_batch_id", "memory_type",
   "source_system", "source_id", "wing", "room", "created_at", "event_time", "privacy_scope", "readable_by", "links",
   "memory_id", "source_file", "chunk_index", "added_by", "filed_at", "content_sha256", "valid_from", "valid_to",
   "ingested_at"]

/-- The unique tag of an approval's durable row. -/
def approvalMarker (approvalId : Nat) : String := "approval_ref:" ++ toString approvalId

def carriedTag : Json → Option String
  | .str tag =>
    let clean := PyText.stripSpace tag
    if clean = "" ∨ clean = "permanent" then none
    else if reservedTagPrefixes.any fun p => p.toList.isPrefixOf clean.toList then none
    else some clean
  | _ => none

/-- `_strip_reserved_tags`. -/
def stripReservedTags : Json → List String
  | .arr tags => tags.filterMap carriedTag
  | _ => []

/-- What `reconstruct_durable_payload` returns. -/
structure DurablePayload where
  wing : String
  room : String
  content : String
  metadata : Dict
  tenantId : String

/-- The tags the candidate carries: those of its metadata if it has a list there, else its own. -/
def carriedTags (candidate : Dict) : List String :=
  let metaTags := Dict.get (dictOrEmpty (Dict.get candidate "metadata")) "tags"
  let carried := match metaTags with | .arr _ => metaTags | _ => Dict.get candidate "tags"
  (stripReservedTags carried).take maxCarriedTags

/-- `reconstruct_durable_payload`. -/
def reconstructDurablePayload (d : Deployment) (candidateJson marker : String) (approvalId : Nat) (approvedVia : String)
    (proposer : Option String) (createdAt : String) : Except PyErr DurablePayload :=
  match d.loads candidateJson with
  | .error e => .error e
  | .ok candidate =>
    match buildApprovalMemoryPayload d candidate approvalId createdAt with
    | .error e => .error e
    | .ok payload =>
      let via := if approvedVia = "" then d.transportKind else approvedVia
      let provenance : Dict := [("approval_queue_id", .int approvalId), ("capture", .str ("approved-via-" ++ via))]
      let metadata := Dict.merge (payload.metadata.filter fun kv => canonicalMetadataKeys.contains kv.1)
        [("tags", .arr (.str marker :: (carriedTags (dictOrEmpty candidate)).map .str)), ("agent", .str finalizerProfileName),
         ("agent_profile", .str finalizerProfileName), ("author_agent_id", .ofOption proposer), ("source_bridge", .null),
         ("session_id", .null), ("infer", .bool true),
         ("provenance", .obj
           (match proposer with
            | none => provenance
            | some p => provenance ++ [("proposed_by_profile", .str p)]))]
      .ok
        { wing := payload.wing, room := payload.room, content := payload.content, metadata
          tenantId := d.str ((Dict.get metadata "tenant_id").orElse (.str d.defaultTenantId)) }

/-- `_finalize_write`, up to the POST. -/
def finalizeWrite (d : Deployment) (profile : AgentProfile) (built : DurablePayload) (conversationId : String) :
    Except PyErr MemoryBody :=
  if !profile.finalizerOnly then
    .error (.permissionError ("finalize requires a finalizer_only profile, got " ++ profile.name))
  else
    match checkWriteAllowlist profile built.wing built.room with
    | .error e => .error e
    | .ok () =>
      let memoryType := d.str ((Dict.get built.metadata "memory_type").orElse (.str ""))
      if memoryType ∉ profile.memoryTypeAllowlist then
        .error (.valueError ("memory_type not allowed for " ++ profile.name ++ ": " ++ memoryType))
      else addMemoryBody d built.wing built.room (d.sanitize built.content) built.metadata true (some conversationId)

/-! ## What the durable row is a function of -/

/-- The content of the durable row, from the candidate. -/
def durableContent (d : Deployment) (candidateJson : String) : String :=
  match d.loads candidateJson with
  | .ok (.obj cand) => approvalMemoryContent d cand (candidateRoom d cand)
  | _ => ""

theorem asDict_ok {v : Json} {c : Dict} (h : asDict v = .ok c) : v = .obj c := by
  cases v <;> simp_all [asDict]

/-- **The content comes from the candidate alone**, not from the clock, the proposer or the transport. -/
theorem reconstruct_content {d : Deployment} {candidateJson marker : String} {approvalId : Nat} {via : String}
    {proposer : Option String} {createdAt : String} {built : DurablePayload}
    (h : reconstructDurablePayload d candidateJson marker approvalId via proposer createdAt = .ok built) :
    built.content = durableContent d candidateJson := by
  unfold reconstructDurablePayload buildApprovalMemoryPayload at h
  unfold durableContent
  cases hl : d.loads candidateJson with
  | error e => rw [hl] at h; cases h
  | ok candidate =>
    rw [hl] at h
    simp only at h
    cases hc : asDict candidate with
    | error e => rw [hc] at h; cases h
    | ok cand =>
      rw [hc] at h
      obtain rfl := asDict_ok hc
      cases h
      rfl

/-- What the adapter is handed for a durable row. -/
def DurableTagged (marker : String) (metadata : Dict) : Prop :=
  ∃ carried : List String, carried.length ≤ maxCarriedTags ∧
    Dict.get metadata "tags" = .arr (.str marker :: carried.map .str)

/-- The tags of the durable payload: the marker first, then strings. -/
theorem reconstruct_tags {d : Deployment} {candidateJson marker : String} {approvalId : Nat} {via : String}
    {proposer : Option String} {createdAt : String} {built : DurablePayload}
    (h : reconstructDurablePayload d candidateJson marker approvalId via proposer createdAt = .ok built) :
    DurableTagged marker built.metadata := by
  unfold reconstructDurablePayload at h
  split at h
  · cases h
  · rename_i candidate _
    split at h
    · cases h
    · cases h
      refine ⟨carriedTags (dictOrEmpty candidate), List.length_take_le _ _, ?_⟩
      exact Dict.get_merge_of_mem (by simp) (List.mem_cons_self ..)

/-! ## The tags that reach the store -/

theorem tagEq_str {d : Deployment} {s : String} {u : Json} : d.tagEq (.str s) u = true ↔ u = .str s := by
  cases u <;> simp [Deployment.tagEq, eq_comm]

/-- `dict.fromkeys` over strings: nothing is lost, nothing is counted twice. -/
theorem fromKeys_str (d : Deployment) (ts : List String) (acc : List Json) :
    ∃ r, d.fromKeys acc (ts.map .str) = .ok r ∧ r.length ≤ acc.length + ts.length ∧ acc ⊆ r ∧
      ∀ s ∈ ts, Json.str s ∈ r := by
  induction ts generalizing acc with
  | nil => exact ⟨acc, rfl, by simp, List.Subset.refl _, by simp⟩
  | cons t ts ih =>
    obtain ⟨r, hr, hlen, hsub, hmem⟩ := ih (if acc.any (d.tagEq (.str t)) then acc else acc ++ [.str t])
    have ht : Json.str t ∈ (if acc.any (d.tagEq (.str t)) then acc else acc ++ [.str t]) := by
      by_cases hany : acc.any (d.tagEq (.str t)) = true
      · obtain ⟨u, hu, he⟩ := List.any_eq_true.1 hany
        rw [if_pos hany, ← tagEq_str.1 he]
        exact hu
      · rw [if_neg hany]; simp
    refine ⟨r, hr, ?_, ?_, ?_⟩
    · split at hlen <;> simp only [List.length_append, List.length_cons, List.length_nil] at hlen ⊢ <;> omega
    · intro u hu
      refine hsub ?_
      split
      · exact hu
      · exact List.mem_append_left _ hu
    · intro s hs
      rcases List.mem_cons.1 hs with rfl | hs
      · exact hsub ht
      · exact hmem s hs

/-- **The body of a durable write**: the content, sanitized at both boundaries, and a tag list that has
the marker and `status:active`; the tag cap cannot reach them. -/
theorem addMemoryBody_durable (d : Deployment) (wing room content : String) {metadata : Dict} {marker : String}
    (conversationId : Option String) (ht : DurableTagged marker metadata) :
    ∃ body, addMemoryBody d wing room content metadata true conversationId = .ok body ∧
      body.content = d.sanitize content ∧ Json.str marker ∈ body.tags ∧ Json.str "status:active" ∈ body.tags := by
  obtain ⟨carried, hlen, htags⟩ := ht
  have hlist : listOrEmpty (Dict.get metadata "tags") = .ok (.str marker :: carried.map .str) := by
    rw [htags]; simp [listOrEmpty, Json.truthy]
  unfold addMemoryBody
  simp only [hlist]
  generalize d.str (((Dict.get metadata "agent").orElse (Dict.get metadata "agent_profile")).orElse (.str "unknown")) = ag
  generalize d.str ((Dict.get metadata "memory_type").orElse (.str "observation")) = mt
  generalize d.str ((Dict.get metadata "tenant_id").orElse (.str d.defaultTenantId)) = tn
  have key := fromKeys_str d (["permanent", "status:active", "wing:" ++ wing, "room:" ++ room, "agent:" ++ ag,
    "mtype:" ++ mt, "tenant:" ++ tn] ++ marker :: carried) []
  obtain ⟨r, hr, hrlen, -, hmem⟩ := key
  have hcap : r.take maxTagsPerMemory = r := by
    refine List.take_of_length_le (le_trans hrlen ?_)
    simp only [maxCarriedTags, maxTagsPerMemory, List.length_append, List.length_cons, List.length_nil] at hlen ⊢
    omega
  simp only [List.map_append, List.map_cons, List.map_nil] at hr
  rw [hr]
  refine ⟨_, rfl, rfl, ?_, ?_⟩
  · show Json.str marker ∈ r.take maxTagsPerMemory
    rw [hcap]; exact hmem marker (by simp)
  · show Json.str "status:active" ∈ r.take maxTagsPerMemory
    rw [hcap]; exact hmem "status:active" (by simp)

/-- The body `_finalize_write` posts. -/
theorem finalizeWrite_ok {d : Deployment} {profile : AgentProfile} {built : DurablePayload} {conversationId marker : String}
    {body : MemoryBody} (ht : DurableTagged marker built.metadata)
    (h : finalizeWrite d profile built conversationId = .ok body) :
    body.content = d.sanitize (d.sanitize built.content) ∧ Json.str marker ∈ body.tags ∧
      Json.str "status:active" ∈ body.tags := by
  unfold finalizeWrite at h
  split at h
  · cases h
  · split at h
    · cases h
    · simp only at h
      split at h
      · cases h
      · obtain ⟨b, hb, h1, h2, h3⟩ := addMemoryBody_durable d built.wing built.room (d.sanitize built.content)
          (some conversationId) ht
        rw [hb] at h
        cases h
        exact ⟨h1, h2, h3⟩

/-! ## A small candidate -/

/-- A candidate about the drawer `x`. -/
def sampleCandidate : String := "\x7b\"memory_id\": \"x\", \"text\": \"tea\"\x7d"

theorem sampleCandidate_loads :
    sampleDeployment.loads sampleCandidate = .ok (.obj [("memory_id", .str "x"), ("text", .str "tea")]) := by
  have hw : WF (.obj [("memory_id", .str "x"), ("text", .str "tea")]) := wf_obj_iff.2 ⟨by decide, by simp [WF]⟩
  have hd : PyJson.dumps sampleDeployment.limits spaced (.obj [("memory_id", .str "x"), ("text", .str "tea")]) =
      .ok sampleCandidate := rfl
  unfold Deployment.loads
  rw [loads_dumps hw hd]
  rfl

end Panella

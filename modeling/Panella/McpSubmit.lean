import Panella.SourceKeys
import Panella.TenantWrite
import Panella.Lib.DictEquality

/-!
# The submit tool (`panella/mcp_tools.py`)

| here | there |
| --- | --- |
| `McpToolContext`, `dispatch` | `McpToolContext` (:64-88), `dispatch` (:278-297), for `memory.submit_candidate` |
| `handleSubmit` | `_handle_submit` (:331-378) |
| `ToolReply` | `_error_payload`, `_ok_payload` (:267-273) |
| `mountMcp` | `_mount_mcp` (`http/app.py` :309-352) |

The tool is there only for a profile with `*` among its approval patterns, so every write it makes is queued. What a
candidate says of its origin comes from the principal and the profile: the keys a caller could say it by are taken out of
its metadata or written over.

Main theorem `submit_yields_candidates`.
-/

namespace Panella

open Fallible PyJson PyText

/-! ## The tool -/

/-- What a tool answers. -/
inductive ToolReply
  | error (message code : String)
  | queued (approvalId : Nat) (wing room : String)
deriving DecidableEq

/-- The parts of the context the tool reads; the principal is the one of its client. -/
structure McpToolContext where
  profile : Option AgentProfile
  principal : Principal
  serving : Bool
  servingReason : String

/-- How the write goes on once it has a candidate or a body. -/
structure WriteEnd where
  /-- The `INSERT` of a candidate: its id, or what it raises. -/
  insert : Except PyErr Nat
  /-- What comes after the `INSERT` or the `POST`: the quota, the audit log and the history. -/
  after : Except PyErr Unit

/-- One call of the tool: what it answered, and what it left in the queue and handed to the adapter. -/
structure SubmitRun where
  reply : ToolReply
  queued : Option Dict
  posted : Option MemoryBody

def SubmitRun.refused (message code : String) : SubmitRun := ⟨.error message code, none, none⟩

/-- The `except` clauses of `_handle_submit`. -/
def submitError (d : Deployment) (e : PyErr) : ToolReply :=
  match e with
  | .permissionError m => .error m "forbidden"
  | .quotaExceeded m => .error m "quota_exceeded"
  | .valueError m => .error m "invalid_arguments"
  | .json j => .error (d.jsonErrorText j) "invalid_arguments"
  | e => .error ("submit failed: " ++ d.errorText e) "internal_error"

/-- `arguments.get(name)`, where it is a text that is not blank. -/
def requiredText (arguments : Dict) (name : String) : Option String :=
  match Dict.get arguments name with
  | .str s => if stripSpace s = "" then none else some s
  | _ => none

/-- `arguments.get("metadata")`, or an empty dict for what is none. -/
def metadataArgument (arguments : Dict) : Dict :=
  match Dict.get arguments "metadata" with
  | .obj kvs => kvs
  | _ => []

/-- The call of `client.write`, and what becomes of it. -/
def submitWrite (d : Deployment) (p : AgentProfile) (pr : Principal) (q : QuotaState) (clk : WriteClock) (fin : WriteEnd)
    (content room memoryType : String) (metadata : Dict) : SubmitRun :=
  let clean := WriteHygiene.sanitizeNetworkWriteMetadata metadata
  match NetworkRoute.checkKeywords clean >>= fun _ => write d p pr q clk ⟨content, room, memoryType, none, clean⟩ with
  | .error e => ⟨submitError d e, none, none⟩
  | .ok (.queued candidate) =>
    match fin.insert with
    | .error e => ⟨submitError d e, none, none⟩
    | .ok approvalId =>
      match fin.after with
      | .error e => ⟨submitError d e, some candidate, none⟩
      | .ok () =>
        let text : String → String := fun key => match Dict.get candidate key with | .str s => s | _ => ""
        ⟨.queued approvalId (text "suggested_wing") (text "suggested_room"), some candidate, none⟩
  | .ok (.posted body) =>
    match fin.after with
    | .error e => ⟨submitError d e, none, some body⟩
    -- The belt: a write that was not queued is an error, though it was made.
    | .ok () => ⟨.error "submit did not route to the approval queue; refused" "internal_error", none, some body⟩

/-- `_handle_submit`. -/
def handleSubmit (d : Deployment) (p : AgentProfile) (pr : Principal) (q : QuotaState) (clk : WriteClock) (fin : WriteEnd)
    (arguments : Dict) : SubmitRun :=
  match requiredText arguments "content", requiredText arguments "room", requiredText arguments "memory_type" with
  | none, _, _ => .refused "content is required" "invalid_arguments"
  | some _, none, _ => .refused "room is required" "invalid_arguments"
  | some _, some _, none => .refused "memory_type is required" "invalid_arguments"
  | some content, some room, some memoryType =>
    submitWrite d p pr q clk fin content room memoryType (metadataArgument arguments)

/-- `dispatch(ctx, "memory.submit_candidate", arguments)`. -/
def dispatchSubmit (d : Deployment) (ctx : McpToolContext) (q : QuotaState) (clk : WriteClock) (fin : WriteEnd)
    (arguments : Dict) : SubmitRun :=
  if !ctx.serving then
    .refused ("memory not serving (governance/corpus incoherence): " ++ ctx.servingReason) "memory_not_serving"
  else
    match ctx.profile with
    | none => .refused "tool not available: memory.submit_candidate" "unknown_tool"
    | some p =>
      if NetworkRoute.mcp.registered p then handleSubmit d p ctx.principal q clk fin arguments
      else .refused "tool not available: memory.submit_candidate" "unknown_tool"

/-- The context `_mount_mcp` builds; its gate stands before the mount. -/
def mountMcp (d : Deployment) (p : AgentProfile) : Except PyErr McpToolContext :=
  (principalDefaultForProfile d p).map fun pr => ⟨some p, pr, true, ""⟩

/-! ## Candidates only -/

section
variable {d : Deployment} {p : AgentProfile} {pr : Principal} {q : QuotaState} {clk : WriteClock} {fin : WriteEnd}

theorem approvalRequired_registered (h : NetworkRoute.mcp.registered p = true) (wing room : String) :
    approvalRequired p wing room = true := by
  simp only [NetworkRoute.registered, Bool.and_eq_true, List.contains_iff_mem] at h
  exact List.any_eq_true.2 ⟨"*", h.2, Fnmatch.fnmatchcase_star _⟩

/-- A registered profile's write is queued, whatever the call. -/
theorem write_registered (h : NetworkRoute.mcp.registered p = true) {c : WriteCall} {out : WriteOutcome}
    (hw : write d p pr q clk c = .ok out) :
    ∃ a, prepareWrite d p pr q clk c = .ok a ∧ out = .queued (a.candidate p.name) := by
  unfold write at hw
  split at hw
  · cases hw
  · next a ha =>
    rw [if_pos (approvalRequired_registered h _ _)] at hw
    cases hw
    exact ⟨a, ha, rfl⟩

/-- What one call of the tool does: nothing goes to the adapter, and it is queued or an error. -/
structure CandidateOnly (run : SubmitRun) : Prop where
  posted : run.posted = none
  reply : run.queued.isSome ∨ ∃ message code, run.reply = .error message code
  acknowledged : ∀ approvalId wing room, run.reply = .queued approvalId wing room → run.queued.isSome

theorem candidateOnly_refused (message code : String) : CandidateOnly (.refused message code) :=
  ⟨rfl, .inr ⟨message, code, rfl⟩, fun _ _ _ h => by cases h⟩

theorem submitError_error (d : Deployment) (e : PyErr) : ∃ message code, submitError d e = .error message code := by
  cases e <;> exact ⟨_, _, rfl⟩

theorem candidateOnly_error (e : PyErr) (queued : Option Dict) : CandidateOnly ⟨submitError d e, queued, none⟩ := by
  obtain ⟨message, code, he⟩ := submitError_error d e
  rw [he]
  exact ⟨rfl, .inr ⟨message, code, rfl⟩, fun _ _ _ h => by cases h⟩

theorem candidateOnly_submitWrite (h : NetworkRoute.mcp.registered p = true) (content room memoryType : String)
    (metadata : Dict) : CandidateOnly (submitWrite d p pr q clk fin content room memoryType metadata) := by
  unfold submitWrite
  simp only
  split
  · exact candidateOnly_error _ _
  · split
    · exact candidateOnly_error _ _
    · split
      · exact candidateOnly_error _ _
      · exact ⟨rfl, .inl rfl, fun _ _ _ _ => rfl⟩
  · next body hw =>
    obtain ⟨-, -, hw⟩ := bind_ok hw
    obtain ⟨a, -, hout⟩ := write_registered h hw
    cases hout

theorem candidateOnly_dispatch (ctx : McpToolContext) (arguments : Dict) :
    CandidateOnly (dispatchSubmit d ctx q clk fin arguments) := by
  unfold dispatchSubmit
  split
  · exact candidateOnly_refused _ _
  · split
    · exact candidateOnly_refused _ _
    · split
      · next hreg =>
        unfold handleSubmit
        split
        · exact candidateOnly_refused _ _
        · exact candidateOnly_refused _ _
        · exact candidateOnly_refused _ _
        · exact candidateOnly_submitWrite hreg _ _ _ _
      · exact candidateOnly_refused _ _

/-! ## What a candidate says of its origin -/

/-- The keys of the metadata that say who wrote, and for whom. -/
def identityKeys : List String :=
  ["principal_id", "actor_id", "subject_id", "tenant_id", "source_system", "agent_profile"]

/-- The keys of the metadata that hold a time. -/
def timeKeys : List String := ["retention_expires_at", "retention_stamped_at", "valid_from", "ingested_at"]

/-- A candidate says of its origin what the principal and the profile say. -/
structure ServerDerived (p : AgentProfile) (pr : Principal) (candidate : Dict) : Prop where
  profile : Dict.get candidate "agent_profile" = .str p.name
  metadata : ∃ metadata, Dict.get candidate "metadata" = .obj metadata ∧
    identityKeys.map (Dict.get metadata) =
      [.str pr.id, .str pr.actorId, .str pr.subjectId, .str pr.tenantId, .str ("memory-client:" ++ p.name), .str p.name]

theorem lookup_clean {blocked : List String} (htags : "tags" ∉ blocked) (metadata : Dict) (k : String) :
    (WriteHygiene.clean blocked metadata).lookup k =
      if k ∈ blocked then none
      else if k = "tags" then (metadata.lookup k).map WriteHygiene.stripReservedTags
      else metadata.lookup k := by
  have hkept : ∀ j, (metadata.filter fun kv => !blocked.contains kv.1).lookup j =
      if j ∈ blocked then none else metadata.lookup j := by
    intro j
    rw [OrderedDict.lookup_filter_keys (fun i => !blocked.contains i)]
    by_cases hj : j ∈ blocked
    · simp [hj]
    · simp [hj]
  unfold WriteHygiene.clean
  simp only [Dict.has_eq_lookup, Dict.get_eq_lookup, hkept, if_neg htags]
  by_cases hk : k = "tags"
  · subst hk
    simp only [if_neg htags, if_true]
    cases hm : metadata.lookup "tags" with
    | none =>
      simp only [Option.isSome_none, Bool.false_eq_true, if_false, Option.map_none]
      rw [hkept, if_neg htags, hm]
    | some v => simp [Dict.lookup_set]
  · simp only [if_neg hk]
    split
    · rw [Dict.lookup_set, if_neg hk, hkept]
    · rw [hkept]

/-- Two dicts that may differ at some keys. -/
def AgreeOff (keys : List String) (m m' : Dict) : Prop := ∀ k, k ∉ keys → m.lookup k = m'.lookup k

theorem AgreeOff.get {keys : List String} {m m' : Dict} (h : AgreeOff keys m m') {k : String} (hk : k ∉ keys) :
    Dict.get m k = Dict.get m' k := by
  rw [Dict.get_eq_lookup, Dict.get_eq_lookup, h k hk]

theorem AgreeOff.getD {keys : List String} {m m' : Dict} (h : AgreeOff keys m m') {k : String} (hk : k ∉ keys) (v : Json) :
    Dict.getD m k v = Dict.getD m' k v := by
  rw [Dict.getD_eq_lookup, Dict.getD_eq_lookup, h k hk]

theorem AgreeOff.erase {keys : List String} {m m' : Dict} (h : AgreeOff keys m m') (k : String) :
    AgreeOff keys (Dict.erase m k) (Dict.erase m' k) := by
  intro j hj
  rw [Dict.lookup_erase, Dict.lookup_erase, h j hj]

/-- Of the identity keys, the hygiene leaves the two that `write` sets itself. -/
theorem AgreeOff.sanitize {m m' : Dict} (h : AgreeOff identityKeys m m') :
    AgreeOff ["tenant_id", "agent_profile"] (WriteHygiene.sanitizeNetworkWriteMetadata m)
      (WriteHygiene.sanitizeNetworkWriteMetadata m') := by
  intro k hk
  unfold WriteHygiene.sanitizeNetworkWriteMetadata
  rw [lookup_clean (by decide), lookup_clean (by decide)]
  by_cases hb : k ∈ WriteHygiene.networkWriteBlockedMetadata
  · rw [if_pos hb, if_pos hb]
  · have hid : k ∉ identityKeys := by
      simp [WriteHygiene.networkWriteBlockedMetadata, WriteHygiene.httpBlockedWriteMetadata] at hb
      simp at hk
      simp [identityKeys, hb, hk]
    rw [if_neg hb, if_neg hb, h k hid]

/-- The last part of `payload_metadata`, which nothing overwrites. -/
def originMetadata (p : AgentProfile) (pr : Principal) (c : WriteCall) (tenantId : String) (infer : Bool) : Dict :=
  [("tenant_id", .str tenantId),
   ("subject_id", (Dict.get (callerMetadata c) "subject_id").orElse (.str pr.subjectId)),
   ("actor_id", (Dict.get (callerMetadata c) "actor_id").orElse (.str pr.actorId)),
   ("principal_id", (Dict.get (callerMetadata c) "principal_id").orElse (.str pr.id)),
   ("author_agent_id", Dict.get (callerMetadata c) "author_agent_id"),
   ("source_bridge", Dict.get (callerMetadata c) "source_bridge"),
   ("session_id", Dict.get (callerMetadata c) "session_id"),
   ("infer", .bool infer),
   ("schema_version", Dict.getD (callerMetadata c) "schema_version" (.str "v2")),
   ("migration_batch_id", Dict.get (callerMetadata c) "migration_batch_id"),
   ("memory_type", .str c.memoryType),
   ("source_system", Dict.getD (callerMetadata c) "source_system" (.str ("memory-client:" ++ p.name))),
   ("agent_profile", .str p.name)]

theorem lookup_payloadMetadata (tenantId : String) (infer : Bool) (c : WriteCall) (k : String) :
    (payloadMetadata p pr clk c tenantId infer).lookup k =
      ((originMetadata p pr c tenantId infer).lookup k).or (((bitemporalMetadata clk).lookup k).or
        (((retentionMetadata p clk (effectiveRoom p c)).lookup k).or ((callerMetadata c).lookup k))) := by
  have hmerge : payloadMetadata p pr clk c tenantId infer =
      Dict.merge (Dict.merge (Dict.merge (callerMetadata c) (retentionMetadata p clk (effectiveRoom p c)))
        (bitemporalMetadata clk)) (originMetadata p pr c tenantId infer) := rfl
  rw [hmerge, Dict.lookup_merge (by simp [originMetadata]), Dict.lookup_merge (by simp [bitemporalMetadata]),
    Dict.lookup_merge (by simp [retentionMetadata])]

/-- A candidate without the times in its metadata. -/
def timeless (candidate : Dict) : Dict :=
  Dict.set candidate "metadata"
    (.obj ((dictOrEmpty (Dict.get candidate "metadata")).filter fun kv => !timeKeys.contains kv.1))

/-- The clock is in the time keys only. -/
theorem lookup_clock {k : String} (hk : k ∉ timeKeys) (clk' : WriteClock) (room : String) :
    (bitemporalMetadata clk).lookup k = (bitemporalMetadata clk').lookup k ∧
      (retentionMetadata p clk room).lookup k = (retentionMetadata p clk' room).lookup k := by
  simp only [timeKeys, List.mem_cons, List.not_mem_nil, or_false, not_or] at hk
  obtain ⟨hexpires, hstamped, hfrom, hingested⟩ := hk
  constructor
  · simp [bitemporalMetadata, OrderedDict.lookup_cons_if, hfrom, hingested]
  · simp [retentionMetadata, OrderedDict.lookup_cons_if, hexpires, hstamped]

/-- The metadata of two writes that differ in what says who writes. -/
theorem payloadMetadata_agree {c c' : WriteCall} {clk' : WriteClock} (hroom : c.room = c'.room)
    (htype : c.memoryType = c'.memoryType) (hm : AgreeOff ["tenant_id", "agent_profile"] c.metadata c'.metadata)
    (tenantId : String) (infer : Bool) :
    AgreeOff timeKeys (payloadMetadata p pr clk c tenantId infer) (payloadMetadata p pr clk' c' tenantId infer) := by
  have hcaller : AgreeOff ["tenant_id", "agent_profile"] (callerMetadata c) (callerMetadata c') := ((hm.erase _).erase _).erase _
  have horigin : originMetadata p pr c tenantId infer = originMetadata p pr c' tenantId infer := by
    unfold originMetadata
    rw [hcaller.get (by decide : "subject_id" ∉ _), hcaller.get (by decide : "actor_id" ∉ _),
      hcaller.get (by decide : "principal_id" ∉ _), hcaller.get (by decide : "author_agent_id" ∉ _),
      hcaller.get (by decide : "source_bridge" ∉ _), hcaller.get (by decide : "session_id" ∉ _),
      hcaller.getD (by decide : "schema_version" ∉ _), hcaller.get (by decide : "migration_batch_id" ∉ _),
      hcaller.getD (by decide : "source_system" ∉ _), htype]
  have heffective : effectiveRoom p c = effectiveRoom p c' := by simp only [effectiveRoom, hroom]
  intro k hk
  obtain ⟨hbit, hret⟩ : (bitemporalMetadata clk).lookup k = (bitemporalMetadata clk').lookup k ∧
      (retentionMetadata p clk (effectiveRoom p c')).lookup k = (retentionMetadata p clk' (effectiveRoom p c')).lookup k :=
    lookup_clock hk clk' (effectiveRoom p c')
  rw [lookup_payloadMetadata, lookup_payloadMetadata, horigin, heffective, hbit, hret]
  by_cases hset : k ∈ ["tenant_id", "agent_profile"]
  · simp only [List.mem_cons, List.not_mem_nil, or_false] at hset
    rcases hset with rfl | rfl
    · rfl
    · rfl
  · rw [hcaller k hset]

/-! ## Queued calls -/

theorem mount_principal {ctx : McpToolContext} (h : mountMcp d p = .ok ctx) (now : Instant) :
    ctx.profile = some p ∧ ctx.principal.isRootWithBreakGlass now = false := by
  unfold mountMcp at h
  cases hpr : principalDefaultForProfile d p with
  | error e =>
    rw [hpr] at h
    cases h
  | ok pr =>
    rw [hpr] at h
    cases h
    obtain ⟨hroot, -, -⟩ := principalDefault_ok hpr
    refine ⟨rfl, ?_⟩
    simp [Principal.isRootWithBreakGlass, hroot]

/-- The call of `write` behind a candidate. -/
structure SubmitCall (d : Deployment) (p : AgentProfile) (pr : Principal) (clk : WriteClock) (arguments candidate : Dict)
    (c : WriteCall) (a : PreparedWrite) : Prop where
  content : requiredText arguments "content" = some c.content
  room : requiredText arguments "room" = some c.room
  memoryType : requiredText arguments "memory_type" = some c.memoryType
  metadata : c.metadata = WriteHygiene.sanitizeNetworkWriteMetadata (metadataArgument arguments)
  prepared : ∃ q, prepareWrite d p pr q clk c = .ok a
  candidate : candidate = a.candidate p.name

theorem dispatch_queued {ctx : McpToolContext} {arguments candidate : Dict} (hp : ctx.profile = some p)
    (h : (dispatchSubmit d ctx q clk fin arguments).queued = some candidate) :
    ∃ c a, SubmitCall d p ctx.principal clk arguments candidate c a := by
  unfold dispatchSubmit at h
  rw [hp] at h
  split at h
  · cases h
  simp only at h
  split at h
  · next hreg =>
    unfold handleSubmit at h
    split at h
    · cases h
    · cases h
    · cases h
    · next content room memoryType hcontent hroom htype =>
      unfold submitWrite at h
      simp only at h
      split at h
      · cases h
      · next candidate' hw =>
        obtain ⟨-, -, hw⟩ := bind_ok hw
        obtain ⟨a, ha, hout⟩ := write_registered hreg hw
        cases hout
        split at h
        · cases h
        · split at h
          · cases h
            exact ⟨_, a, hcontent, hroom, htype, rfl, ⟨q, ha⟩, rfl⟩
          · cases h
            exact ⟨_, a, hcontent, hroom, htype, rfl, ⟨q, ha⟩, rfl⟩
      · split at h
        · cases h
        · cases h
  · cases h

namespace SubmitCall

variable {arguments candidate : Dict} {c : WriteCall} {a : PreparedWrite}

/-- Nothing the caller says of its identity is left. -/
theorem blocked (h : SubmitCall d p pr clk arguments candidate c a) {k : String}
    (hk : k ∈ WriteHygiene.networkWriteBlockedMetadata) (hkw : k ∉ ["raise_dedup_skipped", "infer", "wing"]) :
    (callerMetadata c).lookup k = none := by
  simp only [List.mem_cons, List.not_mem_nil, or_false, not_or] at hkw
  unfold callerMetadata
  rw [Dict.lookup_erase, Dict.lookup_erase, Dict.lookup_erase, if_neg hkw.2.2, if_neg hkw.2.1, if_neg hkw.1, h.metadata,
    WriteHygiene.sanitizeNetworkWriteMetadata, lookup_clean (by decide), if_pos hk]

theorem serverDerived (h : SubmitCall d p pr clk arguments candidate c a) (hbg : pr.isRootWithBreakGlass clk.now = false) :
    ServerDerived p pr candidate := by
  obtain ⟨q, hprepared⟩ := h.prepared
  obtain ⟨tenantId, infer, htenant, -, -, ha⟩ := prepareWrite_ok hprepared
  obtain rfl := resolveWriteTenantId_own htenant hbg
  have hmeta : Dict.get candidate "metadata" = .obj (payloadMetadata p pr clk c pr.tenantId infer) := by
    simp [h.candidate, ha, PreparedWrite.candidate, Dict.get]
  refine ⟨by simp [h.candidate, PreparedWrite.candidate, Dict.get], _, hmeta, ?_⟩
  have hget : ∀ k v, (originMetadata p pr c pr.tenantId infer).lookup k = some v →
      Dict.get (payloadMetadata p pr clk c pr.tenantId infer) k = v := by
    intro k v hv
    rw [Dict.get_eq_lookup, lookup_payloadMetadata, hv]
    rfl
  have hsubject : (callerMetadata c).lookup "subject_id" = none := h.blocked (by decide) (by decide)
  have hactor : (callerMetadata c).lookup "actor_id" = none := h.blocked (by decide) (by decide)
  have hprincipal : (callerMetadata c).lookup "principal_id" = none := h.blocked (by decide) (by decide)
  have hsource : (callerMetadata c).lookup "source_system" = none := h.blocked (by decide) (by decide)
  simp only [identityKeys, List.map_cons, List.map_nil, List.cons.injEq, and_true]
  refine ⟨hget _ _ ?_, hget _ _ ?_, hget _ _ ?_, hget _ _ ?_, hget _ _ ?_, hget _ _ ?_⟩
  all_goals simp [originMetadata, OrderedDict.lookup_cons_if, Dict.get_eq_lookup, Dict.getD_eq_lookup, hsubject, hactor,
    hprincipal, hsource, Json.orElse, Json.truthy]

/-- The prepared write, by the call. -/
theorem prepared_eq (h : SubmitCall d p pr clk arguments candidate c a) (hbg : pr.isRootWithBreakGlass clk.now = false) :
    ∃ infer, readInfer (Dict.erase c.metadata "raise_dedup_skipped") = .ok infer ∧
      candidate =
        [("text", .str (d.sanitize c.content)), ("suggested_wing", .str (effectiveWing d p c)),
         ("suggested_room", .str (effectiveRoom p c)), ("memory_type", .str c.memoryType),
         ("metadata", .obj (payloadMetadata p pr clk c pr.tenantId infer)),
         ("memory_id", .str (deterministicMemoryId (effectiveWing d p c) (effectiveRoom p c) (d.sanitize c.content))),
         ("agent_profile", .str p.name)] := by
  obtain ⟨q, hprepared⟩ := h.prepared
  obtain ⟨tenantId, infer, htenant, -, hinfer, ha⟩ := prepareWrite_ok hprepared
  obtain rfl := resolveWriteTenantId_own htenant hbg
  refine ⟨infer, hinfer, ?_⟩
  simp only [h.candidate, ha, PreparedWrite.candidate]

end SubmitCall

/-- Two argument maps that differ in the identity keys of the metadata only. -/
structure IdentityTwins (arguments arguments' : Dict) : Prop where
  wf : WF (.obj arguments)
  wf' : WF (.obj arguments')
  outside : AgreeOff ["metadata"] arguments arguments'
  inside : AgreeOff identityKeys (metadataArgument arguments) (metadataArgument arguments')

theorem wf_metadataArgument {arguments : Dict} (h : WF (.obj arguments)) : WF (.obj (metadataArgument arguments)) := by
  have hget := wf_get h "metadata"
  unfold metadataArgument
  split
  · next kvs hkvs =>
    rw [hkvs] at hget
    exact hget
  · exact wf_obj_iff.2 ⟨List.nodup_nil, by simp⟩

theorem IdentityTwins.text {arguments arguments' : Dict} (h : IdentityTwins arguments arguments') {name : String}
    (hname : name ≠ "metadata") : requiredText arguments name = requiredText arguments' name := by
  unfold requiredText
  rw [h.outside.get (by simpa using hname)]

/-- Two candidates that differ in the times only are written alike without them. -/
theorem timeless_eq {text wing room memoryType memoryId profile : Json} {m m' : Dict} (hm : (m.map Prod.fst).Nodup)
    (hm' : (m'.map Prod.fst).Nodup) (h : AgreeOff timeKeys m m') :
    sortKeys (.obj (timeless [("text", text), ("suggested_wing", wing), ("suggested_room", room), ("memory_type", memoryType),
      ("metadata", .obj m), ("memory_id", memoryId), ("agent_profile", profile)])) =
    sortKeys (.obj (timeless [("text", text), ("suggested_wing", wing), ("suggested_room", room), ("memory_type", memoryType),
      ("metadata", .obj m'), ("memory_id", memoryId), ("agent_profile", profile)])) := by
  have hkept : sortKeys (.obj (m.filter fun kv => !timeKeys.contains kv.1)) =
      sortKeys (.obj (m'.filter fun kv => !timeKeys.contains kv.1)) := by
    refine sortKeys_obj (hm.sublist (List.filter_sublist.map _)) (hm'.sublist (List.filter_sublist.map _)) ?_
    intro k
    rw [OrderedDict.lookup_filter_keys (fun i => !timeKeys.contains i),
      OrderedDict.lookup_filter_keys (fun i => !timeKeys.contains i)]
    by_cases hk : k ∈ timeKeys
    · simp [hk]
    · simp [hk, h k hk]
  simp [timeless, dictOrEmpty, Dict.get, Dict.set, sortKeys, sortKeysMembers] at hkept ⊢
  rw [hkept]

theorem twins_queue_alike {pr : Principal} {clk clk' : WriteClock} {arguments arguments' candidate candidate' : Dict}
    (htwins : IdentityTwins arguments arguments') (hbg : pr.isRootWithBreakGlass clk.now = false)
    (hbg' : pr.isRootWithBreakGlass clk'.now = false) {c c' : WriteCall} {a a' : PreparedWrite}
    (h : SubmitCall d p pr clk arguments candidate c a) (h' : SubmitCall d p pr clk' arguments' candidate' c' a') :
    sortKeys (.obj (timeless candidate)) = sortKeys (.obj (timeless candidate')) := by
  have hm : AgreeOff ["tenant_id", "agent_profile"] c.metadata c'.metadata := by
    rw [h.metadata, h'.metadata]
    exact htwins.inside.sanitize
  have hcontent : c.content = c'.content := by
    have htext := htwins.text (by decide : "content" ≠ "metadata")
    rw [h.content, h'.content] at htext
    exact Option.some.inj htext
  have hroom : c.room = c'.room := by
    have htext := htwins.text (by decide : "room" ≠ "metadata")
    rw [h.room, h'.room] at htext
    exact Option.some.inj htext
  have htype : c.memoryType = c'.memoryType := by
    have htext := htwins.text (by decide : "memory_type" ≠ "metadata")
    rw [h.memoryType, h'.memoryType] at htext
    exact Option.some.inj htext
  have hwing : effectiveWing d p c = effectiveWing d p c' := by
    simp only [effectiveWing, hm.get (by decide : "wing" ∉ _)]
  have heffective : effectiveRoom p c = effectiveRoom p c' := by
    simp only [effectiveRoom, hroom]
  obtain ⟨infer, hinfer, hcand⟩ := h.prepared_eq hbg
  obtain ⟨infer', hinfer', hcand'⟩ := h'.prepared_eq hbg'
  obtain rfl : infer = infer' := by
    unfold readInfer at hinfer hinfer'
    rw [(hm.erase "raise_dedup_skipped").getD (by decide : "infer" ∉ _), hinfer'] at hinfer
    exact (Except.ok.inj hinfer).symm
  have hwf : WF (.obj c.metadata) := by
    rw [h.metadata]
    exact wf_clean (wf_metadataArgument htwins.wf) _
  have hwf' : WF (.obj c'.metadata) := by
    rw [h'.metadata]
    exact wf_clean (wf_metadataArgument htwins.wf') _
  rw [hcand, hcand', hcontent, htype, hwing, heffective]
  exact timeless_eq (wf_obj_iff.1 (wf_payloadMetadata p pr clk hwf pr.tenantId infer)).1
    (wf_obj_iff.1 (wf_payloadMetadata p pr clk' hwf' pr.tenantId infer)).1 (payloadMetadata_agree hroom htype hm pr.tenantId infer)

end

/-! ## The main theorem -/

/-- **The submit tool yields candidates.** No call hands anything to the adapter: it queues a candidate or is an error. What
a candidate says of its origin comes from the profile and its principal, and two calls that differ in what the caller says of
it, if both are queued, queue candidates that differ in the times only. -/
theorem submit_yields_candidates (d : Deployment) (p : AgentProfile) :
    (∀ (ctx : McpToolContext) (q : QuotaState) (clk : WriteClock) (fin : WriteEnd) (arguments : Dict),
      CandidateOnly (dispatchSubmit d ctx q clk fin arguments)) ∧
    ∀ ctx, mountMcp d p = .ok ctx →
      (∀ q clk fin arguments candidate, (dispatchSubmit d ctx q clk fin arguments).queued = some candidate →
        ServerDerived p ctx.principal candidate) ∧
      ∀ q q' clk clk' fin fin' arguments arguments' candidate candidate', IdentityTwins arguments arguments' →
        (dispatchSubmit d ctx q clk fin arguments).queued = some candidate →
        (dispatchSubmit d ctx q' clk' fin' arguments').queued = some candidate' →
        sortKeys (.obj (timeless candidate)) = sortKeys (.obj (timeless candidate')) := by
  refine ⟨fun ctx q clk fin arguments => candidateOnly_dispatch ctx arguments, ?_⟩
  intro ctx hctx
  constructor
  · intro q clk fin arguments candidate h
    obtain ⟨hp, hbg⟩ := mount_principal hctx clk.now
    obtain ⟨c, a, hcall⟩ := dispatch_queued hp h
    exact hcall.serverDerived hbg
  · intro q q' clk clk' fin fin' arguments arguments' candidate candidate' htwins h h'
    obtain ⟨hp, hbg⟩ := mount_principal hctx clk.now
    obtain ⟨-, hbg'⟩ := mount_principal hctx clk'.now
    obtain ⟨c, a, hcall⟩ := dispatch_queued hp h
    obtain ⟨c', a', hcall'⟩ := dispatch_queued hp h'
    exact twins_queue_alike htwins hbg hbg' hcall hcall'

/-- A profile the tool is there for. -/
def submitProfile : AgentProfile := { notesProfile with approvalRequiredFor := ["*"] }

/-- The arguments of a call that says in its metadata who writes, or does not. -/
def submitArguments (metadata : Dict) : Dict :=
  [("content", .str "tea at four"), ("room", .str "journal"), ("memory_type", .str "note"), ("metadata", .obj metadata)]

def forgedIdentity : Dict := [("principal_id", .str "root"), ("source_system", .str "owner-manual"), ("agent_profile", .str "root")]

theorem submit_yields_candidates_sample : ∃ ctx candidate candidate', mountMcp plainDeployment submitProfile = .ok ctx ∧
    (dispatchSubmit plainDeployment ctx ⟨0, 0, []⟩ quietClock ⟨.ok 1, .ok ()⟩ (submitArguments [])).queued = some candidate ∧
    (dispatchSubmit plainDeployment ctx ⟨1, 0, []⟩ quietClock ⟨.ok 2, .ok ()⟩ (submitArguments forgedIdentity)).queued =
      some candidate' ∧
    ServerDerived submitProfile ctx.principal candidate' ∧
    sortKeys (.obj (timeless candidate)) = sortKeys (.obj (timeless candidate')) := by
  obtain ⟨ctx, hctx⟩ : ∃ ctx, mountMcp plainDeployment submitProfile = .ok ctx := ⟨_, rfl⟩
  obtain ⟨candidate, h⟩ : ∃ candidate, (dispatchSubmit plainDeployment ctx ⟨0, 0, []⟩ quietClock ⟨.ok 1, .ok ()⟩
      (submitArguments [])).queued = some candidate := by
    cases hctx
    exact ⟨_, rfl⟩
  obtain ⟨candidate', h'⟩ : ∃ candidate', (dispatchSubmit plainDeployment ctx ⟨1, 0, []⟩ quietClock ⟨.ok 2, .ok ()⟩
      (submitArguments forgedIdentity)).queued = some candidate' := by
    cases hctx
    exact ⟨_, rfl⟩
  have htwins : IdentityTwins (submitArguments []) (submitArguments forgedIdentity) := by
    refine ⟨wf_obj_iff.2 ⟨by decide, ?_⟩, wf_obj_iff.2 ⟨by decide, ?_⟩, ?_, ?_⟩
    · simp [submitArguments, WF, WFMembers]
    · simp [submitArguments, forgedIdentity, WF, WFMembers]
    · intro k hk
      simp at hk
      simp [submitArguments, OrderedDict.lookup_cons_if, hk]
    · intro k hk
      simp only [identityKeys, List.mem_cons, List.not_mem_nil, or_false, not_or] at hk
      simp [submitArguments, forgedIdentity, metadataArgument, Dict.get, OrderedDict.lookup_cons_if, hk]
  obtain ⟨-, hmounted⟩ := submit_yields_candidates plainDeployment submitProfile
  obtain ⟨hderived, halike⟩ := hmounted ctx hctx
  exact ⟨ctx, candidate, candidate', hctx, h, h', hderived _ _ _ _ _ h', halike _ _ _ _ _ _ _ _ _ _ htwins h h'⟩

end Panella

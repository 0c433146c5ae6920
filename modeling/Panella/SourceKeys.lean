import Panella.DurableRow
import Panella.GovernedPaths

/-!
# Network writes and source keys

| here | there |
| --- | --- |
| `WriteHygiene` | `write_hygiene.py` (:34-67) |
| `NetworkRoute.write` | `write_memory` (`http/routes/write.py` :34-57), `_handle_submit` (`mcp_tools.py` :331-352) |
| `findActiveHashesByTag` | `find_active_hashes_by_tag` (`panella_adapter.py` :770-818) |
| `sourceVersions` | the rows `delete_prior_source_versions` and `replace_source_atom_set` act on (`client.py` :525-680) |

A row belongs to the source with key `k` when it has the tag `ccsk:k`, and the sync of that source deletes it.
The routes take such tags out of the caller's list, by their start and before the list is joined and split. What
gets past them is `Forges`: **`sourceKey_unforged_iff`**. A candidate from the MCP tool is always queued
(`submit_queues`), so the row to look at there is the one its approval leads to.
-/

namespace Panella

open Fallible PyJson PyText

variable {d : Deployment} {api : StoreApi}

/-! ## Hygiene -/

namespace WriteHygiene

/-- `HTTP_BLOCKED_WRITE_METADATA`. -/
def httpBlockedWriteMetadata : List String :=
  ["raise_dedup_skipped", "principal_id", "actor_id", "subject_id", "conversation_id", "source_artifact_key"]

/-- `NETWORK_WRITE_BLOCKED_METADATA`. -/
def networkWriteBlockedMetadata : List String := httpBlockedWriteMetadata ++ ["source_system"]

/-- `RESERVED_TAG_PREFIXES`. -/
def reservedTagPrefixes : List String := ["ccsk:"]

/-- `strip_reserved_tags`. -/
def stripReservedTags : Json → Json
  | .arr tags =>
    .arr (tags.filter fun t =>
      match t with
      | .str s => !reservedTagPrefixes.any fun p => p.toList.isPrefixOf s.toList
      | _ => true)
  | v => v

/-- The metadata without the blocked keys, and its `tags` stripped. -/
def clean (blocked : List String) (metadata : Dict) : Dict :=
  let kept := metadata.filter fun kv => !blocked.contains kv.1
  if Dict.has kept "tags" then Dict.set kept "tags" (stripReservedTags (Dict.get kept "tags")) else kept

/-- `sanitize_network_write_metadata`. -/
def sanitizeNetworkWriteMetadata : Dict → Dict := clean networkWriteBlockedMetadata

end WriteHygiene

/-! ## The two routes -/

/-- The body of a request; its metadata is a JSON object. -/
structure NetworkWrite where
  content : String
  room : String
  memoryType : String
  metadata : Dict
  wf : WF (.obj metadata)

inductive NetworkRoute
  | http
  | mcp
deriving DecidableEq, Repr

namespace NetworkRoute

def clean : NetworkRoute → Dict → Dict
  | .http => WriteHygiene.clean WriteHygiene.httpBlockedWriteMetadata
  | .mcp => WriteHygiene.sanitizeNetworkWriteMetadata

/-- `_write_capable(profile)`; the HTTP route is always there. -/
def registered (p : AgentProfile) : NetworkRoute → Bool
  | .http => true
  | .mcp => !p.finalizerOnly && !p.memoryTypeAllowlist.isEmpty && p.approvalRequiredFor.contains "*"

/-- A required text, as the schema of the route checks it. -/
def checkText : NetworkRoute → String → String → Except PyErr Unit
  | .http, name, s => if s = "" then .error (.valueError (name ++ ": String should have at least 1 character")) else .ok ()
  | .mcp, name, s => if stripSpace s = "" then .error (.valueError (name ++ " is required")) else .ok ()

/-- The keyword arguments the route passes by name itself. -/
def namedArguments : List String := ["self", "content", "room", "memory_type"]

/-- `client.write(content, room=…, memory_type=…, **metadata)`. -/
def checkKeywords (metadata : Dict) : Except PyErr Unit :=
  match namedArguments.find? fun k => Dict.has metadata k with
  | some k => .error (.typeError ("panella.client.MemoryClient.write() got multiple values for argument '" ++ k ++ "'"))
  | none => .ok ()

/-- The call the route makes. -/
def call (route : NetworkRoute) (r : NetworkWrite) : WriteCall :=
  ⟨r.content, r.room, r.memoryType, none, route.clean r.metadata⟩

/-- `write_memory`, `_handle_submit`, up to the insert or the POST. -/
def write (d : Deployment) (route : NetworkRoute) (p : AgentProfile) (pr : Principal) (q : QuotaState) (clk : WriteClock)
    (r : NetworkWrite) : Except PyErr WriteOutcome :=
  if !route.registered p then .error (.valueError "tool not available: memory.submit_candidate")
  else do
    route.checkText "content" r.content
    route.checkText "room" r.room
    route.checkText "memory_type" r.memoryType
    checkKeywords (route.clean r.metadata)
    Panella.write d p pr q clk (route.call r)

end NetworkRoute

/-! ## The rows of a source -/

/-- `FIND_ACTIVE_HASHES_LIMIT`. -/
def findActiveHashesLimit : Nat := 200

/-- The answer to a search by tags: rows, and how many there are. -/
structure TagSearch where
  results : List StoreRow
  totalFound : Option Nat

/-- The answer of a store that matches all tags. -/
def Store.searchByTag (st : Store) (tags : List String) (nResults : Nat) : TagSearch :=
  let hits := st.rows.filter fun r => r.hasTags tags
  ⟨hits.take nResults, some hits.length⟩

/-- `find_active_hashes_by_tag`: refused where rows may be missing, and checked again row by row. -/
def findActiveHashesByTag (d : Deployment) (tag tenantId : String) (limit : Nat) (answer : TagSearch) :
    Except PyErr (List String) :=
  if answer.totalFound.any (answer.results.length < ·) || decide (limit ≤ answer.results.length) then
    .error (.runtimeError ("find_active_hashes_by_tag: tag " ++ d.repr (.str tag) ++ " matched more rows (total_found=" ++
      answer.totalFound.elim "None" toString ++ ") than the fetched " ++ toString answer.results.length ++ " (limit=" ++
      toString limit ++ "); refusing to return a partial set"))
  else .ok ((answer.results.filter fun r => r.hasTags (markerTags tag tenantId)).map StoreRow.contentHash).eraseDups

def sourceTag (sourceArtifactKey : String) : String := "ccsk:" ++ sourceArtifactKey

/-- The active rows of a source: what is compared with the new set, and what is deleted before it is written. -/
def sourceVersions (d : Deployment) (st : Store) (sourceArtifactKey tenantId : String) : Except PyErr (List String) :=
  findActiveHashesByTag d (sourceTag sourceArtifactKey) tenantId findActiveHashesLimit
    (st.searchByTag (markerTags (sourceTag sourceArtifactKey) tenantId) findActiveHashesLimit)

/-- **A row no source can claim**: no search for a source key returns it, whatever the store answers from its rows, and
it changes no source's set of active rows. -/
structure Unclaimed (d : Deployment) (r : StoreRow) : Prop where
  found : ∀ (st : Store) (key tenantId : String) (limit : Nat) (answer : TagSearch) (hashes : List String),
    r ∈ st.rows → (∀ x ∈ answer.results, x ∈ st.rows) →
    findActiveHashesByTag d (sourceTag key) tenantId limit answer = .ok hashes → r.contentHash ∉ hashes
  versions : ∀ (st : Store) (key tenantId : String), sourceVersions d (st.insert r) key tenantId = sourceVersions d st key tenantId

theorem mem_markerTags (tag tenantId : String) : tag ∈ markerTags tag tenantId := by
  unfold markerTags
  split <;> exact List.mem_cons_self

theorem not_hasTags {r : StoreRow} {tag : String} (h : tag ∉ r.tags) (tenantId : String) :
    r.hasTags (markerTags tag tenantId) = false := by
  rw [← Bool.not_eq_true, StoreRow.hasTags, List.all_eq_true]
  intro hall
  exact h (by simpa using hall tag (mem_markerTags tag tenantId))

theorem filter_insert {st : Store} {r : StoreRow} {tags : List String} (h : r.hasTags tags = false) :
    ((st.insert r).rows.filter fun x => x.hasTags tags) = st.rows.filter fun x => x.hasTags tags := by
  unfold Store.insert
  split
  · rfl
  · simp [h]

/-- The store with one row. -/
def Store.single (r : StoreRow) : Store := ⟨[r], by simp⟩

/-- **A row is safe from every source exactly if it has no source tag.** -/
theorem unclaimed_iff {r : StoreRow} (hactive : "status:active" ∈ r.tags) :
    Unclaimed d r ↔ ∀ t ∈ r.tags, ¬ "ccsk:".toList <+: t.toList := by
  constructor
  · rintro h t ht ⟨key, hkey⟩
    have htag : sourceTag (String.ofList key) = t := by
      rw [← String.toList_inj, ← hkey]
      simp [sourceTag]
    have hmatch : r.hasTags (markerTags (sourceTag (String.ofList key)) "*") = true := by
      simp [StoreRow.hasTags, markerTags, htag, ht, hactive]
    refine h.found (Store.single r) (String.ofList key) "*" 200 ⟨[r], none⟩ [r.contentHash] (List.mem_singleton_self r) ?_ ?_
      (List.mem_singleton_self _)
    · intro x hx
      exact hx
    · simp [findActiveHashesByTag, hmatch, List.eraseDups_cons]
  · intro h
    have hno : ∀ key tenantId : String, r.hasTags (markerTags (sourceTag key) tenantId) = false := by
      intro key tenantId
      refine not_hasTags (fun ht => h _ ht ?_) tenantId
      rw [sourceTag, String.toList_append]
      exact List.prefix_append _ _
    constructor
    · intro st key tenantId limit answer hashes hr hrows hfind hmem
      unfold findActiveHashesByTag at hfind
      split at hfind
      · cases hfind
      · cases hfind
        rw [List.mem_eraseDups, List.mem_map] at hmem
        obtain ⟨x, hx, he⟩ := hmem
        obtain ⟨hx, hhas⟩ := List.mem_filter.1 hx
        rw [Store.eq_of_hash (hrows x hx) hr he, hno] at hhas
        cases hhas
    · intro st key tenantId
      unfold sourceVersions Store.searchByTag
      rw [filter_insert (hno key tenantId)]

/-! ## The tags that are kept -/

theorem fromKeys_cons {t : Json} {ts acc r : List Json} (h : d.fromKeys acc (t :: ts) = .ok r) (acc' us : List Json) :
    d.fromKeys acc' (t :: us) = d.fromKeys (if acc'.any (d.tagEq t) then acc' else acc' ++ [t]) us := by
  cases t with
  | arr xs => cases h
  | obj kvs => cases h
  | null | bool b | int n | float x | str s => rfl

/-- **Which texts are among the first `n` keys**: those with fewer than `n` distinct keys before them. -/
theorem str_mem_take_fromKeys_iff {tags acc r : List Json} {s : String} {n : Nat} (h : d.fromKeys acc tags = .ok r) :
    Json.str s ∈ r.take n ↔ Json.str s ∈ acc.take n ∨
      ∃ pre post seen, tags = pre ++ .str s :: post ∧ d.fromKeys acc pre = .ok seen ∧ seen.length < n := by
  induction tags generalizing acc with
  | nil =>
    cases h
    simp
  | cons t ts ih =>
    have hstep := fromKeys_cons h
    rw [hstep] at h
    rw [ih h]
    by_cases hany : acc.any (d.tagEq t) = true
    · rw [if_pos hany]
      constructor
      · rintro (hm | ⟨pre, post, seen, rfl, hpre, hlt⟩)
        · exact .inl hm
        · refine .inr ⟨t :: pre, post, seen, rfl, ?_, hlt⟩
          rw [hstep, if_pos hany, hpre]
      · rintro (hm | ⟨pre, post, seen, he, hpre, hlt⟩)
        · exact .inl hm
        · cases pre with
          | nil =>
            cases hpre
            obtain ⟨rfl, rfl⟩ := List.cons.inj he
            obtain ⟨u, hu, hu'⟩ := List.any_eq_true.1 hany
            rw [tagEq_str.1 hu'] at hu
            rw [List.take_of_length_le hlt.le]
            exact .inl hu
          | cons u pre =>
            obtain ⟨rfl, rfl⟩ := List.cons.inj he
            rw [hstep, if_pos hany] at hpre
            exact .inr ⟨pre, post, seen, rfl, hpre, hlt⟩
    · rw [if_neg hany]
      constructor
      · rintro (hm | ⟨pre, post, seen, rfl, hpre, hlt⟩)
        · rw [List.take_append, List.mem_append] at hm
          rcases hm with hm | hm
          · exact .inl hm
          · have hlen : acc.length < n := by
              by_contra hle
              rw [Nat.sub_eq_zero_of_le (by omega), List.take_zero] at hm
              cases hm
            rw [List.mem_singleton.1 (List.mem_of_mem_take hm)]
            exact .inr ⟨[], ts, acc, rfl, rfl, hlen⟩
        · refine .inr ⟨t :: pre, post, seen, rfl, ?_, hlt⟩
          rw [hstep, if_neg hany, hpre]
      · rintro (hm | ⟨pre, post, seen, he, hpre, hlt⟩)
        · rw [List.take_append, List.mem_append]
          exact .inl (.inl hm)
        · cases pre with
          | nil =>
            cases hpre
            obtain ⟨rfl, rfl⟩ := List.cons.inj he
            have hle : (acc ++ [Json.str s]).length ≤ n := by simp; omega
            rw [List.take_of_length_le hle]
            exact .inl (by simp)
          | cons u pre =>
            obtain ⟨rfl, rfl⟩ := List.cons.inj he
            rw [hstep, if_neg hany] at hpre
            exact .inr ⟨pre, post, seen, rfl, hpre, hlt⟩

/-- The tags the adapter puts first. -/
def adapterLabels (wing room agent memoryType tenantId : String) : List String :=
  ["permanent", "status:active", "wing:" ++ wing, "room:" ++ room, "agent:" ++ agent, "mtype:" ++ memoryType,
   "tenant:" ++ tenantId]

/-- **The tags of a body**: the labels and the caller's tags, once each, up to the cap. -/
theorem addMemoryBody_tags {wing room content : String} {metadata : Dict} {sani : Bool} {cid : Option String} {body : MemoryBody}
    (h : addMemoryBody d wing room content metadata sani cid = .ok body) :
    ∃ explicit kept, listOrEmpty (Dict.get metadata "tags") = .ok explicit ∧
      d.fromKeys [] ((adapterLabels wing room
        (d.str (((Dict.get metadata "agent").orElse (Dict.get metadata "agent_profile")).orElse (.str "unknown")))
        (d.str ((Dict.get metadata "memory_type").orElse (.str "observation")))
        (d.str ((Dict.get metadata "tenant_id").orElse (.str d.defaultTenantId)))).map .str ++ explicit) = .ok kept ∧
      body.tags = kept.take maxTagsPerMemory := by
  unfold addMemoryBody at h
  simp only at h
  split at h
  · cases h
  · rename_i explicit hexplicit
    split at h
    · cases h
    · rename_i kept hkept
      cases h
      exact ⟨explicit, kept, hexplicit, hkept, rfl⟩

/-- A text with a piece of a kind is among the tags that are kept: a label, or a tag the caller gives. -/
def Mentions (d : Deployment) (P : String → Prop) (labels : List String) (tags : Json) : Prop :=
  ∃ explicit pre s post seen, listOrEmpty tags = .ok explicit ∧ labels.map .str ++ explicit = pre ++ .str s :: post ∧
    d.fromKeys [] pre = .ok seen ∧ seen.length < maxTagsPerMemory ∧ ∃ t ∈ storedTag s, P t

/-- **Which bodies have a stored tag of a kind.** -/
theorem mentions_iff {P : String → Prop} {labels : List String} {tags : Json} {explicit kept : List Json}
    (he : listOrEmpty tags = .ok explicit) (hk : d.fromKeys [] (labels.map .str ++ explicit) = .ok kept) :
    (∃ t ∈ storedTags (kept.take maxTagsPerMemory), P t) ↔ Mentions d P labels tags := by
  constructor
  · rintro ⟨t, ht, hns⟩
    obtain ⟨v, hv, ht⟩ := List.mem_flatMap.1 ht
    cases v with
    | str s =>
      rcases (str_mem_take_fromKeys_iff hk).1 hv with hm | ⟨pre, post, seen, hp, hpre, hlt⟩
      · simp at hm
      · exact ⟨explicit, pre, s, post, seen, he, hp, hpre, hlt, t, ht, hns⟩
    | null | bool b | int n | float x | arr xs | obj kvs => cases ht
  · rintro ⟨explicit', pre, s, post, seen, he', hp, hpre, hlt, t, ht, hns⟩
    rw [he] at he'
    cases he'
    exact ⟨t, List.mem_flatMap.2
      ⟨.str s, (str_mem_take_fromKeys_iff hk).2 (.inr ⟨pre, post, seen, hp, hpre, hlt⟩), ht⟩, hns⟩

/-! ## The row a request leads to -/

/-- The labels of a call's row. -/
def requestLabels (d : Deployment) (p : AgentProfile) (c : WriteCall) (tenantId : String) : List String :=
  adapterLabels (effectiveWing d p c) (effectiveRoom p c)
    (d.str (((Dict.get c.metadata "agent").orElse (.str p.name)).orElse (.str "unknown")))
    (d.str ((Json.str c.memoryType).orElse (.str "observation"))) (d.str ((Json.str tenantId).orElse (.str d.defaultTenantId)))

theorem get_callerMetadata (c : WriteCall) {k : String} (hk : k ∉ ["raise_dedup_skipped", "infer", "wing"]) :
    Dict.get (callerMetadata c) k = Dict.get c.metadata k := by
  simp only [List.mem_cons, List.not_mem_nil, or_false, not_or] at hk
  simp [callerMetadata, Dict.get_erase, hk]

/-- What the adapter reads of the metadata `write` hands it. -/
theorem get_payloadMetadata (p : AgentProfile) (pr : Principal) (clk : WriteClock) (c : WriteCall) (tenantId : String)
    (infer : Bool) :
    Dict.get (payloadMetadata p pr clk c tenantId infer) "tags" = Dict.get c.metadata "tags" ∧
    Dict.get (payloadMetadata p pr clk c tenantId infer) "agent" = Dict.get c.metadata "agent" ∧
    Dict.get (payloadMetadata p pr clk c tenantId infer) "agent_profile" = .str p.name ∧
    Dict.get (payloadMetadata p pr clk c tenantId infer) "memory_type" = .str c.memoryType ∧
    Dict.get (payloadMetadata p pr clk c tenantId infer) "tenant_id" = .str tenantId := by
  have hcaller : ∀ k ∈ ["tags", "agent"], Dict.get (payloadMetadata p pr clk c tenantId infer) k = Dict.get c.metadata k := by
    intro k hk
    have hkeys : k = "tags" ∨ k = "agent" := by simpa using hk
    unfold payloadMetadata
    rw [Dict.get_merge_of_notMem _ (by rcases hkeys with rfl | rfl <;> simp),
      Dict.get_merge_of_notMem _ (by rcases hkeys with rfl | rfl <;> simp [bitemporalMetadata]),
      Dict.get_merge_of_notMem _ (by rcases hkeys with rfl | rfl <;> simp [retentionMetadata]),
      get_callerMetadata c (by rcases hkeys with rfl | rfl <;> simp)]
  refine ⟨hcaller "tags" (by simp), hcaller "agent" (by simp), ?_, ?_, ?_⟩
  all_goals exact Dict.get_merge_of_mem (by simp) (by simp)

/-- **A direct write**: which kinds of tags its row has. -/
theorem write_mentions {p : AgentProfile} {pr : Principal} {q : QuotaState} {clk : WriteClock} {c : WriteCall}
    {body : MemoryBody} (h : write d p pr q clk c = .ok (.posted body)) (P : String → Prop) :
    ∃ tenantId, resolveWriteTenantId d p pr clk.now (Dict.get c.metadata "tenant_id") = .ok tenantId ∧
      "status:active" ∈ storedTags body.tags ∧
      ((∃ t ∈ storedTags body.tags, P t) ↔
        Mentions d P (requestLabels d p c tenantId) (Dict.get c.metadata "tags")) := by
  unfold write at h
  split at h
  · cases h
  · rename_i a ha
    split at h
    · cases h
    · obtain ⟨tenantId, infer, htenant, -, -, rfl⟩ := prepareWrite_ok ha
      obtain ⟨htags, hagent, hprofile, htype, htid⟩ := get_payloadMetadata p pr clk c tenantId infer
      rw [get_callerMetadata c (by simp)] at htenant
      simp only at h
      cases hb : addMemoryBody d (effectiveWing d p c) (effectiveRoom p c) (d.sanitize c.content)
          (payloadMetadata p pr clk c tenantId infer) true c.conversationId with
      | error e => rw [hb] at h; cases h
      | ok b =>
        rw [hb] at h
        cases h
        obtain ⟨explicit, kept, he, hk, ht⟩ := addMemoryBody_tags hb
        rw [htags] at he
        rw [hagent, hprofile, htype, htid] at hk
        refine ⟨tenantId, htenant, ?_, ?_⟩
        · have hfirst : Json.str "status:active" ∈ kept.take maxTagsPerMemory :=
            (str_mem_take_fromKeys_iff hk).2 (.inr ⟨[.str "permanent"], _, [.str "permanent"], rfl, rfl, by decide⟩)
          rw [ht]
          exact mem_storedTags hfirst (by decide) (by decide) (by decide)
        · rw [ht]
          exact mentions_iff he hk

/-! ## The candidate of a request -/

theorem wf_stripReservedTags {v : Json} (h : WF v) : WF (WriteHygiene.stripReservedTags v) := by
  cases v with
  | arr tags =>
    exact wfElems_iff.2 fun x hx => wfElems_iff.1 h x (List.mem_filter.1 hx).1
  | null | bool b | int n | float x | str s | obj kvs => exact h

theorem wf_clean {metadata : Dict} (h : WF (.obj metadata)) (blocked : List String) :
    WF (.obj (WriteHygiene.clean blocked metadata)) := by
  have hkept := wf_filter h fun kv => !blocked.contains kv.1
  unfold WriteHygiene.clean
  simp only
  split
  · exact wf_set hkept (wf_stripReservedTags (wf_get hkept "tags"))
  · exact hkept

theorem wf_routeClean (route : NetworkRoute) {metadata : Dict} (h : WF (.obj metadata)) : WF (.obj (route.clean metadata)) := by
  cases route with
  | http => exact wf_clean h _
  | mcp => exact wf_clean h _

/-- The metadata of a write is a dict like the caller's. -/
theorem wf_payloadMetadata (p : AgentProfile) (pr : Principal) (clk : WriteClock) {c : WriteCall} (h : WF (.obj c.metadata))
    (tenantId : String) (infer : Bool) : WF (.obj (payloadMetadata p pr clk c tenantId infer)) := by
  have hcaller : WF (.obj (callerMetadata c)) := wf_filter (wf_filter (wf_filter h _) _) _
  refine wf_merge (wf_merge (wf_merge hcaller ?_) ?_) ?_
  · intro kv hkv
    simp only [retentionMetadata, List.mem_cons, List.not_mem_nil, or_false] at hkv
    rcases hkv with rfl | rfl | rfl
    · cases (if effectiveRoom p c ∈ p.retentionPolicy.ephemeralRooms then some 7 else p.retentionPolicy.defaultTtlDays) <;>
        trivial
    · cases (if effectiveRoom p c ∈ p.retentionPolicy.ephemeralRooms then some 7 else p.retentionPolicy.defaultTtlDays) <;>
        trivial
    · trivial
  · intro kv hkv
    simp only [bitemporalMetadata, List.mem_cons, List.not_mem_nil, or_false] at hkv
    rcases hkv with rfl | rfl | rfl <;> trivial
  · intro kv hkv
    simp only [List.mem_cons, List.not_mem_nil, or_false] at hkv
    rcases hkv with rfl | rfl | rfl | rfl | rfl | rfl | rfl | rfl | rfl | rfl | rfl | rfl | rfl
    · trivial
    · exact wf_orElse (wf_get hcaller _) trivial
    · exact wf_orElse (wf_get hcaller _) trivial
    · exact wf_orElse (wf_get hcaller _) trivial
    · exact wf_get hcaller _
    · exact wf_get hcaller _
    · exact wf_get hcaller _
    · trivial
    · exact wf_getD hcaller _ trivial
    · exact wf_get hcaller _
    · trivial
    · exact wf_getD hcaller _ trivial
    · trivial

/-- A candidate of a write, as the finalizer sees it. -/
structure QueuedCandidate (c : WriteCall) (candidate : Dict) : Prop where
  wf : WF (.obj candidate)
  room : ∃ room, Dict.get candidate "suggested_room" = .str room
  tags : Dict.get (dictOrEmpty (Dict.get candidate "metadata")) "tags" = Dict.get c.metadata "tags"

theorem wf_candidate {a : PreparedWrite} (h : WF (.obj a.metadata)) (profileName : String) :
    WF (.obj (a.candidate profileName)) := by
  refine wf_obj_iff.2 ⟨by simp [PreparedWrite.candidate], fun kv hkv => ?_⟩
  simp only [PreparedWrite.candidate, List.mem_cons, List.not_mem_nil, or_false] at hkv
  rcases hkv with rfl | rfl | rfl | rfl | rfl | rfl | rfl
  · trivial
  · trivial
  · trivial
  · trivial
  · exact h
  · trivial
  · trivial

theorem candidate_queued {a : PreparedWrite} {c : WriteCall} (hw : WF (.obj a.metadata))
    (ht : Dict.get a.metadata "tags" = Dict.get c.metadata "tags") (profileName : String) :
    QueuedCandidate c (a.candidate profileName) :=
  ⟨wf_candidate hw profileName, ⟨a.room, rfl⟩, ht⟩

theorem write_queued {p : AgentProfile} {pr : Principal} {q : QuotaState} {clk : WriteClock} {c : WriteCall} {candidate : Dict}
    (hwf : WF (.obj c.metadata)) (h : write d p pr q clk c = .ok (.queued candidate)) : QueuedCandidate c candidate := by
  unfold write at h
  split at h
  · cases h
  · rename_i a ha
    obtain ⟨tenantId, infer, -, -, -, he⟩ := prepareWrite_ok ha
    have hmeta : a.metadata = payloadMetadata p pr clk c tenantId infer := by rw [he]
    split at h
    · cases h
      refine candidate_queued ?_ ?_ p.name
      · rw [hmeta]
        exact wf_payloadMetadata p pr clk hwf tenantId infer
      · rw [hmeta]
        exact (get_payloadMetadata p pr clk c tenantId infer).1
    · cases hb : addMemoryBody d a.wing a.room a.content a.metadata true c.conversationId with
      | error e => rw [hb] at h; cases h
      | ok b => rw [hb] at h; cases h

theorem carriedTag_sortKeys (v : Json) : carriedTag (sortKeys v) = carriedTag v := by
  cases v <;> rfl

theorem stripReservedTags_sortKeys (v : Json) : stripReservedTags (sortKeys v) = stripReservedTags v := by
  cases v with
  | arr xs =>
    show (sortKeysElems xs).filterMap carriedTag = xs.filterMap carriedTag
    rw [sortKeysElems_eq, List.filterMap_map]
    exact List.filterMap_congr fun x _ => carriedTag_sortKeys x
  | null | bool b | int n | float x | str s | obj kvs => rfl

/-- **The text of a candidate carries the same tags**: what is written is read back with its keys sorted. -/
theorem carriedTags_sortKeys {cand : Dict} (hw : WF (.obj cand)) :
    carriedTags (sortItems (sortKeysMembers cand)) = carriedTags cand := by
  have hmeta : Dict.get (dictOrEmpty (Dict.get (sortItems (sortKeysMembers cand)) "metadata")) "tags" =
      sortKeys (Dict.get (dictOrEmpty (Dict.get cand "metadata")) "tags") := by
    have hinner := wf_get hw "metadata"
    rw [get_sortKeys hw]
    cases hm : Dict.get cand "metadata" with
    | obj kvs =>
      rw [hm] at hinner
      exact get_sortKeys hinner "tags"
    | null | bool b | int n | float x | str s | arr xs => rfl
  unfold carriedTags
  simp only [hmeta]
  cases Dict.get (dictOrEmpty (Dict.get cand "metadata")) "tags" with
  | arr xs =>
    show (stripReservedTags (sortKeys (.arr xs))).take maxCarriedTags = _
    rw [stripReservedTags_sortKeys]
  | null | bool b | int n | float x | str s | obj kvs =>
    show (stripReservedTags (Dict.get (sortItems (sortKeysMembers cand)) "tags")).take maxCarriedTags = _
    rw [get_sortKeys hw, stripReservedTags_sortKeys]

/-- **An approved write**: which kinds of tags the durable row of a queued candidate has. -/
theorem queued_mentions {c : WriteCall} {candidate : Dict} (hq : QueuedCandidate c candidate) {text : String}
    (htext : d.dumps (.obj candidate) = .ok text) {profile : AgentProfile} {i : Nat}
    {via conversationId createdAt : String} {proposer : Option String} {built : DurablePayload} {body : MemoryBody}
    (hbuild : reconstructDurablePayload d text (approvalMarker i) i via proposer createdAt = .ok built)
    (hbody : finalizeWrite d profile built conversationId = .ok body) (P : String → Prop) :
    "status:active" ∈ storedTags body.tags ∧
    ((∃ t ∈ storedTags body.tags, P t) ↔
      ∃ s ∈ durableLabels d candidate i ++ carriedTags candidate, ∃ t ∈ storedTag s, P t) := by
  have hload : d.loads text = .ok (.obj (sortItems (sortKeysMembers candidate))) := by
    unfold Deployment.dumps at htext
    split at htext
    · rename_i t ht
      cases htext
      unfold Deployment.loads
      rw [loads_dumps hq.wf ht]
      rfl
    · cases htext
  have hroom : candidateRoom d (sortItems (sortKeysMembers candidate)) = candidateRoom d candidate := by
    obtain ⟨room, hr⟩ := hq.room
    unfold candidateRoom
    rw [get_sortKeys hq.wf, hr]
    rfl
  have hlabels : durableLabels d (sortItems (sortKeysMembers candidate)) i = durableLabels d candidate i := by
    unfold durableLabels
    rw [hroom]
  rw [reconstruct_obj hload] at hbuild
  cases hbuild
  have hb := finalizeWrite_durable hbody
  have hpieces := durable_pieces hb P
  rw [hlabels, carriedTags_sortKeys hq.wf] at hpieces
  refine ⟨?_, hpieces⟩
  rw [hb.tags, storedTags_map]
  exact List.mem_flatMap.2 ⟨"status:active", by simp [durableLabels], by decide⟩

/-! ## Who can forge a source key -/

/-- A tag that gives its row to a source. -/
def IsSourceTag (t : String) : Prop := "ccsk:".toList <+: t.toList

theorem routeWrite_ok {route : NetworkRoute} {p : AgentProfile} {pr : Principal} {q : QuotaState} {clk : WriteClock}
    {r : NetworkWrite} {out : WriteOutcome} (h : route.write d p pr q clk r = .ok out) :
    route.registered p = true ∧ write d p pr q clk (route.call r) = .ok out := by
  unfold NetworkRoute.write at h
  by_cases hreg : route.registered p = true
  · simp only [hreg, Bool.not_true, Bool.false_eq_true, if_false] at h
    obtain ⟨-, -, h⟩ := bind_ok h
    obtain ⟨-, -, h⟩ := bind_ok h
    obtain ⟨-, -, h⟩ := bind_ok h
    obtain ⟨-, -, h⟩ := bind_ok h
    exact ⟨hreg, h⟩
  · simp [hreg] at h

/-- **A submitted candidate is never written directly.** -/
theorem submit_queues {p : AgentProfile} {pr : Principal} {q : QuotaState} {clk : WriteClock} {r : NetworkWrite}
    {out : WriteOutcome} (h : NetworkRoute.mcp.write d p pr q clk r = .ok out) : ∃ candidate, out = .queued candidate := by
  obtain ⟨hreg, h⟩ := routeWrite_ok h
  have hstar : "*" ∈ p.approvalRequiredFor := by
    simp only [NetworkRoute.registered, Bool.and_eq_true, List.contains_iff_mem] at hreg
    exact hreg.2
  have hrequired : ∀ wing room, approvalRequired p wing room = true := by
    intro wing room
    exact List.any_eq_true.2 ⟨"*", hstar, Fnmatch.fnmatchcase_star _⟩
  unfold write at h
  split at h
  · cases h
  · rename_i a ha
    rw [if_pos (hrequired _ _)] at h
    cases h
    exact ⟨_, rfl⟩

/-- **When a network client cannot forge a source key.** The row a request leads to, written directly or after its
candidate was approved, is unclaimed if and only if no label and no kept tag has a piece that starts with `ccsk:`. -/
theorem sourceKey_unforged_iff (d : Deployment) (api : StoreApi) (route : NetworkRoute) (p : AgentProfile) (pr : Principal)
    (q : QuotaState) (clk : WriteClock) (r : NetworkWrite) :
    (∀ body, route.write d p pr q clk r = .ok (.posted body) →
      ∃ tenantId, resolveWriteTenantId d p pr clk.now (Dict.get (route.clean r.metadata) "tenant_id") = .ok tenantId ∧
        (Unclaimed d (rowOf api body none) ↔
          ¬ Mentions d IsSourceTag (requestLabels d p (route.call r) tenantId) (Dict.get (route.clean r.metadata) "tags"))) ∧
    (∀ candidate text i via proposer createdAt built conversationId body,
      route.write d p pr q clk r = .ok (.queued candidate) → d.dumps (.obj candidate) = .ok text →
      reconstructDurablePayload d text (approvalMarker i) i via proposer createdAt = .ok built →
      finalizeWrite d d.finalizerProfile built conversationId = .ok body →
      (Unclaimed d (rowOf api body (some i)) ↔
        ¬ ∃ s ∈ durableLabels d candidate i ++ carriedTags candidate, ∃ t ∈ storedTag s, IsSourceTag t)) := by
  have hneg : ∀ tags : List String, (∀ t ∈ tags, ¬ "ccsk:".toList <+: t.toList) ↔
      ¬ ∃ t ∈ tags, IsSourceTag t := by
    intro tags
    simp only [IsSourceTag, not_exists, not_and]
  constructor
  · intro body h
    obtain ⟨tenantId, htenant, hactive, hiff⟩ := write_mentions (routeWrite_ok h).2 IsSourceTag
    refine ⟨tenantId, htenant, ?_⟩
    rw [unclaimed_iff (show "status:active" ∈ (rowOf api body none).tags from hactive), hneg]
    exact not_congr hiff
  · intro candidate text i via proposer createdAt built conversationId body h htext hbuild hbody
    have hq : QueuedCandidate (route.call r) candidate := write_queued (wf_routeClean route r.wf) (routeWrite_ok h).2
    obtain ⟨hactive, hiff⟩ := queued_mentions hq htext hbuild hbody IsSourceTag
    rw [unclaimed_iff (show "status:active" ∈ (rowOf api body (some i)).tags from hactive), hneg]
    exact not_congr hiff

/-! ## A forged key -/

/-- A write whose one tag starts with a blank. -/
def forgedWrite : NetworkWrite where
  content := "tea"
  room := "inbox"
  memoryType := "note"
  metadata := [("tags", .arr [.str " ccsk:k"])]
  wf := wf_obj_iff.2 ⟨by decide, by simp [WF, WFElems]⟩

theorem forgedWrite_posted : ∃ body,
    NetworkRoute.http.write plainDeployment notesProfile notesAgent ⟨0, 0, []⟩ quietClock forgedWrite = .ok (.posted body) ∧
      body.tags = ["permanent", "status:active", "wing:notes", "room:inbox", "agent:notes", "mtype:note",
        "tenant:t_default", " ccsk:k"].map .str := by
  obtain ⟨a, body, ha, hb, htags⟩ : ∃ a body,
      prepareWrite plainDeployment notesProfile notesAgent ⟨0, 0, []⟩ quietClock (NetworkRoute.http.call forgedWrite) = .ok a ∧
        addMemoryBody plainDeployment a.wing a.room a.content a.metadata true none = .ok body ∧
        body.tags = ["permanent", "status:active", "wing:notes", "room:inbox", "agent:notes", "mtype:note",
          "tenant:t_default", " ccsk:k"].map .str := by
    refine ⟨_, _, rfl, rfl, ?_⟩
    rfl
  obtain ⟨h1, h2⟩ := prepareWrite_pair ha
  have hgate : matchesAny (writePath a.wing a.room) ["private/*"] = false := by
    rw [h1, h2]
    decide
  exact ⟨body, write_posted_iff.2 ⟨a, ha, hgate, hb⟩, htags⟩

theorem sourceKey_unforged_sample : ∃ body tenantId,
    NetworkRoute.http.write plainDeployment notesProfile notesAgent ⟨0, 0, []⟩ quietClock forgedWrite = .ok (.posted body) ∧
      (Unclaimed plainDeployment (rowOf sampleStoreApi body none) ↔
        ¬ Mentions plainDeployment IsSourceTag (requestLabels plainDeployment notesProfile (NetworkRoute.http.call forgedWrite) tenantId)
          (Dict.get (NetworkRoute.http.clean forgedWrite.metadata) "tags")) := by
  obtain ⟨body, hbody, -⟩ := forgedWrite_posted
  obtain ⟨tenantId, -, hiff⟩ := (sourceKey_unforged_iff plainDeployment sampleStoreApi .http notesProfile notesAgent ⟨0, 0, []⟩
    quietClock forgedWrite).1 body hbody
  exact ⟨body, tenantId, hbody, hiff⟩

/-- **A source key planted over the network**: the row is what the sync of source `k` finds, and deletes. -/
theorem forgedWrite_found : ∃ body,
    NetworkRoute.http.write plainDeployment notesProfile notesAgent ⟨0, 0, []⟩ quietClock forgedWrite = .ok (.posted body) ∧
      sourceVersions plainDeployment .empty "k" "t_default" = .ok [] ∧
      sourceVersions plainDeployment (Store.empty.insert (rowOf sampleStoreApi body none)) "k" "t_default" =
        .ok [(rowOf sampleStoreApi body none).contentHash] ∧
      ¬ Unclaimed plainDeployment (rowOf sampleStoreApi body none) := by
  obtain ⟨body, hbody, htags⟩ := forgedWrite_posted
  have hmatch : (rowOf sampleStoreApi body none).hasTags (markerTags (sourceTag "k") "t_default") = true := by
    show (markerTags (sourceTag "k") "t_default").all (storedTags body.tags).contains = true
    rw [htags]
    decide
  have hrows : (Store.empty.insert (rowOf sampleStoreApi body none)).rows = [rowOf sampleStoreApi body none] := rfl
  have hfound : sourceVersions plainDeployment (Store.empty.insert (rowOf sampleStoreApi body none)) "k" "t_default" =
      .ok [(rowOf sampleStoreApi body none).contentHash] := by
    simp [sourceVersions, Store.searchByTag, findActiveHashesByTag, hrows, hmatch, findActiveHashesLimit, List.eraseDups_cons]
  have hbefore : sourceVersions plainDeployment .empty "k" "t_default" = .ok [] := rfl
  refine ⟨body, hbody, hbefore, hfound, fun h => ?_⟩
  rw [h.versions, hbefore] at hfound
  cases hfound

end Panella

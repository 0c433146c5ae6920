import Panella.Governance

/-!
# The store adapter: the body of a write, a row as it is read (`panella/panella_adapter.py`)

| here | there |
| --- | --- |
| `addMemoryBody` | `add_memory` (:349-404), up to the POST |
| `parseNamespacedTag`, `normalizeHit` | `_parse_namespaced_tag` (:162-174), `_normalize_hit` (:919-969) |
| `hasExcludedRecallStatus` | `_has_excluded_recall_status` (:203-221) |

The store itself is not in the repository. A `RawHit` is a row as its API returns it.
-/

namespace Panella

open PyJson

/-- `PANELLA_MAX_TAGS_PER_MEMORY`. -/
def maxTagsPerMemory : Nat := 100

def legacyFallbackWing : String := "knowledge"
def legacyFallbackRoom : String := "legacy"

/-- The JSON body of `POST /api/memories`. -/
structure MemoryBody where
  content : String
  tags : List Json
  memoryType : String
  metadata : Dict
  conversationId : Option String

/-- `list(v or [])`. -/
def listOrEmpty (v : Json) : Except PyErr (List Json) :=
  if v.truthy then
    match v with
    | .arr xs => .ok xs
    | .str s => .ok (s.toList.map fun c => .str (String.singleton c))
    | .obj kvs => .ok (kvs.map fun kv => .str kv.1)
    | v => .error (.typeError ("'" ++ typeName v ++ "' object is not iterable"))
  else .ok []

/-- `a == b`, for two hashable values. -/
def Deployment.tagEq (d : Deployment) : Json → Json → Bool
  | .str s, .str t => s = t
  | .str _, _ => false
  | _, .str _ => false
  | a, b => d.scalarEq a b

/-- `list(dict.fromkeys(tags))`: the first of equal tags stays; a container has no hash. -/
def Deployment.fromKeys (d : Deployment) : List Json → List Json → Except PyErr (List Json)
  | acc, [] => .ok acc
  | _, .arr _ :: _ => .error (.typeError "unhashable type: 'list'")
  | _, .obj _ :: _ => .error (.typeError "unhashable type: 'dict'")
  | acc, t :: ts => d.fromKeys (if acc.any (d.tagEq t) then acc else acc ++ [t]) ts

/-- `2.0`. -/
def importanceFloor : Json := .float ⟨['2', '.', '0'], .inl (by decide)⟩

/-- `add_memory`, up to the POST. -/
def addMemoryBody (d : Deployment) (wing room content : String) (metadata : Dict) (sanitizeContent : Bool)
    (conversationId : Option String) : Except PyErr MemoryBody :=
  let content := if sanitizeContent then d.sanitize content else content
  let memoryType := d.str ((Dict.get metadata "memory_type").orElse (.str "observation"))
  let agent := d.str (((Dict.get metadata "agent").orElse (Dict.get metadata "agent_profile")).orElse (.str "unknown"))
  let tenantId := d.str ((Dict.get metadata "tenant_id").orElse (.str d.defaultTenantId))
  match listOrEmpty (Dict.get metadata "tags") with
  | .error e => .error e
  | .ok explicitTags =>
    let guards : List Json :=
      [.str "permanent", .str "status:active", .str ("wing:" ++ wing), .str ("room:" ++ room),
       .str ("agent:" ++ agent), .str ("mtype:" ++ memoryType), .str ("tenant:" ++ tenantId)]
    match d.fromKeys [] (guards ++ explicitTags) with
    | .error e => .error e
    | .ok tags =>
      let metadata := Dict.erase metadata "tags"
      let metadata :=
        if Dict.has metadata "importance_score" then metadata else Dict.set metadata "importance_score" importanceFloor
      .ok
        { content, tags := tags.take maxTagsPerMemory, memoryType,
          metadata := Dict.merge metadata
            [("wing", .str wing), ("room", .str room), ("agent", .str agent), ("tenant_id", .str tenantId)],
          conversationId }

/-! ## Reading a row -/

/-- A row as the store's API returns it. -/
structure RawHit where
  contentHash : Json
  content : Json
  tags : List Json
  memoryType : Json
  metadata : Dict

/-- `_parse_namespaced_tag(tags, key)[0]`: the last tag of the namespace wins. -/
def parseNamespacedTag (tags : List Json) (key : String) : Json :=
  let hits := tags.filterMap fun t =>
    match t with
    | .str s => if (key ++ ":").toList <+: s.toList then some (String.ofList (s.toList.drop (key.length + 1))) else none
    | _ => none
  Json.ofOption hits.getLast?

theorem parseNamespacedTag_cases (tags : List Json) (key : String) : parseNamespacedTag tags key = .null ∨
    ∃ s, .str s ∈ tags ∧ (key ++ ":").toList <+: s.toList ∧
      parseNamespacedTag tags key = .str (String.ofList (s.toList.drop (key.length + 1))) := by
  unfold parseNamespacedTag
  dsimp only
  cases hlast : (tags.filterMap _).getLast? with
  | none => exact .inl rfl
  | some u =>
    obtain ⟨t, ht, hu⟩ := List.mem_filterMap.1 (List.mem_of_mem_getLast? hlast)
    cases t with
    | str s =>
      dsimp only at hu
      split at hu
      · next hkey =>
        cases hu
        exact .inr ⟨s, ht, hkey, rfl⟩
      · cases hu
    | _ => cases hu

/-- A normalized row: the fields of the dict `_normalize_hit` returns that the code reads. -/
structure Hit where
  drawerId : Json
  content : Json
  wing : String
  room : String
  agent : Json
  memoryType : Json
  tenantId : String
  status : String
  tags : List Json
  metadata : Dict

def normalizeHit (d : Deployment) (raw : RawHit) : Hit :=
  let meta' := raw.metadata
  { drawerId := raw.contentHash
    content := raw.content
    wing := d.str (((Dict.get meta' "wing").orElse (parseNamespacedTag raw.tags "wing")).orElse (.str legacyFallbackWing))
    room := d.str (((Dict.get meta' "room").orElse (parseNamespacedTag raw.tags "room")).orElse (.str legacyFallbackRoom))
    agent := ((Dict.get meta' "agent").orElse (parseNamespacedTag raw.tags "agent")).orElse (.str "unknown")
    memoryType :=
      ((raw.memoryType.orElse (Dict.get meta' "memory_type")).orElse (parseNamespacedTag raw.tags "mtype")).orElse
        (.str "observation")
    tenantId :=
      d.str (((Dict.get meta' "tenant_id").orElse (parseNamespacedTag raw.tags "tenant")).orElse (.str d.defaultTenantId))
    status := d.str (((Dict.get meta' "status").orElse (parseNamespacedTag raw.tags "status")).orElse (.str "active"))
    tags := raw.tags
    metadata := meta' }

/-! ## Recall -/

/-- `EXCLUDED_RECALL_STATUSES`. -/
def excludedRecallStatuses : List String := ["candidate", "superseded", "tombstoned"]

/-- `s.lower() in EXCLUDED_RECALL_STATUSES`; no character outside ASCII lowers to a letter of these words. -/
def excludedStatus (s : String) : Bool := excludedRecallStatuses.contains (String.ofList (s.toList.map Char.toLower))

/-- A `status:` tag that excludes its row. -/
def excludedStatusTag : Json → Bool
  | .str s => "status:".toList.isPrefixOf s.toList && excludedStatus (String.ofList (s.toList.drop 7))
  | _ => false

/-- `_has_excluded_recall_status`. -/
def hasExcludedRecallStatus (h : Hit) : Bool := excludedStatus h.status || h.tags.any excludedStatusTag

end Panella

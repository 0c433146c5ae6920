import Panella.GovernanceFile
import Panella.TenantWrite
import Panella.DurableRow
import Panella.Lib.OrderedDict

/-!
# A rendered distribution (`panella/config_render.py`, `panella/profile.py`)

| here | there |
| --- | --- |
| `renderServingProfile`, …, `renderWings` | `render_serving_profile`, …, `render_wings` (`config_render.py` :46-180), the mappings they dump |
| `renderDistribution` | `render_distribution_config` (:183-213) |
| `profileFromDict`, `validateProfile` | `AgentProfile.from_dict`, `AgentProfile.validate` (`profile.py` :150-236) |
| `loadKnownWingRooms`, `loadProfile` | `load_known_wing_rooms` (:263-274), `AgentProfile.load`, `_load_profile_cached` (:126-147, :242-257) |

The files go through a YAML library (`YamlLib`), which gives back what it wrote. Of an owner's wing the profile asks that it
has no slash, and of a tenant and a subject the principal asks that they are identities; the governance asks neither.

Main theorem `governance_works_iff`.
-/

namespace Panella

open PyJson

/-! ## YAML -/

/-- `yaml.safe_dump(v, sort_keys=False)` and `yaml.safe_load(text)`. -/
structure YamlLib where
  safeDump : Json → String
  safeLoad : String → Except PyErr Json
  load_dump : ∀ v, WF v → depth v ≤ 100 → intDigits v ≤ 4300 → safeLoad (safeDump v) = .ok v

/-! ## Rendering -/

/-- A list of texts. -/
def texts (xs : List String) : Json := .arr (xs.map .str)

/-- `1.0`. -/
def floatOne : FloatLit := ⟨['1', '.', '0'], .inl (by decide)⟩

/-- A profile as the renderers write it. -/
def profileDocument (identity : IdentityConfig) (name description : String) (daily burst : Int)
    (memoryTypes approvalRequiredFor readAllowlist : List String) (maxQueryK : Int) (enforce finalizerOnly : Bool)
    (wings rooms : List String) : Dict :=
  [("name", .str name), ("description", .str description), ("tenant_scope", texts [identity.defaultTenantId]),
   ("write_default", .obj [("wing", .str identity.ownerWing), ("room", .str "preferences")]),
   ("write_quota", .obj [("daily_max_drawers", .int daily), ("burst_max_per_minute", .int burst)]),
   ("memory_type_allowlist", texts memoryTypes),
   ("retention_policy", .obj [("default_ttl_days", .null), ("ephemeral_rooms", .arr [])]),
   ("approval_required_for", texts approvalRequiredFor), ("read_allowlist", texts readAllowlist), ("deny", .arr []),
   ("max_query_k", .int maxQueryK), ("retrieval_mode", .str "hybrid"), ("wing_boost", .obj [("default", .float floatOne)]),
   ("observability_level", .str "standard"), ("cost_budget", .obj [("daily_embed_calls_max", .int 1000)]),
   ("enforce_write_allowlist", .bool enforce), ("finalizer_only", .bool finalizerOnly), ("write_wing_allowlist", texts wings),
   ("write_room_allowlist", texts rooms)]

/-- The memory types of the owner. -/
def ownerTypes (identity : IdentityConfig) : List String := [identity.ownerSlug ++ "_preference", identity.ownerSlug ++ "_feedback"]

/-- The rooms of the owner's wing, as pairs. -/
def ownerRooms (identity : IdentityConfig) : List String :=
  [writePath identity.ownerWing "preferences", writePath identity.ownerWing "feedback"]

/-- `render_serving_profile`. -/
def renderServingProfile (identity : IdentityConfig) : Dict :=
  profileDocument identity "serving"
    ("Generic HTTP serving profile (package-rendered). Routine reads over the owner wing; " ++
      "all writes route to the approval queue (candidates-only).")
    200 60 (ownerTypes identity) ["*"] [identity.ownerWing ++ "/*"] 20 true false [identity.ownerWing] (ownerRooms identity)

/-- `render_mcp_read_profile`. -/
def renderMcpReadProfile (identity : IdentityConfig) (name : String) : Dict :=
  profileDocument identity name "Generic MCP read profile (package-rendered): read-only retrieval over the owner wing."
    1 1 [] [] [identity.ownerWing ++ "/*"] 20 false false [] []

/-- `render_mcp_write_profile`. -/
def renderMcpWriteProfile (identity : IdentityConfig) : Dict :=
  profileDocument identity "mcp-write"
    ("Generic MCP write profile (package-rendered): submits durable-write CANDIDATES to the " ++
      "approval queue over the owner wing. Reads the owner wing.")
    100 20 (ownerTypes identity) ["*"] [identity.ownerWing ++ "/*"] 20 true false [identity.ownerWing] (ownerRooms identity)

def finalizerDescription : String :=
  "Post-approval durable writer (package-rendered). finalizer_only: usable ONLY by the " ++
    "approval finalizer after the provenance gate — never a direct write profile."

/-- `render_finalizer_profile`. -/
def renderFinalizerProfile (identity : IdentityConfig) : Dict :=
  profileDocument identity finalizerProfileName finalizerDescription 200 60 (ownerTypes identity) [] (ownerRooms identity) 5 true true [identity.ownerWing] (ownerRooms identity)

/-- `render_wings`. -/
def renderWings (identity : IdentityConfig) : Dict :=
  [("wings", .obj [(identity.ownerWing, .obj
    [("description", .str "The box owner's personal wing (package-rendered)."), ("rooms", texts ["preferences", "feedback"])])])]

/-- The directory the files are in: the profiles by name, and the wings. -/
structure DistFiles where
  outDir : String
  agents : List (String × String)
  wings : String

/-- The profiles of a distribution. -/
def renderedProfiles (identity : IdentityConfig) : List (String × Dict) :=
  [(finalizerProfileName, renderFinalizerProfile identity), ("serving", renderServingProfile identity),
   ("mcp-read", renderMcpReadProfile identity "mcp-read"), ("mcp-write", renderMcpWriteProfile identity),
   ("panella-mcp", renderMcpReadProfile identity "panella-mcp")]

/-- `render_distribution_config`. -/
def renderDistribution (yaml : YamlLib) (identity : IdentityConfig) (outDir : String) : DistFiles where
  outDir := outDir
  agents := (renderedProfiles identity).map fun nd => (nd.1, yaml.safeDump (.obj nd.2))
  wings := yaml.safeDump (.obj (renderWings identity))

/-! ## Loading -/

/-- `AgentProfile`, with the fields only its loader looks at. -/
structure LoadedProfile extends AgentProfile where
  description : String
  maxQueryK : Int
  retrievalMode : String
  wingBoost : List (String × FloatLit)
  observabilityLevel : String
  dailyEmbedCallsMax : Int
  quotaCountsDedup : Bool

/-- `[str(item) for item in v]`. -/
def strItems (d : Deployment) (v : Json) : Except PyErr (List String) := (iterItems v).map fun xs => xs.map d.str

/-- `_mapping`. -/
def mappingAt (raw : Dict) (key : String) : Except PyErr Dict :=
  match Dict.get raw key with
  | .obj kvs => .ok kvs
  | _ => .error (.valueError (key ++ " must be a mapping"))

/-- `raw[key]`. -/
def itemAt (raw : Dict) (key : String) : Except PyErr Json :=
  if Dict.has raw key then .ok (Dict.get raw key) else .error (.keyError key)

/-- The keyword arguments of a dataclass. -/
def checkFields (className : String) (known required : List String) (kvs : Dict) : Except PyErr Unit :=
  match kvs.find? fun kv => !known.contains kv.1 with
  | some kv => .error (.typeError (className ++ ".__init__() got an unexpected keyword argument '" ++ kv.1 ++ "'"))
  | none =>
    match required.filter fun k => !Dict.has kvs k with
    | [] => .ok ()
    | [k] => .error (.typeError (className ++ ".__init__() missing 1 required positional argument: '" ++ k ++ "'"))
    | ks =>
      .error (.typeError (className ++ ".__init__() missing " ++ toString ks.length ++ " required positional arguments: " ++
        " and ".intercalate (ks.map fun k => "'" ++ k ++ "'")))

/-- A text of a dataclass. One of another type is kept by the source as it is; what such a profile does is not modelled. -/
def textOf (key : String) : Json → Except PyErr String
  | .str s => .ok s
  | v => .error (.typeError (key ++ " is a " ++ typeName v))

/-- A number of a dataclass, likewise. -/
def numberOf (key : String) : Json → Except PyErr Int
  | .int n => .ok n
  | v => .error (.typeError (key ++ " is a " ++ typeName v))

/-- `int(v)`. -/
def pyInt (d : Deployment) : Json → Except PyErr Int
  | .int n => .ok n
  | v => d.intOf v

/-- `float(v)`, of a float; of another value it is not modelled. -/
def pyFloat : Json → Except PyErr FloatLit
  | .float x => .ok x
  | v => .error (.typeError ("float() of a " ++ typeName v))

/-- `s.strip().lower()`, of texts that are compared with words in ASCII. -/
def lowered (s : String) : String := String.ofList ((PyText.stripSpace s).toList.map Char.toLower)

/-- `WriteDefaults(**_mapping(raw, "write_default"))`. -/
def parseWriteDefaults (raw : Dict) : Except PyErr WriteDefaults := do
  let kvs ← mappingAt raw "write_default"
  checkFields "WriteDefaults" ["wing", "room"] ["wing", "room"] kvs
  let wing ← textOf "wing" (Dict.get kvs "wing")
  let room ← textOf "room" (Dict.get kvs "room")
  .ok ⟨wing, room⟩

/-- `WriteQuota(**_mapping(raw, "write_quota"))`. -/
def parseWriteQuota (raw : Dict) : Except PyErr WriteQuota := do
  let kvs ← mappingAt raw "write_quota"
  checkFields "WriteQuota" ["daily_max_drawers", "burst_max_per_minute"] ["daily_max_drawers", "burst_max_per_minute"] kvs
  let daily ← numberOf "daily_max_drawers" (Dict.get kvs "daily_max_drawers")
  let burst ← numberOf "burst_max_per_minute" (Dict.get kvs "burst_max_per_minute")
  .ok ⟨daily, burst⟩

/-- `RetentionPolicy(**_mapping(raw, "retention_policy"))`. -/
def parseRetentionPolicy (d : Deployment) (raw : Dict) : Except PyErr RetentionPolicy := do
  let kvs ← mappingAt raw "retention_policy"
  checkFields "RetentionPolicy" ["default_ttl_days", "ephemeral_rooms"] [] kvs
  let ttl ←
    match Dict.get kvs "default_ttl_days" with
    | .null => .ok none
    | v => (numberOf "default_ttl_days" v).map some
  let rooms ← strItems d (Dict.getD kvs "ephemeral_rooms" (.arr []))
  .ok ⟨ttl, rooms⟩

/-- `CostBudget(**_mapping(raw, "cost_budget"))`. -/
def parseCostBudget (raw : Dict) : Except PyErr Int := do
  let kvs ← mappingAt raw "cost_budget"
  checkFields "CostBudget" ["daily_embed_calls_max"] ["daily_embed_calls_max"] kvs
  numberOf "daily_embed_calls_max" (Dict.get kvs "daily_embed_calls_max")

/-- `AgentProfile.from_dict`. -/
def profileFromDict (d : Deployment) (g : Governance) (raw : Dict) : Except PyErr LoadedProfile := do
  let name ← itemAt raw "name"
  let writeDefault ← parseWriteDefaults raw
  let writeQuota ← parseWriteQuota raw
  let memoryTypeAllowlist ← strItems d (Dict.getD raw "memory_type_allowlist" (.arr []))
  let retentionPolicy ← parseRetentionPolicy d raw
  let approvalRequiredFor ← strItems d (Dict.getD raw "approval_required_for" (.arr []))
  let readAllowlist ← strItems d (Dict.getD raw "read_allowlist" (.arr []))
  let deny ← strItems d (Dict.getD raw "deny" (.arr []))
  let maxQueryK ← itemAt raw "max_query_k" >>= pyInt d
  let retrievalMode ← itemAt raw "retrieval_mode"
  let boosts ← mappingAt raw "wing_boost"
  let wingBoost ← boosts.mapM fun kv => (pyFloat kv.2).map fun x => (kv.1, x)
  let dailyEmbedCallsMax ← parseCostBudget raw
  let tenantScope ← strItems d (Dict.getD raw "tenant_scope" (texts [g.identity.defaultTenantId]))
  let writeWingAllowlist ← strItems d (Dict.getD raw "write_wing_allowlist" (.arr []))
  let writeRoomAllowlist ← strItems d (Dict.getD raw "write_room_allowlist" (.arr []))
  .ok
    { name := d.str name, writeDefault, writeQuota, memoryTypeAllowlist, retentionPolicy, approvalRequiredFor, readAllowlist,
      deny, tenantScope, writeWingAllowlist, writeRoomAllowlist
      enforceWriteAllowlist := (Dict.getD raw "enforce_write_allowlist" (.bool false)).truthy
      finalizerOnly := (Dict.getD raw "finalizer_only" (.bool false)).truthy
      description := d.str ((Dict.get raw "description").orElse (.str ""))
      maxQueryK
      retrievalMode := lowered (d.str retrievalMode)
      wingBoost
      observabilityLevel := lowered (d.str (Dict.getD raw "observability_level" (.str "standard")))
      dailyEmbedCallsMax
      quotaCountsDedup := (Dict.getD raw "quota_counts_dedup" (.bool true)).truthy }

/-- The known wings, each with its rooms. -/
abbrev WingRooms := List (String × List String)

/-- `load_known_wing_rooms`, of what the file holds. -/
def knownWingRooms (d : Deployment) (path : String) (raw : Json) : Except PyErr WingRooms :=
  match raw.orElse (.obj []) with
  | .obj kvs =>
    match (Dict.get kvs "wings").orElse (.obj []) with
    | .obj wings =>
      .ok (wings.map fun kv =>
        match kv.2 with
        | .obj wingDef => (kv.1, match Dict.get wingDef "rooms" with | .arr rooms => rooms.map d.str | _ => [])
        | _ => (kv.1, []))
    | _ => .error (.valueError ("wings config must contain a mapping: " ++ path))
  | v => .error (.attributeError ("'" ++ typeName v ++ "' object has no attribute 'get'"))

def loadKnownWingRooms (d : Deployment) (yaml : YamlLib) (files : DistFiles) : Except PyErr WingRooms :=
  yaml.safeLoad files.wings >>= knownWingRooms d (files.outDir ++ "/wings.yaml")

/-- A check of `validate`. -/
def require (ok : Bool) (message : String) : Except PyErr Unit := if ok then .ok () else .error (.valueError message)

/-- The checks of one entry of `write_room_allowlist`. -/
def checkRoomEntry (wingRooms : WingRooms) (entry : String) : Except PyErr Unit := do
  let shape := "write_room_allowlist entry must be 'wing/room': " ++ entry
  require ((entry.toList.filter (· = '/')).length = 1) shape
  let wing := String.ofList (entry.toList.takeWhile (· ≠ '/'))
  let room := String.ofList (entry.toList.dropWhile (· ≠ '/')).tail
  require (wing ≠ "" && room ≠ "") shape
  match wingRooms.lookup wing with
  | none => .error (.valueError ("write_room_allowlist references unknown wing: " ++ entry))
  | some rooms => require (rooms.contains room) ("write_room_allowlist references unknown room: " ++ entry)

/-- `AgentProfile.validate`. -/
def validateProfile (g : Governance) (wingRooms : WingRooms) (p : LoadedProfile) : Except PyErr Unit := do
  require (wingRooms.lookup p.writeDefault.wing).isSome ("invalid write_default.wing: " ++ p.writeDefault.wing)
  require (0 < p.writeQuota.dailyMaxDrawers) "write_quota.daily_max_drawers must be positive"
  require (0 < p.writeQuota.burstMaxPerMinute) "write_quota.burst_max_per_minute must be positive"
  require (0 < p.maxQueryK) "max_query_k must be positive"
  require (["hybrid", "legacy"].contains p.retrievalMode) ("invalid retrieval_mode: " ++ p.retrievalMode)
  require (["minimal", "standard", "verbose"].contains p.observabilityLevel) ("invalid observability_level: " ++ p.observabilityLevel)
  require (p.wingBoost.any fun kv => kv.1 = "default") "wing_boost.default is required"
  require (0 < p.dailyEmbedCallsMax) "cost_budget.daily_embed_calls_max must be positive"
  require (!p.tenantScope.isEmpty) "tenant_scope must include at least one tenant"
  p.tenantScope.forM fun tenantId =>
    require (tenantId = g.identity.defaultTenantId || g.tenantIdPrefix.toList.isPrefixOf tenantId.toList)
      ("invalid tenant_scope tenant_id: " ++ tenantId)
  p.writeWingAllowlist.forM fun wing =>
    require (wingRooms.lookup wing).isSome ("write_wing_allowlist references unknown wing: " ++ wing)
  p.writeRoomAllowlist.forM (checkRoomEntry wingRooms)

/-- What an `AgentProfileConfigError` says, a `ValueError`. -/
def renderCommand (files : DistFiles) : String :=
  "`panella-render-config --out " ++ files.outDir ++ "` and set PANELLA_CONFIG_DIR=" ++ files.outDir

/-- `AgentProfile.load`, from the files of a distribution. -/
def loadProfile (d : Deployment) (yaml : YamlLib) (g : Governance) (files : DistFiles) (name : String) :
    Except PyErr LoadedProfile := do
  let agentsDir := files.outDir ++ "/agents"
  if files.agents.isEmpty then
    .error (.valueError ("config not rendered: run " ++ renderCommand files ++ " (expected rendered profiles in " ++ agentsDir ++ ")"))
  else
    match files.agents.lookup name with
    | none =>
      .error (.valueError ("agent profile " ++ d.repr (.str name) ++ " not found in " ++ agentsDir ++ " (valid: " ++
        ", ".intercalate ((files.agents.map Prod.fst).mergeSort (· ≤ ·)) ++ "); run " ++ renderCommand files))
    | some text =>
      let raw ← yaml.safeLoad text
      match raw.orElse (.obj []) with
      | .obj kvs =>
        let p ← profileFromDict d g kvs
        let wingRooms ← loadKnownWingRooms d yaml files
        validateProfile g wingRooms p
        .ok p
      | _ => .error (.valueError ("agent profile must be a mapping: " ++ agentsDir ++ "/" ++ name ++ ".yaml"))

/-! ## A rendered document is what it was -/

section
variable {d : Deployment} {yaml : YamlLib} {g : Governance} {identity : IdentityConfig} {name description outDir : String}
  {daily burst : Int} {memoryTypes approvalRequiredFor readAllowlist : List String} {maxQueryK : Int}
  {enforce finalizerOnly : Bool} {wings rooms : List String}

/-- The profile a rendered document loads as. -/
def documentProfile (identity : IdentityConfig) (name description : String) (daily burst : Int)
    (memoryTypes approvalRequiredFor readAllowlist : List String) (maxQueryK : Int) (enforce finalizerOnly : Bool)
    (wings rooms : List String) : LoadedProfile where
  name := name
  writeDefault := ⟨identity.ownerWing, "preferences"⟩
  writeQuota := ⟨daily, burst⟩
  memoryTypeAllowlist := memoryTypes
  retentionPolicy := ⟨none, []⟩
  approvalRequiredFor := approvalRequiredFor
  readAllowlist := readAllowlist
  deny := []
  tenantScope := [identity.defaultTenantId]
  writeWingAllowlist := wings
  writeRoomAllowlist := rooms
  enforceWriteAllowlist := enforce
  finalizerOnly := finalizerOnly
  description := description
  maxQueryK := maxQueryK
  retrievalMode := "hybrid"
  wingBoost := [("default", floatOne)]
  observabilityLevel := "standard"
  dailyEmbedCallsMax := 1000
  quotaCountsDedup := true

@[simp] theorem strItems_texts (d : Deployment) (xs : List String) : strItems d (texts xs) = .ok xs := by
  simp [strItems, texts, iterItems, Except.map, List.map_map, Function.comp_def]

@[simp] theorem strItems_nil (d : Deployment) : strItems d (.arr []) = .ok [] := rfl

@[simp] theorem str_orElse_empty (d : Deployment) (s : String) : d.str ((Json.str s).orElse (.str "")) = s := by
  by_cases hs : s = ""
  · simp [Json.orElse, Json.truthy, hs]
  · rw [Json.orElse_str hs, Deployment.str_str]

theorem profileFromDict_document :
    profileFromDict d g (profileDocument identity name description daily burst memoryTypes approvalRequiredFor readAllowlist
      maxQueryK enforce finalizerOnly wings rooms) =
      .ok (documentProfile identity name description daily burst memoryTypes approvalRequiredFor readAllowlist maxQueryK enforce
        finalizerOnly wings rooms) := by
  have hhybrid : lowered "hybrid" = "hybrid" := by decide
  have hstandard : lowered "standard" = "standard" := by decide
  simp [profileFromDict, profileDocument, Dict.get, Dict.getD, Dict.has, itemAt, parseWriteDefaults, parseWriteQuota,
    parseRetentionPolicy, parseCostBudget, mappingAt, checkFields, textOf, numberOf, pyInt, pyFloat, bind, Except.bind, pure,
    Except.pure, Except.map, documentProfile, hhybrid, hstandard, Json.truthy]

theorem wf_texts (xs : List String) : WF (texts xs) := by
  refine wfElems_iff.2 ?_
  intro x hx
  obtain ⟨s, -, rfl⟩ := List.mem_map.1 hx
  trivial

theorem depth_texts (xs : List String) : depth (texts xs) = 1 := by
  have helems : depthElems (xs.map .str) = 0 := by
    induction xs with
    | nil => rfl
    | cons x xs ih => simp [depthElems, depth, ih]
  simp [texts, depth, helems]

theorem intDigits_texts (xs : List String) : intDigits (texts xs) = 0 := by
  have helems : intDigitsElems (xs.map .str) = 0 := by
    induction xs with
    | nil => rfl
    | cons x xs ih => simp [intDigitsElems, intDigits, ih]
  simp [texts, intDigits, helems]

/-- What YAML asks of a value that it gives back. -/
structure Plain (v : Json) : Prop where
  wf : WF v
  depth : depth v ≤ 100
  digits : intDigits v ≤ 4300

theorem plain_document (hdaily : intDigits (.int daily) ≤ 4300) (hburst : intDigits (.int burst) ≤ 4300)
    (hk : intDigits (.int maxQueryK) ≤ 4300) :
    Plain (.obj (profileDocument identity name description daily burst memoryTypes approvalRequiredFor readAllowlist
      maxQueryK enforce finalizerOnly wings rooms)) := by
  constructor
  · refine wf_obj_iff.2 ⟨by simp [profileDocument], ?_⟩
    simp [profileDocument, wf_texts, WF, WFMembers, WFElems]
  · simp [profileDocument, PyJson.depth, depthMembers, depthElems, depth_texts]
  · have hbudget : intDigits (.int 1000) ≤ 4300 := by decide
    simp [profileDocument, intDigits_texts, intDigits, intDigitsMembers, intDigitsElems] at hdaily hburst hk hbudget ⊢
    omega

theorem plain_wings : Plain (.obj (renderWings identity)) := by
  constructor
  · simp [renderWings, wf_texts, WF, WFMembers]
  · simp [renderWings, PyJson.depth, depthMembers, depth_texts]
  · simp [renderWings, intDigits, intDigitsMembers, intDigits_texts]

/-- The rooms the wings file gives the owner's wing. -/
def ownerWingRooms (identity : IdentityConfig) : WingRooms := [(identity.ownerWing, ["preferences", "feedback"])]

theorem loadKnownWingRooms_rendered :
    loadKnownWingRooms d yaml (renderDistribution yaml identity outDir) = .ok (ownerWingRooms identity) := by
  have hload : yaml.safeLoad (renderDistribution yaml identity outDir).wings = .ok (.obj (renderWings identity)) :=
    yaml.load_dump _ plain_wings.wf plain_wings.depth plain_wings.digits
  rw [loadKnownWingRooms, hload]
  rfl

/-! ## The checks of a rendered profile -/

theorem require_iff {c : Bool} {message : String} : require c message = .ok () ↔ c = true := by
  unfold require
  cases c with
  | false => simp
  | true => simp

theorem forM_ok_iff {α : Type} {f : α → Except PyErr Unit} {xs : List α} : xs.forM f = .ok () ↔ ∀ x ∈ xs, f x = .ok () := by
  induction xs with
  | nil => simp [pure, Except.pure]
  | cons x xs ih =>
    have hcons : (x :: xs).forM f = (f x >>= fun _ => xs.forM f) := rfl
    rw [hcons, List.forall_mem_cons, ← ih]
    cases f x with
    | error e => simp [bind, Except.bind]
    | ok u => simp [bind, Except.bind]

theorem bind_unit_iff {x y : Except PyErr Unit} : (x >>= fun _ => y) = .ok () ↔ x = .ok () ∧ y = .ok () := by
  cases x with
  | error e => simp [bind, Except.bind]
  | ok u => simp [bind, Except.bind]

/-- **An entry names a room of the owner's wing** exactly where the wing has no slash. -/
theorem checkRoomEntry_iff (hwing : identity.ownerWing ≠ "") {room : String} (hroom : room ∈ ["preferences", "feedback"]) :
    checkRoomEntry (ownerWingRooms identity) (writePath identity.ownerWing room) = .ok () ↔
      '/' ∉ identity.ownerWing.toList := by
  have hlist : (writePath identity.ownerWing room).toList = identity.ownerWing.toList ++ '/' :: room.toList := by
    simp [writePath]
  have hplain : '/' ∉ room.toList ∧ room ≠ "" := by
    simp only [List.mem_cons, List.not_mem_nil, or_false] at hroom
    rcases hroom with rfl | rfl
    · decide
    · decide
  have hrest : (room.toList.filter (· = '/')) = [] := by
    rw [List.filter_eq_nil_iff]
    intro c hc
    simp only [decide_eq_true_eq]
    rintro rfl
    exact hplain.1 hc
  have hcount : ((writePath identity.ownerWing room).toList.filter (· = '/')).length = 1 ↔ '/' ∉ identity.ownerWing.toList := by
    rw [hlist, List.filter_append, List.filter_cons_of_pos (by simp), hrest]
    simp only [List.length_append, List.length_cons, List.length_nil, Nat.zero_add, Nat.add_eq_right, List.length_eq_zero_iff,
      List.filter_eq_nil_iff, decide_eq_true_eq]
    constructor
    · intro h hm
      exact h '/' hm rfl
    · rintro h c hc rfl
      exact h hc
  unfold checkRoomEntry
  simp only [bind_unit_iff, require_iff, decide_eq_true_eq, hcount]
  constructor
  · rintro ⟨h, -⟩
    exact h
  · intro h
    rw [hlist]
    have hne : ∀ c ∈ identity.ownerWing.toList, decide (c ≠ '/') = true := by
      intro c hc
      simp only [decide_eq_true_eq]
      rintro rfl
      exact h hc
    have htake : (identity.ownerWing.toList ++ '/' :: room.toList).takeWhile (fun c => decide (c ≠ '/')) = identity.ownerWing.toList := by
      rw [List.takeWhile_append_of_pos hne]
      simp
    have hdrop : (identity.ownerWing.toList ++ '/' :: room.toList).dropWhile (fun c => decide (c ≠ '/')) = '/' :: room.toList := by
      rw [List.dropWhile_append_of_pos hne]
      simp
    rw [htake, hdrop]
    refine ⟨h, by simp [hwing, hplain.2], ?_⟩
    simp only [ownerWingRooms, String.ofList_toList, List.tail_cons, List.lookup_cons, beq_self_eq_true]
    rw [require_iff, List.contains_iff_mem]
    exact hroom

theorem validateProfile_iff (hdaily : 0 < daily) (hburst : 0 < burst) (hk : 0 < maxQueryK)
    (hwings : ∀ w ∈ wings, w = g.identity.ownerWing) :
    validateProfile g (ownerWingRooms g.identity) (documentProfile g.identity name description daily burst memoryTypes
      approvalRequiredFor readAllowlist maxQueryK enforce finalizerOnly wings rooms) = .ok () ↔
      ∀ entry ∈ rooms, checkRoomEntry (ownerWingRooms g.identity) entry = .ok () := by
  have hknown : ((ownerWingRooms g.identity).lookup g.identity.ownerWing).isSome = true := by
    simp [ownerWingRooms]
  have hallowed : ∀ w ∈ wings, ((ownerWingRooms g.identity).lookup w).isSome = true := by
    intro w hw
    rw [hwings w hw]
    exact hknown
  unfold validateProfile
  simp only [bind_unit_iff, require_iff, forM_ok_iff]
  constructor
  · rintro ⟨-, -, -, -, -, -, -, -, -, -, -, h⟩
    exact h
  · intro h
    refine ⟨hknown, decide_eq_true hdaily, decide_eq_true hburst, decide_eq_true hk, by simp [documentProfile],
      by simp [documentProfile], by simp [documentProfile], by simp [documentProfile], by simp [documentProfile], ?_, hallowed, h⟩
    intro tenantId htenant
    simp only [documentProfile, List.mem_singleton] at htenant
    simp [htenant]

/-- A rendered profile loads exactly where the entries of its allowlist name rooms. -/
theorem loadProfile_document {profileName : String}
    (hdoc : (profileName, profileDocument g.identity name description daily burst memoryTypes approvalRequiredFor readAllowlist
      maxQueryK enforce finalizerOnly wings rooms) ∈ renderedProfiles g.identity)
    (hplain : Plain (.obj (profileDocument g.identity name description daily burst memoryTypes approvalRequiredFor readAllowlist
      maxQueryK enforce finalizerOnly wings rooms)))
    (hdaily : 0 < daily) (hburst : 0 < burst) (hk : 0 < maxQueryK) (hwings : ∀ w ∈ wings, w = g.identity.ownerWing)
    {p : LoadedProfile} :
    loadProfile d yaml g (renderDistribution yaml g.identity outDir) profileName = .ok p ↔
      (∀ entry ∈ rooms, checkRoomEntry (ownerWingRooms g.identity) entry = .ok ()) ∧
        p = documentProfile g.identity name description daily burst memoryTypes approvalRequiredFor readAllowlist maxQueryK enforce
          finalizerOnly wings rooms := by
  have hnodup : ((renderDistribution yaml g.identity outDir).agents.map Prod.fst).Nodup := by
    simp [renderDistribution, renderedProfiles, finalizerProfileName]
  have hlookup : (renderDistribution yaml g.identity outDir).agents.lookup profileName = some (yaml.safeDump (.obj
      (profileDocument g.identity name description daily burst memoryTypes approvalRequiredFor readAllowlist maxQueryK enforce
        finalizerOnly wings rooms))) :=
    (OrderedDict.mem_iff_lookup hnodup).1 (List.mem_map.2 ⟨_, hdoc, rfl⟩)
  have hsome : (renderDistribution yaml g.identity outDir).agents.isEmpty = false := rfl
  have hload := yaml.load_dump _ hplain.wf hplain.depth hplain.digits
  have hobj : (Json.obj (profileDocument g.identity name description daily burst memoryTypes approvalRequiredFor readAllowlist
      maxQueryK enforce finalizerOnly wings rooms)).orElse (.obj []) = .obj (profileDocument g.identity name description daily
        burst memoryTypes approvalRequiredFor readAllowlist maxQueryK enforce finalizerOnly wings rooms) := rfl
  unfold loadProfile
  simp only [hsome, Bool.false_eq_true, if_false, hlookup, hload]
  rw [← validateProfile_iff hdaily hburst hk hwings]
  simp only [bind, Except.bind, hobj, profileFromDict_document, loadKnownWingRooms_rendered]
  cases validateProfile g (ownerWingRooms g.identity) (documentProfile g.identity name description daily burst memoryTypes
      approvalRequiredFor readAllowlist maxQueryK enforce finalizerOnly wings rooms) with
  | error e => simp
  | ok u => simp [eq_comm]

theorem ownerRooms_iff (hwing : identity.ownerWing ≠ "") :
    (∀ entry ∈ ownerRooms identity, checkRoomEntry (ownerWingRooms identity) entry = .ok ()) ↔
      '/' ∉ identity.ownerWing.toList := by
  rw [ownerRooms, List.forall_mem_cons, List.forall_mem_singleton, checkRoomEntry_iff hwing (by simp),
    checkRoomEntry_iff hwing (by simp), and_self]

/-- A profile of the distribution loads. -/
def Loads (d : Deployment) (yaml : YamlLib) (g : Governance) (outDir profileName : String) (p : LoadedProfile) : Prop :=
  loadProfile d yaml g (renderDistribution yaml g.identity outDir) profileName = .ok p

theorem loads_finalizer_iff (hwing : g.identity.ownerWing ≠ "") {p : LoadedProfile} :
    Loads d yaml g outDir finalizerProfileName p ↔ '/' ∉ g.identity.ownerWing.toList ∧
      p = documentProfile g.identity finalizerProfileName finalizerDescription 200 60 (ownerTypes g.identity) []
        (ownerRooms g.identity) 5 true true [g.identity.ownerWing] (ownerRooms g.identity) := by
  rw [← ownerRooms_iff hwing]
  exact loadProfile_document (.head _) (plain_document (by decide) (by decide) (by decide)) (by decide) (by decide) (by decide)
    (by simp)

/-- A profile of the distribution loads where the wing has no slash, and its tenant is the deployment's own. -/
theorem loads_rendered (hwing : g.identity.ownerWing ≠ "") {profileName : String}
    (hname : profileName ∈ (renderedProfiles g.identity).map Prod.fst) :
    ('/' ∉ g.identity.ownerWing.toList → ∃ p, Loads d yaml g outDir profileName p) ∧
      ∀ p, Loads d yaml g outDir profileName p → p.tenantScope = [g.identity.defaultTenantId] := by
  have hrooms := ownerRooms_iff hwing
  have hnone : ∀ entry ∈ ([] : List String), checkRoomEntry (ownerWingRooms g.identity) entry = .ok () := by simp
  simp only [renderedProfiles, List.map_cons, List.map_nil, List.mem_cons, List.not_mem_nil, or_false] at hname
  rcases hname with rfl | rfl | rfl | rfl | rfl
  · have hload : ∀ p, Loads d yaml g outDir finalizerProfileName p ↔ _ := fun p => loads_finalizer_iff hwing
    exact ⟨fun h => ⟨_, (hload _).2 ⟨h, rfl⟩⟩, fun p hp => by rw [((hload p).1 hp).2]; rfl⟩
  · have hload : ∀ p, Loads d yaml g outDir "serving" p ↔ _ := fun p =>
      loadProfile_document (.tail _ (.head _)) (plain_document (by decide) (by decide) (by decide)) (by decide) (by decide)
        (by decide) (by simp)
    exact ⟨fun h => ⟨_, (hload _).2 ⟨hrooms.2 h, rfl⟩⟩, fun p hp => by rw [((hload p).1 hp).2]; rfl⟩
  · have hload : ∀ p, Loads d yaml g outDir "mcp-read" p ↔ _ := fun p =>
      loadProfile_document (.tail _ (.tail _ (.head _))) (plain_document (by decide) (by decide) (by decide)) (by decide)
        (by decide) (by decide) (by simp)
    exact ⟨fun _ => ⟨_, (hload _).2 ⟨hnone, rfl⟩⟩, fun p hp => by rw [((hload p).1 hp).2]; rfl⟩
  · have hload : ∀ p, Loads d yaml g outDir "mcp-write" p ↔ _ := fun p =>
      loadProfile_document (.tail _ (.tail _ (.tail _ (.head _)))) (plain_document (by decide) (by decide) (by decide))
        (by decide) (by decide) (by decide) (by simp)
    exact ⟨fun h => ⟨_, (hload _).2 ⟨hrooms.2 h, rfl⟩⟩, fun p hp => by rw [((hload p).1 hp).2]; rfl⟩
  · have hload : ∀ p, Loads d yaml g outDir "panella-mcp" p ↔ _ := fun p =>
      loadProfile_document (.tail _ (.tail _ (.tail _ (.tail _ (.head _))))) (plain_document (by decide) (by decide) (by decide))
        (by decide) (by decide) (by decide) (by simp)
    exact ⟨fun _ => ⟨_, (hload _).2 ⟨hnone, rfl⟩⟩, fun p hp => by rw [((hload p).1 hp).2]; rfl⟩

/-! ## A working deployment -/

/-- Every candidate there is can be finalized under the rendered profile of the finalizer. -/
def Finalizes (d : Deployment) (g : Governance) (finalizer : LoadedProfile) (candidateJson : String) : Prop :=
  ∀ (approvalId : Nat) (via : String) (proposer : Option String) (createdAt conversationId : String), ∃ built body,
    reconstructDurablePayload (d.under g finalizer.toAgentProfile) candidateJson (approvalMarker approvalId) approvalId via proposer
      createdAt = .ok built ∧
    finalizeWrite (d.under g finalizer.toAgentProfile) finalizer.toAgentProfile built conversationId = .ok body ∧
    built.tenantId = g.identity.defaultTenantId

/-- What a governance file that loads is to give. -/
structure Works (d : Deployment) (yaml : YamlLib) (g : Governance) (outDir : String) : Prop where
  wings : ∃ wingRooms, loadKnownWingRooms d yaml (renderDistribution yaml g.identity outDir) = .ok wingRooms
  profiles : ∀ name ∈ (renderedProfiles g.identity).map Prod.fst, ∃ p, Loads d yaml g outDir name p
  writes : ∀ finalizer, Loads d yaml g outDir finalizerProfileName finalizer → ∀ candidateJson cand,
    d.loads candidateJson = .ok (.obj cand) → Finalizes d g finalizer candidateJson
  tenants : ∀ name ∈ (renderedProfiles g.identity).map Prod.fst, ∀ p, Loads d yaml g outDir name p →
    p.allowsTenant g.identity.defaultTenantId = true
  principal : ∀ finalizer, Loads d yaml g outDir finalizerProfileName finalizer →
    ∃ pr, principalDefaultForProfile (d.under g finalizer.toAgentProfile) finalizer.toAgentProfile = .ok pr

/-- The rendered finalizer writes what the payload builder builds, whatever the candidate. -/
theorem finalizes_rendered {finalizer : LoadedProfile}
    (hp : finalizer = documentProfile g.identity finalizerProfileName description 200 60 (ownerTypes g.identity) []
      (ownerRooms g.identity) 5 true true [g.identity.ownerWing] (ownerRooms g.identity)) {candidateJson : String} {cand : Dict}
    (hcand : d.loads candidateJson = .ok (.obj cand)) : Finalizes d g finalizer candidateJson := by
  intro approvalId via proposer createdAt conversationId
  have hbuilt := reconstruct_obj (d := d.under g finalizer.toAgentProfile) hcand (approvalMarker approvalId) approvalId via proposer
    createdAt
  have hroom := candidateRoom_cases (d.under g finalizer.toAgentProfile) cand
  have hadmits : finalizer.toAgentProfile.Admits (d.under g finalizer.toAgentProfile) cand := by
    subst hp
    rw [AgentProfile.Admits]
    rcases hroom with hroom | hroom
    all_goals
      rw [hroom]
      refine ⟨rfl, ?_, ?_⟩
      · simp [checkWriteAllowlist, documentProfile, Deployment.under, ownerRooms]
      · simp [durableMemoryType, documentProfile, Deployment.under, ownerTypes]
  obtain ⟨body, hbody⟩ := finalizeWrite_iff.2 hadmits
  exact ⟨_, body, hbuilt, hbody, rfl⟩

theorem works_iff (hwing : g.identity.ownerWing ≠ "") : Works d yaml g outDir ↔
    '/' ∉ g.identity.ownerWing.toList ∧ identityShape g.identity.defaultTenantId = true ∧
      identityShape g.identity.defaultSubjectId = true := by
  have hfinalizer : finalizerProfileName ∈ (renderedProfiles g.identity).map Prod.fst := .head _
  constructor
  · rintro ⟨-, hprofiles, -, -, hprincipal⟩
    obtain ⟨p, hp⟩ := hprofiles finalizerProfileName hfinalizer
    have hscope := (loads_rendered hwing hfinalizer).2 p hp
    have hshapes := principalDefault_iff.1 (hprincipal p hp)
    rw [hscope] at hshapes
    exact ⟨((loads_finalizer_iff hwing).1 hp).1, hshapes.1, hshapes.2⟩
  · rintro ⟨hslash, htenant, hsubject⟩
    refine ⟨⟨_, loadKnownWingRooms_rendered⟩, fun name hname => (loads_rendered hwing hname).1 hslash, ?_, ?_, ?_⟩
    · intro finalizer hp candidateJson cand hcand
      exact finalizes_rendered ((loads_finalizer_iff hwing).1 hp).2 hcand
    · intro name hname p hp
      rw [AgentProfile.allowsTenant, (loads_rendered hwing hname).2 p hp]
      simp
    · intro finalizer hp
      refine principalDefault_iff.2 ⟨?_, hsubject⟩
      rw [(loads_rendered hwing hfinalizer).2 finalizer hp]
      exact htenant

end

/-! ## The main theorem -/

/-- **When an accepted governance gives a working deployment**: the profiles and the wings rendered from it load, the
finalizer's writes what the payload builder makes of any candidate, for a tenant all of them allow, and it has a principal. -/
theorem governance_works_iff (d : Deployment) (yaml : YamlLib) (base : Dict) (overlay : Option Dict) (g : Governance)
    (outDir : String) (h : loadGovernance d.repr base overlay = .ok g) :
    Works d yaml g outDir ↔ '/' ∉ g.identity.ownerWing.toList ∧ identityShape g.identity.defaultTenantId = true ∧
      identityShape g.identity.defaultSubjectId = true := by
  obtain ⟨-, -, -, hwing⟩ := loadGovernance_required h
  exact works_iff hwing

/-- JSON is YAML. -/
def jsonYaml : YamlLib where
  safeDump v := String.ofList (encode spaced v)
  safeLoad text := (PyJson.loads ⟨100, 4300⟩ text).mapError .json
  load_dump v hw hd hn := by
    rw [loads_encode spaced hw hd hn]
    rfl

/-- The config with another owner's wing. -/
def wingConfig (wing : String) : Dict := [("schema_version", .int 1), ("identity", .obj [("owner_wing", .str wing)])]

theorem governance_works_sample : ∃ g, loadGovernance sampleDeployment.repr (wingConfig "owner") (some (wingConfig " anna ")) = .ok g ∧
    g.identity.ownerWing = "anna" ∧ Works sampleDeployment jsonYaml g "/config" := by
  obtain ⟨g, hg⟩ : ∃ g, loadGovernance sampleDeployment.repr (wingConfig "owner") (some (wingConfig " anna ")) = .ok g := ⟨_, rfl⟩
  have hworks := governance_works_iff sampleDeployment jsonYaml _ _ g "/config" hg
  cases hg
  exact ⟨_, rfl, rfl, hworks.2 ⟨by decide, by decide, by decide⟩⟩

/-- A wing with a slash is accepted, and the finalizer's profile does not load. -/
theorem slashWing_fails : ¬ ∀ (d : Deployment) (yaml : YamlLib) (base : Dict) (overlay : Option Dict) (g : Governance)
    (outDir : String), loadGovernance d.repr base overlay = .ok g → Works d yaml g outDir := by
  intro h
  obtain ⟨g, hg⟩ : ∃ g, loadGovernance sampleDeployment.repr (wingConfig "home/anna") none = .ok g := ⟨_, rfl⟩
  have hworks := h sampleDeployment jsonYaml _ _ g "/config" hg
  cases hg
  obtain ⟨hslash, -⟩ := (works_iff (by decide)).1 hworks
  exact hslash (by decide)

end Panella

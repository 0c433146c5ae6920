import Panella.Audit
import Panella.Reader

/-!
# The read side of the client (`panella/client.py`, `panella/panella_adapter.py`)

| here | there |
| --- | --- |
| `wingBoost` | `wing_boost` with `resolve_wing_bias`, `_wing_bias` (`wing_boost.py` :33-107) |
| `searchHit`, `searchMemories` | `search_memories` (:433-496), its loop body |
| `recentHit`, `listRecentByWing` | `list_recent_by_wing` (:820-860), its loop body |
| `filterHits` | `_filter_hits` (:836-874) |
| `applyProfileBoost`, `auditIfCrossTenant` | `_apply_profile_boost` (:876-888), `_audit_if_cross_tenant` (:1022-1040) |
| `search`, `getMemory`, `sampleByWing` | `search` (:139-187), `get_memory` (:189-210), `sample_by_wing` (:812-834) |

Every reading of the clock is an instant of its own (`ReadClock`): a break-glass token may run out between any two. The
store is asked through functions of what is sent, once with the tenants and, where that raises `TypeError`, once more
without.
-/

namespace Panella

open PyJson

/-- A profile with what reads use of it; `validate` refuses one without a positive `max_query_k` or a `default` boost. -/
structure ReadProfile (F : Type) extends AgentProfile where
  maxQueryK : Int
  maxQueryK_pos : 0 < maxQueryK
  /-- `wing_boost`, and its entry `default`. -/
  wingBoost : List (String × F)
  defaultBoost : F

/-- The readings of the clock, in their order: `_enforce_break_glass_ttl`, `_tenant_ids`, then `_tenant_ids` and
`is_root_with_break_glass` in `_filter_hits`, then `_audit_if_cross_tenant`. -/
structure ReadClock where
  ttl : Instant
  scope : Instant
  filterScope : Instant
  filterRoot : Instant
  audit : Instant
  /-- `ts_iso` of the audit row. -/
  tsIso : String

/-! ## The soft boost of a wing -/

/-- `_normalize_wings`. -/
def normalizeWings (wings : List String) : List String :=
  wings.foldl (fun acc wing =>
    let value := PyText.stripSpace wing
    if value ≠ "" ∧ value ∉ acc then acc ++ [value] else acc) []

/-- `WingBias`; without factors where its source is `none`. -/
structure WingBias (F : Type) where
  factors : List (String × F)
  downweightAllOthers : Bool

/-- `HINT_WING_BOOST_FACTOR`, `OUT_OF_HINT_WING_FACTOR`, `DEFAULT_WING_FACTOR`. -/
def hintWingBoostFactor : Rat := 3 / 2
def outOfHintWingFactor : Rat := 7 / 10
def defaultWingFactor : Rat := 1

/-- `resolve_wing_bias("", wings_hint)`; `inferred` is `infer_wings("")`, from the patterns file. -/
def resolveWingBias {F : Type} (fl : Floats F) (inferred : List String × List String) (wingsHint : List String) :
    WingBias F :=
  let hinted := normalizeWings wingsHint
  let boost : String → String × F := fun wing => (wing, fl.lit hintWingBoostFactor)
  if hinted ≠ [] then ⟨hinted.map boost, true⟩
  else if inferred.1 ≠ [] then
    ⟨inferred.1.map boost ++ inferred.2.map fun wing => (wing, fl.lit outOfHintWingFactor), false⟩
  else ⟨[], false⟩

/-- `wing_boost(hit_wing, wings_hint)`. -/
def wingBoost {F : Type} (fl : Floats F) (inferred : List String × List String) (hitWing : String)
    (wingsHint : List String) : F :=
  let bias := resolveWingBias fl inferred wingsHint
  let hit := PyText.stripSpace hitWing
  if hit = "" then fl.lit defaultWingFactor
  else
    match bias.factors.lookup hit with
    | some factor => factor
    | none => fl.lit (if bias.downweightAllOthers then outOfHintWingFactor else defaultWingFactor)

/-! ## The adapter -/

/-- `PANELLA_OVERFETCH_N`. -/
def panellaOverfetchN : Int := 40

/-- `not tenant_ids or "*" in tenant_ids or tenant_id in set(tenant_ids)`. -/
def inTenants (ids : List String) (tenantId : String) : Bool :=
  ids.isEmpty || ids.contains "*" || ids.contains tenantId

/-- What the adapter reads besides the store. -/
structure ReadEnv (F : Type) extends ReaderEnv F where
  /-- `infer_wings("")`. -/
  inferred : List String × List String

/-- `normalized["score"]`, as `search_memories` sets it. -/
def scoreOf {F : Type} (fl : Floats F) : Json → Except ClientErr (Option F)
  | .null => .ok none
  | v =>
    match fl.ofJson v with
    | .ok x => .ok (some x)
    | .error e => if e.isTypeOrValueError then .ok none else .error e

/-- One turn of the loop of `search_memories`; `none` is `continue`. -/
def searchHit {F : Type} (d : Deployment) (env : ReadEnv F) (ids wingsHint : List String) (sr : Json) :
    Except ClientErr (Option (ReadHit F)) :=
  match memoryOf sr with
  | none => .ok none
  | some mem => do
    let hit : ReadHit F ← (d.normalize mem).mapError .py
    if hasExcludedRecallStatus hit.toHit then .ok none
    else
      let score ← scoreOf env.toFloats (match sr with | .obj kvs => Dict.get kvs "similarity_score" | _ => .null)
      if !inTenants ids hit.tenantId then .ok none
      else if wingsHint = [] then .ok (some { hit with score })
      else
        .ok (some { hit with
          score := score.map fun x => env.mul x (wingBoost env.toFloats env.inferred hit.wing wingsHint) })

/-- `POST /api/search`: the number of results asked for, and the JSON of the answer. -/
abbrev SearchApi : Type := Int → Except ClientErr Json

/-- `search_memories`; its query is the one the answers of the store are for. -/
def searchMemories {F : Type} (d : Deployment) (env : ReadEnv F) (api : SearchApi) (k : Int) (wingsHint ids : List String) :
    Except ClientErr (List (ReadHit F)) := do
  let payload ← api (max k panellaOverfetchN)
  let results ← (resultsOf payload).mapError .py
  let boosted ← results.mapM (searchHit d env ids wingsHint)
  .ok (slice (sortedBy env.toFloats (fun h => h.score.getD env.negInf) boosted.reduceOption) k)

/-- The tags of the query of `list_recent_by_wing`. -/
def recentTags (wing : String) (ids : List String) : List String :=
  ["wing:" ++ wing, "status:active"] ++
    match ids with
    | [tid] => if tid = "*" then [] else ["tenant:" ++ tid]
    | _ => []

/-- One turn of the loop of `list_recent_by_wing`. -/
def recentHit {F : Type} (d : Deployment) (ids : List String) (sr : Json) : Except ClientErr (Option (ReadHit F)) :=
  match memoryOf sr with
  | none => .ok none
  | some mem => do
    let hit : ReadHit F ← (d.normalize mem).mapError .py
    .ok (if inTenants ids hit.tenantId then some hit else none)

/-- `POST /api/search/by-tag`: the tags, the number of results, and the JSON of the answer. -/
abbrev ByTagApi : Type := List String → Int → Except ClientErr Json

/-- `str(h.get("created_at_iso") or "")`. -/
def createdText {F : Type} (d : Deployment) (h : ReadHit F) : String := d.str (h.createdAtIso.orElse (.str ""))

/-- `list_recent_by_wing`. -/
def listRecentByWing {F : Type} (d : Deployment) (api : ByTagApi) (wing : String) (k : Int) (ids : List String) :
    Except ClientErr (List (ReadHit F)) := do
  let payload ← api (recentTags wing ids) k
  let results ← (resultsOf payload).mapError .py
  let normalized ← results.mapM (recentHit d ids)
  .ok (slice (normalized.reduceOption.insertionSort fun a b => ¬ createdText d a < createdText d b) k)

/-! ## The client -/

/-- `_filter_hits`: the hits allowed and the hits blocked, or the isolation error of the first foreign one. -/
def filterLoop {F : Type} (d : Deployment) (p : AgentProfile) (ids : List String) :
    List (ReadHit F) → Except ClientErr (List (ReadHit F) × List (ReadHit F))
  | [] => .ok ([], [])
  | hit :: hits =>
    if hasExcludedRecallStatus hit.toHit then (filterLoop d p ids hits).map fun r => (r.1, hit :: r.2)
    -- A normalized hit always has a tenant, so the branch for a hit without one is never taken.
    else if !ids.contains "*" && !ids.contains hit.tenantId then
      .error (.tenantIsolation ("tenant prefilter leaked hit " ++ d.str (hit.drawerId.orElse hit.drawerId) ++ " from " ++
        hit.tenantId))
    else if readable p hit.path then (filterLoop d p ids hits).map fun r => (hit :: r.1, r.2)
    else (filterLoop d p ids hits).map fun r => (r.1, hit :: r.2)

/-- `_filter_hits`. -/
def filterHits {F : Type} (d : Deployment) (p : AgentProfile) (pr : Principal) (clk : ReadClock)
    (hits : List (ReadHit F)) : Except ClientErr (List (ReadHit F) × List (ReadHit F)) := do
  let ids ← (tenantIds p pr clk.filterScope).mapError .py
  filterLoop d p ids hits

/-- `self.profile.wing_boost.get(wing, self.profile.wing_boost["default"])`. -/
def ReadProfile.factor {F : Type} (p : ReadProfile F) (wing : String) : F := (p.wingBoost.lookup wing).getD p.defaultBoost

/-- `boosted_score`. -/
def boostedScore {F : Type} (fl : Floats F) (p : ReadProfile F) (h : ReadHit F) : F :=
  fl.mul (h.score.getD (fl.lit 0)) (p.factor (PyText.stripSpace h.wing))

/-- `_apply_profile_boost`. -/
def applyProfileBoost {F : Type} (fl : Floats F) (p : ReadProfile F) (hits : List (ReadHit F)) : List (ReadHit F) :=
  if hits.any fun h => h.score.isSome then sortedBy fl (boostedScore fl p) hits else hits

/-- What a call returns, and the audit row it committed before, if any. -/
structure Served (α : Type) where
  value : α
  audit : Option AuditWrite

/-- The audit log, as a read writes to it: committed, or what `audit_write` raises. -/
abbrev AuditSink : Type := AuditWrite → Except ClientErr Unit

/-- `_audit_if_cross_tenant`. -/
def auditIfCrossTenant (sink : AuditSink) (pr : Principal) (now : Instant) (w : AuditWrite) :
    Except ClientErr (Option AuditWrite) :=
  if pr.isRootWithBreakGlass now then (sink w).map fun _ => some w else .ok none

/-- The arguments of `audit_write` in `_audit_if_cross_tenant`. -/
def crossTenantWrite (pr : Principal) (tsIso op tenantAccessed : String) (targetId : Option String) (details : Dict)
    (wf : WF (.obj details)) : AuditWrite where
  tsIso
  principalId := pr.id
  tenantAccessed
  op
  targetId
  reasonCode := pr.breakGlassToken.map (·.reason)
  details := some details
  wf := by
    intro x hx
    obtain rfl := Option.mem_some_iff.1 hx
    exact wf

/-- `require_scope("memory.read")` and `_enforce_break_glass_ttl()`. -/
def readGate (pr : Principal) (clk : ReadClock) : Except ClientErr Unit := do
  (pr.requireScope "memory.read").mapError .py
  (pr.requireActiveBreakGlass clk.ttl).mapError .py

/-- `_allowlist_wings`. -/
def allowlistWings (patterns : List String) : List String :=
  patterns.foldl (fun wings pattern =>
    let wing := String.ofList (pattern.toList.takeWhile (· ≠ '/'))
    if wing ≠ "" ∧ '*' ∉ wing.toList ∧ wing ∉ wings then wings ++ [wing] else wings) []

/-- `wings_hint or _allowlist_wings(...) or [write_default.wing]`. -/
def hintsOf (p : AgentProfile) (wingsHint : Option (List String)) : List String :=
  match wingsHint with
  | some (wing :: wings) => wing :: wings
  | _ => if allowlistWings p.readAllowlist = [] then [p.writeDefault.wing] else allowlistWings p.readAllowlist

/-- `try: call(tenant_ids=...) except TypeError: call()`. -/
def withFallback {α : Type} (first again : Except ClientErr α) : Except ClientErr α :=
  match first with
  | .error e => if e.isTypeError then again else .error e
  | .ok a => .ok a

/-- `min(k if k is not None else max_query_k, max_query_k)`. -/
def ReadProfile.limit {F : Type} (p : ReadProfile F) (k : Option Int) : Int := min (k.getD p.maxQueryK) p.maxQueryK

/-- The reader, where it is on. -/
def readStage {F : Type} (env : ReadEnv F) (readerOn : Bool) (query : String) (hits : List (ReadHit F)) (limit : Int) :
    Except ClientErr (List (ReadHit F)) :=
  if readerOn then
    select env.toReaderEnv (jaccardSim env.toReaderEnv) (readerppTau env.toReaderEnv) readerppRrfK env.scorer query hits
      limit
  else .ok hits

/-- The details of the audit row of a search. -/
def searchDetails (query : String) (limit : Int) : Dict :=
  [("query_sha256", .str (Sha256.hexdigest (Sha256.utf8 query))), ("k", .int limit)]

theorem wf_searchDetails (query : String) (limit : Int) : WF (.obj (searchDetails query limit)) :=
  wf_obj_iff.2 ⟨by simp only [searchDetails, List.map_cons, List.map_nil]; decide, by simp [searchDetails, WF]⟩

/-- `search`; `api` answers its first call to the store, `again` the one without tenants. -/
def search {F : Type} (d : Deployment) (env : ReadEnv F) (p : ReadProfile F) (pr : Principal) (clk : ReadClock)
    (sink : AuditSink) (api again : SearchApi) (query : String) (k : Option Int) (wingsHint : Option (List String)) :
    Except ClientErr (Served (List (ReadHit F))) := do
  readGate pr clk
  let limit := p.limit k
  let hints := hintsOf p.toAgentProfile wingsHint
  let ids ← (tenantIds p.toAgentProfile pr clk.scope).mapError .py
  let readerOn := readerEnabled env.toReaderEnv
  let fetch := fetchK d env.toReaderEnv limit readerOn
  let raw ← withFallback (searchMemories d env api fetch hints ids) (searchMemories d env again fetch hints [])
  let filtered ← filterHits d p.toAgentProfile pr clk raw
  let boosted ← readStage env readerOn query (applyProfileBoost env.toFloats p filtered.1) limit
  let audit ← auditIfCrossTenant sink pr clk.audit
    (crossTenantWrite pr clk.tsIso "search" "*" none (searchDetails query limit) (wf_searchDetails query limit))
  .ok ⟨slice boosted limit, audit⟩

/-- The details of the audit row of a read by id. -/
def memoryDetails (memoryId : String) : Dict := [("memory_id", .str memoryId)]

theorem wf_memoryDetails (memoryId : String) : WF (.obj (memoryDetails memoryId)) :=
  wf_obj_iff.2 ⟨by simp only [memoryDetails, List.map_cons, List.map_nil]; decide, by simp [memoryDetails, WF]⟩

/-- The end of `get_memory`: the first hit the filter allowed, audited. -/
def serveFound {F : Type} (pr : Principal) (clk : ReadClock) (sink : AuditSink) (memoryId : String) :
    List (ReadHit F) → Except ClientErr (Served (Option (ReadHit F)))
  | [] => .ok ⟨none, none⟩
  | hit :: _ => do
    let tenant := if hit.tenantId = "" then pr.tenantId else hit.tenantId
    let audit ← auditIfCrossTenant sink pr clk.audit
      (crossTenantWrite pr clk.tsIso "get_memory" tenant (some memoryId) (memoryDetails memoryId) (wf_memoryDetails memoryId))
    .ok ⟨some hit, audit⟩

/-- `get_memory`; `reply` is the store's answer to `GET /api/memories/{memory_id}`. -/
def getMemory {F : Type} (d : Deployment) (p : AgentProfile) (pr : Principal) (clk : ReadClock) (sink : AuditSink)
    (reply : GetReply) (memoryId : String) : Except ClientErr (Served (Option (ReadHit F))) := do
  readGate pr clk
  match ← getDrawer (F := F) d reply with
  | none => .ok ⟨none, none⟩
  | some raw =>
    let filtered ← filterHits d p pr clk [raw]
    serveFound pr clk sink memoryId filtered.1

/-- The snippet `sample_by_wing` leaves of a hit. -/
def snippet {F : Type} (d : Deployment) (h : ReadHit F) : ReadHit F :=
  let content := d.str (h.content.orElse (.str ""))
  if content.length > 240 then { h with content := .str (String.ofList (content.toList.take 240) ++ "...") } else h

/-- `sample_by_wing`, which leaves no audit row. -/
def sampleByWing {F : Type} (d : Deployment) (p : AgentProfile) (pr : Principal) (clk : ReadClock) (api again : ByTagApi)
    (wing : String) (k : Int) : Except ClientErr (List (ReadHit F)) := do
  readGate pr clk
  let ids ← (tenantIds p pr clk.scope).mapError .py
  let raw ← withFallback (listRecentByWing d api wing k ids) (listRecentByWing d again wing k [])
  let filtered ← filterHits d p pr clk raw
  .ok (slice (filtered.1.map (snippet d)) k)

end Panella

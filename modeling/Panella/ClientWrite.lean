import Panella.Adapter
import Panella.Lib.Fnmatch
import Panella.Lib.Sha256

/-!
# `MemoryClient.write` up to the hand-off (`panella/client.py:262-352`)

`prepareWrite` is everything before the approval gate: the scope, the checks of the arguments, the quota,
the write allowlist, the tenant and the metadata the row is stored with. `write` then queues the
row or hands it to the adapter. Both gates test the text `wing/room` (`writePath`); the read side
tests `roomPath` of the row as it comes back.
-/

namespace Panella

open Fallible PyJson

/-! ## Paths and patterns -/

/-- `f"{wing}/{room}"`, as the allowlist, the approval gate and `aggregate_stats` spell it. -/
def writePath (wing room : String) : String := wing ++ "/" ++ room

/-- `_room_path(hit)`. -/
def roomPath (wing room : String) : String :=
  let wing := PyText.strip (· = '/') wing
  let room := PyText.strip (· = '/') room
  if '/' ∈ room.toList then room else PyText.strip (· = '/') (wing ++ "/" ++ room)

/-- `_room_path` of a normalized row. -/
def Hit.path (h : Hit) : String := roomPath h.wing h.room

/-- `_matches_any`. -/
def matchesAny (path : String) (patterns : List String) : Bool := patterns.any (Fnmatch.fnmatchcase path)

/-- `_approval_required`. -/
def approvalRequired (p : AgentProfile) (wing room : String) : Bool :=
  matchesAny (writePath wing room) p.approvalRequiredFor

/-- The last test of `_filter_hits`: the row is shown, not blocked. -/
def readable (p : AgentProfile) (path : String) : Bool :=
  !(matchesAny path p.deny || !matchesAny path p.readAllowlist)

/-! ## Arguments -/

structure WriteCall where
  content : String
  room : String
  memoryType : String
  conversationId : Option String
  /-- The caller's keyword arguments. -/
  metadata : Dict

/-- What `_enforce_write_quota` reads: today's counter, the clock and the earlier writes, in seconds. -/
structure QuotaState where
  writesToday : Int
  now : Rat
  writeTimestamps : List Rat

/-- `datetime.now(UTC)`, the texts it is written as, and dates a number of days later. -/
structure WriteClock where
  now : Instant
  isoformat : String
  utcnowIso : String
  inDays : Int → String

/-- The wing the row is written under. -/
def effectiveWing (d : Deployment) (p : AgentProfile) (c : WriteCall) : String :=
  d.str ((Dict.get c.metadata "wing").orElse (.str p.writeDefault.wing))

/-- The room the row is written under. -/
def effectiveRoom (p : AgentProfile) (c : WriteCall) : String :=
  if c.room = "" then p.writeDefault.room else c.room

/-! ## The checks -/

/-- `conversation_id` is for the cc-sync batch only (:282-288). -/
def checkConversationId (d : Deployment) (p : AgentProfile) (conversationId : Option String) : Except PyErr Unit :=
  match conversationId with
  | none => .ok ()
  | some id =>
    if p.name = "cc-sync" ∧ "cc-sync:".toList <+: id.toList then .ok ()
    else .error (.permissionError ("conversation_id is scope-restricted to the cc-sync profile with a " ++
      "'cc-sync:' prefix; profile=" ++ d.repr (.str p.name) ++ " rejected"))

def checkFinalizerOnly (p : AgentProfile) : Except PyErr Unit :=
  if p.finalizerOnly then
    .error (.permissionError ("profile " ++ p.name ++ " is finalizer_only; durable writes go through " ++
      "approval_finalizer.finalize_approved_candidate(), not write()"))
  else .ok ()

/-- `metadata.pop("infer", False)` has to be a bool. -/
def readInfer (metadata : Dict) : Except PyErr Bool :=
  match Dict.getD metadata "infer" (.bool false) with
  | .bool b => .ok b
  | v => .error (.valueError ("infer must be a bool, got " ++ typeName v))

def checkMemoryType (p : AgentProfile) (memoryType : String) : Except PyErr Unit :=
  if memoryType ∈ p.memoryTypeAllowlist then .ok ()
  else .error (.valueError ("memory_type not allowed for " ++ p.name ++ ": " ++ memoryType))

/-- `_enforce_write_quota`. -/
def enforceWriteQuota (p : AgentProfile) (q : QuotaState) : Except PyErr Unit :=
  if q.writesToday ≥ p.writeQuota.dailyMaxDrawers then
    .error (.quotaExceeded (p.name ++ " daily memory write quota exceeded"))
  else if ((q.writeTimestamps.filter fun ts => q.now - ts < 60).length : Int) ≥ p.writeQuota.burstMaxPerMinute then
    .error (.quotaExceeded (p.name ++ " burst memory write quota exceeded"))
  else .ok ()

/-- The opt-in write allowlist (:325-336). -/
def checkWriteAllowlist (p : AgentProfile) (wing room : String) : Except PyErr Unit :=
  if !p.enforceWriteAllowlist then .ok ()
  else if wing ∉ p.writeWingAllowlist then
    .error (.permissionError ("profile " ++ p.name ++ " write_wing_allowlist denies wing=" ++ wing))
  else if writePath wing room ∉ p.writeRoomAllowlist then
    .error (.permissionError ("profile " ++ p.name ++ " write_room_allowlist denies pair=" ++ writePath wing room))
  else .ok ()

/-- `_retention_metadata(room)`. -/
def retentionMetadata (p : AgentProfile) (clk : WriteClock) (room : String) : Dict :=
  let ttlDays := if room ∈ p.retentionPolicy.ephemeralRooms then some 7 else p.retentionPolicy.defaultTtlDays
  [("retention_ttl_days", match ttlDays with | none => .null | some n => .int n),
   ("retention_expires_at", match ttlDays with | none => .null | some n => .str (clk.inDays n)),
   ("retention_stamped_at", .str clk.isoformat)]

/-- `_bitemporal_metadata()`. -/
def bitemporalMetadata (clk : WriteClock) : Dict :=
  [("valid_from", .str clk.utcnowIso), ("valid_to", .null), ("ingested_at", .str clk.utcnowIso)]

/-- `_resolve_write_tenant_id(requested)`. -/
def resolveWriteTenantId (d : Deployment) (p : AgentProfile) (pr : Principal) (now : Instant) (requested : Json) :
    Except PyErr String := do
  let ids ← tenantIds p pr now
  let writeTenant := if "*" ∈ ids then d.defaultTenantId else ids.headD ""
  if !requested.truthy then .ok writeTenant
  else if pr.isRootWithBreakGlass now then .ok (d.str requested)
  else if d.str requested ≠ writeTenant then
    .error (.permissionError ("principal " ++ pr.id ++ " cannot write tenant " ++ d.str requested))
  else .ok writeTenant

/-- `_deterministic_memory_id(wing, room, content)`. -/
def deterministicMemoryId (wing room content : String) : String :=
  "drawer_" ++ wing ++ "_" ++ room ++ "_" ++
    String.ofList ((Sha256.hexdigest (Sha256.utf8 content)).toList.take 16)

/-! ## The write -/

/-- A row that passed every check but the approval gate. -/
structure PreparedWrite where
  wing : String
  room : String
  content : String
  memoryType : String
  drawerId : String
  tenantId : String
  metadata : Dict

/-- `write`, up to the approval gate. -/
def prepareWrite (d : Deployment) (p : AgentProfile) (pr : Principal) (q : QuotaState) (clk : WriteClock) (c : WriteCall) :
    Except PyErr PreparedWrite := do
  pr.requireScope "memory.write"
  pr.requireActiveBreakGlass clk.now
  checkConversationId d p c.conversationId
  checkFinalizerOnly p
  let content := d.sanitize c.content
  let metadata := Dict.erase c.metadata "raise_dedup_skipped"
  let infer ← readInfer metadata
  let metadata := Dict.erase metadata "infer"
  checkMemoryType p c.memoryType
  enforceWriteQuota p q
  let wing := effectiveWing d p c
  let metadata := Dict.erase metadata "wing"
  let room := effectiveRoom p c
  checkWriteAllowlist p wing room
  let tenantId ← resolveWriteTenantId d p pr clk.now (Dict.get metadata "tenant_id")
  let payload := Dict.merge (Dict.merge (Dict.merge metadata (retentionMetadata p clk room)) (bitemporalMetadata clk))
    [("tenant_id", .str tenantId),
     ("subject_id", (Dict.get metadata "subject_id").orElse (.str pr.subjectId)),
     ("actor_id", (Dict.get metadata "actor_id").orElse (.str pr.actorId)),
     ("principal_id", (Dict.get metadata "principal_id").orElse (.str pr.id)),
     ("author_agent_id", Dict.get metadata "author_agent_id"),
     ("source_bridge", Dict.get metadata "source_bridge"),
     ("session_id", Dict.get metadata "session_id"),
     ("infer", .bool infer),
     ("schema_version", Dict.getD metadata "schema_version" (.str "v2")),
     ("migration_batch_id", Dict.get metadata "migration_batch_id"),
     ("memory_type", .str c.memoryType),
     ("source_system", Dict.getD metadata "source_system" (.str ("memory-client:" ++ p.name))),
     ("agent_profile", .str p.name)]
  .ok
    { wing, room, content, memoryType := c.memoryType, drawerId := deterministicMemoryId wing room content, tenantId,
      metadata := payload }

/-- The caller's metadata without the keyword arguments `write` takes out of it. -/
def callerMetadata (c : WriteCall) : Dict := Dict.erase (Dict.erase (Dict.erase c.metadata "raise_dedup_skipped") "infer") "wing"

/-- `payload_metadata`. -/
def payloadMetadata (p : AgentProfile) (pr : Principal) (clk : WriteClock) (c : WriteCall) (tenantId : String) (infer : Bool) :
    Dict :=
  let metadata := callerMetadata c
  Dict.merge (Dict.merge (Dict.merge metadata (retentionMetadata p clk (effectiveRoom p c))) (bitemporalMetadata clk))
    [("tenant_id", .str tenantId),
     ("subject_id", (Dict.get metadata "subject_id").orElse (.str pr.subjectId)),
     ("actor_id", (Dict.get metadata "actor_id").orElse (.str pr.actorId)),
     ("principal_id", (Dict.get metadata "principal_id").orElse (.str pr.id)),
     ("author_agent_id", Dict.get metadata "author_agent_id"),
     ("source_bridge", Dict.get metadata "source_bridge"),
     ("session_id", Dict.get metadata "session_id"),
     ("infer", .bool infer),
     ("schema_version", Dict.getD metadata "schema_version" (.str "v2")),
     ("migration_batch_id", Dict.get metadata "migration_batch_id"),
     ("memory_type", .str c.memoryType),
     ("source_system", Dict.getD metadata "source_system" (.str ("memory-client:" ++ p.name))),
     ("agent_profile", .str p.name)]

/-- **What passed the checks**, as a function of the call. -/
theorem prepareWrite_ok {d : Deployment} {p : AgentProfile} {pr : Principal} {q : QuotaState} {clk : WriteClock}
    {c : WriteCall} {a : PreparedWrite} (h : prepareWrite d p pr q clk c = .ok a) :
    ∃ tenantId infer, resolveWriteTenantId d p pr clk.now (Dict.get (callerMetadata c) "tenant_id") = .ok tenantId ∧
      checkWriteAllowlist p (effectiveWing d p c) (effectiveRoom p c) = .ok () ∧
      readInfer (Dict.erase c.metadata "raise_dedup_skipped") = .ok infer ∧
      a =
        { wing := effectiveWing d p c
          room := effectiveRoom p c
          content := d.sanitize c.content
          memoryType := c.memoryType
          drawerId := deterministicMemoryId (effectiveWing d p c) (effectiveRoom p c) (d.sanitize c.content)
          tenantId
          metadata := payloadMetadata p pr clk c tenantId infer } := by
  unfold prepareWrite at h
  obtain ⟨-, -, h⟩ := bind_ok h
  obtain ⟨-, -, h⟩ := bind_ok h
  obtain ⟨-, -, h⟩ := bind_ok h
  obtain ⟨-, -, h⟩ := bind_ok h
  obtain ⟨infer, hinfer, h⟩ := bind_ok h
  obtain ⟨-, -, h⟩ := bind_ok h
  obtain ⟨-, -, h⟩ := bind_ok h
  obtain ⟨⟨⟩, hallow, h⟩ := bind_ok h
  obtain ⟨tenantId, htenant, h⟩ := bind_ok h
  cases h
  exact ⟨tenantId, infer, htenant, hallow, hinfer, rfl⟩

/-- The candidate `_enqueue_approval` queues. -/
def PreparedWrite.candidate (a : PreparedWrite) (profileName : String) : Dict :=
  [("text", .str a.content), ("suggested_wing", .str a.wing), ("suggested_room", .str a.room),
   ("memory_type", .str a.memoryType), ("metadata", .obj a.metadata), ("memory_id", .str a.drawerId),
   ("agent_profile", .str profileName)]

inductive WriteOutcome
  /-- The candidate inserted into `approval_queue`. -/
  | queued (candidate : Dict)
  /-- The body POSTed to the store. -/
  | posted (body : MemoryBody)

/-- `MemoryClient.write`, up to the insert or the POST. -/
def write (d : Deployment) (p : AgentProfile) (pr : Principal) (q : QuotaState) (clk : WriteClock) (c : WriteCall) :
    Except PyErr WriteOutcome :=
  match prepareWrite d p pr q clk c with
  | .error e => .error e
  | .ok a =>
    if approvalRequired p a.wing a.room then .ok (.queued (a.candidate p.name))
    else (addMemoryBody d a.wing a.room a.content a.metadata true c.conversationId).map .posted

end Panella

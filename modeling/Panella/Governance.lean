import Panella.Lib.Fallible
import Panella.Lib.Json
import Panella.Lib.Text

/-!
# The deployment: identity, principals, profiles

| here | there |
| --- | --- |
| `PyErr` | the exceptions the modelled code raises, by class and message |
| `Deployment` | `governance.py` (`IdentityConfig`, `ApprovalConfig`) and the interpreter the process runs in |
| `Principal`, `BreakGlassToken` | `principal.py` (:38-145) |
| `AgentProfile` | `profile.py` (:71-124), the fields the modelled functions read |
| `validateIdentityId`, `Principal.postInit` | `_validate_identity_id`, `Principal.__post_init__` (`principal.py` :75-87, :156-163) |
| `principalDefaultForProfile` | `principal_default_for_profile` (`principal.py` :122-136) |

What lies outside the repository, or is a table of regular expressions (`sanitize`), is a function
of the deployment: the results hold whatever it computes.
-/

namespace Panella

open Fallible PyJson

inductive PyErr
  | valueError (message : String)
  | typeError (message : String)
  | attributeError (message : String)
  | keyError (message : String)
  | runtimeError (message : String)
  | overflowError (message : String)
  | indexError (message : String)
  | permissionError (message : String)
  | quotaExceeded (message : String)
  | json (e : JsonError)
deriving DecidableEq, Repr

/-- `except (ValueError, TypeError)`. -/
def PyErr.isValueOrType : PyErr → Bool
  | .valueError _ | .typeError _ | .json .value | .json .digits => true
  | _ => false

/-! ## Profiles -/

structure WriteDefaults where
  wing : String
  room : String

structure WriteQuota where
  dailyMaxDrawers : Int
  burstMaxPerMinute : Int

structure RetentionPolicy where
  defaultTtlDays : Option Int
  ephemeralRooms : List String

structure AgentProfile where
  name : String
  writeDefault : WriteDefaults
  writeQuota : WriteQuota
  memoryTypeAllowlist : List String
  retentionPolicy : RetentionPolicy
  approvalRequiredFor : List String
  readAllowlist : List String
  deny : List String
  tenantScope : List String
  writeWingAllowlist : List String
  writeRoomAllowlist : List String
  enforceWriteAllowlist : Bool
  finalizerOnly : Bool

/-! ## The deployment -/

/-- What the process is configured with. -/
structure Deployment where
  /-- `identity.default_tenant_id`. -/
  defaultTenantId : String
  /-- `identity.default_subject_id`. -/
  defaultSubjectId : String
  /-- `identity.root_principal.id`. -/
  rootPrincipalId : String
  /-- `identity.owner_wing`, `owner_slug`, `content_owner_label`. -/
  ownerWing : String
  ownerSlug : String
  contentOwnerLabel : String
  /-- `approval.authorized_approvers`. -/
  authorizedApprovers : List String
  /-- `approval.transport.kind`. -/
  transportKind : String
  /-- `sanitize.sanitize`. -/
  sanitize : String → String
  /-- `repr(v)`, which is also `str(v)` of a value that is not a string. -/
  repr : Json → String
  /-- `a == b` of two hashable values that are not strings. -/
  scalarEq : Json → Json → Bool
  /-- `int(v)`. -/
  intOf : Json → Except PyErr Int
  /-- `str(exc)` of what `json.loads` and `json.dumps` raise. -/
  jsonErrorText : JsonError → String
  /-- `AgentProfile.load(FINALIZER_PROFILE)`. -/
  finalizerProfile : AgentProfile
  limits : Limits

/-- `str(v)`. -/
def Deployment.str (d : Deployment) : Json → String
  | .str s => s
  | v => d.repr v

@[simp] theorem Deployment.str_str (d : Deployment) (s : String) : d.str (.str s) = s := rfl

/-- `str(exc)`. -/
def Deployment.errorText (d : Deployment) : PyErr → String
  | .valueError m | .typeError m | .attributeError m | .runtimeError m | .overflowError m | .indexError m
  | .permissionError m | .quotaExceeded m => m
  | .keyError m => d.repr (.str m)
  | .json e => d.jsonErrorText e

/-- `type(v).__name__`. -/
def typeName : Json → String
  | .null => "NoneType"
  | .bool _ => "bool"
  | .int _ => "int"
  | .float _ => "float"
  | .str _ => "str"
  | .arr _ => "list"
  | .obj _ => "dict"

/-- What a `for` loop runs over. -/
def iterItems : Json → Except PyErr (List Json)
  | .arr xs => .ok xs
  | .str s => .ok (s.toList.map fun c => .str (String.singleton c))
  | .obj kvs => .ok (kvs.map fun kv => .str kv.1)
  | v => .error (.typeError ("'" ++ typeName v ++ "' object is not iterable"))

/-! ## Principals -/

/-- An instant, in microseconds. -/
abbrev Instant := Int

structure BreakGlassToken where
  reason : String
  expiresAt : Instant

def BreakGlassToken.isActive (t : BreakGlassToken) (now : Instant) : Bool := t.expiresAt > now

structure Principal where
  id : String
  tenantId : String
  subjectId : String
  scopes : List String
  rootFlag : Bool
  breakGlassToken : Option BreakGlassToken

namespace Principal

/-- `self.id.split("@", 1)[0]`. -/
def actorId (p : Principal) : String := String.ofList (p.id.toList.takeWhile (· ≠ '@'))

def hasScope (p : Principal) (scope : String) : Bool := p.scopes.contains "*" || p.scopes.contains scope

def requireScope (p : Principal) (scope : String) : Except PyErr Unit :=
  if p.hasScope scope then .ok ()
  else .error (.permissionError ("principal " ++ p.id ++ " lacks required scope: " ++ scope))

def requireActiveBreakGlass (p : Principal) (now : Instant) : Except PyErr Unit :=
  match p.breakGlassToken with
  | none => .ok ()
  | some t => if t.isActive now then .ok () else .error (.permissionError "break-glass token expired")

def isRootWithBreakGlass (p : Principal) (now : Instant) : Bool :=
  p.rootFlag && p.tenantId = "*" &&
    match p.breakGlassToken with
    | none => false
    | some t => t.isActive now

end Principal

/-! ## Tenants -/

def AgentProfile.allowsTenant (p : AgentProfile) (tid : String) : Bool :=
  p.tenantScope.contains "*" || p.tenantScope.contains tid

/-- `MemoryClient._tenant_ids`. -/
def tenantIds (p : AgentProfile) (pr : Principal) (now : Instant) : Except PyErr (List String) :=
  if pr.tenantId = "*" then
    if pr.isRootWithBreakGlass now then .ok ["*"]
    else .error (.permissionError "cross-tenant scope requires an active break-glass token")
  else if p.allowsTenant pr.tenantId then .ok [pr.tenantId]
  else .error (.permissionError ("profile " ++ p.name ++ " does not allow tenant " ++ pr.tenantId))

/-- `TENANT_ID_RE.fullmatch(text)`, but for `*`. -/
def identityShape (text : String) : Bool :=
  text ≠ "" && text.toList.all fun c => ('a' ≤ c && c ≤ 'z') || ('0' ≤ c && c ≤ '9') || c = '_'

/-- `_validate_identity_id`; a `PrincipalValidationError` is a `ValueError`. -/
def validateIdentityId (d : Deployment) (value field : String) (allowWildcard rootFlag : Bool) : Except PyErr Unit :=
  if value = "*" then
    if allowWildcard && rootFlag then .ok ()
    else .error (.valueError (field ++ "='*' is only valid for root principals"))
  else if identityShape value then .ok ()
  else .error (.valueError ("invalid " ++ field ++ ": " ++ d.repr (.str value)))

/-- `Principal.__post_init__`, on the fields a principal has here. -/
def Principal.postInit (d : Deployment) (pr : Principal) : Except PyErr Unit := do
  validateIdentityId d pr.tenantId "tenant_id" true pr.rootFlag
  validateIdentityId d pr.subjectId "subject_id" false false
  if pr.tenantId = "*" && !pr.rootFlag then .error (.valueError "tenant_id='*' is only valid for root principals")
  else if pr.breakGlassToken.isSome && !pr.rootFlag then .error (.valueError "break-glass token requires root_flag=True")
  else .ok ()

/-- `principal_default_for_profile(profile)`. -/
def principalDefaultForProfile (d : Deployment) (p : AgentProfile) : Except PyErr Principal :=
  let tenantId := p.tenantScope.headD d.defaultTenantId
  if tenantId = "*" then .error (.valueError "agent default principal cannot use tenant_id='*'")
  else
    let principal : Principal :=
      { id := "agent:" ++ p.name ++ "@" ++ tenantId, tenantId, subjectId := d.defaultSubjectId,
        scopes := ["memory.read", "memory.write"], rootFlag := false, breakGlassToken := none }
    (principal.postInit d).map fun _ => principal

/-! ## The configured identity -/

/-- `IdentityConfig`; of the root principal only the id is read. -/
structure IdentityConfig where
  rootPrincipalId : String
  defaultTenantId : String
  defaultSubjectId : String
  contentOwnerLabel : String
  ownerSlug : String
  ownerWing : String

/-- `_req_str`. -/
def reqStr (repr : Json → String) (block : Dict) (key dflt sect : String) : Except PyErr String :=
  let value := Dict.getD block key (.str dflt)
  let error : PyErr :=
    .runtimeError ("governance " ++ sect ++ "." ++ key ++ " must be a non-empty string, got " ++ repr value)
  match value with
  | .str s => if PyText.stripSpace s = "" then .error error else .ok (PyText.stripSpace s)
  | _ => .error error

/-- The mapping of a section's key; a missing one is empty. -/
def rootPrincipalBlock (block : Dict) : Except PyErr Dict :=
  match Dict.get block "root_principal" with
  | .null => .ok []
  | .obj kvs => .ok kvs
  | _ => .error (.runtimeError "governance identity.root_principal must be a mapping")

def checkRoles (rp : Dict) : Except PyErr Unit :=
  let error : PyErr := .runtimeError "governance identity.root_principal.roles must be non-empty strings"
  match Dict.getD rp "roles" (.arr [.str "root_operator"]) with
  | .arr roles =>
    if roles.all fun r => match r with | .str s => PyText.stripSpace s ≠ "" | _ => false then .ok () else .error error
  | _ => .error error

/-- `_parse_identity`. -/
def parseIdentity (repr : Json → String) (block : Dict) : Except PyErr IdentityConfig := do
  let rp ← rootPrincipalBlock block
  checkRoles rp
  let rootPrincipalId ← reqStr repr rp "id" "human:owner" "identity.root_principal"
  let _ ← reqStr repr rp "subject_id" "u_owner" "identity.root_principal"
  let defaultTenantId ← reqStr repr block "default_tenant_id" "t_owner_personal" "identity"
  let defaultSubjectId ← reqStr repr block "default_subject_id" "u_owner" "identity"
  let _ ← reqStr repr block "tenant_id_prefix" "t_" "identity"
  let contentOwnerLabel ← reqStr repr block "content_owner_label" "Owner" "identity"
  let ownerSlug ← reqStr repr block "owner_slug" "owner" "identity"
  let ownerWing ← reqStr repr block "owner_wing" "owner" "identity"
  .ok { rootPrincipalId, defaultTenantId, defaultSubjectId, contentOwnerLabel, ownerSlug, ownerWing }

/-- The identity of the deployment was loaded from some config. -/
def Deployment.Configured (d : Deployment) : Prop :=
  ∃ block, parseIdentity d.repr block =
    .ok ⟨d.rootPrincipalId, d.defaultTenantId, d.defaultSubjectId, d.contentOwnerLabel, d.ownerSlug, d.ownerWing⟩

/-- What a required text is. -/
def Required (s : String) : Prop := PyText.stripSpace s = s ∧ s ≠ ""

theorem reqStr_ok {repr : Json → String} {block : Dict} {key dflt sect s : String}
    (h : reqStr repr block key dflt sect = .ok s) : Required s := by
  unfold reqStr at h
  simp only at h
  split at h
  · rename_i t _
    split at h
    · cases h
    · rename_i hne
      cases h
      exact ⟨PyText.stripSpace_stripSpace t, hne⟩
  · cases h

/-- **The texts of an accepted identity are stripped and not empty.** -/
theorem parseIdentity_required {repr : Json → String} {block : Dict} {identity : IdentityConfig}
    (h : parseIdentity repr block = .ok identity) :
    Required identity.defaultTenantId ∧ Required identity.ownerSlug ∧ Required identity.ownerWing := by
  obtain ⟨rp, -, h⟩ := bind_ok h
  obtain ⟨-, -, h⟩ := bind_ok h
  obtain ⟨root, -, h⟩ := bind_ok h
  obtain ⟨-, -, h⟩ := bind_ok h
  obtain ⟨tenant, htenant, h⟩ := bind_ok h
  obtain ⟨subject, -, h⟩ := bind_ok h
  obtain ⟨-, -, h⟩ := bind_ok h
  obtain ⟨label, -, h⟩ := bind_ok h
  obtain ⟨slug, hslug, h⟩ := bind_ok h
  obtain ⟨wing, hwing, h⟩ := bind_ok h
  cases h
  exact ⟨reqStr_ok htenant, reqStr_ok hslug, reqStr_ok hwing⟩

theorem Deployment.Configured.required {d : Deployment} (h : d.Configured) :
    Required d.defaultTenantId ∧ Required d.ownerSlug ∧ Required d.ownerWing := by
  obtain ⟨block, h⟩ := h
  have hrequired := parseIdentity_required h
  exact hrequired

/-! ## A small deployment -/

/-- The finalizer's profile. -/
def finalizerProfile : AgentProfile where
  name := "panella-finalizer"
  writeDefault := ⟨"owner", "feedback"⟩
  writeQuota := ⟨0, 0⟩
  memoryTypeAllowlist := ["owner_feedback", "owner_preference"]
  retentionPolicy := ⟨none, []⟩
  approvalRequiredFor := []
  readAllowlist := []
  deny := []
  tenantScope := ["t_default"]
  writeWingAllowlist := ["owner"]
  writeRoomAllowlist := ["owner/feedback", "owner/preferences"]
  enforceWriteAllowlist := true
  finalizerOnly := true

def sampleDeployment : Deployment where
  defaultTenantId := "t_default"
  defaultSubjectId := "owner"
  rootPrincipalId := "root"
  ownerWing := "owner"
  ownerSlug := "owner"
  contentOwnerLabel := "Owner"
  authorizedApprovers := ["telegram:1", "telegram:2"]
  transportKind := "telegram"
  sanitize := id
  repr := fun _ => ""
  scalarEq := fun _ _ => false
  intOf := fun _ => .error (.typeError "")
  jsonErrorText := fun _ => ""
  finalizerProfile := finalizerProfile
  limits := ⟨1000, 4300⟩

/-- Its identity comes from a config. -/
theorem sampleDeployment_configured : sampleDeployment.Configured :=
  ⟨[("default_tenant_id", .str "t_default"), ("default_subject_id", .str "owner"), ("root_principal", .obj [("id", .str "root")])], rfl⟩

end Panella

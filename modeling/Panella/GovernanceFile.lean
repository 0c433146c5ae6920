import Panella.Governance

/-!
# The governance file (`panella/governance.py`)

| here | there |
| --- | --- |
| `deepMerge` | `_deep_merge` (:225-234) |
| `sectionOf`, `parseApproval`, `parsePaths` | `_section` (:134-140), `_parse_approval` (:175-210), `_parse_paths` (:213-222) |
| `loadGovernance` | `load_governance` (:261-301), from the mappings its two files hold |

A section that is there and malformed is an error at once. What a required text may be is `Required`: it is not blank, and
nothing else is asked of it.
-/

namespace Panella

open Fallible PyJson

/-! ## The overlay -/

mutual
/-- `_deep_merge`. -/
def deepMerge : Dict → List (String × Json) → Dict
  | base, [] => base
  | base, (k, v) :: overlay => deepMerge (Dict.set base k (mergeValue (Dict.get base k) v)) overlay
/-- What stands at a key of the overlay: two mappings are merged, anything else replaces. -/
def mergeValue : Json → Json → Json
  | .obj old, .obj new => .obj (deepMerge old new)
  | _, v => v
end

/-! ## The sections -/

/-- `ApprovalConfig`. -/
structure ApprovalConfig where
  authorizedApprovers : List String
  transportKind : String
  transportConfig : Dict

/-- `PathsConfig`. -/
structure PathsConfig where
  storePath : String
  embeddingsEnv : String
  configDir : Option String

/-- `Governance`, with its sections parsed. -/
structure Governance where
  schemaVersion : Int
  identity : IdentityConfig
  tenantIdPrefix : String
  approval : ApprovalConfig
  paths : PathsConfig

/-- A `GovernanceConfigError`. -/
def governanceError (message : String) : PyErr := .runtimeError message

/-- `_section`. -/
def sectionOf (raw : Dict) (key : String) : Except PyErr Dict :=
  match Dict.get raw key with
  | .null => .ok []
  | .obj kvs => .ok kvs
  | v => .error (governanceError ("governance " ++ key ++ " must be a mapping, got " ++ typeName v))

/-- `KNOWN_TRANSPORT_KINDS`. -/
def knownTransportKinds : List String := ["local_cli", "telegram"]

/-- `_GENERIC_TRANSPORT_CONFIG`. -/
def genericTransportConfig : Dict := [("token_file", .str "~/.panella/approval.token"), ("token_mode", .str "0600")]

/-- The approvers, stripped; each is a text that is not blank. -/
def parseApprovers (v : Json) : Except PyErr (List String) :=
  let error : PyErr := governanceError "governance approval.authorized_approvers must be a list of non-empty strings"
  match v with
  | .null => .ok []
  | .arr xs =>
    xs.mapM fun x =>
      match x with
      | .str s => if PyText.stripSpace s = "" then .error error else .ok (PyText.stripSpace s)
      | _ => .error error
  | _ => .error error

/-- The name of the transport, one of those there are. -/
def parseTransportKind (repr : Json → String) (transport : Dict) : Except PyErr String :=
  let error : PyErr := governanceError "governance approval.transport.kind must be a non-empty string"
  match Dict.getD transport "kind" (.str "local_cli") with
  | .str s =>
    let kind := PyText.stripSpace s
    if kind = "" then .error error
    else if kind ∈ knownTransportKinds then .ok kind
    else
      .error (governanceError ("governance approval.transport.kind " ++ repr (.str kind) ++
        " is not a known transport (known: ['local_cli', 'telegram'])"))
  | _ => .error error

/-- `_parse_approval`. -/
def parseApproval (repr : Json → String) (block : Dict) : Except PyErr ApprovalConfig := do
  let authorizedApprovers ← parseApprovers (Dict.getD block "authorized_approvers" (.arr []))
  let transport ←
    match Dict.get block "transport" with
    | .null => .ok []
    | .obj kvs => .ok kvs
    | _ => .error (governanceError "governance approval.transport must be a mapping")
  let transportKind ← parseTransportKind repr transport
  let transportConfig ←
    match Dict.getD transport "config" (.obj (if transportKind = "local_cli" then genericTransportConfig else [])) with
    | .null => .ok []
    | .obj kvs => .ok kvs
    | _ => .error (governanceError "governance approval.transport.config must be a mapping")
  .ok { authorizedApprovers, transportKind, transportConfig }

/-- `_parse_paths`. -/
def parsePaths (repr : Json → String) (block : Dict) : Except PyErr PathsConfig := do
  let configDir ←
    match Dict.get block "config_dir" with
    | .null => .ok none
    | .str s => .ok (if PyText.stripSpace s = "" then none else some (PyText.stripSpace s))
    | _ => .error (governanceError "governance paths.config_dir must be a string or null")
  let storePath ← reqStr repr block "store_path" "~/.panella/sqlite_vec.db" "paths"
  let embeddingsEnv ← reqStr repr block "embeddings_env" "~/.panella/openai.env" "paths"
  .ok { storePath, embeddingsEnv, configDir }

/-! ## The loader -/

/-- The `schema_version`, an integer that is no bool. -/
def parseSchemaVersion (repr : Json → String) (raw : Dict) : Except PyErr Int :=
  match Dict.getD raw "schema_version" (.int 1) with
  | .int n => .ok n
  | v => .error (governanceError ("schema_version must be an integer, got " ++ repr v))

/-- The `model_router` is a mapping if it is there. -/
def checkModelRouter (raw : Dict) : Except PyErr Unit :=
  match Dict.get raw "model_router" with
  | .null | .obj _ => .ok ()
  | v => .error (governanceError ("model_router must be a mapping, got " ++ typeName v))

/-- The base with the overlay, if there is one. -/
def mergedConfig (base : Dict) (overlay : Option Dict) : Dict :=
  match overlay with
  | none => base
  | some overlay => deepMerge base overlay

/-- `load_governance` of a merged config. -/
def parseGovernance (repr : Json → String) (raw : Dict) : Except PyErr Governance := do
  let schemaVersion ← parseSchemaVersion repr raw
  checkModelRouter raw
  let identityBlock ← sectionOf raw "identity"
  let identity ← parseIdentity repr identityBlock
  let tenantIdPrefix ← reqStr repr identityBlock "tenant_id_prefix" "t_" "identity"
  let approvalBlock ← sectionOf raw "approval"
  let approval ← parseApproval repr approvalBlock
  let pathsBlock ← sectionOf raw "paths"
  let paths ← parsePaths repr pathsBlock
  .ok { schemaVersion, identity, tenantIdPrefix, approval, paths }

/-- `load_governance`, from the mappings in the base file and in the overlay, if there is one. -/
def loadGovernance (repr : Json → String) (base : Dict) (overlay : Option Dict) : Except PyErr Governance :=
  parseGovernance repr (mergedConfig base overlay)

/-- A process with a governance and a finalizer's profile in force. -/
def Deployment.under (d : Deployment) (g : Governance) (finalizerProfile : AgentProfile) : Deployment :=
  { d with
    defaultTenantId := g.identity.defaultTenantId
    defaultSubjectId := g.identity.defaultSubjectId
    rootPrincipalId := g.identity.rootPrincipalId
    ownerWing := g.identity.ownerWing
    ownerSlug := g.identity.ownerSlug
    contentOwnerLabel := g.identity.contentOwnerLabel
    authorizedApprovers := g.approval.authorizedApprovers
    transportKind := g.approval.transportKind
    finalizerProfile }

theorem loadGovernance_required {repr : Json → String} {base : Dict} {overlay : Option Dict} {g : Governance}
    (h : loadGovernance repr base overlay = .ok g) :
    Required g.identity.defaultTenantId ∧ Required g.identity.ownerSlug ∧ Required g.identity.ownerWing := by
  obtain ⟨version, -, h⟩ := bind_ok h
  obtain ⟨-, -, h⟩ := bind_ok h
  obtain ⟨block, -, h⟩ := bind_ok h
  obtain ⟨identity, hidentity, h⟩ := bind_ok h
  obtain ⟨start, -, h⟩ := bind_ok h
  obtain ⟨approvalBlock, -, h⟩ := bind_ok h
  obtain ⟨approval, -, h⟩ := bind_ok h
  obtain ⟨pathsBlock, -, h⟩ := bind_ok h
  obtain ⟨paths, -, h⟩ := bind_ok h
  cases h
  exact parseIdentity_required hidentity

end Panella

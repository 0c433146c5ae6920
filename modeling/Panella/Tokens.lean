import Panella.Lib.Keyed
import Panella.Lib.Sha256
import Panella.Lib.UtcTime
import Panella.Governance

/-!
# Bearer tokens

| here | there |
| --- | --- |
| `TokenRow`, `TokenDb` | `SCHEMA_SQL`, `TokenRecord` (`http/tokens.py` :38-69) |
| `MintArgs.row`, `MintArgs.expiry` | what `TokenStore.mint` inserts (`http/tokens.py` :75-106) |
| `TokenRow.touch`, `revoke`, `rotate` | the `UPDATE`s of `resolve`, `revoke`, `rotate` (`http/tokens.py` :108-178) |
| `principalFromRecord` | `principal_from_record` (`http/tokens.py` :201-248) |
| `bearerToken`, `checkRecord`, `resolveBearer` | `resolve_bearer` (`http/auth.py` :43-66) |

A time of a row is the datetime its text is the `isoformat` of, and a scope is the list its JSON text holds. What a digest is of
cannot be read off it; rows are found by the digest of the text that a request presents.
-/

namespace Panella

open UtcTime

/-! ## Identity -/

inductive ActorKind
  | agent
  | human
  | system
deriving DecidableEq, Repr

/-- A principal, with what only the opening of a break-glass reads of it. -/
structure AuthPrincipal extends Principal where
  actorKind : ActorKind
  roles : List String

/-- What a process that resolves tokens is configured with. -/
structure AuthConfig where
  deployment : Deployment
  /-- `identity.root_principal.subject_id` and `roles`. -/
  rootSubjectId : String
  rootRoles : List String
  /-- `PANELLA_ALLOW_BARE_ROOT_ALIAS`. -/
  bareAliasEnabled : Bool
  /-- `AgentProfile.load`. -/
  loadProfile : String → Except PyErr AgentProfile
  /-- The governance strips the id. -/
  rootStripped : PyText.stripSpace deployment.rootPrincipalId = deployment.rootPrincipalId
  /-- `AgentProfile.validate` refuses an empty `tenant_scope`. -/
  tenants : ∀ {name p}, loadProfile name = .ok p → p.tenantScope ≠ []

namespace AuthConfig

variable (cfg : AuthConfig)

/-- `root_principal().id`. -/
def rootId : String := cfg.deployment.rootPrincipalId

/-- `_bare_root_alias`: what follows the first colon, or the whole id. -/
def bareRootAlias : String :=
  if ':' ∈ cfg.rootId.toList then String.ofList (cfg.rootId.toList.dropWhile (· ≠ ':')).tail else cfg.rootId

/-- `normalize_principal_id`. -/
def normalizePrincipalId (value : String) : String :=
  let text := PyText.stripSpace value
  if text = cfg.bareRootAlias ∧ cfg.bareAliasEnabled then cfg.rootId else text

end AuthConfig

/-- `id.startswith("agent:")`. -/
def isAgentId (principalId : String) : Bool := "agent:".toList.isPrefixOf principalId.toList

namespace AuthConfig

variable (cfg : AuthConfig)

/-- `default_tenant_scope_for_principal`. -/
def defaultTenantScope (principalId : String) : List String :=
  let normalized := cfg.normalizePrincipalId principalId
  if normalized = cfg.rootId then [cfg.deployment.defaultTenantId]
  else if isAgentId normalized ∧ '@' ∈ normalized.toList then
    -- `rsplit("@", 1)[1]`
    [String.ofList (normalized.toList.reverse.takeWhile (· ≠ '@')).reverse]
  else
    match cfg.loadProfile normalized with
    | .ok p => p.tenantScope
    | .error _ => [cfg.deployment.defaultTenantId]

theorem normalizePrincipalId_root : cfg.normalizePrincipalId cfg.rootId = cfg.rootId := by
  unfold normalizePrincipalId
  rw [show PyText.stripSpace cfg.rootId = cfg.rootId from cfg.rootStripped]
  exact ite_self _

theorem normalizePrincipalId_again (value : String) :
    cfg.normalizePrincipalId (cfg.normalizePrincipalId value) = cfg.normalizePrincipalId value := by
  by_cases hbare : PyText.stripSpace value = cfg.bareRootAlias ∧ cfg.bareAliasEnabled = true
  · have hvalue : cfg.normalizePrincipalId value = cfg.rootId := if_pos hbare
    rw [hvalue, normalizePrincipalId_root]
  · have hvalue : cfg.normalizePrincipalId value = PyText.stripSpace value := if_neg hbare
    rw [hvalue, normalizePrincipalId]
    simp only [PyText.stripSpace_stripSpace]
    exact if_neg hbare

end AuthConfig

/-! ## The table -/

/-- A row of `tokens`. -/
structure TokenRow where
  tokenSha256 : String
  principalId : String
  tenantScope : List String
  createdAt : DateTime
  rotatedAt : Option DateTime
  revokedAt : Option DateTime
  expiresAt : Option DateTime
  lastUsedAt : Option DateTime
  label : String

/-- `token_sha256` is the primary key, `label` is `UNIQUE`. -/
abbrev TokenDb := Keyed TokenRow.tokenSha256 TokenRow.label

/-- `token_sha256(raw_token)`. -/
def tokenSha256 (rawToken : String) : String := Sha256.hexdigest (Sha256.utf8 rawToken)

/-- What `mint` is called with; the token is the one it draws or is given. -/
structure MintArgs where
  principalId : String
  label : String
  tenantScope : Option (List String)
  ttlSeconds : Option Int
  rawToken : String

/-- `tuple(tenant_scope or default_tenant_scope_for_principal(principal_id))`. -/
def MintArgs.scope (cfg : AuthConfig) (m : MintArgs) : List String :=
  match m.tenantScope with
  | some (t :: ts) => t :: ts
  | _ => cfg.defaultTenantScope m.principalId

def overflow : PyErr := .overflowError "date value out of range"

/-- `now + timedelta(seconds=ttl_seconds) if ttl_seconds is not None else None`. -/
def MintArgs.expiry (m : MintArgs) (now : DateTime) : Except PyErr (Option DateTime) :=
  match m.ttlSeconds with
  | none => .ok none
  | some ttl =>
    match now.addSeconds ttl with
    | none => .error overflow
    | some t => .ok (some t)

/-- The row that `mint` inserts. -/
def MintArgs.row (cfg : AuthConfig) (m : MintArgs) (now : DateTime) (expiresAt : Option DateTime) : TokenRow where
  tokenSha256 := Panella.tokenSha256 m.rawToken
  principalId := cfg.normalizePrincipalId m.principalId
  tenantScope := m.scope cfg
  createdAt := now
  rotatedAt := none
  revokedAt := none
  expiresAt := expiresAt
  lastUsedAt := none
  label := m.label

namespace TokenRow

/-- `SET last_used_at = ?`. -/
def touch (now : DateTime) (row : TokenRow) : TokenRow := { row with lastUsedAt := some now }

/-- `SET revoked_at = CASE WHEN revoked_at IS NULL OR revoked_at > ? THEN ? ELSE revoked_at END`, on the texts. -/
def revoke (now : DateTime) (row : TokenRow) : TokenRow :=
  { row with
    revokedAt :=
      match row.revokedAt with
      | none => some now
      | some t => if now.isoformat < t.isoformat then some now else some t }

/-- `SET rotated_at = ?, revoked_at = ?`. -/
def rotate (now revokeAt : DateTime) (row : TokenRow) : TokenRow :=
  { row with rotatedAt := some now, revokedAt := some revokeAt }

end TokenRow

/-- `UPDATE tokens SET last_used_at = ? WHERE token_sha256 = ?`. -/
def TokenDb.touch (db : TokenDb) (digest : String) (now : DateTime) : TokenDb :=
  db.update (fun row => row.tokenSha256 = digest) (TokenRow.touch now) (fun _ => rfl) (fun _ => rfl)

/-- The `UPDATE` of `revoke`. -/
def TokenDb.revoke (db : TokenDb) (label : String) (now : DateTime) : TokenDb :=
  db.update (fun row => row.label = label) (TokenRow.revoke now) (fun _ => rfl) (fun _ => rfl)

/-- The `UPDATE` of `rotate`. -/
def TokenDb.rotate (db : TokenDb) (label : String) (now revokeAt : DateTime) : TokenDb :=
  db.update (fun row => row.label = label) (TokenRow.rotate now revokeAt) (fun _ => rfl) (fun _ => rfl)

/-- The `SELECT` of `rotate`. -/
def TokenDb.rotatable (db : TokenDb) (label : String) : Option TokenRow :=
  db.rows.find? fun row => row.label = label ∧ row.revokedAt.isNone

/-! ## The principal of a token -/

/-- `_principal_from_agent_id`. -/
def principalFromAgentId (cfg : AuthConfig) (principalId tenantId : String) : AuthPrincipal where
  id := principalId
  tenantId := tenantId
  subjectId := cfg.deployment.defaultSubjectId
  actorKind := .agent
  scopes := ["memory.read", "memory.write"]
  roles := ["agent_default"]
  rootFlag := false
  breakGlassToken := none

/-- What the root operator's token resolves to. -/
def rootOfRecord (cfg : AuthConfig) (tenantId : String) : AuthPrincipal where
  id := cfg.rootId
  tenantId := if tenantId = "*" then cfg.deployment.defaultTenantId else tenantId
  subjectId := cfg.rootSubjectId
  actorKind := .human
  scopes := ["*"]
  roles := cfg.rootRoles
  rootFlag := true
  breakGlassToken := none

/-- `Principal(…)`, which raises where `__post_init__` does. -/
def AuthConfig.build (cfg : AuthConfig) (pr : AuthPrincipal) : Except PyErr AuthPrincipal :=
  (pr.toPrincipal.postInit cfg.deployment).map fun _ => pr

/-- `principal_from_record`. -/
def principalFromRecord (cfg : AuthConfig) (record : TokenRow) : Except PyErr AuthPrincipal :=
  let principalId := cfg.normalizePrincipalId record.principalId
  let tenantId := record.tenantScope.headD cfg.deployment.defaultTenantId
  if principalId = cfg.rootId then cfg.build (rootOfRecord cfg tenantId)
  else if isAgentId principalId then cfg.build (principalFromAgentId cfg principalId tenantId)
  else do
    let profile ← cfg.loadProfile principalId
    let principal ← principalDefaultForProfile cfg.deployment profile
    .ok { principal with actorKind := .agent, roles := ["agent_default"] }

/-! ## Resolving a bearer -/

structure ApiError where
  code : String
  message : String
  status : Nat
deriving DecidableEq, Repr

/-- The header's parse. -/
def bearerToken (authHeader : String) : Except ApiError String :=
  if authHeader = "" then .error ⟨"missing_token", "missing bearer token", 401⟩
  else if ¬ "Bearer ".toList.isPrefixOf authHeader.toList ∨
      ((authHeader.toList.splitOnP PyText.isSpace).filter (· ≠ [])).length ≠ 2 then
    .error ⟨"malformed_token", "malformed bearer token", 401⟩
  else
    let rawToken := PyText.stripSpace (String.ofList (authHeader.toList.dropWhile (· ≠ ' ')).tail)
    if rawToken = "" then .error ⟨"malformed_token", "malformed bearer token", 401⟩ else .ok rawToken

/-- The checks of a record; `expired` reads the clock again. -/
def checkRecord (record : TokenRow) (now expiredNow : DateTime) : Except ApiError TokenRow :=
  if record.revokedAt.any (· ≤ now) then .error ⟨"revoked_token", "token has been revoked", 403⟩
  else if record.expiresAt.any (· ≤ expiredNow) then .error ⟨"expired_token", "token has expired", 403⟩
  else .ok record

/-- `TokenStore.resolve`, without the `UPDATE` of `last_used_at`. -/
def TokenDb.resolve (db : TokenDb) (rawToken : String) : Option TokenRow :=
  db.rows.find? fun row => row.tokenSha256 = Panella.tokenSha256 rawToken

/-- `resolve_bearer`; it changes no column but `last_used_at`. -/
def resolveBearer (db : TokenDb) (authHeader : String) (now expiredNow : DateTime) : Except ApiError TokenRow :=
  match bearerToken authHeader with
  | .error e => .error e
  | .ok rawToken =>
    match db.resolve rawToken with
    | none => .error ⟨"malformed_token", "unknown bearer token", 401⟩
    | some record => checkRecord record now expiredNow

/-! ### Facts -/

theorem ok_of_toOption {ε α : Type} {x : Except ε α} {a : α} (h : x.toOption = some a) : x = .ok a := by
  cases x with
  | error e => cases h
  | ok b =>
    cases h
    rfl

theorem TokenDb.resolve_of_mem {db : TokenDb} {row : TokenRow} (hrow : row ∈ db) {rawToken : String}
    (h : Panella.tokenSha256 rawToken = row.tokenSha256) : db.resolve rawToken = some row := by
  unfold TokenDb.resolve
  rw [h]
  exact Keyed.find_key hrow

theorem TokenDb.resolve_some {db : TokenDb} {row : TokenRow} {rawToken : String} (h : db.resolve rawToken = some row) :
    row ∈ db ∧ row.tokenSha256 = Panella.tokenSha256 rawToken :=
  ⟨List.mem_of_find?_eq_some h, by simpa using List.find?_some h⟩

theorem checkRecord_ok {row record : TokenRow} {now expiredNow : DateTime} (h : checkRecord row now expiredNow = .ok record) :
    record = row ∧ row.revokedAt.any (· ≤ now) = false ∧ row.expiresAt.any (· ≤ expiredNow) = false := by
  unfold checkRecord at h
  by_cases hrevoked : row.revokedAt.any (· ≤ now) = true
  · rw [if_pos hrevoked] at h
    cases h
  · by_cases hexpired : row.expiresAt.any (· ≤ expiredNow) = true
    · rw [if_neg hrevoked, if_pos hexpired] at h
      cases h
    · rw [if_neg hrevoked, if_neg hexpired] at h
      cases h
      exact ⟨rfl, Bool.eq_false_iff.2 hrevoked, Bool.eq_false_iff.2 hexpired⟩

/-- **A bearer stands for a row**, and passes where the row does. -/
theorem resolveBearer_ok {db : TokenDb} {authHeader : String} {now expiredNow : DateTime} {record : TokenRow}
    (h : resolveBearer db authHeader now expiredNow = .ok record) :
    ∃ rawToken, bearerToken authHeader = .ok rawToken ∧ record ∈ db ∧ record.tokenSha256 = Panella.tokenSha256 rawToken ∧
      record.revokedAt.any (· ≤ now) = false ∧ record.expiresAt.any (· ≤ expiredNow) = false := by
  unfold resolveBearer at h
  cases htoken : bearerToken authHeader with
  | error e =>
    rw [htoken] at h
    cases h
  | ok rawToken =>
    simp only [htoken] at h
    cases hresolve : db.resolve rawToken with
    | none =>
      rw [hresolve] at h
      cases h
    | some row =>
      simp only [hresolve] at h
      obtain ⟨rfl, hrevoked, hexpired⟩ := checkRecord_ok h
      obtain ⟨hmem, hdigest⟩ := TokenDb.resolve_some hresolve
      exact ⟨rawToken, rfl, hmem, hdigest, hrevoked, hexpired⟩

/-- The `UPDATE` of `revoke` writes a time that is not later than its own reading of the clock. -/
theorem TokenRow.revoke_le (row : TokenRow) (now : DateTime) : ∃ t ≤ now, (row.revoke now).revokedAt = some t := by
  cases hrow : row.revokedAt with
  | none => exact ⟨now, le_refl now, by simp [TokenRow.revoke, hrow]⟩
  | some t =>
    by_cases hlt : now.isoformat < t.isoformat
    · exact ⟨now, le_refl now, by simp [TokenRow.revoke, hrow, hlt]⟩
    · have hle : t ≤ now := by
        rw [isoformat_lt_iff] at hlt
        exact DateTime.le_iff.2 (Nat.not_lt.1 hlt)
      exact ⟨t, hle, by simp [TokenRow.revoke, hrow, hlt]⟩

/-- It leaves a time that is not later than that alone. -/
theorem TokenRow.revoke_of_le {row : TokenRow} {t now : DateTime} (h : row.revokedAt = some t) (hle : t ≤ now) :
    (row.revoke now).revokedAt = some t := by
  have hlt : ¬ now.isoformat < t.isoformat := by
    rw [isoformat_lt_iff]
    exact Nat.not_lt.2 (DateTime.le_iff.1 hle)
  simp [TokenRow.revoke, h, hlt]

/-! ## A small token store -/

def sampleAuth : AuthConfig where
  deployment := sampleDeployment
  rootSubjectId := "owner"
  rootRoles := ["root_operator"]
  bareAliasEnabled := true
  loadProfile name := if name = "notes" then .ok finalizerProfile else .error (.valueError "no profile")
  rootStripped := by decide
  tenants := by
    intro name p h
    split at h
    · cases h
      decide
    · cases h

/-- A day in 2024. -/
def noon : DateTime := ⟨63839232000000000, by decide⟩

/-- A token of the root operator. -/
def sampleMint : MintArgs := ⟨"root", "laptop", none, none, "m2_laptop"⟩

def sampleToken : TokenRow := sampleMint.row sampleAuth noon none

def oneToken (row : TokenRow) : TokenDb := ⟨[row], List.nodup_singleton _, List.nodup_singleton _⟩

end Panella

import Mathlib.Logic.Relation
import Panella.Lib.Machine
import Panella.TokenAuthority

/-!
# Break-glass over HTTP

| here | there |
| --- | --- |
| `authenticate` | `AuthMiddleware._authenticate` (`http/auth.py` :123-137) |
| `validateRootCaller` | `_validate_root_caller` (`break_glass.py` :86-94) |
| `breakGlass` | `break_glass`, up to its `yield` (`break_glass.py` :24-72) |
| `openBreakGlass` | `open_break_glass` (`http/routes/principal.py` :20-55), with the bounds of `BreakGlassRequest` |
| `HttpWorld.elevated` | `app.state.elevated_tokens` |

An opening leaves a row in the token database and an entry in the map of the process. Where the entry is there the grant's own
end decides (`authenticate_elevated`); after a restart the row is a token of the root operator like another, and ends when the
row does, a reading of the clock later than the grant. The token of an opening passes for the root operator either way, so it
can open again, and nothing holds the new end to the old one (`grant_outlived`).
-/

namespace Panella

open Fallible UtcTime Machine

/-- A time as the break-glass token keeps it. -/
def instantOf (t : DateTime) : Instant := t.micros

/-- The readings of the clock that a request makes, in their order. -/
structure Readings where
  resolvedAt : DateTime
  expiredAt : DateTime
  elevatedAt : DateTime
  issuedAt : DateTime
  mintedAt : DateTime
  ordered : resolvedAt ≤ expiredAt ∧ expiredAt ≤ elevatedAt ∧ elevatedAt ≤ issuedAt ∧ issuedAt ≤ mintedAt

/-- What an opening leaves: who asked with which token, and the token and the end it got. -/
structure Opening where
  caller : AuthPrincipal
  /-- The digest of the bearer that asked. -/
  opener : String
  /-- The digest of the token that was minted. -/
  digest : String
  expiresAt : DateTime

structure HttpWorld where
  clock : DateTime
  db : TokenDb
  elevated : String → Option AuthPrincipal
  /-- The openings so far; no part of the process. -/
  openings : List Opening

def HttpWorld.initial (clock : DateTime) (db : TokenDb) : HttpWorld := ⟨clock, db, fun _ => none, []⟩

/-! ## Authentication -/

inductive AuthError
  | api (e : ApiError)
  /-- What `principal_from_record` raises. -/
  | py (e : PyErr)

/-- `_authenticate`. -/
def authenticate (cfg : AuthConfig) (w : HttpWorld) (authHeader : String) (r : Readings) :
    Except AuthError (TokenRow × AuthPrincipal) :=
  match resolveBearer w.db authHeader r.resolvedAt r.expiredAt with
  | .error e => .error (.api e)
  | .ok record =>
    match w.elevated record.tokenSha256 with
    | some cached =>
      if cached.isRootWithBreakGlass (instantOf r.elevatedAt) then .ok (record, cached)
      else .error (.api ⟨"expired_token", "token has expired", 403⟩)
    | none =>
      match principalFromRecord cfg record with
      | .error e => .error (.py e)
      | .ok principal => .ok (record, principal)

/-! ## Opening -/

/-- `_validate_root_caller`. -/
def validateRootCaller (cfg : AuthConfig) (principal : AuthPrincipal) : Except PyErr Unit :=
  if principal.id ≠ cfg.rootId ∨ principal.actorKind ≠ .human then
    .error (.permissionError ("break-glass is restricted to " ++ cfg.rootId))
  else if ¬ principal.rootFlag ∨ "root_operator" ∉ principal.roles then
    .error (.permissionError "break-glass requires root_operator role")
  else if ¬ principal.hasScope "*" then .error (.permissionError "break-glass requires '*' scope")
  else .ok ()

/-- What is asked for. -/
structure BreakGlassRequest where
  reason : String
  ttlSeconds : Int
  /-- `request.state.request_id`. -/
  requestId : String
  /-- The token that `mint` draws. -/
  rawToken : String
  /-- What the audit database says to the row of the opening. -/
  auditFault : Option PyErr

/-- `break_glass`, up to its `yield`; with the elevated principal the end of the grant. -/
def breakGlass (cfg : AuthConfig) (caller : AuthPrincipal) (q : BreakGlassRequest) (issuedAt : DateTime) :
    Except PyErr (AuthPrincipal × DateTime) :=
  if PyText.stripSpace q.reason = "" then .error (.valueError "break-glass reason is required")
  else if q.ttlSeconds ≤ 0 then .error (.valueError "ttl_seconds must be positive")
  else do
    validateRootCaller cfg caller
    match issuedAt.addSeconds q.ttlSeconds with
    | none => .error overflow
    | some expiresAt =>
      let elevated ← cfg.build
        { id := cfg.rootId, tenantId := "*", subjectId := caller.subjectId, actorKind := .human, scopes := ["*"],
          roles := cfg.rootRoles, rootFlag := true, breakGlassToken := some ⟨q.reason, instantOf expiresAt⟩ }
      match q.auditFault with
      | some e => .error e
      | none => .ok (elevated, expiresAt)

/-- The token of the opening. -/
def BreakGlassRequest.mint (cfg : AuthConfig) (q : BreakGlassRequest) : MintArgs where
  principalId := cfg.rootId
  label := "break-glass-" ++ q.requestId
  tenantScope := some ["*"]
  ttlSeconds := some q.ttlSeconds
  rawToken := q.rawToken

/-- `open_break_glass`; where it raises, nothing is left behind. -/
def openBreakGlass (cfg : AuthConfig) (w : HttpWorld) (record : TokenRow) (principal : AuthPrincipal) (q : BreakGlassRequest)
    (r : Readings) : HttpWorld :=
  if q.reason = "" ∨ q.ttlSeconds < 1 ∨ 3600 < q.ttlSeconds then w
  else
    match breakGlass cfg principal q r.issuedAt with
    | .error _ => w
    | .ok (elevated, expiresAt) =>
      match (q.mint cfg).expiry r.mintedAt with
      | .error _ => w
      | .ok rowExpiresAt =>
        match w.db.insert ((q.mint cfg).row cfg r.mintedAt rowExpiresAt) with
        | none => w
        | some db =>
          { w with
            db := db
            elevated := Function.update w.elevated (tokenSha256 q.rawToken) (some elevated)
            openings := ⟨principal, record.tokenSha256, tokenSha256 q.rawToken, expiresAt⟩ :: w.openings }

inductive HttpAction
  | tick (t : DateTime)
  | restart
  /-- A request; `none` where it is for another route. -/
  | request (authHeader : String) (r : Readings) (q : Option BreakGlassRequest)

/-- What `resolve` leaves of a bearer. -/
def HttpWorld.touched (w : HttpWorld) (authHeader : String) (r : Readings) : HttpWorld :=
  match bearerToken authHeader with
  | .error _ => w
  | .ok rawToken => { w with db := w.db.touch (tokenSha256 rawToken) r.resolvedAt }

/-- One step; a request reads the clock from where it stands. -/
def httpStep (cfg : AuthConfig) (w : HttpWorld) : HttpAction → HttpWorld
  | .tick t => if w.clock ≤ t then { w with clock := t } else w
  | .restart => { w with elevated := fun _ => none }
  | .request authHeader r q =>
    if w.clock ≤ r.resolvedAt then
      let w' := { w.touched authHeader r with clock := r.mintedAt }
      match authenticate cfg w authHeader r, q with
      | .ok (record, principal), some q => openBreakGlass cfg w' record principal q r
      | _, _ => w'
    else w

variable {cfg : AuthConfig} {w : HttpWorld}

/-! ## The principal of a request -/

/-- A principal with the whole tenant space is a root principal. -/
theorem postInit_wildcard {d : Deployment} {pr : Principal} (hroot : pr.rootFlag = false) (h : pr.postInit d = .ok ()) :
    pr.tenantId ≠ "*" := by
  intro hstar
  obtain ⟨⟨⟩, htenant, -⟩ := bind_ok h
  rw [validateIdentityId, if_pos hstar, hroot] at htenant
  cases htenant

/-- **What a row resolves to** is confined to a tenant, and is a human only where the row is the root operator's. -/
theorem principalFromRecord_confined {row : TokenRow} {pr : AuthPrincipal} (hdefault : cfg.deployment.defaultTenantId ≠ "*")
    (h : principalFromRecord cfg row = .ok pr) :
    pr.tenantId ≠ "*" ∧ (pr.actorKind = .human → cfg.normalizePrincipalId row.principalId = cfg.rootId) := by
  unfold principalFromRecord at h
  dsimp only at h
  by_cases hroot : cfg.normalizePrincipalId row.principalId = cfg.rootId
  · rw [if_pos hroot] at h
    obtain ⟨rfl, -⟩ := build_ok h
    refine ⟨?_, fun _ => hroot⟩
    by_cases hstar : row.tenantScope.headD cfg.deployment.defaultTenantId = "*"
    · rw [show (rootOfRecord cfg _).tenantId = _ from if_pos hstar]
      exact hdefault
    · rw [show (rootOfRecord cfg _).tenantId = _ from if_neg hstar]
      exact hstar
  · rw [if_neg hroot] at h
    by_cases hagent : isAgentId (cfg.normalizePrincipalId row.principalId) = true
    · rw [if_pos hagent] at h
      obtain ⟨rfl, hpost⟩ := build_ok h
      exact ⟨postInit_wildcard rfl hpost, nofun⟩
    · rw [if_neg hagent] at h
      obtain ⟨profile, -, h⟩ := bind_ok h
      obtain ⟨principal, hprincipal, h⟩ := bind_ok h
      cases h
      obtain ⟨hflag, -, hpost⟩ := principalDefault_ok hprincipal
      exact ⟨postInit_wildcard hflag hpost, nofun⟩

theorem validateRootCaller_ok {principal : AuthPrincipal} (h : validateRootCaller cfg principal = .ok ()) :
    principal.id = cfg.rootId ∧ principal.actorKind = .human ∧ principal.rootFlag = true ∧
      "root_operator" ∈ principal.roles ∧ principal.hasScope "*" = true := by
  unfold validateRootCaller at h
  by_cases h1 : principal.id ≠ cfg.rootId ∨ principal.actorKind ≠ .human
  · rw [if_pos h1] at h
    cases h
  · by_cases h2 : ¬ principal.rootFlag ∨ "root_operator" ∉ principal.roles
    · rw [if_neg h1, if_pos h2] at h
      cases h
    · by_cases h3 : ¬ principal.hasScope "*"
      · rw [if_neg h1, if_neg h2, if_pos h3] at h
        cases h
      · push Not at h1 h2 h3
        exact ⟨h1.1, h1.2, h2.1, h2.2, h3⟩

/-- **What stands behind an accepted request**: a row, and either an entry whose grant runs or the row's own principal. -/
theorem authenticate_ok {authHeader : String} {r : Readings} {record : TokenRow} {principal : AuthPrincipal}
    (h : authenticate cfg w authHeader r = .ok (record, principal)) :
    resolveBearer w.db authHeader r.resolvedAt r.expiredAt = .ok record ∧
      (w.elevated record.tokenSha256 = some principal ∧ principal.isRootWithBreakGlass (instantOf r.elevatedAt) = true ∨
        w.elevated record.tokenSha256 = none ∧ principalFromRecord cfg record = .ok principal) := by
  unfold authenticate at h
  cases hresolve : resolveBearer w.db authHeader r.resolvedAt r.expiredAt with
  | error e =>
    rw [hresolve] at h
    cases h
  | ok row =>
    simp only [hresolve] at h
    cases hentry : w.elevated row.tokenSha256 with
    | some cached =>
      simp only [hentry] at h
      by_cases hactive : cached.isRootWithBreakGlass (instantOf r.elevatedAt) = true
      · rw [if_pos hactive] at h
        cases h
        exact ⟨rfl, .inl ⟨hentry, hactive⟩⟩
      · rw [if_neg hactive] at h
        cases h
    | none =>
      simp only [hentry] at h
      cases hprincipal : principalFromRecord cfg row with
      | error e =>
        rw [hprincipal] at h
        cases h
      | ok pr =>
        rw [hprincipal] at h
        cases h
        exact ⟨rfl, .inr ⟨hentry, hprincipal⟩⟩

/-! ## What an opening does -/

theorem breakGlass_ok {caller elevated : AuthPrincipal} {q : BreakGlassRequest} {issuedAt expiresAt : DateTime}
    (h : breakGlass cfg caller q issuedAt = .ok (elevated, expiresAt)) :
    validateRootCaller cfg caller = .ok () ∧ issuedAt.addSeconds q.ttlSeconds = some expiresAt ∧
      elevated.breakGlassToken = some ⟨q.reason, instantOf expiresAt⟩ := by
  unfold breakGlass at h
  split at h
  · cases h
  · split at h
    · cases h
    · obtain ⟨⟨⟩, hcaller, h⟩ := bind_ok h
      cases hexpiry : issuedAt.addSeconds q.ttlSeconds with
      | none =>
        rw [hexpiry] at h
        cases h
      | some e =>
        rw [hexpiry] at h
        obtain ⟨pr, hbuild, h⟩ := bind_ok h
        obtain ⟨rfl, -⟩ := build_ok hbuild
        cases hfault : q.auditFault with
        | some fault =>
          rw [hfault] at h
          cases h
        | none =>
          rw [hfault] at h
          cases h
          exact ⟨hcaller, rfl, rfl⟩

variable (cfg) in
/-- **An opening changes nothing, or** adds the row of a root token, an entry for it and itself. -/
theorem openBreakGlass_cases (w : HttpWorld) (record : TokenRow) (principal : AuthPrincipal) (q : BreakGlassRequest)
    (r : Readings) :
    openBreakGlass cfg w record principal q r = w ∨
    ∃ elevated expiresAt rowExpiresAt db, breakGlass cfg principal q r.issuedAt = .ok (elevated, expiresAt) ∧
      w.db.insert ((q.mint cfg).row cfg r.mintedAt rowExpiresAt) = some db ∧
      openBreakGlass cfg w record principal q r =
        { w with
          db := db
          elevated := Function.update w.elevated (tokenSha256 q.rawToken) (some elevated)
          openings := ⟨principal, record.tokenSha256, tokenSha256 q.rawToken, expiresAt⟩ :: w.openings } := by
  unfold openBreakGlass
  by_cases hbounds : q.reason = "" ∨ q.ttlSeconds < 1 ∨ 3600 < q.ttlSeconds
  · exact .inl (if_pos hbounds)
  · rw [if_neg hbounds]
    cases hopen : breakGlass cfg principal q r.issuedAt with
    | error e => exact .inl rfl
    | ok opened =>
      cases hexpiry : (q.mint cfg).expiry r.mintedAt with
      | error e => exact .inl rfl
      | ok rowExpiresAt =>
        cases hinsert : w.db.insert ((q.mint cfg).row cfg r.mintedAt rowExpiresAt) with
        | none =>
          left
          simp only [hinsert]
        | some db =>
          right
          refine ⟨opened.1, opened.2, rowExpiresAt, db, rfl, hinsert, ?_⟩
          simp only [hinsert]

theorem TokenDb.touch_row {db : TokenDb} {row : TokenRow} (hrow : row ∈ db) (digest : String) (now : DateTime) :
    ∃ row' ∈ db.touch digest now, SameToken row row' := by
  unfold TokenDb.touch
  by_cases hdigest : row.tokenSha256 = digest
  · exact ⟨row.touch now, Keyed.mem_update.2 ⟨row, hrow, by simp [hdigest]⟩, ⟨rfl, rfl, rfl, rfl, rfl⟩⟩
  · exact ⟨row, Keyed.mem_update.2 ⟨row, hrow, by simp [hdigest]⟩, .refl row⟩

theorem touched_row (w : HttpWorld) (authHeader : String) (r : Readings) {row : TokenRow} (hrow : row ∈ w.db) :
    ∃ row' ∈ (w.touched authHeader r).db, SameToken row row' := by
  unfold HttpWorld.touched
  cases bearerToken authHeader with
  | error e => exact ⟨row, hrow, .refl row⟩
  | ok rawToken => exact TokenDb.touch_row hrow (tokenSha256 rawToken) r.resolvedAt

theorem touched_same (w : HttpWorld) (authHeader : String) (r : Readings) :
    (w.touched authHeader r).elevated = w.elevated ∧ (w.touched authHeader r).openings = w.openings := by
  unfold HttpWorld.touched
  cases bearerToken authHeader <;> exact ⟨rfl, rfl⟩

/-! ## Runs -/

/-- `digest'` was got from `digest` by openings, each asked for with the token of the one before. -/
def HttpWorld.Derived (w : HttpWorld) : String → String → Prop :=
  Relation.ReflTransGen fun digest digest' => ∃ o ∈ w.openings, o.opener = digest ∧ o.digest = digest'

/-- The bearer of the digest is the root operator's. -/
def HttpWorld.RootToken (cfg : AuthConfig) (w : HttpWorld) (digest : String) : Prop :=
  ∃ row ∈ w.db, row.tokenSha256 = digest ∧ cfg.normalizePrincipalId row.principalId = cfg.rootId

/-- No opening reaches further than what the one who asked for it had. -/
structure GrantsBounded (cfg : AuthConfig) (w : HttpWorld) : Prop where
  /-- Only the root operator opens. -/
  openers : ∀ o ∈ w.openings, o.caller.id = cfg.rootId ∧ o.caller.actorKind = .human ∧ o.caller.rootFlag = true ∧
    "root_operator" ∈ o.caller.roles ∧ w.RootToken cfg o.opener
  ends : ∀ o ∈ w.openings, ∀ o' ∈ w.openings, w.Derived o.digest o'.digest → o'.expiresAt ≤ o.expiresAt

/-- What a request passes for. -/
structure RequestBounded (cfg : AuthConfig) (w : HttpWorld) (authHeader : String) (r : Readings) : Prop where
  /-- The whole tenant space is only for the token of an opening that runs. -/
  elevated : ∀ record principal, authenticate cfg w authHeader r = .ok (record, principal) → principal.tenantId = "*" →
    ∃ o ∈ w.openings, o.digest = record.tokenSha256 ∧ r.elevatedAt < o.expiresAt
  /-- What was got with the token of an opening passes no longer than that. -/
  lapsed : ∀ record principal, authenticate cfg w authHeader r = .ok (record, principal) →
    ∀ o ∈ w.openings, w.Derived o.digest record.tokenSha256 → r.resolvedAt < o.expiresAt

/-- The request, where its bearer is the token of an opening, asks for no later end than that opening's, and where the process has
lost the entry it does not come between that end and the row's. -/
def GrantSafe (w : HttpWorld) : HttpAction → Prop
  | .request authHeader r q =>
    ∀ record, resolveBearer w.db authHeader r.resolvedAt r.expiredAt = .ok record →
      ∀ p ∈ w.openings, p.digest = record.tokenSha256 →
        (w.elevated record.tokenSha256 = none → r.resolvedAt < p.expiresAt) ∧
        ∀ asked, q = some asked → ∀ e, r.issuedAt.addSeconds asked.ttlSeconds = some e → e ≤ p.expiresAt
  | _ => True

/-- What every step of such a run keeps. -/
structure GrantInv (cfg : AuthConfig) (w : HttpWorld) : Prop where
  digests : (w.openings.map Opening.digest).Nodup
  tokens : ∀ o ∈ w.openings, w.RootToken cfg o.digest
  openers : ∀ o ∈ w.openings, o.caller.id = cfg.rootId ∧ o.caller.actorKind = .human ∧ o.caller.rootFlag = true ∧
    "root_operator" ∈ o.caller.roles ∧ w.RootToken cfg o.opener
  entries : ∀ digest pr, w.elevated digest = some pr → ∃ o ∈ w.openings, o.digest = digest ∧
    ∀ t, pr.breakGlassToken = some t → t.expiresAt = instantOf o.expiresAt
  bounded : ∀ o ∈ w.openings, ∀ p ∈ w.openings, p.digest = o.opener → o.expiresAt ≤ p.expiresAt

/-- The invariant is kept where rows keep who they are for, and entries at most go. -/
theorem GrantInv.frame {w' : HttpWorld} (hinv : GrantInv cfg w) (hrows : ∀ row ∈ w.db, ∃ row' ∈ w'.db, SameToken row row')
    (hentries : ∀ digest pr, w'.elevated digest = some pr → w.elevated digest = some pr)
    (hopenings : w'.openings = w.openings) : GrantInv cfg w' := by
  have htoken : ∀ digest, w.RootToken cfg digest → w'.RootToken cfg digest := by
    rintro digest ⟨row, hrow, rfl, hroot⟩
    obtain ⟨row', hrow', hsame⟩ := hrows row hrow
    exact ⟨row', hrow', hsame.tokenSha256, by rw [hsame.principalId, hroot]⟩
  constructor
  · rw [hopenings]
    exact hinv.digests
  · intro o ho
    exact htoken _ (hinv.tokens o (hopenings ▸ ho))
  · intro o ho
    obtain ⟨hid, hhuman, hflag, hrole, hopener⟩ := hinv.openers o (hopenings ▸ ho)
    exact ⟨hid, hhuman, hflag, hrole, htoken _ hopener⟩
  · intro digest pr hpr
    rw [hopenings]
    exact hinv.entries digest pr (hentries digest pr hpr)
  · rw [hopenings]
    exact hinv.bounded

/-- The token of an opening is one of the root operator. -/
theorem BreakGlassRequest.mint_row_root (q : BreakGlassRequest) (cfg : AuthConfig) (now : DateTime)
    (expiresAt : Option DateTime) :
    cfg.normalizePrincipalId ((q.mint cfg).row cfg now expiresAt).principalId = cfg.rootId := by
  simp only [MintArgs.row, BreakGlassRequest.mint, cfg.normalizePrincipalId_root]

/-- **An opening keeps the invariant** where it ends no later than the one that its bearer is from. -/
theorem GrantInv.opened (hinv : GrantInv cfg w) {caller elevated : AuthPrincipal} {opener : String} {q : BreakGlassRequest}
    {issuedAt mintedAt expiresAt : DateTime} {rowExpiresAt : Option DateTime} {db : TokenDb}
    (hopen : breakGlass cfg caller q issuedAt = .ok (elevated, expiresAt)) (hopener : w.RootToken cfg opener)
    (hinsert : w.db.insert ((q.mint cfg).row cfg mintedAt rowExpiresAt) = some db)
    (hbound : ∀ p ∈ w.openings, p.digest = opener → expiresAt ≤ p.expiresAt) :
    GrantInv cfg
      { w with
        db := db
        elevated := Function.update w.elevated (tokenSha256 q.rawToken) (some elevated)
        openings := ⟨caller, opener, tokenSha256 q.rawToken, expiresAt⟩ :: w.openings } := by
  obtain ⟨hcaller, -, hgrant⟩ := breakGlass_ok hopen
  obtain ⟨hid, hhuman, hflag, hrole, -⟩ := validateRootCaller_ok hcaller
  have hold : ∀ digest, w.RootToken cfg digest → ∃ row ∈ db, row.tokenSha256 = digest ∧
      cfg.normalizePrincipalId row.principalId = cfg.rootId := by
    rintro digest ⟨row, hrow, hdigest⟩
    exact ⟨row, (Keyed.mem_insert hinsert row).2 (.inl hrow), hdigest⟩
  -- the new digest is none that a row had
  have hfresh : ∀ digest, w.RootToken cfg digest → digest ≠ tokenSha256 q.rawToken := by
    rintro digest ⟨row, hrow, rfl, -⟩
    exact (Keyed.fresh_of_insert hinsert hrow).1
  constructor
  · rw [List.map_cons, List.nodup_cons]
    refine ⟨?_, hinv.digests⟩
    intro hmem
    obtain ⟨o, ho, hdigest⟩ := List.mem_map.1 hmem
    exact hfresh _ (hinv.tokens o ho) hdigest
  · intro o ho
    rcases List.mem_cons.1 ho with rfl | ho
    · exact ⟨_, (Keyed.mem_insert hinsert _).2 (.inr rfl), rfl, q.mint_row_root cfg mintedAt rowExpiresAt⟩
    · exact hold _ (hinv.tokens o ho)
  · intro o ho
    rcases List.mem_cons.1 ho with rfl | ho
    · exact ⟨hid, hhuman, hflag, hrole, hold _ hopener⟩
    · obtain ⟨hid', hhuman', hflag', hrole', hopener'⟩ := hinv.openers o ho
      exact ⟨hid', hhuman', hflag', hrole', hold _ hopener'⟩
  · intro digest pr hpr
    dsimp only at hpr
    by_cases hnew : digest = tokenSha256 q.rawToken
    · subst hnew
      rw [Function.update_self] at hpr
      cases hpr
      refine ⟨_, List.mem_cons_self, rfl, ?_⟩
      intro t ht
      rw [hgrant] at ht
      cases ht
      rfl
    · rw [Function.update_of_ne hnew] at hpr
      obtain ⟨o, ho, hdigest, hend⟩ := hinv.entries digest pr hpr
      exact ⟨o, List.mem_cons_of_mem _ ho, hdigest, hend⟩
  · intro o ho p hp hparent
    rcases List.mem_cons.1 ho with rfl | ho <;> rcases List.mem_cons.1 hp with rfl | hp
    · exact absurd hparent.symm (hfresh _ hopener)
    · exact hbound p hp hparent
    · exact absurd hparent.symm (hfresh _ (hinv.openers o ho).2.2.2.2)
    · exact hinv.bounded o ho p hp hparent

/-- A human who is let in with a token holds one of the root operator. -/
theorem GrantInv.rootToken (hinv : GrantInv cfg w) (hdefault : cfg.deployment.defaultTenantId ≠ "*") {authHeader : String}
    {r : Readings} {record : TokenRow} {principal : AuthPrincipal}
    (h : authenticate cfg w authHeader r = .ok (record, principal)) (hhuman : principal.actorKind = .human) :
    w.RootToken cfg record.tokenSha256 := by
  obtain ⟨hresolve, ⟨hentry, -⟩ | ⟨-, hprincipal⟩⟩ := authenticate_ok h
  · obtain ⟨o, ho, hdigest, -⟩ := hinv.entries _ _ hentry
    exact hdigest ▸ hinv.tokens o ho
  · obtain ⟨-, -, hrecord, -⟩ := resolveBearer_ok hresolve
    exact ⟨record, hrecord, rfl, (principalFromRecord_confined hdefault hprincipal).2 hhuman⟩

/-- **One step keeps every grant within its bounds.** -/
theorem grantInv_step (hdefault : cfg.deployment.defaultTenantId ≠ "*") (w : HttpWorld) (a : HttpAction)
    (hinv : GrantInv cfg w) (hsafe : GrantSafe w a) : GrantInv cfg (httpStep cfg w a) := by
  cases a with
  | tick t =>
    simp only [httpStep]
    split
    · exact hinv.frame (fun row hrow => ⟨row, hrow, .refl row⟩) (fun _ _ h => h) rfl
    · exact hinv
  | restart => exact hinv.frame (fun row hrow => ⟨row, hrow, .refl row⟩) (fun _ _ h => nomatch h) rfl
  | request authHeader r q =>
    simp only [httpStep]
    by_cases hclock : w.clock ≤ r.resolvedAt
    · rw [if_pos hclock]
      obtain ⟨hsameElevated, hsameOpenings⟩ := touched_same w authHeader r
      have htouched : GrantInv cfg { w.touched authHeader r with clock := r.mintedAt } :=
        hinv.frame (fun row hrow => touched_row w authHeader r hrow) (fun digest pr h => hsameElevated ▸ h) hsameOpenings
      cases hauth : authenticate cfg w authHeader r with
      | error e => exact htouched
      | ok accepted =>
        cases q with
        | none => exact htouched
        | some q =>
          obtain ⟨record, principal⟩ := accepted
          rcases openBreakGlass_cases cfg { w.touched authHeader r with clock := r.mintedAt } record principal q r
            with hsame | ⟨elevated, expiresAt, rowExpiresAt, db, hopen, hinsert, heq⟩
          · simp only [hsame]
            exact htouched
          · simp only [heq]
            obtain ⟨hcaller, hexpiry, -⟩ := breakGlass_ok hopen
            apply htouched.opened hopen _ hinsert
            · intro p hp hdigest
              rw [hsameOpenings] at hp
              exact (hsafe record (authenticate_ok hauth).1 p hp hdigest).2 q rfl expiresAt hexpiry
            · obtain ⟨row, hrow, hdigest, hroot⟩ := hinv.rootToken hdefault hauth (validateRootCaller_ok hcaller).2.1
              obtain ⟨row', hrow', hsame⟩ := touched_row w authHeader r hrow
              exact ⟨row', hrow', hsame.tokenSha256.trans hdigest, by rw [hsame.principalId, hroot]⟩
    · rw [if_neg hclock]
      exact hinv

theorem grantInv_initial (clock : DateTime) (db : TokenDb) : GrantInv cfg (.initial clock db) := by
  constructor
  · exact List.nodup_nil
  · intro o ho
    cases ho
  · intro o ho
    cases ho
  · intro digest pr h
    cases h
  · intro o ho
    cases ho

/-- Along a chain of openings the ends do not move away. -/
theorem GrantInv.derived (hinv : GrantInv cfg w) {digest digest' : String} (h : w.Derived digest digest') :
    ∀ o ∈ w.openings, o.digest = digest → ∃ o' ∈ w.openings, o'.digest = digest' ∧ o'.expiresAt ≤ o.expiresAt := by
  intro o ho hdigest
  induction h with
  | refl => exact ⟨o, ho, hdigest, le_refl _⟩
  | tail _ hstep ih =>
    obtain ⟨o', ho', hdigest', hle⟩ := ih
    obtain ⟨next, hnext, hopener, rfl⟩ := hstep
    exact ⟨next, hnext, rfl, (hinv.bounded next hnext o' ho' (hdigest'.trans hopener.symm)).trans hle⟩

theorem GrantInv.grantsBounded (hinv : GrantInv cfg w) : GrantsBounded cfg w := by
  refine ⟨hinv.openers, fun o ho o' ho' hderived => ?_⟩
  obtain ⟨o'', ho'', hdigest, hle⟩ := hinv.derived hderived o ho rfl
  obtain rfl := List.inj_on_of_nodup_map hinv.digests ho'' ho' hdigest
  exact hle

theorem lt_of_entry {principal : AuthPrincipal} {o : Opening} {t : DateTime}
    (hend : ∀ t, principal.breakGlassToken = some t → t.expiresAt = instantOf o.expiresAt)
    (h : principal.isRootWithBreakGlass (instantOf t) = true) : t < o.expiresAt := by
  unfold Principal.isRootWithBreakGlass at h
  cases hgrant : principal.breakGlassToken with
  | none => simp [hgrant] at h
  | some grant =>
    simp only [hgrant, Bool.and_eq_true, BreakGlassToken.isActive, decide_eq_true_eq, hend grant hgrant, instantOf] at h
    rw [DateTime.lt_iff]
    exact Int.ofNat_lt.1 h.2

/-- **A request passes for what its token is.** -/
theorem GrantInv.requestBounded (hinv : GrantInv cfg w) (hdefault : cfg.deployment.defaultTenantId ≠ "*") {authHeader : String}
    {r : Readings} {q : Option BreakGlassRequest} (hsafe : GrantSafe w (.request authHeader r q)) :
    RequestBounded cfg w authHeader r := by
  constructor
  · intro record principal hauth hstar
    obtain ⟨-, ⟨hentry, hactive⟩ | ⟨-, hprincipal⟩⟩ := authenticate_ok hauth
    · obtain ⟨o, ho, hdigest, hend⟩ := hinv.entries _ _ hentry
      exact ⟨o, ho, hdigest, lt_of_entry hend hactive⟩
    · exact absurd hstar (principalFromRecord_confined hdefault hprincipal).1
  · intro record principal hauth o ho hderived
    obtain ⟨p, hp, hdigest, hle⟩ := hinv.derived hderived o ho rfl
    apply lt_of_lt_of_le _ hle
    obtain ⟨hresolve, ⟨hentry, hactive⟩ | ⟨hentry, -⟩⟩ := authenticate_ok hauth
    · obtain ⟨p', hp', hdigest', hend⟩ := hinv.entries _ _ hentry
      obtain rfl := List.inj_on_of_nodup_map hinv.digests hp' hp (hdigest'.trans hdigest.symm)
      exact lt_of_le_of_lt (r.ordered.1.trans r.ordered.2.1) (lt_of_entry hend hactive)
    · exact (hsafe record hresolve p hp hdigest).1 hentry

/-- A request whose readings all fall on one instant. -/
def Readings.at (t : DateTime) : Readings := ⟨t, t, t, t, t, le_refl t, le_refl t, le_refl t, le_refl t⟩

def askFor (ttlSeconds : Int) (rawToken : String) : BreakGlassRequest := ⟨"incident", ttlSeconds, rawToken, rawToken, none⟩

/-- The root operator opens for a minute. -/
def openRun : List HttpAction := [.request "Bearer m2_laptop" (.at noon) (some (askFor 60 "m2_minute"))]

/-- And asks again, with the token of that, for an hour. -/
def reopenRun : List HttpAction := openRun ++ [.request "Bearer m2_minute" (.at noon) (some (askFor 3600 "m2_hour"))]

/-- Two minutes after noon. -/
def soon : DateTime := ⟨63839232120000000, by decide⟩

theorem openRun_safe : Along (httpStep sampleAuth) GrantSafe (.initial noon (oneToken sampleToken)) openRun :=
  ⟨fun _ _ _ hp => (nomatch hp), trivial⟩

end Panella

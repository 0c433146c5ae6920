import Mathlib.Logic.Relation
import Panella.TenantWrite
import Panella.TokenCalls

/-!
# The authority of a token

A principal is rebuilt from a row by one of three branches. The root operator and an agent take their tenant from the row's
scope; a profile takes it from its own file, and the scope that the token was minted with is not read
(`principalFromRecord_tenant`). `rotate` hands the row's principal and scope on, so its token is for the same principal
(`principalFromRecord_rotated`), but not the row's `expires_at`: the new token has none (`authority_gained`). In a run without
these two, no token has more authority than it was minted with (`authority_kept`).
-/

namespace Panella

open Fallible UtcTime Machine

variable {cfg : AuthConfig} {s : TokenWorld}

/-! ## Principals and scopes -/

theorem build_ok {pr pr' : AuthPrincipal} (h : cfg.build pr = .ok pr') :
    pr' = pr ∧ pr.toPrincipal.postInit cfg.deployment = .ok () := by
  unfold AuthConfig.build at h
  cases hpost : pr.toPrincipal.postInit cfg.deployment with
  | error e =>
    rw [hpost] at h
    cases h
  | ok u =>
    rw [hpost] at h
    cases h
    exact ⟨rfl, rfl⟩

theorem headD_mem {scope : List String} (h : scope ≠ []) (dflt : String) : scope.headD dflt ∈ scope := by
  cases scope with
  | nil => exact absurd rfl h
  | cons t ts => exact List.mem_cons_self

/-- The profile's own tenant lies in the scope, unless the token is not for a profile, or for one that has no principal. -/
def ScopeFits (cfg : AuthConfig) (principalId : String) (scope : List String) : Prop :=
  principalId = cfg.rootId ∨ isAgentId principalId ∨
    ∀ profile, cfg.loadProfile principalId = .ok profile → (principalDefaultForProfile cfg.deployment profile).isOk →
      profile.tenantScope.headD cfg.deployment.defaultTenantId ∈ scope ∨ "*" ∈ scope

/-- **The tenant of a token's principal** lies in its scope where the scope fits. -/
theorem principalFromRecord_tenant {row : TokenRow} {pr : AuthPrincipal} (hscope : row.tenantScope ≠ [])
    (hfits : ScopeFits cfg (cfg.normalizePrincipalId row.principalId) row.tenantScope)
    (h : principalFromRecord cfg row = .ok pr) : pr.tenantId ∈ row.tenantScope ∨ "*" ∈ row.tenantScope := by
  have hhead := headD_mem hscope cfg.deployment.defaultTenantId
  unfold principalFromRecord at h
  dsimp only at h
  by_cases hroot : cfg.normalizePrincipalId row.principalId = cfg.rootId
  · rw [if_pos hroot] at h
    obtain ⟨rfl, -⟩ := build_ok h
    by_cases hstar : row.tenantScope.headD cfg.deployment.defaultTenantId = "*"
    · exact .inr (hstar ▸ hhead)
    · left
      rw [show (rootOfRecord cfg _).tenantId = _ from if_neg hstar]
      exact hhead
  · rw [if_neg hroot] at h
    by_cases hagent : isAgentId (cfg.normalizePrincipalId row.principalId) = true
    · rw [if_pos hagent] at h
      obtain ⟨rfl, -⟩ := build_ok h
      exact .inl hhead
    · rw [if_neg hagent] at h
      obtain ⟨profile, hprofile, h⟩ := bind_ok h
      obtain ⟨principal, hprincipal, h⟩ := bind_ok h
      cases h
      rcases hfits with hroot' | hagent' | hfits
      · exact absurd hroot' hroot
      · exact absurd hagent' hagent
      · show principal.tenantId ∈ row.tenantScope ∨ _
        rw [(principalDefault_ok hprincipal).2.1]
        exact hfits profile hprofile (by rw [hprincipal]; rfl)

/-- A scope left out fits: it is the profile's own. -/
theorem scopeFits_default (principalId : String) :
    ScopeFits cfg (cfg.normalizePrincipalId principalId) (cfg.defaultTenantScope principalId) := by
  by_cases hroot : cfg.normalizePrincipalId principalId = cfg.rootId
  · exact .inl hroot
  · by_cases hagent : isAgentId (cfg.normalizePrincipalId principalId) = true
    · exact .inr (.inl hagent)
    · refine .inr (.inr fun profile hprofile _ => .inl ?_)
      have hscope : cfg.defaultTenantScope principalId = profile.tenantScope := by
        simp [AuthConfig.defaultTenantScope, hroot, hagent, hprofile]
      rw [hscope]
      exact headD_mem (cfg.tenants hprofile) _

theorem defaultTenantScope_ne (principalId : String) : cfg.defaultTenantScope principalId ≠ [] := by
  unfold AuthConfig.defaultTenantScope
  dsimp only
  split
  · exact List.cons_ne_nil _ _
  · split
    · exact List.cons_ne_nil _ _
    · cases hload : cfg.loadProfile (cfg.normalizePrincipalId principalId) with
      | ok profile => exact cfg.tenants hload
      | error e => exact List.cons_ne_nil _ _

/-- No token is minted without a scope. -/
theorem MintArgs.scope_ne (m : MintArgs) : m.scope cfg ≠ [] := by
  unfold MintArgs.scope
  split
  · exact List.cons_ne_nil _ _
  · exact defaultTenantScope_ne m.principalId

/-- What `principal_from_record` reads of a row. -/
theorem principalFromRecord_congr {row row' : TokenRow}
    (hid : cfg.normalizePrincipalId row'.principalId = cfg.normalizePrincipalId row.principalId)
    (hscope : row'.tenantScope = row.tenantScope) : principalFromRecord cfg row' = principalFromRecord cfg row := by
  unfold principalFromRecord
  rw [hid, hscope]

/-! ## Runs -/

/-- `rotate(label)` has returned a token with the label `label'`. -/
def TokenWorld.RotatedTo (s : TokenWorld) (label label' : String) : Prop :=
  ∃ i m, s.calls i = .minted m (some label) ∧ m.label = label'

/-- No token has more authority than it was minted with. -/
structure Authority (cfg : AuthConfig) (s : TokenWorld) : Prop where
  /-- The tenant that a token's principal has is one of its scope. -/
  tenant : ∀ row ∈ s.db, ∀ pr, principalFromRecord cfg row = .ok pr →
    pr.tenantId ∈ row.tenantScope ∨ "*" ∈ row.tenantScope
  /-- A token got by rotations is for the same principal, and is not accepted once the first one has expired. -/
  rotated : ∀ o ∈ s.db, ∀ r ∈ s.db, Relation.ReflTransGen s.RotatedTo o.label r.label →
    principalFromRecord cfg r = principalFromRecord cfg o ∧
    ∀ e, o.expiresAt = some e → ∀ authHeader now expiredNow record, s.clock ≤ now → now ≤ expiredNow → e ≤ expiredNow →
      resolveBearer s.db authHeader now expiredNow = .ok record → record.label ≠ r.label

/-- The step is no `INSERT` that gives a profile's token a scope without the profile's tenant, and none by which `rotate`
replaces a token that has an `expires_at`. -/
def AuthoritySafe (cfg : AuthConfig) (s : TokenWorld) : TokenAction → Prop
  | .advance i =>
    match s.calls i with
    | .inserting m _ _ none => ScopeFits cfg (cfg.normalizePrincipalId m.principalId) (m.scope cfg)
    | .inserting _ _ _ (some label) => ∀ row ∈ s.db, row.label = label → row.expiresAt = none
    | _ => True
  | _ => True

/-- The row that a `rotate` has read, or hands on. -/
def TokenCall.reads : TokenCall → Option (String × String × List String)
  | .selected label _ _ row | .rotatingAt label _ row _ _ => some (label, row.principalId, row.tenantScope)
  | .minting m (some label) | .inserting m _ _ (some label) | .minted m (some label) =>
    some (label, m.principalId, m.tenantScope.getD [])
  | _ => none

/-- What every step of such a run keeps. -/
structure AuthorityInv (cfg : AuthConfig) (s : TokenWorld) : Prop where
  scopes : ∀ row ∈ s.db, row.tenantScope ≠ [] ∧ ScopeFits cfg (cfg.normalizePrincipalId row.principalId) row.tenantScope
  reads : ∀ i label principalId scope, (s.calls i).reads = some (label, principalId, scope) →
    ∃ row ∈ s.db, row.label = label ∧ row.principalId = principalId ∧ row.tenantScope = scope
  rotated : ∀ i m label, s.calls i = .minted m (some label) → ∃ o ∈ s.db, ∃ r ∈ s.db, o.label = label ∧ r.label = m.label ∧
    o.expiresAt = none ∧ principalFromRecord cfg r = principalFromRecord cfg o

theorem MintArgs.scope_of_given {m : MintArgs} (h : m.tenantScope.getD [] ≠ []) : m.scope cfg = m.tenantScope.getD [] := by
  unfold MintArgs.scope
  cases hscope : m.tenantScope with
  | none =>
    rw [hscope] at h
    exact absurd rfl h
  | some scope =>
    rw [hscope] at h
    cases scope with
    | nil => exact absurd rfl h
    | cons t ts => rfl

/-- What a call has read it read before the step, or the step is the `SELECT`. -/
theorem reads_advance {clock : DateTime} {db : TokenDb} {c : TokenCall} {x : String × String × List String}
    (h : (advanceToken cfg clock db c).2.reads = some x) :
    c.reads = some x ∨ ∃ row ∈ db, x = (row.label, row.principalId, row.tenantScope) := by
  cases c with
  | rotating label graceSeconds rawToken =>
    right
    cases hrow : db.rotatable label with
    | none =>
      simp only [advanceToken, hrow] at h
      cases h
    | some row =>
      simp only [advanceToken, hrow, TokenCall.reads, Option.some.injEq] at h
      have hlabel : row.label = label ∧ row.revokedAt.isNone = true := by simpa using List.find?_some hrow
      exact ⟨row, List.mem_of_find?_eq_some hrow, by rw [← h, hlabel.1]⟩
  | minting m rotated =>
    left
    simp only [advanceToken] at h
    split at h
    · cases h
    · cases rotated <;> exact h
  | inserting m now expiresAt rotated =>
    left
    simp only [advanceToken] at h
    split at h
    · cases h
    · cases rotated <;> exact h
  | selected label graceSeconds rawToken row =>
    left
    simp only [advanceToken] at h
    split at h
    · cases h
    · exact h
  | rotatingAt label rawToken row now revokeAt => exact .inl h
  | minted m rotated => exact .inl h
  | idle => cases h
  | revoking label => cases h
  | revokingAt label now => cases h
  | revoked label found => cases h
  | raised e => cases h

/-- A `mint` that has returned had returned before the step, or the step is its `INSERT`. -/
theorem advance_minted {clock : DateTime} {db : TokenDb} {c : TokenCall} {m : MintArgs} {rotated : Option String}
    (h : (advanceToken cfg clock db c).2 = .minted m rotated) :
    c = .minted m rotated ∨ ∃ now expiresAt db', c = .inserting m now expiresAt rotated ∧
      db.insert (m.row cfg now expiresAt) = some db' := by
  cases c with
  | inserting m' now expiresAt rotated' =>
    right
    cases hinsert : db.insert (m'.row cfg now expiresAt) with
    | none =>
      simp only [advanceToken, hinsert] at h
      cases h
    | some db' =>
      simp only [advanceToken, hinsert, TokenCall.minted.injEq] at h
      obtain ⟨rfl, rfl⟩ := h
      exact ⟨now, expiresAt, db', rfl, hinsert⟩
  | minted m' rotated' => exact .inl h
  | minting m' rotated' =>
    simp only [advanceToken] at h
    split at h <;> cases h
  | rotating label graceSeconds rawToken =>
    simp only [advanceToken] at h
    split at h <;> cases h
  | selected label graceSeconds rawToken row =>
    simp only [advanceToken] at h
    split at h <;> cases h
  | rotatingAt label rawToken row now revokeAt => cases h
  | idle => cases h
  | revoking label => cases h
  | revokingAt label now => cases h
  | revoked label found => cases h
  | raised e => cases h

/-- What `rotate` hands to `mint` is a row's principal and scope. -/
theorem AuthorityInv.handed (hinv : AuthorityInv cfg s) {i : Nat} {m : MintArgs} {now : DateTime}
    {expiresAt : Option DateTime} {label : String} (hc : s.calls i = .inserting m now expiresAt (some label)) :
    ∃ o ∈ s.db, o.label = label ∧ o.principalId = m.principalId ∧ o.tenantScope = m.scope cfg := by
  obtain ⟨o, ho, hlabel, hid, hscope⟩ := hinv.reads i label m.principalId (m.tenantScope.getD []) (by rw [hc]; rfl)
  refine ⟨o, ho, hlabel, hid, ?_⟩
  rw [MintArgs.scope_of_given (hscope ▸ (hinv.scopes o ho).1)]
  exact hscope

/-- **The principal of a rotated token** is that of the token it replaces. -/
theorem principalFromRecord_rotated {o : TokenRow} {m : MintArgs} (now : DateTime) (expiresAt : Option DateTime)
    (hid : o.principalId = m.principalId) (hscope : o.tenantScope = m.scope cfg) :
    principalFromRecord cfg (m.row cfg now expiresAt) = principalFromRecord cfg o := by
  apply principalFromRecord_congr
  · rw [hid]
    exact cfg.normalizePrincipalId_again m.principalId
  · exact hscope.symm

theorem scopes_step {a : TokenAction} (hinv : AuthorityInv cfg s) (hsafe : AuthoritySafe cfg s a) {row : TokenRow}
    (hrow : row ∈ (tokenStep cfg s a).db) :
    row.tenantScope ≠ [] ∧ ScopeFits cfg (cfg.normalizePrincipalId row.principalId) row.tenantScope := by
  rcases step_mem hrow with ⟨old, hold, hsame, -⟩ | ⟨i, m, now, expiresAt, rotated, rfl, hc, rfl⟩
  · rw [hsame.principalId, hsame.tenantScope]
    exact hinv.scopes old hold
  · refine ⟨m.scope_ne, ?_⟩
    show ScopeFits cfg (cfg.normalizePrincipalId (cfg.normalizePrincipalId m.principalId)) (m.scope cfg)
    rw [cfg.normalizePrincipalId_again]
    cases rotated with
    | none =>
      simp only [AuthoritySafe, hc] at hsafe
      exact hsafe
    | some label =>
      obtain ⟨o, ho, -, hid, hscope⟩ := hinv.handed hc
      rw [← hid, ← hscope]
      exact (hinv.scopes o ho).2

theorem reads_step {a : TokenAction} (hinv : AuthorityInv cfg s) {i : Nat} {label principalId : String} {scope : List String}
    (hreads : ((tokenStep cfg s a).calls i).reads = some (label, principalId, scope)) :
    ∃ row ∈ (tokenStep cfg s a).db, row.label = label ∧ row.principalId = principalId ∧ row.tenantScope = scope := by
  have hrow : ∃ row ∈ s.db, row.label = label ∧ row.principalId = principalId ∧ row.tenantScope = scope := by
    rcases step_calls cfg s a i with hsame | ⟨op, -, -, hop⟩ | ⟨-, hraised⟩ | ⟨-, hadv⟩
    · exact hinv.reads i label principalId scope (hsame ▸ hreads)
    · rw [hop] at hreads
      cases op <;> cases hreads
    · rw [hraised] at hreads
      cases hreads
    · rw [hadv] at hreads
      rcases reads_advance hreads with hbefore | ⟨row, hrow, heq⟩
      · exact hinv.reads i label principalId scope hbefore
      · cases heq
        exact ⟨row, hrow, rfl, rfl, rfl⟩
  obtain ⟨row, hrow, rfl, rfl, rfl⟩ := hrow
  obtain ⟨row', hrow', hsame, -⟩ := step_row cfg a hrow
  exact ⟨row', hrow', hsame.label, hsame.principalId, hsame.tenantScope⟩

theorem rotated_step {a : TokenAction} (hinv : AuthorityInv cfg s) (hsafe : AuthoritySafe cfg s a) {i : Nat} {m : MintArgs}
    {label : String} (hi : (tokenStep cfg s a).calls i = .minted m (some label)) :
    ∃ o ∈ (tokenStep cfg s a).db, ∃ r ∈ (tokenStep cfg s a).db, o.label = label ∧ r.label = m.label ∧ o.expiresAt = none ∧
      principalFromRecord cfg r = principalFromRecord cfg o := by
  have hold : s.calls i = .minted m (some label) → ∃ o ∈ (tokenStep cfg s a).db, ∃ r ∈ (tokenStep cfg s a).db,
      o.label = label ∧ r.label = m.label ∧ o.expiresAt = none ∧ principalFromRecord cfg r = principalFromRecord cfg o := by
    intro hbefore
    obtain ⟨o, ho, r, hr, hol, hrl, hexpires, hsame⟩ := hinv.rotated i m label hbefore
    obtain ⟨o', ho', hoo', -⟩ := step_row cfg a ho
    obtain ⟨r', hr', hrr', -⟩ := step_row cfg a hr
    refine ⟨o', ho', r', hr', hoo'.label.trans hol, hrr'.label.trans hrl, hoo'.expiresAt.trans hexpires, ?_⟩
    rw [principalFromRecord_congr (by rw [hrr'.principalId]) hrr'.tenantScope, hsame,
      principalFromRecord_congr (by rw [hoo'.principalId]) hoo'.tenantScope]
  rcases step_calls cfg s a i with hsame | ⟨op, -, -, hop⟩ | ⟨-, hraised⟩ | ⟨rfl, hadv⟩
  · exact hold (hsame ▸ hi)
  · rw [hop] at hi
    cases op <;> cases hi
  · rw [hraised] at hi
    cases hi
  · rcases advance_minted (hadv.symm.trans hi) with hbefore | ⟨now, expiresAt, db', hc, hinsert⟩
    · exact hold hbefore
    · obtain ⟨o, ho, hlabel, hid, hscope⟩ := hinv.handed hc
      simp only [AuthoritySafe, hc] at hsafe
      rw [show (tokenStep cfg s (.advance i)).db = db' by simp [tokenStep, advanceToken, hc, hinsert]]
      exact ⟨o, (Keyed.mem_insert hinsert o).2 (.inl ho), m.row cfg now expiresAt, (Keyed.mem_insert hinsert _).2 (.inr rfl),
        hlabel, rfl, hsafe o ho hlabel, principalFromRecord_rotated now expiresAt hid hscope⟩

/-- **One step keeps the authority of every token.** -/
theorem authorityInv_step (s : TokenWorld) (a : TokenAction) (hinv : AuthorityInv cfg s) (hsafe : AuthoritySafe cfg s a) :
    AuthorityInv cfg (tokenStep cfg s a) where
  scopes _ hrow := scopes_step hinv hsafe hrow
  reads _ _ _ _ hreads := reads_step hinv hreads
  rotated _ _ _ hi := rotated_step hinv hsafe hi

theorem authorityInv_initial (clock : DateTime) : AuthorityInv cfg (.initial clock .empty) := by
  constructor
  · intro row hrow
    exact absurd hrow (Keyed.not_mem_empty row)
  · intro i label principalId scope h
    cases h
  · intro i m label h
    cases h

/-- Along a chain of rotations the principal is one, and only its last token can expire. -/
theorem AuthorityInv.chain (hinv : AuthorityInv cfg s) {label label' : String}
    (h : Relation.ReflTransGen s.RotatedTo label label') :
    label = label' ∨ ∃ o ∈ s.db, ∃ r ∈ s.db, o.label = label ∧ r.label = label' ∧ o.expiresAt = none ∧
      principalFromRecord cfg r = principalFromRecord cfg o := by
  induction h with
  | refl => exact .inl rfl
  | tail _ hstep ih =>
    right
    obtain ⟨i, m, hi, rfl⟩ := hstep
    obtain ⟨o, ho, r, hr, hol, hrl, hexpires, hsame⟩ := hinv.rotated i m _ hi
    rcases ih with rfl | ⟨o', ho', r', hr', hol', hrl', hexpires', hsame'⟩
    · exact ⟨o, ho, r, hr, hol, hrl, hexpires, hsame⟩
    · obtain rfl := Keyed.eq_of_unique hr' ho (hrl'.trans hol.symm)
      exact ⟨o', ho', r, hr, hol', hrl, hexpires', hsame.trans hsame'⟩

theorem AuthorityInv.authority (hinv : AuthorityInv cfg s) : Authority cfg s := by
  constructor
  · intro row hrow pr hpr
    obtain ⟨hscope, hfits⟩ := hinv.scopes row hrow
    exact principalFromRecord_tenant hscope hfits hpr
  · intro o ho r hr hchain
    rcases hinv.chain hchain with heq | ⟨o', ho', r', hr', hol, hrl, hexpires, hsame⟩
    · obtain rfl := Keyed.eq_of_unique ho hr heq
      refine ⟨rfl, fun e he authHeader now expiredNow record _ _ hle hresolve hlabel => ?_⟩
      obtain ⟨-, -, hrecord, -, -, hexpired⟩ := resolveBearer_ok hresolve
      obtain rfl := Keyed.eq_of_unique hrecord ho hlabel
      simp [he, hle] at hexpired
    · obtain rfl := Keyed.eq_of_unique ho' ho hol
      obtain rfl := Keyed.eq_of_unique hr' hr hrl
      refine ⟨hsame, fun e he => ?_⟩
      rw [hexpires] at he
      cases he

/-- **Tokens gain no authority**, in a run that meets the condition. -/
theorem authority_kept (cfg : AuthConfig) (clock : DateTime) (as : List TokenAction)
    (h : Along (tokenStep cfg) (AuthoritySafe cfg) (.initial clock .empty) as) :
    Authority cfg (run (tokenStep cfg) (.initial clock .empty) as) :=
  (run_inv_along authorityInv_step (authorityInv_initial clock) h).authority

/-! ## Two runs -/

/-- A token is minted and rotated. -/
def rotateRun (ttlSeconds : Option Int) : List TokenAction :=
  [.start 0 (.mint { sampleMint with ttlSeconds }), .advance 0, .advance 0, .start 1 (.rotate "laptop" 300 "m2_phone"),
    .advance 1, .advance 1, .advance 1, .advance 1, .advance 1]

/-- A profile's token with a scope of its own. -/
def scopedRun : List TokenAction :=
  [.start 0 (.mint ⟨"notes", "notes", some ["t_other"], none, "m2_notes"⟩), .advance 0, .advance 0]

/-- The token that a returned `rotate` was called for, and the one it returned. -/
def TokenCall.rotation : TokenCall → Option (String × String)
  | .minted m (some label) => some (label, m.label)
  | _ => none

theorem rotatedTo_of_rotation {i : Nat} {label label' : String} (h : (s.calls i).rotation = some (label, label')) :
    s.RotatedTo label label' := by
  cases hc : s.calls i with
  | minted m rotated =>
    rw [hc] at h
    cases rotated with
    | none => cases h
    | some l =>
      cases h
      exact ⟨i, m, hc, rfl⟩
  | _ =>
    rw [hc] at h
    cases h

/-- An hour after noon. -/
def later : DateTime := ⟨63839235600000000, by decide⟩

theorem authority_kept_sample : Authority sampleAuth (run (tokenStep sampleAuth) (.initial noon .empty) (rotateRun none)) := by
  apply authority_kept
  refine ⟨trivial, trivial, .inl rfl, trivial, trivial, trivial, trivial, trivial, ?_, trivial⟩
  have hnone : (run (tokenStep sampleAuth) (.initial noon .empty) ((rotateRun none).take 8)).db.rows.all
      (fun row => row.expiresAt.isNone) = true := by decide +kernel
  intro row hrow _
  exact Option.isNone_iff_eq_none.1 (List.all_eq_true.1 hnone row hrow)

/-- **A rotation loses the expiry, and a profile's principal the scope.** -/
theorem authority_gained :
    ¬ Authority sampleAuth (run (tokenStep sampleAuth) (.initial noon .empty) (rotateRun (some 60))) ∧
    ¬ Authority sampleAuth (run (tokenStep sampleAuth) (.initial noon .empty) scopedRun) := by
  constructor
  · intro h
    -- the token of a minute, the one it was rotated to, and a bearer of that an hour later
    have hfirst : (run (tokenStep sampleAuth) (.initial noon .empty) (rotateRun (some 60))).db.rows.any
        (fun o => o.label = "laptop" ∧ o.expiresAt.any (· ≤ later) = true) = true := by decide +kernel
    have hrotated := rotatedTo_of_rotation (i := 1) (by decide +kernel :
      ((run (tokenStep sampleAuth) (.initial noon .empty) (rotateRun (some 60))).calls 1).rotation =
        some ("laptop", "laptop-" ++ noon.stamp))
    have hbearer : ((resolveBearer (run (tokenStep sampleAuth) (.initial noon .empty) (rotateRun (some 60))).db
        "Bearer m2_phone" later later).toOption.map TokenRow.label) = some ("laptop-" ++ noon.stamp) := by decide +kernel
    obtain ⟨o, ho, hfirst⟩ := List.any_eq_true.1 hfirst
    obtain ⟨hlabel, hexpires⟩ := of_decide_eq_true hfirst
    obtain ⟨e, he, hle⟩ := (Option.any_eq_true _ _).1 hexpires
    obtain ⟨record, hresolve, hrecord⟩ := Option.map_eq_some_iff.1 hbearer
    obtain ⟨-, -, hr, -⟩ := resolveBearer_ok (ok_of_toOption hresolve)
    have hchain : Relation.ReflTransGen (TokenWorld.RotatedTo _) o.label record.label :=
      .single (hlabel ▸ hrecord ▸ hrotated)
    have hclock : (run (tokenStep sampleAuth) (.initial noon .empty) (rotateRun (some 60))).clock ≤ later := by decide +kernel
    exact (h.rotated o ho record hr hchain).2 e he "Bearer m2_phone" later later record hclock (le_refl later)
      (of_decide_eq_true hle) (ok_of_toOption hresolve) rfl
  · intro h
    have hrow : (run (tokenStep sampleAuth) (.initial noon .empty) scopedRun).db.rows.any (fun row =>
        row.tenantScope = ["t_other"] ∧ (principalFromRecord sampleAuth row).toOption.any (·.tenantId = "t_default")) = true := by
      decide +kernel
    obtain ⟨row, hrow, hscoped⟩ := List.any_eq_true.1 hrow
    obtain ⟨hscope, htenant⟩ := of_decide_eq_true hscoped
    obtain ⟨pr, hpr, htenant⟩ := (Option.any_eq_true _ _).1 htenant
    rcases h.tenant row hrow pr (ok_of_toOption hpr) with hmem | hstar
    · rw [of_decide_eq_true htenant, hscope] at hmem
      exact absurd hmem (by decide)
    · rw [hscope] at hstar
      exact absurd hstar (by decide)

end Panella

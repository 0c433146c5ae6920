import Panella.TokenCalls

/-!
# What becomes of a revoked token

`revoke` writes a time that is not later than the clock, and pulls back one that lies in the future; no other statement of it
moves a time that is past. What stays revoked then hangs on `rotate`, whose `SELECT` asks for a row that is not revoked, and
whose `UPDATE` does not: between the two a `revoke` can commit, and the `UPDATE` moves its time to the end of the grace period
(`revoked_token_accepted`). In a run where that does not happen a revocation is final (`revocation_final`).
-/

namespace Panella

open UtcTime Machine

/-- A `revoke(label)` that found its row has committed. -/
def TokenWorld.Revoked (s : TokenWorld) (label : String) : Prop := ∃ i, s.calls i = .revoked label true

/-- From `t` on the row is refused. -/
def TokenRow.Lapsed (row : TokenRow) (t : DateTime) : Prop :=
  (∃ r, row.revokedAt = some r ∧ r ≤ t) ∨ ∃ e, row.expiresAt = some e ∧ e ≤ t

/-- The step is no `UPDATE` of a `rotate` that gives a revoked token, not expired yet, a time in the future, and no `UPDATE` of a
`revoke` whose reading of the clock is older than a past time it finds. -/
def RevocationSafe (s : TokenWorld) : TokenAction → Prop
  | .advance i =>
    match s.calls i with
    | .rotatingAt label _ _ _ revokeAt =>
      s.Revoked label → revokeAt ≤ s.clock ∨ ∀ row ∈ s.db, row.label = label → ∃ e, row.expiresAt = some e ∧ e ≤ s.clock
    | .revokingAt label now => ∀ row ∈ s.db, row.label = label → ∀ r, row.revokedAt = some r → r ≤ s.clock → r ≤ now
    | _ => True
  | _ => True

/-- What every step of such a run keeps. -/
structure RevocationInv (s : TokenWorld) : Prop where
  stamps : ∀ i label now, s.calls i = .revokingAt label now → now ≤ s.clock
  lapsed : ∀ label, s.Revoked label → ∃ row ∈ s.db, row.label = label ∧ row.Lapsed s.clock

theorem TokenRow.Lapsed.mono {row : TokenRow} {t u : DateTime} (h : row.Lapsed t) (htu : t ≤ u) : row.Lapsed u :=
  h.imp (fun ⟨r, hr, hle⟩ => ⟨r, hr, hle.trans htu⟩) (fun ⟨e, he, hle⟩ => ⟨e, he, hle.trans htu⟩)

/-- **No bearer resolves to a row that has lapsed.** -/
theorem not_resolved_of_lapsed {db : TokenDb} {row record : TokenRow} {t now expiredNow : DateTime} {authHeader : String}
    (hrow : row ∈ db) (hlapsed : row.Lapsed t) (hnow : t ≤ now) (hexpired : now ≤ expiredNow)
    (h : resolveBearer db authHeader now expiredNow = .ok record) : record.label ≠ row.label := by
  obtain ⟨-, -, hrecord, -, hrevokedAt, hexpiresAt⟩ := resolveBearer_ok h
  intro hlabel
  obtain rfl := Keyed.eq_of_unique hrecord hrow hlabel
  rcases hlapsed with ⟨r, hr, hle⟩ | ⟨e, he, hle⟩
  · simp [hr, hle.trans hnow] at hrevokedAt
  · simp [he, (hle.trans hnow).trans hexpired] at hexpiresAt

variable {cfg : AuthConfig} {s : TokenWorld}

/-- The call is one of `revoke`. -/
def TokenCall.onRevoke : TokenCall → Bool
  | .revoking _ | .revokingAt .. | .revoked .. => true
  | _ => false

variable (cfg) in
theorem onRevoke_advance (clock : DateTime) (db : TokenDb) (c : TokenCall) :
    (advanceToken cfg clock db c).2.onRevoke = c.onRevoke := by
  cases c <;> simp only [advanceToken] <;> (try split) <;> rfl

/-- Only the `UPDATE` of a `revoke` ends as one. -/
theorem advance_revoked {clock : DateTime} {db : TokenDb} {c : TokenCall} {label : String}
    (h : (advanceToken cfg clock db c).2 = .revoked label true) :
    c = .revoked label true ∨ ∃ now, c = .revokingAt label now ∧ ∃ row ∈ db, row.label = label := by
  have hon := onRevoke_advance cfg clock db c
  rw [h] at hon
  cases c with
  | revokingAt l now =>
    right
    simp only [advanceToken, TokenCall.revoked.injEq, List.any_eq_true, decide_eq_true_eq] at h
    obtain ⟨rfl, row, hrow, hl⟩ := h
    exact ⟨now, rfl, row, hrow, hl⟩
  | revoked l found => exact .inl h
  | revoking l => cases h
  | _ => cases hon

theorem advance_revokingAt {clock : DateTime} {db : TokenDb} {c : TokenCall} {label : String} {now : DateTime}
    (h : (advanceToken cfg clock db c).2 = .revokingAt label now) : now = clock := by
  have hon := onRevoke_advance cfg clock db c
  rw [h] at hon
  cases c with
  | revoking l =>
    simp only [advanceToken, TokenCall.revokingAt.injEq] at h
    exact h.2.symm
  | revokingAt l now => cases h
  | revoked l found => cases h
  | _ => cases hon

theorem op_call_ne_revoked (op : TokenOp) (label : String) (found : Bool) : op.call ≠ .revoked label found := by
  cases op <;> exact nofun

theorem op_call_ne_revokingAt (op : TokenOp) (label : String) (now : DateTime) : op.call ≠ .revokingAt label now := by
  cases op <;> exact nofun

/-- A revocation that has committed was one before the step, or commits in it. -/
theorem revoked_step {a : TokenAction} {label : String} (h : (tokenStep cfg s a).Revoked label) :
    s.Revoked label ∨ ∃ i now, a = .advance i ∧ s.calls i = .revokingAt label now ∧ ∃ row ∈ s.db, row.label = label := by
  obtain ⟨i, hi⟩ := h
  rcases step_calls cfg s a i with hsame | ⟨op, -, -, hop⟩ | ⟨-, hraised⟩ | ⟨rfl, hadv⟩
  · exact .inl ⟨i, hsame ▸ hi⟩
  · exact absurd (hop.symm.trans hi) (op_call_ne_revoked op label true)
  · cases hraised.symm.trans hi
  · rcases advance_revoked (hadv.symm.trans hi) with hbefore | ⟨now, hc, hrow⟩
    · exact .inl ⟨i, hbefore⟩
    · exact .inr ⟨i, now, rfl, hc, hrow⟩

/-- **A lapsed row stays lapsed**, but for the `UPDATE` that the condition leaves out. -/
theorem lapsed_step {a : TokenAction} (hinv : RevocationInv s) (hsafe : RevocationSafe s a) {row row' : TokenRow}
    (hrow : row ∈ s.db) (hrevoked : s.Revoked row.label) (hlapsed : row.Lapsed s.clock) (hsame : SameToken row row')
    (hstep : RevokedStep s a row row') : row'.Lapsed s.clock := by
  cases hstep with
  | kept h =>
    unfold TokenRow.Lapsed
    rw [h, hsame.expiresAt]
    exact hlapsed
  | revoked hc h =>
    obtain ⟨r, hle, hr⟩ := row.revoke_le _
    exact .inl ⟨r, h.trans hr, hle.trans (hinv.stamps _ _ _ hc)⟩
  | rotated hc h =>
    simp only [RevocationSafe, hc] at hsafe
    rcases hsafe hrevoked with hle | hexpired
    · exact .inl ⟨_, h, hle⟩
    · right
      rw [hsame.expiresAt]
      exact hexpired row hrow rfl

/-- **One step keeps every revocation.** -/
theorem revocationInv_step (s : TokenWorld) (a : TokenAction) (hinv : RevocationInv s) (hsafe : RevocationSafe s a) :
    RevocationInv (tokenStep cfg s a) := by
  constructor
  · intro i label now hi
    apply le_trans _ (clock_le_step cfg a)
    rcases step_calls cfg s a i with hsame | ⟨op, -, -, hop⟩ | ⟨-, hraised⟩ | ⟨-, hadv⟩
    · exact hinv.stamps i label now (hsame ▸ hi)
    · exact absurd (hop.symm.trans hi) (op_call_ne_revokingAt op label now)
    · cases hraised.symm.trans hi
    · exact (advance_revokingAt (hadv.symm.trans hi)).le
  · intro label hlabel
    rcases revoked_step hlabel with hbefore | ⟨i, now, rfl, hc, row, hrow, rfl⟩
    · obtain ⟨row, hrow, rfl, hlapsed⟩ := hinv.lapsed label hbefore
      obtain ⟨row', hrow', hsame, hstep⟩ := step_row cfg a hrow
      have hlapsed' := lapsed_step hinv hsafe hrow hbefore hlapsed hsame hstep
      exact ⟨row', hrow', hsame.label, hlapsed'.mono (clock_le_step cfg a)⟩
    · -- the `UPDATE` that commits the revocation
      obtain ⟨t, hle, ht⟩ := row.revoke_le now
      refine ⟨row.revoke now, ?_, rfl, .inl ⟨t, ht, hle.trans (hinv.stamps i row.label now hc)⟩⟩
      rw [show (tokenStep cfg s (.advance i)).db = s.db.revoke row.label now by simp [tokenStep, advanceToken, hc]]
      exact Keyed.mem_update.2 ⟨row, hrow, by simp⟩

theorem revocationInv_initial (clock : DateTime) (db : TokenDb) : RevocationInv (.initial clock db) := by
  constructor
  · intro i label now h
    cases h
  · rintro label ⟨i, h⟩
    cases h

/-- **A revocation is final**, in a run that meets the condition: no bearer resolves to the label's row any more, and revoking
again leaves a past time alone. -/
theorem revocation_final (cfg : AuthConfig) (clock : DateTime) (db : TokenDb) (as : List TokenAction)
    (h : Along (tokenStep cfg) RevocationSafe (.initial clock db) as) :
    (∀ label, (run (tokenStep cfg) (.initial clock db) as).Revoked label →
      ∀ authHeader now expiredNow record, (run (tokenStep cfg) (.initial clock db) as).clock ≤ now → now ≤ expiredNow →
        resolveBearer (run (tokenStep cfg) (.initial clock db) as).db authHeader now expiredNow = .ok record →
        record.label ≠ label) ∧
    ∀ pre i post label now row t, as = pre ++ .advance i :: post →
      (run (tokenStep cfg) (.initial clock db) pre).calls i = .revokingAt label now →
      row ∈ (run (tokenStep cfg) (.initial clock db) pre).db → row.revokedAt = some t →
      t ≤ (run (tokenStep cfg) (.initial clock db) pre).clock →
      ∃ row' ∈ (run (tokenStep cfg) (.initial clock db) (pre ++ [.advance i])).db,
        row'.tokenSha256 = row.tokenSha256 ∧ row'.revokedAt = some t := by
  constructor
  · intro label hlabel authHeader now expiredNow record hnow hexpired hresolve
    have hinv := run_inv_along revocationInv_step (revocationInv_initial clock db) h
    obtain ⟨row, hrow, rfl, hlapsed⟩ := hinv.lapsed label hlabel
    exact not_resolved_of_lapsed hrow hlapsed hnow hexpired hresolve
  · rintro pre i post label now row t rfl hc hrow hrevokedAt hpast
    have hsafe := h.at
    rw [run_snoc]
    obtain ⟨row', hrow', hsame, hstep⟩ := step_row cfg (.advance i) hrow
    refine ⟨row', hrow', hsame.tokenSha256, ?_⟩
    simp only [RevocationSafe, hc] at hsafe
    cases hstep with
    | kept h => exact h.trans hrevokedAt
    | revoked hc' h =>
      obtain ⟨rfl, rfl⟩ := TokenCall.revokingAt.inj (hc.symm.trans hc')
      exact h.trans (TokenRow.revoke_of_le hrevokedAt (hsafe row hrow rfl t hrevokedAt hpast))
    | rotated hc' h => cases hc.symm.trans hc'

/-! ## Two runs -/

/-- A revocation and nothing else. -/
def revokeRun : List TokenAction := [.start 1 (.revoke "laptop"), .advance 1, .advance 1]

theorem revokeRun_safe : Along (tokenStep sampleAuth) RevocationSafe (.initial noon (oneToken sampleToken)) revokeRun := by
  refine ⟨trivial, trivial, ?_, trivial⟩
  show ∀ row ∈ oneToken sampleToken, row.label = "laptop" → ∀ r, row.revokedAt = some r → r ≤ noon → r ≤ noon
  intro row _ _ r _ hle
  exact hle

theorem revocation_final_sample :
    (run (tokenStep sampleAuth) (.initial noon (oneToken sampleToken)) revokeRun).Revoked "laptop" ∧
    ∀ authHeader now expiredNow record, noon ≤ now → now ≤ expiredNow →
      resolveBearer (run (tokenStep sampleAuth) (.initial noon (oneToken sampleToken)) revokeRun).db authHeader now expiredNow =
        .ok record →
      record.label ≠ "laptop" := by
  have hrevoked : (run (tokenStep sampleAuth) (.initial noon (oneToken sampleToken)) revokeRun).Revoked "laptop" := ⟨1, rfl⟩
  exact ⟨hrevoked, (revocation_final sampleAuth noon (oneToken sampleToken) revokeRun revokeRun_safe).1 "laptop" hrevoked⟩

/-- A `rotate` reads the row, a `revoke` comes and goes, the `rotate` writes. -/
def raceRun : List TokenAction :=
  [.start 0 (.rotate "laptop" 300 "m2_phone"), .advance 0, .start 1 (.revoke "laptop"), .advance 1, .advance 1, .advance 0,
    .advance 0]

/-- **The revoked token is accepted.** -/
theorem revoked_token_accepted :
    (run (tokenStep sampleAuth) (.initial noon (oneToken sampleToken)) raceRun).Revoked "laptop" ∧
    ((resolveBearer (run (tokenStep sampleAuth) (.initial noon (oneToken sampleToken)) raceRun).db "Bearer m2_laptop" noon
      noon).toOption.map TokenRow.label) = some "laptop" :=
  ⟨⟨1, rfl⟩, by decide +kernel⟩

end Panella

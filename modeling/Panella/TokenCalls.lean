import Mathlib.Logic.Function.Basic
import Panella.Lib.Machine
import Panella.Tokens

/-!
# The calls of the token store, statement by statement

| here | there |
| --- | --- |
| `TokenOp.mint`, `.revoke`, `.rotate` | `TokenStore.mint`, `revoke`, `rotate` (`http/tokens.py` :75-178) |
| `TokenAction.present` | `TokenStore.resolve` with `touch=True` (:108-126) |
| `advanceToken` | the next reading of the clock or the next statement of a call |

Each process runs its call on a connection of its own. A `SELECT` opens no transaction there, so `rotate` reads its row in one
step and updates it in another; a reading of the clock is a step too, so that a statement can carry one that is out of date.
Nothing deletes a row, and of the columns that decide who a token is for, no statement changes any (`step_row`, `step_mem`).
-/

namespace Panella

open UtcTime Machine

inductive TokenErr
  | py (e : PyErr)
  /-- `sqlite3.IntegrityError`. -/
  | integrity
  /-- The process stops, or the database refuses the statement. -/
  | interrupted

inductive TokenOp
  | mint (m : MintArgs)
  | revoke (label : String)
  /-- The token that the `mint` at its end draws. -/
  | rotate (label : String) (graceSeconds : Int) (rawToken : String)

/-- Where a call stands. -/
inductive TokenCall
  | idle
  /-- `mint`, called from outside or by `rotate(label)`. -/
  | minting (m : MintArgs) (rotated : Option String)
  | inserting (m : MintArgs) (now : DateTime) (expiresAt : Option DateTime) (rotated : Option String)
  | revoking (label : String)
  | revokingAt (label : String) (now : DateTime)
  | rotating (label : String) (graceSeconds : Int) (rawToken : String)
  | selected (label : String) (graceSeconds : Int) (rawToken : String) (row : TokenRow)
  | rotatingAt (label : String) (rawToken : String) (row : TokenRow) (now revokeAt : DateTime)
  | minted (m : MintArgs) (rotated : Option String)
  | revoked (label : String) (found : Bool)
  | raised (e : TokenErr)

def TokenOp.call : TokenOp → TokenCall
  | .mint m => .minting m none
  | .revoke label => .revoking label
  | .rotate label graceSeconds rawToken => .rotating label graceSeconds rawToken

structure TokenWorld where
  clock : DateTime
  db : TokenDb
  calls : Nat → TokenCall

def TokenWorld.initial (clock : DateTime) (db : TokenDb) : TokenWorld := ⟨clock, db, fun _ => .idle⟩

inductive TokenAction
  | tick (t : DateTime)
  | start (i : Nat) (op : TokenOp)
  | advance (i : Nat)
  | interrupt (i : Nat)
  | present (rawToken : String)

/-- What `rotate` hands to `mint`. -/
def rotatedArgs (label rawToken : String) (row : TokenRow) (now : DateTime) : MintArgs where
  principalId := row.principalId
  label := label ++ "-" ++ now.stamp
  tenantScope := some row.tenantScope
  ttlSeconds := none
  rawToken := rawToken

/-- The next step of a call. -/
def advanceToken (cfg : AuthConfig) (clock : DateTime) (db : TokenDb) : TokenCall → TokenDb × TokenCall
  | .minting m rotated =>
    match m.expiry clock with
    | .error e => (db, .raised (.py e))
    | .ok expiresAt => (db, .inserting m clock expiresAt rotated)
  | .inserting m now expiresAt rotated =>
    match db.insert (m.row cfg now expiresAt) with
    | none => (db, .raised .integrity)
    | some db' => (db', .minted m rotated)
  | .revoking label => (db, .revokingAt label clock)
  | .revokingAt label now => (db.revoke label now, .revoked label (db.rows.any fun row => row.label = label))
  | .rotating label graceSeconds rawToken =>
    match db.rotatable label with
    | none => (db, .raised (.py (.keyError label)))
    | some row => (db, .selected label graceSeconds rawToken row)
  | .selected label graceSeconds rawToken row =>
    match clock.addSeconds graceSeconds with
    | none => (db, .raised (.py overflow))
    | some revokeAt => (db, .rotatingAt label rawToken row clock revokeAt)
  | .rotatingAt label rawToken row now revokeAt =>
    (db.rotate label now revokeAt, .minting (rotatedArgs label rawToken row now) (some label))
  | .idle => (db, .idle)
  | .minted m rotated => (db, .minted m rotated)
  | .revoked label found => (db, .revoked label found)
  | .raised e => (db, .raised e)

/-- A call that has not come to its end can be cut short. -/
def TokenCall.running : TokenCall → Bool
  | .idle | .minted .. | .revoked .. | .raised _ => false
  | _ => true

/-- One step; the clock does not run backwards. -/
def tokenStep (cfg : AuthConfig) (s : TokenWorld) : TokenAction → TokenWorld
  | .tick t => if s.clock ≤ t then { s with clock := t } else s
  | .start i op =>
    match s.calls i with
    | .idle => { s with calls := Function.update s.calls i op.call }
    | _ => s
  | .advance i =>
    let out := advanceToken cfg s.clock s.db (s.calls i)
    { s with db := out.1, calls := Function.update s.calls i out.2 }
  | .interrupt i => if (s.calls i).running then { s with calls := Function.update s.calls i (.raised .interrupted) } else s
  | .present rawToken => { s with db := s.db.touch (tokenSha256 rawToken) s.clock }

/-! ## What a step does -/

/-- The columns that no statement changes. -/
structure SameToken (row row' : TokenRow) : Prop where
  tokenSha256 : row'.tokenSha256 = row.tokenSha256
  label : row'.label = row.label
  principalId : row'.principalId = row.principalId
  tenantScope : row'.tenantScope = row.tenantScope
  expiresAt : row'.expiresAt = row.expiresAt

/-- What a step makes of `revoked_at`. -/
inductive RevokedStep (s : TokenWorld) : TokenAction → TokenRow → TokenRow → Prop
  | kept {a row row'} (h : row'.revokedAt = row.revokedAt) : RevokedStep s a row row'
  | revoked {i now row row'} (hc : s.calls i = .revokingAt row.label now) (h : row'.revokedAt = (row.revoke now).revokedAt) :
      RevokedStep s (.advance i) row row'
  | rotated {i rawToken read now revokeAt row row'} (hc : s.calls i = .rotatingAt row.label rawToken read now revokeAt)
      (h : row'.revokedAt = some revokeAt) : RevokedStep s (.advance i) row row'

variable {cfg : AuthConfig} {s : TokenWorld}

theorem SameToken.refl (row : TokenRow) : SameToken row row := ⟨rfl, rfl, rfl, rfl, rfl⟩

/-- The rows that an `UPDATE` is made for, and the others. -/
theorem step_of_update {a : TokenAction} (guard : TokenRow → Bool) (f : TokenRow → TokenRow)
    (hsame : ∀ row, SameToken row (f row)) (hrevoked : ∀ row, guard row = true → RevokedStep s a row (f row))
    (row : TokenRow) :
    SameToken row (if guard row then f row else row) ∧ RevokedStep s a row (if guard row then f row else row) := by
  by_cases hguard : guard row = true
  · rw [if_pos hguard]
    exact ⟨hsame row, hrevoked row hguard⟩
  · rw [if_neg hguard]
    exact ⟨.refl row, .kept rfl⟩

variable (cfg) in
/-- **The rows after a step**: what the rows before it became, and at most one that was inserted. -/
theorem step_rows (a : TokenAction) :
    (∃ f : TokenRow → TokenRow, (∀ row, SameToken row (f row) ∧ RevokedStep s a row (f row)) ∧
      ∀ x, x ∈ (tokenStep cfg s a).db ↔ ∃ row ∈ s.db, f row = x) ∨
    ∃ i m now expiresAt rotated, a = .advance i ∧ s.calls i = .inserting m now expiresAt rotated ∧
      s.db.insert (m.row cfg now expiresAt) = some (tokenStep cfg s a).db := by
  have hkept : ∀ s' : TokenWorld, s'.db = s.db → ∃ f : TokenRow → TokenRow,
      (∀ row, SameToken row (f row) ∧ RevokedStep s a row (f row)) ∧ ∀ x, x ∈ s'.db ↔ ∃ row ∈ s.db, f row = x := by
    intro s' hdb
    refine ⟨id, fun row => ⟨.refl row, .kept rfl⟩, fun x => ?_⟩
    simp [hdb]
  cases a with
  | tick t =>
    left
    apply hkept
    simp only [tokenStep]
    split <;> rfl
  | start i op =>
    left
    apply hkept
    simp only [tokenStep]
    split <;> rfl
  | interrupt i =>
    left
    apply hkept
    simp only [tokenStep]
    split <;> rfl
  | present rawToken =>
    left
    refine ⟨_, step_of_update (fun row => row.tokenSha256 = tokenSha256 rawToken) (TokenRow.touch s.clock)
      (fun _ => ⟨rfl, rfl, rfl, rfl, rfl⟩) (fun _ _ => .kept rfl), fun x => ?_⟩
    show x ∈ s.db.touch (tokenSha256 rawToken) s.clock ↔ _
    exact Keyed.mem_update
  | advance i =>
    cases hc : s.calls i with
    | inserting m now expiresAt rotated =>
      cases hinsert : s.db.insert (m.row cfg now expiresAt) with
      | none =>
        left
        apply hkept
        simp [tokenStep, advanceToken, hc, hinsert]
      | some db' =>
        right
        exact ⟨i, m, now, expiresAt, rotated, rfl, hc, by simp [tokenStep, advanceToken, hc, hinsert]⟩
    | revokingAt label now =>
      left
      refine ⟨_, step_of_update (fun row => row.label = label) (TokenRow.revoke now)
        (fun _ => ⟨rfl, rfl, rfl, rfl, rfl⟩) (fun row hrow => ?_), fun x => ?_⟩
      · have hlabel : row.label = label := of_decide_eq_true hrow
        exact .revoked (hlabel ▸ hc) rfl
      · rw [show (tokenStep cfg s (.advance i)).db = s.db.revoke label now by simp [tokenStep, advanceToken, hc]]
        exact Keyed.mem_update
    | rotatingAt label rawToken read now revokeAt =>
      left
      refine ⟨_, step_of_update (fun row => row.label = label) (TokenRow.rotate now revokeAt)
        (fun _ => ⟨rfl, rfl, rfl, rfl, rfl⟩) (fun row hrow => ?_), fun x => ?_⟩
      · have hlabel : row.label = label := of_decide_eq_true hrow
        exact .rotated (hlabel ▸ hc) rfl
      · rw [show (tokenStep cfg s (.advance i)).db = s.db.rotate label now revokeAt by simp [tokenStep, advanceToken, hc]]
        exact Keyed.mem_update
    | minting m rotated =>
      left
      apply hkept
      simp only [tokenStep, advanceToken, hc]
      split <;> rfl
    | rotating label graceSeconds rawToken =>
      left
      apply hkept
      simp only [tokenStep, advanceToken, hc]
      split <;> rfl
    | selected label graceSeconds rawToken row =>
      left
      apply hkept
      simp only [tokenStep, advanceToken, hc]
      split <;> rfl
    | idle => exact .inl (hkept _ (by simp [tokenStep, advanceToken, hc]))
    | revoking label => exact .inl (hkept _ (by simp [tokenStep, advanceToken, hc]))
    | minted m rotated => exact .inl (hkept _ (by simp [tokenStep, advanceToken, hc]))
    | revoked label found => exact .inl (hkept _ (by simp [tokenStep, advanceToken, hc]))
    | raised e => exact .inl (hkept _ (by simp [tokenStep, advanceToken, hc]))

variable (cfg) in
/-- **A row stays.** -/
theorem step_row (a : TokenAction) {row : TokenRow} (hrow : row ∈ s.db) :
    ∃ row' ∈ (tokenStep cfg s a).db, SameToken row row' ∧ RevokedStep s a row row' := by
  rcases step_rows cfg a with ⟨f, hf, hmem⟩ | ⟨i, m, now, expiresAt, rotated, rfl, hc, hinsert⟩
  · exact ⟨f row, (hmem _).2 ⟨row, hrow, rfl⟩, hf row⟩
  · exact ⟨row, (Keyed.mem_insert hinsert row).2 (.inl hrow), .refl row, .kept rfl⟩

/-- **A row was there before**, or a `mint` inserted it. -/
theorem step_mem {a : TokenAction} {row' : TokenRow} (h : row' ∈ (tokenStep cfg s a).db) :
    (∃ row ∈ s.db, SameToken row row' ∧ RevokedStep s a row row') ∨
      ∃ i m now expiresAt rotated, a = .advance i ∧ s.calls i = .inserting m now expiresAt rotated ∧
        row' = m.row cfg now expiresAt := by
  rcases step_rows cfg a with ⟨f, hf, hmem⟩ | ⟨i, m, now, expiresAt, rotated, rfl, hc, hinsert⟩
  · obtain ⟨row, hrow, rfl⟩ := (hmem _).1 h
    exact .inl ⟨row, hrow, hf row⟩
  · rcases (Keyed.mem_insert hinsert row').1 h with hold | rfl
    · exact .inl ⟨row', hold, .refl row', .kept rfl⟩
    · exact .inr ⟨i, m, now, expiresAt, rotated, rfl, hc, rfl⟩

variable (cfg) in
/-- The clock does not run backwards. -/
theorem clock_le_step (a : TokenAction) : s.clock ≤ (tokenStep cfg s a).clock := by
  cases a with
  | tick t =>
    simp only [tokenStep]
    split
    · assumption
    · exact le_refl s.clock
  | start i op =>
    simp only [tokenStep]
    split <;> exact le_refl s.clock
  | interrupt i =>
    simp only [tokenStep]
    split <;> exact le_refl s.clock
  | advance i => exact le_refl s.clock
  | present rawToken => exact le_refl s.clock

variable (cfg s) in
/-- **Where a call stands after a step**: where it stood, at its start, cut short, or one step further. -/
theorem step_calls (a : TokenAction) (i : Nat) :
    (tokenStep cfg s a).calls i = s.calls i ∨
    (∃ op, a = .start i op ∧ s.calls i = .idle ∧ (tokenStep cfg s a).calls i = op.call) ∨
    (a = .interrupt i ∧ (tokenStep cfg s a).calls i = .raised .interrupted) ∨
    (a = .advance i ∧ (tokenStep cfg s a).calls i = (advanceToken cfg s.clock s.db (s.calls i)).2) := by
  cases a with
  | tick t =>
    left
    simp only [tokenStep]
    split <;> rfl
  | present rawToken => exact .inl rfl
  | start j op =>
    by_cases hij : i = j
    · subst hij
      cases hc : s.calls i with
      | idle => exact .inr (.inl ⟨op, rfl, rfl, by simp [tokenStep, hc]⟩)
      | _ => exact .inl (by simp [tokenStep, hc])
    · left
      simp only [tokenStep]
      split
      · exact Function.update_of_ne hij _ _
      · rfl
  | interrupt j =>
    by_cases hij : i = j
    · subst hij
      by_cases hrunning : (s.calls i).running = true
      · exact .inr (.inr (.inl ⟨rfl, by simp [tokenStep, hrunning]⟩))
      · exact .inl (by simp [tokenStep, hrunning])
    · left
      simp only [tokenStep]
      split
      · exact Function.update_of_ne hij _ _
      · rfl
  | advance j =>
    by_cases hij : i = j
    · subst hij
      exact .inr (.inr (.inr ⟨rfl, Function.update_self _ _ _⟩))
    · exact .inl (Function.update_of_ne hij _ _)

end Panella

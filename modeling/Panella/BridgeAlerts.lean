import Panella.BridgeHealth
import Panella.Lib.Machine

/-!
# Bridge alerts over the history (`panella/bridge_health.py:127-176`, `:179-360`)

Two columns say what was alerted last: `last_alerted_streak` for a bridge, `last_alerted_at` for a wing. They advance in a
transaction of their own, after delivery; clean runs and fresh writes set them back. `lastSentStreak` and `sentSince` say the same
of the history of all calls, without the columns (`Tracks`), and **`alerts_exact`** gives every alert by them.

That a bridge runs at increasing times, and that no write lies in the future, is not needed.
-/

namespace Panella.BridgeHealth

open Machine

/-! ## What the history says -/

/-- A call and what it did. -/
structure Turn where
  run : Run
  before : Db
  alerts : List AlertEvent
  after : Db

namespace Turn

/-- The alerts that were delivered. -/
def sent (t : Turn) : List AlertEvent := t.alerts.filter t.run.reaches

/-- The streak a delivered alert of the bridge told of. -/
def sentStreak (bridge : String) (t : Turn) : Option Nat :=
  t.sent.findSome? fun a =>
    match a.payload with
    | .streak streak _ => if a.bridgeName = bridge then some streak else none
    | .wing .. => none

/-- A staleness alert of the wing was delivered. -/
def sentStale (bridge wing : String) (t : Turn) : Bool := t.sent.any fun a => a.bridgeName = bridge ∧ a.wing = some wing

/-- `last_written_at` is another after the call. -/
def advances (bridge wing : String) (t : Turn) : Bool :=
  (t.before.freshness bridge wing).map (·.lastWrittenAt) ≠ (t.after.freshness bridge wing).map (·.lastWrittenAt)

end Turn

/-- A database and the calls that made it, the newest first. -/
structure Watch where
  db : Db
  history : List Turn

def Watch.record (s : Watch) (r : Run) : Watch :=
  let (alerts, db) := recordRun r s.db
  ⟨db, ⟨r, s.db, alerts, db⟩ :: s.history⟩

/-- All the calls, from an empty database on. -/
def watched (runs : List Run) : Watch := run Watch.record ⟨.empty, []⟩ runs

/-- The runs of the bridge with source errors since its last clean run. -/
def outages (bridge : String) : List Turn → Nat
  | [] => 0
  | t :: earlier => if t.run.bridge = bridge then t.run.newStreak (outages bridge earlier) else outages bridge earlier

/-- The streak of the last alert delivered since the last clean run, or 0. -/
def lastSentStreak (bridge : String) : List Turn → Nat
  | [] => 0
  | t :: earlier =>
    (t.sentStreak bridge).getD (if t.run.bridge = bridge && t.run.clean then 0 else lastSentStreak bridge earlier)

/-- A staleness alert was delivered since `last_written_at` last advanced. -/
def sentSince (bridge wing : String) : List Turn → Bool
  | [] => false
  | t :: earlier => t.sentStale bridge wing || !t.advances bridge wing && sentSince bridge wing earlier

/-- What is asked of a call after others. -/
structure Exact (earlier : List Turn) (t : Turn) : Prop where
  streak : ∀ bridge, (t.after.loadState bridge).streak = outages bridge (t :: earlier)
  /-- In the state phase 1 commits and in the last one. -/
  streak_le : ∀ bridge, ∀ db ∈ [track t.run t.before, t.after],
    (db.loadState bridge).lastAlertedStreak ≤ (db.loadState bridge).streak
  streakAlert : t.alerts.filter (·.wing = none) =
    if t.run.disabled = false ∧ t.run.streakThreshold ≤ (t.after.loadState t.run.bridge).streak ∧
        lastSentStreak t.run.bridge earlier < (t.after.loadState t.run.bridge).streak then
      [streakEvent t.run.bridge (t.after.loadState t.run.bridge).streak t.run.streakThreshold]
    else []
  staleAlert : ∀ wing, t.alerts.filter (·.wing = some wing) =
    match t.after.freshness t.run.bridge wing with
    | none => []
    | some row =>
      if t.run.disabled = false ∧ t.run.thresholdSeconds ≤ t.run.now - row.lastWrittenAt ∧
          (t.advances t.run.bridge wing ∨ sentSince t.run.bridge wing earlier = false) then
        [staleEvent t.run.bridge wing ((t.run.now - row.lastWrittenAt) / 86400) t.run.stalenessThresholdDays]
      else []
  /-- A mark rises with a delivery only. -/
  streakMark : ∀ bridge, t.sentStreak bridge = none →
    (t.after.loadState bridge).lastAlertedStreak ≤ (t.before.loadState bridge).lastAlertedStreak
  staleMark : ∀ bridge wing row, t.sentStale bridge wing = false → t.after.freshness bridge wing = some row →
    row.lastAlertedAt = 0 ∨ ∃ row', t.before.freshness bridge wing = some row' ∧ row.lastAlertedAt = row'.lastAlertedAt
  /-- The alerts are about the bridge. -/
  bridge : ∀ a ∈ t.alerts, a.bridgeName = t.run.bridge
  written : ∀ bridge wing row, t.before.freshness bridge wing = some row →
    ∃ row', t.after.freshness bridge wing = some row' ∧ row.lastWrittenAt ≤ row'.lastWrittenAt

section
variable {db : Db} {r : Run} {s : Watch} {b w : String}

/-! ## A call after others -/

-- what follows goes by their lemmas
attribute [local irreducible] track settle alertsOf

/-- The turn a call is. -/
def turnOf (r : Run) (db : Db) : Turn := ⟨r, db, alertsOf r db, settle r db⟩

@[simp] theorem turnOf_run (r : Run) (db : Db) : (turnOf r db).run = r := rfl

theorem record_eq (s : Watch) (r : Run) : s.record r = ⟨settle r s.db, turnOf r s.db :: s.history⟩ := by
  rw [Watch.record, recordRun_eq]
  rfl

theorem streakAlert_eq (r : Run) (db : Db) : streakAlert r db =
    if r.disabled = false ∧ r.streakThreshold ≤ r.newStreak (db.loadState r.bridge).streak ∧
        (db.loadState r.bridge).lastAlertedStreak < r.newStreak (db.loadState r.bridge).streak then
      some (streakEvent r.bridge (r.newStreak (db.loadState r.bridge).streak) r.streakThreshold)
    else none := by
  simp [streakAlert, and_assoc]

theorem sentStreak_turnOf (r : Run) (db : Db) (b : String) : (turnOf r db).sentStreak b =
    if b = r.bridge ∧ streakSent r db then some (r.newStreak (db.loadState r.bridge).streak) else none := by
  have hwings : (((wingAlerts r (track r db)).map (·.2)).filter r.reaches).findSome? (fun a =>
      match a.payload with
      | .streak streak _ => if a.bridgeName = b then some streak else none
      | .wing .. => none) = none := by
    rw [List.findSome?_eq_none_iff]
    intro a ha
    obtain ⟨wa, hwa, rfl⟩ := List.mem_map.1 (List.mem_filter.1 ha).1
    have hwing := (wing_of_mem_wingAlerts hwa).1
    cases hpayload : wa.2.payload with
    | streak streak threshold => simp [AlertEvent.wing, hpayload] at hwing
    | wing wing ageDays thresholdDays => rfl
  rw [Turn.sentStreak, Turn.sent, turnOf, alertsOf, List.filter_append, List.findSome?_append, hwings, Option.or_none, streakSent,
    streakAlert_eq]
  split
  · obtain ⟨a, ha⟩ : ∃ a, streakEvent r.bridge (r.newStreak (db.loadState r.bridge).streak) r.streakThreshold = a :=
      ⟨_, rfl⟩
    have hpayload : a.payload = .streak (r.newStreak (db.loadState r.bridge).streak) r.streakThreshold := by
      rw [← ha, streakEvent]
    have hbridge : a.bridgeName = r.bridge := by rw [← ha, streakEvent]
    rw [ha]
    by_cases hreaches : r.reaches a = true
    · by_cases hb : b = r.bridge
      · simp [hreaches, hb, hpayload, hbridge]
      · simp [hreaches, hb, hpayload, hbridge, Ne.symm hb]
    · simp [hreaches]
  · simp

theorem sentStale_turnOf (r : Run) (db : Db) (b w : String) :
    (turnOf r db).sentStale b w = decide (b = r.bridge ∧ w ∈ wingsSent r db) := by
  have hsent : (turnOf r db).sentStale b w = true ↔
      b = r.bridge ∧ ∃ a ∈ (alertsOf r db).filter (·.wing = some w), r.reaches a := by
    rw [Turn.sentStale, List.any_eq_true]
    constructor
    · rintro ⟨a, ha, h⟩
      obtain ⟨hmem, hreaches⟩ := List.mem_filter.1 ha
      obtain ⟨hb, hw⟩ := of_decide_eq_true h
      exact ⟨hb.symm.trans (bridgeName_of_mem hmem), a, List.mem_filter.2 ⟨hmem, decide_eq_true hw⟩, hreaches⟩
    · rintro ⟨hb, a, ha, hreaches⟩
      obtain ⟨hmem, hw⟩ := List.mem_filter.1 ha
      refine ⟨a, List.mem_filter.2 ⟨hmem, hreaches⟩, decide_eq_true ⟨?_, of_decide_eq_true hw⟩⟩
      rw [filter_staleAlert, Option.mem_toList, Option.bind_eq_some_iff] at ha
      obtain ⟨row, -, halert⟩ := ha
      rw [(staleAlert_wing halert).2, hb]
  have hwings : (∃ a ∈ (alertsOf r db).filter (·.wing = some w), r.reaches a) ↔ w ∈ wingsSent r db := by
    rw [mem_wingsSent, filter_staleAlert]
    simp only [Option.mem_toList, Option.bind_eq_some_iff]
    constructor
    · rintro ⟨a, ⟨row, hrow, halert⟩, hreaches⟩
      exact ⟨row, a, hrow, halert, hreaches⟩
    · rintro ⟨row, a, hrow, halert, hreaches⟩
      exact ⟨a, ⟨row, hrow, halert⟩, hreaches⟩
  rw [hwings] at hsent
  rw [Bool.eq_iff_iff, hsent, decide_eq_true_eq]

/-- The columns say what the history says. -/
structure Tracks (s : Watch) : Prop where
  streak : ∀ b, (s.db.loadState b).streak = outages b s.history
  marked : ∀ b, (s.db.loadState b).lastAlertedStreak = lastSentStreak b s.history
  le : ∀ b, (s.db.loadState b).lastAlertedStreak ≤ (s.db.loadState b).streak
  written : ∀ b w row, s.db.freshness b w = some row → 0 < row.lastWrittenAt
  sent : ∀ b w row, s.db.freshness b w = some row → sentSince b w s.history = true → row.lastWrittenAt ≤ row.lastAlertedAt
  unsent : ∀ b w row, s.db.freshness b w = some row → sentSince b w s.history = false → row.lastAlertedAt = 0

theorem tracks_empty : Tracks ⟨.empty, []⟩ where
  streak _ := rfl
  marked _ := rfl
  le _ := le_rfl
  written _ _ _ h := by cases h
  sent _ _ _ h := by cases h
  unsent _ _ _ h := by cases h

theorem streak_settle (r : Run) (db : Db) (b : String) : ((settle r db).loadState b).streak =
    if b = r.bridge then r.newStreak (db.loadState b).streak else (db.loadState b).streak := by
  have htrack : ((settle r db).loadState b).streak = ((track r db).loadState b).streak := by
    rw [loadState_settle]
    split <;> rfl
  rw [htrack, loadState_track]
  split <;> rfl

theorem lastAlertedStreak_settle (r : Run) (db : Db) (b : String) : ((settle r db).loadState b).lastAlertedStreak =
    if b = r.bridge ∧ streakSent r db then r.newStreak (db.loadState b).streak
    else if b = r.bridge ∧ r.clean then 0 else (db.loadState b).lastAlertedStreak := by
  rw [loadState_settle]
  split
  · rfl
  · rw [loadState_track]
    by_cases hb : b = r.bridge
    · simp only [hb, if_true, true_and]
    · simp only [hb, if_false, false_and]

theorem le_newStreak (h : r.clean = false) (streak : Nat) : streak ≤ r.newStreak streak := by
  unfold Run.newStreak
  rw [h, if_neg Bool.false_ne_true]
  split <;> omega

theorem lastAlerted_le_track (hle : ∀ b, (db.loadState b).lastAlertedStreak ≤ (db.loadState b).streak) (r : Run)
    (b : String) :
    ((track r db).loadState b).lastAlertedStreak ≤ ((track r db).loadState b).streak := by
  rw [loadState_track]
  split
  · cases hclean : r.clean with
    | true => simp
    | false => exact (hle b).trans (le_newStreak hclean _)
  · exact hle b

theorem lastAlerted_le_settle (hle : ∀ b, (db.loadState b).lastAlertedStreak ≤ (db.loadState b).streak) (r : Run)
    (b : String) :
    ((settle r db).loadState b).lastAlertedStreak ≤ ((settle r db).loadState b).streak := by
  by_cases hsent : b = r.bridge ∧ streakSent r db
  · rw [lastAlertedStreak_settle, streak_settle, if_pos hsent, if_pos hsent.1]
  · rw [loadState_settle, if_neg hsent]
    exact lastAlerted_le_track hle r b

/-- The last call's writes and marks. -/
theorem written_settle {row : WingFreshness} (h : (settle r db).freshness b w = some row) :
    ∃ tracked, (track r db).freshness b w = some tracked ∧ row.lastWrittenAt = tracked.lastWrittenAt ∧
      row.lastAlertedAt = if b = r.bridge ∧ w ∈ wingsSent r db then r.now else tracked.lastAlertedAt := by
  rw [freshness_settle] at h
  split at h
  · next hsent =>
    obtain ⟨tracked, htracked, rfl⟩ := Option.map_eq_some_iff.1 h
    exact ⟨tracked, htracked, rfl, (if_pos hsent).symm⟩
  · next hsent => exact ⟨row, h, rfl, (if_neg hsent).symm⟩

theorem settle_written {tracked : WingFreshness} (h : (track r db).freshness b w = some tracked) :
    ∃ row, (settle r db).freshness b w = some row ∧ row.lastWrittenAt = tracked.lastWrittenAt := by
  rw [freshness_settle, h]
  split
  · exact ⟨_, rfl, rfl⟩
  · exact ⟨_, rfl, rfl⟩

/-- A wing advances with a later write. -/
theorem advances_turnOf (r : Run) (db : Db) (b w : String) : (turnOf r db).advances b w = true ↔
    (db.freshness b w).map (·.lastWrittenAt) ≠ ((track r db).freshness b w).map (·.lastWrittenAt) := by
  have hsettle : ((settle r db).freshness b w).map (·.lastWrittenAt) = ((track r db).freshness b w).map (·.lastWrittenAt) := by
    rw [freshness_settle]
    split
    · rw [Option.map_map]
      rfl
    · rfl
  rw [Turn.advances, decide_eq_true_eq, turnOf, hsettle]

/-- After phase 1, either the row is the old one, or a write has advanced it and it has no mark. -/
theorem track_cases (hr : r.Ok) {tracked : WingFreshness} (h : (track r db).freshness b w = some tracked) :
    ((turnOf r db).advances b w = false ∧ db.freshness b w = some tracked) ∨
      ((turnOf r db).advances b w = true ∧ tracked.lastAlertedAt = 0 ∧ 0 < tracked.lastWrittenAt) := by
  rcases refreshed_track (b := b) (w := w) hr db with hsame | ⟨row', hrow', halerted, hpos, hlater⟩
  · left
    rw [← Bool.not_eq_true, advances_turnOf, hsame]
    exact ⟨fun hne => hne rfl, hsame ▸ h⟩
  · right
    obtain rfl := Option.some.inj (h.symm.trans hrow')
    refine ⟨(advances_turnOf r db b w).2 ?_, halerted, hpos⟩
    rw [h]
    cases hbefore : db.freshness b w with
    | none => simp
    | some row => simpa using (hlater row hbefore).ne

/-- **A wing is due** exactly if nothing was sent since its last write. -/
theorem lastAlerted_lt_iff (ht : Tracks s) (hr : r.Ok) {tracked : WingFreshness}
    (h : (track r s.db).freshness b w = some tracked) : tracked.lastAlertedAt < tracked.lastWrittenAt ↔
      (turnOf r s.db).advances b w = true ∨ sentSince b w s.history = false := by
  rcases track_cases hr h with ⟨hstill, hbefore⟩ | ⟨hadvances, halerted, hpos⟩
  · cases hsince : sentSince b w s.history with
    | true => simp [hstill, ht.sent b w tracked hbefore hsince]
    | false => simp [ht.unsent b w tracked hbefore hsince, ht.written b w tracked hbefore]
  · simp [hadvances, halerted, hpos]

theorem outages_turnOf (ht : Tracks s) (r : Run) (b : String) :
    ((settle r s.db).loadState b).streak = outages b (turnOf r s.db :: s.history) := by
  rw [streak_settle, outages, ht.streak, turnOf_run]
  by_cases hb : b = r.bridge
  · rw [if_pos hb, if_pos hb.symm]
  · rw [if_neg hb, if_neg (Ne.symm hb)]

theorem lastSentStreak_turnOf (ht : Tracks s) (r : Run) (b : String) :
    ((settle r s.db).loadState b).lastAlertedStreak = lastSentStreak b (turnOf r s.db :: s.history) := by
  rw [lastAlertedStreak_settle, lastSentStreak, sentStreak_turnOf, ht.marked, turnOf_run]
  by_cases hb : b = r.bridge
  · subst hb
    by_cases hsent : streakSent r s.db = true
    · simp [hsent]
    · simp [hsent]
  · simp [hb, Ne.symm hb]

/-- An alert goes out at a time past the write. -/
theorem le_now_of_mem_wingsSent (hr : r.Ok) {tracked : WingFreshness}
    (htracked : (track r db).freshness r.bridge w = some tracked) (hw : w ∈ wingsSent r db) : tracked.lastWrittenAt ≤ r.now := by
  obtain ⟨row, a, hrow, halert, -⟩ := mem_wingsSent.1 hw
  obtain rfl := Option.some.inj (htracked.symm.trans hrow)
  have hdue : r.thresholdSeconds ≤ r.now - tracked.lastWrittenAt := by
    unfold staleAlert at halert
    split at halert
    · next h => exact h.2.1
    · cases halert
  have hthreshold : 0 < r.thresholdSeconds := by
    have hdays : (0 : ℚ) < r.stalenessThresholdDays := by exact_mod_cast hr.staleness
    unfold Run.thresholdSeconds
    positivity
  linarith

theorem sentSince_turnOf (r : Run) (s : Watch) (b w : String) : sentSince b w (turnOf r s.db :: s.history) =
    (decide (b = r.bridge ∧ w ∈ wingsSent r s.db) || !(turnOf r s.db).advances b w && sentSince b w s.history) := by
  rw [sentSince, sentStale_turnOf]

theorem sent_settle (ht : Tracks s) (hr : r.Ok) {row : WingFreshness} (hrow : (settle r s.db).freshness b w = some row)
    (hsince : sentSince b w (turnOf r s.db :: s.history) = true) : row.lastWrittenAt ≤ row.lastAlertedAt := by
  obtain ⟨tracked, htracked, hlw, hla⟩ := written_settle hrow
  rw [hlw, hla]
  by_cases hsent : b = r.bridge ∧ w ∈ wingsSent r s.db
  · rw [if_pos hsent]
    exact le_now_of_mem_wingsSent hr (hsent.1 ▸ htracked) hsent.2
  · rw [if_neg hsent]
    rw [sentSince_turnOf, decide_eq_false hsent, Bool.false_or, Bool.and_eq_true] at hsince
    rcases track_cases hr htracked with ⟨-, hbefore⟩ | ⟨hadvances, -, -⟩
    · exact ht.sent b w tracked hbefore hsince.2
    · rw [hadvances] at hsince
      cases hsince.1

theorem unsent_settle (ht : Tracks s) (hr : r.Ok) {row : WingFreshness} (hrow : (settle r s.db).freshness b w = some row)
    (hsince : sentSince b w (turnOf r s.db :: s.history) = false) : row.lastAlertedAt = 0 := by
  obtain ⟨tracked, htracked, -, hla⟩ := written_settle hrow
  rw [sentSince_turnOf, Bool.or_eq_false_iff] at hsince
  rw [hla, if_neg (of_decide_eq_false hsince.1)]
  rcases track_cases hr htracked with ⟨hstill, hbefore⟩ | ⟨-, halerted, -⟩
  · rw [hstill, Bool.not_false, Bool.true_and] at hsince
    exact ht.unsent b w tracked hbefore hsince.2
  · exact halerted

theorem written_of_settle (ht : Tracks s) (hr : r.Ok) {row : WingFreshness} (hrow : (settle r s.db).freshness b w = some row) :
    0 < row.lastWrittenAt := by
  obtain ⟨tracked, htracked, hlw, -⟩ := written_settle hrow
  rw [hlw]
  rcases track_cases hr htracked with ⟨-, hbefore⟩ | ⟨-, -, hpos⟩
  · exact ht.written b w tracked hbefore
  · exact hpos

theorem tracks_record (ht : Tracks s) (hr : r.Ok) : Tracks (s.record r) := by
  rw [record_eq]
  constructor
  case streak =>
    intro b
    dsimp only
    exact outages_turnOf ht r b
  case marked =>
    intro b
    dsimp only
    exact lastSentStreak_turnOf ht r b
  case le =>
    intro b
    dsimp only
    exact lastAlerted_le_settle ht.le r b
  case written =>
    intro b w row hrow
    dsimp only at hrow
    exact written_of_settle ht hr hrow
  case sent =>
    intro b w row hrow hsince
    dsimp only at hrow hsince
    exact sent_settle ht hr hrow hsince
  case unsent =>
    intro b w row hrow hsince
    dsimp only at hrow hsince
    exact unsent_settle ht hr hrow hsince

theorem staleAlert_turnOf (ht : Tracks s) (hr : r.Ok) (w : String) : (alertsOf r s.db).filter (·.wing = some w) =
    match (settle r s.db).freshness r.bridge w with
    | none => []
    | some row =>
      if r.disabled = false ∧ r.thresholdSeconds ≤ r.now - row.lastWrittenAt ∧
          ((turnOf r s.db).advances r.bridge w ∨ sentSince r.bridge w s.history = false) then
        [staleEvent r.bridge w ((r.now - row.lastWrittenAt) / 86400) r.stalenessThresholdDays]
      else [] := by
  rw [filter_staleAlert]
  cases htracked : (track r s.db).freshness r.bridge w with
  | none =>
    have hsettle : (settle r s.db).freshness r.bridge w = none := by
      rw [freshness_settle, htracked]
      split <;> rfl
    rw [hsettle]
    rfl
  | some tracked =>
    obtain ⟨row, hrow, hlw⟩ := settle_written htracked
    rw [hrow, Option.bind_some]
    simp only [staleAlert, lastAlerted_lt_iff ht hr htracked, hlw]
    split <;> rfl

theorem exact_turnOf (ht : Tracks s) (hr : r.Ok) : Exact s.history (turnOf r s.db) where
  streak := outages_turnOf ht r
  streak_le b db hdb := by
    rcases List.mem_cons.1 hdb with rfl | hdb
    · exact lastAlerted_le_track ht.le r b
    · rw [List.mem_singleton.1 hdb]
      exact lastAlerted_le_settle ht.le r b
  streakAlert := by
    have hstreak : ((turnOf r s.db).after.loadState r.bridge).streak = r.newStreak (s.db.loadState r.bridge).streak :=
      (streak_settle r s.db r.bridge).trans (if_pos rfl)
    rw [turnOf_run, hstreak, ← ht.marked]
    change (alertsOf r s.db).filter (·.wing = none) = _
    rw [filter_streakAlert, streakAlert_eq]
    split <;> rfl
  staleAlert := staleAlert_turnOf ht hr
  streakMark b hnone := by
    have hunsent : ¬ (b = r.bridge ∧ streakSent r s.db) := by
      intro hsent
      rw [sentStreak_turnOf, if_pos hsent] at hnone
      cases hnone
    change ((settle r s.db).loadState b).lastAlertedStreak ≤ (s.db.loadState b).lastAlertedStreak
    rw [lastAlertedStreak_settle, if_neg hunsent]
    split
    · exact Nat.zero_le _
    · exact le_rfl
  staleMark b w row hunsent hrow := by
    obtain ⟨tracked, htracked, -, hla⟩ := written_settle hrow
    rw [sentStale_turnOf] at hunsent
    rw [if_neg (of_decide_eq_false hunsent)] at hla
    rcases track_cases hr htracked with ⟨-, hbefore⟩ | ⟨-, halerted, -⟩
    · exact .inr ⟨tracked, hbefore, hla⟩
    · exact .inl (hla.trans halerted)
  bridge _ := bridgeName_of_mem
  written b w row hrow := by
    rcases refreshed_track (b := b) (w := w) hr s.db with hsame | ⟨row', hrow', -, -, hlater⟩
    · obtain ⟨row', hrow', hlw⟩ := settle_written (hsame.trans hrow)
      exact ⟨row', hrow', hlw.ge⟩
    · obtain ⟨row'', hrow'', hlw⟩ := settle_written hrow'
      exact ⟨row'', hrow'', hlw ▸ (hlater row hrow).le⟩

/-- The columns and all the turns so far. -/
def Sound (s : Watch) : Prop := Tracks s ∧ ∀ newer t earlier, s.history = newer ++ t :: earlier → Exact earlier t

theorem sound_record (h : Sound s) (hr : r.Ok) : Sound (s.record r) := by
  refine ⟨tracks_record h.1 hr, ?_⟩
  intro newer t earlier heq
  rw [record_eq] at heq
  cases newer with
  | nil =>
    obtain ⟨rfl, rfl⟩ := List.cons.inj heq
    exact exact_turnOf h.1 hr
  | cons t' newer => exact h.2 newer t earlier (List.cons.inj heq).2

theorem sound_watched {runs : List Run} (h : ∀ r ∈ runs, r.Ok) : Sound (watched runs) := by
  refine run_inv_along (fun s r hs hr => sound_record hs hr) ⟨tracks_empty, ?_⟩ (along_iff.2 ?_)
  · intro newer t earlier heq
    simp at heq
  · rintro before r after rfl
    exact h r (by simp)

/-- What was sent since the last advance, was sent without an advance after it. -/
theorem sentSince_append {between earlier : List Turn} {t : Turn} (hsent : t.sentStale b w = true)
    (hstill : ∀ u ∈ between, u.advances b w = false) : sentSince b w (between ++ t :: earlier) = true := by
  induction between with
  | nil => simp [sentSince, hsent]
  | cons u between ih =>
    rw [List.forall_mem_cons] at hstill
    rw [List.cons_append, sentSince, hstill.1, ih hstill.2]
    simp

/-- A staleness alert that is delivered is one of the call. -/
theorem exists_of_sentStale {t : Turn} (h : t.sentStale b w = true) :
    ∃ a ∈ t.alerts, a.bridgeName = b ∧ a.wing = some w := by
  rw [Turn.sentStale, List.any_eq_true] at h
  obtain ⟨a, ha, hw⟩ := h
  exact ⟨a, (List.mem_filter.1 ha).1, of_decide_eq_true hw⟩

end

/-- A run of a bridge whose source cannot be read, with nothing written since the day 1. -/
def failedRun (day : ℚ) (deliver : Option (AlertEvent → Bool)) : Run :=
  ⟨⟨"codex-bridge", 1, 0, [("sessions", 86400)], some (day * 86400)⟩, deliver, 3, 7, "", 0⟩

/-- The sink is down when the alerts are first raised. -/
def downThenUp : List Run :=
  [failedRun 1 none, failedRun 2 none, failedRun 8 (some fun _ => false), failedRun 9 none, failedRun 10 none]

example : (watched downThenUp).history.map (fun t => t.alerts.map (·.wing)) =
    [[none], [none, some "sessions"], [none, some "sessions"], [], []] := by decide +kernel

end Panella.BridgeHealth

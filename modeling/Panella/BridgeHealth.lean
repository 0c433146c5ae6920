import Panella.Lib.Decimal
import Panella.Lib.OrderedDict
import Panella.Lib.Text

/-!
# Bridge health (`panella/bridge_health.py:41-365`)

| here | there |
| --- | --- |
| `Db.upsertWing`, `Db.markAlerted` | one turn of `_persist_wing_freshness` and of `_mark_wings_alerted` (:127-148, :169-176) |
| `Db.queryStaleWings` | `_query_stale_wings` (:151-166) |
| `track`, `alertsOf`, `settle` | the three phases of `record_run` (:226-348) |
| `recordRun` | `record_run` (:179-360) |

What a call leaves in the columns (`loadState_settle`, `freshness_settle`) and what it raises (`filter_streakAlert`,
`filter_staleAlert`). Times are exact.
-/

namespace Panella.BridgeHealth

inductive Severity
  | p1
  | p2
deriving DecidableEq

inductive AlertPayload
  | streak (streak : Nat) (threshold : Int)
  | wing (wing : String) (ageDays : ℚ) (thresholdDays : Int)
deriving DecidableEq

/-- An alert; its kind is that of its payload. -/
structure AlertEvent where
  bridgeName : String
  severity : Severity
  message : String
  payload : AlertPayload
deriving DecidableEq

/-- The wing a staleness alert is about. -/
def AlertEvent.wing (a : AlertEvent) : Option String :=
  match a.payload with
  | .streak .. => none
  | .wing wing .. => some wing

/-- `f"{x:.1f}"`. -/
def oneDecimal (x : ℚ) : String :=
  let tenths := (Decimal.roundHalfEven (|x| * 10)).toNat
  (if x < 0 then "-" else "") ++ toString (tenths / 10) ++ "." ++ toString (tenths % 10)

/-- The `source_outage_streak` alert (:249-262). -/
def streakEvent (bridge : String) (streak : Nat) (threshold : Int) : AlertEvent :=
  ⟨bridge, .p1, bridge ++ " source-outage streak=" ++ toString streak ++ " (threshold=" ++ toString threshold ++ "); ~" ++
    toString (streak * 24) ++ "h since last successful read", .streak streak threshold⟩

/-- The `corpus_stale_wing` alert (:285-299). -/
def staleEvent (bridge wing : String) (ageDays : ℚ) (thresholdDays : Int) : AlertEvent :=
  ⟨bridge, .p2, bridge ++ " wing=" ++ wing ++ " stale; " ++ oneDecimal ageDays ++ "d since last write (threshold=" ++
    toString thresholdDays ++ "d)", .wing wing ageDays thresholdDays⟩

/-! ## The tables -/

/-- A row of `bridge_health`. -/
structure HealthState where
  streak : Nat
  lastAlertedStreak : Nat
  lastRunAt : ℚ

/-- The primary key of `wing_freshness`. -/
structure WingKey where
  bridgeName : String
  wing : String
deriving DecidableEq

/-- The other columns of a row. -/
structure WingFreshness where
  lastWrittenAt : ℚ
  lastAlertedAt : ℚ

/-- The two tables, by their primary keys. -/
structure Db where
  bridgeHealth : List (String × HealthState)
  wingFreshness : List (WingKey × WingFreshness)
  keys : (wingFreshness.map Prod.fst).Nodup

namespace Db

def empty : Db := ⟨[], [], List.nodup_nil⟩

/-- `_load_state`. -/
def loadState (db : Db) (bridge : String) : HealthState := (db.bridgeHealth.lookup bridge).getD ⟨0, 0, 0⟩

/-- `_persist_state`. -/
def persistState (db : Db) (bridge : String) (s : HealthState) : Db :=
  { db with bridgeHealth := OrderedDict.put db.bridgeHealth bridge s }

def freshness (db : Db) (bridge wing : String) : Option WingFreshness := db.wingFreshness.lookup ⟨bridge, wing⟩

def setFreshness (db : Db) (bridge wing : String) (row : WingFreshness) : Db :=
  { db with
    wingFreshness := OrderedDict.put db.wingFreshness ⟨bridge, wing⟩ row
    keys := OrderedDict.nodup_keys_put db.keys _ row }

/-- A write time of a wing. -/
def upsertWing (bridge : String) (db : Db) (w : String × ℚ) : Db :=
  db.setFreshness bridge w.1
    (match db.freshness bridge w.1 with
    | none => ⟨w.2, 0⟩
    | some row => ⟨max row.lastWrittenAt w.2, if row.lastWrittenAt < w.2 then 0 else row.lastAlertedAt⟩)

/-- `_query_stale_wings`: in some order of the rows. -/
def queryStaleWings (db : Db) (bridge : String) (now thresholdSeconds : ℚ) : List (String × ℚ) :=
  db.wingFreshness.filterMap fun row =>
    if row.1.bridgeName ≠ bridge then none
    else if now - row.2.lastWrittenAt < thresholdSeconds then none
    else if row.2.lastWrittenAt ≤ row.2.lastAlertedAt then none
    else some (row.1.wing, row.2.lastWrittenAt)

/-- The `UPDATE` of `_mark_wings_alerted`. -/
def markAlerted (bridge : String) (now : ℚ) (db : Db) (wing : String) : Db :=
  match db.freshness bridge wing with
  | none => db
  | some row => db.setFreshness bridge wing { row with lastAlertedAt := now }

/-- The `UPDATE` of `last_alerted_streak`. -/
def markStreak (db : Db) (bridge : String) (streak : Nat) : Db :=
  match db.bridgeHealth.lookup bridge with
  | none => db
  | some s => db.persistState bridge { s with lastAlertedStreak := streak }

end Db

/-! ## A run -/

structure RunSummary where
  bridgeName : String
  sourceErrorsCount : Int
  newSessionsWritten : Int
  wingsWrittenAt : List (String × ℚ)
  now : Option ℚ

/-- A call of `record_run`. Of `deliver` only matters which alerts it lets through without raising. -/
structure Run where
  summary : RunSummary
  deliver : Option (AlertEvent → Bool)
  streakThreshold : Int
  stalenessThresholdDays : Int
  /-- `PANELLA_MEMORY_DISABLE_FRESHNESS_ALERTS`, empty where it is not set. -/
  disableFreshnessAlerts : String
  /-- `time.time()`. -/
  clock : ℚ

namespace Run

def bridge (r : Run) : String := r.summary.bridgeName

def now (r : Run) : ℚ := r.summary.now.getD r.clock

/-- `_env_disabled`. -/
def disabled (r : Run) : Bool :=
  ["1", "true", "yes", "on"].contains
    (String.ofList ((PyText.stripSpace r.disableFreshnessAlerts).toList.map Char.toLower))

/-- `had_clean_run`. -/
def clean (r : Run) : Bool := r.summary.sourceErrorsCount = 0 && 0 < r.summary.newSessionsWritten

/-- `new_streak`. -/
def newStreak (r : Run) (streak : Nat) : Nat :=
  if r.clean then 0 else if 0 < r.summary.sourceErrorsCount then streak + 1 else streak

/-- `threshold_seconds`. -/
def thresholdSeconds (r : Run) : ℚ := r.stalenessThresholdDays * 86400

/-- The alert gets to its sink; without a `deliver` the caller is the sink. -/
def reaches (r : Run) (a : AlertEvent) : Bool :=
  match r.deliver with
  | none => true
  | some deliver => deliver a

end Run

/-- What phase 1 persists. -/
def track (r : Run) (db : Db) : Db :=
  let state := db.loadState r.bridge
  let persistedLastAlerted := if r.clean then 0 else state.lastAlertedStreak
  r.summary.wingsWrittenAt.foldl (Db.upsertWing r.bridge)
    (db.persistState r.bridge ⟨r.newStreak state.streak, persistedLastAlerted, r.now⟩)

/-- `streak_alert`. -/
def streakAlert (r : Run) (db : Db) : Option AlertEvent :=
  let state := db.loadState r.bridge
  let newStreak := r.newStreak state.streak
  if !r.disabled && decide (r.streakThreshold ≤ newStreak) && decide (state.lastAlertedStreak < newStreak) then
    some (streakEvent r.bridge newStreak r.streakThreshold)
  else none

/-- `wing_alerts_by_wing`, after phase 1 has persisted the writes. -/
def wingAlerts (r : Run) (tracked : Db) : List (String × AlertEvent) :=
  if r.disabled then []
  else
    (tracked.queryStaleWings r.bridge r.now r.thresholdSeconds).map fun (wing, lastWritten) =>
      (wing, staleEvent r.bridge wing ((r.now - lastWritten) / 86400) r.stalenessThresholdDays)

/-- The alerts of phase 1. -/
def alertsOf (r : Run) (db : Db) : List AlertEvent := (streakAlert r db).toList ++ (wingAlerts r (track r db)).map (·.2)

/-- `streak_delivered`. -/
def streakSent (r : Run) (db : Db) : Bool := (streakAlert r db).any r.reaches

/-- `wings_delivered`. -/
def wingsSent (r : Run) (db : Db) : List String :=
  ((wingAlerts r (track r db)).filter fun wa => r.reaches wa.2).map (·.1)

/-- Phase 3: the marks of the alerts that were delivered. -/
def settle (r : Run) (db : Db) : Db :=
  let tracked := track r db
  let marked := if streakSent r db then tracked.markStreak r.bridge (r.newStreak (db.loadState r.bridge).streak) else tracked
  (wingsSent r db).foldl (Db.markAlerted r.bridge r.now) marked

/-- `record_run`. -/
def recordRun (r : Run) (db : Db) : List AlertEvent × Db :=
  if r.disabled then ([], track r db) else (alertsOf r db, settle r db)

/-- Thresholds and write times are positive. -/
structure Run.Ok (r : Run) : Prop where
  streak : 0 < r.streakThreshold
  staleness : 0 < r.stalenessThresholdDays
  writes : ∀ w ∈ r.summary.wingsWrittenAt, 0 < w.2

/-! ## The columns of a bridge -/

section
variable {db : Db} {r : Run} {bridge wing b w : String}

namespace Db

@[simp] theorem loadState_persistState (db : Db) (bridge b : String) (s : HealthState) :
    (db.persistState bridge s).loadState b = if b = bridge then s else db.loadState b := by
  unfold loadState persistState
  rw [OrderedDict.lookup_put]
  split <;> rfl

@[simp] theorem freshness_persistState (db : Db) (bridge : String) (s : HealthState) :
    (db.persistState bridge s).freshness b w = db.freshness b w := rfl

@[simp] theorem loadState_setFreshness (db : Db) (row : WingFreshness) :
    (db.setFreshness bridge wing row).loadState b = db.loadState b := rfl

@[simp] theorem freshness_setFreshness (db : Db) (bridge wing b w : String) (row : WingFreshness) :
    (db.setFreshness bridge wing row).freshness b w = if b = bridge ∧ w = wing then some row else db.freshness b w := by
  unfold freshness setFreshness
  dsimp only
  simp only [OrderedDict.lookup_put, WingKey.mk.injEq]

@[simp] theorem bridgeHealth_upserts (writes : List (String × ℚ)) (db : Db) :
    (writes.foldl (upsertWing bridge) db).bridgeHealth = db.bridgeHealth := by
  induction writes generalizing db with
  | nil => rfl
  | cons w writes ih =>
    rw [List.foldl_cons, ih, upsertWing]
    rfl

@[simp] theorem loadState_markAlerted (db : Db) (now : ℚ) : (markAlerted bridge now db wing).loadState b = db.loadState b := by
  unfold markAlerted
  split <;> rfl

@[simp] theorem loadState_marks (wings : List String) (now : ℚ) (db : Db) :
    (wings.foldl (markAlerted bridge now) db).loadState b = db.loadState b := by
  induction wings generalizing db with
  | nil => rfl
  | cons w wings ih => rw [List.foldl_cons, ih, loadState_markAlerted]

@[simp] theorem freshness_markStreak (db : Db) (streak : Nat) :
    (db.markStreak bridge streak).freshness b w = db.freshness b w := by
  unfold markStreak
  split <;> rfl

end Db

theorem loadState_track (r : Run) (db : Db) (b : String) : (track r db).loadState b =
    if b = r.bridge then
      ⟨r.newStreak (db.loadState b).streak, if r.clean then 0 else (db.loadState b).lastAlertedStreak, r.now⟩
    else db.loadState b := by
  have hpersisted := Db.loadState_persistState (b := b) db r.bridge
    ⟨r.newStreak (db.loadState r.bridge).streak, if r.clean then 0 else (db.loadState r.bridge).lastAlertedStreak, r.now⟩
  rw [track, Db.loadState, Db.bridgeHealth_upserts, ← Db.loadState, hpersisted]
  split
  · next h => rw [h]
  · rfl

theorem loadState_settle (r : Run) (db : Db) (b : String) : (settle r db).loadState b =
    if b = r.bridge ∧ streakSent r db then
      { (track r db).loadState b with lastAlertedStreak := r.newStreak (db.loadState b).streak }
    else (track r db).loadState b := by
  have hrow : ∃ state, (track r db).bridgeHealth.lookup r.bridge = some state := by
    simp [track, Db.persistState]
  obtain ⟨state, hstate⟩ := hrow
  unfold settle
  dsimp only
  rw [Db.loadState_marks]
  by_cases hsent : streakSent r db
  · rw [if_pos hsent, Db.markStreak, hstate]
    dsimp only
    rw [Db.loadState_persistState]
    by_cases hb : b = r.bridge
    · subst hb
      simp [hsent, Db.loadState, hstate]
    · rw [if_neg hb, if_neg fun h => hb h.1]
  · rw [if_neg hsent, if_neg fun h => hsent h.2]

/-! ## The columns of a wing -/

/-- The row is the one before, or that of a later write. -/
def Refreshed (row? row'? : Option WingFreshness) : Prop :=
  row'? = row? ∨ ∃ row', row'? = some row' ∧ row'.lastAlertedAt = 0 ∧ 0 < row'.lastWrittenAt ∧
    ∀ row, row? = some row → row.lastWrittenAt < row'.lastWrittenAt

theorem Refreshed.trans {x y z : Option WingFreshness} (h : Refreshed x y) (h' : Refreshed y z) : Refreshed x z := by
  obtain rfl | ⟨row', rfl, halerted, hpos, hlater⟩ := h
  · exact h'
  obtain rfl | ⟨row'', rfl, halerted', hpos', hlater'⟩ := h'
  · exact .inr ⟨row', rfl, halerted, hpos, hlater⟩
  · exact .inr ⟨row'', rfl, halerted', hpos', fun row hrow => (hlater row hrow).trans (hlater' row' rfl)⟩

theorem refreshed_upsertWing (db : Db) {x : String × ℚ} (hx : 0 < x.2) :
    Refreshed (db.freshness b w) ((Db.upsertWing bridge db x).freshness b w) := by
  rw [Db.upsertWing, Db.freshness_setFreshness]
  split
  · next h =>
    obtain ⟨rfl, rfl⟩ := h
    cases hrow : db.freshness b x.1 with
    | none => exact .inr ⟨_, rfl, rfl, hx, by simp⟩
    | some row =>
      dsimp only
      by_cases hlater : row.lastWrittenAt < x.2
      · rw [if_pos hlater, max_eq_right hlater.le]
        refine .inr ⟨_, rfl, rfl, hx, ?_⟩
        rintro row' h
        cases h
        exact hlater
      · rw [if_neg hlater, max_eq_left (not_lt.1 hlater)]
        exact .inl rfl
  · exact .inl rfl

theorem refreshed_track (hr : r.Ok) (db : Db) : Refreshed (db.freshness b w) ((track r db).freshness b w) := by
  have hupserts : ∀ (writes : List (String × ℚ)) (db : Db), (∀ x ∈ writes, 0 < x.2) →
      Refreshed (db.freshness b w) ((writes.foldl (Db.upsertWing r.bridge) db).freshness b w) := by
    intro writes
    induction writes with
    | nil => exact fun db _ => .inl rfl
    | cons x writes ih =>
      intro db hpos
      rw [List.forall_mem_cons] at hpos
      exact (refreshed_upsertWing db hpos.1).trans (ih _ hpos.2)
  have h := hupserts r.summary.wingsWrittenAt (db.persistState r.bridge
    ⟨r.newStreak (db.loadState r.bridge).streak, if r.clean then 0 else (db.loadState r.bridge).lastAlertedStreak, r.now⟩)
    hr.writes
  rwa [Db.freshness_persistState] at h

theorem freshness_markAlerted (db : Db) (now : ℚ) : (Db.markAlerted bridge now db wing).freshness b w =
    if b = bridge ∧ w = wing then (db.freshness b w).map fun row => { row with lastAlertedAt := now } else db.freshness b w := by
  unfold Db.markAlerted
  cases hrow : db.freshness bridge wing with
  | none =>
    dsimp only
    split
    · next h => rw [h.1, h.2, hrow]; rfl
    · rfl
  | some row =>
    dsimp only
    rw [Db.freshness_setFreshness]
    split
    · next h => rw [h.1, h.2, hrow]; rfl
    · rfl

theorem freshness_marks (wings : List String) (now : ℚ) (db : Db) :
    (wings.foldl (Db.markAlerted bridge now) db).freshness b w =
      if b = bridge ∧ w ∈ wings then (db.freshness b w).map fun row => { row with lastAlertedAt := now }
      else db.freshness b w := by
  induction wings generalizing db with
  | nil => simp
  | cons wing wings ih =>
    rw [List.foldl_cons, ih, freshness_markAlerted]
    by_cases hb : b = bridge
    · by_cases hw : w = wing
      · by_cases hin : w ∈ wings
        · simp [hb, hw ▸ hin, hw, Option.map_map, Function.comp_def]
        · simp [hb, hw ▸ hin, hw]
      · simp [hb, hw]
    · simp [hb]

theorem freshness_settle (r : Run) (db : Db) (b w : String) : (settle r db).freshness b w =
    if b = r.bridge ∧ w ∈ wingsSent r db then
      ((track r db).freshness b w).map fun row => { row with lastAlertedAt := r.now }
    else (track r db).freshness b w := by
  have hmarked : ∀ db' : Db, (if streakSent r db then db'.markStreak r.bridge (r.newStreak (db.loadState r.bridge).streak)
      else db').freshness b w = db'.freshness b w := by
    intro db'
    split
    · exact Db.freshness_markStreak _ _
    · rfl
  unfold settle
  dsimp only
  rw [freshness_marks, hmarked]

/-! ## The alerts of a call -/

theorem streakAlert_disabled (h : r.disabled = true) (db : Db) : streakAlert r db = none := by
  simp [streakAlert, h]

theorem wingAlerts_disabled (h : r.disabled = true) (db : Db) : wingAlerts r db = [] := if_pos h

/-- While alerts are disabled there is none, and nothing to mark. -/
theorem recordRun_eq (r : Run) (db : Db) : recordRun r db = (alertsOf r db, settle r db) := by
  unfold recordRun
  by_cases h : r.disabled = true
  · rw [if_pos h]
    simp [alertsOf, settle, streakSent, wingsSent, streakAlert_disabled h, wingAlerts_disabled h]
  · exact if_neg h

/-- The staleness alert of a row. -/
def staleAlert (r : Run) (wing : String) (row : WingFreshness) : Option AlertEvent :=
  if r.disabled = false ∧ r.thresholdSeconds ≤ r.now - row.lastWrittenAt ∧ row.lastAlertedAt < row.lastWrittenAt then
    some (staleEvent r.bridge wing ((r.now - row.lastWrittenAt) / 86400) r.stalenessThresholdDays)
  else none

theorem wingAlerts_eq (r : Run) (db : Db) : wingAlerts r db = db.wingFreshness.filterMap fun row =>
    if row.1.bridgeName = r.bridge then (staleAlert r row.1.wing row.2).map fun a => (row.1.wing, a) else none := by
  unfold wingAlerts
  by_cases hdisabled : r.disabled = true
  · rw [if_pos hdisabled]
    symm
    apply List.filterMap_eq_nil_iff.2
    intro row _
    simp [staleAlert, hdisabled]
  · rw [if_neg hdisabled, Db.queryStaleWings, List.map_filterMap]
    apply List.filterMap_congr
    intro row _
    by_cases hb : row.1.bridgeName = r.bridge
    · by_cases hdue : r.now - row.2.lastWrittenAt < r.thresholdSeconds
      · simp [hb, hdue, staleAlert]
      · by_cases halerted : row.2.lastWrittenAt ≤ row.2.lastAlertedAt
        · simp [hb, hdue, halerted, staleAlert]
        · simp [hb, hdue, halerted, staleAlert, not_le.1 halerted, not_lt.1 hdue, hdisabled]
    · simp [hb]

theorem staleAlert_wing {row : WingFreshness} {a : AlertEvent} (h : staleAlert r wing row = some a) :
    a.wing = some wing ∧ a.bridgeName = r.bridge := by
  unfold staleAlert at h
  split at h
  · cases h
    exact ⟨rfl, rfl⟩
  · cases h

/-- A staleness alert is about a wing of the bridge. -/
theorem wing_of_mem_wingAlerts {wa : String × AlertEvent} (h : wa ∈ wingAlerts r db) :
    wa.2.wing = some wa.1 ∧ wa.2.bridgeName = r.bridge := by
  rw [wingAlerts_eq] at h
  obtain ⟨row, -, h⟩ := List.mem_filterMap.1 h
  split at h
  · obtain ⟨a, ha, rfl⟩ := Option.map_eq_some_iff.1 h
    exact staleAlert_wing ha
  · cases h

/-- The alerts of one wing are those of its row. -/
theorem filter_wingAlerts (r : Run) (db : Db) (w : String) :
    (wingAlerts r db).filter (fun wa => wa.2.wing = some w) =
      ((db.freshness r.bridge w).bind (staleAlert r w)).toList.map fun a => (w, a) := by
  have hrow : (wingAlerts r db).filter (fun wa => wa.2.wing = some w) =
      (db.wingFreshness.filter (·.1 = ⟨r.bridge, w⟩)).filterMap fun row => (staleAlert r w row.2).map fun a => (w, a) := by
    rw [wingAlerts_eq, List.filter_filterMap, List.filterMap_filter]
    apply List.filterMap_congr
    rintro ⟨⟨bridge, wing⟩, row⟩ -
    by_cases hb : bridge = r.bridge
    · subst hb
      cases halert : staleAlert r wing row with
      | none =>
        by_cases hw : wing = w
        · subst hw
          simp [halert]
        · simp [hw]
      | some a =>
        have hwing := (staleAlert_wing halert).1
        by_cases hw : wing = w
        · subst hw
          simp [halert, hwing, Option.filter]
        · simp [hwing, hw, Option.filter]
    · simp [hb]
  rw [hrow, OrderedDict.filter_key db.keys]
  change List.filterMap _ ((db.freshness r.bridge w).toList.map _) = _
  cases db.freshness r.bridge w with
  | none => rfl
  | some row =>
    cases halert : staleAlert r w row <;> simp [halert]

theorem filter_streakAlert (r : Run) (db : Db) : (alertsOf r db).filter (·.wing = none) = (streakAlert r db).toList := by
  have hstreak : (streakAlert r db).toList.filter (·.wing = none) = (streakAlert r db).toList := by
    unfold streakAlert
    dsimp only
    split <;> rfl
  have hwings : ((wingAlerts r (track r db)).map (·.2)).filter (·.wing = none) = [] := by
    apply List.filter_eq_nil_iff.2
    intro a ha
    obtain ⟨wa, hwa, rfl⟩ := List.mem_map.1 ha
    simp [(wing_of_mem_wingAlerts hwa).1]
  rw [alertsOf, List.filter_append, hstreak, hwings, List.append_nil]

theorem filter_staleAlert (r : Run) (db : Db) (w : String) : (alertsOf r db).filter (·.wing = some w) =
    (((track r db).freshness r.bridge w).bind (staleAlert r w)).toList := by
  have hstreak : (streakAlert r db).toList.filter (·.wing = some w) = [] := by
    unfold streakAlert
    dsimp only
    split <;> rfl
  rw [alertsOf, List.filter_append, hstreak, List.nil_append, List.filter_map]
  have hwings := filter_wingAlerts r (track r db) w
  simp only [Function.comp_def, hwings, List.map_map, List.map_id']

theorem bridgeName_of_mem {a : AlertEvent} (h : a ∈ alertsOf r db) : a.bridgeName = r.bridge := by
  rw [alertsOf, List.mem_append] at h
  rcases h with h | h
  · unfold streakAlert at h
    dsimp only at h
    split at h
    · rw [List.mem_singleton.1 h]
      rfl
    · cases h
  · obtain ⟨wa, hwa, rfl⟩ := List.mem_map.1 h
    exact (wing_of_mem_wingAlerts hwa).2

theorem mem_wingsSent : w ∈ wingsSent r db ↔
    ∃ row a, (track r db).freshness r.bridge w = some row ∧ staleAlert r w row = some a ∧ r.reaches a = true := by
  have hmem : ∀ a, (w, a) ∈ wingAlerts r (track r db) ↔ ((track r db).freshness r.bridge w).bind (staleAlert r w) = some a := by
    intro a
    have hiff : (w, a) ∈ (wingAlerts r (track r db)).filter (fun wa => wa.2.wing = some w) ↔
        (w, a) ∈ wingAlerts r (track r db) := by
      rw [List.mem_filter]
      exact ⟨And.left, fun h => ⟨h, by simpa using (wing_of_mem_wingAlerts h).1⟩⟩
    rw [← hiff, filter_wingAlerts]
    simp
  unfold wingsSent
  simp only [List.mem_map, List.mem_filter]
  constructor
  · rintro ⟨⟨wing, a⟩, ⟨ha, hreaches⟩, rfl⟩
    obtain ⟨row, hrow, halert⟩ := Option.bind_eq_some_iff.1 ((hmem a).1 ha)
    exact ⟨row, a, hrow, halert, hreaches⟩
  · rintro ⟨row, a, hrow, halert, hreaches⟩
    exact ⟨(w, a), ⟨(hmem a).2 (Option.bind_eq_some_iff.2 ⟨row, hrow, halert⟩), hreaches⟩, rfl⟩

end

end Panella.BridgeHealth

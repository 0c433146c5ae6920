import Mathlib.Data.Rat.Floor
import Panella.Lib.SlidingWindow
import Panella.QuotaPreflight

/-!
# The write quota over a process (`panella/client.py:112-132`, `:890-933`, `panella/http/routes/common.py:17-27`)

The times of the last minute are those of one client object, and every request of the HTTP facade makes its own; the count of
the day is the counter of the process, which a flush clears and midnight does not. **`writeQuota_held`** says what that is
enough for: where the client has made as many of the last minute's writes as the burst allows, if there are so many, and the
counter has reached the day's limit exactly if the day's writes have, both quotas are those of the profile.
-/

namespace Panella

open Machine SlidingWindow

/-- What a call of `write` is to the quotas: a write that is recorded, or a refusal. -/
inductive QuotaOutcome
  | counted (client : Nat) (time : Rat)
  | refused (now : Rat)

def QuotaOutcome.time? : QuotaOutcome → Option Rat
  | .counted _ time => some time
  | .refused _ => none

def QuotaOutcome.timeOf? (client : Nat) : QuotaOutcome → Option Rat
  | .counted client' time => if client' = client then some time else none
  | .refused _ => none

/-- The times of the counted writes. -/
def countedTimes (history : List QuotaOutcome) : List Rat := history.filterMap QuotaOutcome.time?

/-- Those of one client. -/
def countedBy (client : Nat) (history : List QuotaOutcome) : List Rat := history.filterMap (QuotaOutcome.timeOf? client)

/-- The UTC day of a reading of the clock. -/
def utcDay (t : Rat) : Int := ⌊t / 86400⌋

/-- The counted writes of a day. -/
def countedOn (day : Int) (history : List QuotaOutcome) : List Rat := (countedTimes history).filter fun t => utcDay t = day

/-- The outcome of a call through a client. -/
def CountedClient.outcome (d : Deployment) (p : WriteProfile) (w : CountedWrite) (client : Nat) (s : CountedClient) :
    Option QuotaOutcome :=
  match writeArguments d p.toAgentProfile w.principal w.readings.now w.call with
  | .error _ => none
  | .ok _ =>
    match s.enforceQuota p.toAgentProfile w.readings.quota with
    | (_, .error _) => some (.refused w.readings.quota)
    | (pruned, .ok ()) =>
      if pruned.writeTimestamps.length < (s.write d p w).1.writeTimestamps.length then some (.counted client w.readings.recorded)
      else none

/-- The clients of a profile in a process; one that is new has no times. -/
structure QuotaProcess where
  store : Store
  outbox : Outbox
  counters : MemoryCounters
  stamps : Nat → List Rat
  history : List QuotaOutcome

inductive QuotaAction
  | write (client : Nat) (w : CountedWrite)
  /-- A flush, or a count of something else. -/
  | elsewhere (use : CounterUse)

namespace QuotaProcess

def start : QuotaProcess := ⟨.empty, .empty, ⟨[]⟩, fun _ => [], []⟩

/-- The client as it is. -/
def client (s : QuotaProcess) (client : Nat) : CountedClient := ⟨s.store, s.outbox, s.counters, s.stamps client⟩

def step (d : Deployment) (p : WriteProfile) (s : QuotaProcess) : QuotaAction → QuotaProcess
  | .write client w =>
    let after := ((s.client client).write d p w).1
    { store := after.store
      outbox := after.outbox
      counters := after.counters
      stamps := fun client' => if client' = client then after.writeTimestamps else s.stamps client'
      history := s.history ++ ((s.client client).outcome d p w client).toList }
  | .elsewhere use => { s with counters := use.apply s.counters }

end QuotaProcess

/-- The readings of the clock. -/
def QuotaAction.looks : QuotaAction → List Rat
  | .write _ w => [w.readings.quota, w.readings.recorded]
  | .elsewhere _ => []

/-- Both quotas, of the profile. -/
structure QuotaHeld (p : AgentProfile) (history : List QuotaOutcome) : Prop where
  burst : ∀ start, ((window 60 start (countedTimes history)).length : Int) ≤ p.writeQuota.burstMaxPerMinute
  daily : ∀ day, ((countedOn day history).length : Int) ≤ p.writeQuota.dailyMaxDrawers
  refused : ∀ before now after, history = before ++ .refused now :: after →
    p.writeQuota.burstMaxPerMinute ≤ (recent 60 now (countedTimes before)).length ∨
      p.writeQuota.dailyMaxDrawers ≤ (countedOn (utcDay now) before).length

/-- What a client and the counter know is what they have to know. -/
def Informed (p : AgentProfile) (s : QuotaProcess) : QuotaAction → Prop
  | .write client w =>
    (p.writeQuota.burstMaxPerMinute ≤ (recent 60 w.readings.quota (countedTimes s.history)).length →
      p.writeQuota.burstMaxPerMinute ≤ (recent 60 w.readings.quota (countedBy client s.history)).length) ∧
    (p.writeQuota.dailyMaxDrawers ≤ (s.counters.count p.name "writes" : Int) ↔
      p.writeQuota.dailyMaxDrawers ≤ (countedOn (utcDay w.readings.quota) s.history).length)
  | .elsewhere _ => True

variable {d : Deployment} {p : WriteProfile} {w : CountedWrite} {s : QuotaProcess} {c : CountedClient} {client client' : Nat}
  {history : List QuotaOutcome} {now now' : Rat}

/-! ## One call -/

/-- What `_enforce_write_quota` leaves of the times. -/
theorem enforceQuota_stamps (c : CountedClient) (p : AgentProfile) (now : Rat) :
    (c.enforceQuota p now).1.writeTimestamps = c.writeTimestamps ∨
      (c.enforceQuota p now).1.writeTimestamps = recent 60 now c.writeTimestamps := by
  have hclient := congrArg (fun x => x.count.writeTimestamps) (c.enforceQuota_client p now).2
  have hstamps : (c.enforceQuota p now).1.writeTimestamps = ((c.client p).count.enforced p now).writeTimestamps := hclient
  rw [hstamps]
  unfold WriteCount.enforced
  split
  · exact .inl rfl
  · exact .inr rfl

/-- **What a call is to the quotas.** -/
inductive Charge (p : AgentProfile) (c : CountedClient) (w : CountedWrite) (client : Nat) : Option QuotaOutcome → List Rat → Prop
  | uncounted {stamps : List Rat} (h : stamps = c.writeTimestamps ∨ stamps = recent 60 w.readings.quota c.writeTimestamps) :
    Charge p c w client none stamps
  | refused {stamps : List Rat} (h : stamps = c.writeTimestamps ∨ stamps = recent 60 w.readings.quota c.writeTimestamps)
    (hfull : p.writeQuota.dailyMaxDrawers ≤ (c.counters.count p.name "writes" : Int) ∨
      p.writeQuota.burstMaxPerMinute ≤ (recent 60 w.readings.quota c.writeTimestamps).length) :
    Charge p c w client (some (.refused w.readings.quota)) stamps
  | counted (hday : (c.counters.count p.name "writes" : Int) < p.writeQuota.dailyMaxDrawers)
    (hroom : ((recent 60 w.readings.quota c.writeTimestamps).length : Int) < p.writeQuota.burstMaxPerMinute) :
    Charge p c w client (some (.counted client w.readings.recorded))
      (recent 60 w.readings.quota c.writeTimestamps ++ [w.readings.recorded])

/-- After the quota, a call adds its time or none. -/
theorem write_stamps (d : Deployment) (p : WriteProfile) (c : CountedClient) (w : CountedWrite) {infer : Bool} {pruned : CountedClient}
    (hargs : writeArguments d p.toAgentProfile w.principal w.readings.now w.call = .ok infer)
    (hquota : c.enforceQuota p.toAgentProfile w.readings.quota = (pruned, .ok ())) :
    (c.write d p w).1.writeTimestamps = pruned.writeTimestamps ∨
      (c.write d p w).1.writeTimestamps = pruned.writeTimestamps ++ [w.readings.recorded] := by
  unfold CountedClient.write
  rw [hargs, hquota]
  dsimp only
  split
  · exact .inl rfl
  · next tenantId _ =>
    have hcommit := commitPrepared_count d p w.principal w.sink w.readings w.replies w.call
      (preparedRow d p.toAgentProfile w.principal w.readings.toWriteClock w.call tenantId infer)
      (CountedClient.client { pruned with counters := w.between.foldl CounterUse.apply pruned.counters } p.toAgentProfile)
    unfold CountedClient.charged
    dsimp only
    rcases hcommit with hcommit | hcommit
    · rw [hcommit]
      exact .inl rfl
    · rw [hcommit]
      exact .inr rfl

theorem charge_of_write (d : Deployment) (p : WriteProfile) (c : CountedClient) (w : CountedWrite) (client : Nat) :
    Charge p.toAgentProfile c w client (c.outcome d p w client) (c.write d p w).1.writeTimestamps := by
  have hstamps := enforceQuota_stamps c p.toAgentProfile w.readings.quota
  have hresult := (c.enforceQuota_client p.toAgentProfile w.readings.quota).1
  have hstate := (c.enforceQuota_client p.toAgentProfile w.readings.quota).2
  unfold CountedClient.outcome
  cases hargs : writeArguments d p.toAgentProfile w.principal w.readings.now w.call with
  | error e =>
    have hwrite : (c.write d p w).1 = c := by
      unfold CountedClient.write
      rw [hargs]
    rw [hwrite]
    exact .uncounted (.inl rfl)
  | ok infer =>
    dsimp only
    cases hquota : c.enforceQuota p.toAgentProfile w.readings.quota with
    | mk pruned out =>
    rw [hquota] at hstamps hresult hstate
    have hcount : (c.client p.toAgentProfile).count.at' w.readings.quota =
      ⟨c.counters.count p.name "writes", w.readings.quota, c.writeTimestamps⟩ := rfl
    rw [hcount] at hresult
    unfold enforceWriteQuota at hresult
    cases out with
    | error e =>
      have hwrite : (c.write d p w).1 = pruned := by
        unfold CountedClient.write
        rw [hargs, hquota]
      rw [hwrite]
      refine .refused hstamps ?_
      split at hresult
      · next hday => exact .inl hday
      split at hresult
      · next hburst => exact .inr hburst
      · cases hresult
    | ok u =>
      split at hresult
      · cases hresult
      next hday =>
      split at hresult
      · cases hresult
      next hburst =>
      have hpruned : pruned.writeTimestamps = recent 60 w.readings.quota c.writeTimestamps := by
        have hleft : pruned.writeTimestamps = ((c.client p.toAgentProfile).count.enforced p.toAgentProfile w.readings.quota).writeTimestamps :=
          congrArg (fun x => x.count.writeTimestamps) hstate
        have hopen : ¬ (c.client p.toAgentProfile).count.writesToday ≥ p.writeQuota.dailyMaxDrawers := hday
        rw [hleft, WriteCount.enforced, if_neg hopen]
        rfl
      dsimp only
      rcases write_stamps d p c w hargs hquota with hsame | hadded
      · rw [hsame, if_neg (lt_irrefl _)]
        exact .uncounted (.inr hpruned)
      · rw [hadded, if_pos (by simp), hpruned]
        exact .counted (not_le.1 hday) (not_le.1 hburst)

/-! ## A run of calls -/

theorem countedTimes_snoc (history : List QuotaOutcome) (outcome : Option QuotaOutcome) :
    countedTimes (history ++ outcome.toList) = countedTimes history ++ (outcome.bind QuotaOutcome.time?).toList := by
  unfold countedTimes
  cases outcome with
  | none => simp
  | some outcome => cases h : outcome.time? <;> simp [h]

theorem countedBy_snoc (client : Nat) (history : List QuotaOutcome) (outcome : Option QuotaOutcome) :
    countedBy client (history ++ outcome.toList) =
      countedBy client history ++ (outcome.bind (QuotaOutcome.timeOf? client)).toList := by
  unfold countedBy
  cases outcome with
  | none => simp
  | some outcome => cases h : outcome.timeOf? client <;> simp [h]

/-- The times of one client are among those of all. -/
theorem countedBy_sublist (client : Nat) (history : List QuotaOutcome) :
    (countedBy client history).Sublist (countedTimes history) := by
  induction history with
  | nil => exact List.Sublist.refl []
  | cons outcome history ih =>
    cases outcome with
    | refused now => exact ih
    | counted client' time =>
      have hall : countedTimes (.counted client' time :: history) = time :: countedTimes history := rfl
      by_cases hclient : client' = client
      · have hone : countedBy client (.counted client' time :: history) = time :: countedBy client history := by
          rw [countedBy, List.filterMap_cons, QuotaOutcome.timeOf?, if_pos hclient]
          rfl
        rw [hone, hall]
        exact ih.cons_cons time
      · have hone : countedBy client (.counted client' time :: history) = countedBy client history := by
          rw [countedBy, List.filterMap_cons, QuotaOutcome.timeOf?, if_neg hclient]
          rfl
        rw [hone, hall]
        exact ih.cons time

theorem utcDay_mono {t t' : Rat} (h : t ≤ t') : utcDay t ≤ utcDay t' :=
  Int.floor_le_floor (div_le_div_of_nonneg_right h (by norm_num))

/-- The clients know of the last minute what the history says. -/
structure QuotaTracks (p : AgentProfile) (looks : List Rat) (s : QuotaProcess) : Prop where
  looked : ∀ t ∈ countedTimes s.history, t ∈ looks
  stamps : ∀ client now, (∀ look ∈ looks, look ≤ now) →
    recent 60 now (s.stamps client) = recent 60 now (countedBy client s.history)
  paced : Paced 60 p.writeQuota.burstMaxPerMinute.toNat (countedTimes s.history)
  daily : ∀ day, ((countedOn day s.history).length : Int) ≤ p.writeQuota.dailyMaxDrawers
  refused : ∀ before now after, s.history = before ++ .refused now :: after →
    p.writeQuota.burstMaxPerMinute ≤ (recent 60 now (countedTimes before)).length ∨
      p.writeQuota.dailyMaxDrawers ≤ (countedOn (utcDay now) before).length

theorem quotaTracks_start {p : AgentProfile} (hdaily : 0 < p.writeQuota.dailyMaxDrawers) : QuotaTracks p [] .start where
  looked t ht := by cases ht
  stamps _ _ _ := rfl
  paced := paced_nil
  daily day := by
    show (0 : Int) ≤ _
    omega
  refused before now after h := by simp [QuotaProcess.start] at h

variable {looks : List Rat} {a : QuotaAction}

/-- A call that is not counted leaves the times as they were, or cuts them down. -/
theorem QuotaTracks.cut {q : AgentProfile} (h : QuotaTracks q looks s) {stamps : List Rat} (hnow : ∀ look ∈ looks, look ≤ now)
    (hstamps : stamps = s.stamps client ∨ stamps = recent 60 now (s.stamps client)) (client' : Nat) (hle : now ≤ now') :
    recent 60 now' (if client' = client then stamps else s.stamps client') = recent 60 now' (countedBy client' s.history) := by
  have hbefore : ∀ look ∈ looks, look ≤ now' := fun look hlook => (hnow look hlook).trans hle
  split
  · next hclient =>
    rw [hclient]
    rcases hstamps with rfl | rfl
    · exact h.stamps client now' hbefore
    · rw [recent_recent hle]
      exact h.stamps client now' hbefore
  · exact h.stamps client' now' hbefore

/-- The refusals before, and what comes after them. -/
theorem refusals_snoc {q : AgentProfile} {outcome : Option QuotaOutcome}
    (h : ∀ before now after, history = before ++ .refused now :: after →
      q.writeQuota.burstMaxPerMinute ≤ (recent 60 now (countedTimes before)).length ∨
        q.writeQuota.dailyMaxDrawers ≤ (countedOn (utcDay now) before).length)
    (hnew : ∀ now, outcome = some (.refused now) →
      q.writeQuota.burstMaxPerMinute ≤ (recent 60 now (countedTimes history)).length ∨
        q.writeQuota.dailyMaxDrawers ≤ (countedOn (utcDay now) history).length) :
    ∀ before now after, history ++ outcome.toList = before ++ .refused now :: after →
      q.writeQuota.burstMaxPerMinute ≤ (recent 60 now (countedTimes before)).length ∨
        q.writeQuota.dailyMaxDrawers ≤ (countedOn (utcDay now) before).length := by
  intro before now after heq
  cases outcome with
  | none =>
    rw [Option.toList_none, List.append_nil] at heq
    exact h before now after heq
  | some outcome =>
    rcases List.eq_nil_or_concat after with rfl | ⟨after', last, rfl⟩
    · obtain ⟨rfl, hlast⟩ := List.append_inj' heq rfl
      exact hnew now (congrArg some (List.singleton_inj.1 hlast))
    · rw [List.concat_eq_append, ← List.cons_append, ← List.append_assoc] at heq
      exact h before now after' (List.append_inj' heq rfl).1

/-- **A call keeps the quotas**, if the client and the counter know what they have to. -/
theorem QuotaTracks.step (hdaily : 0 < p.writeQuota.dailyMaxDrawers) (h : QuotaTracks p.toAgentProfile looks s)
    (hclock : (looks ++ a.looks).Pairwise (· ≤ ·)) (hinformed : Informed p.toAgentProfile s a) :
    QuotaTracks p.toAgentProfile (looks ++ a.looks) (s.step d p a) := by
  cases a with
  | elsewhere use =>
    rw [QuotaAction.looks, List.append_nil]
    exact ⟨h.looked, h.stamps, h.paced, h.daily, h.refused⟩
  | write client w =>
    obtain ⟨-, hown, hlater⟩ := List.pairwise_append.1 hclock
    have hquota : ∀ look ∈ looks, look ≤ w.readings.quota := fun look hlook => hlater look hlook _ (by simp [QuotaAction.looks])
    have hrecorded : w.readings.quota ≤ w.readings.recorded := (List.pairwise_cons.1 hown).1 _ (List.mem_singleton_self _)
    have hcharge := charge_of_write d p (s.client client) w client
    have hbefore : ∀ {now'}, (∀ look ∈ looks ++ QuotaAction.looks (.write client w), look ≤ now') → w.readings.quota ≤ now' :=
      fun hall => hall _ (List.mem_append_right _ (by simp [QuotaAction.looks]))
    have htimes : ∀ t ∈ countedTimes s.history, t ≤ w.readings.quota := fun t ht => hquota t (h.looked t ht)
    unfold QuotaProcess.step
    dsimp only
    generalize hafter : ((s.client client).write d p w).1 = after at hcharge ⊢
    generalize (s.client client).outcome d p w client = outcome at hcharge ⊢
    generalize after.writeTimestamps = stamps at hcharge ⊢
    cases hcharge with
    | uncounted hleft =>
      simp only [Option.toList_none, List.append_nil]
      refine ⟨fun t ht => List.mem_append_left _ (h.looked t ht), fun client' now' hall => ?_, h.paced, h.daily, h.refused⟩
      exact h.cut hquota hleft client' (hbefore hall)
    | refused hleft hfull =>
      have hsame := countedTimes_snoc s.history (some (.refused w.readings.quota))
      have hsame' := fun client' => countedBy_snoc client' s.history (some (.refused w.readings.quota))
      simp only [Option.bind_some, QuotaOutcome.time?, QuotaOutcome.timeOf?, Option.toList_none, List.append_nil] at hsame hsame'
      refine ⟨fun t ht => ?_, fun client' now' hall => ?_, ?_, fun day => ?_, ?_⟩
      · rw [hsame] at ht
        exact List.mem_append_left _ (h.looked t ht)
      · rw [hsame']
        exact h.cut hquota hleft client' (hbefore hall)
      · rw [hsame]
        exact h.paced
      · rw [countedOn, hsame]
        exact h.daily day
      · apply refusals_snoc h.refused
        intro now hnow
        cases hnow
        rcases hfull with hday | hburst
        · exact .inr (hinformed.2.1 hday)
        · have hmine : recent 60 w.readings.quota (s.client client).writeTimestamps = _ := h.stamps client _ hquota
          have hle := ((countedBy_sublist client s.history).filter fun t => w.readings.quota - t < 60).length_le
          rw [hmine] at hburst
          refine .inl (hburst.trans ?_)
          exact_mod_cast hle
    | counted hday hroom =>
      have hadded : countedTimes (s.history ++ (some (QuotaOutcome.counted client w.readings.recorded)).toList) =
        countedTimes s.history ++ [w.readings.recorded] := countedTimes_snoc s.history _
      have hmine : recent 60 w.readings.quota (s.client client).writeTimestamps =
        recent 60 w.readings.quota (countedBy client s.history) := h.stamps client _ hquota
      rw [hmine] at hroom ⊢
      have hfew : (recent 60 w.readings.quota (countedTimes s.history)).length < p.writeQuota.burstMaxPerMinute := by
        by_contra hfull
        exact not_le.2 hroom (hinformed.1 (not_lt.1 hfull))
      have htoday : (countedOn (utcDay w.readings.quota) s.history).length < p.writeQuota.dailyMaxDrawers := by
        by_contra hfull
        exact not_le.2 hday (hinformed.2.2 (not_lt.1 hfull))
      refine ⟨fun t ht => ?_, fun client' now' hall => ?_, ?_, fun day => ?_, ?_⟩
      · dsimp only at ht
        rw [hadded] at ht
        rcases List.mem_append.1 ht with hold | hnew
        · exact List.mem_append_left _ (h.looked t hold)
        · rw [List.mem_singleton.1 hnew]
          exact List.mem_append_right _ (by simp [QuotaAction.looks])
      · have hby := countedBy_snoc client' s.history (some (.counted client w.readings.recorded))
        dsimp only
        rw [hby, recent_append]
        by_cases hclient : client' = client
        · have htime : (some (QuotaOutcome.counted client w.readings.recorded)).bind (QuotaOutcome.timeOf? client') =
            some w.readings.recorded := if_pos hclient.symm
          rw [htime, if_pos hclient, hclient, recent_append, recent_recent (hbefore hall)]
          rfl
        · have htime : (some (QuotaOutcome.counted client w.readings.recorded)).bind (QuotaOutcome.timeOf? client') = none :=
            if_neg (Ne.symm hclient)
          rw [htime, if_neg hclient, Option.toList_none]
          simpa [recent] using h.stamps client' now' fun look hlook => hall look (List.mem_append_left _ hlook)
      · dsimp only
        rw [hadded]
        apply h.paced.snoc
        have hcut : (recent 60 w.readings.recorded (countedTimes s.history)).Sublist
          (recent 60 w.readings.quota (countedTimes s.history)) := recent_sublist hrecorded _
        have hless := hcut.length_le
        omega
      · dsimp only
        rw [countedOn, hadded, List.filter_append, List.length_append]
        by_cases hnew : utcDay w.readings.recorded = day
        · rw [List.filter_cons_of_pos (by simpa using hnew), List.filter_nil, List.length_singleton]
          by_cases hsame : utcDay w.readings.quota = day
          · rw [← hsame]
            unfold countedOn at htoday
            omega
          · -- midnight has passed since the quota was looked at
            have hnone : (countedTimes s.history).filter (fun t => utcDay t = day) = [] := by
              apply List.filter_eq_nil_iff.2
              intro t ht hday'
              rw [decide_eq_true_eq] at hday'
              have hle := utcDay_mono (htimes t ht)
              have hle' := utcDay_mono hrecorded
              omega
            rw [hnone, List.length_nil]
            omega
        · rw [List.filter_cons_of_neg (by simpa using hnew), List.filter_nil, List.length_nil, Nat.add_zero]
          exact h.daily day
      · exact refusals_snoc h.refused fun now hnow => (by cases hnow)

theorem quotaTracks_run (hdaily : 0 < p.writeQuota.dailyMaxDrawers) {actions : List QuotaAction}
    (hclock : (actions.flatMap QuotaAction.looks).Pairwise (· ≤ ·))
    (hinformed : Along (QuotaProcess.step d p) (Informed p.toAgentProfile) .start actions) :
    QuotaTracks p.toAgentProfile (actions.flatMap QuotaAction.looks) (run (QuotaProcess.step d p) .start actions) := by
  induction actions using List.reverseRecOn with
  | nil => exact quotaTracks_start hdaily
  | append_singleton actions a ih =>
    rw [List.flatMap_append, List.flatMap_singleton] at hclock ⊢
    obtain ⟨hbefore, hlast⟩ := along_snoc.1 hinformed
    rw [run_snoc]
    exact (ih (List.pairwise_append.1 hclock).1 hbefore).step hdaily hclock hlast

/-- One write a minute, ten a day. -/
def slowProfile : WriteProfile := { syncProfile with writeQuota := ⟨10, 1⟩ }

/-- A write at a time. -/
def writeAt (time : Rat) (content : String) : CountedWrite :=
  { flushedWrite with
    readings := { flushedWrite.readings with quota := time, recorded := time }
    call := { slashCall with content }
    between := [] }

/-- Two writes through one client; the second is refused. -/
def oneClient : List QuotaAction := [.write 0 (writeAt 0 "dear diary"), .write 0 (writeAt 1 "dear diary, again")]

/-- The same two writes in two requests. -/
def twoRequests : List QuotaAction := [.write 0 (writeAt 0 "dear diary"), .write 1 (writeAt 1 "dear diary, again")]

end Panella

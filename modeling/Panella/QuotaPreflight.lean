import Mathlib.Tactic.Linarith
import Panella.Lib.Machine
import Panella.SetConverges

/-!
# The quota preflight (`panella/client.py:890-933`, `panella/counters.py:15-48`)

| here | there |
| --- | --- |
| `MemoryCounters`, `increment`, `count`, `flush` | `MemoryCounters`; `flush` and `reset` leave no counts |
| `checkQuota`, `enforceQuota` | `check_write_quota` and `_enforce_write_quota`, with the counters they read and add to |
| `CountedClient.write`, `CountedClient.deletePrior` | `write` and `delete_prior_source_versions` over the counters |

The counters are those of the process: between any two calls, and between the check and the record of one write, they may be
flushed, and other agents and events may be counted (`CounterUse`). **`preflight_sound`**: as many writes as the preflight was
asked for pass the quota.
-/

namespace Panella

open Machine

/-! ## The counters -/

/-- The counts of the process, under agent, wing and event. -/
structure MemoryCounters where
  counts : List ((String × String × String) × Nat)

namespace MemoryCounters

/-- `counts[key] += count`. -/
def add (key : String × String × String) (count : Nat) :
    List ((String × String × String) × Nat) → List ((String × String × String) × Nat)
  | [] => [(key, count)]
  | entry :: counts => if entry.1 = key then (key, entry.2 + count) :: counts else entry :: add key count counts

def increment (c : MemoryCounters) (agent eventType wing : String) (count : Nat) : MemoryCounters :=
  ⟨add (agent, wing, eventType) count c.counts⟩

/-- `get_today(agent).get(event_type, 0)`, over all wings. -/
def count (c : MemoryCounters) (agent eventType : String) : Nat :=
  ((c.counts.filter fun entry => entry.1.1 = agent ∧ entry.1.2.2 = eventType).map (·.2)).sum

def flush (_ : MemoryCounters) : MemoryCounters := ⟨[]⟩

theorem count_increment (c : MemoryCounters) (agent eventType wing : String) (k : Nat) (agent' eventType' : String) :
    (c.increment agent eventType wing k).count agent' eventType' =
      c.count agent' eventType' + if agent = agent' ∧ eventType = eventType' then k else 0 := by
  obtain ⟨counts⟩ := c
  unfold increment MemoryCounters.count
  dsimp only
  induction counts with
  | nil => by_cases h : agent = agent' ∧ eventType = eventType' <;> simp [add, h]
  | cons entry counts ih =>
    rw [add]
    split
    · next hkey =>
      by_cases h : agent = agent' ∧ eventType = eventType'
      · simp [hkey, h, Nat.add_right_comm]
      · simp [hkey, h]
    · by_cases h : entry.1.1 = agent' ∧ entry.1.2.2 = eventType'
      · simp only [List.filter_cons, h, and_self, decide_true, if_true, List.map_cons, List.sum_cons, ih, Nat.add_assoc]
      · simp only [List.filter_cons, h, decide_false, Bool.false_eq_true, if_false, ih]

end MemoryCounters

/-- What other code does to the counters. -/
inductive CounterUse
  | increment (agent eventType wing : String) (count : Nat)
  | flush

namespace CounterUse

def apply (c : MemoryCounters) : CounterUse → MemoryCounters
  | .increment agent eventType wing count => c.increment agent eventType wing count
  | .flush => c.flush

/-- It is not a write of the profile. -/
def Foreign (p : AgentProfile) : CounterUse → Prop
  | .increment agent eventType _ _ => ¬ (agent = p.name ∧ eventType = "writes")
  | .flush => True

/-- **Other code never raises the count** of the profile's writes. -/
theorem Foreign.le {p : AgentProfile} {use : CounterUse} (h : use.Foreign p) (c : MemoryCounters) :
    (use.apply c).count p.name "writes" ≤ c.count p.name "writes" := by
  cases use with
  | increment agent eventType wing count =>
    rw [apply, MemoryCounters.count_increment, if_neg h, Nat.add_zero]
  | flush => exact Nat.zero_le _

theorem le_of_foreign {p : AgentProfile} {uses : List CounterUse} (h : ∀ use ∈ uses, use.Foreign p) (c : MemoryCounters) :
    (uses.foldl apply c).count p.name "writes" ≤ c.count p.name "writes" := by
  induction uses generalizing c with
  | nil => exact Nat.le_refl _
  | cons use uses ih =>
    calc ((use :: uses).foldl apply c).count p.name "writes" ≤ (use.apply c).count p.name "writes" :=
        ih (fun use' h' => h use' (List.mem_cons_of_mem use h')) _
      _ ≤ c.count p.name "writes" := (h use List.mem_cons_self).le c

end CounterUse

/-! ## A client and the counters -/

/-- What the calls of a client change. -/
structure CountedClient where
  store : Store
  outbox : Outbox
  counters : MemoryCounters
  writeTimestamps : List Rat

/-- A call of `write`, and what other code does to the counters between its check and its record. -/
structure CountedWrite where
  principal : Principal
  sink : AuditSink
  readings : WriteReadings
  replies : WriteReplies
  call : WriteCall
  between : List CounterUse

namespace CountedClient

/-- What a client of the profile reads of it. -/
def client (s : CountedClient) (p : AgentProfile) : ClientState :=
  ⟨s.store, s.outbox, ⟨s.counters.count p.name "writes", s.writeTimestamps⟩⟩

/-- `counters.increment(self.profile.name, "quota_violations")`. -/
def violated (s : CountedClient) (p : AgentProfile) : CountedClient :=
  { s with counters := s.counters.increment p.name "quota_violations" "all" 1 }

/-- `check_write_quota(n)`. -/
def checkQuota (s : CountedClient) (p : AgentProfile) (now : Rat) (n : Nat) : CountedClient × Except PyErr Unit :=
  match checkWriteQuota p ((s.client p).count.at' now) n with
  | .error e => (s.violated p, .error e)
  | .ok () => (s, .ok ())

/-- `_enforce_write_quota`. -/
def enforceQuota (s : CountedClient) (p : AgentProfile) (now : Rat) : CountedClient × Except PyErr Unit :=
  let pruned := { s with writeTimestamps := ((s.client p).count.enforced p now).writeTimestamps }
  match enforceWriteQuota p ((s.client p).count.at' now) with
  | .error e => (pruned.violated p, .error e)
  | .ok () => (pruned, .ok ())

/-- A call of `write` is over; one that was recorded is counted under the profile's wing. -/
def charged (s : CountedClient) (p : AgentProfile) (after : ClientState) : CountedClient where
  store := after.store
  outbox := after.outbox
  counters :=
    if (s.client p).count.writesToday < after.count.writesToday then
      s.counters.increment p.name "writes" p.writeDefault.wing 1
    else s.counters
  writeTimestamps := after.count.writeTimestamps

/-- `write`. -/
def write (d : Deployment) (p : WriteProfile) (w : CountedWrite) (s : CountedClient) :
    CountedClient × Except WriteErr (Served WriteResult) :=
  match writeArguments d p.toAgentProfile w.principal w.readings.now w.call with
  | .error e => (s, .error (.client (.py e)))
  | .ok infer =>
    match s.enforceQuota p.toAgentProfile w.readings.quota with
    | (s, .error e) => (s, .error (.client (.py e)))
    | (s, .ok ()) =>
      let s := { s with counters := w.between.foldl CounterUse.apply s.counters }
      match writeTarget d p.toAgentProfile w.principal w.readings.scope w.readings.requested w.call with
      | .error e => (s, .error (.client (.py e)))
      | .ok tenantId =>
        let out := commitPrepared d p w.principal w.sink w.readings w.replies w.call
          (preparedRow d p.toAgentProfile w.principal w.readings.toWriteClock w.call tenantId infer) (s.client p.toAgentProfile)
        (s.charged p.toAgentProfile out.1, out.2)

/-- `delete_prior_source_versions`. -/
def deletePrior (d : Deployment) (p : AgentProfile) (pr : Principal) (sink : AuditSink) (r : ReplaceReplies) (key : String)
    (keep : Option String) (s : CountedClient) : CountedClient × Except ClientErr (List String) :=
  match sourceGate p pr r.deleteTtl (restrictedMessage d p "delete_prior_source_versions") key with
  | .error e => (s, .error (.py e))
  | .ok () =>
    match s.enforceQuota p r.deleteQuota with
    | (s, .error e) => (s, .error (.py e))
    | (counted, .ok ()) =>
      let out := deletePriorSourceVersions d p pr sink r key keep (s.client p)
      ({ counted with store := out.1.store, outbox := out.1.outbox }, out.2)

end CountedClient

/-- The deletes count no write. -/
theorem deletePrior_count {d : Deployment} {p : AgentProfile} {pr : Principal} (sink : AuditSink) {r : ReplaceReplies} {key : String}
    (keep : Option String) (s : ClientState)
    (h : sourceGate p pr r.deleteTtl (restrictedMessage d p "delete_prior_source_versions") key = .ok ()) :
    (deletePriorSourceVersions d p pr sink r key keep s).1.count = s.count.enforced p r.deleteQuota := by
  unfold deletePriorSourceVersions
  rw [h]
  dsimp only
  split
  · rfl
  next tenantId candidates _ =>
  have hloop := deleteCandidates_count d p pr sink r.candidate tenantId key keep 0 candidates
    { s with count := s.count.enforced p r.deleteQuota }
  split
  · next hstep =>
    rw [hstep] at hloop
    exact hloop
  · next hstep =>
    rw [hstep] at hloop
    split <;> exact hloop

namespace CountedClient

variable {p : AgentProfile} {s : CountedClient} {now : Rat}

@[simp] theorem violated_client (s : CountedClient) (p : AgentProfile) (agent : String) :
    (s.violated p).counters.count agent "writes" = s.counters.count agent "writes" := by
  simp [violated, MemoryCounters.count_increment]

theorem client_violated (s : CountedClient) (p : AgentProfile) : (s.violated p).client p = s.client p := by
  unfold client
  rw [violated_client]
  rfl

/-- **`_enforce_write_quota` over the counters** is the one without, and a violation is no write. -/
theorem enforceQuota_client (s : CountedClient) (p : AgentProfile) (now : Rat) :
    (s.enforceQuota p now).2 = enforceWriteQuota p ((s.client p).count.at' now) ∧
      (s.enforceQuota p now).1.client p = { s.client p with count := (s.client p).count.enforced p now } := by
  have hpruned : CountedClient.client { s with writeTimestamps := ((s.client p).count.enforced p now).writeTimestamps } p =
      { s.client p with count := (s.client p).count.enforced p now } := by
    unfold client WriteCount.enforced
    dsimp only
    split <;> rfl
  unfold enforceQuota
  dsimp only
  split
  · next e he => exact ⟨he.symm, by rw [client_violated, hpruned]⟩
  · next he => exact ⟨he.symm, hpruned⟩

theorem charged_client {after : ClientState} (h : after.count = (s.client p).count ∨ after.count = (s.client p).count.record now) :
    (s.charged p after).client p = after := by
  have hcount : (((s.charged p after).counters.count p.name "writes" : Nat) : Int) = after.count.writesToday := by
    unfold charged
    rcases h with h | h
    · rw [h, if_neg (lt_irrefl _)]
      rfl
    · have hless : (s.client p).count.writesToday < after.count.writesToday := by
        rw [h]
        exact Int.lt_succ _
      rw [if_pos hless, h]
      simp [MemoryCounters.count_increment, client, WriteCount.record]
  unfold client
  rw [hcount]
  rfl

/-- **A write over the counters is `writeMemory`**, where nothing else touches them meanwhile. -/
theorem write_client (d : Deployment) (p : WriteProfile) (w : CountedWrite) (s : CountedClient) (h : w.between = []) :
    writeMemory d p w.principal w.sink w.readings w.replies w.call (s.client p.toAgentProfile) =
      ((s.write d p w).1.client p.toAgentProfile, (s.write d p w).2) := by
  obtain ⟨hresult, hstate⟩ := s.enforceQuota_client p.toAgentProfile w.readings.quota
  unfold writeMemory write
  cases writeArguments d p.toAgentProfile w.principal w.readings.now w.call with
  | error e => rfl
  | ok infer =>
    dsimp only
    cases hquota : s.enforceQuota p.toAgentProfile w.readings.quota with
    | mk s' out =>
    rw [hquota] at hresult hstate
    rw [← hresult, ← hstate]
    cases out with
    | error e => rfl
    | ok u =>
      rw [h]
      cases writeTarget d p.toAgentProfile w.principal w.readings.scope w.readings.requested w.call with
      | error e => rfl
      | ok tenantId =>
        exact Prod.ext (charged_client (commitPrepared_count ..)).symm rfl

/-- **So are the deletes.** -/
theorem deletePrior_client (d : Deployment) (p : AgentProfile) (pr : Principal) (sink : AuditSink) (r : ReplaceReplies)
    (key : String) (keep : Option String) (s : CountedClient) :
    deletePriorSourceVersions d p pr sink r key keep (s.client p) =
      ((s.deletePrior d p pr sink r key keep).1.client p, (s.deletePrior d p pr sink r key keep).2) := by
  obtain ⟨hresult, hstate⟩ := s.enforceQuota_client p r.deleteQuota
  unfold deletePrior
  cases hgate : sourceGate p pr r.deleteTtl (restrictedMessage d p "delete_prior_source_versions") key with
  | error e =>
    unfold deletePriorSourceVersions
    rw [hgate]
  | ok u =>
    cases hquota : s.enforceQuota p r.deleteQuota with
    | mk s' out =>
    rw [hquota] at hresult hstate
    cases out with
    | error e =>
      unfold deletePriorSourceVersions priorVersions
      rw [hgate]
      dsimp only
      rw [← hresult, ← hstate]
      rfl
    | ok u =>
      dsimp only
      have hcount := deletePrior_count sink keep (s.client p) hgate
      have hleft : (s'.client p).count = (s.client p).count.enforced p r.deleteQuota := by rw [hstate]
      refine Prod.ext ?_ rfl
      rw [← hleft] at hcount
      unfold client at hcount ⊢
      dsimp only at hcount ⊢
      rw [← hcount]

end CountedClient

/-! ## What the preflight leaves room for -/

/-- The count of a client may only go down by what other code does. -/
theorem WriteCount.Within.anti {n m m' : WriteCount} {k : Nat} (h : n.Within k m) (hday : m'.writesToday ≤ m.writesToday)
    (hstamps : m'.writeTimestamps = m.writeTimestamps) : n.Within k m' := by
  obtain ⟨hday', old, new, he, hold, hnew⟩ := h
  exact ⟨hday.trans hday', old, new, hstamps.trans he, hold, hnew⟩

/-- **A later look finds the room that was promised**: what is recent then was recent before, but for the writes since. -/
theorem enforce_of_check {p : AgentProfile} {n m : WriteCount} {now now' : Rat} {writes k : Nat}
    (hcheck : checkWriteQuota p (n.at' now) writes = .ok ()) (hk : k < writes) (hm : n.Within k m) (hle : now ≤ now') :
    enforceWriteQuota p (m.at' now') = .ok () := by
  unfold checkWriteQuota at hcheck
  rw [if_neg (by omega)] at hcheck
  split at hcheck
  · cases hcheck
  next hdaily =>
  dsimp only at hcheck
  split at hcheck
  · cases hcheck
  next hburst =>
  obtain ⟨hday, old, new, he, hold, hnew⟩ := hm
  have hstill : ∀ ts, now' - ts < 60 → now - ts < 60 := by
    intro ts h
    linarith
  have hold' : (old.filter fun ts => now' - ts < 60).length ≤ (n.writeTimestamps.filter fun ts => now - ts < 60).length := by
    calc (old.filter fun ts => now' - ts < 60).length ≤ (n.writeTimestamps.filter fun ts => now' - ts < 60).length :=
        (hold.filter _).length_le
      _ ≤ (n.writeTimestamps.filter fun ts => now - ts < 60).length := by
        rw [← List.countP_eq_length_filter, ← List.countP_eq_length_filter]
        exact List.countP_mono_left fun ts _ h => by simpa using hstill ts (by simpa using h)
  have hnew' := List.length_filter_le (fun ts => decide (now' - ts < 60)) new
  have hroom : ((m.writeTimestamps.filter fun ts => now' - ts < 60).length : Int) < p.writeQuota.burstMaxPerMinute := by
    have hroom' : ((n.writeTimestamps.filter fun ts => now - ts < 60).length : Int) + writes ≤ p.writeQuota.burstMaxPerMinute :=
      not_lt.1 hburst
    rw [he, List.filter_append, List.length_append]
    push_cast
    omega
  unfold enforceWriteQuota
  rw [if_neg (by simp only [WriteCount.at'] at hdaily ⊢; omega)]
  exact if_neg (not_le.2 hroom)

theorem CountedClient.within_enforceQuota {p : AgentProfile} {n : WriteCount} {k : Nat} {s : CountedClient}
    (h : n.Within k (s.client p).count) (now : Rat) : n.Within k ((s.enforceQuota p now).1.client p).count := by
  rw [(s.enforceQuota_client p now).2]
  exact h.enforced p now

/-- **Other code takes no room.** -/
theorem CountedClient.within_elsewhere {p : AgentProfile} {n : WriteCount} {k : Nat} {s : CountedClient} {uses : List CounterUse}
    (h : n.Within k (s.client p).count) (hforeign : ∀ use ∈ uses, use.Foreign p) :
    n.Within k (CountedClient.client { s with counters := uses.foldl CounterUse.apply s.counters } p).count := by
  refine h.anti ?_ rfl
  have hle := CounterUse.le_of_foreign hforeign s.counters
  unfold CountedClient.client
  dsimp only
  omega

/-! ## The calls that follow -/

/-- A call on the client after the preflight, or what other code does to the counters. -/
inductive QuotaCall
  | write (w : CountedWrite)
  | deletePrior (principal : Principal) (sink : AuditSink) (replies : ReplaceReplies) (key : String) (keep : Option String)
  | elsewhere (use : CounterUse)

namespace QuotaCall

/-- The readings of `self.clock()`. -/
def looks : QuotaCall → List Rat
  | .write w => [w.readings.quota, w.readings.recorded]
  | .deletePrior _ _ replies _ _ => [replies.deleteQuota]
  | .elsewhere _ => []

/-- Nothing else writes under the profile. -/
def Foreign (p : AgentProfile) : QuotaCall → Prop
  | .write w => ∀ use ∈ w.between, use.Foreign p
  | .deletePrior .. => True
  | .elsewhere use => use.Foreign p

def isWrite : QuotaCall → Bool
  | .write _ => true
  | .deletePrior .. => false
  | .elsewhere _ => false

def step (d : Deployment) (p : WriteProfile) (s : CountedClient) : QuotaCall → CountedClient
  | .write w => (s.write d p w).1
  | .deletePrior principal sink replies key keep => (s.deletePrior d p.toAgentProfile principal sink replies key keep).1
  | .elsewhere use => { s with counters := use.apply s.counters }

/-- `_enforce_write_quota` does not raise in the call. -/
def Passes (p : AgentProfile) (s : CountedClient) : QuotaCall → Prop
  | .write w => (s.enforceQuota p w.readings.quota).2 = .ok ()
  | .deletePrior _ _ replies _ _ => (s.enforceQuota p replies.deleteQuota).2 = .ok ()
  | .elsewhere _ => True

variable {d : Deployment} {p : WriteProfile} {n : WriteCount} {k : Nat} {s : CountedClient}

/-- **A call adds at most one write to the count**, and only `write` does. -/
theorem within_step (call : QuotaCall) (hforeign : call.Foreign p.toAgentProfile) (h : n.Within k (s.client p.toAgentProfile).count) :
    n.Within (if call.isWrite then k + 1 else k) ((step d p s call).client p.toAgentProfile).count := by
  cases call with
  | write w =>
    have hpruned := CountedClient.within_enforceQuota h w.readings.quota
    rw [isWrite, if_pos rfl]
    unfold step CountedClient.write
    dsimp only
    split
    · exact h.succ
    next infer _ =>
    split
    · next hstep =>
      rw [hstep] at hpruned
      exact hpruned.succ
    · next s' hstep =>
      rw [hstep] at hpruned
      have hbetween := CountedClient.within_elsewhere hpruned hforeign
      split
      · exact hbetween.succ
      · next tenantId _ =>
        have hcommit := commitPrepared_count d p w.principal w.sink w.readings w.replies w.call
          (preparedRow d p.toAgentProfile w.principal w.readings.toWriteClock w.call tenantId infer)
          (CountedClient.client { s' with counters := w.between.foldl CounterUse.apply s'.counters } p.toAgentProfile)
        rw [CountedClient.charged_client hcommit]
        rcases hcommit with hcommit | hcommit
        · rw [hcommit]
          exact hbetween.succ
        · rw [hcommit]
          exact hbetween.record _
  | deletePrior principal sink replies key keep =>
    have hpruned := CountedClient.within_enforceQuota h replies.deleteQuota
    rw [isWrite, if_neg Bool.false_ne_true]
    unfold step CountedClient.deletePrior
    dsimp only
    split
    · exact h
    split
    · next hstep =>
      rw [hstep] at hpruned
      exact hpruned
    · next hstep =>
      rw [hstep] at hpruned
      exact hpruned
  | elsewhere use =>
    have hone : ∀ use' ∈ [use], use'.Foreign p.toAgentProfile := by
      intro use' hmem
      rw [List.mem_singleton.1 hmem]
      exact hforeign
    rw [isWrite, if_neg Bool.false_ne_true]
    exact CountedClient.within_elsewhere h hone

/-- The count after a run of calls. -/
theorem within_run {calls : List QuotaCall} (hforeign : ∀ call ∈ calls, call.Foreign p.toAgentProfile)
    (h : n.Within k (s.client p.toAgentProfile).count) :
    n.Within (k + calls.countP isWrite) ((run (step d p) s calls).client p.toAgentProfile).count := by
  induction calls generalizing k s with
  | nil => exact h
  | cons call calls ih =>
    have hone := within_step (d := d) call (hforeign call List.mem_cons_self) h
    have hrest := ih (fun call' hc => hforeign call' (List.mem_cons_of_mem call hc)) hone
    rw [run_cons, List.countP_cons]
    split at hrest
    · next hw =>
      rw [if_pos hw]
      rwa [Nat.add_comm (calls.countP isWrite), ← Nat.add_assoc]
    · next hw =>
      rwa [if_neg hw]

end QuotaCall

/-- **The preflight is sound**: after it, the deletes and as many writes as it was asked for pass the quota, however far apart
they are and however each ends; and where it raises, nothing that gates a write has changed. -/
theorem preflight_sound (d : Deployment) (p : WriteProfile) (now : Rat) (n : Nat) (s : CountedClient) :
    ((s.checkQuota p.toAgentProfile now n).2 = .ok () → ∀ calls : List QuotaCall,
      (now :: calls.flatMap QuotaCall.looks).Pairwise (· ≤ ·) → (∀ call ∈ calls, call.Foreign p.toAgentProfile) →
        ∀ pre call post, calls = pre ++ call :: post → pre.countP QuotaCall.isWrite < n →
          call.Passes p.toAgentProfile (run (QuotaCall.step d p) (s.checkQuota p.toAgentProfile now n).1 pre)) ∧
    ∀ e, (s.checkQuota p.toAgentProfile now n).2 = .error e →
      (∀ agent, (s.checkQuota p.toAgentProfile now n).1.counters.count agent "writes" = s.counters.count agent "writes") ∧
        (s.checkQuota p.toAgentProfile now n).1.writeTimestamps = s.writeTimestamps := by
  unfold CountedClient.checkQuota
  cases hcheck : checkWriteQuota p.toAgentProfile ((s.client p.toAgentProfile).count.at' now) n with
  | error e =>
    refine ⟨fun h => (by cases h), fun _ _ => ⟨fun agent => ?_, rfl⟩⟩
    exact CountedClient.violated_client s p.toAgentProfile agent
  | ok u =>
    refine ⟨fun _ calls hclock hforeign pre call post hcalls hfew => ?_, fun _ h => (by cases h)⟩
    subst hcalls
    have hlater : ∀ look ∈ call.looks, now ≤ look := by
      intro look hlook
      apply (List.pairwise_cons.1 hclock).1
      exact List.mem_flatMap.2 ⟨call, by simp, hlook⟩
    have hwithin := QuotaCall.within_run (d := d) (fun c hc => hforeign c (List.mem_append_left _ hc))
      (WriteCount.within_self (s.client p.toAgentProfile).count)
    rw [Nat.zero_add] at hwithin
    have hroom : ∀ look ∈ call.looks,
        ((run (QuotaCall.step d p) s pre).enforceQuota p.toAgentProfile look).2 = .ok () := by
      intro look hlook
      rw [(CountedClient.enforceQuota_client _ _ _).1]
      exact enforce_of_check hcheck hfew hwithin (hlater look hlook)
    cases call with
    | write w => exact hroom _ (by simp [QuotaCall.looks])
    | deletePrior principal sink replies key keep => exact hroom _ (by simp [QuotaCall.looks])
    | elsewhere use => trivial

/-- One write half a minute ago, of two today; the counters are flushed while a write runs. -/
def sampleClient : CountedClient := ⟨.empty, .empty, ⟨[(("cc-sync", "notes", "writes"), 2), (("cc-sync", "all", "queries"), 7)]⟩, [-30]⟩

def flushedWrite : CountedWrite where
  principal := notesAgent
  sink := fun _ => .ok ()
  readings := (answeredReplies.atom 0).toWriteReadings
  replies := ⟨none, fun st body => st.post sampleStoreApi body none (.answered true)⟩
  call := slashCall
  between := [.flush]

def sampleCalls : List QuotaCall :=
  [.deletePrior notesAgent (fun _ => .ok ()) answeredReplies sampleKey none, .write flushedWrite,
    .elsewhere (.increment "cc-sync" "queries" "all" 1), .write flushedWrite]

theorem preflight_sound_sample : ∀ pre call post, sampleCalls = pre ++ call :: post → pre.countP QuotaCall.isWrite < 2 →
    call.Passes syncProfile.toAgentProfile (run (QuotaCall.step plainDeployment syncProfile)
      (sampleClient.checkQuota syncProfile.toAgentProfile 0 2).1 pre) := by
  have hcheck : checkWriteQuota syncProfile.toAgentProfile
      ((sampleClient.client syncProfile.toAgentProfile).count.at' 0) 2 = .ok () := by
    unfold checkWriteQuota
    rw [if_neg (by decide), if_neg (by decide)]
    exact if_neg (by decide +kernel)
  apply (preflight_sound plainDeployment syncProfile 0 2 sampleClient).1
  · rw [CountedClient.checkQuota, hcheck]
  · decide +kernel
  · intro call hcall
    simp only [sampleCalls, List.mem_cons, List.not_mem_nil, or_false] at hcall
    rcases hcall with rfl | rfl | rfl | rfl
    · trivial
    · simp [QuotaCall.Foreign, flushedWrite, CounterUse.Foreign]
    · simp [QuotaCall.Foreign, CounterUse.Foreign]
    · simp [QuotaCall.Foreign, flushedWrite, CounterUse.Foreign]

end Panella

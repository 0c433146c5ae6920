import Mathlib.Algebra.Order.Ring.Rat
import Panella.BreakGlass
import Panella.Lib.TtlCache
import Panella.MemoryRoutes
import Panella.Stats

/-!
# The stats route and its cache (`panella/http/routes/stats.py`)

| here | there |
| --- | --- |
| `cacheKey`, `ttlSeconds` | `_cache_key` (:33-39), `_CACHE_TTL_SECONDS` |
| `TtlCache.look`, `TtlCache.put` | `_cache_get` (:42-51), `_cache_put` (:54-56) |
| `StatsCall`, `advanceStats` | `get_stats` (:65-117), from one access to the cache, the store or the audit log to the next |

Any number of requests are under way at once, and what one puts into the cache another is served, without the gates of
`aggregate_stats`. Still a caller gets only what it would have got itself, from a listing that was put into the cache less than a
minute before (**`stats_served`**).
-/

namespace Panella.StatsRoute

open Fallible UtcTime Machine PyJson

structure StatsRequest where
  principal : Principal
  wing : Option String
  fresh : Bool

/-- The tenant scope of a principal is one id. -/
def cacheKey (r : StatsRequest) : String × String := (r.principal.tenantId, r.wing.getD "")

def ttlSeconds : ℚ := 60

/-- A payload that `aggregate_stats` returned, and the call that returned it. -/
structure Listing (F : Type) (d : Deployment) where
  request : StatsRequest
  profile : AgentProfile
  clk : ReadClock
  api : PagesApi
  rounds : Nat
  now : String
  payload : Stats
  returned : aggregateStats F d profile request.principal clk api rounds now request.wing = .ok (some payload)

/-- `served_from`, with the time at which the cache was asked. -/
inductive ServedFrom
  | fresh
  | cache (lookedAt : ℚ)

abbrev StatsAnswer (F : Type) (d : Deployment) := Response (Listing F d × ServedFrom)

/-- Where a request stands. -/
inductive StatsCall (F : Type) (d : Deployment)
  | idle
  | looking (r : StatsRequest)
  | aggregating (r : StatsRequest)
  | putting (r : StatsRequest) (listing : Listing F d)
  | auditing (r : StatsRequest) (answer : StatsAnswer F d)
  | answered (r : StatsRequest) (answer : StatsAnswer F d)

/-- What a step cannot know. -/
structure StatsInput where
  /-- `time.monotonic()`. -/
  monotonic : ℚ
  /-- `AgentProfile.load`, for the client. -/
  profile : Except PyErr AgentProfile
  clk : ReadClock
  api : PagesApi
  rounds : Nat
  /-- The clock as the adapter writes it. -/
  now : String
  auditHttp : Except ClientErr Unit

abbrev StatsCache (F : Type) (d : Deployment) := TtlCache.Cache (String × String) (Listing F d) ℚ

structure StatsSystem (F : Type) (d : Deployment) where
  cache : StatsCache F d
  calls : Nat → StatsCall F d
  monotonic : ℚ
  /-- What was put so far, and when; no part of the process. -/
  puts : List (Listing F d × ℚ)

def StatsSystem.initial (F : Type) (d : Deployment) : StatsSystem F d := ⟨TtlCache.empty, fun _ => .idle, 0, []⟩

section
variable {F : Type} {d : Deployment}

/-- The answer where `aggregate_stats` raises. -/
def errorAnswer (d : Deployment) : ClientErr → StatsAnswer F d
  | .py (.permissionError m) => .error 403 "forbidden" m
  | e => .error 500 "memory_backend_error" (d.clientErrorText e)

/-- `client.aggregate_stats(wing_filter=wing)`, which may not come to an end. -/
def advanceAggregating (i : StatsInput) (r : StatsRequest) : StatsCall F d :=
  match i.profile with
  | .error _ => .answered r (.error 500 "internal_error" "internal server error")
  | .ok profile =>
    match h : aggregateStats F d profile r.principal i.clk i.api i.rounds i.now r.wing with
    | .error e => .auditing r (errorAnswer d e)
    | .ok none => .aggregating r
    | .ok (some payload) => .putting r ⟨r, profile, i.clk, i.api, i.rounds, i.now, payload, h⟩

/-- The next access of a request: the cache it leaves, what it puts, and where the request stands then. -/
def advanceStats (cache : StatsCache F d) (i : StatsInput) : StatsCall F d →
    StatsCache F d × Option (Listing F d) × StatsCall F d
  | .looking r =>
    if r.fresh then (cache, none, .aggregating r)
    else match TtlCache.look cache i.monotonic (cacheKey r) with
      | (cache', none) => (cache', none, .aggregating r)
      | (cache', some listing) => (cache', none, .auditing r (.ok (listing, .cache i.monotonic)))
  | .aggregating r => (cache, none, advanceAggregating i r)
  | .putting r listing =>
    (TtlCache.put ttlSeconds cache i.monotonic (cacheKey r) listing, some listing, .auditing r (.ok (listing, .fresh)))
  | .auditing r answer => (cache, none, .answered r (audited i.auditHttp answer))
  | call => (cache, none, call)

inductive StatsAction
  | arrive (p : Nat) (r : StatsRequest)
  | advance (p : Nat) (i : StatsInput)

/-- One step; a reading of the clock is no earlier than the one before it. -/
def statsStep (s : StatsSystem F d) : StatsAction → StatsSystem F d
  | .arrive p r =>
    match s.calls p with
    | .idle | .answered _ _ => { s with calls := Function.update s.calls p (.looking r) }
    | _ => s
  | .advance p i =>
    if s.monotonic ≤ i.monotonic then
      let (cache, listing, call) := advanceStats s.cache i (s.calls p)
      { cache
        calls := Function.update s.calls p call
        monotonic := i.monotonic
        puts := s.puts ++ (listing.map (·, i.monotonic)).toList }
    else s

/-! ## Where an answer comes from -/

/-- A listing that was put for this key, not later than now. -/
def Put (s : StatsSystem F d) (k : String × String) (listing : Listing F d) (t : ℚ) : Prop :=
  (listing, t) ∈ s.puts ∧ cacheKey listing.request = k ∧ t ≤ s.monotonic

/-- Whence the payload of an answer can be. -/
def Whence (s : StatsSystem F d) (r : StatsRequest) (listing : Listing F d) : ServedFrom → Prop
  | .fresh => listing.request = r
  | .cache lookedAt => cacheKey listing.request = cacheKey r ∧
      ∃ t, (listing, t) ∈ s.puts ∧ t ≤ lookedAt ∧ lookedAt < t + ttlSeconds

def AnswerKnown (s : StatsSystem F d) (r : StatsRequest) (answer : StatsAnswer F d) : Prop :=
  ∀ listing served, answer = .ok (listing, served) → Whence s r listing served

/-- What is known of a request under way. -/
def CallKnown (s : StatsSystem F d) : StatsCall F d → Prop
  | .putting r listing => listing.request = r
  | .auditing r answer | .answered r answer => AnswerKnown s r answer
  | _ => True

structure StatsKnown (s : StatsSystem F d) : Prop where
  cache : TtlCache.Sourced (Put s) ttlSeconds s.cache
  calls : ∀ p, CallKnown s (s.calls p)

variable {s s' : StatsSystem F d} {r : StatsRequest} {listing : Listing F d} {i : StatsInput}

theorem Whence.mono (hputs : ∀ x ∈ s.puts, x ∈ s'.puts) {served : ServedFrom} (h : Whence s r listing served) :
    Whence s' r listing served := by
  cases served with
  | fresh => exact h
  | cache lookedAt =>
    obtain ⟨hkey, t, ht, hle, hlt⟩ := h
    exact ⟨hkey, t, hputs _ ht, hle, hlt⟩

theorem CallKnown.mono (hputs : ∀ x ∈ s.puts, x ∈ s'.puts) {call : StatsCall F d} (h : CallKnown s call) : CallKnown s' call := by
  cases call with
  | auditing r answer => exact fun listing served heq => (h listing served heq).mono hputs
  | answered r answer => exact fun listing served heq => (h listing served heq).mono hputs
  | _ => exact h

theorem answerKnown_error (s : StatsSystem F d) (r : StatsRequest) (status : Nat) (code message : String) :
    AnswerKnown s r (.error status code message) := by
  intro listing served h
  cases h

theorem answerKnown_audited {answer : StatsAnswer F d} (h : AnswerKnown s r answer) (auditHttp : Except ClientErr Unit) :
    AnswerKnown s r (audited auditHttp answer) := by
  cases auditHttp with
  | ok _ => exact h
  | error e => exact answerKnown_error s r _ _ _

/-- What `aggregate_stats` returns to a request is of that request. -/
theorem callKnown_aggregating (s : StatsSystem F d) (i : StatsInput) (r : StatsRequest) :
    CallKnown s (advanceAggregating i r : StatsCall F d) := by
  unfold advanceAggregating
  cases i.profile with
  | error e => exact answerKnown_error s r _ _ _
  | ok profile =>
    dsimp only
    split
    · next e _ =>
      unfold errorAnswer
      split <;> exact answerKnown_error s r _ _ _
    · trivial
    · rfl

/-- **The next access keeps what is known.** -/
theorem advance_known (h : StatsKnown s) (hle : s.monotonic ≤ i.monotonic) (p : Nat) (s' : StatsSystem F d)
    (hclock : s'.monotonic = i.monotonic)
    (hputs : s'.puts = s.puts ++ ((advanceStats s.cache i (s.calls p)).2.1.map (·, i.monotonic)).toList) :
    TtlCache.Sourced (Put s') ttlSeconds (advanceStats s.cache i (s.calls p)).1 ∧
      CallKnown s' (advanceStats s.cache i (s.calls p)).2.2 := by
  have hsub : ∀ x ∈ s.puts, x ∈ s'.puts := by
    intro x hx
    rw [hputs]
    exact List.mem_append_left _ hx
  have hcache : TtlCache.Sourced (Put s') ttlSeconds s.cache := by
    apply h.cache.mono
    rintro k listing t ⟨hmem, hkey, ht⟩
    exact ⟨hsub _ hmem, hkey, hclock ▸ ht.trans hle⟩
  have hcall := h.calls p
  cases hstate : s.calls p with
  | idle => exact ⟨hcache, trivial⟩
  | looking r =>
    rw [advanceStats]
    split_ifs with hfresh
    · exact ⟨hcache, trivial⟩
    · have hleft := hcache.look i.monotonic (cacheKey r)
      have hfound : ∀ listing, (TtlCache.look s.cache i.monotonic (cacheKey r)).2 = some listing →
          ∃ t, Put s (cacheKey r) listing t ∧ i.monotonic < t + ttlSeconds := fun _ => h.cache.found
      cases hlook : TtlCache.look s.cache i.monotonic (cacheKey r) with
      | mk cache' found =>
        rw [hlook] at hleft hfound
        cases found with
        | none => exact ⟨hleft, trivial⟩
        | some listing =>
          obtain ⟨t, ⟨hmem, hkey, ht⟩, hlt⟩ := hfound listing rfl
          refine ⟨hleft, ?_⟩
          intro listing' served heq
          cases heq
          exact ⟨hkey, t, hsub _ hmem, ht.trans hle, hlt⟩
  | aggregating r => exact ⟨hcache, callKnown_aggregating s' i r⟩
  | putting r listing =>
    rw [hstate] at hcall hputs
    obtain rfl : listing.request = r := hcall
    refine ⟨hcache.put ⟨?_, rfl, hclock.ge⟩, ?_⟩
    · rw [hputs]
      exact List.mem_append_right _ List.mem_cons_self
    · intro listing' served heq
      cases heq
      exact rfl
  | auditing r answer =>
    rw [hstate] at hcall
    exact ⟨hcache, answerKnown_audited (CallKnown.mono hsub hcall) i.auditHttp⟩
  | answered r answer =>
    rw [hstate] at hcall
    exact ⟨hcache, CallKnown.mono hsub hcall⟩

/-- One request moves, the others stand where they stood. -/
theorem callKnown_update {calls : Nat → StatsCall F d} {p : Nat} {call : StatsCall F d} (hcalls : ∀ q, CallKnown s (calls q))
    (hcall : CallKnown s call) (q : Nat) : CallKnown s (Function.update calls p call q) := by
  by_cases hq : q = p
  · subst hq
    rw [Function.update_self]
    exact hcall
  · rw [Function.update_of_ne hq]
    exact hcalls q

theorem statsStep_known (h : StatsKnown s) (a : StatsAction) : StatsKnown (statsStep s a) := by
  cases a with
  | arrive p r =>
    have harrive : StatsKnown { s with calls := Function.update s.calls p (.looking r) } := by
      refine ⟨h.cache, callKnown_update (fun q => ?_) trivial⟩
      exact (h.calls q).mono fun _ hx => hx
    rw [statsStep]
    split
    · exact harrive
    · exact harrive
    · exact h
  | advance p i =>
    rw [statsStep]
    split_ifs with hle
    · obtain ⟨hcache, hcall⟩ := advance_known h hle p
        ⟨(advanceStats s.cache i (s.calls p)).1, Function.update s.calls p (advanceStats s.cache i (s.calls p)).2.2, i.monotonic,
          s.puts ++ ((advanceStats s.cache i (s.calls p)).2.1.map (·, i.monotonic)).toList⟩ rfl rfl
      refine ⟨hcache, callKnown_update (fun q => ?_) hcall⟩
      exact (h.calls q).mono fun _ hx => List.mem_append_left _ hx
    · exact h

theorem initial_known (F : Type) (d : Deployment) : StatsKnown (StatsSystem.initial F d) :=
  ⟨TtlCache.sourced_empty _ _, fun _ => trivial⟩

/-- **In every state of every run** it is known where entries and answers come from. -/
theorem run_known (as : List StatsAction) : StatsKnown (run statsStep (StatsSystem.initial F d) as) :=
  run_inv (I := StatsKnown) (fun _ a h => statsStep_known h a) (initial_known F d) as

/-! ## What a caller would get itself -/

/-- The gates of `aggregate_stats`. -/
def MayAggregate (p : AgentProfile) (pr : Principal) (clk : ReadClock) : Prop :=
  readGate pr clk = .ok () ∧ ∃ ids, tenantIds p pr clk.scope = .ok ids

variable {p : AgentProfile} {pr pr' : Principal} {clk clk' : ReadClock} {wing wing' : Option String} {payload : Stats}
  {api : PagesApi} {rounds : Nat} {now : String} {cfg : AuthConfig}

theorem tenantIds_eq {t : Instant} {ids : List String} (h : tenantIds p pr t = .ok ids) : ids = [pr.tenantId] := by
  unfold tenantIds at h
  split_ifs at h with hstar
  · cases h
    rw [hstar]
  · cases h
    rfl

/-- No filter and an empty one pass over the same. -/
theorem passedOver_congr (hwing : wing'.getD "" = wing.getD "") : passedOver wing' = passedOver wing := by
  funext w
  cases wing <;> cases wing' <;> simp_all [passedOver]

theorem walkPages_congr (hwing : wing'.getD "" = wing.getD "") (ids : List String) :
    walkPages F d wing' ids api = walkPages F d wing ids api := by
  have hrow : tallyRow F d wing' ids = tallyRow F d wing ids := by
    funext t mem
    unfold tallyRow counted
    rw [passedOver_congr hwing]
  funext rounds page t
  induction rounds generalizing page t with
  | zero => rfl
  | succ rounds ih => simp only [walkPages, hrow, ih]

theorem aggregateStats_ok (h : aggregateStats F d p pr clk api rounds now wing = .ok (some payload)) : MayAggregate p pr clk := by
  obtain ⟨⟨⟩, hgate, h⟩ := bind_ok h
  obtain ⟨ids, hids, -⟩ := bind_ok h
  exact ⟨hgate, ids, mapError_ok hids⟩

/-- **The stats of a tenant** are the same for all its callers that pass the gates. -/
theorem aggregateStats_congr (htenant : pr'.tenantId = pr.tenantId) (hwing : wing'.getD "" = wing.getD "")
    (h : aggregateStats F d p pr clk api rounds now wing = .ok (some payload)) (hmay : MayAggregate p pr' clk') :
    aggregateStats F d p pr' clk' api rounds now wing' = .ok (some payload) := by
  obtain ⟨hgate, ids, hids⟩ := aggregateStats_ok h
  obtain ⟨hgate', ids', hids'⟩ := hmay
  obtain rfl := tenantIds_eq hids
  obtain rfl := tenantIds_eq hids'
  rw [← h]
  simp only [aggregateStats, hgate, hgate', hids, hids', mapError_of_ok, ok_then, htenant, walkPages_congr hwing]

/-- What a row of the token database resolves to: a caller without a grant. -/
def OfRecord (cfg : AuthConfig) (pr : Principal) : Prop :=
  ∃ row authPrincipal, principalFromRecord cfg row = .ok authPrincipal ∧ authPrincipal.toPrincipal = pr

/-- It may read, and its tenant is one. -/
theorem OfRecord.reads (hdefault : cfg.deployment.defaultTenantId ≠ "*") (h : OfRecord cfg pr) (clk : ReadClock) :
    readGate pr clk = .ok () ∧ pr.tenantId ≠ "*" := by
  obtain ⟨row, apr, hrow, rfl⟩ := h
  refine ⟨?_, (principalFromRecord_confined hdefault hrow).1⟩
  unfold principalFromRecord at hrow
  dsimp only at hrow
  split_ifs at hrow
  · obtain ⟨rfl, -⟩ := build_ok hrow
    rfl
  · obtain ⟨rfl, -⟩ := build_ok hrow
    rfl
  · obtain ⟨profile, -, hrow⟩ := bind_ok hrow
    obtain ⟨principal, hprincipal, hrow⟩ := bind_ok hrow
    cases hrow
    unfold principalDefaultForProfile at hprincipal
    dsimp only at hprincipal
    split_ifs at hprincipal
    obtain ⟨⟨⟩, -, hpr⟩ := map_ok hprincipal
    rw [← hpr]
    rfl

end

/-- **What the stats route serves.** An answer was listed for its own request, or put less than a minute before the cache was
asked, by a request of the same tenant and wing. Whenever the caller passes the gates it gets the same from that listing itself;
and where it has no grant it passes them at any time, and the counts are those of the rows it may read. -/
theorem stats_served (F : Type) (d : Deployment) (as : List StatsAction) (p : Nat) (r : StatsRequest) (listing : Listing F d)
    (served : ServedFrom) (h : (run statsStep (StatsSystem.initial F d) as).calls p = .answered r (.ok (listing, served))) :
    Whence (run statsStep (StatsSystem.initial F d) as) r listing served ∧
    (∀ clk, MayAggregate listing.profile r.principal clk →
      aggregateStats F d listing.profile r.principal clk listing.api listing.rounds listing.now r.wing = .ok (some listing.payload)) ∧
    ∀ cfg : AuthConfig, cfg.deployment.defaultTenantId ≠ "*" → OfRecord cfg r.principal →
      (∀ clk, MayAggregate listing.profile r.principal clk) ∧
      ((∀ v, d.repr v ≠ "") → ∀ pages, listing.api = pagesApi pages → pages.length < listing.rounds →
        Counts (statRows F d listing.profile r.principal r.wing pages.flatten) listing.payload) := by
  have hknown := (run_known (F := F) (d := d) as).calls p
  rw [h] at hknown
  have hwhence : Whence _ r listing served := hknown listing served rfl
  have hkey : cacheKey listing.request = cacheKey r := by
    cases served with
    | fresh => exact congrArg cacheKey hwhence
    | cache lookedAt => exact hwhence.1
  have htenant : r.principal.tenantId = listing.request.principal.tenantId := (congrArg Prod.fst hkey).symm
  have hwing : r.wing.getD "" = listing.request.wing.getD "" := (congrArg Prod.snd hkey).symm
  have hsame : ∀ clk, MayAggregate listing.profile r.principal clk →
      aggregateStats F d listing.profile r.principal clk listing.api listing.rounds listing.now r.wing = .ok (some listing.payload) :=
    fun clk hmay => aggregateStats_congr htenant hwing listing.returned hmay
  refine ⟨hwhence, hsame, fun cfg hdefault hrecord => ?_⟩
  have hmay : ∀ clk, MaySearch listing.profile r.principal clk := by
    intro clk
    obtain ⟨hgate, hstar⟩ := hrecord.reads hdefault clk
    refine ⟨hgate, hstar, ?_⟩
    -- the profile let the tenant through when the listing was made
    obtain ⟨-, ids, hids⟩ := aggregateStats_ok listing.returned
    unfold tenantIds at hids
    rw [← htenant, if_neg hstar] at hids
    split_ifs at hids with hallowed
    exact hallowed
  have hmayAggregate : ∀ clk, MayAggregate listing.profile r.principal clk :=
    fun clk => ⟨(hmay clk).gate, _, (hmay clk).tenantIds clk.scope⟩
  refine ⟨hmayAggregate, fun hrepr pages hpages hrounds => ?_⟩
  have hown := hsame listing.clk (hmayAggregate _)
  rw [hpages] at hown
  have hread : ListReadable F d pages.flatten := by
    by_contra hread
    obtain ⟨e, he⟩ := aggregateStats_unread r.wing listing.now (hmay listing.clk) hread hrounds
    rw [he] at hown
    cases hown
  obtain ⟨s, hs, hcounts, -⟩ := aggregateStats_spec r.wing listing.now hrepr (hmay listing.clk) hread hrounds
  rw [hown] at hs
  cases hs
  exact hcounts

def firstRequest : StatsRequest := ⟨readerPrincipal, none, false⟩

/-- Of another caller of the tenant, with an empty filter. -/
def secondRequest : StatsRequest := ⟨{ readerPrincipal with id := "agent:other@t_default" }, some "", false⟩

def quietInput (monotonic : ℚ) : StatsInput :=
  ⟨monotonic, .ok readerProfile.toAgentProfile, sampleClock, pagesApi quietPages, 3, "now", .ok ()⟩

/-- The second request is served from the cache, 59 seconds after the first. -/
def cachedRun : List StatsAction :=
  [.arrive 0 firstRequest, .advance 0 (quietInput 0), .advance 0 (quietInput 0), .advance 0 (quietInput 0),
   .arrive 1 secondRequest, .advance 1 (quietInput 59), .advance 1 (quietInput 59)]

def quietListing : Listing Unit statsDeployment :=
  ⟨firstRequest, readerProfile.toAgentProfile, sampleClock, pagesApi quietPages, 3, "now", _, stats_quietPages⟩

theorem advance_quiet (t : ℚ) : advanceAggregating (quietInput t) firstRequest = .putting firstRequest quietListing := by
  unfold advanceAggregating
  simp only [quietInput]
  split
  · next e h => exact absurd (h.symm.trans stats_quietPages) (by simp)
  · next h => exact absurd (h.symm.trans stats_quietPages) (by simp)
  · next payload h =>
    obtain rfl : payload = _ := Option.some.inj (Except.ok.inj (h.symm.trans stats_quietPages))
    rfl

theorem cachedRun_answered : (run statsStep (StatsSystem.initial Unit statsDeployment) cachedRun).calls 1 =
    .answered secondRequest (.ok (quietListing, .cache 59)) := by
  have hkey : cacheKey secondRequest = cacheKey firstRequest := rfl
  have hfresh : firstRequest.fresh = false ∧ secondRequest.fresh = false := ⟨rfl, rfl⟩
  have hclock : ∀ t, (quietInput t).monotonic = t ∧ (quietInput t).auditHttp = .ok () := fun _ => ⟨rfl, rfl⟩
  have hlate : ¬ (60 : ℚ) ≤ 59 := by norm_num
  simp [cachedRun, statsStep, advanceStats, advance_quiet, StatsSystem.initial, TtlCache.look, TtlCache.put, TtlCache.empty,
    hkey, hfresh, hclock, hlate, ttlSeconds, audited]

theorem stats_served_cached : aggregateStats Unit statsDeployment readerProfile.toAgentProfile secondRequest.principal sampleClock
    (pagesApi quietPages) 3 "now" (some "") = .ok (some quietListing.payload) :=
  (stats_served Unit statsDeployment cachedRun 1 secondRequest quietListing (.cache 59) cachedRun_answered).2.1 sampleClock ⟨rfl, _, rfl⟩

end Panella.StatsRoute

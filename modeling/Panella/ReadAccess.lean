import Mathlib.Data.List.ReduceOption
import Panella.Reads

/-!
# What a read hands out

Three gates stand between a row of the store and a caller: the loop of the adapter, the client's filter, and the cut to
`k`, with two sorts and the reader between them. The filter alone decides what may be seen (`filterLoop_sound`); what
comes after it only permutes and cuts (`search_subperm`), so nothing it lets through changes hands.

Main theorem `reads_sound`.
-/

namespace Panella

open Fallible PyJson

/-- A row a caller without break-glass may be shown. -/
structure Visible (p : AgentProfile) (pr : Principal) (h : Hit) : Prop where
  tenant : h.tenantId = pr.tenantId
  allowed : matchesAny h.path p.readAllowlist = true
  notDenied : matchesAny h.path p.deny = false
  status : excludedStatus h.status = false
  tags : ∀ t ∈ h.tags, excludedStatusTag t = false

/-! ## The filter -/

theorem readable_iff {p : AgentProfile} {path : String} :
    readable p path = true ↔ matchesAny path p.readAllowlist = true ∧ matchesAny path p.deny = false := by
  unfold readable
  cases matchesAny path p.deny <;> cases matchesAny path p.readAllowlist <;> decide

theorem hasExcludedRecallStatus_false {h : Hit} :
    hasExcludedRecallStatus h = false ↔ excludedStatus h.status = false ∧ ∀ t ∈ h.tags, excludedStatusTag t = false := by
  simp only [hasExcludedRecallStatus, Bool.or_eq_false_iff, List.any_eq_false, Bool.not_eq_true]

/-- **What `_filter_hits` allows**: some of the hits, in their order, each of a tenant asked for, readable and not
excluded. -/
theorem filterLoop_sound {F : Type} {d : Deployment} {p : AgentProfile} {ids : List String}
    {hits allowed blocked : List (ReadHit F)} (h : filterLoop d p ids hits = .ok (allowed, blocked)) :
    allowed.Sublist hits ∧ ∀ x ∈ allowed, hasExcludedRecallStatus x.toHit = false ∧
      (ids.contains "*" = true ∨ ids.contains x.tenantId = true) ∧ readable p x.path = true := by
  induction hits generalizing allowed blocked with
  | nil => cases h; exact ⟨.slnil, by simp⟩
  | cons hit hits ih =>
    unfold filterLoop at h
    split at h
    · obtain ⟨⟨a, b⟩, hr, heq⟩ := map_ok h
      cases heq
      obtain ⟨hsub, hall⟩ := ih hr
      exact ⟨hsub.cons _, hall⟩
    · next hexcl =>
      split at h
      · cases h
      · next htenant =>
        split at h
        · next hread =>
          obtain ⟨⟨a, b⟩, hr, heq⟩ := map_ok h
          cases heq
          obtain ⟨hsub, hall⟩ := ih hr
          refine ⟨hsub.cons_cons _, ?_⟩
          intro x hx
          rcases List.mem_cons.1 hx with rfl | hx
          · refine ⟨by simpa using hexcl, ?_, hread⟩
            by_cases hstar : ids.contains "*" = true
            · exact .inl hstar
            · right
              simp only [hstar, Bool.not_false, Bool.true_and, Bool.not_eq_true, Bool.not_eq_false'] at htenant
              exact htenant
          · exact hall x hx
        · obtain ⟨⟨a, b⟩, hr, heq⟩ := map_ok h
          cases heq
          obtain ⟨hsub, hall⟩ := ih hr
          exact ⟨hsub.cons _, hall⟩

/-- Without break-glass, the tenants asked for are the caller's own. -/
theorem tenantIds_own {p : AgentProfile} {pr : Principal} {now : Instant} {ids : List String}
    (h : tenantIds p pr now = .ok ids) (hbg : pr.isRootWithBreakGlass now = false) :
    pr.tenantId ≠ "*" ∧ p.allowsTenant pr.tenantId = true ∧ ids = [pr.tenantId] := by
  unfold tenantIds at h
  split at h
  · rw [hbg] at h
    cases h
  · next hstar =>
    split at h
    · next hallow =>
      cases h
      exact ⟨hstar, hallow, rfl⟩
    · cases h

/-- **The client's filter lets only visible rows through.** -/
theorem filterHits_visible {F : Type} {d : Deployment} {p : AgentProfile} {pr : Principal} {clk : ReadClock}
    {hits allowed blocked : List (ReadHit F)} (h : filterHits d p pr clk hits = .ok (allowed, blocked))
    (hbg : pr.isRootWithBreakGlass clk.filterScope = false) :
    allowed.Sublist hits ∧ ∀ x ∈ allowed, Visible p pr x.toHit := by
  unfold filterHits at h
  obtain ⟨ids, hids, h⟩ := bind_ok h
  obtain ⟨hstar, -, rfl⟩ := tenantIds_own (mapError_ok hids) hbg
  obtain ⟨hsub, hall⟩ := filterLoop_sound h
  refine ⟨hsub, ?_⟩
  intro x hx
  obtain ⟨hexcl, htenant, hread⟩ := hall x hx
  obtain ⟨hstatus, htags⟩ := hasExcludedRecallStatus_false.1 hexcl
  obtain ⟨hallow, hdeny⟩ := readable_iff.1 hread
  have hown : x.tenantId = pr.tenantId := by
    rcases htenant with hs | ht
    · exact absurd (by simpa using hs) (Ne.symm hstar)
    · simpa using ht
  exact ⟨hown, hallow, hdeny, hstatus, htags⟩

/-! ## The rows of the store -/

/-- A hit as the store's row alone determines it. -/
def ReadHit.unscored {F : Type} (h : ReadHit F) : ReadHit F := { h with score := none }

/-- The normalized row of a result of the store, if it has one. -/
def storeRow {F : Type} (d : Deployment) (sr : Json) : Option (ReadHit F) :=
  (memoryOf sr).bind fun mem => (d.normalize mem).toOption

theorem normalize_unscored {F : Type} {d : Deployment} {mem : Dict} {hit : ReadHit F} (h : d.normalize mem = .ok hit) :
    hit.unscored = hit := by
  obtain ⟨raw, -, rfl⟩ := map_ok h
  rfl

/-- What a turn of the loop keeps is the row of its result, but for the score. -/
theorem searchHit_row {F : Type} {d : Deployment} {env : ReadEnv F} {ids hints : List String} {sr : Json} {hit : ReadHit F}
    (h : searchHit d env ids hints sr = .ok (some hit)) : storeRow d sr = some hit.unscored := by
  unfold searchHit at h
  split at h
  · cases h
  · next mem hmem =>
    obtain ⟨row, hrow, h⟩ := bind_ok h
    have hn := mapError_ok hrow
    have hs : storeRow d sr = some row := by simp [storeRow, hmem, hn, Except.toOption]
    split at h
    · cases h
    · obtain ⟨score, -, h⟩ := bind_ok h
      rw [hs, ← normalize_unscored hn]
      split at h
      · cases h
      · split at h <;> cases h <;> rfl

/-- A loop whose turns keep rows of their results keeps some of the rows, in their order. -/
theorem turns_sublist {F : Type} {d : Deployment} {turn : Json → Except ClientErr (Option (ReadHit F))}
    (hturn : ∀ sr hit, turn sr = .ok (some hit) → storeRow d sr = some hit.unscored) {results : List Json}
    {kept : List (Option (ReadHit F))} (h : results.mapM turn = .ok kept) :
    (kept.reduceOption.map ReadHit.unscored).Sublist (results.filterMap (storeRow d)) := by
  have hall := mapM_ok h
  clear h
  induction hall with
  | nil => exact .slnil
  | @cons sr o results kept hsr hrest ih =>
    cases o with
    | none =>
      rw [List.reduceOption_cons_of_none]
      exact ih.trans ((List.sublist_cons_self sr results).filterMap _)
    | some hit =>
      rw [List.reduceOption_cons_of_some, List.map_cons, List.filterMap_cons_some (hturn sr hit hsr)]
      exact ih.cons_cons _

/-- **The hits of the adapter are rows the store returned, at most once for each result.** -/
theorem searchMemories_subperm {F : Type} {d : Deployment} {env : ReadEnv F} {api : SearchApi} {k : Int}
    {hints ids : List String} {hits : List (ReadHit F)} (h : searchMemories d env api k hints ids = .ok hits) :
    ∃ payload results, api (max k panellaOverfetchN) = .ok payload ∧ resultsOf payload = .ok results ∧
      (hits.map ReadHit.unscored).Subperm (results.filterMap (storeRow d)) := by
  unfold searchMemories at h
  obtain ⟨payload, hp, h⟩ := bind_ok h
  obtain ⟨results, hr, h⟩ := bind_ok h
  obtain ⟨boosted, hb, h⟩ := bind_ok h
  cases h
  refine ⟨payload, results, hp, mapError_ok hr, ?_⟩
  have hrows := turns_sublist (fun sr hit => searchHit_row) hb
  have hsorted := (sortedBy_perm env.toFloats (fun h => h.score.getD env.negInf) boosted.reduceOption).map ReadHit.unscored
  exact ((slice_sublist _ k).map _).subperm.trans (hsorted.subperm.trans hrows.subperm)

/-! ## The three reads -/

theorem applyProfileBoost_perm {F : Type} (fl : Floats F) (p : ReadProfile F) (hits : List (ReadHit F)) :
    (applyProfileBoost fl p hits).Perm hits := by
  unfold applyProfileBoost
  split
  · exact sortedBy_perm _ _ _
  · exact .refl _

theorem withFallback_ok {α : Type} {first again : Except ClientErr α} {a : α} (h : withFallback first again = .ok a) :
    first = .ok a ∨ again = .ok a := by
  unfold withFallback at h
  split at h
  · split at h
    · exact .inr h
    · cases h
  · exact .inl h

/-- A search that returned: what the store's answer was cut down to, and what the filter let through of it. -/
theorem search_ok {F : Type} {d : Deployment} {env : ReadEnv F} {p : ReadProfile F} {pr : Principal} {clk : ReadClock}
    {sink : AuditSink} {api again : SearchApi} {query : String} {k : Option Int} {hint : Option (List String)}
    {s : Served (List (ReadHit F))} (h : search d env p pr clk sink api again query k hint = .ok s) :
    ∃ n ids reply raw allowed blocked ordered, (reply = api ∨ reply = again) ∧
      searchMemories d env reply n (hintsOf p.toAgentProfile hint) ids = .ok raw ∧
      filterHits d p.toAgentProfile pr clk raw = .ok (allowed, blocked) ∧ ordered.Subperm allowed ∧
      s.value = slice ordered (p.limit k) := by
  unfold search at h
  obtain ⟨⟨⟩, -, h⟩ := bind_ok h
  obtain ⟨ids, -, h⟩ := bind_ok h
  obtain ⟨raw, hraw, h⟩ := bind_ok h
  obtain ⟨⟨allowed, blocked⟩, hfilter, h⟩ := bind_ok h
  obtain ⟨ordered, hordered, h⟩ := bind_ok h
  obtain ⟨audit, -, h⟩ := bind_ok h
  cases h
  have hsub : ordered.Subperm allowed := by
    have hboost := (applyProfileBoost_perm env.toFloats p allowed).subperm
    unfold readStage at hordered
    split at hordered
    · exact (select_subperm hordered).trans hboost
    · cases hordered
      exact hboost
  rcases withFallback_ok hraw with hraw | hraw
  · exact ⟨_, ids, api, raw, allowed, blocked, ordered, .inl rfl, hraw, hfilter, hsub, rfl⟩
  · exact ⟨_, [], again, raw, allowed, blocked, ordered, .inr rfl, hraw, hfilter, hsub, rfl⟩

/-- **A search returns rows of one answer of the store, each at most once.** -/
theorem search_subperm {F : Type} {d : Deployment} {env : ReadEnv F} {p : ReadProfile F} {pr : Principal} {clk : ReadClock}
    {sink : AuditSink} {api again : SearchApi} {query : String} {k : Option Int} {hint : Option (List String)}
    {s : Served (List (ReadHit F))} (h : search d env p pr clk sink api again query k hint = .ok s) :
    ∃ n payload results, (api n = .ok payload ∨ again n = .ok payload) ∧ resultsOf payload = .ok results ∧
      (s.value.map ReadHit.unscored).Subperm (results.filterMap (storeRow d)) := by
  obtain ⟨n, ids, reply, raw, allowed, blocked, ordered, hreply, hraw, hfilter, hordered, hvalue⟩ := search_ok h
  obtain ⟨payload, results, hp, hr, hsub⟩ := searchMemories_subperm hraw
  refine ⟨max n panellaOverfetchN, payload, results, ?_, hr, ?_⟩
  · rcases hreply with rfl | rfl
    · exact .inl hp
    · exact .inr hp
  · have hallowed : allowed.Sublist raw := by
      unfold filterHits at hfilter
      obtain ⟨ids, -, hfilter⟩ := bind_ok hfilter
      exact (filterLoop_sound hfilter).1
    have hraw' : s.value.Subperm raw := by
      rw [hvalue]
      exact (slice_sublist _ _).subperm.trans (hordered.trans hallowed.subperm)
    obtain ⟨part, hperm, hpart⟩ := hraw'
    exact (hperm.map _).symm.subperm.trans ((hpart.map _).subperm.trans hsub)

theorem search_visible {F : Type} {d : Deployment} {env : ReadEnv F} {p : ReadProfile F} {pr : Principal} {clk : ReadClock}
    {sink : AuditSink} {api again : SearchApi} {query : String} {k : Option Int} {hint : Option (List String)}
    {s : Served (List (ReadHit F))} (h : search d env p pr clk sink api again query k hint = .ok s)
    (hbg : pr.isRootWithBreakGlass clk.filterScope = false) : ∀ x ∈ s.value, Visible p.toAgentProfile pr x.toHit := by
  obtain ⟨n, ids, reply, raw, allowed, blocked, ordered, -, -, hfilter, hordered, hvalue⟩ := search_ok h
  intro x hx
  rw [hvalue] at hx
  exact (filterHits_visible hfilter hbg).2 x (hordered.subset ((slice_sublist _ _).subset hx))

/-- A search returns no more rows than were asked for, nor than the profile allows. -/
theorem search_length {F : Type} {d : Deployment} {env : ReadEnv F} {p : ReadProfile F} {pr : Principal} {clk : ReadClock}
    {sink : AuditSink} {api again : SearchApi} {query : String} {k : Option Int} {hint : Option (List String)}
    {s : Served (List (ReadHit F))} (h : search d env p pr clk sink api again query k hint = .ok s)
    (hk : ∀ j ∈ k, 0 ≤ j) : (s.value.length : Int) ≤ min (k.getD p.maxQueryK) p.maxQueryK := by
  obtain ⟨n, ids, reply, raw, allowed, blocked, ordered, -, -, -, -, hvalue⟩ := search_ok h
  have hlimit : 0 ≤ p.limit k := by
    have hmax := p.maxQueryK_pos
    cases k with
    | none => simp only [ReadProfile.limit, Option.getD_none]; omega
    | some j =>
      have hj := hk j rfl
      simp only [ReadProfile.limit, Option.getD_some]
      omega
  rw [hvalue]
  exact length_slice ordered hlimit

theorem getMemory_visible {F : Type} {d : Deployment} {p : AgentProfile} {pr : Principal} {clk : ReadClock} {sink : AuditSink}
    {reply : GetReply} {memoryId : String} {s : Served (Option (ReadHit F))}
    (h : getMemory d p pr clk sink reply memoryId = .ok s) (hbg : pr.isRootWithBreakGlass clk.filterScope = false) :
    ∀ x ∈ s.value, Visible p pr x.toHit := by
  unfold getMemory at h
  obtain ⟨⟨⟩, -, h⟩ := bind_ok h
  obtain ⟨found, -, h⟩ := bind_ok h
  cases found with
  | none => cases h; intro x hx; cases hx
  | some raw =>
    obtain ⟨⟨allowed, blocked⟩, hfilter, h⟩ := bind_ok h
    obtain ⟨-, hall⟩ := filterHits_visible hfilter hbg
    cases allowed with
    | nil => cases h; intro x hx; cases hx
    | cons hit rest =>
      obtain ⟨audit, -, h⟩ := bind_ok h
      cases h
      intro x hx
      obtain rfl := Option.mem_some_iff.1 hx
      exact hall _ List.mem_cons_self

theorem snippet_visible {F : Type} {d : Deployment} {p : AgentProfile} {pr : Principal} {x : ReadHit F}
    (h : Visible p pr x.toHit) : Visible p pr (snippet d x).toHit := by
  simp only [snippet]
  split
  · exact ⟨h.tenant, h.allowed, h.notDenied, h.status, h.tags⟩
  · exact h

theorem sampleByWing_visible {F : Type} {d : Deployment} {p : AgentProfile} {pr : Principal} {clk : ReadClock}
    {api again : ByTagApi} {wing : String} {k : Int} {hits : List (ReadHit F)}
    (h : sampleByWing d p pr clk api again wing k = .ok hits) (hbg : pr.isRootWithBreakGlass clk.filterScope = false) :
    ∀ x ∈ hits, Visible p pr x.toHit := by
  unfold sampleByWing at h
  obtain ⟨⟨⟩, -, h⟩ := bind_ok h
  obtain ⟨ids, -, h⟩ := bind_ok h
  obtain ⟨raw, -, h⟩ := bind_ok h
  obtain ⟨⟨allowed, blocked⟩, hfilter, h⟩ := bind_ok h
  cases h
  intro x hx
  obtain ⟨y, hy, rfl⟩ := List.mem_map.1 ((slice_sublist _ _).subset hx)
  exact snippet_visible ((filterHits_visible hfilter hbg).2 y hy)

/-- What a search hands out: visible rows, no more than asked for and allowed, each a row of the store's answer and at most
once for each of its results. -/
structure SearchSound {F : Type} (d : Deployment) (p : ReadProfile F) (pr : Principal) (k : Option Int)
    (api again : SearchApi) (hits : List (ReadHit F)) : Prop where
  visible : ∀ x ∈ hits, Visible p.toAgentProfile pr x.toHit
  length : (hits.length : Int) ≤ min (k.getD p.maxQueryK) p.maxQueryK
  rows : ∃ n payload results, (api n = .ok payload ∨ again n = .ok payload) ∧ resultsOf payload = .ok results ∧
    (hits.map ReadHit.unscored).Subperm (results.filterMap (storeRow d))

/-! ## A small store -/

/-- Rationals for floats. -/
def sampleFloats : Floats Rat where
  ofJson v :=
    match v with
    | .int n => .ok n
    | _ => .error (.py (.typeError "float() argument must be a string or a real number"))
  lit q := q
  negInf := -1000000
  add a b := a + b
  mul a b := a * b
  lt a b := decide (a < b)
  le a b := decide (a ≤ b)
  isFinite _ := true

def sampleEnv : ReadEnv Rat where
  toFloats := sampleFloats
  panellaReader := some "readerpp"
  panellaReaderOverfetch := none
  scorer := some fun _ _ => .raised
  lower s := s
  isoTimestamp _ := none
  inferred := ([], [])

def readerProfile : ReadProfile Rat where
  name := "serving"
  writeDefault := ⟨"facts", "inbox"⟩
  writeQuota := ⟨100, 10⟩
  memoryTypeAllowlist := []
  retentionPolicy := ⟨none, []⟩
  approvalRequiredFor := []
  readAllowlist := ["facts/*"]
  deny := ["facts/private"]
  tenantScope := ["t_default"]
  writeWingAllowlist := []
  writeRoomAllowlist := []
  enforceWriteAllowlist := false
  finalizerOnly := false
  maxQueryK := 10
  maxQueryK_pos := by decide
  wingBoost := []
  defaultBoost := 1

def readerPrincipal : Principal := ⟨"agent:serving@t_default", "t_default", "owner", ["memory.read"], false, none⟩

def sampleClock : ReadClock := ⟨0, 0, 0, 0, 0, "2026-01-01T00:00:00Z"⟩

def resultRow (hash content room tenant : String) (score : Int) : Json :=
  .obj [("memory", .obj [("content_hash", .str hash), ("content", .str content),
          ("tags", .arr [.str "wing:facts", .str ("room:" ++ room), .str ("tenant:" ++ tenant)])]),
        ("similarity_score", .int score)]

/-- One foreign row, one row of a denied room, one the caller may see, and one that is a string. -/
def sampleSearch : SearchApi := fun _ =>
  .ok (.obj [("results", .arr [resultRow "h1" "a" "inbox" "t_other" 9, resultRow "h2" "b" "private" "t_default" 8,
    resultRow "h3" "c" "inbox" "t_default" 7, .str "row"])])

/-! ## The main theorem -/

/-- **Reads are sound**: whatever the store answers, whatever the reader and its scorer do, and however the clock moves
between two readings of it. -/
theorem reads_sound {F : Type} (d : Deployment) (p : ReadProfile F) (pr : Principal) (clk : ReadClock)
    (hbg : pr.isRootWithBreakGlass clk.filterScope = false) :
    (∀ (env : ReadEnv F) sink api again query k hint s, (∀ j ∈ k, 0 ≤ j) →
      search d env p pr clk sink api again query k hint = .ok s → SearchSound d p pr k api again s.value) ∧
    (∀ sink reply memoryId (s : Served (Option (ReadHit F))),
      getMemory d p.toAgentProfile pr clk sink reply memoryId = .ok s →
        ∀ x ∈ s.value, Visible p.toAgentProfile pr x.toHit) ∧
    ∀ api again wing k (hits : List (ReadHit F)), sampleByWing d p.toAgentProfile pr clk api again wing k = .ok hits →
      ∀ x ∈ hits, Visible p.toAgentProfile pr x.toHit := by
  refine ⟨?_, ?_, ?_⟩
  · intro env sink api again query k hint s hk h
    exact ⟨search_visible h hbg, search_length h hk, search_subperm h⟩
  · intro sink reply memoryId s h
    exact getMemory_visible h hbg
  · intro api again wing k hits h
    exact sampleByWing_visible h hbg

/-- With the reader on and a scorer that raises, the one visible row of four comes back. -/
theorem reads_sound_mixed :
    ∃ s, search sampleDeployment sampleEnv readerProfile readerPrincipal sampleClock (fun _ => .ok ()) sampleSearch
        sampleSearch "q" (some 5) none = .ok s ∧ s.value.map hitContent = ["c"] ∧
      SearchSound sampleDeployment readerProfile readerPrincipal (some 5) sampleSearch sampleSearch s.value := by
  have hrun : (search sampleDeployment sampleEnv readerProfile readerPrincipal sampleClock (fun _ => .ok ()) sampleSearch
      sampleSearch "q" (some 5) none).toOption.map (fun s => s.value.map hitContent) = some ["c"] := by
    decide +kernel
  cases h : search sampleDeployment sampleEnv readerProfile readerPrincipal sampleClock (fun _ => .ok ()) sampleSearch
      sampleSearch "q" (some 5) none with
  | error e => rw [h] at hrun; cases hrun
  | ok s =>
    rw [h] at hrun
    refine ⟨s, rfl, Option.some.inj hrun, ?_⟩
    exact (reads_sound sampleDeployment readerProfile readerPrincipal sampleClock rfl).1 sampleEnv _ _ _ _ _ _ _ (by decide) h

end Panella

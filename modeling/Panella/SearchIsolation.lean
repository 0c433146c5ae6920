import Panella.Lib.StableSort
import Panella.ReadAccess

/-!
# Search between tenants

`search` asks the store for the best `max(fetch, 40)` rows of all tenants, drops what is foreign or excluded, cuts to
`fetch`, and only then drops what the profile denies. So rows the caller may not see take places of rows it may see: foreign
and excluded ones in what the store answers with, denied ones in the cut. `Roomy` says when they do not.

Main theorem `search_isolated`.
-/

namespace Panella

open Fallible PyJson StableSort

/-! ## The store -/

/-- The rows of a store as results of one query, best first. -/
abbrev Ranking : Type := List Json

/-- `POST /api/search` answers with the first results. -/
def Ranking.api (S : Ranking) : SearchApi := fun n => .ok (.obj [("results", .arr (S.take n.toNat))])

/-- Floats among which no `NaN` is: they are ordered, and the factors of the wings leave them so. -/
structure Comparable {F : Type} (fl : Floats F) (real : F → Prop) : Prop where
  asymm : ∀ x y, real x → real y → fl.lt x y = false ∨ fl.lt y x = false
  trans : ∀ x y z, real x → real y → real z → fl.lt x y = false → fl.lt y z = false → fl.lt x z = false
  negInf : real fl.negInf
  mul : ∀ x, real x → ∀ q ∈ [hintWingBoostFactor, outOfHintWingFactor, defaultWingFactor], real (fl.mul x (fl.lit q))

/-- `sr.get("similarity_score")`. -/
def scoreField : Json → Json
  | .obj kvs => Dict.get kvs "similarity_score"
  | _ => .null

/-- What the store promises of the results of a query: the score of each is a number, and a content hash is a key. -/
structure Ranked {F : Type} (d : Deployment) (fl : Floats F) (real : F → Prop) (S : Ranking) : Prop where
  scores : ∀ sr ∈ S, ∃ o, scoreOf fl (scoreField sr) = .ok o ∧ ∀ x ∈ o, real x
  keys : ((S.filterMap (storeRow (F := F) d)).map fun row => row.drawerId).Nodup

/-! ## What the caller may see -/

section
variable {F : Type} (d : Deployment) (env : ReadEnv F) (p : AgentProfile) (pr : Principal) (hints : List String)

/-- The row of a result is of the caller's tenant, active, and of a path the profile allows. -/
def visibleRow (sr : Json) : Bool :=
  (storeRow (F := F) d sr).any fun row =>
    decide (row.tenantId = pr.tenantId) && !hasExcludedRecallStatus row.toHit && readable p row.path

/-- The results with a row the caller may see, in their order. -/
def visibleRows (S : Ranking) : Ranking := S.filter (visibleRow (F := F) d p pr)

/-- The hit of one result, where it is an active row of the caller's tenant. -/
def ownHit (sr : Json) : Option (ReadHit F) := ((searchHit d env [pr.tenantId] hints sr).toOption).join

/-- The active rows of the caller's tenant, with their scores. -/
def ownHits (S : Ranking) : List (ReadHit F) := S.filterMap (ownHit d env pr hints)

/-- `h.get("score")`, with minus infinity for none. -/
def sortScore (h : ReadHit F) : F := h.score.getD env.negInf

/-- The best of them: what `search_memories` keeps of results it can read. -/
def bestHits (fetch : Int) (S : Ranking) : List (ReadHit F) :=
  slice (sortedBy env.toFloats (sortScore env) (ownHits d env pr hints S)) fetch

/-- The rows a search of `fetch` hits gets from the store. -/
def pool (fetch : Int) (S : Ranking) : Ranking := S.take (max fetch panellaOverfetchN).toNat

/-- `_normalize_hit` reads every row. -/
def Readable (S : Ranking) : Prop := ∀ sr ∈ S, ∀ mem, memoryOf sr = some mem → ∃ row : ReadHit F, d.normalize mem = .ok row

/-- **What the caller may not see takes no place**: every row the store answers with can be read, and a visible row is among
the best of the answer where it would be among the best without the other rows. -/
structure Roomy (fetch : Int) (S : Ranking) : Prop where
  reads : Readable (F := F) d (pool fetch S)
  kept : ∀ h : ReadHit F, Visible p pr h.toHit →
    (h ∈ bestHits d env pr hints fetch (pool fetch S) ↔
      h ∈ bestHits d env pr hints fetch (pool fetch (visibleRows (F := F) d p pr S)))

end

/-! ## One row -/

section
variable {F : Type} {d : Deployment} {env : ReadEnv F} {p : AgentProfile} {pr : Principal} {hints : List String}
  {real : F → Prop}

theorem inTenants_own (hstar : pr.tenantId ≠ "*") (t : String) : inTenants [pr.tenantId] t = decide (t = pr.tenantId) := by
  have h : ¬ "*" = pr.tenantId := fun e => hstar e.symm
  simp [inTenants, h]

/-- What a turn of the loop makes of a row it can read. -/
theorem searchHit_read (ids : List String) {sr : Json} {mem : Dict} {row : ReadHit F} {o : Option F}
    (hmem : memoryOf sr = some mem) (hrow : d.normalize mem = .ok row)
    (hscore : scoreOf env.toFloats (scoreField sr) = .ok o) :
    ∃ score, (score = o ∨ score = o.map fun x => env.mul x (wingBoost env.toFloats env.inferred row.wing hints)) ∧
      searchHit d env ids hints sr = .ok (if hasExcludedRecallStatus row.toHit = false ∧ inTenants ids row.tenantId = true
        then some { row with score } else none) := by
  obtain ⟨kvs, rfl⟩ : ∃ kvs, sr = .obj kvs := by
    cases sr with
    | obj kvs => exact ⟨kvs, rfl⟩
    | _ => cases hmem
  have hfield : scoreOf env.toFloats (Dict.get kvs "similarity_score") = .ok o := hscore
  unfold searchHit
  simp only [hmem, hrow, mapError_of_ok, ok_then, hfield]
  by_cases hx : hasExcludedRecallStatus row.toHit = true
  · refine ⟨o, .inl rfl, ?_⟩
    simp [hx]
  · by_cases ht : inTenants ids row.tenantId = true
    · by_cases hh : hints = []
      · refine ⟨o, .inl rfl, ?_⟩
        simp [hx, ht, hh]
      · refine ⟨_, .inr rfl, ?_⟩
        simp [hx, ht, hh]
    · refine ⟨o, .inl rfl, ?_⟩
      simp [hx, ht]

theorem visibleRow_eq (sr : Json) : visibleRow (F := F) d p pr sr = (storeRow (F := F) d sr).any fun row =>
    decide (row.tenantId = pr.tenantId) && !hasExcludedRecallStatus row.toHit && readable p row.path := rfl

theorem visible_iff {h : ReadHit F} : Visible p pr h.toHit ↔
    h.tenantId = pr.tenantId ∧ hasExcludedRecallStatus h.toHit = false ∧ readable p h.path = true := by
  rw [hasExcludedRecallStatus_false, readable_iff]
  constructor
  · intro hv
    exact ⟨hv.tenant, ⟨hv.status, hv.tags⟩, hv.allowed, hv.notDenied⟩
  · rintro ⟨ht, ⟨hs, htags⟩, ha, hd⟩
    exact ⟨ht, ha, hd, hs, htags⟩

/-- A result shows a visible row where the row it carries is one. -/
theorem visibleRow_iff {sr : Json} : visibleRow (F := F) d p pr sr = true ↔
    ∃ row : ReadHit F, storeRow d sr = some row ∧ Visible p pr row.toHit := by
  rw [visibleRow_eq, Option.any_eq_true]
  constructor
  · rintro ⟨row, hrow, h⟩
    refine ⟨row, hrow, visible_iff.2 ?_⟩
    simpa [and_assoc] using h
  · rintro ⟨row, hrow, hv⟩
    refine ⟨row, hrow, ?_⟩
    simpa [and_assoc] using visible_iff.1 hv

variable (d hints) in
theorem ownHit_eq (hstar : pr.tenantId ≠ "*") {sr : Json} {o : Option F}
    (hscore : scoreOf env.toFloats (scoreField sr) = .ok o) :
    ∃ score, (score = o ∨ ∃ wing, score = o.map fun x => env.mul x (wingBoost env.toFloats env.inferred wing hints)) ∧
      ownHit d env pr hints sr = (storeRow (F := F) d sr).bind fun row =>
        if hasExcludedRecallStatus row.toHit = false ∧ row.tenantId = pr.tenantId then some { row with score } else none := by
  cases hmem : memoryOf sr with
  | none =>
    refine ⟨o, .inl rfl, ?_⟩
    simp [ownHit, searchHit, storeRow, hmem, Except.toOption]
  | some mem =>
    cases hrow : d.normalize (F := F) mem with
    | error e =>
      refine ⟨o, .inl rfl, ?_⟩
      simp [ownHit, searchHit, storeRow, hmem, hrow, Except.toOption]
    | ok row =>
      obtain ⟨score, hs, hhit⟩ := searchHit_read [pr.tenantId] hmem hrow hscore
      refine ⟨score, ?_, ?_⟩
      · rcases hs with hs | hs
        · exact .inl hs
        · exact .inr ⟨_, hs⟩
      · simp only [ownHit, hhit, storeRow, hmem, hrow, Except.toOption, inTenants_own hstar, decide_eq_true_eq,
          Option.bind_some]
        rfl

theorem ownHit_row {sr : Json} {h : ReadHit F} (ho : ownHit d env pr hints sr = some h) : storeRow d sr = some h.unscored := by
  unfold ownHit at ho
  cases hs : searchHit d env [pr.tenantId] hints sr with
  | error e => rw [hs] at ho; cases ho
  | ok o =>
    rw [hs] at ho
    cases o with
    | none => cases ho
    | some x =>
      cases ho
      exact searchHit_row hs

/-- The own rows of the results with visible rows are the own rows the profile allows. -/
theorem ownHits_visible (hstar : pr.tenantId ≠ "*") {S : Ranking} (hs : Ranked d env.toFloats real S) :
    ownHits d env pr hints (visibleRows (F := F) d p pr S) =
      (ownHits d env pr hints S).filter fun h => readable p h.path := by
  unfold ownHits visibleRows
  rw [List.filterMap_filter, List.filter_filterMap]
  apply List.filterMap_congr
  intro sr hsr
  obtain ⟨o, hscore, -⟩ := hs.scores sr hsr
  obtain ⟨score, -, hown⟩ := ownHit_eq d hints hstar hscore
  rw [hown, visibleRow_eq]
  cases storeRow (F := F) d sr with
  | none => rfl
  | some row =>
    simp only [Option.any_some, Option.bind_some]
    by_cases ht : hasExcludedRecallStatus row.toHit = false ∧ row.tenantId = pr.tenantId
    · cases hr : readable p row.path <;> simp [Option.filter, ht, hr]
    · have hnot : (decide (row.tenantId = pr.tenantId) && !hasExcludedRecallStatus row.toHit && readable p row.path) = false := by
        rw [Bool.and_assoc, Bool.and_eq_false_iff]
        by_cases hx : hasExcludedRecallStatus row.toHit = false
        · exact .inl (by simpa using fun e => ht ⟨hx, e⟩)
        · exact .inr (by simp [hx])
      simp [ht, hnot]

theorem ownHits_own {S : Ranking} (hstar : pr.tenantId ≠ "*") (hs : Ranked d env.toFloats real S) {h : ReadHit F}
    (hh : h ∈ ownHits d env pr hints S) : hasExcludedRecallStatus h.toHit = false ∧ h.tenantId = pr.tenantId := by
  obtain ⟨sr, hsr, hown⟩ := List.mem_filterMap.1 hh
  obtain ⟨o, hscore, -⟩ := hs.scores sr hsr
  obtain ⟨score, -, heq⟩ := ownHit_eq d hints hstar hscore
  rw [heq] at hown
  obtain ⟨row, -, hrow⟩ := Option.bind_eq_some_iff.1 hown
  split at hrow
  · next ht =>
    cases hrow
    exact ht
  · cases hrow

/-- The factor of a wing is one of three. -/
theorem wingBoost_factor (fl : Floats F) (inferred : List String × List String) (wing : String) (hints : List String) :
    ∃ q ∈ [hintWingBoostFactor, outOfHintWingFactor, defaultWingFactor], wingBoost fl inferred wing hints = fl.lit q := by
  have hfactors : ∀ w x, (resolveWingBias fl inferred hints).factors.lookup w = some x →
      ∃ q ∈ [hintWingBoostFactor, outOfHintWingFactor, defaultWingFactor], x = fl.lit q := by
    intro w x hx
    have hmem : ∃ kv ∈ (resolveWingBias fl inferred hints).factors, kv.2 = x := by
      obtain ⟨l₁, l₂, heq, -⟩ := List.lookup_eq_some_iff.1 hx
      exact ⟨(w, x), by rw [heq]; simp, rfl⟩
    obtain ⟨kv, hkv, rfl⟩ := hmem
    simp only [resolveWingBias] at hkv
    split at hkv
    · obtain ⟨wing, -, rfl⟩ := List.mem_map.1 hkv
      exact ⟨_, by simp, rfl⟩
    · split at hkv
      · rcases List.mem_append.1 hkv with hkv | hkv
        · obtain ⟨wing, -, rfl⟩ := List.mem_map.1 hkv
          exact ⟨_, by simp, rfl⟩
        · obtain ⟨wing, -, rfl⟩ := List.mem_map.1 hkv
          exact ⟨_, by simp, rfl⟩
      · cases hkv
  unfold wingBoost
  simp only
  split
  · exact ⟨_, by simp, rfl⟩
  · split
    · next x hx => exact hfactors _ x hx
    · split
      · exact ⟨_, by simp, rfl⟩
      · exact ⟨_, by simp, rfl⟩

theorem ownHits_real {S : Ranking} (hfl : Comparable env.toFloats real) (hstar : pr.tenantId ≠ "*")
    (hs : Ranked d env.toFloats real S) : ∀ h ∈ ownHits d env pr hints S, real (sortScore env h) := by
  intro h hh
  obtain ⟨sr, hsr, hown⟩ := List.mem_filterMap.1 hh
  obtain ⟨o, hscore, hreal⟩ := hs.scores sr hsr
  obtain ⟨score, hsc, heq⟩ := ownHit_eq d hints hstar hscore
  rw [heq] at hown
  obtain ⟨row, -, hrow⟩ := Option.bind_eq_some_iff.1 hown
  have hscore' : h.score = score := by
    split at hrow
    · cases hrow; rfl
    · cases hrow
  have hall : ∀ x ∈ score, real x := by
    intro x hx
    rcases hsc with rfl | ⟨wing, rfl⟩
    · exact hreal x hx
    · obtain ⟨y, hy, rfl⟩ := Option.map_eq_some_iff.1 hx
      obtain ⟨q, hq, hw⟩ := wingBoost_factor env.toFloats env.inferred wing hints
      rw [hw]
      exact hfl.mul y (hreal y hy) q hq
  unfold sortScore
  rw [hscore']
  cases score with
  | none => exact hfl.negInf
  | some x => exact hall x rfl

theorem ranks_sortScore (hfl : Comparable env.toFloats real) :
    Ranks (fun a b : ReadHit F => env.lt (sortScore env a) (sortScore env b) = false) fun h => real (sortScore env h) :=
  ⟨fun _ _ ha hb => hfl.asymm _ _ ha hb, fun _ _ _ ha hb hc => hfl.trans _ _ _ ha hb hc⟩

variable (pr hints) in
theorem ownHits_nodup {S : Ranking} (hs : Ranked d env.toFloats real S) : (ownHits d env pr hints S).Nodup := by
  have hsub : ((ownHits d env pr hints S).map fun h => h.drawerId).Sublist
      ((S.filterMap (storeRow (F := F) d)).map fun row => row.drawerId) := by
    have hrows : ((ownHits d env pr hints S).map ReadHit.unscored).Sublist (S.filterMap (storeRow (F := F) d)) := by
      unfold ownHits
      clear hs
      induction S with
      | nil => exact .slnil
      | cons sr S ih =>
        cases ho : ownHit d env pr hints sr with
        | none =>
          rw [List.filterMap_cons_none ho]
          exact ih.trans ((List.sublist_cons_self sr S).filterMap _)
        | some h =>
          rw [List.filterMap_cons_some ho, List.map_cons, List.filterMap_cons_some (ownHit_row ho)]
          exact ih.cons_cons _
    have hmap := hrows.map fun row => row.drawerId
    rwa [List.map_map] at hmap
  exact (hsub.nodup hs.keys).of_map

theorem Ranked.sublist {S T : Ranking} (hs : Ranked d env.toFloats real S) (hT : T.Sublist S) :
    Ranked d env.toFloats real T :=
  ⟨fun sr hsr => hs.scores sr (hT.subset hsr), ((hT.filterMap _).map _).nodup hs.keys⟩

/-! ## The adapter on a ranking -/

theorem resultsOf_answer (xs : List Json) : resultsOf (.obj [("results", .arr xs)]) = .ok xs := by
  have htruthy : (Json.obj [("results", .arr xs)]).truthy = true := rfl
  have hget : Dict.get [("results", Json.arr xs)] "results" = .arr xs := by simp [Dict.get]
  simp only [resultsOf, if_pos htruthy, hget]
  cases xs <;> rfl

variable (env pr hints) in
/-- A loop over rows that can all be read runs to its end. -/
theorem turns_own {S : Ranking} (hscores : ∀ sr ∈ S, ∃ o, scoreOf env.toFloats (scoreField sr) = .ok o)
    (hread : Readable (F := F) d S) :
    ∃ kept, S.mapM (searchHit d env [pr.tenantId] hints) = .ok kept ∧ kept.reduceOption = ownHits d env pr hints S := by
  induction S with
  | nil => exact ⟨[], rfl, rfl⟩
  | cons sr S ih =>
    obtain ⟨kept, hkept, hown⟩ := ih (fun x hx => hscores x (List.mem_cons_of_mem sr hx))
      fun x hx => hread x (List.mem_cons_of_mem sr hx)
    obtain ⟨o, hscore⟩ := hscores sr List.mem_cons_self
    obtain ⟨turn, hturn⟩ : ∃ turn, searchHit d env [pr.tenantId] hints sr = .ok turn := by
      cases hmem : memoryOf sr with
      | none => exact ⟨none, by simp [searchHit, hmem]⟩
      | some mem =>
        obtain ⟨row, hrow⟩ := hread sr List.mem_cons_self mem hmem
        obtain ⟨score, -, heq⟩ := searchHit_read [pr.tenantId] hmem hrow hscore
        exact ⟨_, heq⟩
    refine ⟨turn :: kept, by rw [List.mapM_cons, hturn, ok_then, hkept]; rfl, ?_⟩
    have hhit : ownHit d env pr hints sr = turn := by simp [ownHit, hturn, Except.toOption]
    cases turn with
    | none => rw [List.reduceOption_cons_of_none, ownHits, List.filterMap_cons_none hhit, hown, ownHits]
    | some h => rw [List.reduceOption_cons_of_some, ownHits, List.filterMap_cons_some hhit, hown, ownHits]

variable (env hints) in
/-- One row that cannot be read fails the whole search, whatever tenants it is for. -/
theorem turns_unread {S : Ranking} (ids : List String) (hread : ¬ Readable (F := F) d S) :
    ∃ e, S.mapM (searchHit d env ids hints) = .error e := by
  cases hrun : S.mapM (searchHit d env ids hints) with
  | error e => exact ⟨e, rfl⟩
  | ok kept =>
    refine absurd ?_ hread
    intro sr hsr mem hmem
    have hall := mapM_ok hrun
    clear hread hrun
    induction hall with
    | nil => cases hsr
    | @cons x turn S kept hx hrest ih =>
      rcases List.mem_cons.1 hsr with rfl | hsr
      · simp only [searchHit, hmem] at hx
        obtain ⟨row, hrow, -⟩ := bind_ok hx
        exact ⟨row, mapError_ok hrow⟩
      · exact ih hsr

variable (pr hints) in
theorem searchMemories_own {S : Ranking} {fetch : Int} (hs : Ranked d env.toFloats real S)
    (hread : Readable (F := F) d (pool fetch S)) :
    searchMemories d env (Ranking.api S) fetch hints [pr.tenantId] = .ok (bestHits d env pr hints fetch (pool fetch S)) := by
  have hscores : ∀ sr ∈ pool fetch S, ∃ o, scoreOf env.toFloats (scoreField sr) = .ok o := by
    intro sr hsr
    obtain ⟨o, ho, -⟩ := hs.scores sr (List.mem_of_mem_take hsr)
    exact ⟨o, ho⟩
  obtain ⟨kept, hkept, hown⟩ := turns_own env pr hints hscores hread
  simp only [searchMemories, Ranking.api, ok_then, resultsOf_answer, mapError_of_ok]
  change ((pool fetch S).mapM _ >>= _) = _
  rw [hkept, ok_then, hown]
  rfl

variable (env hints) in
theorem searchMemories_unread {S : Ranking} {fetch : Int} (ids : List String)
    (hread : ¬ Readable (F := F) d (pool fetch S)) :
    ∃ e, searchMemories d env (Ranking.api S) fetch hints ids = .error e := by
  obtain ⟨e, he⟩ := turns_unread env hints ids hread
  refine ⟨e, ?_⟩
  simp only [searchMemories, Ranking.api, ok_then, resultsOf_answer, mapError_of_ok]
  change ((pool fetch S).mapM _ >>= _) = _
  rw [he]
  rfl

theorem filterLoop_own {hits : List (ReadHit F)}
    (h : ∀ x ∈ hits, hasExcludedRecallStatus x.toHit = false ∧ x.tenantId = pr.tenantId) :
    ∃ blocked, filterLoop d p [pr.tenantId] hits = .ok (hits.filter fun x => readable p x.path, blocked) := by
  induction hits with
  | nil => exact ⟨[], rfl⟩
  | cons x hits ih =>
    obtain ⟨blocked, hrest⟩ := ih fun y hy => h y (List.mem_cons_of_mem x hy)
    obtain ⟨hx, ht⟩ := h x List.mem_cons_self
    have htenant : (!([pr.tenantId].contains "*") && !([pr.tenantId].contains x.tenantId)) = false := by simp [ht]
    unfold filterLoop
    rw [hx, htenant, hrest]
    cases hr : readable p x.path with
    | true => exact ⟨blocked, by simp [hr, Except.map]⟩
    | false => exact ⟨x :: blocked, by simp [hr, Except.map]⟩

/-! ## The client on a ranking -/

/-- The end of `search`, from the hits the filter allows. -/
def finishSearch (env : ReadEnv F) (p : ReadProfile F) (pr : Principal) (clk : ReadClock) (sink : AuditSink)
    (query : String) (k : Option Int) (allowed : List (ReadHit F)) : Except ClientErr (Served (List (ReadHit F))) := do
  let boosted ← readStage env (readerEnabled env.toReaderEnv) query (applyProfileBoost env.toFloats p allowed) (p.limit k)
  let audit ← auditIfCrossTenant sink pr clk.audit
    (crossTenantWrite pr clk.tsIso "search" "*" none (searchDetails query (p.limit k)) (wf_searchDetails query (p.limit k)))
  .ok ⟨slice boosted (p.limit k), audit⟩

end

section
variable {F : Type} {d : Deployment} {env : ReadEnv F} {p : ReadProfile F} {pr : Principal} {clk : ReadClock}
  {sink : AuditSink} {query : String} {k : Option Int} {hint : Option (List String)} {real : F → Prop} {S S' : Ranking}

/-- How many hits a search asks the adapter for. -/
def searchFetch (d : Deployment) (env : ReadEnv F) (p : ReadProfile F) (k : Option Int) : Int :=
  fetchK d env.toReaderEnv (p.limit k) (readerEnabled env.toReaderEnv)

/-- A caller that passes the gates before the store is asked. -/
structure MaySearch (p : AgentProfile) (pr : Principal) (clk : ReadClock) : Prop where
  gate : readGate pr clk = .ok ()
  star : pr.tenantId ≠ "*"
  allowed : p.allowsTenant pr.tenantId = true

theorem MaySearch.tenantIds {p : AgentProfile} (h : MaySearch p pr clk) (now : Instant) :
    tenantIds p pr now = .ok [pr.tenantId] := by
  rw [Panella.tenantIds, if_neg h.star, if_pos h.allowed]

/-- Without break-glass, whoever does not pass them is stopped at one of two errors. -/
theorem MaySearch.of_gates {p : AgentProfile} (hbg : pr.isRootWithBreakGlass clk.scope = false)
    (h : ¬ MaySearch p pr clk) :
    (∃ e, readGate pr clk = .error e) ∨ readGate pr clk = .ok () ∧ ∃ e, Panella.tenantIds p pr clk.scope = .error e := by
  cases hgate : readGate pr clk with
  | error e => exact .inl ⟨e, rfl⟩
  | ok u =>
    cases hids : Panella.tenantIds p pr clk.scope with
    | error e => exact .inr ⟨rfl, e, rfl⟩
    | ok ids =>
      obtain ⟨hstar, hallow, -⟩ := tenantIds_own hids hbg
      exact absurd ⟨hgate, hstar, hallow⟩ h

variable (d env sink query k hint) in
/-- Whoever does not pass them gets the same error from every store. -/
theorem search_gated (hbg : pr.isRootWithBreakGlass clk.scope = false) (h : ¬ MaySearch p.toAgentProfile pr clk) :
    ∃ e, ∀ S : Ranking, search d env p pr clk sink S.api S.api query k hint = .error e := by
  rcases MaySearch.of_gates hbg h with ⟨e, hgate⟩ | ⟨hgate, e, hids⟩
  · exact ⟨e, fun S => by simp [search, hgate]⟩
  · exact ⟨.py e, fun S => by simp [search, hgate, hids]⟩

/-- The hits a search works on, where it can read the answer of the store. -/
def allowedHits (d : Deployment) (env : ReadEnv F) (p : ReadProfile F) (pr : Principal) (k : Option Int)
    (hint : Option (List String)) (T : Ranking) : List (ReadHit F) :=
  (bestHits d env pr (hintsOf p.toAgentProfile hint) (searchFetch d env p k) T).filter fun h => readable p.toAgentProfile h.path

theorem bestHits_own {hints : List String} {fetch : Int} (hstar : pr.tenantId ≠ "*") (hs : Ranked d env.toFloats real S)
    {h : ReadHit F} (hh : h ∈ bestHits d env pr hints fetch S) :
    hasExcludedRecallStatus h.toHit = false ∧ h.tenantId = pr.tenantId :=
  ownHits_own hstar hs ((sortedBy_perm _ _ _).subset ((slice_sublist _ _).subset hh))

theorem search_read (hmay : MaySearch p.toAgentProfile pr clk) (hs : Ranked d env.toFloats real S)
    (hread : Readable (F := F) d (pool (searchFetch d env p k) S)) :
    search d env p pr clk sink S.api S.api query k hint =
      finishSearch env p pr clk sink query k (allowedHits d env p pr k hint (pool (searchFetch d env p k) S)) := by
  have hpool : Ranked d env.toFloats real (pool (searchFetch d env p k) S) := hs.sublist (List.take_sublist _ _)
  have hall : ∀ x ∈ bestHits d env pr (hintsOf p.toAgentProfile hint) (searchFetch d env p k)
      (pool (searchFetch d env p k) S), hasExcludedRecallStatus x.toHit = false ∧ x.tenantId = pr.tenantId :=
    fun x hx => bestHits_own hmay.star hpool hx
  obtain ⟨blocked, hfilter⟩ := filterLoop_own (d := d) (p := p.toAgentProfile) hall
  have hadapter := searchMemories_own pr (hintsOf p.toAgentProfile hint) hs hread
  unfold search
  simp only [hmay.gate, hmay.tenantIds, ok_then, mapError_of_ok]
  rw [← searchFetch, hadapter]
  simp only [withFallback, filterHits, hmay.tenantIds, ok_then, mapError_of_ok, hfilter]
  rfl

variable (env sink query hint) in
theorem search_unread (hmay : MaySearch p.toAgentProfile pr clk)
    (hread : ¬ Readable (F := F) d (pool (searchFetch d env p k) S)) :
    ∃ e, search d env p pr clk sink S.api S.api query k hint = .error e := by
  obtain ⟨e, he⟩ := searchMemories_unread env (hintsOf p.toAgentProfile hint) [pr.tenantId] hread
  obtain ⟨e', he'⟩ := searchMemories_unread env (hintsOf p.toAgentProfile hint) [] hread
  unfold search
  simp only [hmay.gate, hmay.tenantIds, ok_then, mapError_of_ok]
  rw [← searchFetch, he, he']
  unfold withFallback
  split
  · split
    · exact ⟨e', rfl⟩
    · exact ⟨_, rfl⟩
  · next h => cases h

/-! ## Room for what is visible -/

theorem normalize_of_storeRow {sr : Json} {mem : Dict} {row : ReadHit F} (hmem : memoryOf sr = some mem)
    (h : storeRow d sr = some row) : d.normalize mem = .ok row := by
  simp only [storeRow, hmem, Option.bind_some] at h
  cases hn : d.normalize (F := F) mem with
  | error e => rw [hn] at h; cases h
  | ok r =>
    rw [hn] at h
    cases h
    rfl

theorem mem_visibleRows {T : Ranking} {sr : Json} : sr ∈ visibleRows (F := F) d p.toAgentProfile pr T ↔
    sr ∈ T ∧ visibleRow (F := F) d p.toAgentProfile pr sr = true := List.mem_filter

theorem visibleRows_idem (T : Ranking) : visibleRows (F := F) d p.toAgentProfile pr
    (visibleRows (F := F) d p.toAgentProfile pr T) = visibleRows (F := F) d p.toAgentProfile pr T := by
  unfold visibleRows
  rw [List.filter_filter]
  simp only [Bool.and_self]

theorem readable_visible (T : Ranking) : Readable (F := F) d (visibleRows (F := F) d p.toAgentProfile pr T) := by
  intro sr hsr mem hmem
  obtain ⟨row, hrow, -⟩ := visibleRow_iff.1 (mem_visibleRows.1 hsr).2
  exact ⟨row, normalize_of_storeRow hmem hrow⟩

theorem pool_sublist (fetch : Int) (T : Ranking) : (pool fetch T).Sublist T := List.take_sublist _ _

theorem Readable.sublist {T U : Ranking} (h : Readable (F := F) d T) (hU : U.Sublist T) : Readable (F := F) d U :=
  fun sr hsr => h sr (hU.subset hsr)

/-- A store of visible rows has room for them. -/
theorem roomy_visible (hints : List String) (fetch : Int) (T : Ranking) :
    Roomy d env p.toAgentProfile pr hints fetch (visibleRows (F := F) d p.toAgentProfile pr T) where
  reads := (readable_visible T).sublist (pool_sublist _ _)
  kept h _ := by rw [visibleRows_idem]

/-- Among visible rows the filter of the client drops nothing. -/
theorem allowedHits_visible (hstar : pr.tenantId ≠ "*") (hs : Ranked d env.toFloats real S) :
    allowedHits d env p pr k hint (pool (searchFetch d env p k) (visibleRows (F := F) d p.toAgentProfile pr S)) =
      bestHits d env pr (hintsOf p.toAgentProfile hint) (searchFetch d env p k)
        (pool (searchFetch d env p k) (visibleRows (F := F) d p.toAgentProfile pr S)) := by
  unfold allowedHits
  rw [List.filter_eq_self]
  intro h hh
  have hmem := (sortedBy_perm _ _ _).subset ((slice_sublist _ _).subset hh)
  have hall : h ∈ ownHits d env pr (hintsOf p.toAgentProfile hint) (visibleRows (F := F) d p.toAgentProfile pr S) :=
    ((List.take_sublist _ _).filterMap _).subset hmem
  rw [ownHits_visible hstar hs] at hall
  exact (List.mem_filter.1 hall).2

theorem mem_allowedHits (hstar : pr.tenantId ≠ "*") (hs : Ranked d env.toFloats real S) {h : ReadHit F} :
    h ∈ allowedHits d env p pr k hint S ↔ Visible p.toAgentProfile pr h.toHit ∧
      h ∈ bestHits d env pr (hintsOf p.toAgentProfile hint) (searchFetch d env p k) S := by
  unfold allowedHits
  rw [List.mem_filter]
  constructor
  · rintro ⟨hh, hread⟩
    obtain ⟨hexcl, hown⟩ := bestHits_own hstar hs hh
    exact ⟨visible_iff.2 ⟨hown, hexcl, hread⟩, hh⟩
  · rintro ⟨hv, hh⟩
    exact ⟨hh, (visible_iff.1 hv).2.2⟩

/-- Both lists of hits are in the order of one sort of all the caller may see. -/
theorem allowedHits_sublist (hfl : Comparable env.toFloats real) (hstar : pr.tenantId ≠ "*")
    (hs : Ranked d env.toFloats real S) {T : Ranking} (hT : T.Sublist S) :
    (allowedHits d env p pr k hint T).Sublist
      ((sortedBy env.toFloats (sortScore env) (ownHits d env pr (hintsOf p.toAgentProfile hint) S)).filter
        fun h => readable p.toAgentProfile h.path) := by
  apply List.Sublist.filter
  apply (slice_sublist _ _).trans
  exact insertionSort_sublist (ranks_sortScore hfl) (ownHits_real hfl hstar hs) (ownHits_nodup _ _ hs) (hT.filterMap _)

/-- **With room, a search works on what it would work on without the rows of others.** -/
theorem Roomy.allowedHits (hfl : Comparable env.toFloats real) (hstar : pr.tenantId ≠ "*")
    (hs : Ranked d env.toFloats real S)
    (hroom : Roomy d env p.toAgentProfile pr (hintsOf p.toAgentProfile hint) (searchFetch d env p k) S) :
    allowedHits d env p pr k hint (pool (searchFetch d env p k) S) =
      allowedHits d env p pr k hint (pool (searchFetch d env p k) (visibleRows (F := F) d p.toAgentProfile pr S)) := by
  have hpool : (pool (searchFetch d env p k) S).Sublist S := pool_sublist _ _
  have hvis : (pool (searchFetch d env p k) (visibleRows (F := F) d p.toAgentProfile pr S)).Sublist S :=
    (pool_sublist _ _).trans List.filter_sublist
  have hnodup := (((sortedBy_perm env.toFloats (sortScore env) _).nodup_iff.2
    (ownHits_nodup pr (hintsOf p.toAgentProfile hint) hs)).filter fun h => readable p.toAgentProfile h.path)
  apply sublist_ext hnodup (allowedHits_sublist hfl hstar hs hpool) (allowedHits_sublist hfl hstar hs hvis)
  intro h
  rw [mem_allowedHits hstar (hs.sublist hpool), mem_allowedHits hstar (hs.sublist hvis)]
  exact and_congr_right (hroom.kept h)

/-- **Noninterference**: two stores with room that show the caller the same rows answer a search alike. -/
theorem search_agree (hfl : Comparable env.toFloats real) (hbg : pr.isRootWithBreakGlass clk.scope = false)
    (hs : Ranked d env.toFloats real S) (hs' : Ranked d env.toFloats real S')
    (hagree : visibleRows (F := F) d p.toAgentProfile pr S = visibleRows (F := F) d p.toAgentProfile pr S')
    (hroom : Roomy d env p.toAgentProfile pr (hintsOf p.toAgentProfile hint) (searchFetch d env p k) S)
    (hroom' : Roomy d env p.toAgentProfile pr (hintsOf p.toAgentProfile hint) (searchFetch d env p k) S') :
    search d env p pr clk sink S.api S.api query k hint = search d env p pr clk sink S'.api S'.api query k hint := by
  by_cases hmay : MaySearch p.toAgentProfile pr clk
  · rw [search_read hmay hs hroom.reads, search_read hmay hs' hroom'.reads, hroom.allowedHits hfl hmay.star hs,
      hroom'.allowedHits hfl hmay.star hs', hagree]
  · obtain ⟨e, he⟩ := search_gated d env sink query k hint hbg hmay
    rw [he S, he S']

/-- Without the reader, and with `0 <= k`, a search returns all it works on. -/
theorem finishSearch_perm (hoff : readerEnabled env.toReaderEnv = false) (hk : 0 ≤ p.limit k) {allowed : List (ReadHit F)}
    (hlen : (allowed.length : Int) ≤ p.limit k) {s : Served (List (ReadHit F))}
    (h : finishSearch env p pr clk sink query k allowed = .ok s) : s.value.Perm allowed := by
  unfold finishSearch at h
  rw [hoff] at h
  obtain ⟨boosted, hboosted, h⟩ := bind_ok h
  obtain ⟨audit, -, h⟩ := bind_ok h
  cases h
  cases hboosted
  have hperm := applyProfileBoost_perm env.toFloats p allowed
  have hall : slice (applyProfileBoost env.toFloats p allowed) (p.limit k) = applyProfileBoost env.toFloats p allowed := by
    have hneg : ¬ p.limit k < 0 := by omega
    rw [slice, if_neg hneg]
    apply List.take_of_length_le
    rw [hperm.length_eq]
    omega
  rw [hall]
  exact hperm

theorem length_allowedHits (hoff : readerEnabled env.toReaderEnv = false) (hk : 0 ≤ p.limit k) (T : Ranking) :
    ((allowedHits d env p pr k hint T).length : Int) ≤ p.limit k := by
  have hfetch : searchFetch d env p k = p.limit k := by simp [searchFetch, hoff, fetchK]
  have hbest := length_slice (sortedBy env.toFloats (sortScore env)
    (ownHits d env pr (hintsOf p.toAgentProfile hint) T)) hk
  have hfilter := List.length_filter_le (fun h : ReadHit F => readable p.toAgentProfile h.path)
    (bestHits d env pr (hintsOf p.toAgentProfile hint) (searchFetch d env p k) T)
  unfold allowedHits
  unfold bestHits at *
  rw [hfetch] at *
  omega

/-- Without room, the rows of others show: the search does not return what it returns without them. -/
theorem roomy_of_same (hmay : MaySearch p.toAgentProfile pr clk) (hs : Ranked d env.toFloats real S)
    (hoff : readerEnabled env.toReaderEnv = false) (hk : 0 ≤ p.limit k) {s : Served (List (ReadHit F))}
    (h : search d env p pr clk sink S.api S.api query k hint = .ok s)
    (h' : search d env p pr clk sink (visibleRows (F := F) d p.toAgentProfile pr S).api
      (visibleRows (F := F) d p.toAgentProfile pr S).api query k hint = .ok s) :
    Roomy d env p.toAgentProfile pr (hintsOf p.toAgentProfile hint) (searchFetch d env p k) S := by
  have hread : Readable (F := F) d (pool (searchFetch d env p k) S) := by
    by_contra hread
    obtain ⟨e, he⟩ := search_unread env sink query hint hmay hread
    rw [he] at h
    cases h
  refine ⟨hread, ?_⟩
  have hvis : Ranked d env.toFloats real (visibleRows (F := F) d p.toAgentProfile pr S) := hs.sublist List.filter_sublist
  rw [search_read hmay hs hread] at h
  rw [search_read hmay hvis ((readable_visible S).sublist (pool_sublist _ _))] at h'
  have hperm := (finishSearch_perm hoff hk (length_allowedHits hoff hk _) h).symm.trans
    (finishSearch_perm hoff hk (length_allowedHits hoff hk _) h')
  intro x hx
  have hmem := hperm.mem_iff (a := x)
  rw [mem_allowedHits hmay.star (hs.sublist (pool_sublist _ _)),
    mem_allowedHits hmay.star (hvis.sublist (pool_sublist _ _))] at hmem
  constructor
  · intro hb
    exact (hmem.1 ⟨hx, hb⟩).2
  · intro hb
    exact (hmem.2 ⟨hx, hb⟩).2

end

/-! ## A crowded store -/

/-- Results for rows of one room: hash, tenant and score of each. -/
def rankingOf (rows : List (String × String × Int)) : Ranking := rows.map fun r => resultRow r.1 "a" "inbox" r.2.1 r.2.2

/-- The one row the caller may see. -/
def quietRanking : Ranking := rankingOf [("own", "t_default", 7)]

/-- Forty rows of another tenant score above it. -/
def crowdedRanking : Ranking :=
  rankingOf (((List.range 40).map fun i => ("h" ++ toString i, "t_other", 9)) ++ [("own", "t_default", 7)])

def plainEnv : ReadEnv Rat := { sampleEnv with panellaReader := none }

theorem comparable_rat : Comparable sampleFloats fun _ => True where
  asymm x y _ _ := by
    simp only [sampleFloats, decide_eq_false_iff_not, Rat.not_lt]
    exact (Rat.le_total (a := x) (b := y)).symm
  trans x y z _ _ _ hxy hyz := by
    simp only [sampleFloats, decide_eq_false_iff_not, Rat.not_lt] at *
    exact Rat.le_trans hyz hxy
  negInf := trivial
  mul _ _ _ _ := trivial

theorem resultRow_key (d : Deployment) (hash content room tenant : String) (score : Int) :
    (storeRow (F := Rat) d (resultRow hash content room tenant score)).map (fun row => row.drawerId) = some (.str hash) := by
  rfl

theorem readable_rankingOf (d : Deployment) (rows : List (String × String × Int)) :
    Readable (F := Rat) d (rankingOf rows) := by
  intro sr hsr mem hmem
  obtain ⟨r, -, rfl⟩ := List.mem_map.1 hsr
  obtain ⟨row, hrow, -⟩ := Option.map_eq_some_iff.1 (resultRow_key d r.1 "a" "inbox" r.2.1 r.2.2)
  exact ⟨row, normalize_of_storeRow hmem hrow⟩

/-- Results with scores and different hashes are what a store answers with. -/
theorem ranked_rankingOf (d : Deployment) {rows : List (String × String × Int)} (hkeys : (rows.map Prod.fst).Nodup) :
    Ranked d sampleFloats (fun _ => True) (rankingOf rows) where
  scores := by
    intro sr hsr
    obtain ⟨r, -, rfl⟩ := List.mem_map.1 hsr
    exact ⟨some r.2.2, rfl, fun _ _ => trivial⟩
  keys := by
    have hmap : ((rankingOf rows).filterMap (storeRow (F := Rat) d)).map (fun row => row.drawerId) =
        (rows.map Prod.fst).map Json.str := by
      clear hkeys
      induction rows with
      | nil => rfl
      | cons r rows ih =>
        obtain ⟨row, hrow, hkey⟩ := Option.map_eq_some_iff.1 (resultRow_key d r.1 "a" "inbox" r.2.1 r.2.2)
        rw [rankingOf, List.map_cons, List.filterMap_cons_some hrow, List.map_cons, hkey, ← rankingOf, ih]
        rfl
    rw [hmap]
    exact hkeys.map fun a b e => Json.str.inj e

/-- A foreign row above the visible one, with room for both. -/
def mixedRanking : Ranking := rankingOf [("other", "t_other", 9), ("own", "t_default", 7)]

end Panella

import Mathlib.Algebra.Order.Ring.Unbundled.Rat
import Mathlib.Algebra.Order.Monoid.WithTop
import Mathlib.Tactic.Linarith
import Mathlib.Tactic.NormNum
import Panella.Lib.Rerank
import Panella.SearchIsolation

/-!
# The two boosts of a search (`panella_adapter.py:461-496`, `client.py:876-888`, `wing_boost.py:67-107`)

`search_memories` multiplies a score by the factor of the hit's wing and keeps the best `k`, hits without a score after all others;
`_apply_profile_boost` multiplies by the factor the profile gives the wing and sorts again, a hit without a score as if it had 0.0.
Scores and factors are exact here (`exact`). The list that comes out is the raw hits ranked twice (`ranking_shown`).

Hits of one wing are in the order of their raw scores and raising a score never moves its hit back, always. But a factor above one moves
a score below zero down, and 0.0 is above it: a hinted wing goes before the others, and scoreless hits come last (`Consistent`), if and
only if no score below zero has a part in it, and no tie at zero (**`consistent_iff`**, `negative_before_unscored`).
-/

namespace Panella.WingRanking

open PyJson Rerank Fallible

/-! ## Exact scores -/

/-- Rationals and minus infinity for floats, so that nothing is rounded; `parse` is `float`. -/
def exact (parse : Json → Except ClientErr ℚ) : Floats (WithBot ℚ) where
  ofJson v := (parse v).map (↑)
  lit q := q
  negInf := ⊥
  add := WithBot.map₂ (· + ·)
  mul := WithBot.map₂ (· * ·)
  lt a b := decide (a < b)
  le a b := decide (a ≤ b)
  isFinite a := decide (a ≠ ⊥)

abbrev Hit : Type := ReadHit (WithBot ℚ)

/-- `{"results": [...]}`. -/
def answering (results : List Json) : SearchApi := fun _ => .ok (.obj [("results", .arr results)])

section
variable (d : Deployment) (env : ReadEnv (WithBot ℚ)) (p : ReadProfile (WithBot ℚ)) (k : Int) (hints ids : List String)

/-! ## The raw hits -/

/-- What the loop of `search_memories` makes of a result when nothing is hinted: the hit with its raw score. -/
def rawHit (sr : Json) : Option Hit := (searchHit d env ids [] sr).toOption.join

/-- The raw hits, each with the place of its result. -/
def rawHits (results : List Json) : List (Hit × Nat) :=
  results.zipIdx.filterMap fun x => (rawHit d env ids x.1).map fun hit => (hit, x.2)

/-- The soft boost of `search_memories`. -/
def boosted (hit : Hit) : Hit :=
  if hints = [] then hit
  else { hit with score := hit.score.map fun x => env.mul x (wingBoost env.toFloats env.inferred hit.wing hints) }

/-- The keys of the two sorts. -/
def adapterKey (x : Hit × Nat) : WithBot ℚ := (boosted env hints x.1).score.getD env.negInf
def profileKey (x : Hit × Nat) : WithBot ℚ := boostedScore env.toFloats p (boosted env hints x.1)

/-- How many `[:k]` keeps of so many. -/
def cut (length : Nat) : Nat := (if k < 0 then length + k else k).toNat

/-- The raw hits in the order of the list that comes out. -/
def ranking (results : List Json) : List (Hit × Nat) :=
  let raws := rawHits d env ids results
  rerank (adapterKey env hints) (profileKey env p hints) (cut k raws.length) raws

/-- Fewer hits than are kept go before it in the sort of `search_memories`. -/
def Recalled (results : List Json) (x : Hit × Nat) : Prop :=
  Kept (adapterKey env hints) Prod.snd (cut k (rawHits d env ids results).length) (rawHits d env ids results) x

instance (results : List Json) (x : Hit × Nat) : Decidable (Recalled d env k hints ids results x) :=
  inferInstanceAs (Decidable (Kept ..))

/-- The caller hints at the wing. -/
def Hinted (wing : String) : Prop := PyText.stripSpace wing ∈ normalizeWings hints

/-- The profile's factor for a hit. -/
def profileFactor (hit : Hit) : WithBot ℚ := p.factor (PyText.stripSpace hit.wing)

/-! ## What is asked of the list -/

/-- The list re-ranks consistently. -/
structure Consistent (results : List Json) : Prop where
  sameWing : (ranking d env p k hints ids results).Pairwise fun a b =>
    a.1.wing = b.1.wing → ∀ x ∈ a.1.score, ∀ y ∈ b.1.score, y ≤ x
  hinted : (ranking d env p k hints ids results).Pairwise fun a b => profileFactor p a.1 = profileFactor p b.1 →
    ∀ x ∈ a.1.score, x ∈ b.1.score → Hinted hints b.1.wing → Hinted hints a.1.wing
  raised : ∀ i kvs x v y, results[i]? = some (.obj kvs) →
    scoreOf env.toFloats (Dict.get kvs "similarity_score") = .ok (some x) → scoreOf env.toFloats v = .ok (some y) → x ≤ y →
    ∀ (j : Nat) hit, (ranking d env p k hints ids results)[j]? = some (hit, i) →
      ∃ j' ≤ j, ∃ hit', (ranking d env p k hints ids (results.set i (.obj (Dict.set kvs "similarity_score" v))))[j']? =
        some (hit', i)
  unscoredLast : (ranking d env p k hints ids results).Pairwise fun a b => a.1.score = none → b.1.score = none

/-- No recalled hit of a hinted wing shares a score below zero with one of another wing and its profile factor, nor a score of zero with
one the store has before it; and no scoreless hit is recalled where a score is below zero. -/
structure Tame (results : List Json) : Prop where
  hinted : ∀ a ∈ rawHits d env ids results, ∀ b ∈ rawHits d env ids results, Hinted hints a.1.wing → ¬ Hinted hints b.1.wing →
    profileFactor p a.1 = profileFactor p b.1 → ∀ x ∈ a.1.score, x ∈ b.1.score → (x < 0 ∨ x = 0 ∧ b.2 < a.2) →
      ¬ Recalled d env k hints ids results a
  unscored : ∀ a ∈ rawHits d env ids results, ∀ b ∈ rawHits d env ids results, ∀ x ∈ a.1.score, x < 0 → b.1.score = none →
    ¬ Recalled d env k hints ids results b

end

/-- Every factor of the profile is positive. -/
def Positive (p : ReadProfile (WithBot ℚ)) : Prop := 0 < p.defaultBoost ∧ ∀ kv ∈ p.wingBoost, 0 < kv.2

/-! ## Weights -/

section
variable {d : Deployment} {env : ReadEnv (WithBot ℚ)} {p : ReadProfile (WithBot ℚ)} {k : Int} {hints ids : List String}
  {parse : Json → Except ClientErr ℚ} {results : List Json}

theorem normalizeWings_ne (wings : List String) : "" ∉ normalizeWings wings := by
  have h : ∀ acc : List String, "" ∉ acc → "" ∉ wings.foldl (fun acc wing =>
      let value := PyText.stripSpace wing
      if value ≠ "" ∧ value ∉ acc then acc ++ [value] else acc) acc := by
    induction wings with
    | nil => exact fun _ h => h
    | cons wing wings ih =>
      intro acc hacc
      apply ih
      dsimp only
      split
      · rename_i hvalue
        simpa [hacc] using hvalue.1
      · exact hacc
  exact h [] List.not_mem_nil

theorem lookup_map_const {β : Type} (c : β) (wings : List String) (wing : String) :
    (wings.map fun w => (w, c)).lookup wing = if wing ∈ wings then some c else none := by
  induction wings with
  | nil => rfl
  | cons w wings ih =>
    rw [List.map_cons, List.lookup_cons, ih]
    by_cases h : wing = w
    · simp [h]
    · simp [h, beq_eq_false_iff_ne.2 h]

/-- What a hinted wing's score is multiplied by. -/
theorem wingBoost_of_hinted (fl : Floats (WithBot ℚ)) (inferred : List String × List String) {wing : String}
    (h : Hinted hints wing) : wingBoost fl inferred wing hints = fl.lit hintWingBoostFactor := by
  have hne : PyText.stripSpace wing ≠ "" := fun heq => normalizeWings_ne hints (heq ▸ h)
  have hhints : normalizeWings hints ≠ [] := List.ne_nil_of_mem h
  have hin : PyText.stripSpace wing ∈ normalizeWings hints := h
  simp [wingBoost, hne, resolveWingBias, hhints, lookup_map_const, hin]

/-- Next to a hinted wing, another. -/
theorem wingBoost_of_unhinted (fl : Floats (WithBot ℚ)) (inferred : List String × List String) {wing : String}
    (hhints : normalizeWings hints ≠ []) (h : ¬ Hinted hints wing) :
    wingBoost fl inferred wing hints = fl.lit outOfHintWingFactor ∨ wingBoost fl inferred wing hints = fl.lit defaultWingFactor := by
  have hin : PyText.stripSpace wing ∉ normalizeWings hints := h
  by_cases hne : PyText.stripSpace wing = ""
  · exact .inr (by simp [wingBoost, hne])
  · exact .inl (by simp [wingBoost, hne, resolveWingBias, hhints, lookup_map_const, hin])

/-- What the adapter multiplies a score by. -/
def weight (env : ReadEnv (WithBot ℚ)) (hints : List String) (wing : String) : ℚ :=
  if hints = [] then 1 else (wingBoost env.toFloats env.inferred wing hints).unbotD 1

/-- What the profile multiplies it by. -/
def share (p : ReadProfile (WithBot ℚ)) (hit : Hit) : ℚ := (profileFactor p hit).unbotD 1

theorem weight_pos (hfl : env.toFloats = exact parse) (wing : String) : 0 < weight env hints wing := by
  unfold weight
  split
  · exact one_pos
  · obtain ⟨q, hq, heq⟩ := wingBoost_factor env.toFloats env.inferred wing hints
    rw [heq, hfl]
    simp only [hintWingBoostFactor, outOfHintWingFactor, defaultWingFactor, List.mem_cons, List.not_mem_nil, or_false] at hq
    rcases hq with rfl | rfl | rfl <;> norm_num [exact]

theorem weight_of_hinted (hfl : env.toFloats = exact parse) {wing : String} (h : Hinted hints wing) :
    weight env hints wing = 3 / 2 := by
  have hhints : hints ≠ [] := by
    rintro rfl
    cases h
  rw [weight, if_neg hhints, wingBoost_of_hinted _ _ h, hfl]
  rfl

theorem weight_of_unhinted (hfl : env.toFloats = exact parse) {wing wing' : String} (h : Hinted hints wing')
    (hnot : ¬ Hinted hints wing) : weight env hints wing ≤ 1 := by
  have hhints : hints ≠ [] := by
    rintro rfl
    cases h
  rw [weight, if_neg hhints]
  rcases wingBoost_of_unhinted env.toFloats env.inferred (List.ne_nil_of_mem h) hnot with heq | heq <;>
    rw [heq, hfl] <;> norm_num [exact, outOfHintWingFactor, defaultWingFactor]

theorem share_pos (hp : Positive p) (hit : Hit) : 0 < share p hit ∧ profileFactor p hit = (share p hit : WithBot ℚ) := by
  have hpos : 0 < profileFactor p hit := by
    unfold profileFactor ReadProfile.factor
    cases hlookup : p.wingBoost.lookup (PyText.stripSpace hit.wing) with
    | none => exact hp.1
    | some x =>
      obtain ⟨before, after, heq, -⟩ := List.lookup_eq_some_iff.1 hlookup
      exact hp.2 (PyText.stripSpace hit.wing, x) (by rw [heq]; simp)
  unfold share
  cases hf : profileFactor p hit with
  | bot => simp [hf] at hpos
  | coe q =>
    rw [hf] at hpos
    exact ⟨by simpa using hpos, rfl⟩

/-! ## The keys -/

theorem boosted_score (hfl : env.toFloats = exact parse) {hit : Hit} {q : ℚ} (h : hit.score = some (q : WithBot ℚ)) :
    (boosted env hints hit).score = some ((q * weight env hints hit.wing : ℚ) : WithBot ℚ) := by
  unfold boosted weight
  split
  · rw [h, mul_one]
  · obtain ⟨w, -, hw⟩ := wingBoost_factor env.toFloats env.inferred hit.wing hints
    rw [h, Option.map_some, hw, hfl]
    rfl

theorem boosted_none {hit : Hit} (h : hit.score = none) : (boosted env hints hit).score = none := by
  unfold boosted
  split
  · exact h
  · rw [h, Option.map_none]

theorem boosted_wing (hit : Hit) : (boosted env hints hit).wing = hit.wing := by
  unfold boosted
  split <;> rfl

theorem adapterKey_of_some (hfl : env.toFloats = exact parse) {x : Hit × Nat} {q : ℚ} (h : x.1.score = some (q : WithBot ℚ)) :
    adapterKey env hints x = ((q * weight env hints x.1.wing : ℚ) : WithBot ℚ) := by
  rw [adapterKey, boosted_score hfl h, Option.getD_some]

theorem adapterKey_of_none (hfl : env.toFloats = exact parse) {x : Hit × Nat} (h : x.1.score = none) :
    adapterKey env hints x = ⊥ := by
  rw [adapterKey, boosted_none h, hfl]
  rfl

theorem profileKey_eq (hfl : env.toFloats = exact parse) (hp : Positive p) (x : Hit × Nat) (q : ℚ)
    (h : (boosted env hints x.1).score.getD (env.lit 0) = (q : WithBot ℚ)) :
    profileKey env p hints x = ((q * share p x.1 : ℚ) : WithBot ℚ) := by
  have hfactor := (share_pos hp x.1).2
  rw [profileFactor] at hfactor
  rw [profileKey, boostedScore, boosted_wing, h, hfactor, hfl]
  rfl

theorem profileKey_of_some (hfl : env.toFloats = exact parse) (hp : Positive p) {x : Hit × Nat} {q : ℚ}
    (h : x.1.score = some (q : WithBot ℚ)) :
    profileKey env p hints x = ((q * weight env hints x.1.wing * share p x.1 : ℚ) : WithBot ℚ) := by
  apply profileKey_eq hfl hp
  rw [boosted_score hfl h, Option.getD_some]

theorem profileKey_of_none (hfl : env.toFloats = exact parse) (hp : Positive p) {x : Hit × Nat} (h : x.1.score = none) :
    profileKey env p hints x = ((0 : ℚ) : WithBot ℚ) := by
  rw [profileKey_eq hfl hp x 0, zero_mul]
  rw [boosted_none h, hfl]
  rfl

/-! ## The list that comes out -/

/-- A hint changes the score a turn of the loop sets, and nothing else. -/
theorem searchHit_hinted (sr : Json) :
    searchHit d env ids hints sr = (searchHit d env ids [] sr).map (Option.map (boosted env hints)) := by
  unfold searchHit
  cases sr with
  | obj kvs =>
    cases memoryOf (.obj kvs) with
    | none => rfl
    | some mem =>
      dsimp only
      cases d.normalize (F := WithBot ℚ) mem with
      | error e => rfl
      | ok row =>
        rw [mapError_of_ok, ok_then, ok_then]
        split
        · rfl
        · generalize scoreOf env.toFloats (Dict.get kvs "similarity_score") = outcome
          cases outcome with
          | error e => rfl
          | ok score =>
            rw [ok_then, ok_then]
            split
            · rfl
            · by_cases hhints : hints = [] <;> simp [hhints, boosted, Except.map]
  | _ => rfl

theorem rawHit_of_ok {sr : Json} {o : Option Hit} (h : searchHit d env ids hints sr = .ok o) :
    o = (rawHit d env ids sr).map (boosted env hints) := by
  rw [searchHit_hinted] at h
  obtain ⟨raw, hraw, rfl⟩ := map_ok h
  rw [rawHit, hraw]
  rfl

/-- The score of a raw hit is the one its result has. -/
theorem rawHit_score {sr : Json} {hit : Hit} (h : rawHit d env ids sr = some hit) :
    ∃ kvs, sr = .obj kvs ∧ scoreOf env.toFloats (Dict.get kvs "similarity_score") = .ok hit.score := by
  have hrun : searchHit d env ids [] sr = .ok (some hit) := by
    unfold rawHit at h
    cases hs : searchHit d env ids [] sr with
    | error e => rw [hs] at h; cases h
    | ok o =>
      rw [hs] at h
      obtain rfl : o = some hit := h
      rfl
  unfold searchHit at hrun
  cases sr with
  | obj kvs =>
    refine ⟨kvs, rfl, ?_⟩
    cases hmem : memoryOf (.obj kvs) with
    | none => rw [hmem] at hrun; cases hrun
    | some mem =>
      rw [hmem] at hrun
      obtain ⟨row, -, hrun⟩ := bind_ok hrun
      split at hrun
      · cases hrun
      · obtain ⟨score, hscore, hrun⟩ := bind_ok hrun
        split at hrun
        · cases hrun
        · rw [if_pos rfl] at hrun
          cases hrun
          exact hscore
  | _ => cases hrun

theorem mem_rawHits {hit : Hit} {i : Nat} :
    (hit, i) ∈ rawHits d env ids results ↔ ∃ sr, results[i]? = some sr ∧ rawHit d env ids sr = some hit := by
  simp only [rawHits, List.mem_filterMap, Prod.exists, Option.map_eq_some_iff, Prod.mk.injEq, List.mk_mem_zipIdx_iff_getElem?]
  constructor
  · rintro ⟨sr, j, hsr, hit', hraw, rfl, rfl⟩
    exact ⟨sr, hsr, hraw⟩
  · rintro ⟨sr, hsr, hraw⟩
    exact ⟨sr, i, hsr, hit, hraw, rfl, rfl⟩

/-- The places increase. -/
theorem pairwise_rawHits (results : List Json) : (rawHits d env ids results).Pairwise fun a b => a.2 < b.2 := by
  rw [rawHits, List.pairwise_filterMap]
  have hplaces : results.zipIdx.Pairwise fun a b => a.2 < b.2 := by
    rw [List.pairwise_iff_getElem]
    intro i j hi hj hij
    simpa using hij
  refine hplaces.imp fun {a b} hab x hx y hy => ?_
  obtain ⟨_, -, rfl⟩ := Option.map_eq_some_iff.1 hx
  obtain ⟨_, -, rfl⟩ := Option.map_eq_some_iff.1 hy
  exact hab

/-- A score read is a number. -/
theorem scoreOf_finite (hfl : env.toFloats = exact parse) {v : Json} {x : WithBot ℚ} (h : scoreOf env.toFloats v = .ok (some x)) :
    ∃ q : ℚ, x = (q : WithBot ℚ) := by
  unfold scoreOf at h
  split at h
  · cases h
  · rw [hfl] at h
    dsimp only [exact] at h
    cases hparse : parse v with
    | error e =>
      rw [hparse] at h
      dsimp only [Except.map] at h
      split at h <;> cases h
    | ok q =>
      rw [hparse] at h
      cases h
      exact ⟨q, rfl⟩

theorem raw_finite (hfl : env.toFloats = exact parse) {x : Hit × Nat} (hx : x ∈ rawHits d env ids results) {s : WithBot ℚ}
    (hs : x.1.score = some s) : ∃ q : ℚ, s = (q : WithBot ℚ) := by
  obtain ⟨hit, i⟩ := x
  obtain ⟨sr, -, hraw⟩ := mem_rawHits.1 hx
  obtain ⟨kvs, -, hscore⟩ := rawHit_score hraw
  rw [hs] at hscore
  exact scoreOf_finite hfl hscore

theorem sortedBy_map {α : Type} (hfl : env.toFloats = exact parse) (key : Hit → WithBot ℚ) (f : α → Hit) (l : List α) :
    sortedBy env.toFloats key (l.map f) = (byKey (fun x => key (f x)) l).map f := by
  rw [hfl]
  symm
  apply List.map_insertionSort
  intro a _ b _
  simp [exact]

/-- What the loop keeps is the raw hits, boosted. -/
theorem kept_eq {kept : List (Option Hit)} (h : results.mapM (searchHit d env ids hints) = .ok kept) :
    kept.reduceOption = (rawHits d env ids results).map fun x => boosted env hints x.1 := by
  have hall := mapM_ok h
  rw [rawHits, List.map_filterMap]
  clear h
  have hplaces : ∀ n, kept.reduceOption = (results.zipIdx n).filterMap fun x =>
      Option.map (fun x : Hit × Nat => boosted env hints x.1) ((rawHit d env ids x.1).map fun hit => (hit, x.2)) := by
    induction hall with
    | nil => exact fun _ => rfl
    | @cons sr o results kept hsr hrest ih =>
      intro n
      obtain rfl := rawHit_of_ok hsr
      rw [List.zipIdx_cons, List.filterMap_cons]
      cases rawHit d env ids sr with
      | none => exact ih (n + 1)
      | some hit =>
        rw [Option.map_some, Option.map_some, Option.map_some, List.reduceOption_cons_of_some]
        exact congrArg _ (ih (n + 1))
  exact hplaces 0

/-- The hits `search_memories` returns. -/
theorem searchMemories_eq (hfl : env.toFloats = exact parse) {hits : List Hit}
    (h : searchMemories d env (answering results) k hints ids = .ok hits) :
    hits = ((byKey (adapterKey env hints) (rawHits d env ids results)).take (cut k (rawHits d env ids results).length)).map
      fun x => boosted env hints x.1 := by
  have hresults : resultsOf (.obj [("results", .arr results)]) = .ok results := by cases results <;> rfl
  unfold searchMemories at h
  rw [answering, ok_then, hresults, mapError_of_ok, ok_then] at h
  obtain ⟨kept, hkept, h⟩ := bind_ok h
  cases h
  rw [kept_eq hkept, sortedBy_map hfl, slice, List.length_map, (perm_byKey _ _).length_eq, ← List.map_take]
  rfl

/-- **The list that comes out** is the raw hits, boosted, in the order of the two sorts. -/
theorem ranking_shown (hfl : env.toFloats = exact parse) (hp : Positive p) {hits : List Hit}
    (h : searchMemories d env (answering results) k hints ids = .ok hits) :
    applyProfileBoost env.toFloats p hits = (ranking d env p k hints ids results).map fun x => boosted env hints x.1 := by
  rw [searchMemories_eq hfl h, ranking, rerank, applyProfileBoost]
  split
  · exact sortedBy_map hfl _ _ _
  · -- without a score every key of the second sort is 0.0
    rename_i hnone
    have hkeys : ∀ x ∈ (byKey (adapterKey env hints) (rawHits d env ids results)).take (cut k (rawHits d env ids results).length),
        profileKey env p hints x = ((0 : ℚ) : WithBot ℚ) := by
      intro x hx
      apply profileKey_of_none hfl hp
      have hscore : (boosted env hints x.1).score = none := by
        by_contra hsome
        apply hnone
        rw [List.any_map, List.any_eq_true]
        exact ⟨x, hx, by simpa [Option.isSome_iff_ne_none] using hsome⟩
      unfold boosted at hscore
      split at hscore
      · exact hscore
      · simpa using hscore
    congr 1
    symm
    apply List.Pairwise.insertionSort_eq
    exact List.pairwise_of_forall_mem_list fun a ha b hb => by rw [hkeys a ha, hkeys b hb]

/-! ## What holds always -/

theorem mem_ranking {x : Hit × Nat} :
    x ∈ ranking d env p k hints ids results ↔ x ∈ rawHits d env ids results ∧ Recalled d env k hints ids results x :=
  mem_rerank (pairwise_rawHits results)

theorem pairwise_ranking : (ranking d env p k hints ids results).Pairwise
    (Above (adapterKey env hints) (profileKey env p hints) Prod.snd) := pairwise_rerank (pairwise_rawHits results)

/-- Of two hits of the list the one above comes first. -/
theorem ranking_of_above {P : Hit × Nat → Hit × Nat → Prop} {a b : Hit × Nat} (hP : (ranking d env p k hints ids results).Pairwise P)
    (ha : a ∈ ranking d env p k hints ids results) (hb : b ∈ ranking d env p k hints ids results)
    (h : Above (adapterKey env hints) (profileKey env p hints) Prod.snd a b) : P a b :=
  rerank_of_above (pairwise_rawHits results) hP ha hb h

/-- **One wing**: two hits of it are multiplied by the same positive factors. -/
theorem ranking_sameWing (hfl : env.toFloats = exact parse) (hp : Positive p) :
    (ranking d env p k hints ids results).Pairwise fun a b =>
      a.1.wing = b.1.wing → ∀ x ∈ a.1.score, ∀ y ∈ b.1.score, y ≤ x := by
  refine pairwise_ranking.imp_of_mem fun {a b} ha hb habove hwing x hx y hy => ?_
  obtain ⟨q, rfl⟩ := raw_finite hfl (mem_ranking.1 ha).1 hx
  obtain ⟨r, rfl⟩ := raw_finite hfl (mem_ranking.1 hb).1 hy
  have hkeys := habove.key_le
  have hshare : share p a.1 = share p b.1 := by rw [share, share, profileFactor, profileFactor, hwing]
  rw [profileKey_of_some hfl hp hx, profileKey_of_some hfl hp hy, WithBot.coe_le_coe, hwing, hshare] at hkeys
  rw [WithBot.coe_le_coe]
  have hw : 0 < weight env hints b.1.wing := weight_pos hfl b.1.wing
  exact le_of_mul_le_mul_right (le_of_mul_le_mul_right hkeys (share_pos hp b.1).1) hw

/-- The result with another score is the same hit with that score. -/
theorem rawHit_rescored {kvs : Dict} {v : Json} {x y : WithBot ℚ}
    (hx : scoreOf env.toFloats (Dict.get kvs "similarity_score") = .ok (some x))
    (hy : scoreOf env.toFloats v = .ok (some y)) :
    rawHit d env ids (.obj (Dict.set kvs "similarity_score" v)) =
      (rawHit d env ids (.obj kvs)).map fun hit => { hit with score := some y } := by
  have hmem : memoryOf (.obj (Dict.set kvs "similarity_score" v)) = memoryOf (.obj kvs) := by
    simp only [memoryOf, Dict.get_set]
    rfl
  unfold rawHit searchHit
  rw [hmem]
  cases memoryOf (.obj kvs) with
  | none => rfl
  | some mem =>
    dsimp only
    cases d.normalize (F := WithBot ℚ) mem with
    | error e => rfl
    | ok row =>
      rw [mapError_of_ok, ok_then, ok_then, Dict.get_set, if_pos rfl, hx, hy, ok_then, ok_then, if_pos rfl, if_pos rfl]
      split
      · rfl
      · split <;> rfl

/-- The raw hit of place `i` with another score. -/
def rescore (i : Nat) (y : WithBot ℚ) (x : Hit × Nat) : Hit × Nat := if x.2 = i then ({ x.1 with score := some y }, i) else x

theorem rescore_snd (i : Nat) (y : WithBot ℚ) (x : Hit × Nat) : (rescore i y x).2 = x.2 := by
  unfold rescore
  split
  · rename_i h
    exact h.symm
  · rfl

theorem rawHits_rescored {i : Nat} {kvs : Dict} {v : Json} {x y : WithBot ℚ} (hi : results[i]? = some (.obj kvs))
    (hx : scoreOf env.toFloats (Dict.get kvs "similarity_score") = .ok (some x)) (hy : scoreOf env.toFloats v = .ok (some y)) :
    rawHits d env ids (results.set i (.obj (Dict.set kvs "similarity_score" v))) = (rawHits d env ids results).map (rescore i y) := by
  have hplaces : (results.set i (.obj (Dict.set kvs "similarity_score" v))).zipIdx =
      results.zipIdx.map fun r => if r.2 = i then (.obj (Dict.set kvs "similarity_score" v), i) else r := by
    apply List.ext_getElem
    · simp
    · intro j hj hj'
      simp only [List.getElem_zipIdx, List.getElem_set, List.getElem_map, Nat.zero_add]
      by_cases h : i = j
      · simp [h]
      · simp [h, Ne.symm h]
  rw [rawHits, hplaces, List.filterMap_map, rawHits, List.map_filterMap]
  apply List.filterMap_congr
  rintro ⟨sr, j⟩ hr
  rw [List.mk_mem_zipIdx_iff_getElem?] at hr
  by_cases h : j = i
  · subst h
    obtain rfl : Json.obj kvs = sr := Option.some.inj (hi.symm.trans hr)
    simp only [Function.comp_apply, ↓reduceIte, rawHit_rescored hx hy, Option.map_map]
    apply Option.map_congr
    intro hit _
    simp [rescore]
  · simp only [Function.comp_apply, h, ↓reduceIte, Option.map_map]
    apply Option.map_congr
    intro hit _
    simp [rescore, h]

/-- **A raised score** does not move its hit back. -/
theorem ranking_raised (hfl : env.toFloats = exact parse) (hp : Positive p) {i j : Nat} {kvs : Dict} {v : Json}
    {x y : WithBot ℚ} {hit : Hit} (hi : results[i]? = some (.obj kvs)) (hx : scoreOf env.toFloats (Dict.get kvs "similarity_score") = .ok (some x))
    (hy : scoreOf env.toFloats v = .ok (some y)) (hle : x ≤ y) (hj : (ranking d env p k hints ids results)[j]? = some (hit, i)) :
    ∃ j' ≤ j, ∃ hit',
      (ranking d env p k hints ids (results.set i (.obj (Dict.set kvs "similarity_score" v))))[j']? = some (hit', i) := by
  have hmem := (mem_ranking.1 (List.mem_of_getElem? hj)).1
  obtain ⟨q, rfl⟩ := scoreOf_finite hfl hx
  obtain ⟨r, rfl⟩ := scoreOf_finite hfl hy
  rw [WithBot.coe_le_coe] at hle
  have hscore : hit.score = some ((q : ℚ) : WithBot ℚ) := by
    obtain ⟨sr, hsr, hraw⟩ := mem_rawHits.1 hmem
    obtain ⟨kvs', rfl, hs⟩ := rawHit_score hraw
    obtain rfl : kvs = kvs' := Json.obj.inj (Option.some.inj (hi.symm.trans hsr))
    exact (Except.ok.inj (hx.symm.trans hs)).symm
  have hraised : rescore i r (hit, i) = ({ hit with score := some ((r : ℚ) : WithBot ℚ) }, i) := if_pos rfl
  have hsame : ∀ b ∈ rawHits d env ids results, b ≠ (hit, i) → rescore i r b = b := by
    rintro ⟨hit', i'⟩ hb hne
    apply if_neg
    rintro rfl
    obtain ⟨sr, hsr, hraw⟩ := mem_rawHits.1 hmem
    obtain ⟨sr', hsr', hraw'⟩ := mem_rawHits.1 hb
    obtain rfl := Option.some.inj (hsr.symm.trans hsr')
    exact hne (by rw [Option.some.inj (hraw'.symm.trans hraw)])
  have hw : 0 < weight env hints hit.wing := weight_pos hfl hit.wing
  have hweighted := mul_le_mul_of_nonneg_right hle hw.le
  have hkey₁ : adapterKey env hints (hit, i) ≤ adapterKey env hints (rescore i r (hit, i)) := by
    rw [hraised, adapterKey_of_some hfl hscore, adapterKey_of_some hfl rfl, WithBot.coe_le_coe]
    exact hweighted
  have hkey₂ : profileKey env p hints (hit, i) ≤ profileKey env p hints (rescore i r (hit, i)) := by
    rw [hraised, profileKey_of_some hfl hp hscore, profileKey_of_some hfl hp rfl, WithBot.coe_le_coe]
    exact mul_le_mul_of_nonneg_right hweighted (share_pos hp hit).1.le
  obtain ⟨j', hj', hlist⟩ := rerank_raise (pairwise_rawHits results) (fun b _ => rescore_snd i r b) hsame hkey₁ hkey₂ hj
  refine ⟨j', hj', { hit with score := some ((r : ℚ) : WithBot ℚ) }, ?_⟩
  rw [ranking, rawHits_rescored hi hx hy, List.length_map, ← hraised]
  exact hlist

/-! ## What holds of tame results -/

/-- Two hits of one raw score and one profile factor, in the second sort. -/
theorem profileKey_same (hfl : env.toFloats = exact parse) (hp : Positive p) {a b : Hit × Nat} {q : ℚ}
    (ha : a.1.score = some (q : WithBot ℚ)) (hb : b.1.score = some (q : WithBot ℚ)) (hf : profileFactor p a.1 = profileFactor p b.1) :
    profileKey env p hints a ≤ profileKey env p hints b ↔ q * weight env hints a.1.wing ≤ q * weight env hints b.1.wing := by
  have hshare : share p a.1 = share p b.1 := by rw [share, share, hf]
  rw [profileKey_of_some hfl hp ha, profileKey_of_some hfl hp hb, WithBot.coe_le_coe, hshare]
  exact mul_le_mul_iff_of_pos_right (share_pos hp b.1).1

theorem adapterKey_same (hfl : env.toFloats = exact parse) {a b : Hit × Nat} {q : ℚ} (ha : a.1.score = some (q : WithBot ℚ))
    (hb : b.1.score = some (q : WithBot ℚ)) :
    adapterKey env hints a ≤ adapterKey env hints b ↔ q * weight env hints a.1.wing ≤ q * weight env hints b.1.wing := by
  rw [adapterKey_of_some hfl ha, adapterKey_of_some hfl hb, WithBot.coe_le_coe]

/-- A hinted wing multiplies by more than another. -/
theorem weight_lt (hfl : env.toFloats = exact parse) {wing wing' : String} (h : Hinted hints wing) (h' : ¬ Hinted hints wing') :
    weight env hints wing' < weight env hints wing := by
  rw [weight_of_hinted hfl h]
  linarith [weight_of_unhinted hfl h h']

/-- Below zero, and at zero where the store has it first, an unhinted hit is before the hinted one in both sorts. -/
theorem above_of_unhinted (hfl : env.toFloats = exact parse) (hp : Positive p) {a b : Hit × Nat} {q : ℚ}
    (ha : a.1.score = some (q : WithBot ℚ)) (hb : b.1.score = some (q : WithBot ℚ)) (hf : profileFactor p a.1 = profileFactor p b.1)
    (hha : Hinted hints a.1.wing) (hhb : ¬ Hinted hints b.1.wing) (h : q < 0 ∨ q = 0 ∧ b.2 < a.2) :
    Ahead (adapterKey env hints) Prod.snd b a ∧ Above (adapterKey env hints) (profileKey env p hints) Prod.snd b a := by
  have hlt := weight_lt hfl hha hhb
  rcases h with hneg | ⟨rfl, hplace⟩
  · have hmul : q * weight env hints a.1.wing < q * weight env hints b.1.wing := mul_lt_mul_of_neg_left hlt hneg
    refine ⟨.inl (lt_of_not_ge fun h => ?_), .inl (lt_of_not_ge fun h => ?_)⟩
    · exact absurd ((adapterKey_same hfl hb ha).1 h) (not_le.2 hmul)
    · exact absurd ((profileKey_same hfl hp hb ha hf.symm).1 h) (not_le.2 hmul)
  · have hkey₁ : adapterKey env hints a = adapterKey env hints b := by
      rw [adapterKey_of_some hfl ha, adapterKey_of_some hfl hb, zero_mul, zero_mul]
    have hkey₂ : profileKey env p hints a = profileKey env p hints b := by
      rw [profileKey_of_some hfl hp ha, profileKey_of_some hfl hp hb, zero_mul, zero_mul, zero_mul, zero_mul]
    exact ⟨.inr ⟨hkey₁, hplace⟩, .inr ⟨hkey₂, .inr ⟨hkey₁, hplace⟩⟩⟩

/-- A scoreless hit is behind every other in the first sort, and before a score below zero in the second. -/
theorem above_of_unscored (hfl : env.toFloats = exact parse) (hp : Positive p) {a b : Hit × Nat} {q : ℚ}
    (ha : a.1.score = some (q : WithBot ℚ)) (hb : b.1.score = none) :
    Ahead (adapterKey env hints) Prod.snd a b ∧
      (q < 0 → Above (adapterKey env hints) (profileKey env p hints) Prod.snd b a) := by
  constructor
  · refine .inl ?_
    rw [adapterKey_of_none hfl hb, adapterKey_of_some hfl ha]
    exact WithBot.bot_lt_coe _
  · intro hneg
    refine .inl ?_
    rw [profileKey_of_none hfl hp hb, profileKey_of_some hfl hp ha, WithBot.coe_lt_coe]
    exact mul_neg_of_neg_of_pos (mul_neg_of_neg_of_pos hneg (weight_pos hfl a.1.wing)) (share_pos hp a.1).1

theorem Tame.consistent (hfl : env.toFloats = exact parse) (hp : Positive p) (h : Tame d env p k hints ids results) :
    Consistent d env p k hints ids results := by
  refine ⟨ranking_sameWing hfl hp, ?_, ?_, ?_⟩
  · refine pairwise_ranking.imp_of_mem fun {a b} ha hb habove hf x hxa hxb hhb => ?_
    obtain ⟨q, rfl⟩ := raw_finite hfl (mem_ranking.1 ha).1 hxa
    by_contra hha
    have hlt := weight_lt hfl hhb hha
    refine h.hinted b (mem_ranking.1 hb).1 a (mem_ranking.1 ha).1 hhb hha hf.symm q hxb hxa ?_ (mem_ranking.1 hb).2
    have hle : q * weight env hints b.1.wing ≤ q * weight env hints a.1.wing := (profileKey_same hfl hp hxb hxa hf.symm).1 habove.key_le
    have hq : q ≤ 0 := by
      by_contra hpos
      exact absurd (mul_lt_mul_of_pos_left hlt (not_le.1 hpos)) (not_lt.2 hle)
    rcases hq.lt_or_eq with hneg | rfl
    · exact .inl (by simpa using hneg)
    · -- both keys are zero, so the place decided
      refine .inr ⟨rfl, ?_⟩
      rcases habove with hkey | ⟨-, hkey | ⟨-, hplace⟩⟩
      · simp [profileKey_of_some hfl hp hxa, profileKey_of_some hfl hp hxb] at hkey
      · simp [adapterKey_of_some hfl hxa, adapterKey_of_some hfl hxb] at hkey
      · exact hplace
  · intro i kvs x v y hi hx hy hle j hit hj
    exact ranking_raised hfl hp hi hx hy hle hj
  · refine pairwise_ranking.imp_of_mem fun {a b} ha hb habove hna => ?_
    by_contra hsome
    obtain ⟨x, hx⟩ := Option.ne_none_iff_exists'.1 hsome
    obtain ⟨q, rfl⟩ := raw_finite hfl (mem_ranking.1 hb).1 hx
    have hneg : ¬ q < 0 := fun hneg =>
      h.unscored b (mem_ranking.1 hb).1 a (mem_ranking.1 ha).1 q hx (by simpa using hneg) hna (mem_ranking.1 ha).2
    have hkey : profileKey env p hints a ≤ profileKey env p hints b := by
      rw [profileKey_of_none hfl hp hna, profileKey_of_some hfl hp hx, WithBot.coe_le_coe]
      exact mul_nonneg (mul_nonneg (not_lt.1 hneg) (weight_pos hfl b.1.wing).le) (share_pos hp b.1).1.le
    exact Above.asymm _ _ habove (hkey.lt_or_eq.imp_right fun heq => ⟨heq, (above_of_unscored hfl hp hx hna).1⟩)

theorem Consistent.tame (hfl : env.toFloats = exact parse) (hp : Positive p) (h : Consistent d env p k hints ids results) :
    Tame d env p k hints ids results := by
  constructor
  · intro a ha b hb hha hhb hf x hxa hxb hx hrecalled
    obtain ⟨q, rfl⟩ := raw_finite hfl ha hxa
    have hq : q < 0 ∨ q = 0 ∧ b.2 < a.2 := by simpa using hx
    obtain ⟨hahead, habove⟩ := above_of_unhinted hfl hp hxa hxb hf hha hhb hq
    have hfirst := ranking_of_above h.hinted (mem_ranking.2 ⟨hb, hrecalled.of_ahead hahead⟩) (mem_ranking.2 ⟨ha, hrecalled⟩) habove
    exact hhb (hfirst hf.symm q hxb hxa hha)
  · intro a ha b hb x hxa hx hnone hrecalled
    obtain ⟨q, rfl⟩ := raw_finite hfl ha hxa
    have hq : q < 0 := by simpa using hx
    obtain ⟨hahead, habove⟩ := above_of_unscored hfl hp hxa hnone
    have hfirst := ranking_of_above h.unscoredLast (mem_ranking.2 ⟨hb, hrecalled⟩) (mem_ranking.2 ⟨ha, hrecalled.of_ahead hahead⟩)
      (habove hq)
    exact absurd (hfirst hnone) (by rw [hxa]; simp)

/-- The list that comes out re-ranks consistently if and only if the results are tame. -/
theorem consistent_iff (hfl : env.toFloats = exact parse) (hp : Positive p) {hits : List Hit}
    (h : searchMemories d env (answering results) k hints ids = .ok hits) :
    applyProfileBoost env.toFloats p hits = (ranking d env p k hints ids results).map (fun x => boosted env hints x.1) ∧
      (Consistent d env p k hints ids results ↔ Tame d env p k hints ids results) :=
  ⟨ranking_shown hfl hp h, Consistent.tame hfl hp, Tame.consistent hfl hp⟩

end

/-! ## A score below zero -/

/-- `float`, of the ints of the sample. -/
def parseInt : Json → Except ClientErr ℚ
  | .int n => .ok n
  | _ => .error (.py (.typeError "float() argument must be a string or a real number"))

def exactEnv : ReadEnv (WithBot ℚ) where
  toFloats := exact parseInt
  panellaReader := none
  panellaReaderOverfetch := none
  scorer := none
  lower s := s
  isoTimestamp _ := none
  inferred := ([], [])

theorem exactProfile_maxQueryK : (0 : Int) < 10 := by decide

def exactProfile : ReadProfile (WithBot ℚ) where
  toAgentProfile := readerProfile.toAgentProfile
  maxQueryK := 10
  maxQueryK_pos := exactProfile_maxQueryK
  wingBoost := [("facts", ((2 : ℚ) : WithBot ℚ))]
  defaultBoost := ((1 : ℚ) : WithBot ℚ)

theorem exactProfile_positive : Positive exactProfile := by
  refine ⟨by simp [exactProfile], ?_⟩
  intro kv hkv
  obtain rfl := List.mem_singleton.1 hkv
  simp

/-- A row of similarity -1, and one without a score. -/
def opposedResults : List Json :=
  [resultRow "h1" "a" "inbox" "t_default" (-1),
    .obj [("memory", .obj [("content_hash", .str "h2"), ("content", .str "b"), ("tags", .arr [.str "wing:facts"])])]]

theorem consistent_iff_opposed : ∃ hits, searchMemories sampleDeployment exactEnv (answering opposedResults) 5 ["facts"] [] = .ok hits ∧
    applyProfileBoost exactEnv.toFloats exactProfile hits =
      (ranking sampleDeployment exactEnv exactProfile 5 ["facts"] [] opposedResults).map (fun x => boosted exactEnv ["facts"] x.1) ∧
    (Consistent sampleDeployment exactEnv exactProfile 5 ["facts"] [] opposedResults ↔
      Tame sampleDeployment exactEnv exactProfile 5 ["facts"] [] opposedResults) := by
  have hrun : (searchMemories sampleDeployment exactEnv (answering opposedResults) 5 ["facts"] []).toOption.isSome = true := by
    decide +kernel
  cases h : searchMemories sampleDeployment exactEnv (answering opposedResults) 5 ["facts"] [] with
  | error e => rw [h] at hrun; cases hrun
  | ok hits => exact ⟨hits, rfl, consistent_iff rfl exactProfile_positive h⟩

/-- The scoreless row comes before the one that has a score. -/
theorem negative_before_unscored : ¬ Consistent sampleDeployment exactEnv exactProfile 5 ["facts"] [] opposedResults := by
  intro h
  obtain ⟨a, ha, hscore⟩ : ∃ a ∈ rawHits sampleDeployment exactEnv [] opposedResults, ((-1 : ℚ) : WithBot ℚ) ∈ a.1.score := by
    decide +kernel
  obtain ⟨b, hb, hnone, hrecalled⟩ : ∃ b ∈ rawHits sampleDeployment exactEnv [] opposedResults, b.1.score = none ∧
      Recalled sampleDeployment exactEnv 5 ["facts"] [] opposedResults b := by
    decide +kernel
  have hneg : ((-1 : ℚ) : WithBot ℚ) < 0 := by decide +kernel
  exact (h.tame rfl exactProfile_positive).unscored a ha b hb _ hscore hneg hnone hrecalled

end Panella.WingRanking

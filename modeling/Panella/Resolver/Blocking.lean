import Mathlib.Algebra.Order.Field.Rat
import Mathlib.Data.Finset.Union
import Panella.Lib.Json
import Panella.Resolver.Risk

/-!
# The choice set (`panella/resolver/blocking.py`)

| here | there |
| --- | --- |
| `slotScore`, `scoreComponents` | `_slot_score` (:117-126), `score_components` (:142-153) |
| `assembleBlocking` | `assemble_blocking` (:160-212) |
| `blockingRulesHash` | `BLOCKING_RULES_HASH` (:57-101) |

The forced slots come first and are never left out; behind them the best of the others, by score and then by id.
-/

namespace Panella.Resolver

open PyJson PyText SortedSet

/-- `BLOCKING_STOPWORDS`. -/
def blockingStopwords : List String :=
  ["i", "me", "we", "us", "you", "they", "he", "she", "it", "is", "am", "are", "was", "were", "be", "been",
   "being", "have", "has", "had", "do", "does", "did", "will", "would", "shall", "should", "can", "could",
   "may", "might", "must", "to", "from", "with", "without", "at", "on", "off", "by", "as", "and", "or", "but",
   "nor", "not", "no", "yes", "this", "that", "these", "those", "there", "here", "so", "such", "very",
   "really", "just", "also", "about", "into", "onto", "over", "under", "after", "before", "when", "while",
   "since", "because", "though", "although", "if", "then", "than", "too", "again", "still", "only", "even",
   "much", "many", "more", "most", "some", "any", "all", "both", "each", "every", "other", "another", "same",
   "via", "per", "use", "uses", "used", "using", "like", "likes", "liked", "want", "wants", "wanted", "get",
   "gets", "got", "gotten", "make", "makes", "made", "take", "takes", "took", "go", "goes", "went", "going",
   "say", "says", "said", "tell", "tells", "told", "know", "knows", "knew", "think", "thinks", "thought"]

def v1ChoiceSetK : Nat := 8
def maxForced : Nat := 8

/-- `_choice_hash`. -/
def choiceHash (choiceSet : List String) : String := Sha256.hexdigest (Sha256.utf8 ("\n".intercalate choiceSet))

/-- `blocking_v1_operative_rules_canonical`, before it is written out. -/
def blockingRules : Json :=
  .obj
    [("choice_set", .obj
        [("limit", .obj [("base", .int v1ChoiceSetK), ("subtract", .str "forced_count")]),
         ("ranked", .obj [("eligible", .str "score_gt_zero"), ("order", .arr [.str "score_desc", .str "slot_id_asc"])])]),
     ("forced", .obj
        [("deduplicate", .bool true), ("order", .str "slot_id_asc"), ("prefix", .bool true),
         ("sources", .arr [.str "risk_matched_hr_slot_ids", .str "guarded_target_id"])]),
     ("overflow", .obj
        [("if_forced_count_gt", .int maxForced),
         ("result", .obj
            [("choices", .str "empty"), ("forced_overflow", .bool true), ("receipt_choice_set", .str "forced_tuple"),
             ("receipt_forced_ids", .str "forced_tuple")])]),
     ("scoring", .obj
        [("candidate_surfaces", .arr [.str "raw_domain", .str "value", .str "evidence_text"]),
         ("eligibility", .str "score_gt_zero"), ("weights", .arr [.int 3, .int 2, .int 1])]),
     ("slice", .obj [("hr_if_any", .arr [.str "risk_evidence_any", .str "choice_set_has_high_risk"])]),
     ("tokens", .obj
        [("blocking_terms", .bool false), ("normalizer", .str "resolver_normalize"),
         ("normalizer_rules_hash", .str normalizerRulesHash), ("split", .str "underscore"), ("stopwords", .bool false),
         ("trigram", .bool false)])]

def blockingRulesHash : String :=
  Sha256.hexdigest (Sha256.utf8 (String.ofList (encode compact (sortKeys blockingRules))))

inductive Slice
  | benign
  | hr
deriving DecidableEq, Repr

def Slice.name : Slice → String
  | .benign => "benign"
  | .hr => "hr"

structure SlotView where
  slotId : String
  description : String
  highRisk : Bool
  denyNeighborNote : Option String

structure BlockingReceipt where
  choiceSet : List String
  choiceSetHash : String
  slice : Slice
  forcedIds : List String

structure BlockingResult where
  receipt : BlockingReceipt
  choices : List SlotView
  forcedOverflow : Bool

inductive ScoringMode
  | v1
  | v2Instrument

/-- What the resolver raises. -/
inductive ResolverErr
  | valueError (message : String)
  | typeError (message : String)
  | keyError (key : String)
  | overflowError (message : String)
  | runtimeError (message : String)
  /-- What the provider raises. -/
  | provider (message : String)
deriving DecidableEq, Repr

/-- `xs[:n]`; a negative bound counts from the end. -/
def sliceTo {α : Type} (xs : List α) (n : Int) : List α :=
  if 0 ≤ n then xs.take n.toNat else xs.take (xs.length - n.natAbs)

section
variable (u : Unicode)

def blockingStopwordsNormalized : Finset String :=
  ((blockingStopwords.map (resolverNormalize u)).filter (· ≠ "")).toFinset

/-- `SCORING_DROP`. -/
def scoringDrop : Finset String := stopwords.toFinset ∪ blockingStopwordsNormalized u

/-- `set().union(*(_tokens(alias) for alias in slot.aliases))`. -/
def aliasTokens (slot : RegistrySlot) : Finset String := slot.aliases.foldl (fun acc a => acc ∪ tokens u a) ∅

def slotScore (slot : RegistrySlot) (candidateTokens : Finset String) : Nat :=
  3 * (candidateTokens ∩ tokens u slot.domain).card + 2 * (candidateTokens ∩ aliasTokens u slot).card +
    (candidateTokens ∩ tokens u slot.description).card

/-- The tokens of the three surfaces of a request. -/
def surfaceTokens (request : ResolveRequest) : Finset String :=
  tokens u request.rawDomain ∪ tokens u request.value ∪ tokens u request.evidenceText

/-- `request_candidate_tokens`. -/
def requestCandidateTokens (request : ResolveRequest) : Finset String :=
  surfaceTokens u request \ blockingStopwordsNormalized u

/-- The trigrams of `^token$`. -/
def tokenGrams (token : String) : List String :=
  let framed := '^' :: (token.toList ++ ['$'])
  (List.range (framed.length - 2)).map fun i => String.ofList ((framed.drop i).take 3)

/-- `_grams`. -/
def grams (ts : Finset String) : Finset String := ts.biUnion fun t => (tokenGrams t).toFinset

def scoreComponents (slot : RegistrySlot) (candTokens : Finset String) : Nat × Nat × Nat :=
  let l1 := tokens u slot.domain \ scoringDrop u
  let l2 := aliasTokens u slot \ scoringDrop u
  let l3 := (tokens u slot.description \ scoringDrop u) ∪ slot.blockingTerms.toFinset
  let a := 3 * (candTokens ∩ l1).card + 2 * (candTokens ∩ l2).card + (candTokens ∩ l3).card
  let candGrams := grams candTokens
  let slotGrams := grams (l1 ∪ l2 ∪ l3)
  let denominator := candGrams.card + slotGrams.card
  if denominator = 0 then (a, 0, 0) else (a, 2 * (candGrams ∩ slotGrams).card, denominator)

/-- `(-score, slot_id)`. -/
def v1Before (x y : Nat × String) : Prop := y.1 < x.1 ∨ (x.1 = y.1 ∧ x.2 ≤ y.2)

instance : DecidableRel v1Before := fun x y => inferInstanceAs (Decidable (y.1 < x.1 ∨ _))

/-- A row of the instrument's ranking: `a`, `b_num`, `b_den`, the id. -/
structure InstrumentRank where
  a : Nat
  bNum : Nat
  bDen : Nat
  slotId : String

/-- `Fraction(b_num, b_den or 1)`. -/
def InstrumentRank.fraction (r : InstrumentRank) : ℚ := (r.bNum : ℚ) / (if r.bDen = 0 then 1 else r.bDen)

/-- `(-a, -Fraction(…), slot_id)`. -/
def v2Before (x y : InstrumentRank) : Prop :=
  y.a < x.a ∨ (x.a = y.a ∧ (y.fraction < x.fraction ∨ (x.fraction = y.fraction ∧ x.slotId ≤ y.slotId)))

instance : DecidableRel v2Before := fun x y => inferInstanceAs (Decidable (y.a < x.a ∨ _))

def rankedV1 (request : ResolveRequest) (registry : SlotRegistry) (forced : List String) : List (Nat × String) :=
  let scored := (registry.slots.filter fun slot => slot.slotId ∉ forced).map fun slot =>
    (slotScore u slot (surfaceTokens u request), slot.slotId)
  (scored.filter fun x => 0 < x.1).insertionSort v1Before

def rankedV2 (request : ResolveRequest) (registry : SlotRegistry) (forced : List String) (theta : Int × Int) :
    List InstrumentRank :=
  let scored := (registry.slots.filter fun slot => slot.slotId ∉ forced).map fun slot =>
    let (a, bNum, bDen) := scoreComponents u slot (requestCandidateTokens u request)
    InstrumentRank.mk a bNum bDen slot.slotId
  (scored.filter fun r => 0 < r.a ∨ (r.bDen : Int) * theta.1 ≤ (r.bNum : Int) * theta.2).insertionSort v2Before

/-- The ids that go into every choice set. -/
def forcedIds (evidence : RiskEvidence) (guardedTargetId : Option String) : List String :=
  sortedSet (evidence.matchedHrSlotIds ++ (guardedTargetId.filter (· ≠ "")).toList)

/-- `registry.by_id[slot_id] for slot_id in …`. -/
def slotsOf (registry : SlotRegistry) : List String → Except ResolverErr (List RegistrySlot)
  | [] => .ok []
  | slotId :: ids =>
    match registry.byId slotId with
    | none => .error (.keyError slotId)
    | some slot => (slotsOf registry ids).map (slot :: ·)

/-- The end of `assemble_blocking`, for the ids chosen. -/
def blockingResult (registry : SlotRegistry) (evidence : RiskEvidence) (forced choiceIds : List String) :
    Except ResolverErr BlockingResult :=
  (slotsOf registry choiceIds).map fun choiceSlots =>
    let slice := if evidence.any || choiceSlots.any (·.highRisk) then Slice.hr else .benign
    { receipt := ⟨choiceIds, choiceHash choiceIds, slice, forced⟩
      choices := choiceSlots.map fun slot => ⟨slot.slotId, slot.description, slot.highRisk, slot.denyNeighborNote⟩
      forcedOverflow := false }

def overflowResult (forced : List String) : BlockingResult := ⟨⟨forced, choiceHash forced, .hr, forced⟩, [], true⟩

def assembleBlocking (request : ResolveRequest) (registry : SlotRegistry) (evidence : RiskEvidence)
    (guardedTargetId : Option String) (mode : ScoringMode) (choiceSetK : Option Int) (theta : Option (Int × Int)) :
    Except ResolverErr BlockingResult :=
  let forced := forcedIds evidence guardedTargetId
  match mode, choiceSetK, theta with
  | .v1, none, none =>
    if maxForced < forced.length then .ok (overflowResult forced)
    else
      blockingResult registry evidence forced
        (forced ++ ((rankedV1 u request registry forced).take (v1ChoiceSetK - forced.length)).map (·.2))
  | .v1, _, _ => .error (.valueError "v1 scoring does not accept instrument parameters")
  | .v2Instrument, some k, some theta =>
    if maxForced < forced.length then .ok (overflowResult forced)
    else
      blockingResult registry evidence forced
        (forced ++ (sliceTo (rankedV2 u request registry forced theta) (k - forced.length)).map (·.slotId))
  | .v2Instrument, _, _ => .error (.valueError "v2_instrument scoring requires choice_set_k and theta")

end

variable {u : Unicode} {request : ResolveRequest} {registry : SlotRegistry} {evidence : RiskEvidence}

theorem slotsOf_ok {ids : List String} {slots : List RegistrySlot} (h : slotsOf registry ids = .ok slots) {slotId : String}
    (hmem : slotId ∈ ids) : (registry.byId slotId).isSome = true := by
  induction ids generalizing slots with
  | nil => cases hmem
  | cons i ids ih =>
    unfold slotsOf at h
    split at h
    · cases h
    · next slot hslot =>
      cases hrest : slotsOf registry ids with
      | error e =>
        rw [hrest] at h
        cases h
      | ok rest =>
        rcases List.mem_cons.1 hmem with rfl | hmem
        · rw [hslot]
          rfl
        · exact ih hrest hmem

/-- **The ids of a choice set are in the registry**, but for an overflow, which offers nothing. -/
theorem assembleBlocking_choiceSet {guarded : Option String} {mode : ScoringMode} {k : Option Int} {theta : Option (Int × Int)}
    {b : BlockingResult} (h : assembleBlocking u request registry evidence guarded mode k theta = .ok b)
    (hover : b.forcedOverflow = false) {slotId : String} (hmem : slotId ∈ b.receipt.choiceSet) :
    (registry.byId slotId).isSome = true := by
  have hresult : ∀ {forced ids : List String}, blockingResult registry evidence forced ids = .ok b →
      (registry.byId slotId).isSome = true := by
    intro forced ids hb
    unfold blockingResult at hb
    cases hslots : slotsOf registry ids with
    | error e =>
      rw [hslots] at hb
      cases hb
    | ok slots =>
      rw [hslots] at hb
      cases hb
      exact slotsOf_ok hslots hmem
  unfold assembleBlocking at h
  dsimp only at h
  split at h
  · split at h
    · cases h
      cases hover
    · exact hresult h
  · cases h
  · split at h
    · cases h
      cases hover
    · exact hresult h
  · cases h

theorem slotsOf_mem {ids : List String} {slots : List RegistrySlot} (h : slotsOf registry ids = .ok slots)
    {slot : RegistrySlot} (hmem : slot ∈ slots) : slot.slotId ∈ ids := by
  induction ids generalizing slots with
  | nil =>
    cases h
    cases hmem
  | cons i ids ih =>
    unfold slotsOf at h
    split at h
    · cases h
    · next slot' hslot =>
      cases hrest : slotsOf registry ids with
      | error e =>
        rw [hrest] at h
        cases h
      | ok rest =>
        rw [hrest] at h
        cases h
        rcases List.mem_cons.1 hmem with rfl | hmem
        · rw [(SlotRegistry.byId_some hslot).2]
          exact List.mem_cons_self
        · exact List.mem_cons_of_mem _ (ih hrest hmem)

/-- **What is offered is in the choice set.** -/
theorem assembleBlocking_choices {guarded : Option String} {mode : ScoringMode} {k : Option Int} {theta : Option (Int × Int)}
    {b : BlockingResult} (h : assembleBlocking u request registry evidence guarded mode k theta = .ok b) {c : SlotView}
    (hmem : c ∈ b.choices) : c.slotId ∈ b.receipt.choiceSet := by
  have hresult : ∀ {forced ids : List String}, blockingResult registry evidence forced ids = .ok b →
      c.slotId ∈ b.receipt.choiceSet := by
    intro forced ids hb
    unfold blockingResult at hb
    cases hslots : slotsOf registry ids with
    | error e =>
      rw [hslots] at hb
      cases hb
    | ok slots =>
      rw [hslots] at hb
      cases hb
      obtain ⟨slot, hslot, rfl⟩ := List.mem_map.1 hmem
      exact slotsOf_mem hslots hslot
  unfold assembleBlocking at h
  dsimp only at h
  split at h
  · split at h
    · cases h
      cases hmem
    · exact hresult h
  · cases h
  · split at h
    · cases h
      cases hmem
    · exact hresult h
  · cases h

end Panella.Resolver

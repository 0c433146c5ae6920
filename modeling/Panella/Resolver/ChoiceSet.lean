import Mathlib.Data.Prod.Lex
import Panella.Lib.TopRanked
import Panella.Resolver.Bind

/-!
# The choice set is exact

Both scoring modes are one ranking of slots, by a score and then by id (`Scoring.Before`), cut off at what the forced ids
leave of the limit (`assemble_eq`). Where the forced ids are more than the limit, the cut is at a negative bound, which counts
from the end: `ranked_v2[: choice_set_k - len(forced)]` then keeps all but the last few.
-/

namespace Panella.Resolver

open PyText SortedSet StableSort TopRanked

/-- `scoring_mode`, with the parameters of its mode. -/
inductive Scoring
  | v1
  | v2Instrument (choiceSetK : Int) (theta : Int × Int)

namespace Scoring

/-- `assemble_blocking`, called in a mode. -/
def assemble (u : Unicode) (request : ResolveRequest) (registry : SlotRegistry) (evidence : RiskEvidence)
    (guardedTargetId : Option String) : Scoring → Except ResolverErr BlockingResult
  | .v1 => assembleBlocking u request registry evidence guardedTargetId .v1 none none
  | .v2Instrument k theta => assembleBlocking u request registry evidence guardedTargetId .v2Instrument (some k) (some theta)

/-- `K`. -/
def limit : Scoring → Int
  | .v1 => v1ChoiceSetK
  | .v2Instrument k _ => k

section
variable (u : Unicode) (request : ResolveRequest)

/-- The row of a slot in the ranking of `v1`. -/
def surfaceRank (slot : RegistrySlot) : Nat × String := (slotScore u slot (surfaceTokens u request), slot.slotId)

/-- The row of a slot in the instrument's ranking. -/
def instrumentRank (slot : RegistrySlot) : InstrumentRank :=
  let (a, bNum, bDen) := scoreComponents u slot (requestCandidateTokens u request)
  ⟨a, bNum, bDen, slot.slotId⟩

/-- What a slot scores; the fraction decides between slots of the same whole score. -/
def score (slot : RegistrySlot) : Scoring → ℕ ×ₗ ℚ
  | .v1 => toLex ((surfaceRank u request slot).1, 0)
  | .v2Instrument _ _ => toLex ((instrumentRank u request slot).a, (instrumentRank u request slot).fraction)

def Eligible (slot : RegistrySlot) : Scoring → Prop
  | .v1 => 0 < (surfaceRank u request slot).1
  | .v2Instrument _ theta =>
    0 < (instrumentRank u request slot).a ∨
      ((instrumentRank u request slot).bDen : Int) * theta.1 ≤ ((instrumentRank u request slot).bNum : Int) * theta.2

instance (slot : RegistrySlot) : (scoring : Scoring) → Decidable (Eligible u request slot scoring)
  | .v1 => inferInstanceAs (Decidable (0 < _))
  | .v2Instrument _ _ => inferInstanceAs (Decidable (0 < _ ∨ _))

/-- Score descending, slot id ascending. -/
def Before (scoring : Scoring) (x y : RegistrySlot) : Prop :=
  score u request y scoring < score u request x scoring ∨
    (score u request x scoring = score u request y scoring ∧ x.slotId ≤ y.slotId)

instance (scoring : Scoring) : DecidableRel (Before u request scoring) := fun _ _ => inferInstanceAs (Decidable (_ ∨ _))

/-- The slots that may follow the forced ones. -/
def eligible (registry : SlotRegistry) (forced : List String) (scoring : Scoring) : List RegistrySlot :=
  (registry.slots.filter fun slot => slot.slotId ∉ forced).filter fun slot => Eligible u request slot scoring

end

end Scoring

open Scoring

variable {u : Unicode} {request : ResolveRequest} {registry : SlotRegistry} {evidence : RiskEvidence}
  {scoring : Scoring} {forced : List String} {x y : RegistrySlot}

/-! ## The two rankings are one -/

variable (u request scoring) in
theorem ranks_before (P : RegistrySlot → Prop) : Ranks (Before u request scoring) P where
  total x y _ _ := by
    unfold Before
    rcases lt_trichotomy (score u request x scoring) (score u request y scoring) with h | h | h
    · exact .inr (.inl h)
    · rcases le_total x.slotId y.slotId with hid | hid
      · exact .inl (.inr ⟨h, hid⟩)
      · exact .inr (.inr ⟨h.symm, hid⟩)
    · exact .inl (.inl h)
  trans x y z _ _ _ := by
    rintro (hxy | ⟨hxy, hid⟩) (hyz | ⟨hyz, hid'⟩)
    · exact .inl (hyz.trans hxy)
    · exact .inl (hyz.symm.trans_lt hxy)
    · exact .inl (hyz.trans_eq hxy.symm)
    · exact .inr ⟨hxy.trans hyz, hid.trans hid'⟩

/-- Two slots of one place are one slot. -/
theorem before_antisymm (hx : x ∈ registry.slots) (hy : y ∈ registry.slots) (hxy : Before u request scoring x y)
    (hyx : Before u request scoring y x) : x = y := by
  have hid : x.slotId = y.slotId := by
    rcases hxy with hxy | ⟨he, hid⟩
    · rcases hyx with hyx | ⟨he, -⟩
      · exact absurd hyx hxy.asymm
      · exact absurd he hxy.ne
    · rcases hyx with hyx | ⟨-, hid'⟩
      · exact absurd he hyx.ne
      · exact le_antisymm hid hid'
  exact List.inj_on_of_nodup_map registry.ids hx hy hid

theorem before_v1 : Before u request .v1 x y ↔ v1Before (surfaceRank u request x) (surfaceRank u request y) := by
  simp [Before, v1Before, score, surfaceRank, Prod.Lex.toLex_lt_toLex]

theorem before_v2 {k : Int} {theta : Int × Int} : Before u request (.v2Instrument k theta) x y ↔
    v2Before (instrumentRank u request x) (instrumentRank u request y) := by
  have hid : ∀ slot, (instrumentRank u request slot).slotId = slot.slotId := fun _ => rfl
  simp only [Before, v2Before, score, Prod.Lex.toLex_lt_toLex, toLex_inj, Prod.mk.injEq, hid]
  constructor
  · rintro ((h | ⟨ha, hb⟩) | ⟨⟨ha, hb⟩, hid⟩)
    · exact .inl h
    · exact .inr ⟨ha.symm, .inl hb⟩
    · exact .inr ⟨ha, .inr ⟨hb, hid⟩⟩
  · rintro (h | ⟨ha, hb | ⟨hb, hid⟩⟩)
    · exact .inl (.inl h)
    · exact .inl (.inr ⟨ha.symm, hb⟩)
    · exact .inr ⟨⟨ha, hb⟩, hid⟩

theorem rankedV1_eq : (rankedV1 u request registry forced).map (·.2) =
    ((eligible u request registry forced .v1).insertionSort (Before u request .v1)).map (·.slotId) := by
  have hrows : ((registry.slots.filter fun slot => slot.slotId ∉ forced).map (surfaceRank u request)).filter
      (fun x => 0 < x.1) = (eligible u request registry forced .v1).map (surfaceRank u request) := by
    rw [List.filter_map, eligible]
    apply congrArg
    apply List.filter_congr
    intro slot _
    rw [Bool.eq_iff_iff, Function.comp_apply, decide_eq_true_iff, decide_eq_true_iff]
    exact Iff.rfl
  have hranked : rankedV1 u request registry forced =
      (((registry.slots.filter fun slot => slot.slotId ∉ forced).map (surfaceRank u request)).filter
        fun x => 0 < x.1).insertionSort v1Before := by
    unfold rankedV1 surfaceRank
    rfl
  rw [hranked, hrows, ← List.map_insertionSort (Before u request .v1) v1Before _ _ fun _ _ _ _ => before_v1, List.map_map]
  rfl

theorem rankedV2_eq {k : Int} {theta : Int × Int} :
    (rankedV2 u request registry forced theta).map (·.slotId) =
      ((eligible u request registry forced (.v2Instrument k theta)).insertionSort
        (Before u request (.v2Instrument k theta))).map (·.slotId) := by
  have hrows : ((registry.slots.filter fun slot => slot.slotId ∉ forced).map (instrumentRank u request)).filter
      (fun r => 0 < r.a ∨ (r.bDen : Int) * theta.1 ≤ (r.bNum : Int) * theta.2) =
      (eligible u request registry forced (.v2Instrument k theta)).map (instrumentRank u request) := by
    rw [List.filter_map, eligible]
    apply congrArg
    apply List.filter_congr
    intro slot _
    exact decide_eq_decide.2 Iff.rfl
  have hranked : rankedV2 u request registry forced theta =
      (((registry.slots.filter fun slot => slot.slotId ∉ forced).map (instrumentRank u request)).filter
        fun r => 0 < r.a ∨ (r.bDen : Int) * theta.1 ≤ (r.bNum : Int) * theta.2).insertionSort v2Before := by
    unfold rankedV2 instrumentRank
    rfl
  rw [hranked, hrows,
    ← List.map_insertionSort (Before u request (.v2Instrument k theta)) v2Before _ _ fun _ _ _ _ => before_v2, List.map_map]
  rfl

/-- The slots behind the forced ones. -/
def remainder (u : Unicode) (request : ResolveRequest) (registry : SlotRegistry) (forced : List String) (scoring : Scoring) :
    List RegistrySlot :=
  sliceTo ((eligible u request registry forced scoring).insertionSort (Before u request scoring)) (scoring.limit - forced.length)

theorem map_sliceTo {α β : Type} (f : α → β) (xs : List α) (n : Int) : (sliceTo xs n).map f = sliceTo (xs.map f) n := by
  unfold sliceTo
  split <;> simp

/-- **Both modes share one law**: the forced ids, and behind them the ranking cut off. -/
theorem assemble_eq {guarded : Option String} :
    scoring.assemble u request registry evidence guarded =
      if maxForced < (forcedIds evidence guarded).length then .ok (overflowResult (forcedIds evidence guarded))
      else blockingResult registry evidence (forcedIds evidence guarded)
        (forcedIds evidence guarded ++
          (remainder u request registry (forcedIds evidence guarded) scoring).map (·.slotId)) := by
  unfold remainder
  rw [map_sliceTo]
  cases scoring with
  | v1 =>
    unfold assemble assembleBlocking
    dsimp only
    split
    · rfl
    · next hover =>
      -- at most `MAX_FORCED` ids are forced here, and the limit is no less
      have hbound : (forcedIds evidence guarded).length ≤ 8 := not_lt.1 hover
      have hpos : (0 : Int) ≤ limit .v1 - (forcedIds evidence guarded).length := by
        simp only [limit, v1ChoiceSetK]
        omega
      have hnat : (limit .v1 - (forcedIds evidence guarded).length).toNat = v1ChoiceSetK - (forcedIds evidence guarded).length := by
        simp only [limit, v1ChoiceSetK]
        omega
      rw [← rankedV1_eq, sliceTo, if_pos hpos, hnat, List.map_take]
  | v2Instrument k theta =>
    unfold assemble assembleBlocking
    dsimp only
    rw [← rankedV2_eq (k := k), map_sliceTo]
    rfl

/-! ## The slots of the ids -/

/-- Ids of the registry are read back as its slots. -/
theorem slotsOf_eq {ids : List String} (h : ∀ slotId ∈ ids, (registry.byId slotId).isSome = true) :
    ∃ slots, slotsOf registry ids = .ok slots ∧ slots.map (·.slotId) = ids ∧ ∀ slot ∈ slots, slot ∈ registry.slots := by
  induction ids with
  | nil => exact ⟨[], rfl, rfl, by simp⟩
  | cons slotId ids ih =>
    obtain ⟨slots, hslots, hids, hmem⟩ := ih fun i hi => h i (List.mem_cons_of_mem slotId hi)
    obtain ⟨slot, hslot⟩ := Option.isSome_iff_exists.1 (h slotId List.mem_cons_self)
    obtain ⟨hin, hid⟩ := SlotRegistry.byId_some hslot
    refine ⟨slot :: slots, ?_, ?_, ?_⟩
    · rw [slotsOf, hslot]
      dsimp only
      rw [hslots]
      rfl
    · rw [List.map_cons, hid, hids]
    · intro s hs
      rcases List.mem_cons.1 hs with rfl | hs
      · exact hin
      · exact hmem s hs

theorem mem_eligible {slot : RegistrySlot} : slot ∈ eligible u request registry forced scoring ↔
    slot ∈ registry.slots ∧ slot.slotId ∉ forced ∧ Eligible u request slot scoring := by
  simp only [eligible, List.mem_filter, decide_eq_true_eq, and_assoc]

theorem nodup_eligible : (eligible u request registry forced scoring).Nodup :=
  ((List.Nodup.of_map _ registry.ids).filter _).filter _

theorem mem_remainder {slot : RegistrySlot} (h : slot ∈ remainder u request registry forced scoring) :
    slot ∈ eligible u request registry forced scoring := by
  have hsorted : slot ∈ (eligible u request registry forced scoring).insertionSort (Before u request scoring) := by
    unfold remainder sliceTo at h
    split at h <;> exact List.mem_of_mem_take h
  exact (List.mem_insertionSort _).1 hsorted

theorem nodup_remainder : (remainder u request registry forced scoring).Nodup := by
  have hsorted : ((eligible u request registry forced scoring).insertionSort (Before u request scoring)).Nodup :=
    (List.perm_insertionSort _ _).nodup_iff.2 nodup_eligible
  unfold remainder sliceTo
  split <;> exact hsorted.sublist (List.take_sublist _ _)

/-- **A limit that the forced ids fit in cuts the ranking as it should.** -/
theorem top_remainder (h : (forced.length : Int) ≤ scoring.limit ∨
      ((eligible u request registry forced scoring).length : Int) + scoring.limit ≤ forced.length) :
    Top (Before u request scoring) (scoring.limit - forced.length).toNat (eligible u request registry forced scoring)
      (remainder u request registry forced scoring) := by
  have htop := top_take (ranks_before u request scoring
    (· ∈ eligible u request registry forced scoring)) nodup_eligible (scoring.limit - forced.length).toNat
  unfold remainder sliceTo
  split
  · exact htop
  · -- the forced ids are over the limit, and the cut from the end takes all there is
    have hzero : (scoring.limit - forced.length).toNat = 0 := by omega
    have hnothing : ((eligible u request registry forced scoring).insertionSort (Before u request scoring)).length -
        (scoring.limit - forced.length).natAbs = 0 := by
      rw [List.length_insertionSort]
      omega
    rw [hnothing, hzero]
    rw [hzero] at htop
    exact htop

variable (u request registry) in
/-- Over the limit the cut from the end leaves the rest of the ranking in. -/
theorem length_remainder_of_over (h : scoring.limit < forced.length) :
    ((remainder u request registry forced scoring).length : Int) =
      max 0 ((eligible u request registry forced scoring).length + scoring.limit - forced.length) := by
  unfold remainder sliceTo
  rw [if_neg (by omega), List.length_take, List.length_insertionSort]
  omega

/-! ## What a choice set is -/

/-- The ids of the slots a request is held to: those of the evidence, and the target of the guard. -/
def forcedOf (evidence : RiskEvidence) (guarded : Option RegistrySlot) : List String :=
  sortedSet (evidence.matchedHrSlotIds ++ (guarded.map (·.slotId)).toList)

/-- The choice set of a request, as it is meant. -/
structure ExactChoiceSet (u : Unicode) (request : ResolveRequest) (registry : SlotRegistry) (evidence : RiskEvidence)
    (guarded : Option RegistrySlot) (scoring : Scoring) (b : BlockingResult) : Prop where
  forced : b.receipt.forcedIds = forcedOf evidence guarded
  first : b.receipt.forcedIds <+: b.receipt.choiceSet
  overflow : b.forcedOverflow = true ↔ maxForced < b.receipt.forcedIds.length
  nodup : b.receipt.choiceSet.Nodup
  bound : (b.receipt.choiceSet.length : Int) ≤ max scoring.limit b.receipt.forcedIds.length
  /-- Behind the forced ids stand the best of the eligible slots, as many as there is room for. -/
  best : b.forcedOverflow = false → ∃ rest, b.receipt.choiceSet = b.receipt.forcedIds ++ rest.map (·.slotId) ∧
    Top (Before u request scoring) (scoring.limit - b.receipt.forcedIds.length).toNat
      (eligible u request registry b.receipt.forcedIds scoring) rest
  slice : b.receipt.slice = .hr ↔
    evidence.any = true ∨ ∃ slot ∈ registry.slots, slot.slotId ∈ b.receipt.choiceSet ∧ slot.highRisk = true
  /-- What is offered is the choice set, but for an overflow, which offers nothing. -/
  offered : b.choices.map (·.slotId) = if b.forcedOverflow then [] else b.receipt.choiceSet

section
variable {guarded : Option RegistrySlot}

/-- `risk_evidence` and the guarded target are of the registry, which has no empty id. -/
structure OfRegistry (registry : SlotRegistry) (evidence : RiskEvidence) (guarded : Option RegistrySlot) : Prop where
  matched : ∀ slotId ∈ evidence.matchedHrSlotIds, (registry.byId slotId).isSome = true
  target : ∀ slot, guarded = some slot → slot ∈ registry.slots
  named : ∀ slot ∈ registry.slots, slot.slotId ≠ ""

theorem OfRegistry.forcedIds (h : OfRegistry registry evidence guarded) :
    forcedIds evidence (guarded.map (·.slotId)) = forcedOf evidence guarded := by
  unfold Resolver.forcedIds forcedOf
  cases guarded with
  | none => rfl
  | some slot =>
    have hne : slot.slotId ≠ "" := h.named slot (h.target slot rfl)
    simp [Option.filter, hne]

theorem OfRegistry.isSome (h : OfRegistry registry evidence guarded) {slotId : String}
    (hmem : slotId ∈ forcedOf evidence guarded) : (registry.byId slotId).isSome = true := by
  rw [forcedOf, mem_sortedSet, List.mem_append] at hmem
  rcases hmem with hmem | hmem
  · exact h.matched slotId hmem
  · rw [Option.mem_toList, Option.map_eq_some_iff] at hmem
    obtain ⟨slot, hslot, rfl⟩ := hmem
    rw [SlotRegistry.byId_of_mem (h.target slot hslot)]
    rfl

/-- More than one forced id is not the guarded target alone. -/
theorem any_of_overflow (h : maxForced < (forcedOf evidence guarded).length) : evidence.any = true := by
  rw [RiskEvidence.any, Bool.not_eq_true', List.isEmpty_eq_false_iff]
  intro hnil
  have hlen : (forcedOf evidence guarded).length ≤ (guarded.map (·.slotId)).toList.length := by
    rw [forcedOf, hnil, List.nil_append]
    exact (List.subperm_of_subset (nodup_sortedSet _) fun _ hx => mem_sortedSet.1 hx).length_le
  have hone : (guarded.map (·.slotId)).toList.length ≤ 1 := by cases guarded <;> simp
  have height : maxForced = 8 := rfl
  omega

theorem exact_of_overflow (hover : maxForced < (forcedOf evidence guarded).length) :
    ExactChoiceSet u request registry evidence guarded scoring (overflowResult (forcedOf evidence guarded)) where
  forced := rfl
  first := List.prefix_rfl
  overflow := ⟨fun _ => hover, fun _ => rfl⟩
  nodup := nodup_sortedSet _
  bound := le_max_right _ _
  best := fun h => by cases h
  slice := ⟨fun _ => .inl (any_of_overflow hover), fun _ => rfl⟩
  offered := rfl

variable (u request scoring) in
/-- **What comes out below an overflow**, whatever the cut leaves. -/
theorem OfRegistry.assembled (h : OfRegistry registry evidence guarded)
    (hover : ¬ maxForced < (forcedOf evidence guarded).length) :
    ∃ b, scoring.assemble u request registry evidence (guarded.map (·.slotId)) = .ok b ∧
      b.receipt.forcedIds = forcedOf evidence guarded ∧ b.forcedOverflow = false ∧
      b.receipt.choiceSet = forcedOf evidence guarded ++
        (remainder u request registry (forcedOf evidence guarded) scoring).map (·.slotId) ∧
      b.choices.map (·.slotId) = b.receipt.choiceSet ∧
      (b.receipt.slice = .hr ↔ evidence.any = true ∨
        ∃ slot ∈ registry.slots, slot.slotId ∈ b.receipt.choiceSet ∧ slot.highRisk = true) := by
  set choiceIds := forcedOf evidence guarded ++
    (remainder u request registry (forcedOf evidence guarded) scoring).map (·.slotId) with hids
  have hknown : ∀ slotId ∈ choiceIds, (registry.byId slotId).isSome = true := by
    intro slotId hmem
    rcases List.mem_append.1 hmem with hmem | hmem
    · exact h.isSome hmem
    · obtain ⟨slot, hslot, rfl⟩ := List.mem_map.1 hmem
      rw [SlotRegistry.byId_of_mem (mem_eligible.1 (mem_remainder hslot)).1]
      rfl
  obtain ⟨slots, hslots, hmap, hin⟩ := slotsOf_eq hknown
  refine ⟨⟨⟨choiceIds, choiceHash choiceIds, if evidence.any || slots.any (·.highRisk) then .hr else .benign,
    forcedOf evidence guarded⟩, slots.map fun slot => ⟨slot.slotId, slot.description, slot.highRisk, slot.denyNeighborNote⟩,
    false⟩, ?_, rfl, rfl, rfl, ?_, ?_⟩
  · rw [assemble_eq, h.forcedIds, if_neg hover, ← hids, blockingResult, hslots]
    rfl
  · dsimp only
    rw [List.map_map]
    exact hmap
  · dsimp only
    have hrisky : slots.any (·.highRisk) = true ↔
        ∃ slot ∈ registry.slots, slot.slotId ∈ choiceIds ∧ slot.highRisk = true := by
      rw [List.any_eq_true]
      constructor
      · rintro ⟨slot, hslot, hrisk⟩
        exact ⟨slot, hin slot hslot, hmap ▸ List.mem_map_of_mem hslot, hrisk⟩
      · rintro ⟨slot, hslot, hmem, hrisk⟩
        rw [← hmap] at hmem
        obtain ⟨slot', hslot', hid⟩ := List.mem_map.1 hmem
        rw [List.inj_on_of_nodup_map registry.ids (hin slot' hslot') hslot hid] at hslot'
        exact ⟨slot, hslot', hrisk⟩
    rw [← hrisky, ← Bool.or_eq_true]
    split
    · next hany => simp [hany]
    · next hany => simp [hany]

/-! ## The order of the registry -/

variable {registry' : SlotRegistry}

theorem byId_perm (h : registry.slots.Perm registry'.slots) (slotId : String) : registry.byId slotId = registry'.byId slotId := by
  cases hfind : registry'.byId slotId with
  | none =>
    apply List.find?_eq_none.2
    intro slot hslot
    exact List.find?_eq_none.1 hfind slot (h.mem_iff.1 hslot)
  | some slot =>
    obtain ⟨hmem, rfl⟩ := SlotRegistry.byId_some hfind
    exact SlotRegistry.byId_of_mem (h.mem_iff.2 hmem)

theorem slotsOf_perm (h : registry.slots.Perm registry'.slots) (ids : List String) :
    slotsOf registry ids = slotsOf registry' ids := by
  induction ids with
  | nil => rfl
  | cons slotId ids ih => rw [slotsOf, slotsOf, byId_perm h, ih]

theorem remainder_perm (h : registry.slots.Perm registry'.slots) :
    remainder u request registry forced scoring = remainder u request registry' forced scoring := by
  have heligible : (eligible u request registry forced scoring).Perm (eligible u request registry' forced scoring) :=
    (h.filter _).filter _
  have hsorted : ∀ registry : SlotRegistry, ((eligible u request registry forced scoring).insertionSort
      (Before u request scoring)).Pairwise (Before u request scoring) :=
    fun _ => pairwise_insertionSort (P := fun _ => True) (ranks_before u request scoring _) fun _ _ => trivial
  have hsort : (eligible u request registry forced scoring).insertionSort (Before u request scoring) =
      (eligible u request registry' forced scoring).insertionSort (Before u request scoring) := by
    have hperm := (List.perm_insertionSort (Before u request scoring) _).trans
      (heligible.trans (List.perm_insertionSort (Before u request scoring) _).symm)
    apply hperm.eq_of_pairwise _ (hsorted registry) (hsorted registry')
    intro x y hx hy
    have hin : ∀ slot ∈ (eligible u request registry' forced scoring).insertionSort (Before u request scoring),
        slot ∈ registry'.slots := fun slot hslot => (mem_eligible.1 ((List.mem_insertionSort _).1 hslot)).1
    exact before_antisymm (hin x (hperm.mem_iff.1 hx)) (hin y hy)
  rw [remainder, remainder, hsort]

/-- **The order of the slots plays no part.** -/
theorem assemble_perm (h : registry.slots.Perm registry'.slots) {guardedTargetId : Option String} :
    scoring.assemble u request registry' evidence guardedTargetId =
      scoring.assemble u request registry evidence guardedTargetId := by
  rw [assemble_eq, assemble_eq, remainder_perm h, blockingResult, blockingResult, slotsOf_perm h]

/-! ## When it is exact -/

/-- The forced ids are too many for a choice set at all, or fit in the limit, or leave nothing for the cut from the end. -/
def FitsLimit (u : Unicode) (request : ResolveRequest) (registry : SlotRegistry) (evidence : RiskEvidence)
    (guarded : Option RegistrySlot) (scoring : Scoring) : Prop :=
  maxForced < (forcedOf evidence guarded).length ∨ ((forcedOf evidence guarded).length : Int) ≤ scoring.limit ∨
    ((eligible u request registry (forcedOf evidence guarded) scoring).length : Int) + scoring.limit ≤
      (forcedOf evidence guarded).length

variable (u request) in
theorem exact_of_fits (h : OfRegistry registry evidence guarded) (hfits : FitsLimit u request registry evidence guarded scoring) :
    ∃ b, scoring.assemble u request registry evidence (guarded.map (·.slotId)) = .ok b ∧
      ExactChoiceSet u request registry evidence guarded scoring b := by
  by_cases hover : maxForced < (forcedOf evidence guarded).length
  · refine ⟨overflowResult (forcedOf evidence guarded), ?_, exact_of_overflow hover⟩
    rw [assemble_eq, h.forcedIds, if_pos hover]
  · have htop := top_remainder (hfits.resolve_left hover)
    obtain ⟨b, hb, hforced, hquiet, hset, hoffered, hslice⟩ := h.assembled u request scoring hover
    refine ⟨b, hb, ?_⟩
    refine { forced := hforced, first := ?_, overflow := ?_, nodup := ?_, bound := ?_, best := ?_, slice := hslice, offered := ?_ }
    · rw [hset, hforced]
      exact List.prefix_append _ _
    · rw [hquiet, hforced]
      exact ⟨fun h => (Bool.false_ne_true h).elim, fun h => absurd h hover⟩
    · rw [hset, List.nodup_append]
      refine ⟨nodup_sortedSet _, ?_, ?_⟩
      · apply htop.nodup.map_on
        intro x hx y hy
        exact List.inj_on_of_nodup_map registry.ids (mem_eligible.1 (htop.mem x hx)).1 (mem_eligible.1 (htop.mem y hy)).1
      · rintro slotId hmem _ hrest rfl
        obtain ⟨slot, hslot, rfl⟩ := List.mem_map.1 hrest
        exact (mem_eligible.1 (htop.mem slot hslot)).2.1 hmem
    · rw [hset, hforced, List.length_append, List.length_map, htop.length]
      omega
    · intro _
      rw [hforced]
      exact ⟨_, hset, htop⟩
    · rw [hquiet, hoffered]
      rfl

/-- A choice set over the limit has more ids than it may. -/
theorem fits_of_exact (h : OfRegistry registry evidence guarded)
    (hexact : ∃ b, scoring.assemble u request registry evidence (guarded.map (·.slotId)) = .ok b ∧
      ExactChoiceSet u request registry evidence guarded scoring b) :
    FitsLimit u request registry evidence guarded scoring := by
  obtain ⟨b, hb, hexact⟩ := hexact
  by_contra hnot
  unfold FitsLimit at hnot
  rw [not_or, not_or] at hnot
  obtain ⟨hover, hlimit, hleft⟩ := hnot
  obtain ⟨b', hb', hforced, -, hset, -, -⟩ := h.assembled u request scoring hover
  have hsame : b' = b := by
    rw [hb] at hb'
    exact (Except.ok.inj hb').symm
  subst hsame
  have hbound := hexact.bound
  have hlen := length_remainder_of_over u request registry (lt_of_not_ge hlimit)
  rw [hset, hforced, List.length_append, List.length_map] at hbound
  omega

/-- **Choice-set assembly is exact** while the forced ids fit in `choice_set_k`; in `v1` they always do. -/
theorem choiceSet_exact_iff (h : OfRegistry registry evidence guarded) :
    ((∃ b, scoring.assemble u request registry evidence (guarded.map (·.slotId)) = .ok b ∧
        ExactChoiceSet u request registry evidence guarded scoring b) ∧
      ∀ registry' : SlotRegistry, registry.slots.Perm registry'.slots →
        scoring.assemble u request registry' evidence (guarded.map (·.slotId)) =
          scoring.assemble u request registry evidence (guarded.map (·.slotId))) ↔
      FitsLimit u request registry evidence guarded scoring := by
  constructor
  · rintro ⟨hexact, -⟩
    exact fits_of_exact h hexact
  · intro hfits
    exact ⟨exact_of_fits u request h hfits, fun _ hperm => assemble_perm hperm⟩

/-- In `v1` there is room for as many as may be forced. -/
theorem fits_v1 : FitsLimit u request registry evidence guarded .v1 := by
  have h : ((8 : Nat) : Int) = limit .v1 := rfl
  have height : maxForced = 8 := rfl
  unfold FitsLimit
  omega

/-- **What the engine offers is exact**: it scores by `v1`, and its evidence and target are of its registry. -/
theorem blocking_exact {eng : ResolverEngine} (hnamed : ∀ slot ∈ eng.registry.slots, slot.slotId ≠ "") :
    ∃ guarded b, eng.blocking u request (computeRiskEvidence u request eng.registry)
        (prepareGuard u request eng.registry (computeRiskEvidence u request eng.registry)) = .ok b ∧
      ExactChoiceSet u request eng.registry (computeRiskEvidence u request eng.registry) guarded .v1 b := by
  set guard := prepareGuard u request eng.registry (computeRiskEvidence u request eng.registry) with hguard
  have htarget : ∀ slot, (if guard.guardFired then guard.target else none) = some slot → slot ∈ eng.registry.slots := by
    intro slot hslot
    split at hslot
    · have hlookup : lookupTarget u request eng.registry = (some slot, (lookupTarget u request eng.registry).2) :=
        Prod.ext hslot rfl
      exact (lookupTarget_some hlookup).1
    · cases hslot
  have hof : OfRegistry eng.registry (computeRiskEvidence u request eng.registry)
      (if guard.guardFired then guard.target else none) := by
    refine ⟨?_, htarget, hnamed⟩
    intro slotId hmem
    obtain ⟨slot, hslot, -, -, rfl⟩ := mem_matched_iff.1 hmem
    rw [SlotRegistry.byId_of_mem hslot]
    rfl
  obtain ⟨b, hb, hexact⟩ := exact_of_fits u request hof fits_v1
  refine ⟨_, b, ?_, hexact⟩
  rw [← hb]
  unfold ResolverEngine.blocking ResolverEngine.guardedTarget assemble
  dsimp only
  congr 1
  split <;> rfl

/-! ### Two forced ids and a limit of one -/

def plainSlot (slotId : String) (highRisk : Bool) : RegistrySlot :=
  ⟨slotId, "fact", "", "", highRisk, [], [], [], none, "", []⟩

def fourSlots : SlotRegistry where
  version := "1"
  slots := [plainSlot "fact:a" true, plainSlot "fact:b" true, plainSlot "fact:c" false, plainSlot "fact:d" false]
  contentHash := ""
  slotRegistryHash := ""
  taxonomyHash := ""
  ids := by decide

def twoMatched : RiskEvidence := ⟨["fact:a", "fact:b"], true, false⟩

theorem twoMatched_ofRegistry : OfRegistry fourSlots twoMatched none where
  matched := by decide
  target := fun _ h => by cases h
  named := by decide

/-- Two forced ids before a limit of two. -/
theorem choiceSet_exact_sample :
    (∃ b, assemble asciiOnly (sampleRequest "" "") fourSlots twoMatched none (.v2Instrument 2 (0, 1)) = .ok b ∧
        ExactChoiceSet asciiOnly (sampleRequest "" "") fourSlots twoMatched none (.v2Instrument 2 (0, 1)) b) ∧
      ∀ registry' : SlotRegistry, fourSlots.slots.Perm registry'.slots →
        assemble asciiOnly (sampleRequest "" "") registry' twoMatched none (.v2Instrument 2 (0, 1)) =
          assemble asciiOnly (sampleRequest "" "") fourSlots twoMatched none (.v2Instrument 2 (0, 1)) :=
  (choiceSet_exact_iff twoMatched_ofRegistry).2 (.inr (.inl (by decide)))

/-- `ranked_v2[: 1 - 2]` keeps one of the two slots that there is no room for. -/
theorem choiceSet_overfull :
    ¬ ∃ b, assemble asciiOnly (sampleRequest "" "") fourSlots twoMatched none (.v2Instrument 1 (0, 1)) = .ok b ∧
      ExactChoiceSet asciiOnly (sampleRequest "" "") fourSlots twoMatched none (.v2Instrument 1 (0, 1)) b := by
  intro hexact
  have hfits := fits_of_exact twoMatched_ofRegistry hexact
  have hforced : forcedOf twoMatched none = ["fact:a", "fact:b"] := by decide
  have htwo : (eligible asciiOnly (sampleRequest "" "") fourSlots ["fact:a", "fact:b"] (.v2Instrument 1 (0, 1))).length = 2 := by
    decide +kernel
  have height : maxForced = 8 := rfl
  unfold FitsLimit at hfits
  rw [hforced, htwo] at hfits
  simp only [limit, List.length_cons, List.length_nil] at hfits
  omega

end

end Panella.Resolver

import Panella.Resolver.Registry

/-!
# Risk evidence and the deterministic target (`panella/resolver/risk.py`, `escalation.py`, `engine.py`)

| here | there |
| --- | --- |
| `computeRiskEvidence` | `compute_risk_evidence` (`risk.py` :12-30) |
| `requiresHrEscalation` | `requires_hr_escalation` (`escalation.py` :9-12) |
| `prepareGuard` | `prepare_guard` (`engine.py` :46-63) |

`DomainHit` and `LexiconHit` say of one slot what the two loops of `compute_risk_evidence` look for; `mem_matched_iff` joins
them with the sorted tuple the code keeps.
-/

namespace Panella.Resolver

open PyText SortedSet

/-- `_UID_RE.fullmatch`. -/
def isRequestUid (uid : String) : Bool :=
  let isHead (c : Char) : Bool := isDomainChar c
  let isTail (c : Char) : Bool := isHead c || c = '/' || c = '_' || c = '-' || c = '.'
  match uid.toList with
  | [] => false
  | c :: cs => isHead c && cs.all isTail && cs.length ≤ 127

structure ResolveRequest where
  requestUid : String
  kind : String
  rawDomain : String
  value : String
  evidenceText : String
  effectiveAt : Option String
  uid : isRequestUid requestUid = true
  kindKnown : kind ∈ kinds

structure RiskEvidence where
  matchedHrSlotIds : List String
  domainHrHit : Bool
  lexiconHit : Bool

/-- `RiskEvidence.any`. -/
def RiskEvidence.any (e : RiskEvidence) : Bool := !e.matchedHrSlotIds.isEmpty

/-- `(slot.domain, *slot.aliases)`. -/
def RegistrySlot.surfaces (slot : RegistrySlot) : List String := slot.domain :: slot.aliases

section
variable (u : Unicode)

/-- `\b`, between the character before and the rest. -/
def atBoundary (before : Option Char) (rest : List Char) : Bool := before.any u.isWord != rest.head?.any u.isWord

/-- `re.search(rf"\b{re.escape(stem)}", text)`, from a place on. -/
def searchStem (stem : List Char) : Option Char → List Char → Bool
  | before, [] => atBoundary u before [] && stem.isPrefixOf []
  | before, c :: cs => (atBoundary u before (c :: cs) && stem.isPrefixOf (c :: cs)) || searchStem stem (some c) cs

/-- `lexical_text`. -/
def lexicalText (request : ResolveRequest) : String := u.lower (request.value ++ " " ++ request.evidenceText)

def domainMatches (request : ResolveRequest) (slot : RegistrySlot) : Bool :=
  slot.surfaces.contains request.rawDomain ||
    (slot.surfaces.map (resolverNormalize u)).contains (resolverNormalize u request.rawDomain)

def lexiconMatches (request : ResolveRequest) (slot : RegistrySlot) : Bool :=
  slot.hrLexicon.any fun stem => searchStem u (u.lower stem).toList none (lexicalText u request).toList

def computeRiskEvidence (request : ResolveRequest) (registry : SlotRegistry) : RiskEvidence :=
  let risky := registry.slots.filter (·.highRisk)
  let domainMatched := (risky.filter (domainMatches u request)).map (·.slotId)
  let lexiconMatched := (risky.filter (lexiconMatches u request)).map (·.slotId)
  { matchedHrSlotIds := sortedSet (domainMatched ++ lexiconMatched)
    domainHrHit := !domainMatched.isEmpty
    lexiconHit := !lexiconMatched.isEmpty }

/-- `requires_hr_escalation`: evidence for anything but the target itself. -/
def requiresHrEscalation (target : Option RegistrySlot) (evidence : RiskEvidence) : Bool :=
  match target with
  | none => false
  | some slot => evidence.any && evidence.matchedHrSlotIds ≠ [slot.slotId]

inductive Method
  | exact
  | alias
  | llmChoice
  | none
deriving DecidableEq, Repr

structure GuardPreparation where
  target : Option RegistrySlot
  method : Method
  guardFired : Bool

/-- The lookup of `prepare_guard`. A folded alias of a high-risk slot does not count. -/
def lookupTarget (request : ResolveRequest) (registry : SlotRegistry) : Option RegistrySlot × Method :=
  let normalized := resolverNormalize u request.rawDomain
  match registry.byId (request.kind ++ ":" ++ normalized) with
  | some slot => (some slot, .exact)
  | none =>
    match registry.aliasRaw request.rawDomain with
    | some slot => (some slot, .alias)
    | none =>
      match registry.aliasFolded u normalized with
      | some slot => if slot.highRisk then (none, .alias) else (some slot, .alias)
      | none => (none, .alias)

def prepareGuard (request : ResolveRequest) (registry : SlotRegistry) (evidence : RiskEvidence) : GuardPreparation :=
  let (target, method) := lookupTarget u request registry
  ⟨target, method, requiresHrEscalation target evidence⟩

/-! ## What the evidence is evidence of -/

/-- The domain of the request is a surface of the slot, or folds to what one folds to. -/
def DomainHit (request : ResolveRequest) (slot : RegistrySlot) : Prop :=
  ∃ surface ∈ slot.surfaces, surface = request.rawDomain ∨ resolverNormalize u surface = resolverNormalize u request.rawDomain

/-- A stem of the slot stands in the text of the request, where a word begins (or ends). -/
def LexiconHit (request : ResolveRequest) (slot : RegistrySlot) : Prop :=
  ∃ stem ∈ slot.hrLexicon, ∃ pre post, (lexicalText u request).toList = pre ++ (u.lower stem).toList ++ post ∧
    atBoundary u pre.getLast? ((u.lower stem).toList ++ post) = true

end

variable {u : Unicode} {request : ResolveRequest} {registry : SlotRegistry} {slot : RegistrySlot}

theorem domainMatches_iff : domainMatches u request slot = true ↔ DomainHit u request slot := by
  unfold domainMatches DomainHit
  rw [Bool.or_eq_true, List.contains_iff_mem, List.contains_iff_mem, List.mem_map]
  constructor
  · rintro (h | ⟨s, hs, he⟩)
    · exact ⟨_, h, .inl rfl⟩
    · exact ⟨s, hs, .inr he⟩
  · rintro ⟨s, hs, rfl | he⟩
    · exact .inl hs
    · exact .inr ⟨s, hs, he⟩

theorem getLast?_cons_or (c : Char) (pre : List Char) (before : Option Char) :
    (c :: pre).getLast?.or before = pre.getLast?.or (some c) := by
  rw [List.getLast?_cons, Option.some_or]
  cases pre.getLast? <;> rfl

/-- The search finds a stem wherever it stands at a boundary. -/
theorem searchStem_iff {stem : List Char} {before : Option Char} {text : List Char} :
    searchStem u stem before text = true ↔
      ∃ pre post, text = pre ++ stem ++ post ∧ atBoundary u (pre.getLast?.or before) (stem ++ post) = true := by
  induction text generalizing before with
  | nil =>
    simp only [searchStem, Bool.and_eq_true, List.isPrefixOf_iff_prefix, List.prefix_nil]
    constructor
    · rintro ⟨hb, rfl⟩
      exact ⟨[], [], rfl, hb⟩
    · rintro ⟨pre, post, htext, hb⟩
      obtain ⟨hleft, rfl⟩ := List.append_eq_nil_iff.1 htext.symm
      obtain ⟨rfl, rfl⟩ := List.append_eq_nil_iff.1 hleft
      exact ⟨hb, rfl⟩
  | cons c cs ih =>
    rw [searchStem, Bool.or_eq_true, Bool.and_eq_true, List.isPrefixOf_iff_prefix, ih]
    constructor
    · rintro (⟨hb, post, hpost⟩ | ⟨pre, post, htext, hb⟩)
      · exact ⟨[], post, by simpa using hpost.symm, by rw [hpost]; exact hb⟩
      · refine ⟨c :: pre, post, by rw [htext]; simp, ?_⟩
        rw [getLast?_cons_or]
        exact hb
    · rintro ⟨pre, post, htext, hb⟩
      cases pre with
      | nil =>
        rw [List.nil_append] at htext
        exact .inl ⟨by rw [htext]; simpa using hb, post, htext.symm⟩
      | cons p ps =>
        simp only [List.cons_append, List.cons.injEq] at htext
        obtain ⟨rfl, htext⟩ := htext
        refine .inr ⟨ps, post, htext, ?_⟩
        rw [getLast?_cons_or] at hb
        exact hb

theorem lexiconMatches_iff : lexiconMatches u request slot = true ↔ LexiconHit u request slot := by
  unfold lexiconMatches LexiconHit
  rw [List.any_eq_true]
  simp only [searchStem_iff, Option.or_none]

/-- **The matched ids are those of the high-risk slots the request hits.** -/
theorem mem_matched_iff {slotId : String} :
    slotId ∈ (computeRiskEvidence u request registry).matchedHrSlotIds ↔
      ∃ slot ∈ registry.slots, slot.highRisk = true ∧ (DomainHit u request slot ∨ LexiconHit u request slot) ∧
        slot.slotId = slotId := by
  simp only [computeRiskEvidence, mem_sortedSet, List.mem_append, List.mem_map, List.mem_filter, domainMatches_iff,
    lexiconMatches_iff]
  constructor
  · rintro (⟨slot, ⟨⟨hmem, hrisk⟩, hhit⟩, hid⟩ | ⟨slot, ⟨⟨hmem, hrisk⟩, hhit⟩, hid⟩)
    · exact ⟨slot, hmem, hrisk, .inl hhit, hid⟩
    · exact ⟨slot, hmem, hrisk, .inr hhit, hid⟩
  · rintro ⟨slot, hmem, hrisk, hhit | hhit, hid⟩
    · exact .inl ⟨slot, ⟨⟨hmem, hrisk⟩, hhit⟩, hid⟩
    · exact .inr ⟨slot, ⟨⟨hmem, hrisk⟩, hhit⟩, hid⟩

/-- There is evidence where a high-risk slot is hit. -/
theorem any_iff : (computeRiskEvidence u request registry).any = true ↔
    ∃ slot ∈ registry.slots, slot.highRisk = true ∧ (DomainHit u request slot ∨ LexiconHit u request slot) := by
  rw [RiskEvidence.any, Bool.not_eq_true', List.isEmpty_eq_false_iff_exists_mem]
  simp only [mem_matched_iff]
  constructor
  · rintro ⟨_, slot, hmem, hrisk, hhit, -⟩
    exact ⟨slot, hmem, hrisk, hhit⟩
  · rintro ⟨slot, hmem, hrisk, hhit⟩
    exact ⟨_, slot, hmem, hrisk, hhit, rfl⟩

/-- **The guard fires for evidence of another slot.** -/
theorem requiresHrEscalation_of_other {evidence : RiskEvidence} {slotId : String} (hmem : slotId ∈ evidence.matchedHrSlotIds)
    (hne : slotId ≠ slot.slotId) : requiresHrEscalation (some slot) evidence = true := by
  have hany : evidence.any = true := by
    rw [RiskEvidence.any, Bool.not_eq_true', List.isEmpty_eq_false_iff_exists_mem]
    exact ⟨slotId, hmem⟩
  have hother : evidence.matchedHrSlotIds ≠ [slot.slotId] := by
    intro he
    rw [he, List.mem_singleton] at hmem
    exact hne hmem
  simp [requiresHrEscalation, hany, hother]

/-- **How a slot is found**: by kind and folded domain, by an alias as it is written, or, where it is no high risk, by a
folded alias. -/
theorem lookupTarget_some {method : Method} (h : lookupTarget u request registry = (some slot, method)) :
    slot ∈ registry.slots ∧
      (slot.slotId = request.kind ++ ":" ++ resolverNormalize u request.rawDomain ∨ request.rawDomain ∈ slot.aliases ∨
        slot.highRisk = false) := by
  unfold lookupTarget at h
  dsimp only at h
  split at h
  · next hid =>
    cases h
    obtain ⟨hmem, hslot⟩ := SlotRegistry.byId_some hid
    exact ⟨hmem, .inl hslot⟩
  · split at h
    · next hraw =>
      cases h
      obtain ⟨hmem, halias⟩ := SlotRegistry.aliasRaw_some hraw
      exact ⟨hmem, .inr (.inl halias)⟩
    · split at h
      · next hfolded =>
        split at h
        · cases h
        · next hrisk =>
          cases h
          exact ⟨(SlotRegistry.aliasFolded_some hfolded).1, .inr (.inr (by simpa using hrisk))⟩
      · cases h

end Panella.Resolver

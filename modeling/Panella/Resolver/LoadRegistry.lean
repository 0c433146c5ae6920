import Panella.Lib.Fallible
import Panella.Lib.JsonRoundTrip
import Panella.Lib.OrderedDict
import Panella.Resolver.Blocking

/-!
# Loading the registry (`panella/resolver/registry.py`)

| here | there |
| --- | --- |
| `validateTaxonomy` | `_validate_taxonomy` (:122-140) |
| `readOp`, `validatePairs`, `validateAliasGovernance` | `validate_alias_governance` (:154-237), as `load_registry` calls it |
| `readSlot`, `registerSlot`, `loadSlots` | the body and the loop of `load_registry` (:272-328) |
| `loadRegistry` | `load_registry` (:240-343) |

A document is what JSON can say: `json.dumps` or a check of fields refuses every other YAML value. A surface belongs to the slot
that files it first, and to no other (`Filed`). So the three lookups of `prepare_guard` cannot cross: **`loadRegistry_routes`**.
-/

namespace Panella.Resolver

open Fallible PyJson PyText

/-- A `ValueError`, with what is invalid. -/
def refuse {α : Type} (label message : String) : Except ResolverErr α := .error (.valueError ("invalid " ++ label ++ message))

/-- `_fail`. -/
def fail {α : Type} (message : String) : Except ResolverErr α := refuse "slot registry: " message

/-- `if not holds: _fail(message)`. -/
def check (holds : Prop) [Decidable holds] (message : String) : Except ResolverErr Unit :=
  if holds then .ok () else fail message

/-- `isinstance(v, str) and v`. -/
def textOf : Json → Option String
  | .str s => if s = "" then none else some s
  | _ => none

/-- The keys of a dict are exactly these. -/
def HasKeys (d : Dict) (keys : List String) : Prop := (d.map Prod.fst).toFinset = keys.toFinset

instance (d : Dict) (keys : List String) : Decidable (HasKeys d keys) := inferInstanceAs (Decidable (_ = _))

/-- `_canonical_hash`. -/
def canonicalHash (lim : Limits) (content : Json) : Except ResolverErr String :=
  match dumps lim compact content with
  | .ok text => .ok (Sha256.hexdigest (Sha256.utf8 text))
  | .error .recursion => .error (.runtimeError "maximum recursion depth exceeded")
  | .error _ => .error (.valueError "Exceeds the limit for integer string conversion")

/-- `composite_registry_hash`, of two hex digests. -/
def compositeRegistryHash (slotRegistryHash taxonomyHash : String) : String :=
  Sha256.hexdigest (Sha256.utf8 (slotRegistryHash ++ ":" ++ taxonomyHash))

/-- The end of `_load_yaml`. -/
def mapping (label : String) : Json → Except ResolverErr Dict
  | .obj kvs => .ok kvs
  | _ => refuse label ": root must be a mapping"

/-- `_str_list`. -/
def strList (value : Json) (field slotId : String) : Except ResolverErr (List String) :=
  match value with
  | .arr xs =>
    match xs.mapM textOf with
    | some texts => if texts.Nodup then .ok texts else fail (slotId ++ "." ++ field ++ " contains duplicates")
    | none => fail (slotId ++ "." ++ field ++ " must be a list of non-empty strings")
  | _ => fail (slotId ++ "." ++ field ++ " must be a list of non-empty strings")

/-! ## The taxonomy -/

/-- The minimum of a domain of the taxonomy. -/
def readDescriptor (name : String) (descriptor : Json) : Except ResolverErr Int :=
  match descriptor with
  | .obj kvs =>
    if name = "" ∨ ¬ HasKeys kvs ["min_slots", "provenance"] then refuse "taxonomy: " "malformed domain descriptor"
    else
      match Dict.get kvs "min_slots" with
      | .int minimum =>
        if minimum < 1 then refuse "taxonomy: " (name ++ ".min_slots must be a positive int")
        else
          match textOf (Dict.get kvs "provenance") with
          | some provenance =>
            if "generic:".toList <+: provenance.toList ∨ "findings:".toList <+: provenance.toList then .ok minimum
            else refuse "taxonomy: " (name ++ ".provenance is invalid")
          | none => refuse "taxonomy: " (name ++ ".provenance is invalid")
      | _ => refuse "taxonomy: " (name ++ ".min_slots must be a positive int")
  | _ => refuse "taxonomy: " "malformed domain descriptor"

/-- `_validate_taxonomy`: the domains with their minima. -/
def validateTaxonomy (document : Dict) : Except ResolverErr (List (String × Int)) :=
  if ¬ HasKeys document ["version", "domains"] ∨ (textOf (Dict.get document "version")).isNone then
    refuse "taxonomy: " "root must contain exactly non-empty version and domains"
  else
    match Dict.get document "domains" with
    | .obj [] => refuse "taxonomy: " "domains must be a non-empty mapping"
    | .obj domains => do
      let minima ← domains.mapM fun kv => (readDescriptor kv.1 kv.2).map fun minimum => (kv.1, minimum)
      if (minima.map Prod.snd).sum < minRegistrySlots then
        refuse "taxonomy: " ("minima must sum to at least " ++ toString minRegistrySlots)
      else .ok minima
    | _ => refuse "taxonomy: " "domains must be a non-empty mapping"

/-! ## The governance of aliases -/

/-- `_GOVERNANCE_OPS`. -/
def governanceOps : List String := ["add_alias", "remove_alias", "add_domain", "remove_domain"]

/-- `_GOVERNANCE_REASONS`. -/
def governanceReasons : List String := ["ambiguity", "retirement", "superseded_by_pair"]

structure GovernanceOp where
  op : String
  surface : String
  slot : String
  pairId : Option String

def failGovernance {α : Type} (message : String) : Except ResolverErr α := refuse "alias governance: " message

/-- `v in {…}`, for a set of texts: `some` of the text if it is. -/
def memberOf (words : List String) : Json → Except ResolverErr (Option String)
  | .str s => .ok (if s ∈ words then some s else none)
  | .arr _ => .error (.typeError "unhashable type: 'list'")
  | .obj _ => .error (.typeError "unhashable type: 'dict'")
  | _ => .ok none

/-- The reason of a removal and what has to stand beside it. -/
def checkReason (fixtureExists : String → Bool) (fields : Dict) (pairId : Option String) : Except ResolverErr Unit := do
  match ← memberOf governanceReasons (Dict.get fields "reason") with
  | none => failGovernance "reason"
  | some reason =>
    if reason = "ambiguity" ∧ ¬ (textOf (Dict.get fields "fixture_id")).any fixtureExists then
      failGovernance "ambiguity requires an existing fixture_id"
    else if reason ≠ "ambiguity" ∧ ¬ Dict.get fields "fixture_id" matches .null then
      failGovernance "fixture_id is limited to ambiguity"
    else if pairId.isSome ≠ decide (reason = "superseded_by_pair") then
      failGovernance "paired removes require superseded_by_pair"
    else .ok ()

/-- The body of the loop over the operations. -/
def readOp (fixtureExists : String → Bool) (seen : List GovernanceOp) (entry : Json) : Except ResolverErr GovernanceOp :=
  match entry with
  | .obj fields => do
    match ← memberOf governanceOps (Dict.get fields "op"), textOf (Dict.get fields "surface") with
    | some op, some surface =>
      let isAdd := op = "add_alias" ∨ op = "add_domain"
      let required :=
        if isAdd then ["op", "surface", "to_slot", "rationale"] else ["op", "surface", "from_slot", "rationale", "reason"]
      let allowed := required ++ ["pair_id"] ++ (if isAdd then [] else ["fixture_id"])
      let keys := fields.map Prod.fst
      if ¬ (keys ⊆ allowed ∧ required ⊆ keys) then failGovernance "fields for op"
      else if (if isAdd then "from_slot" else "to_slot") ∈ keys ∨ (textOf (Dict.get fields "rationale")).isNone then
        failGovernance "slot direction or rationale"
      else
        match textOf (Dict.get fields (if isAdd then "to_slot" else "from_slot")) with
        | none => failGovernance "slot id"
        | some slot =>
          if seen.any fun o => o.op = op ∧ o.surface = surface ∧ o.slot = slot then failGovernance "duplicate delta key"
          else
            let pairId := textOf (Dict.get fields "pair_id")
            if pairId.isNone ∧ ¬ Dict.get fields "pair_id" matches .null then failGovernance "pair_id"
            else
              (if isAdd then .ok () else checkReason fixtureExists fields pairId).map fun _ => ⟨op, surface, slot, pairId⟩
    | _, _ => failGovernance "op or surface"
  | _ => failGovernance "op must be a mapping"

def readOps (fixtureExists : String → Bool) : List GovernanceOp → List Json → Except ResolverErr (List GovernanceOp)
  | seen, [] => .ok seen
  | seen, entry :: entries => do
    let op ← readOp fixtureExists seen entry
    readOps fixtureExists (seen ++ [op]) entries

/-- One add and one remove, of one family, with a surface or a slot in common. -/
def validatePair (ops : List GovernanceOp) (pairId : String) : Except ResolverErr Unit :=
  match ops.filter (·.pairId = some pairId) with
  | [a, b] =>
    let removes (o : GovernanceOp) := o.op = "remove_alias" ∨ o.op = "remove_domain"
    let aliases (o : GovernanceOp) := o.op = "add_alias" ∨ o.op = "remove_alias"
    if removes a ↔ removes b then failGovernance ("pair " ++ pairId ++ " must have one add and one remove")
    else if ¬ (aliases a ↔ aliases b) then failGovernance ("pair " ++ pairId ++ " changes different families")
    else if a.surface ≠ b.surface ∧ a.slot ≠ b.slot then failGovernance ("pair " ++ pairId ++ " has no shared surface or slot")
    else .ok ()
  | _ => failGovernance ("pair " ++ pairId ++ " must have one add and one remove")

/-- `validate_alias_governance(document)`. -/
def validateAliasGovernance (fixtureExists : String → Bool) (document : Dict) : Except ResolverErr Unit :=
  if ¬ HasKeys document ["baseline_registry_hash", "ops"] then failGovernance "root fields"
  else
    match Dict.get document "baseline_registry_hash", Dict.get document "ops" with
    | .str baseline, .arr entries =>
      if baseline.length ≠ 64 ∨ baseline.toList.any (fun c => !"0123456789abcdef".toList.contains c) then
        failGovernance "baseline_registry_hash"
      else do
        let ops ← readOps fixtureExists [] entries
        (ops.filterMap (·.pairId)).eraseDups.forM (validatePair ops)
    | .str baseline, _ =>
      if baseline.length ≠ 64 ∨ baseline.toList.any (fun c => !"0123456789abcdef".toList.contains c) then
        failGovernance "baseline_registry_hash"
      else failGovernance "ops"
    | _, _ => failGovernance "baseline_registry_hash"

def checkGovernance (fixtureExists : String → Bool) : Option Json → Except ResolverErr Unit
  | none => .ok ()
  | some document => (mapping "alias governance" document).bind (validateAliasGovernance fixtureExists)

/-! ## A slot -/

/-- `_REQUIRED_SLOT_FIELDS`. -/
def requiredSlotFields : List String :=
  ["id", "kind", "domain", "description", "high_risk", "aliases", "taxonomy_domain", "blocking_terms"]

/-- `_ALLOWED_SLOT_FIELDS`. -/
def allowedSlotFields : List String := requiredSlotFields ++ ["deny_neighbors", "hr_lexicon"]

def requireText (index : Nat) (v : Json) : Except ResolverErr String :=
  match textOf v with
  | some s => .ok s
  | none => fail ("slot " ++ toString index ++ " has invalid string fields")

def requireBool (message : String) : Json → Except ResolverErr Bool
  | .bool b => .ok b
  | _ => fail message

def requireDomain (domains : List (String × Int)) (message : String) : Json → Except ResolverErr String
  | .str t => if t ∈ domains.map Prod.fst then .ok t else fail message
  | _ => fail message

/-- `startswith("xunres_")`. -/
def Reserved (surface : String) : Prop := "xunres_".toList <+: surface.toList

instance (surface : String) : Decidable (Reserved surface) := inferInstanceAs (Decidable (_ <+: _))

section
variable (u : Unicode)

/-- `_tokens(surface) & BLOCKING_STOPWORDS` is empty. -/
def NoStopword (surface : String) : Prop := tokens u surface ∩ blockingStopwords.toFinset = ∅

instance (surface : String) : Decidable (NoStopword u surface) := inferInstanceAs (Decidable (_ = _))

/-- A blocking term says something that no surface says. -/
def BlockingTerm (surfaces : Finset String) (term : String) : Prop :=
  term = resolverNormalize u term ∧ '_' ∉ term.toList ∧ term ∉ blockingStopwords ∧ term ∉ surfaces

instance (surfaces : Finset String) (term : String) : Decidable (BlockingTerm u surfaces term) :=
  inferInstanceAs (Decidable (_ ∧ _))

/-- The body of the loop, up to the check of the id. -/
def readSlot (domains : List (String × Int)) (index : Nat) (raw : Json) : Except ResolverErr RegistrySlot :=
  match raw with
  | .obj fields => do
    let keys := fields.map Prod.fst
    check (requiredSlotFields ⊆ keys ∧ keys ⊆ allowedSlotFields)
      ("slot " ++ toString index ++ " has missing or unsupported fields")
    let slotId ← requireText index (Dict.get fields "id")
    let kind ← requireText index (Dict.get fields "kind")
    let domain ← requireText index (Dict.get fields "domain")
    let description ← requireText index (Dict.get fields "description")
    check (4 ≤ ((tokens u description \ scoringDrop u) \ tokens u domain).card)
      (slotId ++ " description has fewer than four content tokens")
    check (kind ∈ kinds ∧ slotId = kind ++ ":" ++ domain) (slotId ++ " must equal kind:domain")
    let taxonomyDomain ← requireDomain domains (slotId ++ ".taxonomy_domain is unknown") (Dict.get fields "taxonomy_domain")
    check (¬ Reserved domain ∧ extractorNormalizeDomain u domain = domain ∧ resolverNormalize u domain = domain)
      (slotId ++ " has a non-canonical or reserved domain")
    check (NoStopword u domain) (slotId ++ " domain contains a blocking stopword")
    let highRisk ← requireBool (slotId ++ ".high_risk must be bool") (Dict.get fields "high_risk")
    let aliases ← strList (Dict.get fields "aliases") "aliases" slotId
    check (∀ a ∈ aliases, ¬ Reserved a ∧ extractorNormalizeDomain u a = a)
      (slotId ++ " has a non-canonical or reserved alias")
    check (∀ a ∈ aliases, NoStopword u a) (slotId ++ " alias contains a blocking stopword")
    let blockingTerms ← strList (Dict.get fields "blocking_terms") "blocking_terms" slotId
    check (blockingTerms.length ≤ 24 ∧ blockingTerms.insertionSort (· ≤ ·) = blockingTerms)
      (slotId ++ ".blocking_terms must be sorted and capped")
    let surfaces := aliases.foldl (fun acc a => acc ∪ tokens u a) (tokens u domain)
    check (∀ term ∈ blockingTerms, BlockingTerm u surfaces term)
      (slotId ++ " has an invalid blocking term " ++ ((blockingTerms.find? (¬ BlockingTerm u surfaces ·)).getD ""))
    let denyNeighbors ← strList (Dict.getD fields "deny_neighbors" (.arr [])) "deny_neighbors" slotId
    let hrLexicon ← strList (Dict.getD fields "hr_lexicon" (.arr [])) "hr_lexicon" slotId
    check (denyNeighbors.length ≤ 4 ∧ hrLexicon.length ≤ 8) (slotId ++ " exceeds a registry list limit")
    check (highRisk = true → hrLexicon ≠ []) (slotId ++ " high-risk slots require hr_lexicon")
    check (highRisk = false → hrLexicon = []) (slotId ++ " non-high-risk slot cannot define hr_lexicon")
    .ok
      { slotId, kind, domain, description, highRisk, aliases, denyNeighbors, hrLexicon
        denyNeighborNote :=
          if denyNeighbors = [] then none else some ("Do not confuse with: " ++ ", ".intercalate denyNeighbors ++ ".")
        taxonomyDomain, blockingTerms }
  | _ => fail ("slot " ++ toString index ++ " must be a mapping")

/-! ## The loop -/

/-- `all_raw` and `all_folded`: the surfaces that are taken, with the slots they belong to. -/
structure Taken where
  raw : List (String × String)
  folded : List (String × String)

def fileSurface (slotId : String) (taken : Taken) (surface : String) : Except ResolverErr Taken :=
  let (raw, priorRaw) := OrderedDict.setDefault taken.raw surface slotId
  let (folded, priorFolded) := OrderedDict.setDefault taken.folded (resolverNormalize u surface) slotId
  if priorRaw ≠ slotId ∨ priorFolded ≠ slotId then fail ("alias two-form collision for " ++ surface) else .ok ⟨raw, folded⟩

/-- The slots so far: no id stands twice. -/
structure Loading where
  slots : List RegistrySlot
  taken : Taken
  ids : (slots.map (·.slotId)).Nodup

/-- The end of the body. -/
def registerSlot (st : Loading) (slot : RegistrySlot) : Except ResolverErr Loading :=
  if h : slot.slotId ∈ st.slots.map (·.slotId) then fail ("duplicate id " ++ slot.slotId)
  else
    (slot.surfaces.foldlM (fileSurface u slot.slotId) st.taken).map fun taken =>
      { slots := st.slots ++ [slot], taken
        ids := by
          rw [List.map_append, List.map_singleton]
          exact List.nodup_append.2 ⟨st.ids, List.nodup_singleton _, fun a ha b hb he =>
            h (List.mem_singleton.1 hb ▸ he ▸ ha)⟩ }

def loadSlots (domains : List (String × Int)) : Nat → List Json → Loading → Except ResolverErr Loading
  | _, [], st => .ok st
  | index, raw :: raws, st => do
    let slot ← readSlot u domains index raw
    let st ← registerSlot u st slot
    loadSlots domains (index + 1) raws st

end

/-- A taxonomy domain with too few slots. -/
def checkCounts (slots : List RegistrySlot) (domains : List (String × Int)) : Except ResolverErr Unit :=
  domains.forM fun (name, minimum) =>
    check (minimum ≤ slots.countP (·.taxonomyDomain = name))
      ("taxonomy domain " ++ name ++ " has fewer than " ++ toString minimum ++ " slots")

/-- Every neighbour to deny is the domain of a slot of no high risk. -/
def checkNeighbors (slots : List RegistrySlot) : Except ResolverErr Unit :=
  slots.forM fun slot => slot.denyNeighbors.forM fun neighbor =>
    check ((slots.reverse.find? (·.domain = neighbor)).any fun target => !target.highRisk)
      (slot.slotId ++ " has dangling or high-risk deny_neighbor " ++ neighbor)

/-- `load_registry`, of the documents in its files; `governance` is `none` where there is no such file. -/
def loadRegistry (u : Unicode) (lim : Limits) (fixtureExists : String → Bool) (loaded taxonomy : Json)
    (governance : Option Json) (expectedHash : Option String) : Except ResolverErr SlotRegistry := do
  let root ← mapping "slot registry" loaded
  let taxonomyRoot ← mapping "taxonomy" taxonomy
  match textOf (Dict.get root "version"), Dict.get root "slots" with
  | some version, .arr raws => do
    check (HasKeys root ["version", "slots"]) "root must contain exactly non-empty version and slots"
    let domains ← validateTaxonomy taxonomyRoot
    let slotHash ← canonicalHash lim loaded
    let taxonomyHash ← canonicalHash lim taxonomy
    let contentHash := compositeRegistryHash slotHash taxonomyHash
    check (∀ expected, expectedHash = some expected → contentHash = expected) "content hash does not match the pin"
    check (minRegistrySlots ≤ raws.length) ("registry must contain at least " ++ toString minRegistrySlots ++ " slots")
    let st ← loadSlots u domains 0 raws ⟨[], ⟨[], []⟩, List.nodup_nil⟩
    checkCounts st.slots domains
    checkNeighbors st.slots
    checkGovernance fixtureExists governance
    .ok { version, slots := st.slots, contentHash, slotRegistryHash := slotHash, taxonomyHash, ids := st.ids }
  | _, _ =>
    if (textOf (Dict.get root "version")).isSome ∧ HasKeys root ["version", "slots"] then fail "slots must be a list"
    else fail "root must contain exactly non-empty version and slots"

/-! ## What is loaded -/

variable {u : Unicode} {domains : List (String × Int)} {slot : RegistrySlot} {st st' : Loading}

theorem check_ok {holds : Prop} [Decidable holds] {message : String} {a : Unit} (h : check holds message = .ok a) : holds := by
  unfold check at h
  split at h
  · assumption
  · cases h

/-- A slot as it is accepted. -/
structure Canonical (u : Unicode) (slot : RegistrySlot) : Prop where
  kind : slot.kind ∈ kinds
  id : slot.slotId = slot.kind ++ ":" ++ slot.domain
  folded : resolverNormalize u slot.domain = slot.domain

theorem readSlot_canonical {index : Nat} {raw : Json} (h : readSlot u domains index raw = .ok slot) : Canonical u slot := by
  unfold readSlot at h
  split at h
  · next fields =>
    obtain ⟨_, -, h⟩ := bind_ok h
    obtain ⟨slotId, -, h⟩ := bind_ok h
    obtain ⟨kind, -, h⟩ := bind_ok h
    obtain ⟨domain, -, h⟩ := bind_ok h
    obtain ⟨description, -, h⟩ := bind_ok h
    obtain ⟨_, -, h⟩ := bind_ok h
    obtain ⟨_, hid, h⟩ := bind_ok h
    obtain ⟨taxonomyDomain, -, h⟩ := bind_ok h
    obtain ⟨_, hdomain, h⟩ := bind_ok h
    obtain ⟨_, -, h⟩ := bind_ok h
    obtain ⟨highRisk, -, h⟩ := bind_ok h
    obtain ⟨aliases, -, h⟩ := bind_ok h
    obtain ⟨_, -, h⟩ := bind_ok h
    obtain ⟨_, -, h⟩ := bind_ok h
    obtain ⟨blockingTerms, -, h⟩ := bind_ok h
    obtain ⟨_, -, h⟩ := bind_ok h
    obtain ⟨_, -, h⟩ := bind_ok h
    obtain ⟨denyNeighbors, -, h⟩ := bind_ok h
    obtain ⟨hrLexicon, -, h⟩ := bind_ok h
    obtain ⟨_, -, h⟩ := bind_ok h
    obtain ⟨_, -, h⟩ := bind_ok h
    obtain ⟨_, -, h⟩ := bind_ok h
    cases h
    exact ⟨(check_ok hid).1, (check_ok hid).2, (check_ok hdomain).2.2⟩
  · cases h

/-- The surface is free, or belongs to the slot already. -/
def Free (u : Unicode) (slotId : String) (taken : Taken) (surface : String) : Prop :=
  (taken.raw.lookup surface).getD slotId = slotId ∧ (taken.folded.lookup (resolverNormalize u surface)).getD slotId = slotId

/-- `taken'` is `taken` with surfaces for a slot. -/
structure Grown (u : Unicode) (slotId : String) (surfaces : List String) (taken taken' : Taken) : Prop where
  raw : ∀ key, taken'.raw.lookup key = if key ∈ surfaces then some slotId else taken.raw.lookup key
  folded : ∀ key, taken'.folded.lookup key =
    if key ∈ surfaces.map (resolverNormalize u) then some slotId else taken.folded.lookup key

/-- **A surface is filed if it is free.** -/
theorem fileSurface_cases (u : Unicode) (slotId surface : String) (taken : Taken) :
    (Free u slotId taken surface ∧ ∃ taken', fileSurface u slotId taken surface = .ok taken' ∧
      Grown u slotId [surface] taken taken') ∨
    (¬ Free u slotId taken surface ∧ ∃ e, fileSurface u slotId taken surface = .error e) := by
  unfold fileSurface Free
  rw [← OrderedDict.setDefault_snd, ← OrderedDict.setDefault_snd]
  dsimp only
  split
  · next hother => exact .inr ⟨fun hfree => hother.elim (· hfree.1) (· hfree.2), _, rfl⟩
  · next hown =>
    rw [not_or, not_not, not_not] at hown
    refine .inl ⟨hown, _, rfl, ?_, ?_⟩
    · intro key
      rw [OrderedDict.lookup_setDefault, hown.1]
      simp
    · intro key
      rw [OrderedDict.lookup_setDefault, hown.2]
      simp

theorem fileSurface_ok {slotId surface : String} {taken taken' : Taken} (h : fileSurface u slotId taken surface = .ok taken') :
    Free u slotId taken surface ∧ Grown u slotId [surface] taken taken' := by
  rcases fileSurface_cases u slotId surface taken with ⟨hfree, taken₁, hok, hgrown⟩ | ⟨-, e, herr⟩
  · rw [h] at hok
    cases hok
    exact ⟨hfree, hgrown⟩
  · rw [h] at herr
    cases herr

/-- Filing a surface of the slot leaves every other as free as it was. -/
theorem Grown.free_iff {slotId surface other : String} {taken taken' : Taken} (hfree : Free u slotId taken surface)
    (h : Grown u slotId [surface] taken taken') : Free u slotId taken' other ↔ Free u slotId taken other := by
  unfold Free at hfree ⊢
  rw [h.raw, h.folded]
  simp only [List.map_singleton, List.mem_singleton]
  apply and_congr
  · split
    · next heq =>
      rw [heq]
      exact iff_of_true rfl hfree.1
    · rfl
  · split
    · next heq =>
      rw [heq]
      exact iff_of_true rfl hfree.2
    · rfl

theorem fileSurfaces_ok {slotId : String} {surfaces : List String} {taken taken' : Taken}
    (h : surfaces.foldlM (fileSurface u slotId) taken = .ok taken') :
    (∀ surface ∈ surfaces, Free u slotId taken surface) ∧ Grown u slotId surfaces taken taken' := by
  induction surfaces generalizing taken with
  | nil =>
    cases h
    exact ⟨by simp, by simp, by simp⟩
  | cons surface surfaces ih =>
    rw [List.foldlM_cons] at h
    obtain ⟨taken₁, hfile, h⟩ := bind_ok h
    obtain ⟨hfree, hgrown⟩ := fileSurface_ok hfile
    obtain ⟨hrest, hgrown'⟩ := ih h
    refine ⟨List.forall_mem_cons.2 ⟨hfree, fun other hother => (hgrown.free_iff hfree).1 (hrest other hother)⟩, ?_, ?_⟩
    · intro key
      rw [hgrown'.raw, hgrown.raw]
      by_cases hkey : key ∈ surfaces <;> simp [hkey]
    · intro key
      rw [hgrown'.folded, hgrown.folded]
      simp only [List.map_cons, List.map_nil, List.mem_cons, List.not_mem_nil, or_false]
      by_cases hkey : key ∈ surfaces.map (resolverNormalize u)
      · rw [if_pos hkey, if_pos (.inr hkey)]
      · simp only [hkey, or_false, if_false]

theorem fileSurfaces_returns {slotId : String} {surfaces : List String} {taken : Taken}
    (h : ∀ surface ∈ surfaces, Free u slotId taken surface) :
    ∃ taken', surfaces.foldlM (fileSurface u slotId) taken = .ok taken' := by
  induction surfaces generalizing taken with
  | nil => exact ⟨taken, rfl⟩
  | cons surface surfaces ih =>
    obtain ⟨hfree, hrest⟩ := List.forall_mem_cons.1 h
    rcases fileSurface_cases u slotId surface taken with ⟨-, taken₁, hok, hgrown⟩ | ⟨hnot, -⟩
    · obtain ⟨taken', htaken'⟩ := ih fun other hother => (hgrown.free_iff hfree).2 (hrest other hother)
      refine ⟨taken', ?_⟩
      rw [List.foldlM_cons, hok]
      exact htaken'
    · exact absurd hfree hnot

/-- Every slot so far is canonical, and a surface is taken exactly by the slot it is of. -/
structure Filed (u : Unicode) (st : Loading) : Prop where
  canonical : ∀ slot ∈ st.slots, Canonical u slot
  raw : ∀ key owner, st.taken.raw.lookup key = some owner ↔ ∃ slot ∈ st.slots, slot.slotId = owner ∧ key ∈ slot.surfaces
  folded : ∀ key owner, st.taken.folded.lookup key = some owner ↔
    ∃ slot ∈ st.slots, slot.slotId = owner ∧ key ∈ slot.surfaces.map (resolverNormalize u)

/-- What is taken after a slot is. -/
theorem owner_grown {keys : RegistrySlot → List String} {table table' : List (String × String)}
    (htable : ∀ key owner, table.lookup key = some owner ↔ ∃ slot ∈ st.slots, slot.slotId = owner ∧ key ∈ keys slot)
    (hfree : ∀ key ∈ keys slot, (table.lookup key).getD slot.slotId = slot.slotId)
    (hgrown : ∀ key, table'.lookup key = if key ∈ keys slot then some slot.slotId else table.lookup key) (key owner : String) :
    table'.lookup key = some owner ↔ ∃ slot' ∈ st.slots ++ [slot], slot'.slotId = owner ∧ key ∈ keys slot' := by
  rw [hgrown]
  by_cases hkey : key ∈ keys slot
  · rw [if_pos hkey, Option.some.injEq]
    constructor
    · rintro rfl
      exact ⟨slot, by simp, rfl, hkey⟩
    · rintro ⟨slot', hmem, rfl, hkey'⟩
      rcases List.mem_append.1 hmem with hold | hnew
      · have howner := hfree key hkey
        rw [(htable key slot'.slotId).2 ⟨slot', hold, rfl, hkey'⟩] at howner
        exact howner.symm
      · rw [List.mem_singleton.1 hnew]
  · rw [if_neg hkey, htable]
    constructor
    · rintro ⟨slot', hmem, rfl, hkey'⟩
      exact ⟨slot', List.mem_append_left _ hmem, rfl, hkey'⟩
    · rintro ⟨slot', hmem, rfl, hkey'⟩
      rcases List.mem_append.1 hmem with hold | hnew
      · exact ⟨slot', hold, rfl, hkey'⟩
      · exact absurd (List.mem_singleton.1 hnew ▸ hkey') hkey

/-- **A slot that is registered owns its surfaces**, and takes none from another. -/
theorem Filed.register (hf : Filed u st) (hslot : Canonical u slot) (h : registerSlot u st slot = .ok st') :
    Filed u st' ∧ st'.slots = st.slots ++ [slot] := by
  unfold registerSlot at h
  split at h
  · cases h
  · obtain ⟨taken, hfile, hst⟩ := map_ok h
    subst hst
    obtain ⟨hfree, hgrown⟩ := fileSurfaces_ok hfile
    refine ⟨⟨fun slot' hmem => ?_, ?_, ?_⟩, rfl⟩
    · rcases List.mem_append.1 hmem with hold | hnew
      · exact hf.canonical slot' hold
      · rw [List.mem_singleton.1 hnew]
        exact hslot
    · exact owner_grown hf.raw (fun key hkey => (hfree key hkey).1) hgrown.raw
    · refine owner_grown hf.folded (fun key hkey => ?_) hgrown.folded
      obtain ⟨surface, hs, rfl⟩ := List.mem_map.1 hkey
      exact (hfree surface hs).2

/-- Two slots with different ids and surfaces that fold apart. -/
def Apart (u : Unicode) (a b : RegistrySlot) : Prop :=
  a.slotId ≠ b.slotId ∧
    ∀ surface ∈ a.surfaces, ∀ surface' ∈ b.surfaces, resolverNormalize u surface ≠ resolverNormalize u surface'

/-- **A slot apart from those before is registered.** -/
theorem Filed.registers (hf : Filed u st) (h : ∀ slot' ∈ st.slots, Apart u slot' slot) :
    ∃ st', registerSlot u st slot = .ok st' := by
  have hfresh : slot.slotId ∉ st.slots.map (·.slotId) := by
    intro hmem
    obtain ⟨slot', hmem', hid⟩ := List.mem_map.1 hmem
    exact (h slot' hmem').1 hid
  have hfree : ∀ surface ∈ slot.surfaces, Free u slot.slotId st.taken surface := by
    intro surface hs
    constructor
    · cases hlookup : st.taken.raw.lookup surface with
      | none => rfl
      | some owner =>
        obtain ⟨slot', hmem, -, hs'⟩ := (hf.raw surface owner).1 hlookup
        exact absurd rfl ((h slot' hmem).2 surface hs' surface hs)
    · cases hlookup : st.taken.folded.lookup (resolverNormalize u surface) with
      | none => rfl
      | some owner =>
        obtain ⟨slot', hmem, -, hs'⟩ := (hf.folded _ owner).1 hlookup
        obtain ⟨surface', hsurface', hfold⟩ := List.mem_map.1 hs'
        exact absurd hfold ((h slot' hmem).2 surface' hsurface' surface hs)
  obtain ⟨taken, htaken⟩ := fileSurfaces_returns hfree
  unfold registerSlot
  rw [dif_neg hfresh, htaken]
  exact ⟨_, rfl⟩

theorem filed_nil : Filed u ⟨[], ⟨[], []⟩, List.nodup_nil⟩ := ⟨by simp, by simp, by simp⟩

/-- **Slots that can be read and are apart are loaded.** -/
theorem loadSlots_returns {raws : List Json} {slots : List RegistrySlot} {index : Nat} (hf : Filed u st)
    (hread : List.Forall₂ (fun raw slot => ∀ index, readSlot u domains index raw = .ok slot) raws slots)
    (hapart : (st.slots ++ slots).Pairwise (Apart u)) :
    ∃ st', loadSlots u domains index raws st = .ok st' ∧ st'.slots = st.slots ++ slots := by
  induction hread generalizing index st with
  | nil => exact ⟨st, rfl, by simp⟩
  | @cons raw slot raws slots hslot _ ih =>
    have hbefore : ∀ slot' ∈ st.slots, Apart u slot' slot :=
      fun slot' hmem => (List.pairwise_append.1 hapart).2.2 slot' hmem slot List.mem_cons_self
    obtain ⟨st₁, hst₁⟩ := hf.registers hbefore
    obtain ⟨hf₁, hslots₁⟩ := hf.register (readSlot_canonical (hslot index)) hst₁
    have hapart₁ : (st₁.slots ++ slots).Pairwise (Apart u) := by
      rwa [hslots₁, List.append_assoc, List.singleton_append]
    obtain ⟨st', hst', hslots'⟩ := @ih _ (index + 1) hf₁ hapart₁
    refine ⟨st', ?_, ?_⟩
    · unfold loadSlots
      rw [hslot, ok_then, hst₁, ok_then, hst']
    · rw [hslots', hslots₁, List.append_assoc, List.singleton_append]

theorem loadSlots_filed {raws : List Json} {index : Nat} (hf : Filed u st) (h : loadSlots u domains index raws st = .ok st') :
    Filed u st' := by
  induction raws generalizing index st with
  | nil =>
    cases h
    exact hf
  | cons raw raws ih =>
    unfold loadSlots at h
    obtain ⟨slot, hslot, h⟩ := bind_ok h
    obtain ⟨st₁, hst, h⟩ := bind_ok h
    exact ih (hf.register (readSlot_canonical hslot) hst).1 h

/-- **What an accepted registry holds.** -/
theorem loadRegistry_filed {lim : Limits} {fixtureExists : String → Bool} {loaded taxonomy : Json} {governance : Option Json}
    {expectedHash : Option String} {registry : SlotRegistry}
    (h : loadRegistry u lim fixtureExists loaded taxonomy governance expectedHash = .ok registry) :
    ∃ st, Filed u st ∧ registry.slots = st.slots := by
  unfold loadRegistry at h
  obtain ⟨root, -, h⟩ := bind_ok h
  obtain ⟨taxonomyRoot, -, h⟩ := bind_ok h
  split at h
  · obtain ⟨_, -, h⟩ := bind_ok h
    obtain ⟨domains, -, h⟩ := bind_ok h
    obtain ⟨slotHash, -, h⟩ := bind_ok h
    obtain ⟨taxonomyHash, -, h⟩ := bind_ok h
    obtain ⟨_, -, h⟩ := bind_ok h
    obtain ⟨_, -, h⟩ := bind_ok h
    obtain ⟨st, hst, h⟩ := bind_ok h
    obtain ⟨_, -, h⟩ := bind_ok h
    obtain ⟨_, -, h⟩ := bind_ok h
    obtain ⟨_, -, h⟩ := bind_ok h
    cases h
    exact ⟨st, loadSlots_filed filed_nil hst, rfl⟩
  · split at h <;> cases h

end Panella.Resolver

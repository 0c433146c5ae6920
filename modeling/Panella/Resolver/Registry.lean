import Panella.Resolver.Normalize

/-!
# The slot registry (`panella/resolver/registry.py`)

`load_registry` reads the slots from a document, refuses two of one id, and files them by id, by the aliases as they are
written and by the aliases folded.
-/

namespace Panella.Resolver

open PyText

/-- `MIN_REGISTRY_SLOTS`. -/
def minRegistrySlots : Nat := 90

def pinnedRegistryHash : String := "60d7470da7162c9708c6fabac9aa6d3bc543a45620fa114e45fd58d939064179"

/-- `_KINDS`. -/
def kinds : List String := ["preference", "fact", "constraint"]

structure RegistrySlot where
  slotId : String
  kind : String
  domain : String
  description : String
  highRisk : Bool
  aliases : List String
  denyNeighbors : List String
  hrLexicon : List String
  denyNeighborNote : Option String
  taxonomyDomain : String
  blockingTerms : List String

structure SlotRegistry where
  version : String
  slots : List RegistrySlot
  contentHash : String
  slotRegistryHash : String
  taxonomyHash : String
  /-- `duplicate id` is refused. -/
  ids : (slots.map (·.slotId)).Nodup

namespace SlotRegistry

variable (registry : SlotRegistry)

/-- `registry.by_id.get(slot_id)`. -/
def byId (slotId : String) : Option RegistrySlot := registry.slots.find? (·.slotId = slotId)

/-- `registry.alias_raw.get(surface)`; a later slot would win. -/
def aliasRaw (surface : String) : Option RegistrySlot := registry.slots.reverse.find? (surface ∈ ·.aliases)

/-- `registry.alias_folded.get(normalized)`. -/
def aliasFolded (u : Unicode) (normalized : String) : Option RegistrySlot :=
  registry.slots.reverse.find? fun slot => normalized ∈ slot.aliases.map (resolverNormalize u)

variable {registry}

theorem byId_some {slotId : String} {slot : RegistrySlot} (h : registry.byId slotId = some slot) :
    slot ∈ registry.slots ∧ slot.slotId = slotId :=
  ⟨List.mem_of_find?_eq_some h, by simpa using List.find?_some h⟩

/-- **A slot is filed under its id.** -/
theorem byId_of_mem {slot : RegistrySlot} (h : slot ∈ registry.slots) : registry.byId slot.slotId = some slot := by
  cases hfind : registry.byId slot.slotId with
  | none =>
    have hnone := List.find?_eq_none.1 hfind slot h
    simp at hnone
  | some slot' =>
    obtain ⟨hmem, hid⟩ := byId_some hfind
    rw [List.inj_on_of_nodup_map registry.ids hmem h hid]

theorem aliasRaw_some {surface : String} {slot : RegistrySlot} (h : registry.aliasRaw surface = some slot) :
    slot ∈ registry.slots ∧ surface ∈ slot.aliases :=
  ⟨List.mem_reverse.1 (List.mem_of_find?_eq_some h), by simpa using List.find?_some h⟩

theorem aliasFolded_some {u : Unicode} {normalized : String} {slot : RegistrySlot}
    (h : registry.aliasFolded u normalized = some slot) :
    slot ∈ registry.slots ∧ normalized ∈ slot.aliases.map (resolverNormalize u) :=
  ⟨List.mem_reverse.1 (List.mem_of_find?_eq_some h), by simpa using List.find?_some h⟩

end SlotRegistry

end Panella.Resolver

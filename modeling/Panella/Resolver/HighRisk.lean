import Panella.Resolver.Bind

/-!
# High risk is never lost

Both builders set the flag from the evidence, the guard and the slice, `_resolved` from the chosen slot as well; every door
of `resolve` goes through one of them, with the evidence and the guard it started from.
-/

namespace Panella.Resolver

open PyText

variable {eng : ResolverEngine} {u : Unicode} {request : ResolveRequest} {context : ResolverContext} {budget : RunBudget}
  {evidence : RiskEvidence} {guard : GuardPreparation} {dec : ResolveDecision}

/-- Why a request is of high risk: a slot it hits, the guard, the slot chosen, or the slice of its choice set. -/
inductive HighRiskCause (eng : ResolverEngine) (u : Unicode) (request : ResolveRequest) (guard : GuardPreparation)
    (dec : ResolveDecision) : Prop
  | evidence (slot : RegistrySlot) (hmem : slot ∈ eng.registry.slots) (hrisk : slot.highRisk = true)
      (hhit : DomainHit u request slot ∨ LexiconHit u request slot)
  | guard (hfired : guard.guardFired = true)
  | chosen (slotId : String) (slot : RegistrySlot) (hslotId : dec.slotId = some slotId)
      (hslot : eng.registry.byId slotId = some slot) (hrisk : slot.highRisk = true)
  | slice (receipt : BlockingReceipt) (hreceipt : dec.blockingReceipt = some receipt) (hslice : receipt.slice = .hr)

/-- The flag, from what a door was opened with. -/
theorem exit_highRisk (h : ResolveExit eng u request context evidence guard dec) :
    (dec.highRisk = true ↔ evidence.any = true ∨ guard.guardFired = true ∨
      (∃ slotId slot, dec.slotId = some slotId ∧ eng.registry.byId slotId = some slot ∧ slot.highRisk = true) ∨
      ∃ receipt, dec.blockingReceipt = some receipt ∧ receipt.slice = .hr) := by
  rcases h with ⟨target, -, hfired, hdec⟩ | ⟨_, _, blocking, _, _, -, hdec⟩ | ⟨blocking, _, slotId, _, _, -, -, hdec⟩
  · obtain ⟨slot, hslot, rfl⟩ := resolved_ok hdec
    simp [hslot, hfired]
  · obtain ⟨domain, rfl⟩ := abstain_ok hdec
    cases blocking <;> simp [or_assoc]
  · obtain ⟨slot, hslot, rfl⟩ := resolved_ok hdec
    simp [hslot, or_assoc]

/-- The choice set a decision shows is the one of its request. -/
theorem exit_blocking (h : ResolveExit eng u request context evidence guard dec) {receipt : BlockingReceipt}
    (hreceipt : dec.blockingReceipt = some receipt) :
    ∃ blocking, eng.blocking u request evidence guard = .ok blocking ∧ blocking.receipt = receipt := by
  rcases h with ⟨target, -, -, hdec⟩ | ⟨_, _, _, _, _, hblocking, hdec⟩ | ⟨blocking, _, slotId, _, _, hblocking, -, hdec⟩
  · obtain ⟨slot, -, rfl⟩ := resolved_ok hdec
    cases hreceipt
  · obtain ⟨domain, rfl⟩ := abstain_ok hdec
    exact hblocking receipt hreceipt
  · obtain ⟨slot, -, rfl⟩ := resolved_ok hdec
    exact ⟨blocking, hblocking, Option.some.inj hreceipt⟩

/-- **A deterministic method comes out of one door only.** -/
theorem exit_deterministic (h : ResolveExit eng u request context evidence guard dec)
    (hmethod : dec.method = .exact ∨ dec.method = .alias) :
    ∃ target, guard.target = some target ∧ guard.guardFired = false ∧ dec.slotId = some target.slotId ∧
      dec.method = guard.method := by
  rcases h with ⟨target, htarget, hfired, hdec⟩ | ⟨_, _, _, _, _, -, hdec⟩ | ⟨_, _, _, _, _, -, -, hdec⟩
  · obtain ⟨slot, -, rfl⟩ := resolved_ok hdec
    exact ⟨target, htarget, hfired, rfl, rfl⟩
  · obtain ⟨domain, rfl⟩ := abstain_ok hdec
    rcases hmethod with h | h <;> cases h
  · obtain ⟨slot, -, rfl⟩ := resolved_ok hdec
    rcases hmethod with h | h <;> cases h

/-- What a decision keeps of the risk of its request. -/
structure KeepsHighRisk (eng : ResolverEngine) (u : Unicode) (request : ResolveRequest) (evidence : RiskEvidence)
    (guard : GuardPreparation) (dec : ResolveDecision) : Prop where
  flagged : HighRiskCause eng u request guard dec → dec.highRisk = true
  /-- The slice is that of the choice set of the request. -/
  sliceShown : ∀ receipt, dec.blockingReceipt = some receipt →
    ∃ blocking, eng.blocking u request evidence guard = .ok blocking ∧ blocking.receipt = receipt
  /-- Evidence for another slot than the target closes the deterministic door. -/
  contested : ∀ target, guard.target = some target →
    (∃ slot ∈ eng.registry.slots, slot.highRisk = true ∧ (DomainHit u request slot ∨ LexiconHit u request slot) ∧
      slot.slotId ≠ target.slotId) → dec.method = .llmChoice ∨ dec.method = .none
  /-- A high-risk slot is bound deterministically by an alias as it is written, or by its own id. -/
  spelled : dec.method = .exact ∨ dec.method = .alias → ∀ slotId slot, dec.slotId = some slotId →
    eng.registry.byId slotId = some slot → slot.highRisk = true →
    request.rawDomain ∈ slot.aliases ∨ slot.slotId = request.kind ++ ":" ++ resolverNormalize u request.rawDomain

/-- **High risk is never lost**, whatever exit a decision takes. -/
theorem resolve_keeps_highRisk (h : (eng.resolve u request context budget).1 = .ok dec) :
    KeepsHighRisk eng u request (computeRiskEvidence u request eng.registry)
      (prepareGuard u request eng.registry (computeRiskEvidence u request eng.registry)) dec := by
  have hexit := resolve_exit h
  refine ⟨?_, fun receipt => exit_blocking hexit, ?_, ?_⟩
  · intro hcause
    apply (exit_highRisk hexit).2
    cases hcause with
    | evidence slot hmem hrisk hhit => exact .inl (any_iff.2 ⟨slot, hmem, hrisk, hhit⟩)
    | guard hfired => exact .inr (.inl hfired)
    | chosen slotId slot hslotId hslot hrisk => exact .inr (.inr (.inl ⟨slotId, slot, hslotId, hslot, hrisk⟩))
    | slice receipt hreceipt hslice => exact .inr (.inr (.inr ⟨receipt, hreceipt, hslice⟩))
  · rintro target htarget ⟨slot, hmem, hrisk, hhit, hne⟩
    have hother : slot.slotId ∈ (computeRiskEvidence u request eng.registry).matchedHrSlotIds :=
      mem_matched_iff.2 ⟨slot, hmem, hrisk, hhit, rfl⟩
    by_cases hmethod : dec.method = .exact ∨ dec.method = .alias
    · obtain ⟨target', htarget', hquiet, -, -⟩ := exit_deterministic hexit hmethod
      rw [htarget] at htarget'
      cases htarget'
      have hescalates := requiresHrEscalation_of_other hother hne
      rw [← htarget] at hescalates
      exact absurd (hescalates.symm.trans hquiet) Bool.noConfusion
    · cases hdec : dec.method <;> simp_all
  · intro hmethod slotId slot hslotId hslot hrisk
    obtain ⟨target, htarget, -, hbound, -⟩ := exit_deterministic hexit hmethod
    rw [hslotId, Option.some.injEq] at hbound
    have hlookup : lookupTarget u request eng.registry = (some target, (lookupTarget u request eng.registry).2) :=
      Prod.ext htarget rfl
    obtain ⟨hmem, hspelled⟩ := lookupTarget_some hlookup
    have hsame : slot = target := by
      rw [hbound, SlotRegistry.byId_of_mem hmem] at hslot
      exact (Option.some.inj hslot).symm
    subst hsame
    rcases hspelled with hid | halias | hbenign
    · exact .inr hid
    · exact .inl halias
    · rw [hrisk] at hbenign
      cases hbenign

/-- Food that is told to come with an allergy is flagged. -/
theorem resolve_keeps_highRisk_peanuts :
    ∃ dec, (sampleEngine.resolve asciiOnly (sampleRequest "peanuts" "allergic") ⟨[]⟩ freshBudget).1 = .ok dec ∧
      dec.method = .alias ∧
      KeepsHighRisk sampleEngine asciiOnly (sampleRequest "peanuts" "allergic")
        (computeRiskEvidence asciiOnly (sampleRequest "peanuts" "allergic") sampleRegistry)
        (prepareGuard asciiOnly (sampleRequest "peanuts" "allergic") sampleRegistry
          (computeRiskEvidence asciiOnly (sampleRequest "peanuts" "allergic") sampleRegistry)) dec := by
  have hmethod : sampleMethod "peanuts" "allergic" = some .alias := by decide +kernel
  obtain ⟨dec, hdec, halias⟩ := sampleMethod_some hmethod
  exact ⟨dec, hdec, halias, resolve_keeps_highRisk hdec⟩

end Panella.Resolver

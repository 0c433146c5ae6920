import Panella.Resolver.Engine

/-!
# What `resolve` binds on

A decision leaves `resolve` by one of three doors (`ResolveExit`): the deterministic target, an abstention, the choice of
the provider. The last opens only to a suggestion that keeps the contract (`KeepsContract`) and whose confidence reaches the
threshold of every slice it is held to (`Confident`).
-/

namespace Panella.Resolver

open PyText

/-! ## What a suggestion has to keep -/

/-- The contract of a provider, for an answer that ends in `"ok"`. -/
structure KeepsContract (suggestion : FallbackSuggestion) (timeoutMs : Int) : Prop where
  endsOk : ∃ terminal, suggestion.attempts.getLast? = some terminal ∧ terminal.outcome = .str "ok"
  known : ∀ a ∈ suggestion.attempts, ∃ word ∈ ["ok", "transport_error", "timeout", "invalid_output"], a.outcome = .str word
  excerpts : ∀ a ∈ suggestion.attempts, a.rawExcerpt ≠ .none →
    a.outcome = .str "invalid_output" ∧ ∃ s, a.rawExcerpt = .str s ∧ (Sha256.utf8 s).length ≤ 200
  /-- At most one attempt before the last, and that one broken off. -/
  retried : (∃ a, suggestion.attempts = [a]) ∨
    ∃ first a, suggestion.attempts = [first, a] ∧ (first.outcome = .str "transport_error" ∨ first.outcome = .str "timeout")
  timely : ∀ a ∈ suggestion.attempts, a.outcome = .str "ok" → a.latencyMs.gtInt timeoutMs = .ok false

theorem PyObj.isText_iff {v : PyObj} {s : String} : v.isText s = true ↔ v = .str s := by
  cases v <;> simp [PyObj.isText]

theorem PyObj.inSet_true {v : PyObj} {words : List String} :
    v.inSet words = .ok true ↔ ∃ word ∈ words, v = .str word := by
  unfold PyObj.inSet
  split
  · simp
  · simp
  · next hstr _ => simpa using fun word _ => hstr word

/-- A test that may raise, over a list: none passed. -/
theorem anyM_ok_false {α : Type} {f : α → Except ResolverErr Bool} {xs : List α} (h : xs.anyM f = .ok false) :
    ∀ x ∈ xs, f x = .ok false := by
  induction xs with
  | nil => simp
  | cons x xs ih =>
    rw [List.anyM] at h
    cases hx : f x with
    | error e =>
      rw [hx] at h
      cases h
    | ok b =>
      rw [hx] at h
      cases b with
      | true => cases h
      | false =>
        intro y hy
        rcases List.mem_cons.1 hy with rfl | hy
        · exact hx
        · exact ih h y hy

theorem not_inSet {v : PyObj} {words : List String} (h : (v.inSet words).map (!·) = .ok false) :
    ∃ word ∈ words, v = .str word := by
  apply PyObj.inSet_true.1
  cases hv : v.inSet words with
  | error e =>
    rw [hv] at h
    cases h
  | ok b =>
    rw [hv] at h
    cases b with
    | true => rfl
    | false => cases h

theorem excerptMisused_false {a : TransportAttempt} (h : a.excerptMisused = false) (hsome : a.rawExcerpt ≠ .none) :
    a.outcome = .str "invalid_output" ∧ ∃ s, a.rawExcerpt = .str s ∧ (Sha256.utf8 s).length ≤ 200 := by
  have hnone : a.rawExcerpt.isNone = false := by
    cases hx : a.rawExcerpt <;> first | rfl | exact absurd hx hsome
  unfold TransportAttempt.excerptMisused at h
  rw [hnone, Bool.not_false, Bool.true_and, Bool.or_eq_false_iff, Bool.not_eq_false'] at h
  refine ⟨PyObj.isText_iff.1 h.1, ?_⟩
  cases hx : a.rawExcerpt with
  | str s =>
    have hlen := h.2
    rw [hx] at hlen
    exact ⟨s, rfl, by simpa using hlen⟩
  | _ =>
    rw [hx] at h
    cases h.2

theorem badSequence_false {attempts : List TransportAttempt} (hne : attempts ≠ []) (h : badSequence attempts = .ok false) :
    (∃ a, attempts = [a]) ∨
      ∃ first a, attempts = [first, a] ∧ (first.outcome = .str "transport_error" ∨ first.outcome = .str "timeout") := by
  match attempts, hne, h with
  | [a], _, _ => exact .inl ⟨a, rfl⟩
  | [first, a], _, h =>
    obtain ⟨word, hword, houtcome⟩ := not_inSet h
    refine .inr ⟨first, a, rfl, ?_⟩
    simp only [List.mem_cons, List.not_mem_nil, or_false] at hword
    rcases hword with rfl | rfl
    · exact .inl houtcome
    · exact .inr houtcome
  | _ :: _ :: _ :: rest, _, h => simp [badSequence] at h

/-- **What is read as `"ok"` keeps the contract, and no violation is noted.** -/
theorem providerOutcome_ok {suggestion : FallbackSuggestion} {timeoutMs : Int} {violation : Option String}
    (h : providerOutcome suggestion timeoutMs = .ok (none, violation)) :
    KeepsContract suggestion timeoutMs ∧ violation = none := by
  unfold providerOutcome at h
  split at h
  · cases h
  next terminal hterminal =>
  have hne : suggestion.attempts ≠ [] := by
    intro hnil
    rw [hnil] at hterminal
    cases hterminal
  simp only [bind, Except.bind] at h
  split at h
  · cases h
  next unknown hunknown =>
  cases unknown with
  | true => cases h
  | false =>
  rw [if_neg Bool.false_ne_true] at h
  split at h
  · cases h
  next hexcerpt =>
  split at h
  · cases h
  next bad hbad =>
  cases bad with
  | true => cases h
  | false =>
  rw [if_neg Bool.false_ne_true] at h
  split at h
  · cases h
  next late hlate =>
  cases late with
  | true => cases h
  | false =>
  rw [if_neg Bool.false_ne_true] at h
  split at h
  · cases h
  split at h
  · cases h
  next htransport =>
  split at h
  · cases h
  next htimeout =>
  split at h
  · cases h
  next hinvalid =>
  cases h
  have hknown : ∀ a ∈ suggestion.attempts,
      ∃ word ∈ ["ok", "transport_error", "timeout", "invalid_output"], a.outcome = .str word :=
    fun a ha => not_inSet (anyM_ok_false hunknown a ha)
  have hlast : terminal.outcome = .str "ok" := by
    obtain ⟨word, hword, houtcome⟩ := hknown terminal (List.mem_of_getLast? hterminal)
    rw [houtcome] at htransport htimeout hinvalid
    simp only [List.mem_cons, List.not_mem_nil, or_false] at hword
    rcases hword with rfl | rfl | rfl | rfl
    · exact houtcome
    · exact absurd rfl htransport
    · exact absurd rfl htimeout
    · exact absurd rfl hinvalid
  refine ⟨⟨⟨terminal, hterminal, hlast⟩, hknown, ?_, badSequence_false hne hbad, ?_⟩, rfl⟩
  · intro a ha
    apply excerptMisused_false
    simp only [List.any_eq_true, not_exists, not_and, Bool.not_eq_true] at hexcerpt
    exact hexcerpt a ha
  · intro a ha hok
    have hfalse := anyM_ok_false hlate a ha
    rwa [if_pos (PyObj.isText_iff.2 hok)] at hfalse

theorem checkedPayload_some {suggestion : FallbackSuggestion} {choiceSet : List String} {choice : String} {confidence : ℚ}
    (h : checkedPayload suggestion choiceSet = .ok (some (choice, confidence))) :
    suggestion.rawChoice = .str choice ∧ rawConfidence suggestion.rawConfidence = .ok (some confidence) ∧
      (choice = "ABSTAIN" ∨ choice ∈ choiceSet) := by
  unfold checkedPayload at h
  split at h
  · next s hs =>
    cases hconf : rawConfidence suggestion.rawConfidence with
    | error e =>
      rw [hconf] at h
      cases h
    | ok q =>
      rw [hconf] at h
      cases q with
      | none => cases h
      | some q =>
        simp only [Except.map, Option.bind, Except.ok.injEq] at h
        split at h
        · cases h
        · next hin =>
          cases h
          refine ⟨hs, rfl, ?_⟩
          rwa [not_and_or, not_not, not_not] at hin
  · cases h

/-- A finite number from 0 to 1. -/
theorem rawConfidence_unit {v : PyObj} {q : ℚ} (h : rawConfidence v = .ok (some q)) : 0 ≤ q ∧ q ≤ 1 := by
  have hunit : ∀ {x : PyFloat}, x.unit? = some q → 0 ≤ q ∧ q ≤ 1 := by
    intro x hx
    unfold PyFloat.unit? at hx
    split at hx
    · split at hx
      · next hle =>
        cases hx
        exact hle
      · cases hx
    · cases hx
  unfold rawConfidence at h
  split at h
  · exact hunit (Except.ok.inj h)
  · split at h
    · exact hunit (Except.ok.inj h)
    · cases h
  · cases h

/-! ## The builders -/

theorem checked_ok {dec dec' : ResolveDecision} (h : dec.checked = .ok dec') : dec' = dec := by
  unfold ResolveDecision.checked at h
  repeat' split at h
  all_goals cases h
  rfl

variable {eng : ResolverEngine} {u : Unicode} {request : ResolveRequest} {context : ResolverContext} {budget : RunBudget}
  {evidence : RiskEvidence} {dec : ResolveDecision} {guardFired : Bool}

/-- **What an abstention is.** -/
theorem abstain_ok {outcome : FallbackOutcome} {blocking : Option BlockingReceipt} {llm : Option LlmReceipt}
    {reason : Option String}
    (h : (eng.abstain request budget evidence outcome guardFired blocking llm reason).1 = .ok dec) :
    ∃ domain, dec =
      { action := .abstainAdd, slotId := none, unresolvedDomain := some domain, unresolved := true
        highRisk := evidence.any || guardFired || blocking.any (·.slice = .hr)
        riskEvidence := evidence, method := .none, confidence := 0, fallbackOutcome := outcome, disabledReason := reason
        blockingReceipt := blocking, llmReceipt := llm, guardFired, versions := eng.versions } := by
  unfold ResolverEngine.abstain at h
  split at h
  · cases h
  · exact ⟨_, checked_ok h⟩

/-- **What a resolved decision is.** -/
theorem resolved_ok {slotId : String} {method : Method} {confidence : ℚ} {outcome : FallbackOutcome}
    {blocking : Option BlockingReceipt} {llm : Option LlmReceipt}
    (h : eng.resolved slotId context evidence method confidence outcome guardFired blocking llm = .ok dec) :
    ∃ slot, eng.registry.byId slotId = some slot ∧ dec =
      { action := if context.existingSlots.any (·.slotId = slotId) then .bind else .add
        slotId := some slotId, unresolvedDomain := none, unresolved := false
        highRisk := evidence.any || guardFired || slot.highRisk || blocking.any (·.slice = .hr)
        riskEvidence := evidence, method, confidence, fallbackOutcome := outcome, disabledReason := none
        blockingReceipt := blocking, llmReceipt := llm, guardFired, versions := eng.versions } := by
  unfold ResolverEngine.resolved at h
  split at h
  · cases h
  · next slot hslot => exact ⟨slot, hslot, checked_ok h⟩

/-! ## The three doors -/

/-- What a choice is bound on: the row of the map its confidence falls in, and the threshold of every slice it is held to. -/
structure Confident (eng : ResolverEngine) (receipt : BlockingReceipt) (evidence : RiskEvidence) (rawConfidence confidence : ℚ) :
    Prop where
  unit : 0 ≤ rawConfidence ∧ rawConfidence ≤ 1
  calibrated : ∃ calibration, eng.config.manifest.bind (·.slice receipt.slice) = some calibration ∧
    calibrate rawConfidence calibration = some confidence ∧ calibration.tau ≤ confidence ∧
    eng.sliceIsValid receipt.slice = true
  /-- A high-risk choice set without evidence is held to both slices. -/
  topUp : receipt.slice = .hr → evidence.any = false →
    ∃ benign hr, eng.config.manifest.bind (·.slice .benign) = some benign ∧
      eng.config.manifest.bind (·.slice .hr) = some hr ∧ max benign.tau hr.tau ≤ confidence ∧
      eng.sliceIsValid .benign = true ∧ eng.sliceIsValid .hr = true

/-- The choice of the provider, as the decision records it. -/
structure ChosenBy (eng : ResolverEngine) (request : ResolveRequest) (evidence : RiskEvidence) (blocking : BlockingResult)
    (suggestion : FallbackSuggestion) (slotId : String) (confidence : ℚ) (llm : LlmReceipt) : Prop where
  answered : ∃ value evidenceText, eng.provider.suggest request blocking.choices blocking.receipt.slice value evidenceText
    eng.config.timeoutMs = .ok suggestion
  contract : KeepsContract suggestion eng.config.timeoutMs
  rawChoice : suggestion.rawChoice = .str slotId
  offered : slotId ∈ blocking.receipt.choiceSet
  confident : ∃ q, rawConfidence suggestion.rawConfidence = .ok (some q) ∧ Confident eng blocking.receipt evidence q confidence
  recorded : llm.blocking = blocking.receipt ∧ llm.attempts = suggestion.attempts ∧ llm.rawChoice = suggestion.rawChoice ∧
    llm.rawConfidence = suggestion.rawConfidence ∧ llm.calibratedConfidence = some confidence ∧
    llm.providerContractViolation = none

/-- How a decision leaves `resolve`. -/
inductive ResolveExit (eng : ResolverEngine) (u : Unicode) (request : ResolveRequest) (context : ResolverContext)
    (evidence : RiskEvidence) (guard : GuardPreparation) (dec : ResolveDecision) : Prop
  | deterministic (target : RegistrySlot) (htarget : guard.target = some target) (hfired : guard.guardFired = false)
      (hdec : eng.resolved target.slotId context evidence guard.method 1 .notAttemptedDeterministicHit false none none =
        .ok dec)
  | abstained (budget : RunBudget) (outcome : FallbackOutcome) (blocking : Option BlockingReceipt) (llm : Option LlmReceipt)
      (reason : Option String)
      (hblocking : ∀ receipt, blocking = some receipt → ∃ b, eng.blocking u request evidence guard = .ok b ∧ b.receipt = receipt)
      (hdec : (eng.abstain request budget evidence outcome guard.guardFired blocking llm reason).1 = .ok dec)
  | chosen (blocking : BlockingResult) (suggestion : FallbackSuggestion) (slotId : String) (confidence : ℚ) (llm : LlmReceipt)
      (hblocking : eng.blocking u request evidence guard = .ok blocking)
      (hchosen : ChosenBy eng request evidence blocking suggestion slotId confidence llm)
      (hdec : eng.resolved slotId context evidence .llmChoice confidence .selected guard.guardFired (some blocking.receipt)
        (some llm) = .ok dec)

theorem calibration_ok {slice : Slice} {calibration : CalibrationSlice} :
    eng.calibration slice = .ok calibration ↔ eng.config.manifest.bind (·.slice slice) = some calibration := by
  unfold ResolverEngine.calibration
  split
  · next h => simp [h]
  · next h => simp [h]

/-- **What a choice has passed.** -/
theorem readSuggestion_choice {suggestion : FallbackSuggestion} {receipt : BlockingReceipt} {slotId : String} {calibrated : ℚ}
    {violation : Option String} (h : eng.readSuggestion suggestion receipt = .ok (.choice slotId calibrated, violation)) :
    KeepsContract suggestion eng.config.timeoutMs ∧ violation = none ∧ suggestion.rawChoice = .str slotId ∧
      slotId ∈ receipt.choiceSet ∧ ∃ q calibration, rawConfidence suggestion.rawConfidence = .ok (some q) ∧
        eng.calibration receipt.slice = .ok calibration ∧ calibrate q calibration = some calibrated := by
  unfold ResolverEngine.readSuggestion at h
  simp only [bind, Except.bind] at h
  split at h
  · cases h
  next read hread =>
  obtain ⟨outcome, violation'⟩ := read
  dsimp only at h
  split at h
  · cases h
  split at h
  · cases h
  next payload hpayload =>
  split at h
  · cases h
  next choice confidence =>
  split at h
  · cases h
  next habstain =>
  split at h
  · cases h
  next calibration hcalibration =>
  split at h
  · cases h
  next calibrated' hcalibrate =>
  cases h
  obtain ⟨hcontract, hviolation⟩ := providerOutcome_ok hread
  obtain ⟨hchoice, hconfidence, hin⟩ := checkedPayload_some hpayload
  exact ⟨hcontract, hviolation, hchoice, hin.resolve_left habstain, confidence, calibration, hconfidence, hcalibration,
    hcalibrate⟩

/-- **The threshold covers every slice the choice set is held to.** -/
theorem confident_of_tau {receipt : BlockingReceipt} {calibration : CalibrationSlice} {q calibrated tau : ℚ}
    (hdisabled : eng.sliceDisabled receipt evidence = none) (hunit : 0 ≤ q ∧ q ≤ 1)
    (hcalibration : eng.calibration receipt.slice = .ok calibration) (hcalibrate : calibrate q calibration = some calibrated)
    (htau : eng.tau receipt evidence = .ok tau) (hreached : tau ≤ calibrated) :
    Confident eng receipt evidence q calibrated := by
  unfold ResolverEngine.sliceDisabled at hdisabled
  split at hdisabled
  · cases hdisabled
  next hcomponents =>
  split at hdisabled
  · cases hdisabled
  next hvalid =>
  rw [Bool.not_eq_true, Bool.not_eq_false'] at hvalid
  unfold ResolverEngine.tau at htau
  rw [hcalibration] at htau
  simp only [bind, Except.bind] at htau
  by_cases htop : ResolverEngine.pureHrTopUp receipt evidence = true
  · rw [if_pos htop] at htau
    have hslice : receipt.slice = .hr := by
      unfold ResolverEngine.pureHrTopUp at htop
      simp only [Bool.and_eq_true, decide_eq_true_eq] at htop
      exact htop.1
    cases hbenign : eng.calibration .benign with
    | error e =>
      rw [hbenign] at htau
      cases htau
    | ok benign =>
      cases hhr : eng.calibration .hr with
      | error e =>
        rw [hbenign, hhr] at htau
        cases htau
      | ok hr =>
        rw [hbenign, hhr] at htau
        cases htau
        have hsame : calibration = hr := by
          rw [hslice, hhr] at hcalibration
          cases hcalibration
          rfl
        simp only [htop, Bool.true_and, Bool.or_eq_true, Bool.not_eq_true', not_or, Bool.not_eq_false] at hcomponents
        refine ⟨hunit, ⟨calibration, calibration_ok.1 hcalibration, hcalibrate, ?_, hvalid⟩, fun _ _ =>
          ⟨benign, hr, calibration_ok.1 hbenign, calibration_ok.1 hhr, hreached, hcomponents.1, hcomponents.2⟩⟩
        rw [hsame]
        exact (le_max_right _ _).trans hreached
  · rw [if_neg htop] at htau
    cases htau
    refine ⟨hunit, ⟨calibration, calibration_ok.1 hcalibration, hcalibrate, hreached, hvalid⟩, ?_⟩
    intro hslice hany
    exact absurd (by simp [ResolverEngine.pureHrTopUp, hslice, hany]) htop

variable {guard : GuardPreparation}

theorem conclude_exit {blocking : BlockingResult} {suggestion : FallbackSuggestion} {value evidenceText : String}
    (hblocking : eng.blocking u request evidence guard = .ok blocking)
    (hdisabled : eng.sliceDisabled blocking.receipt evidence = none)
    (hsuggest : eng.provider.suggest request blocking.choices blocking.receipt.slice value evidenceText
      eng.config.timeoutMs = .ok suggestion)
    (h : (eng.conclude request context budget evidence guard.guardFired blocking.receipt suggestion).1 = .ok dec) :
    ResolveExit eng u request context evidence guard dec := by
  have hknown : ∀ receipt, some blocking.receipt = some receipt →
      ∃ b, eng.blocking u request evidence guard = .ok b ∧ b.receipt = receipt :=
    fun receipt he => ⟨blocking, hblocking, Option.some.inj he⟩
  unfold ResolverEngine.conclude at h
  split at h
  · cases h
  next reading violation hread =>
  dsimp only at h
  cases reading with
  | refused outcome => exact .abstained _ _ _ _ _ hknown h
  | abstained => exact .abstained _ _ _ _ _ hknown h
  | choice slotId calibrated =>
    dsimp only at h
    split at h
    · cases h
    next tau htau =>
    split at h
    · exact .abstained _ _ _ _ _ hknown h
    next hreached =>
    obtain ⟨hcontract, hviolation, hchoice, hin, q, calibration, hq, hcalibration, hcalibrate⟩ := readSuggestion_choice hread
    have hconfident := confident_of_tau hdisabled (rawConfidence_unit hq) hcalibration hcalibrate htau (not_lt.1 hreached)
    exact .chosen blocking suggestion slotId calibrated _ hblocking
      ⟨⟨value, evidenceText, hsuggest⟩, hcontract, hchoice, hin, ⟨q, hq, hconfident⟩, rfl, rfl, rfl, rfl, rfl, hviolation⟩ h

theorem consult_exit {blocking : BlockingResult} (hblocking : eng.blocking u request evidence guard = .ok blocking)
    (h : (eng.consult request context budget evidence guard.guardFired blocking).1 = .ok dec) :
    ResolveExit eng u request context evidence guard dec := by
  have hknown : ∀ receipt, some blocking.receipt = some receipt →
      ∃ b, eng.blocking u request evidence guard = .ok b ∧ b.receipt = receipt :=
    fun receipt he => ⟨blocking, hblocking, Option.some.inj he⟩
  unfold ResolverEngine.consult at h
  dsimp only at h
  split at h
  · exact .abstained _ _ _ _ _ hknown h
  split at h
  · exact .abstained _ _ _ _ _ hknown h
  split at h
  · exact .abstained _ _ _ _ _ hknown h
  next hdisabled =>
  split at h
  · cases h
  next suggestion hsuggest => exact conclude_exit hblocking hdisabled hsuggest h

/-- **Every decision leaves by one of the three doors.** -/
theorem resolve_exit (h : (eng.resolve u request context budget).1 = .ok dec) :
    ResolveExit eng u request context (computeRiskEvidence u request eng.registry)
      (prepareGuard u request eng.registry (computeRiskEvidence u request eng.registry)) dec := by
  unfold ResolverEngine.resolve at h
  split at h
  · cases h
  dsimp only at h
  split at h
  · next target htarget hfired => exact .deterministic target htarget hfired h
  · split at h
    · exact .abstained _ _ none _ _ (fun _ he => by cases he) h
    split at h
    · exact .abstained _ _ none _ _ (fun _ he => by cases he) h
    split at h
    · exact .abstained _ _ none _ _ (fun _ he => by cases he) h
    split at h
    · cases h
    next blocking hblocking => exact consult_exit hblocking h

/-! ## The decision -/

/-- No slot, and a domain for what is not resolved. -/
def Abstains (dec : ResolveDecision) : Prop :=
  dec.action = .abstainAdd ∧ dec.unresolved = true ∧ dec.slotId = none ∧ dec.unresolvedDomain.isSome = true

/-- The slot is the target of `prepare_guard`, and the guard has not fired. -/
def DeterministicTarget (guard : GuardPreparation) (slotId : String) : Prop :=
  guard.guardFired = false ∧ ∃ target, guard.target = some target ∧ target.slotId = slotId

/-- The slot is what the provider chose, as the receipts of the decision have it. -/
def LlmChoice (eng : ResolverEngine) (u : Unicode) (request : ResolveRequest) (evidence : RiskEvidence)
    (guard : GuardPreparation) (dec : ResolveDecision) (slotId : String) : Prop :=
  ∃ blocking suggestion llm, eng.blocking u request evidence guard = .ok blocking ∧
    dec.blockingReceipt = some blocking.receipt ∧ dec.llmReceipt = some llm ∧
    ChosenBy eng request evidence blocking suggestion slotId dec.confidence llm

/-- What a decision on a request rests on. -/
structure RestsOnEvidence (eng : ResolverEngine) (u : Unicode) (request : ResolveRequest) (evidence : RiskEvidence)
    (guard : GuardPreparation) (dec : ResolveDecision) : Prop where
  bound : Abstains dec ∨
    ∃ slotId, dec.action ≠ .abstainAdd ∧ dec.slotId = some slotId ∧ (eng.registry.byId slotId).isSome = true ∧
      (DeterministicTarget guard slotId ∨ LlmChoice eng u request evidence guard dec slotId)
  /-- A high-risk target is not bound deterministically against evidence for another slot. -/
  contested : ∀ target, guard.target = some target → target.highRisk = true →
    (∃ slotId ∈ evidence.matchedHrSlotIds, slotId ≠ target.slotId) → dec.method = .llmChoice ∨ dec.method = .none

/-- **The resolver binds on sufficient evidence only**: the deterministic target while the guard is quiet, or an offered
choice of a provider that keeps its contract, with a confidence that reaches the threshold of every slice it is held to. -/
theorem resolve_binds_on_evidence (h : (eng.resolve u request context budget).1 = .ok dec) :
    RestsOnEvidence eng u request (computeRiskEvidence u request eng.registry)
      (prepareGuard u request eng.registry (computeRiskEvidence u request eng.registry)) dec := by
  have hboundAction : ∀ slotId, (if context.existingSlots.any (·.slotId = slotId) then Action.bind else .add) ≠ .abstainAdd := by
    intro slotId
    split <;> exact Action.noConfusion
  rcases resolve_exit h with ⟨target, htarget, hfired, hdec⟩ | ⟨_, _, _, _, _, -, hdec⟩ |
    ⟨blocking, suggestion, slotId, confidence, llm, hblocking, hchosen, hdec⟩
  · obtain ⟨slot, hslot, rfl⟩ := resolved_ok hdec
    refine ⟨.inr ⟨target.slotId, hboundAction _, rfl, by rw [hslot]; rfl, .inl ⟨hfired, target, htarget, rfl⟩⟩, ?_⟩
    rintro target' htarget' - ⟨other, hother, hne⟩
    rw [htarget] at htarget'
    cases htarget'
    -- evidence for another slot makes the guard fire, and this door is closed
    have hescalates := requiresHrEscalation_of_other hother hne
    have hquiet : requiresHrEscalation (some target) (computeRiskEvidence u request eng.registry) = false := by
      rw [← htarget]
      exact hfired
    rw [hescalates] at hquiet
    cases hquiet
  · obtain ⟨domain, rfl⟩ := abstain_ok hdec
    exact ⟨.inl ⟨rfl, rfl, rfl, rfl⟩, fun _ _ _ _ => .inr rfl⟩
  · obtain ⟨slot, hslot, rfl⟩ := resolved_ok hdec
    refine ⟨.inr ⟨slotId, hboundAction _, rfl, by rw [hslot]; rfl, .inr ?_⟩, fun _ _ _ _ => .inl rfl⟩
    exact ⟨blocking, suggestion, llm, hblocking, rfl, rfl, hchosen⟩

/-! ## A run -/

def coffeeSlot : RegistrySlot :=
  ⟨"preference:coffee", "preference", "coffee", "How coffee is taken", false, ["espresso"], [], [], none, "food", []⟩

def allergySlot : RegistrySlot :=
  ⟨"constraint:allergy", "constraint", "allergy", "Food allergies", true, ["peanuts"], [], ["allerg"], none, "health", []⟩

def sampleRegistry : SlotRegistry where
  version := "1"
  slots := [coffeeSlot, allergySlot]
  contentHash := ""
  slotRegistryHash := ""
  taxonomyHash := ""
  ids := by decide

/-- A provider that is sure of one slot. -/
def sureProvider : Provider where
  modelId := "m"
  promptTemplateHash := "p"
  suggest _ _ _ _ _ _ := .ok ⟨.str "preference:coffee", .float (.finite 1), [⟨.str "ok", .int 10, .none⟩]⟩

def sampleSlice : CalibrationSlice := ⟨60, [60], [⟨0, 1, 3 / 4⟩], 3 / 4⟩

def sampleEngine : ResolverEngine where
  config :=
    { llmEnabled := true, timeoutMs := 1000
      manifest := some ⟨"1", "m", "p", "", "", "", "", [], "", "", [("benign", sampleSlice), ("hr", sampleSlice)]⟩
      manifestHash := none, evidenceHash := none, timeoutPositive := by decide, enabledHasManifest := fun _ => rfl
      hashHasManifest := fun _ => rfl }
  registry := sampleRegistry
  provider := sureProvider
  llmDisabledReason := none

def sampleRequest (domain value : String) : ResolveRequest where
  requestUid := "r1"
  kind := "preference"
  rawDomain := domain
  value := value
  evidenceText := ""
  effectiveAt := none
  uid := by decide
  kindKnown := by decide

def freshBudget : RunBudget := ⟨10, 0, ∅, []⟩

/-- The method of the decision on a sample request. -/
def sampleMethod (domain value : String) : Option Method :=
  (sampleEngine.resolve asciiOnly (sampleRequest domain value) ⟨[]⟩ freshBudget).1.toOption.map (·.method)

theorem sampleMethod_some {domain value : String} {method : Method} (h : sampleMethod domain value = some method) :
    ∃ dec, (sampleEngine.resolve asciiOnly (sampleRequest domain value) ⟨[]⟩ freshBudget).1 = .ok dec ∧ dec.method = method := by
  unfold sampleMethod at h
  cases hresolve : (sampleEngine.resolve asciiOnly (sampleRequest domain value) ⟨[]⟩ freshBudget).1 with
  | error e =>
    rw [hresolve] at h
    cases h
  | ok dec =>
    rw [hresolve] at h
    exact ⟨dec, rfl, Option.some.inj h⟩

/-- A drink that is told to be coffee is bound by the provider's choice. -/
theorem resolve_binds_on_evidence_coffee :
    ∃ dec, (sampleEngine.resolve asciiOnly (sampleRequest "drink" "coffee") ⟨[]⟩ freshBudget).1 = .ok dec ∧
      dec.method = .llmChoice ∧
      RestsOnEvidence sampleEngine asciiOnly (sampleRequest "drink" "coffee")
        (computeRiskEvidence asciiOnly (sampleRequest "drink" "coffee") sampleRegistry)
        (prepareGuard asciiOnly (sampleRequest "drink" "coffee") sampleRegistry
          (computeRiskEvidence asciiOnly (sampleRequest "drink" "coffee") sampleRegistry)) dec := by
  have hmethod : sampleMethod "drink" "coffee" = some .llmChoice := by decide +kernel
  obtain ⟨dec, hdec, hchoice⟩ := sampleMethod_some hmethod
  exact ⟨dec, hdec, hchoice, resolve_binds_on_evidence hdec⟩

end Panella.Resolver

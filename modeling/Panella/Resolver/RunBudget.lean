import Panella.Lib.Machine
import Panella.Lib.PyStr
import Panella.Resolver.HighRisk

/-!
# The run budget

`resolve` once more, cut at the call of the provider (`Calls`), for requests whose texts are Python strings and for a provider
that may do anything. A turn charges the budget where it is about to call; between the charge and the call `_truncation`
encodes the texts of the request, and raises for a lone surrogate. Such a turn (`Lost`) is charged and makes no call; every
other turn is charged for exactly the calls it makes.
-/

namespace Panella.Resolver

open Machine PyText

/-- A computation that makes calls of `Q` and goes on with the answers `R`. -/
inductive Calls (Q R α : Type)
  | done (a : α)
  | ask (q : Q) (k : R → Calls Q R α)

namespace Calls

variable {Q R α : Type}

/-- What it ends in. -/
def run (answer : Q → R) : Calls Q R α → α
  | .done a => a
  | .ask q k => run answer (k (answer q))

/-- The calls it makes. -/
def asked (answer : Q → R) : Calls Q R α → List Q
  | .done _ => []
  | .ask q k => q :: asked answer (k (answer q))

@[simp] theorem run_done (answer : Q → R) (a : α) : run answer (.done a : Calls Q R α) = a := rfl

@[simp] theorem asked_done (answer : Q → R) (a : α) : asked answer (.done a : Calls Q R α) = [] := rfl

end Calls

/-! ## The program -/

/-- A `ResolveRequest` as Python has it. -/
structure TextRequest where
  requestUid : String
  kind : String
  rawDomain : PyStr
  value : PyStr
  evidenceText : PyStr
  effectiveAt : Option String
  uid : isRequestUid requestUid = true
  kindKnown : kind ∈ kinds

namespace TextRequest

variable (request : TextRequest)

/-- The request as the lookups and the scores see it, which tell a lone surrogate from no other sign. -/
def shown : ResolveRequest where
  requestUid := request.requestUid
  kind := request.kind
  rawDomain := request.rawDomain.mended
  value := request.value.mended
  evidenceText := request.evidenceText.mended
  effectiveAt := request.effectiveAt
  uid := request.uid
  kindKnown := request.kindKnown

/-- Both texts can be encoded. -/
def Encodable : Prop := request.value.text?.isSome = true ∧ request.evidenceText.text?.isSome = true

instance : Decidable request.Encodable := inferInstanceAs (Decidable (_ ∧ _))

end TextRequest

/-- The arguments of `provider.suggest`. -/
structure ProviderCall where
  request : TextRequest
  choices : List SlotView
  slice : Slice
  value : String
  evidenceText : String
  timeoutMs : Int

/-- A suggestion, or what the provider raises. -/
abbrev Answer := Except ResolverErr FallbackSuggestion

abbrev Outcome := Except ResolverErr ResolveDecision × RunBudget

namespace ResolverEngine

variable (eng : ResolverEngine) (u : Unicode) (request : TextRequest) (context : ResolverContext)

/-- `consult`, with the call of the provider left open. -/
def consultCalls (budget : RunBudget) (evidence : RiskEvidence) (guardFired : Bool) (blocking : BlockingResult) :
    Calls ProviderCall Answer Outcome :=
  let receipt := blocking.receipt
  if blocking.forcedOverflow then
    .done (eng.abstain request.shown budget evidence .forcedSetOverflow guardFired (some receipt) none none)
  else if receipt.choiceSet.isEmpty then
    .done (eng.abstain request.shown budget evidence .notAttemptedEmptyChoiceSet guardFired (some receipt) none none)
  else
    match eng.sliceDisabled receipt evidence with
    | some reason =>
      .done (eng.abstain request.shown budget evidence .notAttemptedDisabled guardFired (some receipt) none (some reason))
    | none =>
      let budget := { budget with callsMade := budget.callsMade + 1 }
      if request.Encodable then
        let (value, evidenceText, _) := truncation request.shown
        .ask ⟨request, blocking.choices, receipt.slice, value, evidenceText, eng.config.timeoutMs⟩ fun
          | .error e => .done (.error e, budget)
          | .ok suggestion =>
            .done (eng.conclude request.shown context budget evidence guardFired receipt suggestion)
      else .done (.error (.valueError "surrogates not allowed"), budget)

/-- `resolve`, from the request that has no deterministic target on. -/
def undecidedCalls (budget : RunBudget) (evidence : RiskEvidence) (guard : GuardPreparation) :
    Calls ProviderCall Answer Outcome :=
  match eng.llmDisabledReason with
  | some reason =>
    .done (eng.abstain request.shown budget evidence .notAttemptedDisabled guard.guardFired none none (some reason))
  | none =>
    if !eng.config.llmEnabled then
      .done (eng.abstain request.shown budget evidence .notAttemptedDisabled guard.guardFired none none
        (some "global_disabled"))
    else if budget.maxCalls - budget.callsMade < llmLegsReserved then
      .done (eng.abstain request.shown budget evidence .notAttemptedBudgetExhausted guard.guardFired none none none)
    else
      match eng.blocking u request.shown evidence guard with
      | .error e => .done (.error e, budget)
      | .ok blocking => eng.consultCalls request context budget evidence guard.guardFired blocking

/-- `resolve`, with the call of the provider left open. -/
def resolveCalls (budget : RunBudget) : Calls ProviderCall Answer Outcome :=
  if request.requestUid ∈ budget.seenUids then
    .done (.error (.valueError "duplicate request_uid in run budget"), budget)
  else
    let budget := { budget with seenUids := insert request.requestUid budget.seenUids }
    let evidence := computeRiskEvidence u request.shown eng.registry
    let guard := prepareGuard u request.shown eng.registry evidence
    match guard.target, guard.guardFired with
    | some target, false =>
      .done (eng.resolved target.slotId context evidence guard.method 1 .notAttemptedDeterministicHit false none none, budget)
    | _, _ => eng.undecidedCalls u request context budget evidence guard

/-- The provider of the engine, as it answers calls. -/
def answer (call : ProviderCall) : Answer :=
  eng.provider.suggest call.request.shown call.choices call.slice call.value call.evidenceText call.timeoutMs

variable {eng u request context} {budget : RunBudget}

/-- **The program is `resolve`**, for a request that can be encoded and the engine's own provider. -/
theorem run_resolveCalls (h : request.Encodable) :
    (eng.resolveCalls u request context budget).run eng.answer = eng.resolve u request.shown context budget := by
  have hconsult : ∀ budget evidence guardFired blocking,
      (eng.consultCalls request context budget evidence guardFired blocking).run eng.answer =
        eng.consult request.shown context budget evidence guardFired blocking := by
    intro budget evidence guardFired blocking
    unfold consultCalls consult
    dsimp only
    split
    · rfl
    split
    · rfl
    cases eng.sliceDisabled blocking.receipt evidence with
    | some reason => rfl
    | none =>
      dsimp only
      rw [Calls.run, answer]
      dsimp only
      cases eng.provider.suggest request.shown blocking.choices blocking.receipt.slice (truncation request.shown).1
        (truncation request.shown).2.1 eng.config.timeoutMs <;> rfl
  unfold resolveCalls resolve
  have huid : request.shown.requestUid = request.requestUid := rfl
  rw [huid]
  split
  · rfl
  dsimp only
  generalize prepareGuard u request.shown eng.registry (computeRiskEvidence u request.shown eng.registry) = guard
  obtain ⟨_ | target, method, _ | _⟩ := guard
  case some.false => rfl
  all_goals
    dsimp only [undecidedCalls]
    cases eng.llmDisabledReason with
    | some reason => rfl
    | none =>
      dsimp only
      split
      · rfl
      split
      · rfl
      cases eng.blocking u request.shown (computeRiskEvidence u request.shown eng.registry) _ with
      | error e => rfl
      | ok blocking => exact hconsult _ _ _ _

end ResolverEngine

/-! ## What one call does to the budget -/

/-- The outcomes that a call of the provider has no part in. -/
def NotAttempted (outcome : FallbackOutcome) : Prop :=
  outcome = .notAttemptedDeterministicHit ∨ outcome = .notAttemptedDisabled ∨ outcome = .notAttemptedEmptyChoiceSet ∨
    outcome = .notAttemptedBudgetExhausted ∨ outcome = .forcedSetOverflow

/-- `budget'` is `budget` with `charge` units more, and perhaps more domains on record. -/
structure Charged (charge : Int) (budget budget' : RunBudget) : Prop where
  maxCalls : budget'.maxCalls = budget.maxCalls
  callsMade : budget'.callsMade = budget.callsMade + charge
  seenUids : budget'.seenUids = budget.seenUids
  kept : ∀ domain known, budget.seenUnresolved.lookup domain = some known → budget'.seenUnresolved.lookup domain = some known

theorem Charged.rfl {budget : RunBudget} : Charged 0 budget budget :=
  ⟨Eq.refl _, (add_zero _).symm, Eq.refl _, fun _ _ h => h⟩

/-- An unresolved domain is on record for its request. -/
def Recorded (requestUid : String) (result : Except ResolverErr ResolveDecision) (budget : RunBudget) : Prop :=
  ∀ dec domain, result = .ok dec → dec.unresolvedDomain = some domain → budget.seenUnresolved.lookup domain = some requestUid

theorem recorded_error {requestUid : String} {e : ResolverErr} {budget : RunBudget} : Recorded requestUid (.error e) budget := by
  intro dec domain hdec
  cases hdec

section
variable {eng : ResolverEngine} {u : Unicode} {request : TextRequest} {context : ResolverContext} {budget budget' : RunBudget}
  {evidence : RiskEvidence} {guardFired : Bool} {blocking : BlockingResult} {result : Except ResolverErr ResolveDecision}

/-- The budget as it is when a call goes past the first check. -/
def RunBudget.mark (budget : RunBudget) (requestUid : String) : RunBudget :=
  { budget with seenUids := insert requestUid budget.seenUids }

def RunBudget.charge (budget : RunBudget) : RunBudget := { budget with callsMade := budget.callsMade + 1 }

theorem Charged.charge (h : Charged 0 budget.charge budget') : Charged 1 budget budget' where
  maxCalls := h.maxCalls
  callsMade := by
    rw [h.callsMade, add_zero]
    rfl
  seenUids := h.seenUids
  kept := h.kept

/-- The domain of a request was free, or is its own. -/
theorem unresolvedDomain_ok {requestUid domain : String} (h : unresolvedDomain requestUid budget = .ok (domain, budget')) :
    budget' = { budget with seenUnresolved := OrderedDict.put budget.seenUnresolved domain requestUid } ∧
      ∀ known, budget.seenUnresolved.lookup domain = some known → known = requestUid := by
  unfold unresolvedDomain at h
  dsimp only at h
  split at h
  · next known hknown =>
    split at h
    · cases h
    · next hsame =>
      cases h
      refine ⟨rfl, fun known' hknown' => ?_⟩
      rw [hknown] at hknown'
      cases hknown'
      exact not_not.1 hsame
  · next hnone =>
    cases h
    refine ⟨rfl, fun known hknown => ?_⟩
    rw [hnone] at hknown
    cases hknown

/-- **An abstention** leaves the calls alone and records its domain. -/
theorem abstain_charged {request : ResolveRequest} {outcome : FallbackOutcome} {receipt : Option BlockingReceipt}
    {llm : Option LlmReceipt} {reason : Option String}
    (h : eng.abstain request budget evidence outcome guardFired receipt llm reason = (result, budget')) :
    Charged 0 budget budget' ∧ Recorded request.requestUid result budget' ∧
      ∀ dec, result = .ok dec → dec.fallbackOutcome = outcome := by
  unfold ResolverEngine.abstain at h
  cases hdomain : unresolvedDomain request.requestUid budget with
  | error e =>
    rw [hdomain] at h
    cases h
    refine ⟨.rfl, recorded_error, ?_⟩
    intro dec hdec
    cases hdec
  | ok r =>
    obtain ⟨domain, budget''⟩ := r
    rw [hdomain] at h
    cases h
    obtain ⟨rfl, hfree⟩ := unresolvedDomain_ok hdomain
    refine ⟨⟨rfl, (add_zero _).symm, rfl, ?_⟩, ?_, ?_⟩
    · intro domain' known hknown
      dsimp only
      rw [OrderedDict.lookup_put]
      split
      · next he => rw [hfree known (he ▸ hknown)]
      · exact hknown
    · intro dec domain' hdec hdomain'
      have hd := checked_ok hdec
      rw [hd] at hdomain'
      cases hdomain'
      dsimp only
      rw [OrderedDict.lookup_put, if_pos rfl]
    · intro dec hdec
      rw [checked_ok hdec]

/-- A resolved decision has no unresolved domain. -/
theorem resolved_outcome {slotId : String} {method : Method} {confidence : ℚ} {outcome : FallbackOutcome}
    {receipt : Option BlockingReceipt} {llm : Option LlmReceipt} (budget : RunBudget) (requestUid : String)
    (h : eng.resolved slotId context evidence method confidence outcome guardFired receipt llm = result) :
    Recorded requestUid result budget ∧ ∀ dec, result = .ok dec → dec.fallbackOutcome = outcome := by
  constructor
  · intro dec domain hdec hdomain
    obtain ⟨slot, -, rfl⟩ := resolved_ok (h.trans hdec)
    cases hdomain
  · intro dec hdec
    obtain ⟨slot, -, rfl⟩ := resolved_ok (h.trans hdec)
    rfl

/-- What `_provider_outcome` abstains with. -/
theorem providerOutcome_attempted {suggestion : FallbackSuggestion} {timeoutMs : Int} {outcome : FallbackOutcome}
    {violation : Option String} (h : providerOutcome suggestion timeoutMs = .ok (some outcome, violation)) :
    ¬ NotAttempted outcome := by
  unfold providerOutcome at h
  simp only [bind, Except.bind] at h
  repeat' split at h
  all_goals first
    | cases h; simp [NotAttempted]
    | cases h

theorem readSuggestion_attempted {suggestion : FallbackSuggestion} {receipt : BlockingReceipt} {outcome : FallbackOutcome}
    {violation : Option String} (h : eng.readSuggestion suggestion receipt = .ok (.refused outcome, violation)) :
    ¬ NotAttempted outcome := by
  unfold ResolverEngine.readSuggestion at h
  simp only [bind, Except.bind] at h
  split at h
  · cases h
  next read hread =>
  obtain ⟨outcome', violation'⟩ := read
  dsimp only at h
  split at h
  · cases h
    exact providerOutcome_attempted hread
  split at h
  · cases h
  split at h
  · cases h
    simp [NotAttempted]
  split at h
  · cases h
  split at h
  · cases h
  split at h
  · cases h
    simp [NotAttempted]
  · cases h

/-- **After the answer of the provider** nothing is charged any more, and the outcome is that of a call. -/
theorem conclude_charged {request : ResolveRequest} {receipt : BlockingReceipt} {suggestion : FallbackSuggestion}
    (h : eng.conclude request context budget evidence guardFired receipt suggestion = (result, budget')) :
    Charged 0 budget budget' ∧ Recorded request.requestUid result budget' ∧
      ∀ dec, result = .ok dec → ¬ NotAttempted dec.fallbackOutcome := by
  have habstain : ∀ {outcome : FallbackOutcome} {llm : Option LlmReceipt}, ¬ NotAttempted outcome →
      eng.abstain request budget evidence outcome guardFired (some receipt) llm none = (result, budget') →
      Charged 0 budget budget' ∧ Recorded request.requestUid result budget' ∧
        ∀ dec, result = .ok dec → ¬ NotAttempted dec.fallbackOutcome := by
    intro outcome llm hout h
    obtain ⟨hcharged, hrecorded, houtcome⟩ := abstain_charged h
    refine ⟨hcharged, hrecorded, fun dec hdec => ?_⟩
    rw [houtcome dec hdec]
    exact hout
  unfold ResolverEngine.conclude at h
  cases hread : eng.readSuggestion suggestion receipt with
  | error e =>
    rw [hread] at h
    cases h
    refine ⟨.rfl, recorded_error, ?_⟩
    intro dec hdec
    cases hdec
  | ok read =>
    obtain ⟨reading, violation⟩ := read
    rw [hread] at h
    dsimp only at h
    cases reading with
    | refused outcome => exact habstain (readSuggestion_attempted hread) h
    | abstained => exact habstain (by simp [NotAttempted]) h
    | choice slotId calibrated =>
      dsimp only at h
      split at h
      · cases h
        refine ⟨.rfl, recorded_error, ?_⟩
        intro dec hdec
        cases hdec
      split at h
      · exact habstain (by simp [NotAttempted]) h
      · obtain ⟨hresult, rfl⟩ := Prod.mk.injEq .. ▸ h
        obtain ⟨hrecorded, houtcome⟩ := resolved_outcome budget request.requestUid hresult
        refine ⟨.rfl, hrecorded, fun dec hdec => ?_⟩
        rw [houtcome dec hdec]
        simp [NotAttempted]

/-- The call gets as far as the charge. -/
structure Reaches (eng : ResolverEngine) (u : Unicode) (request : TextRequest) (budget : RunBudget) : Prop where
  fresh : request.requestUid ∉ budget.seenUids
  undecided : (prepareGuard u request.shown eng.registry (computeRiskEvidence u request.shown eng.registry)).target = none ∨
    (prepareGuard u request.shown eng.registry (computeRiskEvidence u request.shown eng.registry)).guardFired = true
  bound : eng.llmDisabledReason = none
  enabled : eng.config.llmEnabled = true
  reserved : llmLegsReserved ≤ budget.maxCalls - budget.callsMade
  consulted : ∃ blocking, eng.blocking u request.shown (computeRiskEvidence u request.shown eng.registry)
      (prepareGuard u request.shown eng.registry (computeRiskEvidence u request.shown eng.registry)) = .ok blocking ∧
    blocking.forcedOverflow = false ∧ blocking.receipt.choiceSet ≠ [] ∧
    eng.sliceDisabled blocking.receipt (computeRiskEvidence u request.shown eng.registry) = none

/-- What a call of `resolve` comes to: the calls of the provider, the result, the budget after. -/
inductive TurnCase (eng : ResolverEngine) (u : Unicode) (request : TextRequest) (budget : RunBudget) :
    List ProviderCall → Except ResolverErr ResolveDecision → RunBudget → Prop
  | duplicate (hseen : request.requestUid ∈ budget.seenUids) :
      TurnCase eng u request budget [] (.error (.valueError "duplicate request_uid in run budget")) budget
  | decided {result : Except ResolverErr ResolveDecision} {budget' : RunBudget} (hfresh : request.requestUid ∉ budget.seenUids)
      (hfar : ¬ Reaches eng u request budget) (hcharged : Charged 0 (budget.mark request.requestUid) budget')
      (hrecorded : Recorded request.requestUid result budget')
      (houtcome : ∀ dec, result = .ok dec → NotAttempted dec.fallbackOutcome) :
      TurnCase eng u request budget [] result budget'
  | lost (hreaches : Reaches eng u request budget) (htext : ¬ request.Encodable) :
      TurnCase eng u request budget [] (.error (.valueError "surrogates not allowed")) (budget.mark request.requestUid).charge
  | called {result : Except ResolverErr ResolveDecision} {budget' : RunBudget} (hreaches : Reaches eng u request budget) (htext : request.Encodable) (call : ProviderCall)
      (hcharged : Charged 1 (budget.mark request.requestUid) budget') (hrecorded : Recorded request.requestUid result budget')
      (houtcome : ∀ dec, result = .ok dec → ¬ NotAttempted dec.fallbackOutcome) :
      TurnCase eng u request budget [call] result budget'

variable {answer : ProviderCall → Answer}

/-- An abstention before the charge. -/
theorem TurnCase.ofAbstain {outcome : FallbackOutcome} {receipt : Option BlockingReceipt} {reason : Option String}
    (hfresh : request.requestUid ∉ budget.seenUids) (hfar : ¬ Reaches eng u request budget) (hout : NotAttempted outcome) :
    TurnCase eng u request budget []
      (eng.abstain request.shown (budget.mark request.requestUid) evidence outcome guardFired receipt none reason).1
      (eng.abstain request.shown (budget.mark request.requestUid) evidence outcome guardFired receipt none reason).2 := by
  obtain ⟨hcharged, hrecorded, houtcome⟩ := abstain_charged (Prod.mk.eta (p := eng.abstain request.shown
    (budget.mark request.requestUid) evidence outcome guardFired receipt none reason)).symm
  refine .decided hfresh hfar hcharged hrecorded fun dec hdec => ?_
  rw [houtcome dec hdec]
  exact hout

theorem consultCalls_cases {guard : GuardPreparation}
    (hguard : guard = prepareGuard u request.shown eng.registry (computeRiskEvidence u request.shown eng.registry))
    (hblocking : eng.blocking u request.shown (computeRiskEvidence u request.shown eng.registry) guard = .ok blocking)
    (hreaches : blocking.forcedOverflow = false → blocking.receipt.choiceSet ≠ [] →
      eng.sliceDisabled blocking.receipt (computeRiskEvidence u request.shown eng.registry) = none →
      Reaches eng u request budget) (hfresh : request.requestUid ∉ budget.seenUids) :
    TurnCase eng u request budget
      ((eng.consultCalls request context (budget.mark request.requestUid)
        (computeRiskEvidence u request.shown eng.registry) guardFired blocking).asked answer)
      ((eng.consultCalls request context (budget.mark request.requestUid)
        (computeRiskEvidence u request.shown eng.registry) guardFired blocking).run answer).1
      ((eng.consultCalls request context (budget.mark request.requestUid)
        (computeRiskEvidence u request.shown eng.registry) guardFired blocking).run answer).2 := by
  -- the choice set of the request is this one, so what it fails on, `Reaches` fails on
  have hfar : ∀ {P : Prop}, (∀ b, b = blocking → b.forcedOverflow = false → b.receipt.choiceSet ≠ [] →
      eng.sliceDisabled b.receipt (computeRiskEvidence u request.shown eng.registry) = none → P) →
      Reaches eng u request budget → P := by
    rintro P hP ⟨-, -, -, -, -, b, hb, hover, hne, hslice⟩
    rw [← hguard, hblocking] at hb
    exact hP b (Except.ok.inj hb).symm hover hne hslice
  unfold ResolverEngine.consultCalls
  dsimp only
  by_cases hover : blocking.forcedOverflow = true
  · rw [if_pos hover]
    refine .ofAbstain hfresh (hfar ?_) (by simp [NotAttempted])
    rintro b rfl hb
    rw [hover] at hb
    cases hb
  rw [if_neg hover]
  by_cases hempty : blocking.receipt.choiceSet.isEmpty = true
  · rw [if_pos hempty]
    refine .ofAbstain hfresh (hfar ?_) (by simp [NotAttempted])
    rintro b rfl - hb
    exact absurd (List.isEmpty_iff.1 hempty) hb
  rw [if_neg hempty]
  cases hslice : eng.sliceDisabled blocking.receipt (computeRiskEvidence u request.shown eng.registry) with
  | some reason =>
    dsimp only
    refine .ofAbstain hfresh (hfar ?_) (by simp [NotAttempted])
    rintro b rfl - - hb
    rw [hslice] at hb
    cases hb
  | none =>
    have hreach : Reaches eng u request budget :=
      hreaches (by simpa using hover) (fun hnil => hempty (by rw [hnil]; rfl)) hslice
    dsimp only
    by_cases htext : request.Encodable
    · rw [if_pos htext, Calls.asked, Calls.run]
      generalize answer _ = reply
      cases reply with
      | error e =>
        refine .called hreach htext _ Charged.rfl.charge recorded_error fun dec hdec => ?_
        cases hdec
      | ok suggestion =>
        dsimp only [Calls.asked, Calls.run]
        obtain ⟨hcharged, hrecorded, houtcome⟩ := conclude_charged (Prod.mk.eta (p := eng.conclude request.shown context
          (budget.mark request.requestUid).charge (computeRiskEvidence u request.shown eng.registry) guardFired
          blocking.receipt suggestion)).symm
        exact .called hreach htext _ hcharged.charge hrecorded houtcome
    · rw [if_neg htext]
      exact .lost hreach htext

theorem undecidedCalls_cases {guard : GuardPreparation}
    (hguard : guard = prepareGuard u request.shown eng.registry (computeRiskEvidence u request.shown eng.registry))
    (hopen : guard.target = none ∨ guard.guardFired = true) (hfresh : request.requestUid ∉ budget.seenUids) :
    TurnCase eng u request budget
      ((eng.undecidedCalls u request context (budget.mark request.requestUid)
        (computeRiskEvidence u request.shown eng.registry) guard).asked answer)
      ((eng.undecidedCalls u request context (budget.mark request.requestUid)
        (computeRiskEvidence u request.shown eng.registry) guard).run answer).1
      ((eng.undecidedCalls u request context (budget.mark request.requestUid)
        (computeRiskEvidence u request.shown eng.registry) guard).run answer).2 := by
  unfold ResolverEngine.undecidedCalls
  cases hreason : eng.llmDisabledReason with
  | some reason =>
    dsimp only
    refine .ofAbstain hfresh (fun hreaches => ?_) (by simp [NotAttempted])
    rw [hreaches.bound] at hreason
    cases hreason
  | none =>
    dsimp only
    by_cases henabled : eng.config.llmEnabled = true
    · rw [if_neg (by simp [henabled])]
      by_cases hreserved : budget.maxCalls - budget.callsMade < llmLegsReserved
      · rw [if_pos (by exact hreserved)]
        exact .ofAbstain hfresh (fun hreaches => absurd hreaches.reserved (not_le.2 hreserved)) (by simp [NotAttempted])
      · rw [if_neg (by exact hreserved)]
        cases hblocking : eng.blocking u request.shown (computeRiskEvidence u request.shown eng.registry) guard with
        | error e =>
          dsimp only
          refine .decided hfresh (fun hreaches => ?_) .rfl recorded_error fun dec hdec => ?_
          · obtain ⟨b, hb, -⟩ := hreaches.consulted
            rw [← hguard, hblocking] at hb
            cases hb
          · cases hdec
        | ok blocking =>
          refine consultCalls_cases hguard hblocking (fun hover hne hslice => ?_) hfresh
          exact ⟨hfresh, hguard ▸ hopen, hreason, henabled, not_lt.1 hreserved, blocking, hguard ▸ hblocking, hover, hne, hslice⟩
    · rw [if_pos (by simp [henabled])]
      exact .ofAbstain hfresh (fun hreaches => henabled hreaches.enabled) (by simp [NotAttempted])

variable (answer) in
/-- **The cases of a turn.** -/
theorem resolveCalls_cases :
    TurnCase eng u request budget ((eng.resolveCalls u request context budget).asked answer)
      ((eng.resolveCalls u request context budget).run answer).1 ((eng.resolveCalls u request context budget).run answer).2 := by
  unfold ResolverEngine.resolveCalls
  by_cases hseen : request.requestUid ∈ budget.seenUids
  · rw [if_pos hseen]
    exact .duplicate hseen
  rw [if_neg hseen]
  dsimp only
  generalize hg : prepareGuard u request.shown eng.registry (computeRiskEvidence u request.shown eng.registry) = guard
  obtain ⟨_ | target, method, _ | _⟩ := guard
  case some.false =>
    have hresult : eng.resolved target.slotId context (computeRiskEvidence u request.shown eng.registry) method 1
        .notAttemptedDeterministicHit false none none = eng.resolved target.slotId context
        (computeRiskEvidence u request.shown eng.registry) method 1 .notAttemptedDeterministicHit false none none := rfl
    obtain ⟨hrecorded, houtcome⟩ := resolved_outcome (budget.mark request.requestUid) request.requestUid hresult
    refine .decided hseen ?_ .rfl hrecorded fun dec hdec => ?_
    · intro hreaches
      have hundecided := hreaches.undecided
      rw [hg] at hundecided
      rcases hundecided with h | h <;> cases h
    · rw [houtcome dec hdec]
      exact .inl rfl
  -- no target, or the guard has fired
  all_goals exact undecidedCalls_cases hg.symm (by simp) hseen

variable {calls : List ProviderCall}

/-- What every turn keeps, whatever its case. -/
structure TurnKeeps (eng : ResolverEngine) (u : Unicode) (request : TextRequest) (budget : RunBudget) (calls : List ProviderCall)
    (result : Except ResolverErr ResolveDecision) (budget' : RunBudget) : Prop where
  maxCalls : budget'.maxCalls = budget.maxCalls
  single : calls.length ≤ 1 ∧ budget.callsMade ≤ budget'.callsMade ∧ budget'.callsMade ≤ budget.callsMade + 1
  capped : budget.callsMade ≤ budget.maxCalls → budget'.callsMade ≤ budget'.maxCalls
  seen : insert request.requestUid budget.seenUids = budget'.seenUids
  kept : ∀ domain known, budget.seenUnresolved.lookup domain = some known → budget'.seenUnresolved.lookup domain = some known
  recorded : Recorded request.requestUid result budget'
  reaches : calls ≠ [] → Reaches eng u request budget
  attempted : ∀ dec, result = .ok dec → NotAttempted dec.fallbackOutcome → calls = []
  once : request.requestUid ∈ budget.seenUids →
    result = .error (.valueError "duplicate request_uid in run budget") ∧ calls = []

theorem TurnCase.keeps (h : TurnCase eng u request budget calls result budget') :
    TurnKeeps eng u request budget calls result budget' := by
  have hroom : Reaches eng u request budget → budget.callsMade + 1 ≤ budget.maxCalls := by
    intro hreaches
    have hreserved : (2 : Int) ≤ budget.maxCalls - budget.callsMade := hreaches.reserved
    omega
  cases h with
  | duplicate hseen =>
    exact ⟨rfl, ⟨by simp, le_refl _, by omega⟩, id, Finset.insert_eq_of_mem hseen, fun _ _ h => h, recorded_error,
      fun h => absurd rfl h, fun _ _ _ => rfl, fun _ => ⟨rfl, rfl⟩⟩
  | decided hfresh hfar hcharged hrecorded houtcome =>
    have hcalls : budget'.callsMade = budget.callsMade + 0 := hcharged.callsMade
    have hmax : budget'.maxCalls = budget.maxCalls := hcharged.maxCalls
    exact ⟨hmax, ⟨by simp, by omega, by omega⟩, fun _ => by omega, hcharged.seenUids.symm, hcharged.kept, hrecorded,
      fun h => absurd rfl h, fun _ _ _ => rfl, fun h => absurd h hfresh⟩
  | lost hreaches htext =>
    have hcalls : (budget.mark request.requestUid).charge.callsMade = budget.callsMade + 1 := rfl
    have hmax : (budget.mark request.requestUid).charge.maxCalls = budget.maxCalls := rfl
    have hone := hroom hreaches
    exact ⟨rfl, ⟨by simp, by omega, by omega⟩, fun _ => by omega, rfl, fun _ _ h => h, recorded_error, fun h => absurd rfl h,
      fun _ _ _ => rfl, fun h => absurd h hreaches.fresh⟩
  | called hreaches htext call hcharged hrecorded houtcome =>
    have hcalls : budget'.callsMade = budget.callsMade + 1 := hcharged.callsMade
    have hmax : budget'.maxCalls = budget.maxCalls := hcharged.maxCalls
    have hone := hroom hreaches
    exact ⟨hmax, ⟨by simp, by omega, by omega⟩, fun _ => by omega, hcharged.seenUids.symm, hcharged.kept, hrecorded,
      fun _ => hreaches, fun dec hdec hnot => absurd hnot (houtcome dec hdec), fun h => absurd h hreaches.fresh⟩

/-- A turn that is charged and cannot call: a text of its request cannot be encoded. -/
def Lost (eng : ResolverEngine) (u : Unicode) (request : TextRequest) (budget : RunBudget) : Prop :=
  Reaches eng u request budget ∧ ¬ request.Encodable

/-- **The charge of a turn**: its calls, and one more where it is lost. -/
theorem TurnCase.charge (h : TurnCase eng u request budget calls result budget') :
    (¬ Lost eng u request budget ∧ budget'.callsMade = budget.callsMade + calls.length) ∨
      (Lost eng u request budget ∧ budget'.callsMade = budget.callsMade + calls.length + 1) := by
  cases h with
  | duplicate hseen => exact .inl ⟨fun hlost => hlost.1.fresh hseen, by simp⟩
  | decided hfresh hfar hcharged hrecorded houtcome =>
    have hcalls : budget'.callsMade = budget.callsMade + 0 := hcharged.callsMade
    exact .inl ⟨fun hlost => hfar hlost.1, by simpa using hcalls⟩
  | lost hreaches htext => exact .inr ⟨⟨hreaches, htext⟩, by simp [RunBudget.charge, RunBudget.mark]⟩
  | called hreaches htext call hcharged hrecorded houtcome =>
    have hcalls : budget'.callsMade = budget.callsMade + 1 := hcharged.callsMade
    exact .inl ⟨fun hlost => hlost.2 htext, by simpa using hcalls⟩

end

/-! ## A sequence of calls -/

/-- One call of `resolve`: its engine and arguments, and what its provider answers. -/
structure Turn where
  eng : ResolverEngine
  request : TextRequest
  context : ResolverContext
  answer : ProviderCall → Answer

/-- What is on record of a turn. -/
structure Entry where
  turn : Turn
  before : RunBudget
  after : RunBudget
  calls : List ProviderCall
  result : Except ResolverErr ResolveDecision

structure Session where
  budget : RunBudget
  entries : List Entry

namespace Session

def calls (s : Session) : List ProviderCall := s.entries.flatMap (·.calls)

def opened (budget : RunBudget) : Session := ⟨budget, []⟩

def take (u : Unicode) (s : Session) (t : Turn) : Session :=
  let program := t.eng.resolveCalls u t.request t.context s.budget
  let (result, budget) := program.run t.answer
  ⟨budget, s.entries ++ [⟨t, s.budget, budget, program.asked t.answer, result⟩]⟩

end Session

variable {u : Unicode} {s : Session} {t : Turn} {budget : RunBudget}

theorem take_cases (u : Unicode) (s : Session) (t : Turn) : ∃ calls result budget',
    s.take u t = ⟨budget', s.entries ++ [⟨t, s.budget, budget', calls, result⟩]⟩ ∧
      TurnCase t.eng u t.request s.budget calls result budget' :=
  ⟨_, _, _, rfl, resolveCalls_cases t.answer⟩

/-- The run budget is respected: what a session has on record since its budget was `opened`. -/
structure RespectsBudget (u : Unicode) (opened : RunBudget) (s : Session) : Prop where
  counted : s.budget.callsMade = opened.callsMade + s.calls.length
  capped : s.budget.callsMade ≤ s.budget.maxCalls ∧ s.budget.maxCalls = opened.maxCalls
  single : ∀ e ∈ s.entries, e.calls.length ≤ 1 ∧ e.before.callsMade ≤ e.after.callsMade ∧
    e.after.callsMade ≤ e.before.callsMade + 1
  /-- The provider is called with two units left, by an enabled engine, about a request that nothing else decides. -/
  reaches : ∀ e ∈ s.entries, e.calls ≠ [] → Reaches e.turn.eng u e.turn.request e.before
  attempted : ∀ e ∈ s.entries, ∀ dec, e.result = .ok dec → NotAttempted dec.fallbackOutcome → e.calls = []
  once : s.entries.Pairwise fun e e' => e'.turn.request.requestUid = e.turn.request.requestUid →
    e'.result = .error (.valueError "duplicate request_uid in run budget") ∧ e'.calls = []
  distinct : s.entries.Pairwise fun e e' => ∀ dec dec' domain domain', e.result = .ok dec → e'.result = .ok dec' →
    dec.unresolvedDomain = some domain → dec'.unresolvedDomain = some domain' → domain ≠ domain'

/-- The invariant of a session: all but the count, and what the budget holds for the turns to come. -/
structure Session.Sound (u : Unicode) (opened : RunBudget) (s : Session) : Prop where
  capped : s.budget.callsMade ≤ s.budget.maxCalls ∧ s.budget.maxCalls = opened.maxCalls
  single : ∀ e ∈ s.entries, e.calls.length ≤ 1 ∧ e.before.callsMade ≤ e.after.callsMade ∧
    e.after.callsMade ≤ e.before.callsMade + 1
  reaches : ∀ e ∈ s.entries, e.calls ≠ [] → Reaches e.turn.eng u e.turn.request e.before
  attempted : ∀ e ∈ s.entries, ∀ dec, e.result = .ok dec → NotAttempted dec.fallbackOutcome → e.calls = []
  once : s.entries.Pairwise fun e e' => e'.turn.request.requestUid = e.turn.request.requestUid →
    e'.result = .error (.valueError "duplicate request_uid in run budget") ∧ e'.calls = []
  distinct : s.entries.Pairwise fun e e' => ∀ dec dec' domain domain', e.result = .ok dec → e'.result = .ok dec' →
    dec.unresolvedDomain = some domain → dec'.unresolvedDomain = some domain' → domain ≠ domain'
  seen : ∀ e ∈ s.entries, e.turn.request.requestUid ∈ s.budget.seenUids
  recorded : ∀ e ∈ s.entries, Recorded e.turn.request.requestUid e.result s.budget

theorem sound_opened (h : budget.callsMade ≤ budget.maxCalls) : (Session.opened budget).Sound u budget where
  capped := ⟨h, rfl⟩
  single := by simp [Session.opened]
  reaches := by simp [Session.opened]
  attempted := by simp [Session.opened]
  once := List.Pairwise.nil
  distinct := List.Pairwise.nil
  seen := by simp [Session.opened]
  recorded := by simp [Session.opened]

/-- **A turn keeps the invariant.** -/
theorem Session.Sound.take (h : s.Sound u budget) (t : Turn) : (s.take u t).Sound u budget := by
  obtain ⟨calls, result, budget', htake, hcase⟩ := take_cases u s t
  have hkeeps := hcase.keeps
  rw [htake]
  have hall : ∀ {P : Entry → Prop}, (∀ e ∈ s.entries, P e) → P ⟨t, s.budget, budget', calls, result⟩ →
      ∀ e ∈ s.entries ++ [⟨t, s.budget, budget', calls, result⟩], P e := by
    intro P hold hnew e he
    rcases List.mem_append.1 he with he | he
    · exact hold e he
    · rw [List.mem_singleton.1 he]
      exact hnew
  have hpairs : ∀ {R : Entry → Entry → Prop}, s.entries.Pairwise R →
      (∀ e ∈ s.entries, R e ⟨t, s.budget, budget', calls, result⟩) →
      List.Pairwise R (s.entries ++ [⟨t, s.budget, budget', calls, result⟩]) := by
    intro R hold hnew
    refine List.pairwise_append.2 ⟨hold, List.pairwise_singleton _ _, fun e he e' he' => ?_⟩
    rw [List.mem_singleton.1 he']
    exact hnew e he
  have hseen : ∀ e ∈ s.entries, e.turn.request.requestUid ∈ budget'.seenUids := by
    intro e he
    rw [← hkeeps.seen]
    exact Finset.mem_insert_of_mem (h.seen e he)
  have hrecorded : ∀ e ∈ s.entries, Recorded e.turn.request.requestUid e.result budget' := by
    intro e he dec domain hdec hdomain
    exact hkeeps.kept domain _ (h.recorded e he dec domain hdec hdomain)
  refine { capped := ⟨hkeeps.capped h.capped.1, hkeeps.maxCalls.trans h.capped.2⟩, single := hall h.single hkeeps.single,
           reaches := hall h.reaches hkeeps.reaches, attempted := hall h.attempted hkeeps.attempted,
           once := hpairs h.once ?_, distinct := hpairs h.distinct ?_, seen := hall hseen ?_,
           recorded := hall hrecorded hkeeps.recorded }
  · intro e he huid
    apply hkeeps.once
    rw [huid]
    exact h.seen e he
  · rintro e he dec dec' domain _ hdec hdec' hdomain hdomain' rfl
    -- one domain on record for two requests: they are one, and the second raised
    have hfirst := hrecorded e he dec domain hdec hdomain
    have hsecond := hkeeps.recorded dec' domain hdec' hdomain'
    rw [hfirst, Option.some.injEq] at hsecond
    have hdup := (hkeeps.once (hsecond ▸ h.seen e he)).1
    rw [hdup] at hdec'
    cases hdec'
  · dsimp only
    rw [← hkeeps.seen]
    exact Finset.mem_insert_self _ _

/-- Units charged without a call. -/
def Session.excess (s : Session) : Int := s.budget.callsMade - s.calls.length

theorem excess_take : (¬ Lost t.eng u t.request s.budget ∧ (s.take u t).excess = s.excess) ∨
    (Lost t.eng u t.request s.budget ∧ (s.take u t).excess = s.excess + 1) := by
  obtain ⟨calls, result, budget', htake, hcase⟩ := take_cases u s t
  have hlen : (s.take u t).calls.length = s.calls.length + calls.length := by
    rw [htake]
    simp [Session.calls]
  have hbudget : (s.take u t).budget = budget' := by rw [htake]
  unfold Session.excess
  rw [hlen, hbudget]
  rcases hcase.charge with ⟨hlost, hcharge⟩ | ⟨hlost, hcharge⟩
  · refine .inl ⟨hlost, ?_⟩
    omega
  · refine .inr ⟨hlost, ?_⟩
    omega

/-- **The excess is the number of lost turns**: it never falls, and stays where it is exactly when no turn is lost. -/
theorem excess_run (turns : List Turn) (s : Session) : s.excess ≤ (run (Session.take u) s turns).excess ∧
    ((run (Session.take u) s turns).excess = s.excess ↔
      Along (Session.take u) (fun s t => ¬ Lost t.eng u t.request s.budget) s turns) := by
  induction turns generalizing s with
  | nil => simp [Along]
  | cons t turns ih =>
    obtain ⟨hmono, hiff⟩ := ih (s.take u t)
    rw [run_cons, Along]
    rcases excess_take (u := u) (s := s) (t := t) with ⟨hlost, hexcess⟩ | ⟨hlost, hexcess⟩
    · rw [hexcess] at hmono hiff
      refine ⟨hmono, ?_⟩
      rw [hiff]
      exact ⟨fun h => ⟨hlost, h⟩, fun h => h.2⟩
    · rw [hexcess] at hmono
      refine ⟨by omega, ?_⟩
      constructor
      · intro he
        omega
      · intro h
        exact absurd hlost h.1

/-- **The run budget is respected in exactly the sessions without a lost turn**: whatever the requests, the engines and the
answers of the provider, up to a request that is charged and then found to hold a lone surrogate. -/
theorem budget_respected_iff (opened : RunBudget) (hopened : opened.callsMade ≤ opened.maxCalls) (turns : List Turn) :
    RespectsBudget u opened (run (Session.take u) (.opened opened) turns) ↔
      Along (Session.take u) (fun s t => ¬ Lost t.eng u t.request s.budget) (.opened opened) turns := by
  have hsound : (run (Session.take u) (.opened opened) turns).Sound u opened :=
    run_inv (I := fun s : Session => s.Sound u opened) (fun _ t h => h.take t) (sound_opened hopened) turns
  have hstart : (Session.opened opened).excess = opened.callsMade := by
    unfold Session.excess Session.calls Session.opened
    simp
  rw [← (excess_run turns _).2, hstart]
  unfold Session.excess
  constructor
  · intro h
    have hcounted := h.counted
    omega
  · intro h
    exact ⟨by omega, hsound.capped, hsound.single, hsound.reaches, hsound.attempted, hsound.once, hsound.distinct⟩

/-! ### A text with a lone surrogate -/

theorem drinkRequest_uid : isRequestUid "r1" = true := by decide

theorem drinkRequest_kind : "preference" ∈ kinds := by decide

def drinkRequest (value : PyStr) : TextRequest where
  requestUid := "r1"
  kind := "preference"
  rawDomain := PyStr.ofString "drink"
  value := value
  evidenceText := []
  effectiveAt := none
  uid := drinkRequest_uid
  kindKnown := drinkRequest_kind

/-- A turn of the sample engine, with its own provider. -/
def drinkTurn (value : PyStr) : Turn := ⟨sampleEngine, drinkRequest value, ⟨[]⟩, sampleEngine.answer⟩

/-- A request that the provider is asked about. -/
theorem budget_respected_drink :
    RespectsBudget asciiOnly freshBudget (run (Session.take asciiOnly) (.opened freshBudget) [drinkTurn (PyStr.ofString "coffee")]) := by
  apply (budget_respected_iff freshBudget (by decide) _).2
  refine ⟨?_, trivial⟩
  rintro ⟨-, htext⟩
  exact htext ⟨by decide +kernel, by decide +kernel⟩

/-- The same request with a lone surrogate behind it is charged, and nothing is asked. -/
theorem budget_charged_for_nothing :
    ¬ RespectsBudget asciiOnly freshBudget
      (run (Session.take asciiOnly) (.opened freshBudget) [drinkTurn (PyStr.ofString "coffee" ++ [.surrogate 0])]) := by
  intro h
  have hcounted := h.counted
  have hmade : (run (Session.take asciiOnly) (.opened freshBudget)
      [drinkTurn (PyStr.ofString "coffee" ++ [.surrogate 0])]).budget.callsMade = 1 := by decide +kernel
  have hcalls : (run (Session.take asciiOnly) (.opened freshBudget)
      [drinkTurn (PyStr.ofString "coffee" ++ [.surrogate 0])]).calls.length = 0 := by decide +kernel
  rw [hmade, hcalls] at hcounted
  cases hcounted

end Panella.Resolver

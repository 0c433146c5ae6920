import Panella.Lib.OrderedDict
import Panella.Lib.PyFloat
import Panella.Resolver.Blocking

/-!
# The resolver engine (`panella/resolver/engine.py`, `types.py`)

| here | there |
| --- | --- |
| `ResolveDecision.checked` | `ResolveDecision.__post_init__` (`types.py` :316-325) |
| `manifestBindingDisabledReason`, `ResolverEngine.init` | `_manifest_binding_disabled_reason`, `__init__` (:88-127) |
| `truncate`, `truncation` | `_truncate`, `_truncation` (:151-170) |
| `abstain`, `resolved` | `_abstain`, `_resolved` (:172-240) |
| `sliceIsValid`, `calibrate`, `providerOutcome` | `_slice_is_valid`, `_calibrate`, `_provider_outcome` (:242-291) |
| `resolve` | `resolve` (:293-421), cut at the call of the provider: `consult`, `conclude` |

The numbers of a manifest are finite floats (`_require_quantized_float`), which are only compared. What the provider returns
is any Python value.
-/

namespace Panella.Resolver

open PyText SortedSet

/-! ## Values and records -/

/-- A Python value, as far as the engine tells one from another. -/
inductive PyObj
  | none
  | bool (b : Bool)
  | int (n : Int)
  | float (x : PyFloat)
  | str (s : String)
  /-- Anything else; what is not hashable cannot be looked up in a set. -/
  | other (hashable : Bool)

structure TransportAttempt where
  outcome : PyObj
  latencyMs : PyObj
  rawExcerpt : PyObj

structure FallbackSuggestion where
  rawChoice : PyObj
  rawConfidence : PyObj
  attempts : List TransportAttempt

structure Provider where
  modelId : String
  promptTemplateHash : String
  suggest : ResolveRequest → List SlotView → Slice → String → String → Int → Except ResolverErr FallbackSuggestion

/-- `_AlwaysMissProvider`. -/
def alwaysMissProvider : Provider where
  modelId := "always-miss"
  promptTemplateHash := "always-miss-v1"
  suggest _ _ _ _ _ _ := .ok ⟨.str "ABSTAIN", .float (.finite 0), [⟨.str "ok", .int 0, .none⟩]⟩

structure CalibrationRow where
  low : ℚ
  high : ℚ
  calibrated : ℚ

structure CalibrationSlice where
  nSamples : Int
  perBin : List Int
  mapping : List CalibrationRow
  tau : ℚ

structure CalibrationManifest where
  calibrationVersion : String
  modelId : String
  promptTemplateHash : String
  registryHash : String
  normalizerRulesHash : String
  blockingRulesHash : String
  resolverCodeVersion : String
  fittedOnGoldsetHashes : List String
  fittedOnEvidenceHash : String
  fittedOnGitCommit : String
  slices : List (String × CalibrationSlice)

structure ResolverConfig where
  llmEnabled : Bool
  timeoutMs : Int
  manifest : Option CalibrationManifest
  manifestHash : Option String
  evidenceHash : Option String
  timeoutPositive : 0 < timeoutMs
  enabledHasManifest : llmEnabled = true → manifest.isSome = true
  hashHasManifest : manifest = none → manifestHash = none

structure ExistingSlot where
  slotId : String
  lastSeen : Option String

structure ResolverContext where
  existingSlots : List ExistingSlot

structure RunBudget where
  maxCalls : Int
  callsMade : Int
  seenUids : Finset String
  seenUnresolved : List (String × String)

structure DataTruncation where
  valueBytesOrig : Nat
  valueBytesUsed : Nat
  evidenceBytesOrig : Nat
  evidenceBytesUsed : Nat
  truncated : Bool

structure LlmReceipt where
  modelId : String
  promptTemplateHash : String
  blocking : BlockingReceipt
  attempts : List TransportAttempt
  dataTruncation : DataTruncation
  rawChoice : PyObj
  rawConfidence : PyObj
  calibratedConfidence : Option ℚ
  providerContractViolation : Option String

structure VersionStamp where
  resolverCodeVersion : String
  registryHash : String
  normalizerRulesHash : String
  blockingRulesHash : String
  normalizerVersion : String
  calibrationHash : Option String

inductive Action
  | bind
  | add
  | abstainAdd
deriving DecidableEq, Repr

inductive FallbackOutcome
  | notAttemptedDeterministicHit
  | notAttemptedDisabled
  | notAttemptedEmptyChoiceSet
  | notAttemptedBudgetExhausted
  | forcedSetOverflow
  | selected
  | lowConfidence
  | abstained
  | invalidOutput
  | transportFailed
  | timeout
deriving DecidableEq, Repr

structure ResolveDecision where
  action : Action
  slotId : Option String
  unresolvedDomain : Option String
  unresolved : Bool
  highRisk : Bool
  riskEvidence : RiskEvidence
  method : Method
  confidence : ℚ
  fallbackOutcome : FallbackOutcome
  disabledReason : Option String
  blockingReceipt : Option BlockingReceipt
  llmReceipt : Option LlmReceipt
  guardFired : Bool
  versions : VersionStamp

def ResolveDecision.checked (dec : ResolveDecision) : Except ResolverErr ResolveDecision :=
  if dec.unresolved ≠ decide (dec.action = .abstainAdd) then
    .error (.valueError "unresolved must exactly match ABSTAIN_ADD")
  else if dec.action = .abstainAdd ∧ (dec.slotId.isSome ∨ dec.unresolvedDomain.isNone) then
    .error (.valueError "abstentions require only unresolved_domain")
  else if dec.action ≠ .abstainAdd ∧ (dec.slotId.isNone ∨ dec.unresolvedDomain.isSome) then
    .error (.valueError "resolved decisions require only slot_id")
  else if dec.disabledReason.isSome ≠ decide (dec.fallbackOutcome = .notAttemptedDisabled) then
    .error (.valueError "disabled_reason is only present for disabled fallback outcomes")
  else .ok dec

/-! ## The engine -/

def resolverCodeVersion : String := "1.1.0"
def llmLegsReserved : Int := 2

/-- `MIN_CAL_SAMPLES`. -/
def minCalSamples : Slice → Int
  | .benign => 50
  | .hr => 30

structure ResolverEngine where
  config : ResolverConfig
  registry : SlotRegistry
  provider : Provider
  llmDisabledReason : Option String

/-- The bindings, in their order; `hashOf` is `canonical_manifest_hash`. -/
def manifestBindings (hashOf : CalibrationManifest → String) (config : ResolverConfig) (registry : SlotRegistry)
    (provider : Provider) (manifest : CalibrationManifest) : List (String × Bool) :=
  [("manifest_hash", config.manifestHash = some (hashOf manifest)),
   ("evidence_hash", config.evidenceHash = some manifest.fittedOnEvidenceHash),
   ("registry_hash", manifest.registryHash = registry.contentHash),
   ("normalizer_rules_hash", manifest.normalizerRulesHash = normalizerRulesHash),
   ("blocking_rules_hash", manifest.blockingRulesHash = blockingRulesHash),
   ("resolver_code_version", manifest.resolverCodeVersion = resolverCodeVersion),
   ("model_id", manifest.modelId = provider.modelId),
   ("prompt_template_hash", manifest.promptTemplateHash = provider.promptTemplateHash)]

def manifestBindingDisabledReason (hashOf : CalibrationManifest → String) (config : ResolverConfig)
    (registry : SlotRegistry) (provider : Provider) : Option String :=
  match config.manifest with
  | none => some "manifest_component_mismatch:manifest"
  | some manifest =>
    ((manifestBindings hashOf config registry provider manifest).find? fun b => !b.2).map fun b =>
      "manifest_component_mismatch:" ++ b.1

def ResolverEngine.init (hashOf : CalibrationManifest → String) (config : ResolverConfig) (registry : SlotRegistry)
    (provider : Provider) : Except ResolverErr ResolverEngine :=
  if registry.slots.length < minRegistrySlots then
    .error (.valueError ("registry must contain at least " ++ toString minRegistrySlots ++ " slots"))
  else if registry.contentHash ≠ pinnedRegistryHash then
    .error (.valueError "registry content hash does not match the pin")
  else
    .ok { config, registry, provider
          llmDisabledReason :=
            if config.llmEnabled then manifestBindingDisabledReason hashOf config registry provider else none }

def ResolverEngine.versions (eng : ResolverEngine) : VersionStamp where
  resolverCodeVersion := resolverCodeVersion
  registryHash := eng.registry.contentHash
  normalizerRulesHash := normalizerRulesHash
  blockingRulesHash := blockingRulesHash
  normalizerVersion := normalizerVersion
  calibrationHash := eng.config.manifestHash

/-- `_unresolved_domain`: the domain, and the budget that has seen it. -/
def unresolvedDomain (requestUid : String) (budget : RunBudget) : Except ResolverErr (String × RunBudget) :=
  let encoded := "xunres_" ++ String.ofList ((Sha256.hexdigest (Sha256.utf8 requestUid)).toList.take 32)
  match budget.seenUnresolved.lookup encoded with
  | some known =>
    if known ≠ requestUid then .error (.runtimeError "unresolved-domain encoding collision")
    else .ok (encoded, { budget with seenUnresolved := OrderedDict.put budget.seenUnresolved encoded requestUid })
  | none => .ok (encoded, { budget with seenUnresolved := OrderedDict.put budget.seenUnresolved encoded requestUid })

/-- `bs.decode("utf-8", errors="ignore")`: a byte where no character starts is left out. -/
def decodeIgnore : Nat → List UInt8 → List Char
  | 0, _ => []
  | _ + 1, [] => []
  | fuel + 1, b :: bs =>
    match ByteArray.utf8DecodeChar? ⟨(b :: bs).toArray⟩ 0 with
    | some c => c :: decodeIgnore fuel ((b :: bs).drop c.utf8Size)
    | none => decodeIgnore fuel bs

def truncate (value : String) (limit : Nat) : String :=
  let encoded := Sha256.utf8 value
  if encoded.length ≤ limit then value
  else String.ofList (decodeIgnore (encoded.take limit).length (encoded.take limit))

def truncation (request : ResolveRequest) : String × String × DataTruncation :=
  let value := truncate request.value 2048
  let evidence := truncate request.evidenceText 4096
  (value, evidence,
    { valueBytesOrig := (Sha256.utf8 request.value).length
      valueBytesUsed := (Sha256.utf8 value).length
      evidenceBytesOrig := (Sha256.utf8 request.evidenceText).length
      evidenceBytesUsed := (Sha256.utf8 evidence).length
      truncated := value ≠ request.value ∨ evidence ≠ request.evidenceText })

/-- `manifest.slices.get(name)`. -/
def CalibrationManifest.slice (manifest : CalibrationManifest) (slice : Slice) : Option CalibrationSlice :=
  manifest.slices.lookup slice.name

namespace ResolverEngine

variable (eng : ResolverEngine)

/-- `_abstain`, and the budget it leaves. -/
def abstain (request : ResolveRequest) (budget : RunBudget) (evidence : RiskEvidence) (outcome : FallbackOutcome)
    (guardFired : Bool) (blocking : Option BlockingReceipt) (llm : Option LlmReceipt) (disabledReason : Option String) :
    Except ResolverErr ResolveDecision × RunBudget :=
  match unresolvedDomain request.requestUid budget with
  | .error e => (.error e, budget)
  | .ok (domain, budget) =>
    (ResolveDecision.checked
      { action := .abstainAdd, slotId := none, unresolvedDomain := some domain, unresolved := true
        highRisk := evidence.any || guardFired || blocking.any (·.slice = .hr)
        riskEvidence := evidence, method := .none, confidence := 0, fallbackOutcome := outcome, disabledReason
        blockingReceipt := blocking, llmReceipt := llm, guardFired, versions := eng.versions }, budget)

/-- `_resolved`. -/
def resolved (slotId : String) (context : ResolverContext) (evidence : RiskEvidence) (method : Method) (confidence : ℚ)
    (outcome : FallbackOutcome) (guardFired : Bool) (blocking : Option BlockingReceipt) (llm : Option LlmReceipt) :
    Except ResolverErr ResolveDecision :=
  match eng.registry.byId slotId with
  | none => .error (.keyError slotId)
  | some slot =>
    ResolveDecision.checked
      { action := if context.existingSlots.any (·.slotId = slotId) then .bind else .add
        slotId := some slotId, unresolvedDomain := none, unresolved := false
        highRisk := evidence.any || guardFired || slot.highRisk || blocking.any (·.slice = .hr)
        riskEvidence := evidence, method, confidence, fallbackOutcome := outcome, disabledReason := none
        blockingReceipt := blocking, llmReceipt := llm, guardFired, versions := eng.versions }

/-- `_slice_is_valid`. -/
def sliceIsValid (slice : Slice) : Bool :=
  match eng.config.manifest with
  | none => false
  | some manifest =>
    match manifest.slice slice with
    | none => false
    | some calibration =>
      !(calibration.nSamples < minCalSamples slice) &&
        (!calibration.mapping.isEmpty && (calibration.mapping.map (·.calibrated)).contains calibration.tau)

/-- `self.config.manifest.slices[name]`. -/
def calibration (slice : Slice) : Except ResolverErr CalibrationSlice :=
  match eng.config.manifest.bind (·.slice slice) with
  | none => .error (.keyError slice.name)
  | some calibration => .ok calibration

end ResolverEngine

/-- `_calibrate`. -/
def calibrate (rawConfidence : ℚ) (calibration : CalibrationSlice) : Option ℚ :=
  (calibration.mapping.find? fun row =>
    (row.low ≤ rawConfidence ∧ rawConfidence < row.high) ∨ (rawConfidence = 1 ∧ row.high = 1)).map (·.calibrated)

/-- `v in {…}`, for a set of strings. -/
def PyObj.inSet (words : List String) : PyObj → Except ResolverErr Bool
  | .str s => .ok (words.contains s)
  | .other false => .error (.typeError "unhashable type")
  | _ => .ok false

/-- `v == "…"`. -/
def PyObj.isText (v : PyObj) (s : String) : Bool :=
  match v with
  | .str t => t = s
  | _ => false

def PyObj.isNone : PyObj → Bool
  | .none => true
  | _ => false

/-- `v > n`. -/
def PyObj.gtInt (n : Int) : PyObj → Except ResolverErr Bool
  | .int k => .ok (n < k)
  | .bool b => .ok (n < if b then 1 else 0)
  | .float .nan => .ok false
  | .float (.inf negative) => .ok (!negative)
  | .float (.finite q) => .ok ((n : ℚ) < q)
  | _ => .error (.typeError "'>' not supported")

def TransportAttempt.excerptMisused (a : TransportAttempt) : Bool :=
  !a.rawExcerpt.isNone &&
    (!a.outcome.isText "invalid_output" ||
      match a.rawExcerpt with
      | .str s => decide (200 < (Sha256.utf8 s).length)
      | _ => true)

/-- `len(attempts) > 2 or (len(attempts) == 2 and attempts[0].outcome not in {…})`. -/
def badSequence : List TransportAttempt → Except ResolverErr Bool
  | [first, _] => (first.outcome.inSet ["transport_error", "timeout"]).map (!·)
  | attempts => .ok (2 < attempts.length)

/-- `_provider_outcome`: what to abstain with (`none` for `"ok"`), and the contract violation. -/
def providerOutcome (suggestion : FallbackSuggestion) (timeoutMs : Int) :
    Except ResolverErr (Option FallbackOutcome × Option String) := do
  match suggestion.attempts.getLast? with
  | none => .ok (some .invalidOutput, some "empty_attempts")
  | some terminal =>
    if ← suggestion.attempts.anyM fun a =>
        (a.outcome.inSet ["ok", "transport_error", "timeout", "invalid_output"]).map (!·) then
      .ok (some .invalidOutput, some "unknown_outcome")
    else if suggestion.attempts.any (·.excerptMisused) then .ok (some .invalidOutput, some "excerpt_misuse")
    else if ← badSequence suggestion.attempts then .ok (some .transportFailed, some "attempt_sequence")
    else if ← suggestion.attempts.anyM fun a =>
        if a.outcome.isText "ok" then a.latencyMs.gtInt timeoutMs else .ok false then
      .ok (some .timeout, some "timeout_exceeded_ok")
    else if !terminal.outcome.isText "ok" && (!suggestion.rawChoice.isNone || !suggestion.rawConfidence.isNone) then
      .ok (some .invalidOutput, some "payload_without_ok")
    else if terminal.outcome.isText "transport_error" then .ok (some .transportFailed, none)
    else if terminal.outcome.isText "timeout" then .ok (some .timeout, none)
    else if terminal.outcome.isText "invalid_output" then .ok (some .invalidOutput, none)
    else .ok (none, none)

/-- A confidence that is a finite number from 0 to 1, as a float. -/
def rawConfidence : PyObj → Except ResolverErr (Option ℚ)
  | .float x => .ok x.unit?
  | .int n =>
    match PyFloat.ofInt n with
    | some x => .ok x.unit?
    | none => .error (.overflowError "int too large to convert to float")
  | _ => .ok none

/-- The checks of an `"ok"` suggestion: its choice and its confidence. -/
def checkedPayload (suggestion : FallbackSuggestion) (choiceSet : List String) :
    Except ResolverErr (Option (String × ℚ)) :=
  match suggestion.rawChoice with
  | .str choice =>
    (rawConfidence suggestion.rawConfidence).map fun confidence =>
      confidence.bind fun q => if choice ≠ "ABSTAIN" ∧ choice ∉ choiceSet then none else some (choice, q)
  | _ => .ok none

/-- What `resolve` makes of a suggestion: an outcome to abstain with, or a choice with the confidence it is calibrated to
(`none` for `ABSTAIN`). -/
inductive Reading
  | refused (outcome : FallbackOutcome)
  | abstained
  | choice (slotId : String) (calibrated : ℚ)

namespace ResolverEngine

variable (eng : ResolverEngine)

/-- The suggestion, read; and the contract violation. -/
def readSuggestion (suggestion : FallbackSuggestion) (receipt : BlockingReceipt) :
    Except ResolverErr (Reading × Option String) := do
  let (outcome, violation) ← providerOutcome suggestion eng.config.timeoutMs
  match outcome with
  | some outcome => .ok (.refused outcome, violation)
  | none =>
    match ← checkedPayload suggestion receipt.choiceSet with
    | none => .ok (.refused .invalidOutput, violation)
    | some (choice, confidence) =>
      if choice = "ABSTAIN" then .ok (.abstained, violation)
      else
        match calibrate confidence (← eng.calibration receipt.slice) with
        | none => .ok (.refused .invalidOutput, violation)
        | some calibrated => .ok (.choice choice calibrated, violation)

/-- `pure_hr_top_up`. -/
def pureHrTopUp (receipt : BlockingReceipt) (evidence : RiskEvidence) : Bool := receipt.slice = .hr && !evidence.any

/-- The threshold applied. -/
def tau (receipt : BlockingReceipt) (evidence : RiskEvidence) : Except ResolverErr ℚ := do
  let calibration ← eng.calibration receipt.slice
  if pureHrTopUp receipt evidence then .ok (max (← eng.calibration .benign).tau (← eng.calibration .hr).tau)
  else .ok calibration.tau

/-- `resolve`, from the answer of the provider on. -/
def conclude (request : ResolveRequest) (context : ResolverContext) (budget : RunBudget) (evidence : RiskEvidence)
    (guardFired : Bool) (receipt : BlockingReceipt) (suggestion : FallbackSuggestion) :
    Except ResolverErr ResolveDecision × RunBudget :=
  match eng.readSuggestion suggestion receipt with
  | .error e => (.error e, budget)
  | .ok (reading, violation) =>
    let llm (calibrated : Option ℚ) : LlmReceipt :=
      { modelId := eng.provider.modelId, promptTemplateHash := eng.provider.promptTemplateHash, blocking := receipt
        attempts := suggestion.attempts, dataTruncation := (truncation request).2.2, rawChoice := suggestion.rawChoice
        rawConfidence := suggestion.rawConfidence, calibratedConfidence := calibrated
        providerContractViolation := violation }
    match reading with
    | .refused outcome =>
      eng.abstain request budget evidence outcome guardFired (some receipt) (some (llm none)) none
    | .abstained => eng.abstain request budget evidence .abstained guardFired (some receipt) (some (llm none)) none
    | .choice slotId calibrated =>
      match eng.tau receipt evidence with
      | .error e => (.error e, budget)
      | .ok tau =>
        if calibrated < tau then
          eng.abstain request budget evidence .lowConfidence guardFired (some receipt) (some (llm (some calibrated))) none
        else
          (eng.resolved slotId context evidence .llmChoice calibrated .selected guardFired (some receipt)
            (some (llm (some calibrated))), budget)

/-- Why the provider is not asked about a choice set: the slices it would be held to are not fit. -/
def sliceDisabled (receipt : BlockingReceipt) (evidence : RiskEvidence) : Option String :=
  if pureHrTopUp receipt evidence && (!eng.sliceIsValid .benign || !eng.sliceIsValid .hr) then
    some "tau_applied_component_unavailable"
  else if !eng.sliceIsValid receipt.slice then
    some (if receipt.slice = .hr && evidence.any then "hr_slice_required_but_disabled" else "slice_disabled")
  else none

/-- `resolve`, from the choice set on. -/
def consult (request : ResolveRequest) (context : ResolverContext) (budget : RunBudget) (evidence : RiskEvidence)
    (guardFired : Bool) (blocking : BlockingResult) : Except ResolverErr ResolveDecision × RunBudget :=
  let receipt := blocking.receipt
  if blocking.forcedOverflow then
    eng.abstain request budget evidence .forcedSetOverflow guardFired (some receipt) none none
  else if receipt.choiceSet.isEmpty then
    eng.abstain request budget evidence .notAttemptedEmptyChoiceSet guardFired (some receipt) none none
  else
    match eng.sliceDisabled receipt evidence with
    | some reason =>
      eng.abstain request budget evidence .notAttemptedDisabled guardFired (some receipt) none (some reason)
    | none =>
      let budget := { budget with callsMade := budget.callsMade + 1 }
      let (value, evidenceText, _) := truncation request
      match eng.provider.suggest request blocking.choices receipt.slice value evidenceText eng.config.timeoutMs with
      | .error e => (.error e, budget)
      | .ok suggestion => eng.conclude request context budget evidence guardFired receipt suggestion

/-- The id that goes into the choice set when the guard has fired. -/
def guardedTarget (guard : GuardPreparation) : Option String :=
  if guard.guardFired then guard.target.map (·.slotId) else none

/-- The choice set of a request. -/
def blocking (u : Unicode) (request : ResolveRequest) (evidence : RiskEvidence) (guard : GuardPreparation) :
    Except ResolverErr BlockingResult :=
  assembleBlocking u request eng.registry evidence (guardedTarget guard) .v1 none none

def resolve (u : Unicode) (request : ResolveRequest) (context : ResolverContext) (budget : RunBudget) :
    Except ResolverErr ResolveDecision × RunBudget :=
  if request.requestUid ∈ budget.seenUids then (.error (.valueError "duplicate request_uid in run budget"), budget)
  else
    let budget := { budget with seenUids := insert request.requestUid budget.seenUids }
    let evidence := computeRiskEvidence u request eng.registry
    let guard := prepareGuard u request eng.registry evidence
    match guard.target, guard.guardFired with
    | some target, false =>
      (eng.resolved target.slotId context evidence guard.method 1 .notAttemptedDeterministicHit false none none, budget)
    | _, _ =>
      match eng.llmDisabledReason with
      | some reason =>
        eng.abstain request budget evidence .notAttemptedDisabled guard.guardFired none none (some reason)
      | none =>
        if !eng.config.llmEnabled then
          eng.abstain request budget evidence .notAttemptedDisabled guard.guardFired none none (some "global_disabled")
        else if budget.maxCalls - budget.callsMade < llmLegsReserved then
          eng.abstain request budget evidence .notAttemptedBudgetExhausted guard.guardFired none none none
        else
          match eng.blocking u request evidence guard with
          | .error e => (.error e, budget)
          | .ok blocking => eng.consult request context budget evidence guard.guardFired blocking

end ResolverEngine

end Panella.Resolver

import DittoSubnet.Bench.BaseEvidence

/-!
# The Platform's mirror of the gates

`ditto_screening_protocol/bench_v9.py`: the models with which validator and Platform read a score's evidence. A model
accepts its fields when its own derivation gives them (`V9ModelUseGate.validate` to `V9BaseEvidence.validate`), and
encodes them again (`V9ScoreGateEvidence.canonicalBytes`, `V9BaseEvidence.canonicalBytes`).

The gate models have the fields of the scorer's gates; an optional gate is `none` when it is absent. Texts that a
pattern restricts to ASCII are bytes here, the run id is a string.
-/

namespace DittoSubnet.Bench

open Kit

/-! ## Fields -/

/-- `Field(ge=low, le=high)`. -/
def fieldIn (name : String) (low high value : ℤ) : Except String Unit := ensure (low ≤ value ∧ value ≤ high) name

/-- `Field(ge=0, le=_V9_MAX_COUNT)`. -/
def fieldCount (name : String) (value : ℤ) : Except String Unit := fieldIn name 0 10000000 value

/-- `Field(ge=0, le=_BASIS_POINTS)`. -/
def fieldShare (name : String) (value : ℤ) : Except String Unit := fieldIn name 0 10000 value

/-- `Field(ge=0, le=_V9_MAX_USAGE)`. -/
def fieldUsage (name : String) (value : ℕ) : Except String Unit := fieldIn name 0 9007199254740991 value

/-- `V9GateResult`: every named result. -/
def fieldResult (value : Result) : Except String Unit := ensure (value ≠ .unset) "result"

/-- `_SHA256_PATTERN`. -/
def sha256Pattern (value : Bytes) : Prop :=
  value.length = 64 ∧ ∀ b ∈ value, (48 ≤ b ∧ b ≤ 57) ∨ (97 ≤ b ∧ b ≤ 102)

instance (value : Bytes) : Decidable (sha256Pattern value) :=
  inferInstanceAs (Decidable (value.length = 64 ∧ ∀ b ∈ value, (48 ≤ b ∧ b ≤ 57) ∨ (97 ≤ b ∧ b ≤ 102)))

/-- `_coverage_bps`. -/
def coverageBps (numerator denominator : ℤ) : ℤ :=
  if denominator ≤ 0 then 0 else numerator * 10000 / denominator

/-- `_apply_gate_factor_micros`. -/
def applyGateFactorMicros (ordinaryMicros factorBps : ℤ) : ℤ :=
  if factorBps = 0 then 0
  else if 10000 ≤ factorBps then ordinaryMicros
  else (ordinaryMicros * factorBps + 10000 / 2) / 10000

/-! ## Gates -/

abbrev V9ModelUseGate := ModelUseEvidence

abbrev V9AuthoritativeToolGate := AuthoritativeToolEvidence

abbrev V12ModelDependenceGate := ModelDependenceEvidence

abbrev V12InferenceLatencyGate := InferenceLatencyEvidence

abbrev V12AnswerStuffingGate := AnswerStuffingEvidence

abbrev V13ClaimProvenanceGate := ClaimProvenanceEvidence

/-- `V9GateExclusions.total`. -/
def ExclusionCounts.total (e : ExclusionCounts) : ℤ := e.preflight + e.ablation + e.undelivered + e.validatorFault

/-- The derived part of the model-use gate: `(request_coverage, coverage, result, factor)`. -/
def V9ModelUseGate.derived (g : V9ModelUseGate) : Except String (ℤ × ℤ × Result × ℤ) :=
  let requestCoverage := if g.eligibleCases = 0 then 10000
    else min (g.successfulRequests : ℤ) g.eligibleCases * 10000 / g.eligibleCases
  if g.eligibleCases = 0 then pure (requestCoverage, 10000, .notApplicable, 10000)
  else if g.observedRequests = 0 ∧ g.successfulRequests = 0 ∧ g.successfulInferenceCases = 0 ∧ g.promptTokens = 0 ∧
      g.completionTokens = 0 then
    pure (requestCoverage, 0, .zeroInference, 0)
  else if g.caseAttributionComplete = false then do
    ensure (g.successfulInferenceCases = 0) "successful inference cases require complete attribution"
    pure (requestCoverage, 0, .insufficientEvidence, 0)
  else
    let coverage := g.successfulInferenceCases * 10000 / g.eligibleCases
    if coverage < g.thresholdBPS then pure (requestCoverage, coverage, .belowThreshold, 0)
    else pure (requestCoverage, coverage, .passed, 10000)

def V9ModelUseGate.validate (g : V9ModelUseGate) : Except String Unit := do
  fieldCount "administered_cases" g.administeredCases
  fieldCount "eligible_cases" g.eligibleCases
  fieldCount "successful_inference_cases" g.successfulInferenceCases
  fieldCount "missing_inference_cases" g.missingInferenceCases
  fieldUsage "observed_requests" g.observedRequests
  fieldUsage "successful_requests" g.successfulRequests
  fieldUsage "prompt_tokens" g.promptTokens
  fieldUsage "completion_tokens" g.completionTokens
  fieldCount "excluded.preflight" g.excluded.preflight
  fieldCount "excluded.ablation" g.excluded.ablation
  fieldCount "excluded.undelivered" g.excluded.undelivered
  fieldCount "excluded.validator_fault" g.excluded.validatorFault
  fieldShare "request_coverage_bps" g.requestCoverageBPS
  fieldShare "coverage_bps" g.coverageBPS
  fieldIn "threshold_bps" 1 10000 g.thresholdBPS
  fieldResult g.result
  ensure (g.factorBPS = 0 ∨ g.factorBPS = 10000) "factor_bps"
  ensure (g.eligibleCases + g.excluded.total = g.administeredCases)
    "eligible cases and exclusions must partition cases"
  ensure (g.successfulInferenceCases ≤ g.eligibleCases) "successful inference cases exceed eligible cases"
  ensure (g.missingInferenceCases = g.eligibleCases - g.successfulInferenceCases)
    "missing inference cases are not derived correctly"
  ensure (g.successfulRequests ≤ g.observedRequests) "successful requests exceed observed requests"
  ensure (g.successfulInferenceCases ≤ g.successfulRequests) "successful inference cases exceed successful requests"
  ensure (¬ (0 < g.successfulRequests ∧ g.promptTokens = 0)) "successful requests require prompt token accounting"
  ensure (¬ (g.successfulRequests = 0 ∧ (g.promptTokens ≠ 0 ∨ g.completionTokens ≠ 0)))
    "tokens require a successful request"
  let derived ← g.derived
  ensure ((g.requestCoverageBPS, g.coverageBPS, g.result, g.factorBPS) = derived)
    "model-use derived evidence is inconsistent"

/-- `(coverage, result, factor)`. -/
def V9AuthoritativeToolGate.derived (g : V9AuthoritativeToolGate) : ℤ × Result × ℤ :=
  let coverage := if g.expectedExecutions = 0 then 10000 else g.matchedExecutions * 10000 / g.expectedExecutions
  if g.expectedExecutions = 0 then (coverage, .notApplicable, 10000)
  else if coverage < g.thresholdBPS then (coverage, .belowThreshold, 0)
  else (coverage, .passed, 10000)

def V9AuthoritativeToolGate.validate (g : V9AuthoritativeToolGate) : Except String Unit := do
  fieldCount "expected_executions" g.expectedExecutions
  fieldCount "matched_executions" g.matchedExecutions
  fieldCount "missing_executions" g.missingExecutions
  fieldCount "unexpected_executions" g.unexpectedExecutions
  fieldCount "observed_executions" g.observedExecutions
  fieldShare "coverage_bps" g.coverageBPS
  fieldIn "threshold_bps" 1 10000 g.thresholdBPS
  fieldResult g.result
  ensure (g.factorBPS = 0 ∨ g.factorBPS = 10000) "factor_bps"
  ensure (g.matchedExecutions ≤ g.expectedExecutions) "matched executions exceed expected executions"
  ensure (g.missingExecutions = g.expectedExecutions - g.matchedExecutions)
    "missing executions are not derived correctly"
  ensure (g.observedExecutions = g.matchedExecutions + g.unexpectedExecutions)
    "observed executions are not derived correctly"
  ensure ((g.coverageBPS, g.result, g.factorBPS) = g.derived) "authoritative-tool derived evidence is inconsistent"

/-- `(dependence, result, factor)`. -/
def V12ModelDependenceGate.derived (g : V12ModelDependenceGate) : ℤ × Result × ℤ :=
  if g.sliceAttributionComplete = false then (0, .insufficientEvidence, 10000)
  else if g.eligibleCases = 0 then (10000, .notApplicable, 10000)
  else
    let dependence := coverageBps g.dependentCases g.eligibleCases
    if dependence < g.thresholdBPS then (dependence, .belowThreshold, 0) else (dependence, .passed, 10000)

def V12ModelDependenceGate.validate (g : V12ModelDependenceGate) : Except String Unit := do
  fieldCount "administered_cases" g.administeredCases
  fieldCount "eligible_cases" g.eligibleCases
  fieldCount "dependent_cases" g.dependentCases
  fieldCount "independent_cases" g.independentCases
  fieldShare "dependence_bps" g.dependenceBPS
  fieldIn "threshold_bps" 1 10000 g.thresholdBPS
  fieldResult g.result
  fieldShare "factor_bps" g.factorBPS
  ensure (g.eligibleCases ≤ g.administeredCases) "dependence eligible cases exceed administered cases"
  ensure (g.dependentCases ≤ g.eligibleCases) "dependence dependent cases exceed eligible cases"
  ensure (g.independentCases = g.eligibleCases - g.dependentCases)
    "dependence independent cases are not derived correctly"
  ensure ((g.dependenceBPS, g.result, g.factorBPS) = g.derived) "model-dependence derived evidence is inconsistent"

/-- `(sub_floor, result, factor)`. -/
def V12InferenceLatencyGate.derived (g : V12InferenceLatencyGate) : ℤ × Result × ℤ :=
  if g.attributionComplete = false then (0, .insufficientEvidence, 10000)
  else if g.eligibleCases = 0 then (0, .notApplicable, 10000)
  else
    let subFloor := coverageBps g.flaggedCases g.eligibleCases
    if subFloor < g.thresholdBPS then (subFloor, .passed, 10000)
    else if g.posture = .enforce then (subFloor, .implausibleLatency, 0)
    else (subFloor, .implausibleLatency, 10000)

def V12InferenceLatencyGate.validate (g : V12InferenceLatencyGate) : Except String Unit := do
  fieldCount "administered_cases" g.administeredCases
  fieldCount "eligible_cases" g.eligibleCases
  fieldCount "flagged_cases" g.flaggedCases
  fieldCount "unflagged_cases" g.unflaggedCases
  ensure (1 ≤ g.floorMS) "floor_ms"
  ensure (g.posture = .review ∨ g.posture = .enforce) "posture"
  fieldShare "sub_floor_bps" g.subFloorBPS
  fieldIn "threshold_bps" 1 10000 g.thresholdBPS
  fieldResult g.result
  fieldShare "factor_bps" g.factorBPS
  ensure (g.eligibleCases ≤ g.administeredCases) "latency eligible cases exceed administered cases"
  ensure (g.flaggedCases ≤ g.eligibleCases) "latency flagged cases exceed eligible cases"
  ensure (g.unflaggedCases = g.eligibleCases - g.flaggedCases) "latency unflagged cases are not derived correctly"
  ensure ((g.subFloorBPS, g.result, g.factorBPS) = g.derived) "inference-latency derived evidence is inconsistent"

/-- `(stuffed_bps, loose_stuffed_bps, result, factor)`. -/
def V12AnswerStuffingGate.derived (g : V12AnswerStuffingGate) : ℤ × ℤ × Result × ℤ :=
  if g.attributionComplete = false then (0, 0, .insufficientEvidence, 10000)
  else
    let stuffed := if 0 < g.eligibleCases then coverageBps g.stuffedCases g.eligibleCases else 0
    let loose := if 0 < g.looseEligibleCases then coverageBps g.looseStuffedCases g.looseEligibleCases else 0
    if g.reviewRequired then (stuffed, loose, .reviewRequired, 10000)
    else if 0 < g.eligibleCases ∧ g.minCases ≤ g.stuffedCases then
      if g.posture = .enforce then (stuffed, loose, .answerStuffed, 0)
      else if g.posture = .penalize then (stuffed, loose, .answerStuffed, 10000 - min stuffed 5000)
      else (stuffed, loose, .answerStuffed, 10000)
    else if 0 < g.reviewShareThresholdBPS ∧ 2 ≤ g.looseStuffedCases ∧ g.reviewShareThresholdBPS ≤ loose then
      (stuffed, loose, .reviewRequired, 10000)
    else if g.eligibleCases = 0 then (stuffed, loose, .notApplicable, 10000)
    else (stuffed, loose, .passed, 10000)

def V12AnswerStuffingGate.validate (g : V12AnswerStuffingGate) : Except String Unit := do
  fieldCount "administered_cases" g.administeredCases
  fieldCount "eligible_cases" g.eligibleCases
  fieldCount "stuffed_cases" g.stuffedCases
  fieldCount "clean_cases" g.cleanCases
  ensure (g.posture = .enforce ∨ g.posture = .penalize ∨ g.posture = .review) "posture"
  fieldShare "stuffed_bps" g.stuffedBPS
  fieldIn "threshold_bps" 1 10000 g.thresholdBPS
  ensure (1 ≤ g.minCases) "min_cases"
  fieldCount "loose_eligible_cases" g.looseEligibleCases
  fieldCount "loose_stuffed_cases" g.looseStuffedCases
  fieldShare "loose_stuffed_bps" g.looseStuffedBPS
  fieldShare "review_share_threshold_bps" g.reviewShareThresholdBPS
  fieldResult g.result
  fieldShare "factor_bps" g.factorBPS
  ensure (g.eligibleCases ≤ g.administeredCases) "answer-stuffing eligible cases exceed administered cases"
  ensure (g.stuffedCases ≤ g.eligibleCases) "answer-stuffing stuffed cases exceed eligible cases"
  ensure (g.cleanCases = g.eligibleCases - g.stuffedCases) "answer-stuffing clean cases are not derived correctly"
  ensure (g.looseEligibleCases ≤ g.administeredCases) "answer-stuffing loose eligible cases exceed administered cases"
  ensure (g.looseStuffedCases ≤ g.looseEligibleCases) "answer-stuffing loose stuffed cases exceed loose eligible cases"
  ensure ((g.stuffedBPS, g.looseStuffedBPS, g.result, g.factorBPS) = g.derived)
    "answer-stuffing derived evidence is inconsistent"

/-- `(flagged_bps, result)`. -/
def V13ClaimProvenanceGate.derived (g : V13ClaimProvenanceGate) : ℤ × Result :=
  (if 0 < g.eligibleCases then coverageBps g.flaggedCases g.eligibleCases else 0,
    if g.attributionComplete = false then .insufficientEvidence
    else if g.eligibleCases = 0 then .notApplicable
    else if 0 < g.flaggedCases then .claimProvenanceFlagged
    else .passed)

def V13ClaimProvenanceGate.validate (g : V13ClaimProvenanceGate) : Except String Unit := do
  fieldCount "administered_cases" g.administeredCases
  fieldCount "eligible_cases" g.eligibleCases
  fieldCount "not_model_emitted_cases" g.notModelEmittedCases
  fieldCount "answer_in_prompt_cases" g.answerInPromptCases
  fieldCount "flagged_cases" g.flaggedCases
  fieldCount "unattributed_call_cases" g.unattributedCallCases
  fieldCount "unsettled_cases" g.unsettledCases
  fieldCount "zeroed_cases" g.zeroedCases
  ensure (g.posture = .shadow ∨ g.posture = .enforce) "posture"
  fieldShare "flagged_bps" g.flaggedBPS
  fieldResult g.result
  ensure (g.factorBPS = 10000) "factor_bps"
  ensure (g.eligibleCases + g.unsettledCases ≤ g.administeredCases)
    "claim-provenance eligible and unsettled cases exceed administered"
  ensure (¬ (g.eligibleCases < g.notModelEmittedCases ∨ g.eligibleCases < g.answerInPromptCases))
    "claim-provenance flagged cases exceed eligible cases"
  ensure (max g.notModelEmittedCases g.answerInPromptCases ≤ g.flaggedCases ∧
      g.flaggedCases ≤ min (g.notModelEmittedCases + g.answerInPromptCases) g.eligibleCases)
    "claim-provenance flagged_cases is not the union"
  ensure (g.unattributedCallCases ≤ g.unsettledCases) "claim-provenance unattributed calls exceed unsettled"
  ensure (g.zeroedCases ≤ g.flaggedCases + g.unattributedCallCases) "claim-provenance zeroed cases exceed flagged cases"
  ensure (¬ (g.posture = .shadow ∧ g.zeroedCases ≠ 0)) "claim-provenance shadow posture cannot zero cases"
  ensure (g.attributionComplete = true ↔ g.unsettledCases = 0)
    "claim-provenance attribution_complete contradicts unsettled_cases"
  ensure ((g.flaggedBPS, g.result) = g.derived) "claim-provenance derived evidence is inconsistent"

/-! ## Evidence -/

/-- `V9EvidenceBenchVersion`. -/
def evidenceBenchVersions : List ℤ := [9, 10, 11, 12, 13, 14, 15, 16, 17]

structure V9ScoreGateEvidence where
  schemaVersion : ℤ
  benchVersion : ℤ
  rolloutMode : RolloutMode
  thresholdProfile : ThresholdProfile
  modelUse : V9ModelUseGate
  authoritativeTool : V9AuthoritativeToolGate
  modelDependence : Option V12ModelDependenceGate := none
  inferenceLatency : Option V12InferenceLatencyGate := none
  answerStuffing : Option V12AnswerStuffingGate := none
  claimProvenance : Option V13ClaimProvenanceGate := none
  deriving DecidableEq

/-- The check of an optional gate. -/
def validateOptional {γ : Type} (validate : γ → Except String Unit) : Option γ → Except String Unit
  | none => pure ()
  | some g => validate g

def V9ScoreGateEvidence.validate (e : V9ScoreGateEvidence) : Except String Unit := do
  ensure (e.schemaVersion = 1) "schema_version"
  ensure (e.benchVersion ∈ evidenceBenchVersions) "bench_version"
  ensure (e.rolloutMode = .shadow ∨ e.rolloutMode = .enforce) "rollout_mode"
  ensure (profileIDPattern e.thresholdProfile.id) "threshold_profile.id"
  ensure (sha256Pattern e.thresholdProfile.manifestSHA256) "threshold_profile.manifest_sha256"
  V9ModelUseGate.validate e.modelUse
  V9AuthoritativeToolGate.validate e.authoritativeTool
  validateOptional V12ModelDependenceGate.validate e.modelDependence
  validateOptional V12InferenceLatencyGate.validate e.inferenceLatency
  validateOptional V12AnswerStuffingGate.validate e.answerStuffing
  validateOptional V13ClaimProvenanceGate.validate e.claimProvenance
  ensure (¬ (12 ≤ e.benchVersion ∧ e.modelDependence = none)) "v12 score gates require model_dependence"
  ensure (¬ (¬ 12 ≤ e.benchVersion ∧
      (e.modelDependence ≠ none ∨ e.inferenceLatency ≠ none ∨ e.answerStuffing ≠ none)))
    "pre-v12 score gates must omit v12 gates"
  ensure (¬ (13 ≤ e.benchVersion ∧ e.claimProvenance = none)) "v13 score gates require claim_provenance"
  ensure (¬ (¬ 13 ≤ e.benchVersion ∧ e.claimProvenance ≠ none)) "pre-v13 score gates must omit claim_provenance"

/-- The factor of an optional gate times what was combined before. -/
def timesFactor {γ : Type} (factor : γ → ℤ) (combined : ℤ) : Option γ → ℤ
  | none => combined
  | some g => combined * factor g / 10000

def V9ScoreGateEvidence.combinedFactorBps (e : V9ScoreGateEvidence) : ℤ :=
  if e.modelUse.factorBPS = 0 ∨ e.authoritativeTool.factorBPS = 0 then 0
  else if 12 ≤ e.benchVersion ∧ e.modelDependence.any (fun g => g.factorBPS = 0) then 0
  else
    let combined := 10000
    let combined := if 12 ≤ e.benchVersion then
      timesFactor AnswerStuffingEvidence.factorBPS
        (timesFactor InferenceLatencyEvidence.factorBPS combined e.inferenceLatency) e.answerStuffing
      else combined
    if 13 ≤ e.benchVersion then timesFactor ClaimProvenanceEvidence.factorBPS combined e.claimProvenance else combined

/-- The lines of an optional gate. -/
def optionalFields {γ : Type} (fields : γ → List (String × Bytes)) : Option γ → List (String × Bytes)
  | none => []
  | some g => fields g

def V9ModelUseGate.lines (g : V9ModelUseGate) : List (String × Bytes) :=
  [("model.administered_cases", num g.administeredCases), ("model.eligible_cases", num g.eligibleCases),
    ("model.successful_inference_cases", num g.successfulInferenceCases),
    ("model.missing_inference_cases", num g.missingInferenceCases),
    ("model.observed_requests", num g.observedRequests), ("model.successful_requests", num g.successfulRequests),
    ("model.prompt_tokens", num g.promptTokens), ("model.completion_tokens", num g.completionTokens),
    ("model.excluded.preflight", num g.excluded.preflight), ("model.excluded.ablation", num g.excluded.ablation),
    ("model.excluded.undelivered", num g.excluded.undelivered),
    ("model.excluded.validator_fault", num g.excluded.validatorFault),
    ("model.case_attribution_complete", flag g.caseAttributionComplete),
    ("model.request_coverage_bps", num g.requestCoverageBPS), ("model.coverage_bps", num g.coverageBPS),
    ("model.threshold_bps", num g.thresholdBPS), ("model.result", text g.result.word),
    ("model.factor_bps", num g.factorBPS)]

def V9AuthoritativeToolGate.lines (g : V9AuthoritativeToolGate) : List (String × Bytes) :=
  [("tool.expected_executions", num g.expectedExecutions), ("tool.matched_executions", num g.matchedExecutions),
    ("tool.missing_executions", num g.missingExecutions), ("tool.unexpected_executions", num g.unexpectedExecutions),
    ("tool.observed_executions", num g.observedExecutions), ("tool.coverage_bps", num g.coverageBPS),
    ("tool.threshold_bps", num g.thresholdBPS), ("tool.result", text g.result.word),
    ("tool.factor_bps", num g.factorBPS)]

def V12ModelDependenceGate.lines (g : V12ModelDependenceGate) : List (String × Bytes) :=
  [("model_dependence.administered_cases", num g.administeredCases),
    ("model_dependence.eligible_cases", num g.eligibleCases),
    ("model_dependence.dependent_cases", num g.dependentCases),
    ("model_dependence.independent_cases", num g.independentCases),
    ("model_dependence.slice_attribution_complete", flag g.sliceAttributionComplete),
    ("model_dependence.dependence_bps", num g.dependenceBPS), ("model_dependence.threshold_bps", num g.thresholdBPS),
    ("model_dependence.result", text g.result.word), ("model_dependence.factor_bps", num g.factorBPS)]

def V12InferenceLatencyGate.lines (g : V12InferenceLatencyGate) : List (String × Bytes) :=
  [("inference_latency.administered_cases", num g.administeredCases),
    ("inference_latency.eligible_cases", num g.eligibleCases),
    ("inference_latency.flagged_cases", num g.flaggedCases),
    ("inference_latency.unflagged_cases", num g.unflaggedCases), ("inference_latency.floor_ms", num g.floorMS),
    ("inference_latency.attribution_complete", flag g.attributionComplete),
    ("inference_latency.posture", text g.posture.word), ("inference_latency.sub_floor_bps", num g.subFloorBPS),
    ("inference_latency.threshold_bps", num g.thresholdBPS), ("inference_latency.result", text g.result.word),
    ("inference_latency.factor_bps", num g.factorBPS)]

def V12AnswerStuffingGate.lines (g : V12AnswerStuffingGate) : List (String × Bytes) :=
  [("answer_stuffing.administered_cases", num g.administeredCases),
    ("answer_stuffing.eligible_cases", num g.eligibleCases), ("answer_stuffing.stuffed_cases", num g.stuffedCases),
    ("answer_stuffing.clean_cases", num g.cleanCases),
    ("answer_stuffing.attribution_complete", flag g.attributionComplete),
    ("answer_stuffing.review_required", flag g.reviewRequired), ("answer_stuffing.posture", text g.posture.word),
    ("answer_stuffing.stuffed_bps", num g.stuffedBPS), ("answer_stuffing.threshold_bps", num g.thresholdBPS),
    ("answer_stuffing.min_cases", num g.minCases), ("answer_stuffing.loose_eligible_cases", num g.looseEligibleCases),
    ("answer_stuffing.loose_stuffed_cases", num g.looseStuffedCases),
    ("answer_stuffing.loose_stuffed_bps", num g.looseStuffedBPS),
    ("answer_stuffing.review_share_threshold_bps", num g.reviewShareThresholdBPS),
    ("answer_stuffing.result", text g.result.word), ("answer_stuffing.factor_bps", num g.factorBPS)]

def V13ClaimProvenanceGate.lines (g : V13ClaimProvenanceGate) : List (String × Bytes) :=
  [("claim_provenance.administered_cases", num g.administeredCases),
    ("claim_provenance.eligible_cases", num g.eligibleCases),
    ("claim_provenance.not_model_emitted_cases", num g.notModelEmittedCases),
    ("claim_provenance.answer_in_prompt_cases", num g.answerInPromptCases),
    ("claim_provenance.flagged_cases", num g.flaggedCases),
    ("claim_provenance.unattributed_call_cases", num g.unattributedCallCases),
    ("claim_provenance.unsettled_cases", num g.unsettledCases), ("claim_provenance.zeroed_cases", num g.zeroedCases),
    ("claim_provenance.attribution_complete", flag g.attributionComplete),
    ("claim_provenance.posture", text g.posture.word), ("claim_provenance.flagged_bps", num g.flaggedBPS),
    ("claim_provenance.result", text g.result.word), ("claim_provenance.factor_bps", num g.factorBPS)]

/-- The lines of an evidence, in order. -/
def V9ScoreGateEvidence.fields (e : V9ScoreGateEvidence) : List (String × Bytes) :=
  [("schema_version", num e.schemaVersion), ("bench_version", num e.benchVersion),
    ("rollout_mode", text e.rolloutMode.word), ("threshold_profile.id", e.thresholdProfile.id),
    ("threshold_profile.manifest_sha256", e.thresholdProfile.manifestSHA256)] ++
  V9ModelUseGate.lines e.modelUse ++ V9AuthoritativeToolGate.lines e.authoritativeTool ++
  (if 12 ≤ e.benchVersion then
    optionalFields V12ModelDependenceGate.lines e.modelDependence ++
    optionalFields V12InferenceLatencyGate.lines e.inferenceLatency ++
    optionalFields V12AnswerStuffingGate.lines e.answerStuffing
  else []) ++
  (if 13 ≤ e.benchVersion then optionalFields V13ClaimProvenanceGate.lines e.claimProvenance else [])

def V9ScoreGateEvidence.canonicalBytes (e : V9ScoreGateEvidence) : Bytes :=
  text "ditto-score-gates-v1\n" ++ render e.fields

def V9ScoreGateEvidence.digestHex (sha : Sha256) (e : V9ScoreGateEvidence) : Bytes := sha.hash e.canonicalBytes

structure V9BaseEvidence where
  schemaVersion : ℤ
  benchVersion : ℤ
  scoreContract : V9ScoreContractIdentity
  runId : String
  artifactSha256 : Bytes
  datasetSha256 : Bytes
  transcriptSha256 : Bytes
  ordinaryCompositeMicros : ℤ
  ordinaryStderrMicros : ℤ
  scoreGates : V9ScoreGateEvidence
  scoreGatesSha256 : Bytes
  semanticGateFactorBps : ℤ
  appliedGateFactorBps : ℤ
  effectiveCompositeMicros : ℤ
  effectiveStderrMicros : ℤ
  deriving DecidableEq

def V9BaseEvidence.validate (sha : Sha256) (e : V9BaseEvidence) : Except String Unit := do
  ensure (e.schemaVersion = 1) "schema_version"
  ensure (e.benchVersion ∈ evidenceBenchVersions) "bench_version"
  ensure (profileIDPattern e.scoreContract.revision) "score_contract.revision"
  ensure (sha256Pattern e.scoreContract.manifestSHA256) "score_contract.manifest_sha256"
  ensure (1 ≤ e.runId.length) "run_id"
  ensure (sha256Pattern e.artifactSha256) "artifact_sha256"
  ensure (sha256Pattern e.datasetSha256) "dataset_sha256"
  ensure (sha256Pattern e.transcriptSha256) "transcript_sha256"
  fieldIn "ordinary_composite_micros" 0 1000000 e.ordinaryCompositeMicros
  fieldIn "ordinary_stderr_micros" 0 1000000 e.ordinaryStderrMicros
  e.scoreGates.validate
  ensure (sha256Pattern e.scoreGatesSha256) "score_gates_sha256"
  fieldShare "semantic_gate_factor_bps" e.semanticGateFactorBps
  fieldShare "applied_gate_factor_bps" e.appliedGateFactorBps
  fieldIn "effective_composite_micros" 0 1000000 e.effectiveCompositeMicros
  fieldIn "effective_stderr_micros" 0 1000000 e.effectiveStderrMicros
  ensure (e.benchVersion = e.scoreGates.benchVersion) "score_gates bench_version does not match base evidence"
  ensure (e.scoreGatesSha256 = e.scoreGates.digestHex sha) "score_gates_sha256 does not match score_gates"
  let semantic := e.scoreGates.combinedFactorBps
  let applied := if e.scoreGates.rolloutMode = .shadow then 10000 else semantic
  ensure (e.semanticGateFactorBps = semantic) "semantic gate factor contradicts score-gate evidence"
  ensure (e.appliedGateFactorBps = applied) "applied gate factor contradicts rollout mode"
  ensure (e.effectiveCompositeMicros = applyGateFactorMicros e.ordinaryCompositeMicros applied)
    "effective composite contradicts applied gate factor"
  ensure (e.effectiveStderrMicros = applyGateFactorMicros e.ordinaryStderrMicros applied)
    "effective stderr contradicts applied gate factor"

def V9BaseEvidence.canonicalBytes (e : V9BaseEvidence) : Bytes :=
  text "ditto-v9-base-v1\n" ++
  render [("schema_version", num e.schemaVersion), ("bench_version", num e.benchVersion),
    ("score_contract.revision", e.scoreContract.revision),
    ("score_contract.manifest_sha256", e.scoreContract.manifestSHA256), ("run_id", text e.runId),
    ("artifact_sha256", e.artifactSha256), ("dataset_sha256", e.datasetSha256),
    ("transcript_sha256", e.transcriptSha256), ("ordinary_composite_micros", num e.ordinaryCompositeMicros),
    ("ordinary_stderr_micros", num e.ordinaryStderrMicros), ("score_gates_sha256", e.scoreGatesSha256),
    ("semantic_gate_factor_bps", num e.semanticGateFactorBps),
    ("applied_gate_factor_bps", num e.appliedGateFactorBps),
    ("effective_composite_micros", num e.effectiveCompositeMicros),
    ("effective_stderr_micros", num e.effectiveStderrMicros)]

def V9BaseEvidence.digestHex (sha : Sha256) (e : V9BaseEvidence) : Bytes := sha.hash e.canonicalBytes

end DittoSubnet.Bench

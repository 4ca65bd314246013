import DittoSubnet.Kit.Lines
import DittoSubnet.Kit.Transaction

/-!
# Score gates of the scorer

`services/dittobench-api/internal/scoregates`: the gates of a score and their evidence. Every gate is derived from
trusted counts (`buildModelUse` to `buildClaimProvenance`); `Build` assembles the base of an `Evidence`, the optional
gates are attached afterwards (`AttachInferenceLatency` and its siblings), and `Evidence.validate` derives everything
again from the echoed counts. `Evidence.canonicalBytes` is what is hashed.

Counts are integers without overflow: every function checks the bounds of its counts before it computes with them. A
gate whose `result` is unset was not administered.
-/

namespace DittoSubnet.Bench

open Kit

/-! ## Constants and errors -/

def BasisPointScale : ℤ := 10000

def MaxCaseCount : ℤ := 10000000

def MaxUsageCount : ℕ := 9007199254740991

/-- Why an evidence is refused. -/
inductive Failure
  | unsupportedVersion (schema bench : ℤ)
  | telemetryUnavailable (gate : String)
  | invalidEvidence (message : String)
  | invalidBase (message : String)
  deriving DecidableEq

def invalid (message : String) : Failure := .invalidEvidence message

/-- `protocol.stagedBenchVersions`. -/
def stagedBenchVersions : List ℤ := []

def SupportedBenchVersion (benchVersion : ℤ) : Prop :=
  9 ≤ benchVersion ∧ (benchVersion ≤ 17 ∨ benchVersion ∈ stagedBenchVersions)

instance (v : ℤ) : Decidable (SupportedBenchVersion v) :=
  inferInstanceAs (Decidable (9 ≤ v ∧ (v ≤ 17 ∨ v ∈ stagedBenchVersions)))

theorem supported_iff {v : ℤ} : SupportedBenchVersion v ↔ 9 ≤ v ∧ v ≤ 17 := by
  simp [SupportedBenchVersion, stagedBenchVersions]

/-! ## Data -/

/-- The result of a gate; `unset` is the zero value. -/
inductive Result
  | unset
  | passed
  | belowThreshold
  | zeroInference
  | insufficientEvidence
  | notApplicable
  | implausibleLatency
  | answerStuffed
  | reviewRequired
  | claimProvenanceFlagged
  deriving DecidableEq

def Result.word : Result → String
  | unset => ""
  | passed => "passed"
  | belowThreshold => "below_threshold"
  | zeroInference => "zero_inference"
  | insufficientEvidence => "insufficient_evidence"
  | notApplicable => "not_applicable"
  | implausibleLatency => "latency_implausible"
  | answerStuffed => "answer_stuffed"
  | reviewRequired => "review_required"
  | claimProvenanceFlagged => "claim_provenance_flagged"

inductive RolloutMode
  | unset
  | shadow
  | enforce
  deriving DecidableEq

def RolloutMode.word : RolloutMode → String
  | unset => ""
  | shadow => "shadow"
  | enforce => "enforce"

inductive LatencyPosture
  | unset
  | review
  | enforce
  deriving DecidableEq

def LatencyPosture.word : LatencyPosture → String
  | unset => ""
  | review => "review"
  | enforce => "enforce"

inductive AnswerStuffingPosture
  | unset
  | enforce
  | review
  | penalize
  deriving DecidableEq

def AnswerStuffingPosture.word : AnswerStuffingPosture → String
  | unset => ""
  | enforce => "enforce"
  | review => "review"
  | penalize => "penalize"

inductive ClaimProvenancePosture
  | unset
  | shadow
  | enforce
  deriving DecidableEq

def ClaimProvenancePosture.word : ClaimProvenancePosture → String
  | unset => ""
  | shadow => "shadow"
  | enforce => "enforce"

structure ThresholdProfile where
  id : Bytes
  manifestSHA256 : Bytes
  deriving DecidableEq

structure Thresholds where
  profile : ThresholdProfile
  modelUseCoverageBPS : ℤ
  authoritativeToolCoverageBPS : ℤ
  modelDependenceCoverageBPS : ℤ := 0
  deriving DecidableEq

structure ExclusionCounts where
  preflight : ℤ := 0
  ablation : ℤ := 0
  undelivered : ℤ := 0
  validatorFault : ℤ := 0
  deriving DecidableEq

structure ModelUseInput where
  administeredCases : ℤ := 0
  eligibleCases : ℤ := 0
  successfulInferenceCases : ℤ := 0
  observedRequests : ℕ := 0
  successfulRequests : ℕ := 0
  promptTokens : ℕ := 0
  completionTokens : ℕ := 0
  excluded : ExclusionCounts := {}
  telemetryComplete : Bool := false
  caseAttributionComplete : Bool := false
  deriving DecidableEq

structure AuthoritativeToolInput where
  expectedExecutions : ℤ := 0
  matchedExecutions : ℤ := 0
  unexpectedExecutions : ℤ := 0
  telemetryComplete : Bool := false
  deriving DecidableEq

structure ModelDependenceInput where
  administeredCases : ℤ := 0
  eligibleCases : ℤ := 0
  dependentCases : ℤ := 0
  telemetryComplete : Bool := false
  sliceAttributionComplete : Bool := false
  deriving DecidableEq

structure InferenceLatencyInput where
  administeredCases : ℤ := 0
  eligibleCases : ℤ := 0
  flaggedCases : ℤ := 0
  floorMS : ℤ := 0
  shareThresholdBPS : ℤ := 0
  posture : LatencyPosture := .unset
  telemetryComplete : Bool := false
  attributionComplete : Bool := false
  deriving DecidableEq

structure AnswerStuffingInput where
  administeredCases : ℤ := 0
  eligibleCases : ℤ := 0
  stuffedCases : ℤ := 0
  minCases : ℤ := 0
  shareThresholdBPS : ℤ := 0
  looseEligibleCases : ℤ := 0
  looseStuffedCases : ℤ := 0
  reviewShareThresholdBPS : ℤ := 0
  posture : AnswerStuffingPosture := .unset
  telemetryComplete : Bool := false
  attributionComplete : Bool := false
  reviewRequired : Bool := false
  deriving DecidableEq

structure ClaimProvenanceInput where
  administeredCases : ℤ := 0
  eligibleCases : ℤ := 0
  notModelEmittedCases : ℤ := 0
  answerInPromptCases : ℤ := 0
  flaggedCases : ℤ := 0
  unattributedCallCases : ℤ := 0
  unsettledCases : ℤ := 0
  zeroedCases : ℤ := 0
  posture : ClaimProvenancePosture := .unset
  telemetryComplete : Bool := false
  attributionComplete : Bool := false
  deriving DecidableEq

structure ModelUseEvidence where
  administeredCases : ℤ := 0
  eligibleCases : ℤ := 0
  successfulInferenceCases : ℤ := 0
  missingInferenceCases : ℤ := 0
  observedRequests : ℕ := 0
  successfulRequests : ℕ := 0
  promptTokens : ℕ := 0
  completionTokens : ℕ := 0
  excluded : ExclusionCounts := {}
  caseAttributionComplete : Bool := false
  requestCoverageBPS : ℤ := 0
  coverageBPS : ℤ := 0
  thresholdBPS : ℤ := 0
  result : Result := .unset
  factorBPS : ℤ := 0
  deriving DecidableEq

structure AuthoritativeToolEvidence where
  expectedExecutions : ℤ := 0
  matchedExecutions : ℤ := 0
  missingExecutions : ℤ := 0
  unexpectedExecutions : ℤ := 0
  observedExecutions : ℤ := 0
  coverageBPS : ℤ := 0
  thresholdBPS : ℤ := 0
  result : Result := .unset
  factorBPS : ℤ := 0
  deriving DecidableEq

structure ModelDependenceEvidence where
  administeredCases : ℤ := 0
  eligibleCases : ℤ := 0
  dependentCases : ℤ := 0
  independentCases : ℤ := 0
  sliceAttributionComplete : Bool := false
  dependenceBPS : ℤ := 0
  thresholdBPS : ℤ := 0
  result : Result := .unset
  factorBPS : ℤ := 0
  deriving DecidableEq

structure InferenceLatencyEvidence where
  administeredCases : ℤ := 0
  eligibleCases : ℤ := 0
  flaggedCases : ℤ := 0
  unflaggedCases : ℤ := 0
  floorMS : ℤ := 0
  attributionComplete : Bool := false
  posture : LatencyPosture := .unset
  subFloorBPS : ℤ := 0
  thresholdBPS : ℤ := 0
  result : Result := .unset
  factorBPS : ℤ := 0
  deriving DecidableEq

structure AnswerStuffingEvidence where
  administeredCases : ℤ := 0
  eligibleCases : ℤ := 0
  stuffedCases : ℤ := 0
  cleanCases : ℤ := 0
  attributionComplete : Bool := false
  reviewRequired : Bool := false
  posture : AnswerStuffingPosture := .unset
  stuffedBPS : ℤ := 0
  thresholdBPS : ℤ := 0
  minCases : ℤ := 0
  looseEligibleCases : ℤ := 0
  looseStuffedCases : ℤ := 0
  looseStuffedBPS : ℤ := 0
  reviewShareThresholdBPS : ℤ := 0
  result : Result := .unset
  factorBPS : ℤ := 0
  deriving DecidableEq

structure ClaimProvenanceEvidence where
  administeredCases : ℤ := 0
  eligibleCases : ℤ := 0
  notModelEmittedCases : ℤ := 0
  answerInPromptCases : ℤ := 0
  flaggedCases : ℤ := 0
  unattributedCallCases : ℤ := 0
  unsettledCases : ℤ := 0
  zeroedCases : ℤ := 0
  attributionComplete : Bool := false
  posture : ClaimProvenancePosture := .unset
  flaggedBPS : ℤ := 0
  result : Result := .unset
  factorBPS : ℤ := 0
  deriving DecidableEq

structure Evidence where
  schemaVersion : ℤ
  benchVersion : ℤ
  rolloutMode : RolloutMode
  thresholdProfile : ThresholdProfile
  modelUse : ModelUseEvidence
  authoritativeTool : AuthoritativeToolEvidence
  modelDependence : ModelDependenceEvidence := {}
  inferenceLatency : InferenceLatencyEvidence := {}
  answerStuffing : AnswerStuffingEvidence := {}
  claimProvenance : ClaimProvenanceEvidence := {}
  deriving DecidableEq

def InferenceLatencyEvidence.administered (e : InferenceLatencyEvidence) : Prop := e.result ≠ .unset

def AnswerStuffingEvidence.administered (e : AnswerStuffingEvidence) : Prop := e.result ≠ .unset

def ClaimProvenanceEvidence.administered (e : ClaimProvenanceEvidence) : Prop := e.result ≠ .unset

instance (e : InferenceLatencyEvidence) : Decidable e.administered := inferInstanceAs (Decidable (e.result ≠ .unset))

instance (e : AnswerStuffingEvidence) : Decidable e.administered := inferInstanceAs (Decidable (e.result ≠ .unset))

instance (e : ClaimProvenanceEvidence) : Decidable e.administered := inferInstanceAs (Decidable (e.result ≠ .unset))

/-! ## Shared checks -/

/-- A share in basis points; the division truncates. -/
def coverageBPS (numerator denominator : ℤ) : ℤ := (numerator * BasisPointScale).tdiv denominator

def validateBoundedCases (name : String) (count : ℤ) : Except Failure Unit :=
  ensure (0 ≤ count ∧ count ≤ MaxCaseCount) (invalid s!"{name} must be in [0,10000000]")

/-- The loop over the named counts of a gate. -/
def validateCaseCounts : List (String × ℤ) → Except Failure Unit
  | [] => pure ()
  | item :: items => do
    validateBoundedCases item.1 item.2
    validateCaseCounts items

def validateCases (administered eligible successful : ℤ) (excluded : ExclusionCounts) : Except Failure Unit := do
  validateCaseCounts [("administered_cases", administered), ("eligible_cases", eligible),
    ("successful_inference_cases", successful), ("excluded.preflight", excluded.preflight),
    ("excluded.ablation", excluded.ablation), ("excluded.undelivered", excluded.undelivered),
    ("excluded.validator_fault", excluded.validatorFault)]
  let excludedTotal := excluded.preflight + excluded.ablation + excluded.undelivered + excluded.validatorFault
  ensure (excludedTotal ≤ MaxCaseCount ∧ eligible + excludedTotal = administered)
    (invalid "eligible cases and exclusions must partition administered cases")
  ensure (successful ≤ eligible) (invalid "successful_inference_cases exceeds eligible_cases")

/-- The first byte of a profile identifier. -/
def profileHead (b : UInt8) : Bool := (97 ≤ b && b ≤ 122) || (48 ≤ b && b ≤ 57)

/-- The other bytes: also `.`, `_`, `:`, `@`, `/` and `-`. -/
def profileTail (b : UInt8) : Bool := profileHead b || b ∈ [46, 95, 58, 64, 47, 45]

/-- `profileIDPattern`. -/
def profileIDPattern : Bytes → Bool
  | [] => false
  | b :: bs => profileHead b && bs.length ≤ 127 && bs.all profileTail

/-- The bytes that `hex.DecodeString` takes. -/
def isHexDigit (b : UInt8) : Bool := (48 ≤ b && b ≤ 57) || (97 ≤ b && b ≤ 102) || (65 ≤ b && b ≤ 70)

/-- `strings.ToLower` on the bytes that matter here. -/
def toLowerByte (b : UInt8) : UInt8 := if 65 ≤ b ∧ b ≤ 90 then b + 32 else b

/-- A digest: 64 hexadecimal digits in lower case. -/
def validSHA256 (value : Bytes) : Prop :=
  value.length = 64 ∧ value = value.map toLowerByte ∧ value.all isHexDigit

instance (value : Bytes) : Decidable (validSHA256 value) :=
  inferInstanceAs (Decidable (value.length = 64 ∧ value = value.map toLowerByte ∧ value.all isHexDigit))

def validateThresholds (t : Thresholds) (benchVersion : ℤ) : Except Failure Unit := do
  ensure (profileIDPattern t.profile.id)
    (invalid "threshold profile id must match ^[a-z0-9][a-z0-9._:@/-]\x7b0,127\x7d$")
  ensure (validSHA256 t.profile.manifestSHA256)
    (invalid "threshold profile manifest_sha256 must be 64 lowercase hex characters")
  ensure (1 ≤ t.modelUseCoverageBPS ∧ t.modelUseCoverageBPS ≤ BasisPointScale)
    (invalid "model-use threshold must be in [1,10000]")
  ensure (1 ≤ t.authoritativeToolCoverageBPS ∧ t.authoritativeToolCoverageBPS ≤ BasisPointScale)
    (invalid "authoritative-tool threshold must be in [1,10000]")
  if 12 ≤ benchVersion then
    ensure (1 ≤ t.modelDependenceCoverageBPS ∧ t.modelDependenceCoverageBPS ≤ BasisPointScale)
      (invalid "model-dependence threshold must be in [1,10000]")
  else
    ensure (t.modelDependenceCoverageBPS = 0)
      (invalid "model-dependence threshold is defined only for bench v12 and later")

/-! ## The gates -/

def buildModelDependence (input : ModelDependenceInput) (threshold : ℤ) : Except Failure ModelDependenceEvidence := do
  ensure input.telemetryComplete (.telemetryUnavailable "model-dependence")
  validateCaseCounts [("dependence.administered_cases", input.administeredCases),
    ("dependence.eligible_cases", input.eligibleCases), ("dependence.dependent_cases", input.dependentCases)]
  ensure (input.eligibleCases ≤ input.administeredCases)
    (invalid "dependence eligible_cases exceed administered_cases")
  ensure (input.dependentCases ≤ input.eligibleCases) (invalid "dependence dependent_cases exceed eligible_cases")
  let e : ModelDependenceEvidence := {
    administeredCases := input.administeredCases, eligibleCases := input.eligibleCases,
    dependentCases := input.dependentCases, independentCases := input.eligibleCases - input.dependentCases,
    sliceAttributionComplete := input.sliceAttributionComplete, thresholdBPS := threshold }
  if input.sliceAttributionComplete = false then
    -- an unsettled slice fails open
    pure { e with result := .insufficientEvidence, factorBPS := BasisPointScale, dependenceBPS := 0 }
  else if input.eligibleCases = 0 then
    pure { e with dependenceBPS := BasisPointScale, result := .notApplicable, factorBPS := BasisPointScale }
  else
    let dependence := coverageBPS input.dependentCases input.eligibleCases
    if dependence < threshold then
      pure { e with dependenceBPS := dependence, result := .belowThreshold, factorBPS := 0 }
    else
      pure { e with dependenceBPS := dependence, result := .passed, factorBPS := BasisPointScale }

def buildModelUse (input : ModelUseInput) (threshold : ℤ) : Except Failure ModelUseEvidence := do
  ensure input.telemetryComplete (.telemetryUnavailable "model-use")
  validateCases input.administeredCases input.eligibleCases input.successfulInferenceCases input.excluded
  ensure (input.observedRequests ≤ MaxUsageCount) (invalid "observed_requests exceeds 9007199254740991")
  ensure (input.successfulRequests ≤ MaxUsageCount) (invalid "successful_requests exceeds 9007199254740991")
  ensure (input.promptTokens ≤ MaxUsageCount) (invalid "prompt_tokens exceeds 9007199254740991")
  ensure (input.completionTokens ≤ MaxUsageCount) (invalid "completion_tokens exceeds 9007199254740991")
  ensure (input.successfulRequests ≤ input.observedRequests) (invalid "successful_requests exceeds observed_requests")
  ensure (input.successfulInferenceCases.toNat ≤ input.successfulRequests)
    (invalid "successful_inference_cases exceeds successful_requests")
  ensure (¬ (0 < input.successfulRequests ∧ input.promptTokens = 0))
    (invalid "successful requests require prompt token accounting")
  ensure (¬ (input.successfulRequests = 0 ∧ (input.promptTokens ≠ 0 ∨ input.completionTokens ≠ 0)))
    (invalid "tokens require a successful request")
  let e : ModelUseEvidence := {
    administeredCases := input.administeredCases, eligibleCases := input.eligibleCases,
    successfulInferenceCases := input.successfulInferenceCases,
    missingInferenceCases := input.eligibleCases - input.successfulInferenceCases,
    observedRequests := input.observedRequests, successfulRequests := input.successfulRequests,
    promptTokens := input.promptTokens, completionTokens := input.completionTokens, excluded := input.excluded,
    caseAttributionComplete := input.caseAttributionComplete, thresholdBPS := threshold }
  if input.eligibleCases = 0 then
    pure { e with coverageBPS := BasisPointScale, requestCoverageBPS := BasisPointScale, result := .notApplicable,
                  factorBPS := BasisPointScale }
  else
    let requestCovered := if input.eligibleCases.toNat < input.successfulRequests then input.eligibleCases.toNat
      else input.successfulRequests
    let e := { e with requestCoverageBPS := Bench.coverageBPS requestCovered input.eligibleCases }
    if input.observedRequests = 0 ∧ input.successfulRequests = 0 ∧ input.successfulInferenceCases = 0 ∧
        input.promptTokens = 0 ∧ input.completionTokens = 0 then
      pure { e with result := .zeroInference, factorBPS := 0 }
    else if input.caseAttributionComplete = false then do
      ensure (input.successfulInferenceCases = 0)
        (invalid "successful inference cases require complete distinct-case attribution")
      pure { e with result := .insufficientEvidence, factorBPS := 0, coverageBPS := 0 }
    else
      let coverage := Bench.coverageBPS input.successfulInferenceCases input.eligibleCases
      if coverage < threshold then
        pure { e with coverageBPS := coverage, result := .belowThreshold, factorBPS := 0 }
      else
        pure { e with coverageBPS := coverage, result := .passed, factorBPS := BasisPointScale }

def buildAuthoritativeTool (input : AuthoritativeToolInput) (threshold : ℤ) :
    Except Failure AuthoritativeToolEvidence := do
  ensure input.telemetryComplete (.telemetryUnavailable "authoritative-tool")
  validateBoundedCases "expected_executions" input.expectedExecutions
  validateBoundedCases "matched_executions" input.matchedExecutions
  validateBoundedCases "unexpected_executions" input.unexpectedExecutions
  ensure (input.matchedExecutions ≤ input.expectedExecutions) (invalid "matched_executions exceeds expected_executions")
  ensure (input.matchedExecutions + input.unexpectedExecutions ≤ MaxCaseCount)
    (invalid "observed executions exceeds 10000000")
  let e : AuthoritativeToolEvidence := {
    expectedExecutions := input.expectedExecutions, matchedExecutions := input.matchedExecutions,
    missingExecutions := input.expectedExecutions - input.matchedExecutions,
    unexpectedExecutions := input.unexpectedExecutions,
    observedExecutions := input.matchedExecutions + input.unexpectedExecutions, thresholdBPS := threshold }
  if input.expectedExecutions = 0 then
    pure { e with coverageBPS := BasisPointScale, result := .notApplicable, factorBPS := BasisPointScale }
  else
    let coverage := Bench.coverageBPS input.matchedExecutions input.expectedExecutions
    if coverage < threshold then
      pure { e with coverageBPS := coverage, result := .belowThreshold, factorBPS := 0 }
    else
      pure { e with coverageBPS := coverage, result := .passed, factorBPS := BasisPointScale }

def maxLatencyFloorMS : ℤ := 60000

def buildInferenceLatency (input : InferenceLatencyInput) : Except Failure InferenceLatencyEvidence := do
  ensure (input.posture = .review ∨ input.posture = .enforce)
    (invalid "inference-latency posture must be review or enforce")
  ensure (1 ≤ input.floorMS ∧ input.floorMS ≤ maxLatencyFloorMS)
    (invalid "inference-latency floor_ms must be in [1,60000]")
  ensure (1 ≤ input.shareThresholdBPS ∧ input.shareThresholdBPS ≤ BasisPointScale)
    (invalid "inference-latency share threshold must be in [1,10000]")
  ensure input.telemetryComplete (.telemetryUnavailable "inference-latency")
  validateCaseCounts [("latency.administered_cases", input.administeredCases),
    ("latency.eligible_cases", input.eligibleCases), ("latency.flagged_cases", input.flaggedCases)]
  ensure (input.eligibleCases ≤ input.administeredCases) (invalid "latency eligible_cases exceed administered_cases")
  ensure (input.flaggedCases ≤ input.eligibleCases) (invalid "latency flagged_cases exceed eligible_cases")
  let e : InferenceLatencyEvidence := {
    administeredCases := input.administeredCases, eligibleCases := input.eligibleCases,
    flaggedCases := input.flaggedCases, unflaggedCases := input.eligibleCases - input.flaggedCases,
    floorMS := input.floorMS, attributionComplete := input.attributionComplete, posture := input.posture,
    thresholdBPS := input.shareThresholdBPS }
  if input.attributionComplete = false then
    pure { e with result := .insufficientEvidence, factorBPS := BasisPointScale, subFloorBPS := 0 }
  else if input.eligibleCases = 0 then
    pure { e with result := .notApplicable, factorBPS := BasisPointScale, subFloorBPS := 0 }
  else
    let subFloor := coverageBPS input.flaggedCases input.eligibleCases
    if subFloor < input.shareThresholdBPS then
      pure { e with subFloorBPS := subFloor, result := .passed, factorBPS := BasisPointScale }
    else if input.posture = .enforce then
      pure { e with subFloorBPS := subFloor, result := .implausibleLatency, factorBPS := 0 }
    else
      pure { e with subFloorBPS := subFloor, result := .implausibleLatency, factorBPS := BasisPointScale }

def AnswerStuffingMaxPenaltyBPS : ℤ := 5000

def answerStuffingReviewMinCases : ℤ := 2

def buildAnswerStuffing (input : AnswerStuffingInput) : Except Failure AnswerStuffingEvidence := do
  ensure (input.posture = .enforce ∨ input.posture = .review ∨ input.posture = .penalize)
    (invalid "answer-stuffing posture must be enforce, penalize, or review")
  ensure (1 ≤ input.shareThresholdBPS ∧ input.shareThresholdBPS ≤ BasisPointScale)
    (invalid "answer-stuffing share threshold must be in [1,10000]")
  ensure (1 ≤ input.minCases) (invalid "answer-stuffing min_cases must be >= 1")
  ensure (0 ≤ input.reviewShareThresholdBPS ∧ input.reviewShareThresholdBPS ≤ BasisPointScale)
    (invalid "answer-stuffing review_share_threshold_bps must be in [0,10000]")
  ensure input.telemetryComplete (.telemetryUnavailable "answer-stuffing")
  validateCaseCounts [("answer_stuffing.administered_cases", input.administeredCases),
    ("answer_stuffing.eligible_cases", input.eligibleCases), ("answer_stuffing.stuffed_cases", input.stuffedCases),
    ("answer_stuffing.loose_eligible_cases", input.looseEligibleCases),
    ("answer_stuffing.loose_stuffed_cases", input.looseStuffedCases)]
  ensure (input.eligibleCases ≤ input.administeredCases)
    (invalid "answer-stuffing eligible_cases exceed administered_cases")
  ensure (input.stuffedCases ≤ input.eligibleCases) (invalid "answer-stuffing stuffed_cases exceed eligible_cases")
  ensure (input.looseEligibleCases ≤ input.administeredCases)
    (invalid "answer-stuffing loose_eligible_cases exceed administered_cases")
  ensure (input.looseStuffedCases ≤ input.looseEligibleCases)
    (invalid "answer-stuffing loose_stuffed_cases exceed loose_eligible_cases")
  let e : AnswerStuffingEvidence := {
    administeredCases := input.administeredCases, eligibleCases := input.eligibleCases,
    stuffedCases := input.stuffedCases, cleanCases := input.eligibleCases - input.stuffedCases,
    attributionComplete := input.attributionComplete, reviewRequired := input.reviewRequired,
    posture := input.posture, thresholdBPS := input.shareThresholdBPS, minCases := input.minCases,
    looseEligibleCases := input.looseEligibleCases, looseStuffedCases := input.looseStuffedCases,
    reviewShareThresholdBPS := input.reviewShareThresholdBPS }
  if input.attributionComplete = false then
    pure { e with result := .insufficientEvidence, factorBPS := BasisPointScale, stuffedBPS := 0 }
  else
    let stuffed := if 0 < input.eligibleCases then coverageBPS input.stuffedCases input.eligibleCases else 0
    let looseStuffed := if 0 < input.looseEligibleCases then
      coverageBPS input.looseStuffedCases input.looseEligibleCases else 0
    let e := { e with stuffedBPS := stuffed, looseStuffedBPS := looseStuffed }
    if input.reviewRequired then
      -- an overflowed capture flags the run and never zeroes it
      pure { e with result := .reviewRequired, factorBPS := BasisPointScale }
    else if 0 < input.eligibleCases ∧ input.minCases ≤ input.stuffedCases then
      match input.posture with
      | .enforce => pure { e with result := .answerStuffed, factorBPS := 0 }
      | .penalize =>
        let penalty := if AnswerStuffingMaxPenaltyBPS < stuffed then AnswerStuffingMaxPenaltyBPS else stuffed
        pure { e with result := .answerStuffed, factorBPS := BasisPointScale - penalty }
      | _ => pure { e with result := .answerStuffed, factorBPS := BasisPointScale }
    else if 0 < input.reviewShareThresholdBPS ∧ answerStuffingReviewMinCases ≤ input.looseStuffedCases ∧
        input.reviewShareThresholdBPS ≤ looseStuffed then
      pure { e with result := .reviewRequired, factorBPS := BasisPointScale }
    else if input.eligibleCases = 0 then
      pure { e with result := .notApplicable, factorBPS := BasisPointScale }
    else
      pure { e with result := .passed, factorBPS := BasisPointScale }

def buildClaimProvenance (input : ClaimProvenanceInput) : Except Failure ClaimProvenanceEvidence := do
  ensure (input.posture = .shadow ∨ input.posture = .enforce)
    (invalid "claim-provenance posture must be shadow or enforce")
  ensure input.telemetryComplete (.telemetryUnavailable "claim-provenance")
  validateCaseCounts [("claim_provenance.administered_cases", input.administeredCases),
    ("claim_provenance.eligible_cases", input.eligibleCases),
    ("claim_provenance.not_model_emitted_cases", input.notModelEmittedCases),
    ("claim_provenance.answer_in_prompt_cases", input.answerInPromptCases),
    ("claim_provenance.flagged_cases", input.flaggedCases),
    ("claim_provenance.unattributed_call_cases", input.unattributedCallCases),
    ("claim_provenance.unsettled_cases", input.unsettledCases), ("claim_provenance.zeroed_cases", input.zeroedCases)]
  ensure (input.eligibleCases + input.unsettledCases ≤ input.administeredCases)
    (invalid "claim-provenance eligible and unsettled cases exceed administered_cases")
  ensure (input.notModelEmittedCases ≤ input.eligibleCases ∧ input.answerInPromptCases ≤ input.eligibleCases)
    (invalid "claim-provenance flagged cases exceed eligible_cases")
  let maxFlagged := if input.notModelEmittedCases < input.answerInPromptCases then input.answerInPromptCases
    else input.notModelEmittedCases
  ensure (maxFlagged ≤ input.flaggedCases ∧
      input.flaggedCases ≤ input.notModelEmittedCases + input.answerInPromptCases ∧
      input.flaggedCases ≤ input.eligibleCases)
    (invalid "claim-provenance flagged_cases must be the union of the two flagged subsets")
  ensure (input.unattributedCallCases ≤ input.unsettledCases)
    (invalid "claim-provenance unattributed_call_cases exceed unsettled_cases")
  ensure (input.zeroedCases ≤ input.flaggedCases + input.unattributedCallCases)
    (invalid "claim-provenance zeroed_cases exceed the flagged and unattributed cases")
  ensure (¬ (input.posture = .shadow ∧ input.zeroedCases ≠ 0))
    (invalid "claim-provenance shadow posture cannot zero cases")
  ensure (input.attributionComplete = true ↔ input.unsettledCases = 0)
    (invalid "claim-provenance attribution_complete must equal unsettled_cases == 0")
  pure {
    administeredCases := input.administeredCases, eligibleCases := input.eligibleCases,
    notModelEmittedCases := input.notModelEmittedCases, answerInPromptCases := input.answerInPromptCases,
    flaggedCases := input.flaggedCases, unattributedCallCases := input.unattributedCallCases,
    unsettledCases := input.unsettledCases, zeroedCases := input.zeroedCases,
    attributionComplete := input.attributionComplete, posture := input.posture, factorBPS := BasisPointScale,
    flaggedBPS := if 0 < input.eligibleCases then coverageBPS input.flaggedCases input.eligibleCases else 0,
    result :=
      if input.attributionComplete = false then .insufficientEvidence
      else if input.eligibleCases = 0 then .notApplicable
      else if 0 < input.flaggedCases then .claimProvenanceFlagged
      else .passed }

/-! ## Assembled evidence -/

def buildModelDependenceForVersion (benchVersion threshold : ℤ) (dependence : List ModelDependenceInput) :
    Except Failure ModelDependenceEvidence :=
  if benchVersion < 12 then do
    ensure (dependence = []) (invalid "model-dependence evidence is defined only for bench v12 and later")
    pure {}
  else
    match dependence with
    | [input] => buildModelDependence input threshold
    | _ => throw (.telemetryUnavailable "model-dependence")

def Build (benchVersion : ℤ) (model : ModelUseInput) (tool : AuthoritativeToolInput) (thresholds : Thresholds)
    (mode : RolloutMode) (dependence : List ModelDependenceInput) : Except Failure Evidence := do
  ensure (SupportedBenchVersion benchVersion) (.unsupportedVersion 1 benchVersion)
  validateThresholds thresholds benchVersion
  ensure (mode = .shadow ∨ mode = .enforce) (invalid "rollout mode must be shadow or enforce")
  let dependenceEvidence ← buildModelDependenceForVersion benchVersion thresholds.modelDependenceCoverageBPS dependence
  let modelEvidence ← buildModelUse model thresholds.modelUseCoverageBPS
  let toolEvidence ← buildAuthoritativeTool tool thresholds.authoritativeToolCoverageBPS
  pure {
    schemaVersion := 1, benchVersion := benchVersion, rolloutMode := mode, thresholdProfile := thresholds.profile,
    modelUse := modelEvidence, authoritativeTool := toolEvidence, modelDependence := dependenceEvidence }

/-- The inputs that a gate's evidence echoes. -/
def ModelUseEvidence.echo (e : ModelUseEvidence) : ModelUseInput where
  administeredCases := e.administeredCases
  eligibleCases := e.eligibleCases
  successfulInferenceCases := e.successfulInferenceCases
  observedRequests := e.observedRequests
  successfulRequests := e.successfulRequests
  promptTokens := e.promptTokens
  completionTokens := e.completionTokens
  excluded := e.excluded
  telemetryComplete := true
  caseAttributionComplete := e.caseAttributionComplete

def AuthoritativeToolEvidence.echo (e : AuthoritativeToolEvidence) : AuthoritativeToolInput where
  expectedExecutions := e.expectedExecutions
  matchedExecutions := e.matchedExecutions
  unexpectedExecutions := e.unexpectedExecutions
  telemetryComplete := true

def ModelDependenceEvidence.echo (e : ModelDependenceEvidence) : ModelDependenceInput where
  administeredCases := e.administeredCases
  eligibleCases := e.eligibleCases
  dependentCases := e.dependentCases
  telemetryComplete := true
  sliceAttributionComplete := e.sliceAttributionComplete

def InferenceLatencyEvidence.echo (e : InferenceLatencyEvidence) : InferenceLatencyInput where
  administeredCases := e.administeredCases
  eligibleCases := e.eligibleCases
  flaggedCases := e.flaggedCases
  floorMS := e.floorMS
  shareThresholdBPS := e.thresholdBPS
  posture := e.posture
  telemetryComplete := true
  attributionComplete := e.attributionComplete

def AnswerStuffingEvidence.echo (e : AnswerStuffingEvidence) : AnswerStuffingInput where
  administeredCases := e.administeredCases
  eligibleCases := e.eligibleCases
  stuffedCases := e.stuffedCases
  minCases := e.minCases
  shareThresholdBPS := e.thresholdBPS
  looseEligibleCases := e.looseEligibleCases
  looseStuffedCases := e.looseStuffedCases
  reviewShareThresholdBPS := e.reviewShareThresholdBPS
  posture := e.posture
  telemetryComplete := true
  attributionComplete := e.attributionComplete
  reviewRequired := e.reviewRequired

def ClaimProvenanceEvidence.echo (e : ClaimProvenanceEvidence) : ClaimProvenanceInput where
  administeredCases := e.administeredCases
  eligibleCases := e.eligibleCases
  notModelEmittedCases := e.notModelEmittedCases
  answerInPromptCases := e.answerInPromptCases
  flaggedCases := e.flaggedCases
  unattributedCallCases := e.unattributedCallCases
  unsettledCases := e.unsettledCases
  zeroedCases := e.zeroedCases
  posture := e.posture
  telemetryComplete := true
  attributionComplete := e.attributionComplete

/-- An optional gate derived again when it was administered from version `since` on; else it must be zero. -/
def rebuildOptional {γ : Type} [DecidableEq γ] (benchVersion since : ℤ) (administered : Prop) [Decidable administered]
    (gate zero : γ) (build : Except Failure γ) (message : String) : Except Failure γ :=
  if since ≤ benchVersion ∧ administered then build
  else do
    ensure (gate = zero) (invalid message)
    pure zero

def Evidence.validate (e : Evidence) : Except Failure Unit := do
  ensure (e.schemaVersion = 1 ∧ SupportedBenchVersion e.benchVersion)
    (.unsupportedVersion e.schemaVersion e.benchVersion)
  let want ← Build e.benchVersion e.modelUse.echo e.authoritativeTool.echo
    { profile := e.thresholdProfile, modelUseCoverageBPS := e.modelUse.thresholdBPS,
      authoritativeToolCoverageBPS := e.authoritativeTool.thresholdBPS,
      modelDependenceCoverageBPS := e.modelDependence.thresholdBPS }
    e.rolloutMode (if 12 ≤ e.benchVersion then [e.modelDependence.echo] else [])
  let latency ← rebuildOptional e.benchVersion 12 e.inferenceLatency.administered e.inferenceLatency {}
    (buildInferenceLatency e.inferenceLatency.echo) "inference-latency gate is defined only for bench v12 and later"
  let stuffing ← rebuildOptional e.benchVersion 12 e.answerStuffing.administered e.answerStuffing {}
    (buildAnswerStuffing e.answerStuffing.echo) "answer-stuffing gate is defined only for bench v12 and later"
  let provenance ← rebuildOptional e.benchVersion 13 e.claimProvenance.administered e.claimProvenance {}
    (buildClaimProvenance e.claimProvenance.echo) "claim-provenance gate is defined only for bench v13 and later"
  ensure (e = { want with inferenceLatency := latency, answerStuffing := stuffing, claimProvenance := provenance })
    (invalid "derived evidence does not match trusted inputs")

def AttachInferenceLatency (e : Evidence) (input : InferenceLatencyInput) : Except Failure Evidence := do
  ensure (12 ≤ e.benchVersion) (invalid "inference-latency gate is defined only for bench v12 and later")
  let gate ← buildInferenceLatency input
  let e := { e with inferenceLatency := gate }
  e.validate
  pure e

def AttachAnswerStuffing (e : Evidence) (input : AnswerStuffingInput) : Except Failure Evidence := do
  ensure (12 ≤ e.benchVersion) (invalid "answer-stuffing gate is defined only for bench v12 and later")
  let gate ← buildAnswerStuffing input
  let e := { e with answerStuffing := gate }
  e.validate
  pure e

def AttachClaimProvenance (e : Evidence) (input : ClaimProvenanceInput) : Except Failure Evidence := do
  ensure (13 ≤ e.benchVersion) (invalid "claim-provenance gate is defined only for bench v13 and later")
  let gate ← buildClaimProvenance input
  let e := { e with claimProvenance := gate }
  e.validate
  pure e

/-- The product of the gate factors, in basis points. -/
def Evidence.combinedFactor (e : Evidence) : ℤ :=
  if e.modelUse.factorBPS = 0 ∨ e.authoritativeTool.factorBPS = 0 then 0
  else if 12 ≤ e.benchVersion ∧ e.modelDependence.factorBPS = 0 then 0
  else
    let combined := BasisPointScale
    let combined := if 12 ≤ e.benchVersion ∧ e.inferenceLatency.administered then
      (combined * e.inferenceLatency.factorBPS).tdiv BasisPointScale else combined
    let combined := if 12 ≤ e.benchVersion ∧ e.answerStuffing.administered then
      (combined * e.answerStuffing.factorBPS).tdiv BasisPointScale else combined
    if 13 ≤ e.benchVersion ∧ e.claimProvenance.administered then
      (combined * e.claimProvenance.factorBPS).tdiv BasisPointScale else combined

def Evidence.combinedFactorBPS (e : Evidence) : Except Failure ℤ := do
  e.validate
  pure e.combinedFactor

/-! ## Canonical bytes -/

def ModelUseEvidence.fields (e : ModelUseEvidence) : List (String × Bytes) :=
  [("model.administered_cases", num e.administeredCases), ("model.eligible_cases", num e.eligibleCases),
    ("model.successful_inference_cases", num e.successfulInferenceCases),
    ("model.missing_inference_cases", num e.missingInferenceCases),
    ("model.observed_requests", num e.observedRequests), ("model.successful_requests", num e.successfulRequests),
    ("model.prompt_tokens", num e.promptTokens), ("model.completion_tokens", num e.completionTokens),
    ("model.excluded.preflight", num e.excluded.preflight), ("model.excluded.ablation", num e.excluded.ablation),
    ("model.excluded.undelivered", num e.excluded.undelivered),
    ("model.excluded.validator_fault", num e.excluded.validatorFault),
    ("model.case_attribution_complete", flag e.caseAttributionComplete),
    ("model.request_coverage_bps", num e.requestCoverageBPS), ("model.coverage_bps", num e.coverageBPS),
    ("model.threshold_bps", num e.thresholdBPS), ("model.result", text e.result.word),
    ("model.factor_bps", num e.factorBPS)]

def AuthoritativeToolEvidence.fields (e : AuthoritativeToolEvidence) : List (String × Bytes) :=
  [("tool.expected_executions", num e.expectedExecutions), ("tool.matched_executions", num e.matchedExecutions),
    ("tool.missing_executions", num e.missingExecutions), ("tool.unexpected_executions", num e.unexpectedExecutions),
    ("tool.observed_executions", num e.observedExecutions), ("tool.coverage_bps", num e.coverageBPS),
    ("tool.threshold_bps", num e.thresholdBPS), ("tool.result", text e.result.word),
    ("tool.factor_bps", num e.factorBPS)]

def ModelDependenceEvidence.fields (e : ModelDependenceEvidence) : List (String × Bytes) :=
  [("model_dependence.administered_cases", num e.administeredCases),
    ("model_dependence.eligible_cases", num e.eligibleCases),
    ("model_dependence.dependent_cases", num e.dependentCases),
    ("model_dependence.independent_cases", num e.independentCases),
    ("model_dependence.slice_attribution_complete", flag e.sliceAttributionComplete),
    ("model_dependence.dependence_bps", num e.dependenceBPS), ("model_dependence.threshold_bps", num e.thresholdBPS),
    ("model_dependence.result", text e.result.word), ("model_dependence.factor_bps", num e.factorBPS)]

def InferenceLatencyEvidence.fields (e : InferenceLatencyEvidence) : List (String × Bytes) :=
  [("inference_latency.administered_cases", num e.administeredCases),
    ("inference_latency.eligible_cases", num e.eligibleCases),
    ("inference_latency.flagged_cases", num e.flaggedCases),
    ("inference_latency.unflagged_cases", num e.unflaggedCases), ("inference_latency.floor_ms", num e.floorMS),
    ("inference_latency.attribution_complete", flag e.attributionComplete),
    ("inference_latency.posture", text e.posture.word), ("inference_latency.sub_floor_bps", num e.subFloorBPS),
    ("inference_latency.threshold_bps", num e.thresholdBPS), ("inference_latency.result", text e.result.word),
    ("inference_latency.factor_bps", num e.factorBPS)]

def AnswerStuffingEvidence.fields (e : AnswerStuffingEvidence) : List (String × Bytes) :=
  [("answer_stuffing.administered_cases", num e.administeredCases),
    ("answer_stuffing.eligible_cases", num e.eligibleCases), ("answer_stuffing.stuffed_cases", num e.stuffedCases),
    ("answer_stuffing.clean_cases", num e.cleanCases),
    ("answer_stuffing.attribution_complete", flag e.attributionComplete),
    ("answer_stuffing.review_required", flag e.reviewRequired), ("answer_stuffing.posture", text e.posture.word),
    ("answer_stuffing.stuffed_bps", num e.stuffedBPS), ("answer_stuffing.threshold_bps", num e.thresholdBPS),
    ("answer_stuffing.min_cases", num e.minCases),
    ("answer_stuffing.loose_eligible_cases", num e.looseEligibleCases),
    ("answer_stuffing.loose_stuffed_cases", num e.looseStuffedCases),
    ("answer_stuffing.loose_stuffed_bps", num e.looseStuffedBPS),
    ("answer_stuffing.review_share_threshold_bps", num e.reviewShareThresholdBPS),
    ("answer_stuffing.result", text e.result.word), ("answer_stuffing.factor_bps", num e.factorBPS)]

def ClaimProvenanceEvidence.fields (e : ClaimProvenanceEvidence) : List (String × Bytes) :=
  [("claim_provenance.administered_cases", num e.administeredCases),
    ("claim_provenance.eligible_cases", num e.eligibleCases),
    ("claim_provenance.not_model_emitted_cases", num e.notModelEmittedCases),
    ("claim_provenance.answer_in_prompt_cases", num e.answerInPromptCases),
    ("claim_provenance.flagged_cases", num e.flaggedCases),
    ("claim_provenance.unattributed_call_cases", num e.unattributedCallCases),
    ("claim_provenance.unsettled_cases", num e.unsettledCases), ("claim_provenance.zeroed_cases", num e.zeroedCases),
    ("claim_provenance.attribution_complete", flag e.attributionComplete),
    ("claim_provenance.posture", text e.posture.word), ("claim_provenance.flagged_bps", num e.flaggedBPS),
    ("claim_provenance.result", text e.result.word), ("claim_provenance.factor_bps", num e.factorBPS)]

/-- The lines of an evidence, in order: the optional gates only when they were administered. -/
def Evidence.fields (e : Evidence) : List (String × Bytes) :=
  [("schema_version", num e.schemaVersion), ("bench_version", num e.benchVersion),
    ("rollout_mode", text e.rolloutMode.word), ("threshold_profile.id", e.thresholdProfile.id),
    ("threshold_profile.manifest_sha256", e.thresholdProfile.manifestSHA256)] ++
  e.modelUse.fields ++ e.authoritativeTool.fields ++
  (if 12 ≤ e.benchVersion then e.modelDependence.fields else []) ++
  (if 12 ≤ e.benchVersion ∧ e.inferenceLatency.administered then e.inferenceLatency.fields else []) ++
  (if 12 ≤ e.benchVersion ∧ e.answerStuffing.administered then e.answerStuffing.fields else []) ++
  (if 13 ≤ e.benchVersion ∧ e.claimProvenance.administered then e.claimProvenance.fields else [])

def Evidence.encode (e : Evidence) : Bytes := text "ditto-score-gates-v1\n" ++ render e.fields

def Evidence.canonicalBytes (e : Evidence) : Except Failure Bytes := do
  e.validate
  pure e.encode

/-- The digest of an evidence in hexadecimal, for a hash function `sha`. -/
def Evidence.digestHex (sha : Bytes → Bytes) (e : Evidence) : Except Failure Bytes := do
  let bytes ← e.canonicalBytes
  pure (sha bytes)

end DittoSubnet.Bench

import DittoSubnet.Bench.ScoreGates
import DittoSubnet.Kit.Arith

/-!
# The signed root of a score

`services/dittobench-api/internal/v9base`: the ordinary score of a run, its gate evidence and the effective score after
the gates, bound into one root (`V9BaseDetails`). `BuildGateEvidence` counts a run's cases into gate evidence,
`buildBase` assembles the root, `validateWithoutDigestRecursion` derives it again before `V9BaseDetails.canonicalBytes`
encodes it.

The wire records of `protocol.V9BaseDetails` have the fields of the scorer's own, so both are one type here. Scores are
numbers of a type `F` with the operations of `Arithmetic`, and the hash is a parameter (`Sha256`).
-/

namespace DittoSubnet.Bench

open Kit

/-! ## Contract -/

def ContractRevision : String := "v9-base-enforce-efficiency-v1"

def ContractManifest : String :=
  "\x7b\"schema_version\":1,\"revision\":\"v9-base-enforce-efficiency-v1\",\"bench_version\":9," ++
  "\"rollout_mode\":\"enforce\",\"model_use_coverage_bps\":1,\"authoritative_tool_coverage_bps\":1\x7d"

def ContractManifestSHA256 : String := "861d161cd031d5c40a4c50f0ae0c3d4a4f99a8513ff7fc87239f22104ebe3bb8"

def MicrosScale : ℤ := 1000000

def ModelDependenceCoverageBPS : ℤ := 1

def ContractThresholds : Thresholds where
  profile := { id := text ContractRevision, manifestSHA256 := text ContractManifestSHA256 }
  modelUseCoverageBPS := 1
  authoritativeToolCoverageBPS := 1

/-- The hash function in hexadecimal: digests are well formed, and the compiled contract has its checksum. -/
structure Sha256 where
  hash : Bytes → Bytes
  valid : ∀ b, validSHA256 (hash b)
  manifest : hash (text ContractManifest) = text ContractManifestSHA256

/-! ## Counting the cases of a run -/

/-- What the gates read of a case's score. -/
structure CaseScore where
  caseID : String
  validatorFault : Bool := false
  undelivered : Bool := false
  observed : Bool := false
  expected : List String := []
  called : List String := []

structure AggregateModelTelemetry where
  observedRequests : ℕ
  successfulRequests : ℕ
  promptTokens : ℕ
  completionTokens : ℕ
  telemetryComplete : Bool
  distinctCaseAttributionComplete : Bool
  successfulDistinctCases : ℤ

structure ModelDependenceTelemetry where
  eligibleCases : ℤ := 0
  dependentCases : ℤ := 0
  telemetryComplete : Bool := false
  sliceAttributionComplete : Bool := false

def modelRoutePreflightCaseID : String := "__dittobench_model_route_preflight__"

def isPreflight (caseID : String) : Bool := "preflight:".isPrefixOf caseID || caseID == modelRoutePreflightCaseID

def isAblation (caseID : String) : Bool :=
  "ablation:".isPrefixOf caseID || "__dittobench_ablation_".isPrefixOf caseID

/-- The called tools that match an expected one still open, and the others. -/
def matchTools : List String → List String → ℤ × ℤ
  | _, [] => (0, 0)
  | remaining, name :: called =>
    if name ∈ remaining then
      let rest := matchTools (remaining.erase name) called
      (rest.1 + 1, rest.2)
    else
      let rest := matchTools remaining called
      (rest.1, rest.2 + 1)

/-- `(expectedN, matched, unexpected)`. -/
def observedToolCounts (expected called : List String) : ℤ × ℤ × ℤ :=
  (expected.length, matchTools expected called)

/-- One turn of the loop over the cases. -/
def countCase (acc : ModelUseInput × AuthoritativeToolInput) (item : CaseScore) :
    ModelUseInput × AuthoritativeToolInput :=
  let (model, tool) := acc
  if isPreflight item.caseID then
    ({ model with excluded := { model.excluded with preflight := model.excluded.preflight + 1 } }, tool)
  else if isAblation item.caseID then
    ({ model with excluded := { model.excluded with ablation := model.excluded.ablation + 1 } }, tool)
  else if item.validatorFault then
    ({ model with excluded := { model.excluded with validatorFault := model.excluded.validatorFault + 1 } }, tool)
  else if item.undelivered then
    ({ model with excluded := { model.excluded with undelivered := model.excluded.undelivered + 1 } }, tool)
  else
    -- a trajectory counts only when the scorer observed it
    let (expected, matched, unexpected) := observedToolCounts item.expected (if item.observed then item.called else [])
    ({ model with eligibleCases := model.eligibleCases + 1 },
      { tool with expectedExecutions := tool.expectedExecutions + expected,
                  matchedExecutions := tool.matchedExecutions + matched,
                  unexpectedExecutions := tool.unexpectedExecutions + unexpected })

def dependenceGateInputs (benchVersion administeredCases : ℤ) (dependence : List ModelDependenceTelemetry) :
    Except Failure (List ModelDependenceInput × ℤ) :=
  if benchVersion < 12 then do
    ensure (dependence.length = 0) (.invalidBase "model-dependence telemetry is defined only for bench v12 and later")
    pure ([], 0)
  else do
    ensure (dependence.length ≤ 1) (.invalidBase "at most one model-dependence telemetry aggregate is permitted")
    let telemetry : ModelDependenceTelemetry := dependence.head?.getD {}
    pure ([{ administeredCases := administeredCases, eligibleCases := telemetry.eligibleCases,
             dependentCases := telemetry.dependentCases, telemetryComplete := telemetry.telemetryComplete,
             sliceAttributionComplete := telemetry.sliceAttributionComplete }], ModelDependenceCoverageBPS)

def BuildGateEvidence (benchVersion : ℤ) (perCase : List CaseScore) (model : AggregateModelTelemetry)
    (toolTelemetryComplete : Bool) (dependence : List ModelDependenceTelemetry) : Except Failure Evidence := do
  let counted := perCase.foldl countCase
    ({ administeredCases := perCase.length, observedRequests := model.observedRequests,
       successfulRequests := model.successfulRequests, promptTokens := model.promptTokens,
       completionTokens := model.completionTokens, telemetryComplete := model.telemetryComplete,
       caseAttributionComplete := model.distinctCaseAttributionComplete,
       successfulInferenceCases := model.successfulDistinctCases },
      { telemetryComplete := toolTelemetryComplete })
  ensure (¬ (model.distinctCaseAttributionComplete ∧ counted.1.eligibleCases < model.successfulDistinctCases))
    (.invalidBase "successful distinct inference cases exceed eligible population")
  let (inputs, threshold) ← dependenceGateInputs benchVersion perCase.length dependence
  Build benchVersion counted.1 counted.2 { ContractThresholds with modelDependenceCoverageBPS := threshold } .enforce
    inputs

/-! ## Scores -/

/-- The arithmetic of scores. -/
structure Arithmetic (F : Type) where
  /-- Finite and in `[0,1]`. -/
  inUnit : F → Bool
  zero : F
  /-- `value * (float64(factor) / float64(BasisPointScale))`. -/
  scale : F → ℤ → F
  /-- `math.Round(value * float64(MicrosScale))`. -/
  scoreMicros : F → ℤ
  /-- `float64(micros) / float64(MicrosScale)`. -/
  ofMicros : ℤ → F

section Exact

variable (K : Type) [Field K] [LinearOrder K] [FloorRing K]

/-- `math.Round`: to the nearest integer, halves away from zero. -/
def roundAway (x : K) : ℤ := if x < 0 then -⌊-x + 1 / 2⌋ else ⌊x + 1 / 2⌋

/-- Exact arithmetic. -/
def exactArithmetic : Arithmetic K where
  inUnit x := decide (0 ≤ x ∧ x ≤ 1)
  zero := 0
  scale x factor := x * (factor / BasisPointScale)
  scoreMicros x := roundAway K (x * MicrosScale)
  ofMicros micros := micros / MicrosScale

end Exact

structure Score (F : Type) where
  composite : F
  compositeStderr : F
  deriving DecidableEq

variable {F : Type}

def validateScore (arith : Arithmetic F) (score : Score F) : Except Failure Unit := do
  ensure (arith.inUnit score.composite) (invalid "composite must be finite and in [0,1]")
  ensure (arith.inUnit score.compositeStderr) (invalid "composite_stderr must be finite and in [0,1]")

def ApplyForVersion (arith : Arithmetic F) (benchVersion : ℤ) (score : Score F) (evidence : Option Evidence) :
    Except Failure (Score F) := do
  validateScore arith score
  if benchVersion < 9 then do
    ensure (evidence = none) (invalid "pre-v9 score must not include v9 gate evidence")
    pure score
  else do
    ensure (SupportedBenchVersion benchVersion) (.unsupportedVersion 1 benchVersion)
    match evidence with
    | none => throw (invalid "v9+ score requires gate evidence")
    | some evidence => do
      ensure (evidence.benchVersion = benchVersion)
        (invalid
          s!"gate evidence bench version {evidence.benchVersion} does not match score bench version {benchVersion}")
      let factor ← evidence.combinedFactorBPS
      if evidence.rolloutMode = .shadow then pure score
      else if factor = 0 then pure { composite := arith.zero, compositeStderr := arith.zero }
      else if BasisPointScale ≤ factor then pure score
      else pure { composite := arith.scale score.composite factor,
                  compositeStderr := arith.scale score.compositeStderr factor }

/-- Rounds half up, in integers. -/
def applyBPS (value factor : ℤ) : ℤ := (value * factor + BasisPointScale.tdiv 2).tdiv BasisPointScale

/-! ## The root -/

structure V9ScoreContractIdentity where
  revision : Bytes
  manifestSHA256 : Bytes
  deriving DecidableEq

structure V9BaseDetails where
  schemaVersion : ℤ
  benchVersion : ℤ
  scoreContract : V9ScoreContractIdentity
  runID : Bytes
  artifactSHA256 : Bytes
  datasetSHA256 : Bytes
  transcriptSHA256 : Bytes
  ordinaryCompositeMicros : ℤ
  ordinaryStderrMicros : ℤ
  scoreGates : Evidence
  scoreGatesSHA256 : Bytes
  semanticGateFactorBPS : ℤ
  appliedGateFactorBPS : ℤ
  effectiveCompositeMicros : ℤ
  effectiveStderrMicros : ℤ
  deriving DecidableEq

/-- `unicode.IsSpace`. -/
def isSpace (c : Char) : Bool :=
  c.toNat ∈ [0x09, 0x0A, 0x0B, 0x0C, 0x0D, 0x20, 0x85, 0xA0, 0x1680, 0x2028, 0x2029, 0x202F, 0x205F, 0x3000] ||
    (0x2000 ≤ c.toNat && c.toNat ≤ 0x200A)

/-- `strings.TrimSpace(value) == ""`. -/
def blank (value : Bytes) : Bool := (runes value).all isSpace

def compiledContract : V9ScoreContractIdentity :=
  { revision := text ContractRevision, manifestSHA256 := text ContractManifestSHA256 }

/-- The gates on the wire: the gates that a version does not have are zero. -/
def toWireEvidence (e : Evidence) : Evidence :=
  { e with
    modelDependence := if e.benchVersion < 12 then {} else e.modelDependence
    inferenceLatency := if e.benchVersion < 12 then {} else e.inferenceLatency
    answerStuffing := if e.benchVersion < 12 then {} else e.answerStuffing
    claimProvenance := if e.benchVersion < 13 then {} else e.claimProvenance }

def fromWireEvidence (e : Evidence) : Except Failure Evidence := do
  e.validate
  pure e

def V9BaseDetails.validateWithoutDigestRecursion (sha : Sha256) (d : V9BaseDetails) : Except Failure Unit := do
  ensure (d.schemaVersion = 1 ∧ SupportedBenchVersion d.benchVersion)
    (.invalidBase "unsupported schema or bench version")
  ensure (d.scoreContract = compiledContract) (.invalidBase "score contract identity mismatch")
  ensure (blank d.runID = false ∧ d.runID.length ≤ 256) (.invalidBase "run_id is required and bounded")
  ensure (validSHA256 d.artifactSHA256) (.invalidBase "artifact_sha256 is invalid")
  ensure (validSHA256 d.datasetSHA256) (.invalidBase "dataset_sha256 is invalid")
  ensure (validSHA256 d.transcriptSHA256) (.invalidBase "transcript_sha256 is invalid")
  ensure (validSHA256 d.scoreGatesSHA256) (.invalidBase "score_gates_sha256 is invalid")
  ensure (0 ≤ d.ordinaryCompositeMicros ∧ d.ordinaryCompositeMicros ≤ MicrosScale)
    (.invalidBase "ordinary_composite_micros is outside [0,1000000]")
  ensure (0 ≤ d.ordinaryStderrMicros ∧ d.ordinaryStderrMicros ≤ MicrosScale)
    (.invalidBase "ordinary_stderr_micros is outside [0,1000000]")
  ensure (0 ≤ d.effectiveCompositeMicros ∧ d.effectiveCompositeMicros ≤ MicrosScale)
    (.invalidBase "effective_composite_micros is outside [0,1000000]")
  ensure (0 ≤ d.effectiveStderrMicros ∧ d.effectiveStderrMicros ≤ MicrosScale)
    (.invalidBase "effective_stderr_micros is outside [0,1000000]")
  let gates ← fromWireEvidence d.scoreGates
  ensure (gates.digestHex sha.hash = .ok d.scoreGatesSHA256) (.invalidBase "score_gates_sha256 mismatch")
  ensure (gates.combinedFactorBPS = .ok d.semanticGateFactorBPS) (.invalidBase "semantic gate factor mismatch")
  let applied := if gates.rolloutMode = .shadow then BasisPointScale else d.semanticGateFactorBPS
  ensure (d.appliedGateFactorBPS = applied) (.invalidBase "applied gate factor mismatch")
  ensure (d.effectiveCompositeMicros = applyBPS d.ordinaryCompositeMicros applied ∧
      d.effectiveStderrMicros = applyBPS d.ordinaryStderrMicros applied)
    (.invalidBase "effective score does not match ordinary score and applied factor")

/-- The lines of the root before the run id. -/
def V9BaseDetails.headFields (d : V9BaseDetails) : List (String × Bytes) :=
  [("schema_version", num d.schemaVersion), ("bench_version", num d.benchVersion),
    ("score_contract.revision", d.scoreContract.revision),
    ("score_contract.manifest_sha256", d.scoreContract.manifestSHA256)]

/-- The lines of the root after the run id. -/
def V9BaseDetails.tailFields (d : V9BaseDetails) : List (String × Bytes) :=
  [("artifact_sha256", d.artifactSHA256), ("dataset_sha256", d.datasetSHA256),
    ("transcript_sha256", d.transcriptSHA256), ("ordinary_composite_micros", num d.ordinaryCompositeMicros),
    ("ordinary_stderr_micros", num d.ordinaryStderrMicros), ("score_gates_sha256", d.scoreGatesSHA256),
    ("semantic_gate_factor_bps", num d.semanticGateFactorBPS),
    ("applied_gate_factor_bps", num d.appliedGateFactorBPS),
    ("effective_composite_micros", num d.effectiveCompositeMicros),
    ("effective_stderr_micros", num d.effectiveStderrMicros)]

def V9BaseDetails.encode (d : V9BaseDetails) : Bytes :=
  text "ditto-v9-base-v1\n" ++ render d.headFields ++ line ("run_id", d.runID) ++ render d.tailFields

def V9BaseDetails.canonicalBytes (sha : Sha256) (d : V9BaseDetails) : Except Failure Bytes := do
  d.validateWithoutDigestRecursion sha
  pure d.encode

def V9BaseDetails.digestHex (sha : Sha256) (d : V9BaseDetails) : Except Failure Bytes := do
  let body ← d.canonicalBytes sha
  pure (sha.hash body)

structure Inputs (F : Type) where
  runID : Bytes
  benchVersion : ℤ
  artifactSHA256 : Bytes
  datasetSHA256 : Bytes
  transcriptSHA256 : Bytes
  ordinary : Score F
  gates : Evidence

/-- `v9base.Build`: the root, its digest and the effective score. -/
def buildBase (sha : Sha256) (arith : Arithmetic F) (input : Inputs F) :
    Except Failure (V9BaseDetails × Bytes × Score F) := do
  ensure (sha.hash (text ContractManifest) = text ContractManifestSHA256)
    (.invalidBase "compiled score contract checksum mismatch")
  ensure (blank input.runID = false ∧ input.runID.length ≤ 256) (.invalidBase "run_id is required and bounded")
  ensure (SupportedBenchVersion input.benchVersion) (.invalidBase s!"unsupported bench version {input.benchVersion}")
  ensure (validSHA256 input.artifactSHA256) (.invalidBase "artifact_sha256 is invalid")
  ensure (validSHA256 input.datasetSHA256) (.invalidBase "dataset_sha256 is invalid")
  ensure (validSHA256 input.transcriptSHA256) (.invalidBase "transcript_sha256 is invalid")
  ensure (input.gates.rolloutMode = .enforce ∧ input.gates.thresholdProfile = ContractThresholds.profile)
    (.invalidBase "score gates do not use the compiled contract")
  ensure (input.gates.modelUse.thresholdBPS = ContractThresholds.modelUseCoverageBPS ∧
      input.gates.authoritativeTool.thresholdBPS = ContractThresholds.authoritativeToolCoverageBPS)
    (.invalidBase "score gate thresholds do not use the compiled contract")
  ensure (12 ≤ input.benchVersion → input.gates.modelDependence.thresholdBPS = ModelDependenceCoverageBPS)
    (.invalidBase "model-dependence gate threshold does not use the compiled contract")
  let semantic ← input.gates.combinedFactorBPS
  let effective ← ApplyForVersion arith input.benchVersion input.ordinary (some input.gates)
  let gateDigest ← input.gates.digestHex sha.hash
  let applied := if input.gates.rolloutMode = .shadow then BasisPointScale else semantic
  let details : V9BaseDetails := {
    schemaVersion := 1, benchVersion := input.benchVersion, scoreContract := compiledContract, runID := input.runID,
    artifactSHA256 := input.artifactSHA256, datasetSHA256 := input.datasetSHA256,
    transcriptSHA256 := input.transcriptSHA256,
    ordinaryCompositeMicros := arith.scoreMicros input.ordinary.composite,
    ordinaryStderrMicros := arith.scoreMicros input.ordinary.compositeStderr,
    scoreGates := toWireEvidence input.gates, scoreGatesSHA256 := gateDigest, semanticGateFactorBPS := semantic,
    appliedGateFactorBPS := applied, effectiveCompositeMicros := arith.scoreMicros effective.composite,
    effectiveStderrMicros := arith.scoreMicros effective.compositeStderr }
  let digest ← details.digestHex sha
  pure (details, digest, effective)

/-- `v9base.Validate`. -/
def validateBase (sha : Sha256) (arith : Arithmetic F) (d : V9BaseDetails) : Except Failure Unit := do
  ensure (d.schemaVersion = 1 ∧ SupportedBenchVersion d.benchVersion)
    (.invalidBase "unsupported schema or bench version")
  ensure (d.scoreContract = compiledContract) (.invalidBase "score contract identity mismatch")
  let gates ← fromWireEvidence d.scoreGates
  let rebuilt ← buildBase sha arith {
    runID := d.runID, benchVersion := d.benchVersion, artifactSHA256 := d.artifactSHA256,
    datasetSHA256 := d.datasetSHA256, transcriptSHA256 := d.transcriptSHA256,
    ordinary := { composite := arith.ofMicros d.ordinaryCompositeMicros,
                  compositeStderr := arith.ofMicros d.ordinaryStderrMicros },
    gates := gates }
  ensure (rebuilt.2.1 ≠ [] ∧ rebuilt.1 = d) (.invalidBase "derived v9 base evidence does not match")

end DittoSubnet.Bench

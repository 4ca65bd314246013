import DittoSubnet.Bench.GateAgreement

/-!
# Agreement of scorer and mirror on the signed root

A root that the scorer builds is accepted by the mirror with the same bytes, factors and digest, and a root that the
mirror accepts is accepted by the scorer (`root_agreement`), when the run id is valid UTF-8 and `min_cases` is a 64-bit
number. Without these two conditions it fails (`wide_min_cases_and_foreign_bytes`).
-/

namespace DittoSubnet.Bench

open Kit

variable {F : Type}

/-! ## The wire form of a root -/

/-- A text in JSON: a byte that is no valid UTF-8 becomes `U+FFFD`. -/
def wireText (b : Bytes) : String := String.ofList (runes b)

theorem wireText_text (s : String) : wireText (text s) = s := by
  rw [wireText, runes_text, String.ofList_toList]

/-- What the mirror reads from the JSON form of a root. -/
def V9BaseDetails.mirror (d : V9BaseDetails) : V9BaseEvidence where
  schemaVersion := d.schemaVersion
  benchVersion := d.benchVersion
  scoreContract := d.scoreContract
  runId := wireText d.runID
  artifactSha256 := d.artifactSHA256
  datasetSha256 := d.datasetSHA256
  transcriptSha256 := d.transcriptSHA256
  ordinaryCompositeMicros := d.ordinaryCompositeMicros
  ordinaryStderrMicros := d.ordinaryStderrMicros
  scoreGates := d.scoreGates.mirror
  scoreGatesSha256 := d.scoreGatesSHA256
  semanticGateFactorBps := d.semanticGateFactorBPS
  appliedGateFactorBps := d.appliedGateFactorBPS
  effectiveCompositeMicros := d.effectiveCompositeMicros
  effectiveStderrMicros := d.effectiveStderrMicros

/-- A number that a Go `int` or `int64` holds. -/
def FitsInt64 (n : ℤ) : Prop := -2 ^ 63 ≤ n ∧ n ≤ 2 ^ 63 - 1

instance (n : ℤ) : Decidable (FitsInt64 n) := inferInstanceAs (Decidable (-2 ^ 63 ≤ n ∧ n ≤ 2 ^ 63 - 1))

def V9ModelUseGate.integers (g : V9ModelUseGate) : List ℤ :=
  [g.administeredCases, g.eligibleCases, g.successfulInferenceCases, g.missingInferenceCases, g.observedRequests,
    g.successfulRequests, g.promptTokens, g.completionTokens, g.excluded.preflight, g.excluded.ablation,
    g.excluded.undelivered, g.excluded.validatorFault, g.requestCoverageBPS, g.coverageBPS, g.thresholdBPS, g.factorBPS]

def V9AuthoritativeToolGate.integers (g : V9AuthoritativeToolGate) : List ℤ :=
  [g.expectedExecutions, g.matchedExecutions, g.missingExecutions, g.unexpectedExecutions, g.observedExecutions,
    g.coverageBPS, g.thresholdBPS, g.factorBPS]

def V12ModelDependenceGate.integers (g : V12ModelDependenceGate) : List ℤ :=
  [g.administeredCases, g.eligibleCases, g.dependentCases, g.independentCases, g.dependenceBPS, g.thresholdBPS,
    g.factorBPS]

def V12InferenceLatencyGate.integers (g : V12InferenceLatencyGate) : List ℤ :=
  [g.administeredCases, g.eligibleCases, g.flaggedCases, g.unflaggedCases, g.floorMS, g.subFloorBPS, g.thresholdBPS,
    g.factorBPS]

def V12AnswerStuffingGate.integers (g : V12AnswerStuffingGate) : List ℤ :=
  [g.administeredCases, g.eligibleCases, g.stuffedCases, g.cleanCases, g.stuffedBPS, g.thresholdBPS, g.minCases,
    g.looseEligibleCases, g.looseStuffedCases, g.looseStuffedBPS, g.reviewShareThresholdBPS, g.factorBPS]

def V13ClaimProvenanceGate.integers (g : V13ClaimProvenanceGate) : List ℤ :=
  [g.administeredCases, g.eligibleCases, g.notModelEmittedCases, g.answerInPromptCases, g.flaggedCases,
    g.unattributedCallCases, g.unsettledCases, g.zeroedCases, g.flaggedBPS, g.factorBPS]

/-- The numbers of a root in its JSON form. -/
def V9BaseEvidence.integers (e : V9BaseEvidence) : List ℤ :=
  [e.schemaVersion, e.benchVersion, e.ordinaryCompositeMicros, e.ordinaryStderrMicros, e.semanticGateFactorBps,
    e.appliedGateFactorBps, e.effectiveCompositeMicros, e.effectiveStderrMicros, e.scoreGates.schemaVersion,
    e.scoreGates.benchVersion] ++ V9ModelUseGate.integers e.scoreGates.modelUse ++
  V9AuthoritativeToolGate.integers e.scoreGates.authoritativeTool ++
  (e.scoreGates.modelDependence.map V12ModelDependenceGate.integers).getD [] ++
  (e.scoreGates.inferenceLatency.map V12InferenceLatencyGate.integers).getD [] ++
  (e.scoreGates.answerStuffing.map V12AnswerStuffingGate.integers).getD [] ++
  (e.scoreGates.claimProvenance.map V13ClaimProvenanceGate.integers).getD []

/-- The gates as the scorer reads them: an absent gate is the zero value. -/
def V9ScoreGateEvidence.wire (e : V9ScoreGateEvidence) : Evidence where
  schemaVersion := e.schemaVersion
  benchVersion := e.benchVersion
  rolloutMode := e.rolloutMode
  thresholdProfile := e.thresholdProfile
  modelUse := e.modelUse
  authoritativeTool := e.authoritativeTool
  modelDependence := e.modelDependence.getD {}
  inferenceLatency := e.inferenceLatency.getD {}
  answerStuffing := e.answerStuffing.getD {}
  claimProvenance := e.claimProvenance.getD {}

/-- The root that the scorer decodes from the JSON form of the mirror's: none when a number does not fit. -/
def V9BaseEvidence.decode (e : V9BaseEvidence) : Option V9BaseDetails :=
  if ∀ n ∈ e.integers, FitsInt64 n then
    some {
      schemaVersion := e.schemaVersion, benchVersion := e.benchVersion, scoreContract := e.scoreContract,
      runID := text e.runId, artifactSHA256 := e.artifactSha256, datasetSHA256 := e.datasetSha256,
      transcriptSHA256 := e.transcriptSha256, ordinaryCompositeMicros := e.ordinaryCompositeMicros,
      ordinaryStderrMicros := e.ordinaryStderrMicros, scoreGates := e.scoreGates.wire,
      scoreGatesSHA256 := e.scoreGatesSha256, semanticGateFactorBPS := e.semanticGateFactorBps,
      appliedGateFactorBPS := e.appliedGateFactorBps, effectiveCompositeMicros := e.effectiveCompositeMicros,
      effectiveStderrMicros := e.effectiveStderrMicros }
  else none

/-! ## What the scorer assembles -/

/-- Gate evidence that the scorer can assemble; the flag says whether the provenance gate was attached. -/
inductive Assembled : Bool → Evidence → Prop
  | counted {v : ℤ} {perCase : List CaseScore} {model : AggregateModelTelemetry} {tool : Bool}
      {dependence : List ModelDependenceTelemetry} {e : Evidence}
      (h : BuildGateEvidence v perCase model tool dependence = .ok e) : Assembled false e
  | built {v : ℤ} {model : ModelUseInput} {tool : AuthoritativeToolInput} {thresholds : Thresholds}
      {mode : RolloutMode} {dependence : List ModelDependenceInput} {e : Evidence}
      (h : Build v model tool thresholds mode dependence = .ok e) : Assembled false e
  | latency {attached : Bool} {e e' : Evidence} {input : InferenceLatencyInput} (he : Assembled attached e)
      (h : AttachInferenceLatency e input = .ok e') : Assembled attached e'
  | stuffing {attached : Bool} {e e' : Evidence} {input : AnswerStuffingInput} (he : Assembled attached e)
      (h : AttachAnswerStuffing e input = .ok e') : Assembled attached e'
  | provenance {attached : Bool} {e e' : Evidence} {input : ClaimProvenanceInput} (he : Assembled attached e)
      (h : AttachClaimProvenance e input = .ok e') : Assembled true e'

theorem buildClaimProvenance_administered {input : ClaimProvenanceInput} {g : ClaimProvenanceEvidence}
    (h : buildClaimProvenance input = .ok g) : g.administered := by
  simp only [buildClaimProvenance, check_bind_eq_ok_iff, pure_eq_ok_iff] at h
  obtain ⟨-, -, -, -, -, -, -, -, -, -, rfl⟩ := h
  unfold ClaimProvenanceEvidence.administered
  dsimp only
  split
  · decide
  split
  · decide
  split
  · decide
  · decide

/-- The provenance gate stays attached. -/
theorem Assembled.administered {attached : Bool} {e : Evidence} (he : Assembled attached e) :
    attached = true → e.claimProvenance.administered := by
  induction he with
  | counted h => intro hfalse; cases hfalse
  | built h => intro hfalse; cases hfalse
  | latency _ h ih =>
    simp only [AttachInferenceLatency, check_bind_eq_ok_iff] at h
    obtain ⟨-, h⟩ := h
    obtain ⟨gate, -, h⟩ := bind_eq_ok_iff.mp h
    obtain ⟨-, h⟩ := check_bind_eq_ok_iff.mp h
    rw [pure_eq_ok_iff] at h
    rw [← h]
    exact ih
  | stuffing _ h ih =>
    simp only [AttachAnswerStuffing, check_bind_eq_ok_iff] at h
    obtain ⟨-, h⟩ := h
    obtain ⟨gate, -, h⟩ := bind_eq_ok_iff.mp h
    obtain ⟨-, h⟩ := check_bind_eq_ok_iff.mp h
    rw [pure_eq_ok_iff] at h
    rw [← h]
    exact ih
  | provenance _ h _ =>
    intro _
    simp only [AttachClaimProvenance, check_bind_eq_ok_iff] at h
    obtain ⟨-, h⟩ := h
    obtain ⟨gate, hgate, h⟩ := bind_eq_ok_iff.mp h
    obtain ⟨-, h⟩ := check_bind_eq_ok_iff.mp h
    rw [pure_eq_ok_iff] at h
    rw [← h]
    exact buildClaimProvenance_administered hgate

/-! ## Roots -/

theorem applyBPS_eq {value factor : ℤ} (hv : 0 ≤ value) (hf : 0 ≤ factor ∧ factor ≤ 10000) :
    applyGateFactorMicros value factor = applyBPS value factor := by
  have hnonneg : 0 ≤ value * factor + BasisPointScale.tdiv 2 := add_nonneg (mul_nonneg hv hf.1) (by decide)
  rw [applyBPS, Int.tdiv_eq_ediv_of_nonneg hnonneg]
  unfold applyGateFactorMicros
  rw [show BasisPointScale.tdiv 2 = 5000 from rfl, show BasisPointScale = 10000 from rfl]
  by_cases h0 : factor = 0
  · rw [if_pos h0, h0]
    omega
  by_cases h1 : 10000 ≤ factor
  · have : factor = 10000 := by omega
    rw [if_neg h0, if_pos h1, this]
    omega
  · rw [if_neg h0, if_neg h1]
    rfl

theorem Evidence.combinedFactorBPS_ok {e : Evidence} {f : ℤ} :
    e.combinedFactorBPS = .ok f ↔ e.validate = .ok () ∧ e.combinedFactor = f := by
  rw [Evidence.combinedFactorBPS, check_bind_eq_ok_iff, pure_eq_ok_iff]

theorem Evidence.canonicalBytes_ok {e : Evidence} {b : Bytes} :
    e.canonicalBytes = .ok b ↔ e.validate = .ok () ∧ e.encode = b := by
  rw [Evidence.canonicalBytes, check_bind_eq_ok_iff, pure_eq_ok_iff]

theorem Evidence.digestHex_ok {sha : Bytes → Bytes} {e : Evidence} {b : Bytes} :
    e.digestHex sha = .ok b ↔ e.validate = .ok () ∧ sha e.encode = b := by
  rw [Evidence.digestHex, bind_eq_ok_iff]
  simp only [Evidence.canonicalBytes_ok, pure_eq_ok_iff]
  constructor
  · rintro ⟨_, ⟨hv, rfl⟩, hb⟩
    exact ⟨hv, hb⟩
  · rintro ⟨hv, hb⟩
    exact ⟨_, ⟨hv, rfl⟩, hb⟩

/-- The factor that a rollout mode applies. -/
def appliedFactor (mode : RolloutMode) (semantic : ℤ) : ℤ := if mode = .shadow then 10000 else semantic

theorem appliedFactor_mem {mode : RolloutMode} {semantic : ℤ} (h : 0 ≤ semantic ∧ semantic ≤ 10000) :
    0 ≤ appliedFactor mode semantic ∧ appliedFactor mode semantic ≤ 10000 := by
  unfold appliedFactor
  split
  · decide
  · exact h

/-- A score in micros that is in range. -/
def Micros (n : ℤ) : Prop := 0 ≤ n ∧ n ≤ 1000000

/-- What the scorer checks of a root. -/
structure RootValid (sha : Sha256) (d : V9BaseDetails) : Prop where
  schema : d.schemaVersion = 1
  version : SupportedBenchVersion d.benchVersion
  contract : d.scoreContract = compiledContract
  runID : blank d.runID = false ∧ d.runID.length ≤ 256
  artifact : validSHA256 d.artifactSHA256
  dataset : validSHA256 d.datasetSHA256
  transcript : validSHA256 d.transcriptSHA256
  ordinaryComposite : Micros d.ordinaryCompositeMicros
  ordinaryStderr : Micros d.ordinaryStderrMicros
  effectiveComposite : Micros d.effectiveCompositeMicros
  effectiveStderr : Micros d.effectiveStderrMicros
  gates : d.scoreGates.validate = .ok ()
  digest : d.scoreGatesSHA256 = sha.hash d.scoreGates.encode
  semantic : d.semanticGateFactorBPS = d.scoreGates.combinedFactor
  applied : d.appliedGateFactorBPS = appliedFactor d.scoreGates.rolloutMode d.semanticGateFactorBPS
  composite : d.effectiveCompositeMicros = applyBPS d.ordinaryCompositeMicros d.appliedGateFactorBPS
  stderr : d.effectiveStderrMicros = applyBPS d.ordinaryStderrMicros d.appliedGateFactorBPS

theorem rootValid_iff {sha : Sha256} {d : V9BaseDetails} :
    d.validateWithoutDigestRecursion sha = .ok () ↔ RootValid sha d := by
  simp only [V9BaseDetails.validateWithoutDigestRecursion, fromWireEvidence, check_bind_eq_ok_iff, ensure_eq_ok_iff]
  constructor
  · rintro ⟨⟨hschema, hv⟩, hcontract, hrun, ha, hd, ht, hg, hoc, hos, hec, hes, hrest⟩
    obtain ⟨gates, hgates, hrest⟩ := bind_eq_ok_iff.mp hrest
    obtain ⟨hvalid, hgates⟩ := check_bind_eq_ok_iff.mp hgates
    rw [pure_eq_ok_iff] at hgates
    subst hgates
    simp only [check_bind_eq_ok_iff, ensure_eq_ok_iff] at hrest
    obtain ⟨hdigest, hsemantic, happlied, hcomposite, hstderr⟩ := hrest
    rw [← happlied] at hcomposite hstderr
    exact ⟨hschema, hv, hcontract, hrun, ha, hd, ht, hoc, hos, hec, hes, hvalid,
      (Evidence.digestHex_ok.mp hdigest).2.symm, (Evidence.combinedFactorBPS_ok.mp hsemantic).2.symm, happlied,
        hcomposite, hstderr⟩
  · intro h
    refine ⟨⟨h.schema, h.version⟩, h.contract, h.runID, h.artifact, h.dataset, h.transcript, ?_, h.ordinaryComposite,
      h.ordinaryStderr, h.effectiveComposite, h.effectiveStderr, ?_⟩
    · rw [h.digest]
      exact sha.valid _
    refine bind_eq_ok_iff.mpr ⟨d.scoreGates, check_bind_eq_ok_iff.mpr ⟨h.gates, rfl⟩, ?_⟩
    simp only [check_bind_eq_ok_iff, ensure_eq_ok_iff]
    have happlied := h.applied
    have hcomposite := h.composite
    have hstderr := h.stderr
    rw [happlied] at hcomposite hstderr
    exact ⟨Evidence.digestHex_ok.mpr ⟨h.gates, h.digest.symm⟩,
      Evidence.combinedFactorBPS_ok.mpr ⟨h.gates, h.semantic.symm⟩, happlied, hcomposite, hstderr⟩

/-- A root of one version with its provenance gate, and the wire form of its run id. -/
structure Carried (d : V9BaseDetails) : Prop where
  version : d.benchVersion = d.scoreGates.benchVersion
  provenance : 13 ≤ d.scoreGates.benchVersion → d.scoreGates.claimProvenance.administered
  runID : text (wireText d.runID) = d.runID

theorem mirror_encode {d : V9BaseDetails} (hrun : text (wireText d.runID) = d.runID) :
    d.mirror.canonicalBytes = d.encode := by
  simp only [V9BaseEvidence.canonicalBytes, V9BaseDetails.encode, V9BaseDetails.mirror, hrun, V9BaseDetails.headFields,
    V9BaseDetails.tailFields, render, List.flatMap_cons, List.flatMap_nil, List.append_nil, List.append_assoc]

theorem mirror_gates_encode {e : Evidence} (h : e.validate = .ok ()) : e.mirror.canonicalBytes = e.encode := by
  rw [V9ScoreGateEvidence.canonicalBytes, mirror_fields h, Evidence.encode]

/-- What the mirror checks of a root. -/
structure MirrorValid (sha : Sha256) (e : V9BaseEvidence) : Prop where
  schema : e.schemaVersion = 1
  version : SupportedBenchVersion e.benchVersion
  revision : profileIDPattern e.scoreContract.revision = true
  manifest : validSHA256 e.scoreContract.manifestSHA256
  runId : 1 ≤ e.runId.length
  artifact : validSHA256 e.artifactSha256
  dataset : validSHA256 e.datasetSha256
  transcript : validSHA256 e.transcriptSha256
  ordinaryComposite : Micros e.ordinaryCompositeMicros
  ordinaryStderr : Micros e.ordinaryStderrMicros
  gates : e.scoreGates.validate = .ok ()
  semanticMem : 0 ≤ e.semanticGateFactorBps ∧ e.semanticGateFactorBps ≤ 10000
  appliedMem : 0 ≤ e.appliedGateFactorBps ∧ e.appliedGateFactorBps ≤ 10000
  effectiveComposite : Micros e.effectiveCompositeMicros
  effectiveStderr : Micros e.effectiveStderrMicros
  oneVersion : e.benchVersion = e.scoreGates.benchVersion
  digest : e.scoreGatesSha256 = sha.hash e.scoreGates.canonicalBytes
  semantic : e.semanticGateFactorBps = e.scoreGates.combinedFactorBps
  applied : e.appliedGateFactorBps = appliedFactor e.scoreGates.rolloutMode e.semanticGateFactorBps
  composite : e.effectiveCompositeMicros = applyGateFactorMicros e.ordinaryCompositeMicros e.appliedGateFactorBps
  stderr : e.effectiveStderrMicros = applyGateFactorMicros e.ordinaryStderrMicros e.appliedGateFactorBps

theorem mirrorValid_iff {sha : Sha256} {e : V9BaseEvidence} : e.validate sha = .ok () ↔ MirrorValid sha e := by
  simp only [V9BaseEvidence.validate, fieldIn, fieldShare, check_bind_eq_ok_iff, ensure_eq_ok_iff,
    evidenceBenchVersions_iff, ← validSHA256_iff]
  constructor
  · rintro ⟨h1, h2, h3, h4, h5, h6, h7, h8, h9, h10, h11, -, h13, h14, h15, h16, h17, h18, hsemantic, happlied,
      hcomposite, hstderr⟩
    rw [← hsemantic] at happlied hcomposite hstderr
    rw [← happlied] at hcomposite hstderr
    exact ⟨h1, h2, h3, h4, h5, h6, h7, h8, h9, h10, h11, h13, h14, h15, h16, h17, h18, hsemantic, happlied, hcomposite,
      hstderr⟩
  · intro h
    have happlied := h.applied
    have hcomposite := h.composite
    have hstderr := h.stderr
    rw [happlied, h.semantic] at hcomposite hstderr
    rw [h.semantic] at happlied
    refine ⟨h.schema, h.version, h.revision, h.manifest, h.runId, h.artifact, h.dataset, h.transcript,
      h.ordinaryComposite, h.ordinaryStderr, h.gates, ?_, h.semanticMem, h.appliedMem, h.effectiveComposite,
      h.effectiveStderr, h.oneVersion, h.digest, h.semantic, happlied, hcomposite, hstderr⟩
    rw [h.digest]
    exact sha.valid _

/-- The mirror accepts the wire form of a root that the scorer accepts. -/
theorem mirror_root {sha : Sha256} {d : V9BaseDetails} (h : RootValid sha d) (hc : Carried d) :
    d.mirror.validate sha = .ok () := by
  have hgates := (mirror_validate (e := d.scoreGates)).mp ⟨h.gates, hc.provenance⟩
  have hsemantic := h.semantic
  have hmem : 0 ≤ d.semanticGateFactorBPS ∧ d.semanticGateFactorBPS ≤ 10000 := by
    rw [hsemantic]
    exact Evidence.combinedFactor_mem h.gates
  have happlied : 0 ≤ d.appliedGateFactorBPS ∧ d.appliedGateFactorBPS ≤ 10000 := by
    rw [h.applied]
    exact appliedFactor_mem hmem
  have hrun : 1 ≤ (wireText d.runID).length := by
    by_contra hlt
    have hempty : wireText d.runID = "" := String.length_eq_zero_iff.mp (by omega)
    have hnil : d.runID = [] := by
      rw [← hc.runID, hempty]
      rfl
    have := h.runID.1
    rw [hnil] at this
    exact absurd this (by decide)
  refine mirrorValid_iff.mpr ⟨h.schema, h.version, ?_, ?_, hrun, h.artifact, h.dataset, h.transcript,
    h.ordinaryComposite, h.ordinaryStderr, hgates.1, hmem, happlied, h.effectiveComposite, h.effectiveStderr,
    hc.version, ?_, ?_, h.applied, ?_, ?_⟩
  · change profileIDPattern d.scoreContract.revision = true
    rw [h.contract]
    decide
  · change validSHA256 d.scoreContract.manifestSHA256
    rw [h.contract]
    decide
  · change d.scoreGatesSHA256 = sha.hash d.scoreGates.mirror.canonicalBytes
    rw [h.digest, mirror_gates_encode h.gates]
  · change d.semanticGateFactorBPS = d.scoreGates.mirror.combinedFactorBps
    rw [hsemantic, mirror_combinedFactor h.gates]
  · change d.effectiveCompositeMicros = applyGateFactorMicros d.ordinaryCompositeMicros d.appliedGateFactorBPS
    rw [applyBPS_eq h.ordinaryComposite.1 happlied]
    exact h.composite
  · change d.effectiveStderrMicros = applyGateFactorMicros d.ordinaryStderrMicros d.appliedGateFactorBPS
    rw [applyBPS_eq h.ordinaryStderr.1 happlied]
    exact h.stderr

/-- A gate that the mirror accepts is not omitted. -/
theorem present_getD {γ : Type} [DecidableEq γ] {z : γ} {validate : γ → Except String Unit} {gate : Option γ}
    (hzero : validate z ≠ .ok ()) (h : validateOptional validate gate = .ok ()) : present z (gate.getD z) = gate := by
  cases gate with
  | none => exact present_zero
  | some g =>
    rw [Option.getD_some]
    apply present_of_ne
    rintro rfl
    exact hzero h

theorem wire_mirror {e : V9ScoreGateEvidence} (h : e.validate = .ok ()) : e.wire.mirror = e := by
  simp only [V9ScoreGateEvidence.validate, check_bind_eq_ok_iff, ensure_eq_ok_iff] at h
  obtain ⟨-, -, -, -, -, -, -, hdep, hlat, hstuff, hclaim, -⟩ := h
  have h1 := present_getD (z := {}) (by decide) hdep
  have h2 := present_getD (z := {}) (by decide) hlat
  have h3 := present_getD (z := {}) (by decide) hstuff
  have h4 := present_getD (z := {}) (by decide) hclaim
  simp only [Evidence.mirror, V9ScoreGateEvidence.wire, h1, h2, h3, h4]

/-! ## Numbers that fit -/

theorem modelUse_fits {g : V9ModelUseGate} (h : V9ModelUseGate.validate g = .ok ()) :
    ∀ n ∈ V9ModelUseGate.integers g, FitsInt64 n := by
  simp only [V9ModelUseGate.validate, fieldCount, fieldUsage, fieldShare, fieldIn, check_bind_eq_ok_iff,
    ensure_eq_ok_iff] at h
  obtain ⟨h1, h2, h3, h4, h5, h6, h7, h8, h9, h10, h11, h12, h13, h14, h15, -, h17, -⟩ := h
  simp only [V9ModelUseGate.integers, List.forall_mem_cons, FitsInt64, List.not_mem_nil, IsEmpty.forall_iff,
    implies_true, and_true]
  omega

theorem authoritativeTool_fits {g : V9AuthoritativeToolGate} (h : V9AuthoritativeToolGate.validate g = .ok ()) :
    ∀ n ∈ V9AuthoritativeToolGate.integers g, FitsInt64 n := by
  simp only [V9AuthoritativeToolGate.validate, fieldCount, fieldShare, fieldIn, check_bind_eq_ok_iff,
    ensure_eq_ok_iff] at h
  obtain ⟨h1, h2, h3, h4, h5, h6, h7, -, h9, -⟩ := h
  simp only [V9AuthoritativeToolGate.integers, List.forall_mem_cons, FitsInt64, List.not_mem_nil, IsEmpty.forall_iff,
    implies_true, and_true]
  omega

theorem modelDependence_fits {g : V12ModelDependenceGate} (h : V12ModelDependenceGate.validate g = .ok ()) :
    ∀ n ∈ V12ModelDependenceGate.integers g, FitsInt64 n := by
  simp only [V12ModelDependenceGate.validate, fieldCount, fieldShare, fieldIn, check_bind_eq_ok_iff,
    ensure_eq_ok_iff] at h
  obtain ⟨h1, h2, h3, h4, h5, h6, -, h8, -⟩ := h
  simp only [V12ModelDependenceGate.integers, List.forall_mem_cons, FitsInt64, List.not_mem_nil, IsEmpty.forall_iff,
    implies_true, and_true]
  omega

theorem inferenceLatency_fits {g : V12InferenceLatencyGate} (h : V12InferenceLatencyGate.validate g = .ok ())
    (hfloor : g.floorMS ≤ 60000) : ∀ n ∈ V12InferenceLatencyGate.integers g, FitsInt64 n := by
  simp only [V12InferenceLatencyGate.validate, fieldCount, fieldShare, fieldIn, check_bind_eq_ok_iff,
    ensure_eq_ok_iff] at h
  obtain ⟨h1, h2, h3, h4, h5, -, h7, h8, -, h10, -⟩ := h
  simp only [V12InferenceLatencyGate.integers, List.forall_mem_cons, FitsInt64, List.not_mem_nil, IsEmpty.forall_iff,
    implies_true, and_true]
  omega

theorem answerStuffing_fits {g : V12AnswerStuffingGate} (h : V12AnswerStuffingGate.validate g = .ok ())
    (hmin : g.minCases ≤ 2 ^ 63 - 1) : ∀ n ∈ V12AnswerStuffingGate.integers g, FitsInt64 n := by
  simp only [V12AnswerStuffingGate.validate, fieldCount, fieldShare, fieldIn, check_bind_eq_ok_iff,
    ensure_eq_ok_iff] at h
  obtain ⟨h1, h2, h3, h4, -, h6, h7, h8, h9, h10, h11, h12, -, h14, -⟩ := h
  simp only [V12AnswerStuffingGate.integers, List.forall_mem_cons, FitsInt64, List.not_mem_nil, IsEmpty.forall_iff,
    implies_true, and_true]
  omega

theorem claimProvenance_fits {g : V13ClaimProvenanceGate} (h : V13ClaimProvenanceGate.validate g = .ok ()) :
    ∀ n ∈ V13ClaimProvenanceGate.integers g, FitsInt64 n := by
  simp only [V13ClaimProvenanceGate.validate, fieldCount, fieldShare, fieldIn, check_bind_eq_ok_iff,
    ensure_eq_ok_iff] at h
  obtain ⟨h1, h2, h3, h4, h5, h6, h7, h8, -, h10, -, h12, -⟩ := h
  simp only [V13ClaimProvenanceGate.integers, List.forall_mem_cons, FitsInt64, List.not_mem_nil, IsEmpty.forall_iff,
    implies_true, and_true]
  omega

/-- The numbers of an optional gate. -/
theorem optional_fits {γ : Type} {validate : γ → Except String Unit} {integers : γ → List ℤ} {gate : Option γ}
    {P : γ → Prop} (hfits : ∀ g, validate g = .ok () → P g → ∀ n ∈ integers g, FitsInt64 n)
    (h : validateOptional validate gate = .ok ()) (hP : ∀ g, gate = some g → P g) :
    ∀ n ∈ (gate.map integers).getD [], FitsInt64 n := by
  cases gate with
  | none => intro n hn; exact absurd hn List.not_mem_nil
  | some g => exact hfits g h (hP g rfl)

/-- What the scorer asks of a root beyond the mirror: the compiled contract, a run id that is bounded and not blank, and
the two numbers that the mirror does not bound. -/
structure ScorerReads (e : V9BaseEvidence) : Prop where
  contract : e.scoreContract = compiledContract
  runId : blank (text e.runId) = false ∧ (text e.runId).length ≤ 256
  floor : ∀ g, e.scoreGates.inferenceLatency = some g → g.floorMS ≤ 60000
  minCases : ∀ g, e.scoreGates.answerStuffing = some g → g.minCases ≤ 2 ^ 63 - 1

theorem integers_fit {sha : Sha256} {e : V9BaseEvidence} (h : MirrorValid sha e) (hreads : ScorerReads e) :
    ∀ n ∈ e.integers, FitsInt64 n := by
  have hgates := h.gates
  simp only [V9ScoreGateEvidence.validate, check_bind_eq_ok_iff, ensure_eq_ok_iff] at hgates
  obtain ⟨hschema, -, -, -, -, hmodel, htool, hdep, hlat, hstuff, hclaim, -⟩ := hgates
  have hversion := supported_iff.mp h.version
  have hv := h.oneVersion
  have hs := h.schema
  have h1 := h.ordinaryComposite
  have h2 := h.ordinaryStderr
  have h3 := h.effectiveComposite
  have h4 := h.effectiveStderr
  have h5 := h.semanticMem
  have h6 := h.appliedMem
  simp only [V9BaseEvidence.integers, List.forall_mem_append]
  refine ⟨⟨⟨⟨⟨⟨?_, modelUse_fits hmodel⟩, authoritativeTool_fits htool⟩, ?_⟩, ?_⟩, ?_⟩, ?_⟩
  · simp only [Micros] at h1 h2 h3 h4
    simp only [List.forall_mem_cons, FitsInt64, List.not_mem_nil, IsEmpty.forall_iff, implies_true, and_true]
    omega
  · exact optional_fits (P := fun _ => True) (fun g hg _ => modelDependence_fits hg) hdep fun _ _ => trivial
  · exact optional_fits (fun g hg hfloor => inferenceLatency_fits hg hfloor) hlat hreads.floor
  · exact optional_fits (fun g hg hmin => answerStuffing_fits hg hmin) hstuff hreads.minCases
  · exact optional_fits (P := fun _ => True) (fun g hg _ => claimProvenance_fits hg) hclaim fun _ _ => trivial

/-- The scorer accepts a root that the mirror accepts. -/
theorem decode_root {sha : Sha256} {e : V9BaseEvidence} (h : MirrorValid sha e) (hreads : ScorerReads e) :
    ∃ d, e.decode = some d ∧ RootValid sha d ∧ Carried d ∧ d.mirror = e := by
  have hwire := wire_mirror h.gates
  have hfloor : e.scoreGates.wire.mirror.inferenceLatency ≠ none →
      e.scoreGates.wire.inferenceLatency.floorMS ≤ 60000 := by
    rw [hwire]
    intro hne
    obtain ⟨g, hg⟩ := Option.ne_none_iff_exists'.mp hne
    have hget : e.scoreGates.wire.inferenceLatency = g := by
      simp only [V9ScoreGateEvidence.wire, hg, Option.getD_some]
    rw [hget]
    exact hreads.floor g hg
  have hvalid := mirror_validate.mpr ⟨hwire.symm ▸ h.gates, hfloor⟩
  refine ⟨_, if_pos (integers_fit h hreads), ?_, ?_, ?_⟩
  · have happlied := h.appliedMem
    refine ⟨h.schema, h.version, hreads.contract, hreads.runId, h.artifact, h.dataset, h.transcript,
      h.ordinaryComposite, h.ordinaryStderr, h.effectiveComposite, h.effectiveStderr, hvalid.1, ?_, ?_, h.applied, ?_,
        ?_⟩
    · change e.scoreGatesSha256 = sha.hash e.scoreGates.wire.encode
      rw [h.digest, ← mirror_gates_encode hvalid.1, hwire]
    · change e.semanticGateFactorBps = e.scoreGates.wire.combinedFactor
      rw [h.semantic, ← mirror_combinedFactor hvalid.1, hwire]
    · change e.effectiveCompositeMicros = applyBPS e.ordinaryCompositeMicros e.appliedGateFactorBps
      rw [← applyBPS_eq h.ordinaryComposite.1 happlied]
      exact h.composite
    · change e.effectiveStderrMicros = applyBPS e.ordinaryStderrMicros e.appliedGateFactorBps
      rw [← applyBPS_eq h.ordinaryStderr.1 happlied]
      exact h.stderr
  · exact ⟨h.oneVersion, hvalid.2, congrArg text (wireText_text e.runId)⟩
  · simp only [V9BaseDetails.mirror, hwire, wireText_text]

/-! ## The agreement -/

theorem V9BaseDetails.canonicalBytes_ok {sha : Sha256} {d : V9BaseDetails} {b : Bytes} :
    d.canonicalBytes sha = .ok b ↔ RootValid sha d ∧ d.encode = b := by
  rw [V9BaseDetails.canonicalBytes, check_bind_eq_ok_iff, pure_eq_ok_iff, rootValid_iff]

theorem V9BaseDetails.digestHex_ok {sha : Sha256} {d : V9BaseDetails} {b : Bytes} :
    d.digestHex sha = .ok b ↔ RootValid sha d ∧ sha.hash d.encode = b := by
  rw [V9BaseDetails.digestHex, bind_eq_ok_iff]
  simp only [V9BaseDetails.canonicalBytes_ok, pure_eq_ok_iff]
  constructor
  · rintro ⟨_, ⟨hd, rfl⟩, hb⟩
    exact ⟨hd, hb⟩
  · rintro ⟨hd, hb⟩
    exact ⟨_, ⟨hd, rfl⟩, hb⟩

/-- The wire form of valid gates has all of them. -/
theorem toWireEvidence_eq {e : Evidence} (h : e.validate = .ok ()) : toWireEvidence e = e := by
  have hdep : e.benchVersion < 12 → e.modelDependence = {} := fun hv =>
    not_not.mp fun hne => absurd ((Evidence.dependence_iff h).mpr hne) (by omega)
  have hlat : e.benchVersion < 12 → e.inferenceLatency = {} := fun hv =>
    not_not.mp fun hne => absurd ((Evidence.latency_iff h).mpr hne).1 (by omega)
  have hstuff : e.benchVersion < 12 → e.answerStuffing = {} := fun hv =>
    not_not.mp fun hne => absurd ((Evidence.stuffing_iff h).mpr hne).1 (by omega)
  have hclaim : e.benchVersion < 13 → e.claimProvenance = {} := fun hv =>
    not_not.mp fun hne => absurd ((Evidence.provenance_iff h).mpr hne).1 (by omega)
  have hite : ∀ {γ : Type} {P : Prop} [Decidable P] {zero gate : γ}, (P → gate = zero) →
      (if P then zero else gate) = gate := by
    intro γ P _ zero gate himp
    by_cases hP : P
    · rw [if_pos hP, himp hP]
    · rw [if_neg hP]
  rw [toWireEvidence, hite hdep, hite hlat, hite hstuff, hite hclaim]

/-- Scores are gated by evidence of their own version. -/
theorem ApplyForVersion_version {arith : Arithmetic F} {v : ℤ} {score effective : Score F} {e : Evidence}
    (hv : SupportedBenchVersion v) (h : ApplyForVersion arith v score (some e) = .ok effective) :
      e.benchVersion = v := by
  have hv9 := (supported_iff.mp hv).1
  rw [ApplyForVersion, check_bind_eq_ok_iff, if_neg (by omega), check_bind_eq_ok_iff, check_bind_eq_ok_iff,
    ensure_eq_ok_iff, ensure_eq_ok_iff] at h
  exact h.2.2.1

/-- A root that the scorer built is valid and carried on the wire. -/
theorem buildBase_root {sha : Sha256} {arith : Arithmetic F} {input : Inputs F} {d : V9BaseDetails} {digest : Bytes}
    {effective : Score F} {attached : Bool} (h : buildBase sha arith input = .ok (d, digest, effective))
    (hgates : Assembled attached input.gates) (hattached : 13 ≤ input.benchVersion → attached = true)
    (hrun : ∃ s, input.runID = text s) :
    RootValid sha d ∧ Carried d ∧ d.scoreGates = input.gates ∧ digest = sha.hash d.encode := by
  simp only [buildBase, check_bind_eq_ok_iff, ensure_eq_ok_iff] at h
  obtain ⟨-, -, hv, -, -, -, -, -, -, h⟩ := h
  simp only [bind_eq_ok_iff] at h
  obtain ⟨semantic, hsemantic, effective', happly, gateDigest, hdigest, root, hroot, h⟩ := h
  rw [pure_eq_ok_iff, Prod.mk.injEq, Prod.mk.injEq] at h
  obtain ⟨rfl, rfl, -⟩ := h
  obtain ⟨hvalid, hhash⟩ := V9BaseDetails.digestHex_ok.mp hroot
  have hwire := toWireEvidence_eq (Evidence.combinedFactorBPS_ok.mp hsemantic).1
  have hversion := ApplyForVersion_version hv happly
  obtain ⟨s, hs⟩ := hrun
  refine ⟨hvalid, ⟨?_, ?_, ?_⟩, hwire, hhash.symm⟩
  · change input.benchVersion = (toWireEvidence input.gates).benchVersion
    rw [hwire, hversion]
  · change 13 ≤ (toWireEvidence input.gates).benchVersion → (toWireEvidence input.gates).claimProvenance.administered
    rw [hwire, hversion]
    exact fun h13 => hgates.administered (hattached h13)
  · change text (wireText input.runID) = input.runID
    rw [hs, wireText_text]

/-- **Scorer and mirror agree on the signed root.** What the scorer assembles and builds, the mirror accepts with the
same bytes, factors and digest; what the mirror accepts of the compiled contract, the scorer accepts with the same bytes
and digest. -/
theorem root_agreement (sha : Sha256) :
    (∀ {F : Type} (arith : Arithmetic F) (input : Inputs F) (attached : Bool) (d : V9BaseDetails) (digest : Bytes)
        (effective : Score F), Assembled attached input.gates → (attached = true ↔ 13 ≤ input.benchVersion) →
        (∃ s, input.runID = text s) → buildBase sha arith input = .ok (d, digest, effective) →
      d.mirror.validate sha = .ok () ∧
      input.gates.canonicalBytes = .ok d.mirror.scoreGates.canonicalBytes ∧
      d.canonicalBytes sha = .ok d.mirror.canonicalBytes ∧ digest = d.mirror.digestHex sha ∧
      input.gates.combinedFactorBPS = .ok d.mirror.scoreGates.combinedFactorBps ∧
      arith.scoreMicros effective.composite =
        applyGateFactorMicros d.mirror.ordinaryCompositeMicros d.mirror.appliedGateFactorBps ∧
      arith.scoreMicros effective.compositeStderr =
        applyGateFactorMicros d.mirror.ordinaryStderrMicros d.mirror.appliedGateFactorBps) ∧
    ∀ e : V9BaseEvidence, e.validate sha = .ok () → ScorerReads e → ∃ d, e.decode = some d ∧
      fromWireEvidence d.scoreGates = .ok d.scoreGates ∧ d.validateWithoutDigestRecursion sha = .ok () ∧
      d.scoreGates.canonicalBytes = .ok e.scoreGates.canonicalBytes ∧
      d.scoreGates.digestHex sha.hash = .ok (e.scoreGates.digestHex sha) ∧
      d.canonicalBytes sha = .ok e.canonicalBytes ∧ d.digestHex sha = .ok (e.digestHex sha) := by
  constructor
  · intro F arith input attached d digest effective hgates hattached hrun h
    obtain ⟨hroot, hcarried, hd, hdigest⟩ := buildBase_root h hgates hattached.mpr hrun
    have hmirror := mirrorValid_iff.mp (mirror_root hroot hcarried)
    have hvalid : input.gates.validate = .ok () := hd ▸ hroot.gates
    have heffective : d.effectiveCompositeMicros = arith.scoreMicros effective.composite ∧
        d.effectiveStderrMicros = arith.scoreMicros effective.compositeStderr := by
      simp only [buildBase, check_bind_eq_ok_iff] at h
      obtain ⟨-, -, -, -, -, -, -, -, -, h⟩ := h
      simp only [bind_eq_ok_iff] at h
      obtain ⟨_, _, _, _, _, _, _, _, h⟩ := h
      rw [pure_eq_ok_iff, Prod.mk.injEq, Prod.mk.injEq] at h
      obtain ⟨rfl, -, rfl⟩ := h
      exact ⟨rfl, rfl⟩
    refine ⟨mirrorValid_iff.mpr hmirror, ?_, ?_, ?_, ?_, ?_, ?_⟩
    · refine Evidence.canonicalBytes_ok.mpr ⟨hvalid, ?_⟩
      rw [← hd]
      exact (mirror_gates_encode hroot.gates).symm
    · exact V9BaseDetails.canonicalBytes_ok.mpr ⟨hroot, (mirror_encode hcarried.runID).symm⟩
    · rw [hdigest, V9BaseEvidence.digestHex, mirror_encode hcarried.runID]
    · refine Evidence.combinedFactorBPS_ok.mpr ⟨hvalid, ?_⟩
      rw [← hd]
      exact (mirror_combinedFactor hroot.gates).symm
    · rw [← heffective.1]
      exact hmirror.composite
    · rw [← heffective.2]
      exact hmirror.stderr
  · intro e he hreads
    obtain ⟨d, hdecode, hroot, hcarried, rfl⟩ := decode_root (mirrorValid_iff.mp he) hreads
    have hbytes := mirror_gates_encode hroot.gates
    refine ⟨d, hdecode, check_bind_eq_ok_iff.mpr ⟨hroot.gates, rfl⟩, rootValid_iff.mpr hroot,
      Evidence.canonicalBytes_ok.mpr ⟨hroot.gates, hbytes.symm⟩,
      Evidence.digestHex_ok.mpr ⟨hroot.gates, congrArg sha.hash hbytes.symm⟩,
      V9BaseDetails.canonicalBytes_ok.mpr ⟨hroot, (mirror_encode hcarried.runID).symm⟩,
      V9BaseDetails.digestHex_ok.mpr ⟨hroot, congrArg sha.hash (mirror_encode hcarried.runID).symm⟩⟩

/-! ## What the conditions exclude -/

section Samples

/-- One case that reached the model. -/
def sampleModelUse : ModelUseEvidence where
  administeredCases := 1
  eligibleCases := 1
  successfulInferenceCases := 1
  observedRequests := 1
  successfulRequests := 1
  promptTokens := 1
  completionTokens := 1
  caseAttributionComplete := true
  requestCoverageBPS := 10000
  coverageBPS := 10000
  thresholdBPS := 1
  result := .passed
  factorBPS := 10000

/-- No expected tool. -/
def sampleTool : AuthoritativeToolEvidence where
  coverageBPS := 10000
  thresholdBPS := 1
  result := .notApplicable
  factorBPS := 10000

/-- Gates of version 9. -/
def sampleGates : Evidence where
  schemaVersion := 1
  benchVersion := 9
  rolloutMode := .enforce
  thresholdProfile := ContractThresholds.profile
  modelUse := sampleModelUse
  authoritativeTool := sampleTool

/-- Gates of version 12 with `min_cases` one above the largest 64-bit number. -/
def wideGates : V9ScoreGateEvidence where
  schemaVersion := 1
  benchVersion := 12
  rolloutMode := .enforce
  thresholdProfile := ContractThresholds.profile
  modelUse := sampleModelUse
  authoritativeTool := sampleTool
  modelDependence := some { administeredCases := 1, thresholdBPS := 1, result := .insufficientEvidence,
                            factorBPS := 10000 }
  answerStuffing := some { attributionComplete := true, posture := .review, thresholdBPS := 1, minCases := 2 ^ 63,
                           result := .notApplicable, factorBPS := 10000 }

/-- A digest of zeros. -/
def zeroDigest : Bytes := List.replicate 64 48

/-- The root of a run whose id is the single byte `0xFF`, with a score of zero. -/
def foreignRoot : V9BaseDetails where
  schemaVersion := 1
  benchVersion := 9
  scoreContract := compiledContract
  runID := [255]
  artifactSHA256 := zeroDigest
  datasetSHA256 := zeroDigest
  transcriptSHA256 := zeroDigest
  ordinaryCompositeMicros := 0
  ordinaryStderrMicros := 0
  scoreGates := sampleGates
  scoreGatesSHA256 := text "50580e1bceffe5e33eba1c905c3048b65657beb91ab0f45e57b0b46df6e0fd21"
  semanticGateFactorBPS := 10000
  appliedGateFactorBPS := 10000
  effectiveCompositeMicros := 0
  effectiveStderrMicros := 0

/-- The inputs of that root. -/
def foreignInput : Inputs ℚ where
  runID := [255]
  benchVersion := 9
  artifactSHA256 := zeroDigest
  datasetSHA256 := zeroDigest
  transcriptSHA256 := zeroDigest
  ordinary := { composite := 0, compositeStderr := 0 }
  gates := sampleGates

/-- The hash function on the texts of the samples. -/
def sampleHash (b : Bytes) : Bytes :=
  if b = text ContractManifest then text ContractManifestSHA256
  else if b = sampleGates.encode then text "50580e1bceffe5e33eba1c905c3048b65657beb91ab0f45e57b0b46df6e0fd21"
  else if b = wideGates.canonicalBytes then text "a6c0352c0ef4d347dcc8d113526e630deb038a84748643cc886d8b78f7039dc6"
  else text "c417a4dfbdf22044521f65ced96f23778cad0ce06c9b8c9c381ef95588f60f2b"

def sampleSha : Sha256 where
  hash := sampleHash
  valid b := by
    unfold sampleHash
    split
    · decide
    split
    · decide
    split
    · decide
    · decide
  manifest := if_pos rfl

/-- The mirror's root of the gates with the wide number. -/
def wideRoot : V9BaseEvidence where
  schemaVersion := 1
  benchVersion := 12
  scoreContract := compiledContract
  runId := "run"
  artifactSha256 := zeroDigest
  datasetSha256 := zeroDigest
  transcriptSha256 := zeroDigest
  ordinaryCompositeMicros := 0
  ordinaryStderrMicros := 0
  scoreGates := wideGates
  scoreGatesSha256 := text "a6c0352c0ef4d347dcc8d113526e630deb038a84748643cc886d8b78f7039dc6"
  semanticGateFactorBps := 10000
  appliedGateFactorBps := 10000
  effectiveCompositeMicros := 0
  effectiveStderrMicros := 0

end Samples

/-- The mirror accepts a `min_cases` that the scorer cannot decode; and the scorer builds a root over a run id that JSON
does not carry, so that the mirror encodes other bytes. -/
theorem wide_min_cases_and_foreign_bytes :
    (wideRoot.validate sampleSha = .ok () ∧ wideRoot.scoreContract = compiledContract ∧
      blank (text wideRoot.runId) = false ∧ (text wideRoot.runId).length ≤ 256 ∧
      wideRoot.scoreGates.inferenceLatency = none ∧ wideRoot.decode = none) ∧
    (Assembled false foreignInput.gates ∧ ¬ 13 ≤ foreignInput.benchVersion ∧
      (∃ digest effective, buildBase sampleSha (exactArithmetic ℚ) foreignInput =
      .ok (foreignRoot, digest, effective)) ∧
        foreignRoot.canonicalBytes sampleSha ≠ .ok foreignRoot.mirror.canonicalBytes) := by
  refine ⟨⟨by decide +kernel, by decide +kernel, by decide +kernel, by decide +kernel, by decide +kernel,
    by decide⟩, ?_, by decide, ?_, ?_⟩
  · have hbuilt : Build 9 sampleModelUse.echo sampleTool.echo ContractThresholds .enforce [] = .ok sampleGates := by
      decide
    exact .built hbuilt
  · exact ⟨text "c417a4dfbdf22044521f65ced96f23778cad0ce06c9b8c9c381ef95588f60f2b",
      { composite := 0, compositeStderr := 0 }, by decide +kernel⟩
  · decide +kernel

end DittoSubnet.Bench

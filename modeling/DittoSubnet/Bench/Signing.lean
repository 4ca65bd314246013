import DittoSubnet.Bench.Agreement

/-!
# Which gated scores can be signed

`buildBase` rounds the effective score from the exact one, while the check of the root rounds it again from the ordinary
score that is already in micros. Under exact arithmetic the two agree exactly when the second rounding absorbs the error
of the first (`Absorbed`), and then the root is built and accepted (`gated_score_signed_iff`). Half a micro under a
factor of one half is not (`half_micro_not_signed`).
-/

namespace DittoSubnet.Bench

open Kit

variable {K : Type} [Field K] [LinearOrder K] [IsStrictOrderedRing K] [FloorRing K]

/-! ## Two roundings -/

/-- A score in micros. -/
def micros (x : K) : ℤ := roundAway K (x * (MicrosScale : K))

/-- The residue of scaling the rounded micros, which the second rounding drops. -/
def residue (x : K) (factor : ℤ) : ℤ := (micros x * factor + 5000) % 10000

/-- The error of the first rounding, scaled by the factor, does not leave the unit of the second. -/
def Absorbed (x : K) (factor : ℤ) : Prop :=
  0 ≤ (residue x factor : K) + (x * 1000000 - micros x) * factor ∧
    (residue x factor : K) + (x * 1000000 - micros x) * factor < 10000

theorem micros_eq {x : K} (hx : 0 ≤ x) : micros x = ⌊x * 1000000 + 1 / 2⌋ := by
  have hscale : (MicrosScale : K) = 1000000 := by norm_num [MicrosScale]
  have hnonneg : ¬ x * 1000000 < 0 := not_lt.mpr (by positivity)
  rw [micros, hscale, roundAway, if_neg hnonneg]

theorem micros_mem {x : K} (h0 : 0 ≤ x) (h1 : x ≤ 1) : Micros (micros x) := by
  rw [micros_eq h0]
  constructor
  · exact Int.floor_nonneg.mpr (by positivity)
  · have hle : ⌊x * 1000000 + 1 / 2⌋ < 1000001 := by
      apply Int.floor_lt.mpr
      push_cast
      linarith
    omega

theorem micros_ofMicros {m : ℤ} (hm : 0 ≤ m) : micros ((m : K) / (MicrosScale : K)) = m := by
  have hscale : (MicrosScale : K) = 1000000 := by norm_num [MicrosScale]
  have hnonneg : (0 : K) ≤ (m : K) / 1000000 := div_nonneg (by exact_mod_cast hm) (by norm_num)
  rw [hscale, micros_eq hnonneg, div_mul_cancel₀ _ (by norm_num)]
  apply Int.floor_eq_iff.mpr
  constructor
  · linarith
  · linarith

theorem applyBPS_nonneg {m factor : ℤ} (hm : 0 ≤ m) (hf : 0 ≤ factor) :
    applyBPS m factor = (m * factor + 5000) / 10000 := by
  have hnonneg : 0 ≤ m * factor + 5000 := by positivity
  exact Int.tdiv_eq_ediv_of_nonneg hnonneg

/-- The two roundings agree exactly when the error is absorbed. -/
theorem micros_scale_iff {x : K} (h0 : 0 ≤ x) (h1 : x ≤ 1) {factor : ℤ} (hf : 0 ≤ factor) :
    micros (x * ((factor : K) / (BasisPointScale : K))) = applyBPS (micros x) factor ↔ Absorbed x factor := by
  have hscale : (BasisPointScale : K) = 10000 := by norm_num [BasisPointScale]
  have hfK : (0 : K) ≤ (factor : K) := by exact_mod_cast hf
  have hnonneg : 0 ≤ x * ((factor : K) / 10000) := mul_nonneg h0 (div_nonneg hfK (by norm_num))
  have hsplit : (micros x * factor + 5000 : K) =
      10000 * ((micros x * factor + 5000) / 10000 : ℤ) + (residue x factor : K) := by
    have := Int.mul_ediv_add_emod (micros x * factor + 5000) 10000
    unfold residue
    exact_mod_cast this.symm
  rw [applyBPS_nonneg (micros_mem h0 h1).1 hf, hscale, micros_eq hnonneg, Int.floor_eq_iff, Absorbed]
  generalize ((micros x * factor + 5000) / 10000 : ℤ) = q at *
  have hexact : x * ((factor : K) / 10000) * 1000000 + 1 / 2 =
      (10000 * (q : K) + ((residue x factor : K) + (x * 1000000 - micros x) * factor)) / 10000 := by
    have : (residue x factor : K) = micros x * factor + 5000 - 10000 * q := by rw [hsplit]; ring
    rw [this]
    ring
  rw [hexact, le_div_iff₀ (by norm_num), div_lt_iff₀ (by norm_num)]
  constructor
  · rintro ⟨hl, hr⟩
    constructor
    · linarith
    · linarith
  · rintro ⟨hl, hr⟩
    constructor
    · linarith
    · linarith

/-! ## The root of an input -/

/-- The effective score under a factor. -/
def effectiveOf (score : Score K) (factor : ℤ) : Score K :=
  if factor = 0 then { composite := 0, compositeStderr := 0 }
  else if 10000 ≤ factor then score
  else { composite := score.composite * ((factor : K) / (BasisPointScale : K)),
         compositeStderr := score.compositeStderr * ((factor : K) / (BasisPointScale : K)) }

/-- The root that `buildBase` assembles before it checks it. -/
def detailsOf (sha : Sha256) (input : Inputs K) : V9BaseDetails where
  schemaVersion := 1
  benchVersion := input.benchVersion
  scoreContract := compiledContract
  runID := input.runID
  artifactSHA256 := input.artifactSHA256
  datasetSHA256 := input.datasetSHA256
  transcriptSHA256 := input.transcriptSHA256
  ordinaryCompositeMicros := micros input.ordinary.composite
  ordinaryStderrMicros := micros input.ordinary.compositeStderr
  scoreGates := input.gates
  scoreGatesSHA256 := sha.hash input.gates.encode
  semanticGateFactorBPS := input.gates.combinedFactor
  appliedGateFactorBPS := input.gates.combinedFactor
  effectiveCompositeMicros := micros (effectiveOf input.ordinary input.gates.combinedFactor).composite
  effectiveStderrMicros := micros (effectiveOf input.ordinary input.gates.combinedFactor).compositeStderr

/-- A valid identity, a score in the unit interval and gates that pass `validate` under the compiled contract in enforce
mode. -/
structure Gated (input : Inputs K) : Prop where
  runID : blank input.runID = false ∧ input.runID.length ≤ 256
  artifact : validSHA256 input.artifactSHA256
  dataset : validSHA256 input.datasetSHA256
  transcript : validSHA256 input.transcriptSHA256
  composite : 0 ≤ input.ordinary.composite ∧ input.ordinary.composite ≤ 1
  stderr : 0 ≤ input.ordinary.compositeStderr ∧ input.ordinary.compositeStderr ≤ 1
  gates : input.gates.validate = .ok ()
  version : input.gates.benchVersion = input.benchVersion
  mode : input.gates.rolloutMode = .enforce
  profile : input.gates.thresholdProfile = ContractThresholds.profile
  modelUse : input.gates.modelUse.thresholdBPS = 1
  tool : input.gates.authoritativeTool.thresholdBPS = 1
  dependence : 12 ≤ input.benchVersion → input.gates.modelDependence.thresholdBPS = 1

variable {sha : Sha256} {input : Inputs K}

omit [IsStrictOrderedRing K] in
theorem ApplyForVersion_ok (h : Gated input) :
    ApplyForVersion (exactArithmetic K) input.benchVersion input.ordinary (some input.gates) =
      .ok (effectiveOf input.ordinary input.gates.combinedFactor) := by
  have hsupported : SupportedBenchVersion input.benchVersion := by
    rw [← h.version]
    exact (Evidence.validate_ok.mp h.gates).2.1
  have hv := supported_iff.mp hsupported
  have hunit : validateScore (exactArithmetic K) input.ordinary = .ok () := by
    simp only [validateScore, exactArithmetic, check_bind_eq_ok_iff, ensure_eq_ok_iff, decide_eq_true_iff]
    exact ⟨h.composite, h.stderr⟩
  have hmode : ¬ input.gates.rolloutMode = .shadow := by rw [h.mode]; decide
  rw [ApplyForVersion, check_bind_eq_ok_iff, if_neg (by omega), check_bind_eq_ok_iff, check_bind_eq_ok_iff,
    ensure_eq_ok_iff, ensure_eq_ok_iff]
  refine ⟨hunit, hsupported, h.version, bind_eq_ok_iff.mpr ⟨_, Evidence.combinedFactorBPS_ok.mpr ⟨h.gates, rfl⟩, ?_⟩⟩
  rw [if_neg hmode]
  unfold effectiveOf
  split
  · rfl
  change (if 10000 ≤ input.gates.combinedFactor then _ else _) = _
  split
  · rfl
  · rfl

omit [IsStrictOrderedRing K] in
/-- `buildBase` assembles the root and returns it when it passes its check. -/
theorem buildBase_ok (h : Gated input) {d : V9BaseDetails} {digest : Bytes} {effective : Score K} :
    buildBase sha (exactArithmetic K) input = .ok (d, digest, effective) ↔
      RootValid sha (detailsOf sha input) ∧ d = detailsOf sha input ∧ digest = sha.hash (detailsOf sha input).encode ∧
        effective = effectiveOf input.ordinary input.gates.combinedFactor := by
  have hsupported : SupportedBenchVersion input.benchVersion := by
    rw [← h.version]
    exact (Evidence.validate_ok.mp h.gates).2.1
  have hdetails : ∀ semantic gateDigest effective', semantic = input.gates.combinedFactor →
      gateDigest = sha.hash input.gates.encode → effective' = effectiveOf input.ordinary input.gates.combinedFactor →
      ({ schemaVersion := 1, benchVersion := input.benchVersion, scoreContract := compiledContract,
         runID := input.runID, artifactSHA256 := input.artifactSHA256, datasetSHA256 := input.datasetSHA256,
         transcriptSHA256 := input.transcriptSHA256,
         ordinaryCompositeMicros := (exactArithmetic K).scoreMicros input.ordinary.composite,
         ordinaryStderrMicros := (exactArithmetic K).scoreMicros input.ordinary.compositeStderr,
         scoreGates := toWireEvidence input.gates, scoreGatesSHA256 := gateDigest, semanticGateFactorBPS := semantic,
         appliedGateFactorBPS := if input.gates.rolloutMode = .shadow then BasisPointScale else semantic,
         effectiveCompositeMicros := (exactArithmetic K).scoreMicros effective'.composite,
         effectiveStderrMicros := (exactArithmetic K).scoreMicros effective'.compositeStderr } : V9BaseDetails) =
      detailsOf sha input := by
    rintro semantic gateDigest effective' rfl rfl rfl
    rw [toWireEvidence_eq h.gates, if_neg (by rw [h.mode]; decide)]
    rfl
  simp only [buildBase, check_bind_eq_ok_iff, ensure_eq_ok_iff]
  simp only [bind_eq_ok_iff, pure_eq_ok_iff, Prod.mk.injEq]
  constructor
  · rintro ⟨-, -, -, -, -, -, -, -, -, semantic, hsemantic, effective', happly, gateDigest, hdigest, root, hroot, rfl,
      rfl, rfl⟩
    have h1 := (Evidence.combinedFactorBPS_ok.mp hsemantic).2.symm
    have h2 := (Evidence.digestHex_ok.mp hdigest).2.symm
    rw [ApplyForVersion_ok h] at happly
    have h3 := (Except.ok.inj happly).symm
    rw [hdetails _ _ _ h1 h2 h3] at hroot ⊢
    obtain ⟨hvalid, hhash⟩ := V9BaseDetails.digestHex_ok.mp hroot
    exact ⟨hvalid, rfl, hhash.symm, h3⟩
  · rintro ⟨hvalid, rfl, rfl, rfl⟩
    refine ⟨sha.manifest, h.runID, hsupported, h.artifact, h.dataset, h.transcript, ⟨h.mode, h.profile⟩,
      ⟨h.modelUse, h.tool⟩, h.dependence, _, Evidence.combinedFactorBPS_ok.mpr ⟨h.gates, rfl⟩, _, ApplyForVersion_ok h,
      _, Evidence.digestHex_ok.mpr ⟨h.gates, rfl⟩, sha.hash (detailsOf sha input).encode, ?_, ?_⟩
    · rw [hdetails _ _ _ rfl rfl rfl]
      exact V9BaseDetails.digestHex_ok.mpr ⟨hvalid, rfl⟩
    · exact ⟨hdetails _ _ _ rfl rfl rfl, rfl, rfl⟩

omit [IsStrictOrderedRing K] in
/-- The effective score is the ordinary one times the factor, also where the scorer takes a shortcut. -/
theorem effectiveOf_eq (score : Score K) {factor : ℤ} (hf : 0 ≤ factor ∧ factor ≤ 10000) :
    effectiveOf score factor =
      { composite := score.composite * ((factor : K) / (BasisPointScale : K)),
        compositeStderr := score.compositeStderr * ((factor : K) / (BasisPointScale : K)) } := by
  have hscale : (BasisPointScale : K) = 10000 := by norm_num [BasisPointScale]
  unfold effectiveOf
  by_cases h0 : factor = 0
  · rw [if_pos h0, h0, Int.cast_zero, zero_div, mul_zero, mul_zero]
  by_cases h1 : 10000 ≤ factor
  · have hfull : factor = 10000 := by omega
    have hone : (((10000 : ℤ) : K)) / 10000 = 1 := by norm_num
    rw [if_neg h0, if_pos h1, hfull, hscale, hone, mul_one, mul_one]
  · rw [if_neg h0, if_neg h1]

/-- A scaled score stays in the unit interval. -/
theorem scaled_mem {x : K} (hx : 0 ≤ x ∧ x ≤ 1) {factor : ℤ} (hf : 0 ≤ factor ∧ factor ≤ 10000) :
    0 ≤ x * ((factor : K) / (BasisPointScale : K)) ∧ x * ((factor : K) / (BasisPointScale : K)) ≤ 1 := by
  have hscale : (BasisPointScale : K) = 10000 := by norm_num [BasisPointScale]
  have h0 : (0 : K) ≤ (factor : K) := by exact_mod_cast hf.1
  have h1 : (factor : K) ≤ 10000 := by exact_mod_cast hf.2
  rw [hscale]
  have hratio : (factor : K) / 10000 ≤ 1 := (div_le_one (by norm_num)).mpr h1
  have hnonneg : (0 : K) ≤ (factor : K) / 10000 := div_nonneg h0 (by norm_num)
  exact ⟨mul_nonneg hx.1 hnonneg, mul_le_one₀ hx.2 hnonneg hratio⟩

/-- The assembled root passes its check exactly when both errors are absorbed. -/
theorem detailsOf_valid (h : Gated input) : RootValid sha (detailsOf sha input) ↔
    Absorbed input.ordinary.composite input.gates.combinedFactor ∧
      Absorbed input.ordinary.compositeStderr input.gates.combinedFactor := by
  have hf := Evidence.combinedFactor_mem h.gates
  have hsupported : SupportedBenchVersion input.benchVersion := by
    rw [← h.version]
    exact (Evidence.validate_ok.mp h.gates).2.1
  have hcomposite : (detailsOf sha input).effectiveCompositeMicros =
      micros (input.ordinary.composite * ((input.gates.combinedFactor : K) / (BasisPointScale : K))) := by
    rw [detailsOf, effectiveOf_eq _ hf]
  have hstderr : (detailsOf sha input).effectiveStderrMicros =
      micros (input.ordinary.compositeStderr * ((input.gates.combinedFactor : K) / (BasisPointScale : K))) := by
    rw [detailsOf, effectiveOf_eq _ hf]
  rw [← micros_scale_iff h.composite.1 h.composite.2 hf.1, ← micros_scale_iff h.stderr.1 h.stderr.2 hf.1, ← hcomposite,
    ← hstderr]
  constructor
  · intro hvalid
    exact ⟨hvalid.composite, hvalid.stderr⟩
  · rintro ⟨hc, hs⟩
    have hcMem := scaled_mem h.composite hf
    have hsMem := scaled_mem h.stderr hf
    refine ⟨rfl, hsupported, rfl, h.runID, h.artifact, h.dataset, h.transcript, micros_mem h.composite.1 h.composite.2,
      micros_mem h.stderr.1 h.stderr.2, ?_, ?_, h.gates, rfl, rfl, ?_, hc, hs⟩
    · rw [hcomposite]
      exact micros_mem hcMem.1 hcMem.2
    · rw [hstderr]
      exact micros_mem hsMem.1 hsMem.2
    · change input.gates.combinedFactor = appliedFactor input.gates.rolloutMode input.gates.combinedFactor
      rw [appliedFactor, if_neg (by rw [h.mode]; decide)]

/-! ## Validation of a built root -/

/-- The inputs that `validateBase` rebuilds a root from. -/
def rebuiltInput (input : Inputs K) : Inputs K :=
  { input with
    ordinary := { composite := (micros input.ordinary.composite : K) / (MicrosScale : K),
                  compositeStderr := (micros input.ordinary.compositeStderr : K) / (MicrosScale : K) } }

theorem ofMicros_mem {m : ℤ} (hm : Micros m) : 0 ≤ (m : K) / (MicrosScale : K) ∧ (m : K) / (MicrosScale : K) ≤ 1 := by
  have hscale : (MicrosScale : K) = 1000000 := by norm_num [MicrosScale]
  have h0 : (0 : K) ≤ (m : K) := by exact_mod_cast hm.1
  have h1 : (m : K) ≤ 1000000 := by exact_mod_cast hm.2
  rw [hscale]
  exact ⟨div_nonneg h0 (by norm_num), (div_le_one (by norm_num)).mpr h1⟩

theorem Gated.rebuilt (h : Gated input) : Gated (rebuiltInput input) :=
  { h with
    composite := ofMicros_mem (micros_mem h.composite.1 h.composite.2)
    stderr := ofMicros_mem (micros_mem h.stderr.1 h.stderr.2) }

/-- A score in whole micros has no error to absorb. -/
theorem absorbed_ofMicros {m factor : ℤ} (hm : Micros m) : Absorbed ((m : K) / (MicrosScale : K)) factor := by
  have hscale : (MicrosScale : K) = 1000000 := by norm_num [MicrosScale]
  have hzero : (m : K) / (MicrosScale : K) * 1000000 - micros ((m : K) / (MicrosScale : K)) = 0 := by
    rw [micros_ofMicros hm.1, hscale, div_mul_cancel₀ _ (by norm_num), sub_self]
  unfold Absorbed
  rw [hzero, zero_mul, add_zero]
  have h0 : 0 ≤ residue ((m : K) / (MicrosScale : K)) factor := Int.emod_nonneg _ (by norm_num)
  have h1 : residue ((m : K) / (MicrosScale : K)) factor < 10000 := Int.emod_lt_of_pos _ (by norm_num)
  exact ⟨by exact_mod_cast h0, by exact_mod_cast h1⟩

/-- The rebuilt root is the root. -/
theorem rebuilt_details (h : Gated input) (hvalid : RootValid sha (detailsOf sha input)) :
    detailsOf sha (rebuiltInput input) = detailsOf sha input := by
  have hrebuilt : RootValid sha (detailsOf sha (rebuiltInput input)) := (detailsOf_valid h.rebuilt).mpr
    ⟨absorbed_ofMicros (micros_mem h.composite.1 h.composite.2), absorbed_ofMicros (micros_mem h.stderr.1 h.stderr.2)⟩
  have hc : (detailsOf sha (rebuiltInput input)).ordinaryCompositeMicros =
      (detailsOf sha input).ordinaryCompositeMicros :=
    micros_ofMicros (micros_mem h.composite.1 h.composite.2).1
  have hs : (detailsOf sha (rebuiltInput input)).ordinaryStderrMicros = (detailsOf sha input).ordinaryStderrMicros :=
    micros_ofMicros (micros_mem h.stderr.1 h.stderr.2).1
  have hec : (detailsOf sha (rebuiltInput input)).effectiveCompositeMicros =
      (detailsOf sha input).effectiveCompositeMicros := by
    rw [hrebuilt.composite, hvalid.composite, hc]
    rfl
  have hes : (detailsOf sha (rebuiltInput input)).effectiveStderrMicros =
      (detailsOf sha input).effectiveStderrMicros := by
    rw [hrebuilt.stderr, hvalid.stderr, hs]
    rfl
  unfold detailsOf at hc hs hec hes ⊢
  dsimp only at hc hs hec hes
  rw [hc, hs, hec, hes]
  rfl

/-- A built root is accepted by `validateBase`. -/
theorem validateBase_ok (h : Gated input) (hvalid : RootValid sha (detailsOf sha input)) :
    validateBase sha (exactArithmetic K) (detailsOf sha input) = .ok () := by
  have hdetails := rebuilt_details h hvalid
  have hbuild : buildBase sha (exactArithmetic K) (rebuiltInput input) = .ok (detailsOf sha input,
      sha.hash (detailsOf sha input).encode, effectiveOf (rebuiltInput input).ordinary input.gates.combinedFactor) := by
    refine (buildBase_ok h.rebuilt).mpr ⟨?_, ?_, ?_, rfl⟩
    · rw [hdetails]
      exact hvalid
    · exact hdetails.symm
    · rw [hdetails]
  have hdigest : sha.hash (detailsOf sha input).encode ≠ [] := by
    intro hnil
    have hlen := (sha.valid (detailsOf sha input).encode).1
    rw [hnil] at hlen
    cases hlen
  simp only [validateBase, check_bind_eq_ok_iff, ensure_eq_ok_iff]
  refine ⟨⟨rfl, hvalid.version⟩, rfl, bind_eq_ok_iff.mpr ⟨input.gates, check_bind_eq_ok_iff.mpr ⟨h.gates, rfl⟩, ?_⟩⟩
  refine bind_eq_ok_iff.mpr ⟨_, hbuild, ?_⟩
  rw [ensure_eq_ok_iff]
  exact ⟨hdigest, rfl⟩

/-- **A gated score is signed exactly when the second rounding absorbs the error of the first**, for the composite and
for its standard error. -/
theorem gated_score_signed_iff (sha : Sha256) (input : Inputs K) (h : Gated input) :
    (∃ d digest effective, buildBase sha (exactArithmetic K) input = .ok (d, digest, effective) ∧
      validateBase sha (exactArithmetic K) d = .ok ()) ↔
    Absorbed input.ordinary.composite input.gates.combinedFactor ∧
      Absorbed input.ordinary.compositeStderr input.gates.combinedFactor := by
  have hroot : RootValid sha (detailsOf sha input) ↔ _ := detailsOf_valid h
  rw [← hroot]
  constructor
  · rintro ⟨d, digest, effective, hbuild, -⟩
    exact ((buildBase_ok h).mp hbuild).1
  · intro hvalid
    exact ⟨_, _, _, (buildBase_ok h).mpr ⟨hvalid, rfl, rfl, rfl⟩, validateBase_ok h hvalid⟩

/-! ## Samples -/

/-- One of two computed answers was stuffed, under the penalize posture. -/
def stuffedGates : Evidence where
  schemaVersion := 1
  benchVersion := 12
  rolloutMode := .enforce
  thresholdProfile := ContractThresholds.profile
  modelUse := sampleModelUse
  authoritativeTool := sampleTool
  modelDependence := { administeredCases := 1, thresholdBPS := 1, result := .insufficientEvidence, factorBPS := 10000 }
  answerStuffing := { administeredCases := 2, eligibleCases := 2, stuffedCases := 1, cleanCases := 1,
                      attributionComplete := true, posture := .penalize, stuffedBPS := 5000, thresholdBPS := 5000,
                      minCases := 1, result := .answerStuffed, factorBPS := 5000 }

/-- A third, with an error of a seventh, of which these gates leave the half. -/
def thirdInput : Inputs ℚ where
  runID := text "run"
  benchVersion := 12
  artifactSHA256 := zeroDigest
  datasetSHA256 := zeroDigest
  transcriptSHA256 := zeroDigest
  ordinary := { composite := 1 / 3, compositeStderr := 1 / 7 }
  gates := stuffedGates

theorem thirdInput_gated : Gated thirdInput where
  runID := by decide
  artifact := by decide
  dataset := by decide
  transcript := by decide
  composite := by norm_num [thirdInput]
  stderr := by norm_num [thirdInput]
  gates := by decide
  version := rfl
  mode := rfl
  profile := rfl
  modelUse := rfl
  tool := rfl
  dependence _ := rfl

theorem third_score_signed : Gated thirdInput ∧ ∃ d digest effective,
    buildBase sampleSha (exactArithmetic ℚ) thirdInput = .ok (d, digest, effective) ∧
      validateBase sampleSha (exactArithmetic ℚ) d = .ok () :=
  ⟨thirdInput_gated, (gated_score_signed_iff sampleSha thirdInput thirdInput_gated).mpr (by
    unfold Absorbed
    decide +kernel)⟩

/-- A score of half a micro with these gates. -/
noncomputable def halfMicroInput : Inputs ℝ where
  runID := text "run"
  benchVersion := 12
  artifactSHA256 := zeroDigest
  datasetSHA256 := zeroDigest
  transcriptSHA256 := zeroDigest
  ordinary := { composite := 1 / 2000000, compositeStderr := 0 }
  gates := stuffedGates

theorem halfMicroInput_gated : Gated halfMicroInput where
  runID := (show blank (text "run") = false ∧ (text "run").length ≤ 256 by decide)
  artifact := (show validSHA256 zeroDigest by decide)
  dataset := (show validSHA256 zeroDigest by decide)
  transcript := (show validSHA256 zeroDigest by decide)
  composite := by norm_num [halfMicroInput]
  stderr := by norm_num [halfMicroInput]
  gates := (show stuffedGates.validate = .ok () by decide)
  version := rfl
  mode := rfl
  profile := rfl
  modelUse := rfl
  tool := rfl
  dependence _ := rfl

/-- Half a micro rounds up to one micro, of which half rounds up again; but a quarter of a micro rounds down. -/
theorem half_micro_not_signed : Gated halfMicroInput ∧ ∀ (sha : Sha256) (d : V9BaseDetails) (digest : Bytes)
    (effective : Score ℝ), buildBase sha (exactArithmetic ℝ) halfMicroInput ≠ .ok (d, digest, effective) := by
  refine ⟨halfMicroInput_gated, fun sha d digest effective hbuild => ?_⟩
  obtain ⟨hvalid, -⟩ := (buildBase_ok halfMicroInput_gated).mp hbuild
  have habsorbed := ((detailsOf_valid halfMicroInput_gated).mp hvalid).1
  have hfactor : halfMicroInput.gates.combinedFactor = 5000 := (show stuffedGates.combinedFactor = 5000 by decide)
  have hmicros : micros (1 / 2000000 : ℝ) = 1 := by
    rw [micros_eq (by norm_num)]
    norm_num
  have hresidue : residue (1 / 2000000 : ℝ) 5000 = 0 := by
    rw [residue, hmicros]
    decide
  rw [hfactor] at habsorbed
  have hlow : (0 : ℝ) ≤ (residue (1 / 2000000 : ℝ) 5000 : ℝ) +
      (1 / 2000000 * 1000000 - (micros (1 / 2000000 : ℝ) : ℝ)) * ((5000 : ℤ) : ℝ) := habsorbed.1
  rw [hresidue, hmicros] at hlow
  norm_num at hlow

end DittoSubnet.Bench

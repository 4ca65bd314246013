import DittoSubnet.Bench.Mirror

/-!
# Agreement of the two derivations

A gate that the scorer derives from its own counts is a gate that the mirror accepts, and conversely
(`modelUse_agree` to `claimProvenance_agree`).
-/

namespace DittoSubnet.Bench

open Kit

/-! ## Shares -/

theorem coverageBPS_eq {n d : ℤ} (hn : 0 ≤ n) : coverageBPS n d = n * 10000 / d := by
  unfold coverageBPS BasisPointScale
  exact Int.tdiv_eq_ediv_of_nonneg (by omega)

theorem coverageBps_eq {n d : ℤ} (hn : 0 ≤ n) (hd : 0 < d) : coverageBps n d = coverageBPS n d := by
  rw [coverageBps, if_neg (by omega), coverageBPS_eq hn]

/-- A share of a part is a share. -/
theorem coverageBPS_mem {n d : ℤ} (hn : 0 ≤ n) (hd : 0 < d) (hle : n ≤ d) :
    0 ≤ coverageBPS n d ∧ coverageBPS n d ≤ 10000 := by
  rw [coverageBPS_eq hn]
  constructor
  · exact Int.ediv_nonneg (by omega) hd.le
  · apply Int.ediv_le_of_le_mul hd
    omega

theorem validateCaseCounts_ok {items : List (String × ℤ)} :
    validateCaseCounts items = .ok () ↔ ∀ item ∈ items, 0 ≤ item.2 ∧ item.2 ≤ 10000000 := by
  induction items with
  | nil => simp [validateCaseCounts]
  | cons item items ih =>
    rw [validateCaseCounts, validateBoundedCases, ensure_bind_eq_ok_iff, ih, List.forall_mem_cons, MaxCaseCount]

/-! ## Gates -/

theorem modelDependence_agree (g : ModelDependenceEvidence) :
    ((1 ≤ g.thresholdBPS ∧ g.thresholdBPS ≤ 10000) ∧ buildModelDependence g.echo g.thresholdBPS = .ok g) ↔
      V12ModelDependenceGate.validate g = .ok () := by
  simp only [buildModelDependence, V12ModelDependenceGate.validate, fieldCount, fieldShare, fieldIn, fieldResult,
    check_bind_eq_ok_iff, ensure_eq_ok_iff, validateCaseCounts_ok, List.forall_mem_cons]
  obtain ⟨administered, eligible, dependent, independent, complete, share, threshold, result, factor⟩ := g
  simp only [ModelDependenceEvidence.echo, V12ModelDependenceGate.derived, BasisPointScale]
  cases complete with
  | false =>
    simp
    grind
  | true =>
    by_cases hzero : eligible = 0
    · simp [hzero]
      grind
    by_cases hpart : 0 ≤ dependent ∧ dependent ≤ eligible
    · have hpos : 0 < eligible := by omega
      have hshare := coverageBPS_mem hpart.1 hpos hpart.2
      simp only [if_false, hzero, coverageBps_eq hpart.1 hpos]
      by_cases hbelow : coverageBPS dependent eligible < threshold
      · simp [hbelow]
        grind
      · simp [hbelow]
        grind
    · grind

theorem authoritativeTool_agree (g : AuthoritativeToolEvidence) :
    ((1 ≤ g.thresholdBPS ∧ g.thresholdBPS ≤ 10000) ∧ buildAuthoritativeTool g.echo g.thresholdBPS = .ok g) ↔
      V9AuthoritativeToolGate.validate g = .ok () := by
  simp only [buildAuthoritativeTool, V9AuthoritativeToolGate.validate, validateBoundedCases, fieldCount, fieldShare,
    fieldIn, fieldResult, check_bind_eq_ok_iff, ensure_eq_ok_iff]
  obtain ⟨expected, matched, missing, unexpected, observed, share, threshold, result, factor⟩ := g
  simp only [AuthoritativeToolEvidence.echo, V9AuthoritativeToolGate.derived, BasisPointScale, MaxCaseCount]
  by_cases hzero : expected = 0
  · simp [hzero]
    grind
  by_cases hpart : 0 ≤ matched ∧ matched ≤ expected
  · have hpos : 0 < expected := by omega
    have hshare := coverageBPS_mem hpart.1 hpos hpart.2
    simp only [if_false, hzero, ← coverageBPS_eq hpart.1]
    by_cases hbelow : coverageBPS matched expected < threshold
    · simp [hbelow]
      grind
    · simp [hbelow]
      grind
  · grind

theorem inferenceLatency_agree (g : InferenceLatencyEvidence) :
    buildInferenceLatency g.echo = .ok g ↔ V12InferenceLatencyGate.validate g = .ok () ∧ g.floorMS ≤ 60000 := by
  simp only [buildInferenceLatency, V12InferenceLatencyGate.validate, fieldCount, fieldShare, fieldIn,
    fieldResult, check_bind_eq_ok_iff, ensure_eq_ok_iff, validateCaseCounts_ok, List.forall_mem_cons]
  obtain ⟨administered, eligible, flagged, unflagged, floor, complete, posture, share, threshold, result, factor⟩ := g
  simp only [InferenceLatencyEvidence.echo, V12InferenceLatencyGate.derived, BasisPointScale, maxLatencyFloorMS]
  cases complete with
  | false =>
    simp
    grind
  | true =>
    by_cases hzero : eligible = 0
    · simp [hzero]
      grind
    by_cases hpart : 0 ≤ flagged ∧ flagged ≤ eligible
    · have hpos : 0 < eligible := by omega
      have hshare := coverageBPS_mem hpart.1 hpos hpart.2
      simp only [if_false, hzero, coverageBps_eq hpart.1 hpos]
      by_cases hbelow : coverageBPS flagged eligible < threshold
      · simp [hbelow]
        grind
      by_cases henforce : posture = .enforce
      · simp [hbelow, henforce]
        grind
      · simp [hbelow, henforce]
        grind
    · grind

theorem claimProvenance_agree (g : ClaimProvenanceEvidence) :
    buildClaimProvenance g.echo = .ok g ↔ V13ClaimProvenanceGate.validate g = .ok () := by
  simp only [buildClaimProvenance, V13ClaimProvenanceGate.validate, fieldCount, fieldShare, fieldIn, fieldResult,
    check_bind_eq_ok_iff, ensure_eq_ok_iff, validateCaseCounts_ok, List.forall_mem_cons]
  obtain ⟨administered, eligible, notEmitted, inPrompt, flagged, unattributed, unsettled, zeroed, complete, posture,
    share, result, factor⟩ := g
  simp only [ClaimProvenanceEvidence.echo, V13ClaimProvenanceGate.derived, BasisPointScale]
  by_cases hpart : 0 ≤ flagged ∧ flagged ≤ eligible
  · by_cases hpos : 0 < eligible
    · have hshare := coverageBPS_mem hpart.1 hpos hpart.2
      have hzero : ¬ eligible = 0 := by omega
      simp only [if_true, hpos, hzero, if_false, coverageBps_eq hpart.1 hpos]
      simp
      grind
    · have hzero : eligible = 0 := by omega
      simp [hzero]
      grind
  · grind

/-- A share that is zero over no cases. -/
theorem share_mem {n d : ℤ} (hn : 0 ≤ n) (hle : n ≤ d) :
    0 ≤ (if 0 < d then coverageBPS n d else 0) ∧ (if 0 < d then coverageBPS n d else 0) ≤ 10000 := by
  by_cases hd : 0 < d
  · rw [if_pos hd]
    exact coverageBPS_mem hn hd hle
  · rw [if_neg hd]
    decide

theorem share_eq {n d : ℤ} (hn : 0 ≤ n) :
    (if 0 < d then coverageBps n d else 0) = (if 0 < d then coverageBPS n d else 0) := by
  by_cases hd : 0 < d
  · rw [if_pos hd, if_pos hd, coverageBps_eq hn hd]
  · rw [if_neg hd, if_neg hd]

theorem answerStuffing_agree (g : AnswerStuffingEvidence) :
    buildAnswerStuffing g.echo = .ok g ↔ V12AnswerStuffingGate.validate g = .ok () := by
  generalize hinput : g.echo = input
  simp only [buildAnswerStuffing, V12AnswerStuffingGate.validate, fieldCount, fieldShare, fieldIn, fieldResult,
    check_bind_eq_ok_iff, ensure_eq_ok_iff, validateCaseCounts_ok, List.forall_mem_cons]
  obtain ⟨administered, eligible, stuffed, clean, complete, review, posture, share, threshold, minimum, looseEligible,
    looseStuffed, looseShare, reviewThreshold, result, factor⟩ := g
  have hfields : input.administeredCases = administered ∧ input.eligibleCases = eligible ∧
      input.stuffedCases = stuffed ∧ input.minCases = minimum ∧ input.shareThresholdBPS = threshold ∧
      input.looseEligibleCases = looseEligible ∧ input.looseStuffedCases = looseStuffed ∧
      input.reviewShareThresholdBPS = reviewThreshold ∧ input.posture = posture ∧ input.telemetryComplete = true ∧
      input.attributionComplete = complete ∧ input.reviewRequired = review := by
    simp [← hinput, AnswerStuffingEvidence.echo]
  simp only [hfields, V12AnswerStuffingGate.derived, BasisPointScale, AnswerStuffingMaxPenaltyBPS,
    answerStuffingReviewMinCases]
  clear hinput hfields
  cases complete with
  | false =>
    simp
    grind
  | true =>
    by_cases hpart : (0 ≤ stuffed ∧ stuffed ≤ eligible) ∧ 0 ≤ looseStuffed ∧ looseStuffed ≤ looseEligible
    · obtain ⟨⟨hs, hse⟩, hl, hle⟩ := hpart
      have hshare := share_mem hs hse
      have hloose := share_mem hl hle
      simp only [share_eq hs, share_eq hl]
      cases review with
      | true =>
        simp
        grind
      | false =>
        by_cases hflag : 0 < eligible ∧ minimum ≤ stuffed
        · cases posture with
          | unset => simp
          | enforce =>
            simp [hflag]
            grind
          | review =>
            simp [hflag]
            grind
          | penalize =>
            simp [hflag]
            grind
        by_cases hreview : 0 < reviewThreshold ∧ 2 ≤ looseStuffed ∧
            reviewThreshold ≤ (if 0 < looseEligible then coverageBPS looseStuffed looseEligible else 0)
        · simp [hflag, hreview]
          grind
        by_cases hzero : eligible = 0
        · simp [hreview, hzero]
          grind
        · simp [hflag, hreview, hzero]
          grind
    · grind

/-- The covered requests, capped by the eligible cases. -/
theorem requestCovered_eq {eligible : ℤ} {requests : ℕ} (h : 0 ≤ eligible) :
    (((if eligible.toNat < requests then eligible.toNat else requests : ℕ)) : ℤ) = min (requests : ℤ) eligible := by
  by_cases hlt : eligible.toNat < requests
  · rw [if_pos hlt, Int.toNat_of_nonneg h]
    omega
  · rw [if_neg hlt]
    omega

theorem modelUse_agree (g : ModelUseEvidence) :
    ((1 ≤ g.thresholdBPS ∧ g.thresholdBPS ≤ 10000) ∧ buildModelUse g.echo g.thresholdBPS = .ok g) ↔
      V9ModelUseGate.validate g = .ok () := by
  generalize hinput : g.echo = input
  simp only [buildModelUse, V9ModelUseGate.validate, validateCases, fieldCount, fieldShare, fieldIn, fieldUsage,
    fieldResult, check_bind_eq_ok_iff, ensure_eq_ok_iff, validateCaseCounts_ok, List.forall_mem_cons]
  obtain ⟨administered, eligible, successful, missing, observed, requests, prompt, completion, excluded, complete,
    requestShare, share, threshold, result, factor⟩ := g
  have hfields : input.administeredCases = administered ∧ input.eligibleCases = eligible ∧
      input.successfulInferenceCases = successful ∧ input.observedRequests = observed ∧
      input.successfulRequests = requests ∧ input.promptTokens = prompt ∧ input.completionTokens = completion ∧
      input.excluded = excluded ∧ input.telemetryComplete = true ∧ input.caseAttributionComplete = complete := by
    simp [← hinput, ModelUseEvidence.echo]
  simp only [hfields, BasisPointScale, MaxCaseCount, MaxUsageCount, ExclusionCounts.total, bind_eq_ok_iff,
    V9ModelUseGate.derived]
  clear hinput hfields
  by_cases hpart : 0 ≤ successful ∧ successful ≤ eligible
  · have helig : 0 ≤ eligible := by omega
    by_cases hzero : eligible = 0
    · simp [hzero]
      grind
    · have hpos : 0 < eligible := by omega
      have hrequests : 0 ≤ min (requests : ℤ) eligible := by omega
      have hcovered := coverageBPS_mem hrequests hpos (by omega)
      have hshare := coverageBPS_mem hpart.1 hpos hpart.2
      simp only [if_false, hzero, requestCovered_eq helig, ← coverageBPS_eq hrequests, ← coverageBPS_eq hpart.1]
      by_cases hnone : observed = 0 ∧ requests = 0 ∧ successful = 0 ∧ prompt = 0 ∧ completion = 0
      · simp [hnone]
        grind
      simp only [if_neg hnone]
      cases complete with
      | false =>
        by_cases hnotImputed : successful = 0
        · simp only [if_true, ensure_bind_pos hnotImputed]
          simp
          grind
        · simp only [if_true, ensure_bind_neg hnotImputed]
          simp
      | true =>
        by_cases hbelow : coverageBPS successful eligible < threshold
        · simp [hbelow]
          grind
        · simp [hbelow]
          grind
  · grind

/-! ## Evidence -/

theorem validSHA256_iff {value : Bytes} : validSHA256 value ↔ sha256Pattern value := by
  have hbyte : ∀ b : UInt8, (toLowerByte b = b ∧ isHexDigit b = true) ↔
      ((48 ≤ b ∧ b ≤ 57) ∨ (97 ≤ b ∧ b ≤ 102)) := by
    decide +kernel
  unfold validSHA256 sha256Pattern
  rw [List.all_eq_true]
  constructor
  · rintro ⟨hlen, hlower, hhex⟩
    refine ⟨hlen, fun b hb => (hbyte b).mp ⟨?_, hhex b hb⟩⟩
    have hmap : value.map toLowerByte = value.map id := by rw [List.map_id, ← hlower]
    exact List.map_inj_left.mp hmap b hb
  · rintro ⟨hlen, hpattern⟩
    refine ⟨hlen, ?_, fun b hb => ((hbyte b).mpr (hpattern b hb)).2⟩
    have hmap : value.map toLowerByte = value.map id :=
      List.map_inj_left.mpr fun b hb => ((hbyte b).mpr (hpattern b hb)).1
    rw [hmap, List.map_id]

theorem validateThresholds_ok {t : Thresholds} {v : ℤ} : validateThresholds t v = .ok () ↔
    profileIDPattern t.profile.id = true ∧ validSHA256 t.profile.manifestSHA256 ∧
      (1 ≤ t.modelUseCoverageBPS ∧ t.modelUseCoverageBPS ≤ 10000) ∧
      (1 ≤ t.authoritativeToolCoverageBPS ∧ t.authoritativeToolCoverageBPS ≤ 10000) ∧
      (if 12 ≤ v then 1 ≤ t.modelDependenceCoverageBPS ∧ t.modelDependenceCoverageBPS ≤ 10000
        else t.modelDependenceCoverageBPS = 0) := by
  simp only [validateThresholds, check_bind_eq_ok_iff, ensure_eq_ok_iff]
  by_cases hv : 12 ≤ v
  · rw [if_pos hv, if_pos hv, ensure_eq_ok_iff]
    rfl
  · rw [if_neg hv, if_neg hv, ensure_eq_ok_iff]
    rfl

/-- An optional gate holds its own derivation when it was administered, and is zero otherwise. -/
def OptionalGate {γ : Type} (administered : Prop) (gate zero : γ) (build : Except Failure γ) : Prop :=
  (administered ∧ build = .ok gate) ∨ (¬ administered ∧ gate = zero)

theorem rebuildOptional_ok {γ : Type} [DecidableEq γ] {v since : ℤ} {administered : Prop} [Decidable administered]
    {gate zero : γ} {build : Except Failure γ} {message : String} :
    rebuildOptional v since administered gate zero build message = .ok gate ↔
      OptionalGate (since ≤ v ∧ administered) gate zero build := by
  unfold rebuildOptional OptionalGate
  by_cases h : since ≤ v ∧ administered
  · rw [if_pos h]
    exact ⟨fun hbuild => Or.inl ⟨h, hbuild⟩, fun hgate => hgate.elim And.right fun hnot => absurd h hnot.1⟩
  · rw [if_neg h, check_bind_eq_ok_iff, ensure_eq_ok_iff, pure_eq_ok_iff]
    exact ⟨fun hzero => Or.inr ⟨h, hzero.1⟩, fun hgate => hgate.elim (fun hyes => absurd hyes.1 h)
      fun hzero => ⟨hzero.2, hzero.2.symm⟩⟩

theorem Build_ok {v : ℤ} {model : ModelUseInput} {tool : AuthoritativeToolInput} {thresholds : Thresholds}
    {mode : RolloutMode} {dependence : List ModelDependenceInput} {e : Evidence} :
    Build v model tool thresholds mode dependence = .ok e ↔
      SupportedBenchVersion v ∧ validateThresholds thresholds v = .ok () ∧ (mode = .shadow ∨ mode = .enforce) ∧
      buildModelDependenceForVersion v thresholds.modelDependenceCoverageBPS dependence = .ok e.modelDependence ∧
      buildModelUse model thresholds.modelUseCoverageBPS = .ok e.modelUse ∧
      buildAuthoritativeTool tool thresholds.authoritativeToolCoverageBPS = .ok e.authoritativeTool ∧
      e = { schemaVersion := 1, benchVersion := v, rolloutMode := mode, thresholdProfile := thresholds.profile,
            modelUse := e.modelUse, authoritativeTool := e.authoritativeTool,
            modelDependence := e.modelDependence } := by
  simp only [Build, check_bind_eq_ok_iff, ensure_eq_ok_iff]
  simp only [bind_eq_ok_iff, pure_eq_ok_iff]
  constructor
  · rintro ⟨hv, hthresholds, hmode, d, hd, m, hm, t, ht, rfl⟩
    exact ⟨hv, hthresholds, hmode, hd, hm, ht, rfl⟩
  · rintro ⟨hv, hthresholds, hmode, hd, hm, ht, he⟩
    exact ⟨hv, hthresholds, hmode, _, hd, _, hm, _, ht, he.symm⟩

/-- The dependence gate of an evidence, derived again for its version. -/
theorem dependence_ok {v : ℤ} {g : ModelDependenceEvidence} :
    ((if 12 ≤ v then 1 ≤ g.thresholdBPS ∧ g.thresholdBPS ≤ 10000 else g.thresholdBPS = 0) ∧
      buildModelDependenceForVersion v g.thresholdBPS (if 12 ≤ v then [g.echo] else []) = .ok g) ↔
    (if 12 ≤ v then V12ModelDependenceGate.validate g = .ok () else g = {}) := by
  unfold buildModelDependenceForVersion
  by_cases hv : 12 ≤ v
  · rw [if_pos hv, if_pos hv, if_pos hv, if_neg (by omega), ← modelDependence_agree]
  · rw [if_neg hv, if_neg hv, if_neg hv, if_pos (by omega), check_bind_eq_ok_iff, ensure_eq_ok_iff, pure_eq_ok_iff]
    constructor
    · rintro ⟨-, -, rfl⟩
      rfl
    · rintro rfl
      exact ⟨rfl, rfl, rfl⟩

/-- The evidence that the scorer accepts, gate by gate. -/
theorem Evidence.validate_ok {e : Evidence} : e.validate = .ok () ↔
    e.schemaVersion = 1 ∧ SupportedBenchVersion e.benchVersion ∧ profileIDPattern e.thresholdProfile.id = true ∧
      validSHA256 e.thresholdProfile.manifestSHA256 ∧ (e.rolloutMode = .shadow ∨ e.rolloutMode = .enforce) ∧
      V9ModelUseGate.validate e.modelUse = .ok () ∧ V9AuthoritativeToolGate.validate e.authoritativeTool = .ok () ∧
      (if 12 ≤ e.benchVersion then V12ModelDependenceGate.validate e.modelDependence = .ok ()
        else e.modelDependence = {}) ∧
      OptionalGate (12 ≤ e.benchVersion ∧ e.inferenceLatency.administered) e.inferenceLatency {}
        (buildInferenceLatency e.inferenceLatency.echo) ∧
      OptionalGate (12 ≤ e.benchVersion ∧ e.answerStuffing.administered) e.answerStuffing {}
        (buildAnswerStuffing e.answerStuffing.echo) ∧
      OptionalGate (13 ≤ e.benchVersion ∧ e.claimProvenance.administered) e.claimProvenance {}
        (buildClaimProvenance e.claimProvenance.echo) := by
  rw [← modelUse_agree, ← authoritativeTool_agree, ← dependence_ok]
  simp only [Evidence.validate, check_bind_eq_ok_iff, ensure_eq_ok_iff]
  simp only [bind_eq_ok_iff, ensure_eq_ok_iff]
  constructor
  · rintro ⟨⟨hschema, hv⟩, want, hbuild, latency, hlatency, stuffing, hstuffing, provenance, hprovenance, he⟩
    obtain ⟨-, hthresholds, hmode, hd, hm, ht, hwant⟩ := Build_ok.mp hbuild
    obtain ⟨hid, hsha, htm, htt, htd⟩ := validateThresholds_ok.mp hthresholds
    have hfields : want.modelDependence = e.modelDependence ∧ want.modelUse = e.modelUse ∧
        want.authoritativeTool = e.authoritativeTool ∧ latency = e.inferenceLatency ∧ stuffing = e.answerStuffing ∧
        provenance = e.claimProvenance := by
      refine ⟨?_, ?_, ?_, ?_, ?_, ?_⟩ <;> rw [he]
    obtain ⟨hwd, hwm, hwt, rfl, rfl, rfl⟩ := hfields
    rw [hwd] at hd
    rw [hwm] at hm
    rw [hwt] at ht
    exact ⟨hschema, hv, hid, hsha, hmode, ⟨htm, hm⟩, ⟨htt, ht⟩, ⟨htd, hd⟩, rebuildOptional_ok.mp hlatency,
      rebuildOptional_ok.mp hstuffing, rebuildOptional_ok.mp hprovenance⟩
  · rintro ⟨hschema, hv, hid, hsha, hmode, ⟨htm, hm⟩, ⟨htt, ht⟩, ⟨htd, hd⟩, hlatency, hstuffing, hprovenance⟩
    let want : Evidence :=
      { e with schemaVersion := 1, inferenceLatency := {}, answerStuffing := {}, claimProvenance := {} }
    refine ⟨⟨hschema, hv⟩, want, ?_, _, rebuildOptional_ok.mpr hlatency, _, rebuildOptional_ok.mpr hstuffing, _,
      rebuildOptional_ok.mpr hprovenance, ?_⟩
    · exact Build_ok.mpr ⟨hv, validateThresholds_ok.mpr ⟨hid, hsha, htm, htt, htd⟩, hmode, hd, hm, ht, rfl⟩
    · show e = { e with schemaVersion := 1 }
      rw [← hschema]

/-! ## The wire -/

/-- A gate on the wire: the zero value is omitted. -/
def present {γ : Type} [DecidableEq γ] (zero gate : γ) : Option γ := if gate = zero then none else some gate

/-- What the mirror reads from the JSON form of an evidence. -/
def Evidence.mirror (e : Evidence) : V9ScoreGateEvidence where
  schemaVersion := e.schemaVersion
  benchVersion := e.benchVersion
  rolloutMode := e.rolloutMode
  thresholdProfile := e.thresholdProfile
  modelUse := e.modelUse
  authoritativeTool := e.authoritativeTool
  modelDependence := present {} e.modelDependence
  inferenceLatency := present {} e.inferenceLatency
  answerStuffing := present {} e.answerStuffing
  claimProvenance := present {} e.claimProvenance

section Optional

variable {γ : Type} [DecidableEq γ] {zero gate : γ} {validate : γ → Except String Unit}

@[simp] theorem present_zero : present zero zero = none := if_pos rfl

theorem present_of_ne (h : gate ≠ zero) : present zero gate = some gate := if_neg h

/-- An optional gate of the scorer is an optional gate of the mirror, for a gate whose zero value neither side
accepts. -/
theorem optionalGate_iff {v since : ℤ} {administered : γ → Prop} {build : Except Failure γ} {P : Prop}
    (hzero : ¬ administered zero) (hvalid : validate gate = .ok () → administered gate)
    (hagree : build = .ok gate ↔ validate gate = .ok () ∧ P) :
    OptionalGate (since ≤ v ∧ administered gate) gate zero build ↔
      validateOptional validate (present zero gate) = .ok () ∧ (present zero gate ≠ none → since ≤ v ∧ P) := by
  unfold OptionalGate
  by_cases h : gate = zero
  · subst h
    rw [present_zero]
    constructor
    · intro _
      exact ⟨rfl, fun hne => absurd rfl hne⟩
    · intro _
      exact Or.inr ⟨fun hadm => hzero hadm.2, rfl⟩
  · rw [present_of_ne h, validateOptional]
    constructor
    · rintro (⟨⟨hv, -⟩, hbuild⟩ | ⟨-, heq⟩)
      · obtain ⟨hok, hextra⟩ := hagree.mp hbuild
        exact ⟨hok, fun _ => ⟨hv, hextra⟩⟩
      · exact absurd heq h
    · rintro ⟨hok, hrest⟩
      obtain ⟨hv, hextra⟩ := hrest (fun hnone => nomatch hnone)
      exact Or.inl ⟨⟨hv, hvalid hok⟩, hagree.mpr ⟨hok, hextra⟩⟩

end Optional

theorem latency_administered {g : InferenceLatencyEvidence} (h : V12InferenceLatencyGate.validate g = .ok ()) :
    g.administered := by
  simp only [V12InferenceLatencyGate.validate, fieldResult, check_bind_eq_ok_iff, ensure_eq_ok_iff] at h
  exact h.2.2.2.2.2.2.2.2.1

theorem stuffing_administered {g : AnswerStuffingEvidence} (h : V12AnswerStuffingGate.validate g = .ok ()) :
    g.administered := by
  simp only [V12AnswerStuffingGate.validate, fieldResult, check_bind_eq_ok_iff, ensure_eq_ok_iff] at h
  exact h.2.2.2.2.2.2.2.2.2.2.2.2.1

theorem provenance_administered {g : ClaimProvenanceEvidence} (h : V13ClaimProvenanceGate.validate g = .ok ()) :
    g.administered := by
  simp only [V13ClaimProvenanceGate.validate, fieldResult, check_bind_eq_ok_iff, ensure_eq_ok_iff] at h
  exact h.2.2.2.2.2.2.2.2.2.2.1

theorem evidenceBenchVersions_iff {v : ℤ} : v ∈ evidenceBenchVersions ↔ SupportedBenchVersion v := by
  rw [supported_iff]
  simp only [evidenceBenchVersions, List.mem_cons, List.not_mem_nil, or_false]
  omega

/-- The dependence gate is on the wire from version 12 on. -/
theorem dependence_present {v : ℤ} {g : ModelDependenceEvidence} :
    (if 12 ≤ v then V12ModelDependenceGate.validate g = .ok () else g = {}) ↔
      validateOptional V12ModelDependenceGate.validate (present {} g) = .ok () ∧ (12 ≤ v ↔ present {} g ≠ none) := by
  by_cases h : g = {}
  · subst h
    rw [present_zero]
    by_cases hv : 12 ≤ v
    · rw [if_pos hv]
      constructor
      · intro hzero
        exact absurd hzero (by decide)
      · intro hnone
        exact absurd rfl (hnone.2.mp hv)
    · rw [if_neg hv]
      exact ⟨fun _ => ⟨rfl, fun hv' => absurd hv' hv, fun hne => absurd rfl hne⟩, fun _ => rfl⟩
  · rw [present_of_ne h, validateOptional]
    by_cases hv : 12 ≤ v
    · rw [if_pos hv]
      exact ⟨fun hok => ⟨hok, fun _ hnone => (nomatch hnone), fun _ => hv⟩, And.left⟩
    · rw [if_neg hv]
      exact ⟨fun hzero => absurd hzero h, fun hok => absurd (hok.2.mpr fun hnone => nomatch hnone) hv⟩

/-- A validated optional gate that was administered is on the wire. -/
theorem administered_iff {γ : Type} [DecidableEq γ] {zero gate : γ} {validate : γ → Except String Unit}
    {administered : γ → Prop} (hzero : ¬ administered zero) (hvalid : validate gate = .ok () → administered gate)
    (hok : validateOptional validate (present zero gate) = .ok ()) : administered gate ↔ present zero gate ≠ none := by
  by_cases h : gate = zero
  · subst h
    rw [present_zero]
    exact ⟨fun hadm => absurd hadm hzero, fun hne => absurd rfl hne⟩
  · rw [present_of_ne h, validateOptional] at *
    exact ⟨fun _ hnone => (nomatch hnone), fun _ => hvalid hok⟩

/-- The evidence that the scorer accepts with its provenance gate is the evidence whose wire form the mirror accepts,
with a latency floor the scorer allows. -/
theorem mirror_validate {e : Evidence} :
    (e.validate = .ok () ∧ (13 ≤ e.benchVersion → e.claimProvenance.administered)) ↔
      (e.mirror.validate = .ok () ∧ (e.mirror.inferenceLatency ≠ none → e.inferenceLatency.floorMS ≤ 60000)) := by
  rw [Evidence.validate_ok, optionalGate_iff (fun h => h rfl) latency_administered (inferenceLatency_agree _),
    optionalGate_iff (P := True) (fun h => h rfl) stuffing_administered (by rw [answerStuffing_agree, and_true]),
    optionalGate_iff (P := True) (fun h => h rfl) provenance_administered (by rw [claimProvenance_agree, and_true]),
    dependence_present]
  simp only [V9ScoreGateEvidence.validate, check_bind_eq_ok_iff, ensure_eq_ok_iff, evidenceBenchVersions_iff,
    ← validSHA256_iff]
  constructor
  · rintro ⟨⟨hschema, hv, hid, hsha, hmode, hmodel, htool, ⟨hdep, hdep12⟩, ⟨hlat, hlat12⟩, ⟨hstuff, hstuff12⟩, hclaim,
      hclaim13⟩, hadm⟩
    refine ⟨⟨hschema, hv, hmode, hid, hsha, hmodel, htool, hdep, hlat, hstuff, hclaim, ?_, ?_, ?_, ?_⟩,
      fun hne => (hlat12 hne).2⟩
    · rintro ⟨h12, hnone⟩
      exact hdep12.mp h12 hnone
    · rintro ⟨h12, hd | hl | hs⟩
      · exact h12 (hdep12.mpr hd)
      · exact h12 (hlat12 hl).1
      · exact h12 (hstuff12 hs).1
    · rintro ⟨h13, hnone⟩
      exact (administered_iff (fun h => h rfl) provenance_administered hclaim).mp (hadm h13) hnone
    · rintro ⟨h13, hne⟩
      exact h13 (hclaim13 hne).1
  · rintro ⟨⟨hschema, hv, hmode, hid, hsha, hmodel, htool, hdep, hlat, hstuff, hclaim, h12, hpre12, h13, hpre13⟩,
      hfloor⟩
    have hpre : ∀ {P : Prop}, (P → (e.mirror.modelDependence ≠ none ∨ e.mirror.inferenceLatency ≠ none ∨
        e.mirror.answerStuffing ≠ none)) → P → 12 ≤ e.benchVersion := by
      intro P himp hP
      by_contra hlt
      exact hpre12 ⟨hlt, himp hP⟩
    refine ⟨⟨hschema, hv, hid, hsha, hmode, hmodel, htool, ⟨hdep, ?_, ?_⟩, ⟨hlat, ?_⟩, ⟨hstuff, ?_⟩, hclaim, ?_⟩, ?_⟩
    · intro h hnone
      exact h12 ⟨h, hnone⟩
    · exact hpre Or.inl
    · intro hne
      exact ⟨hpre (fun h => Or.inr (Or.inl h)) hne, hfloor hne⟩
    · intro hne
      exact ⟨hpre (fun h => Or.inr (Or.inr h)) hne, trivial⟩
    · intro hne
      refine ⟨?_, trivial⟩
      by_contra hlt
      exact hpre13 ⟨hlt, hne⟩
    · intro h
      exact (administered_iff (fun h => h rfl) provenance_administered hclaim).mpr fun hnone => h13 ⟨h, hnone⟩

/-! ## Bytes and factors -/

theorem OptionalGate.administered_iff {γ : Type} {since v : ℤ} {zero gate : γ} {administered : γ → Prop}
    {build : Except Failure γ} (hzero : ¬ administered zero)
    (h : OptionalGate (since ≤ v ∧ administered gate) gate zero build) :
    (since ≤ v ∧ administered gate) ↔ gate ≠ zero := by
  rcases h with ⟨hadm, -⟩ | ⟨hnot, heq⟩
  · refine ⟨fun _ heq => hzero ?_, fun _ => hadm⟩
    rw [← heq]
    exact hadm.2
  · exact ⟨fun hadm => absurd hadm hnot, fun hne => absurd heq hne⟩

/-- The lines of an optional gate on both sides. -/
theorem optionalFields_present {γ : Type} [DecidableEq γ] {zero gate : γ} {P : Prop} [Decidable P]
    {fields : γ → List (String × Bytes)} (h : P ↔ gate ≠ zero) :
    optionalFields fields (present zero gate) = if P then fields gate else [] := by
  by_cases hP : P
  · rw [if_pos hP, present_of_ne (h.mp hP), optionalFields]
  · rw [if_neg hP, not_not.mp (fun hne => hP (h.mpr hne)), present_zero, optionalFields]

/-- The factor of an optional gate on both sides. -/
theorem timesFactor_present {γ : Type} [DecidableEq γ] {zero gate : γ} {P : Prop} [Decidable P] {factor : γ → ℤ}
    {combined : ℤ} (h : P ↔ gate ≠ zero) (hcombined : 0 ≤ combined) (hfactor : P → 0 ≤ factor gate) :
    timesFactor factor combined (present zero gate) =
      if P then (combined * factor gate).tdiv BasisPointScale else combined := by
  by_cases hP : P
  · rw [if_pos hP, present_of_ne (h.mp hP), timesFactor,
      Int.tdiv_eq_ediv_of_nonneg (mul_nonneg hcombined (hfactor hP)), BasisPointScale]
  · rw [if_neg hP, not_not.mp (fun hne => hP (h.mpr hne)), present_zero, timesFactor]

section Valid

variable {e : Evidence} (h : e.validate = .ok ())

include h

theorem Evidence.latency_iff : (12 ≤ e.benchVersion ∧ e.inferenceLatency.administered) ↔ e.inferenceLatency ≠ {} :=
  (Evidence.validate_ok.mp h).2.2.2.2.2.2.2.2.1.administered_iff (fun h => h rfl)

theorem Evidence.stuffing_iff : (12 ≤ e.benchVersion ∧ e.answerStuffing.administered) ↔ e.answerStuffing ≠ {} :=
  (Evidence.validate_ok.mp h).2.2.2.2.2.2.2.2.2.1.administered_iff (fun h => h rfl)

theorem Evidence.provenance_iff : (13 ≤ e.benchVersion ∧ e.claimProvenance.administered) ↔ e.claimProvenance ≠ {} :=
  (Evidence.validate_ok.mp h).2.2.2.2.2.2.2.2.2.2.administered_iff (fun h => h rfl)

theorem Evidence.dependence_iff : 12 ≤ e.benchVersion ↔ e.modelDependence ≠ {} := by
  have hdep := (Evidence.validate_ok.mp h).2.2.2.2.2.2.2.1
  by_cases hv : 12 ≤ e.benchVersion
  · rw [if_pos hv] at hdep
    refine ⟨fun _ hzero => ?_, fun _ => hv⟩
    rw [hzero] at hdep
    exact absurd hdep (by decide)
  · rw [if_neg hv] at hdep
    exact ⟨fun hv' => absurd hv' hv, fun hne => absurd hdep hne⟩

/-- The mirror writes the lines of the scorer. -/
theorem mirror_fields : e.mirror.fields = e.fields := by
  have hdep : optionalFields V12ModelDependenceGate.lines (present {} e.modelDependence) =
      if 12 ≤ e.benchVersion then e.modelDependence.fields else [] := optionalFields_present (Evidence.dependence_iff h)
  have hlat : optionalFields V12InferenceLatencyGate.lines (present {} e.inferenceLatency) =
      if 12 ≤ e.benchVersion ∧ e.inferenceLatency.administered then e.inferenceLatency.fields else [] :=
    optionalFields_present (Evidence.latency_iff h)
  have hstuff : optionalFields V12AnswerStuffingGate.lines (present {} e.answerStuffing) =
      if 12 ≤ e.benchVersion ∧ e.answerStuffing.administered then e.answerStuffing.fields else [] :=
    optionalFields_present (Evidence.stuffing_iff h)
  have hclaim : optionalFields V13ClaimProvenanceGate.lines (present {} e.claimProvenance) =
      if 13 ≤ e.benchVersion ∧ e.claimProvenance.administered then e.claimProvenance.fields else [] :=
    optionalFields_present (Evidence.provenance_iff h)
  have hmodel : V9ModelUseGate.lines e.modelUse = e.modelUse.fields := rfl
  have htool : V9AuthoritativeToolGate.lines e.authoritativeTool = e.authoritativeTool.fields := rfl
  simp only [V9ScoreGateEvidence.fields, Evidence.fields, Evidence.mirror, hdep, hlat, hstuff, hclaim, hmodel, htool]
  by_cases h12 : 12 ≤ e.benchVersion
  · by_cases h13 : 13 ≤ e.benchVersion
    · simp only [h12, h13, if_true, true_and, List.append_assoc]
    · simp only [h12, h13, if_true, if_false, true_and, false_and, List.append_assoc]
  · have h13 : ¬ 13 ≤ e.benchVersion := by omega
    simp only [h12, h13, if_false, false_and, List.append_assoc, List.append_nil]

theorem Evidence.latency_factor (hadm : 12 ≤ e.benchVersion ∧ e.inferenceLatency.administered) :
    0 ≤ e.inferenceLatency.factorBPS ∧ e.inferenceLatency.factorBPS ≤ 10000 := by
  have hgate := (Evidence.validate_ok.mp h).2.2.2.2.2.2.2.2.1
  obtain ⟨-, hbuild⟩ | ⟨hnot, -⟩ := hgate
  · have hok := ((inferenceLatency_agree _).mp hbuild).1
    simp only [V12InferenceLatencyGate.validate, fieldShare, fieldIn, check_bind_eq_ok_iff, ensure_eq_ok_iff] at hok
    exact hok.2.2.2.2.2.2.2.2.2.1
  · exact absurd hadm hnot

theorem Evidence.stuffing_factor (hadm : 12 ≤ e.benchVersion ∧ e.answerStuffing.administered) :
    0 ≤ e.answerStuffing.factorBPS ∧ e.answerStuffing.factorBPS ≤ 10000 := by
  have hgate := (Evidence.validate_ok.mp h).2.2.2.2.2.2.2.2.2.1
  obtain ⟨-, hbuild⟩ | ⟨hnot, -⟩ := hgate
  · have hok := (answerStuffing_agree _).mp hbuild
    simp only [V12AnswerStuffingGate.validate, fieldShare, fieldIn, check_bind_eq_ok_iff, ensure_eq_ok_iff] at hok
    exact hok.2.2.2.2.2.2.2.2.2.2.2.2.2.1
  · exact absurd hadm hnot

theorem Evidence.provenance_factor (hadm : 13 ≤ e.benchVersion ∧ e.claimProvenance.administered) :
    e.claimProvenance.factorBPS = 10000 := by
  have hgate := (Evidence.validate_ok.mp h).2.2.2.2.2.2.2.2.2.2
  obtain ⟨-, hbuild⟩ | ⟨hnot, -⟩ := hgate
  · have hok := (claimProvenance_agree _).mp hbuild
    simp only [V13ClaimProvenanceGate.validate, check_bind_eq_ok_iff, ensure_eq_ok_iff] at hok
    exact hok.2.2.2.2.2.2.2.2.2.2.2.1
  · exact absurd hadm hnot

omit h in
/-- A factor of at most one keeps a combined factor in its range. -/
theorem times_mem {P : Prop} [Decidable P] {combined factor : ℤ} (hc : 0 ≤ combined ∧ combined ≤ 10000)
    (hf : P → 0 ≤ factor ∧ factor ≤ 10000) :
    0 ≤ (if P then (combined * factor).tdiv BasisPointScale else combined) ∧
      (if P then (combined * factor).tdiv BasisPointScale else combined) ≤ 10000 := by
  by_cases hP : P
  · obtain ⟨hf0, hf1⟩ := hf hP
    have hprod : 0 ≤ combined * factor := mul_nonneg hc.1 hf0
    have hle : combined * factor ≤ 10000 * 10000 := mul_le_mul hc.2 hf1 hf0 (by omega)
    rw [if_pos hP, Int.tdiv_eq_ediv_of_nonneg hprod, BasisPointScale]
    omega
  · rw [if_neg hP]
    exact hc

theorem Evidence.combinedFactor_mem : 0 ≤ e.combinedFactor ∧ e.combinedFactor ≤ 10000 := by
  unfold Evidence.combinedFactor
  split
  · omega
  split
  · omega
  dsimp only
  exact times_mem (times_mem (times_mem ⟨by decide, by decide⟩ (Evidence.latency_factor h))
    (Evidence.stuffing_factor h))
    fun hadm => by rw [Evidence.provenance_factor h hadm]; omega

/-- The mirror combines the factors to the same factor. -/
theorem mirror_combinedFactor : e.mirror.combinedFactorBps = e.combinedFactor := by
  have hbase : (0 : ℤ) ≤ BasisPointScale ∧ BasisPointScale ≤ 10000 := by decide
  have hlatMem := times_mem hbase (Evidence.latency_factor h)
  have hstuffMem := times_mem hlatMem (Evidence.stuffing_factor h)
  have hlat := fun hadm => (Evidence.latency_factor h hadm).1
  have hstuff := fun hadm => (Evidence.stuffing_factor h hadm).1
  have hclaim : 13 ≤ e.benchVersion ∧ e.claimProvenance.administered → 0 ≤ e.claimProvenance.factorBPS := by
    intro hadm
    rw [Evidence.provenance_factor h hadm]
    decide
  have hdep : (12 ≤ e.benchVersion ∧ (present {} e.modelDependence).any (fun g => g.factorBPS = 0) = true) ↔
      (12 ≤ e.benchVersion ∧ e.modelDependence.factorBPS = 0) := by
    refine and_congr_right fun h12 => ?_
    rw [present_of_ne ((Evidence.dependence_iff h).mp h12), Option.any_some, decide_eq_true_iff]
  unfold V9ScoreGateEvidence.combinedFactorBps Evidence.combinedFactor Evidence.mirror
  simp only [hdep]
  rw [show (10000 : ℤ) = BasisPointScale from rfl, timesFactor_present (Evidence.latency_iff h) hbase.1 hlat,
    timesFactor_present (Evidence.stuffing_iff h) hlatMem.1 hstuff]
  by_cases h12 : 12 ≤ e.benchVersion
  · rw [if_pos h12, timesFactor_present (Evidence.provenance_iff h) hstuffMem.1 hclaim]
    by_cases h13 : 13 ≤ e.benchVersion
    · rw [if_pos h13]
    · simp only [h13, false_and, if_false]
  · have h13 : ¬ 13 ≤ e.benchVersion := by omega
    simp only [h12, h13, false_and, if_false]

end Valid

end DittoSubnet.Bench

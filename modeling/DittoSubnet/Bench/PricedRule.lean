import DittoSubnet.Bench.PricedWords

/-!
# The priced cost rule

What the published rule gives, first for the Python function and then, by `BuildPricedCost_eq`, for the Go one.

* The factor is the polyline of the curve at the ratio, so it stays between the floor and 10000, falls with every
  priced count, rises with the number of cases (`factorBps_antitone`, `ratioBps_mono`) and is never below the real
  curve at the exact ratio (`realFactor_le`).
* A block is rebuilt from its own counts (`buildPricedCost_rebuild`), so both validators accept exactly the blocks that
  some call builds.
-/

namespace DittoSubnet.Bench

open Kit.Machine Kit.Polyline

namespace ScreeningProtocol

/-! ## Clamping and saturation -/

theorem clamp_nonneg (x : ℤ) : 0 ≤ clamp x := le_min (le_max_right _ _) (by decide)

theorem clamp_clamp (x : ℤ) : clamp (clamp x) = clamp x := by
  have h := clamp_nonneg x
  rw [clamp, max_eq_left h]
  exact min_eq_left (min_le_right _ _)

theorem clamp_mono {x y : ℤ} (h : x ≤ y) : clamp x ≤ clamp y := min_le_min_right _ (max_le_max_right _ h)

theorem sat_nonneg {x : ℤ} (h : 0 ≤ x) : 0 ≤ sat x := le_min h (by decide)

theorem sat_le (x : ℤ) : sat x ≤ x := min_le_left _ _

theorem sat_mono {x y : ℤ} (h : x ≤ y) : sat x ≤ sat y := min_le_min_right _ h

/-! ## Cost, ratio and factor -/

/-- The saturated cost of clamped counts. -/
def costNanoUsd (k : Counts) : ℤ :=
  sat (sat (sat (clamp k.promptTokens * 70) + sat (clamp k.completionTokens * 150)) +
    sat (sat (clamp k.embeddingTokens * 4) +
      sat (sat (clamp k.decisionInputTokens * 42) + sat (clamp k.decisionOutputTokens * 0))))

def normalizedCost (cost cases : ℤ) : ℤ := sat (cost * 350) / cases

def ratioBps (benchVersion cost cases : ℤ) : ℤ :=
  min (sat (normalizedCost cost cases * 10000) / pricedCostReferenceForVersion benchVersion) 100000

def factorBps (benchVersion cost cases : ℤ) : ℤ :=
  pricedCostFactorBpsForCurve (ratioBps benchVersion cost cases) (pricedCostCurveForVersion benchVersion)

/-- The priced counts of the first are at most those of the second. -/
structure Counts.Le (k k' : Counts) : Prop where
  prompt : k.promptTokens ≤ k'.promptTokens
  completion : k.completionTokens ≤ k'.completionTokens
  embedding : k.embeddingTokens ≤ k'.embeddingTokens
  decisionInput : k.decisionInputTokens ≤ k'.decisionInputTokens
  decisionOutput : k.decisionOutputTokens ≤ k'.decisionOutputTokens

theorem Counts.Le.refl (k : Counts) : k.Le k := ⟨le_refl _, le_refl _, le_refl _, le_refl _, le_refl _⟩

theorem costNanoUsd_mono {k k' : Counts} (h : k.Le k') : costNanoUsd k ≤ costNanoUsd k' := by
  have term {x y : ℤ} (n : ℤ) (hn : 0 ≤ n) (hxy : x ≤ y) : sat (clamp x * n) ≤ sat (clamp y * n) :=
    sat_mono (mul_le_mul_of_nonneg_right (clamp_mono hxy) hn)
  have hchat := sat_mono (add_le_add (term 70 (by decide) h.prompt) (term 150 (by decide) h.completion))
  have hdecision := sat_mono (add_le_add (term 42 (by decide) h.decisionInput) (term 0 (by decide) h.decisionOutput))
  have hother := sat_mono (add_le_add (term 4 (by decide) h.embedding) hdecision)
  exact sat_mono (add_le_add hchat hother)

theorem costNanoUsd_nonneg (k : Counts) : 0 ≤ costNanoUsd k := by
  have term (x : ℤ) {n : ℤ} (hn : 0 ≤ n) : 0 ≤ sat (clamp x * n) := sat_nonneg (mul_nonneg (clamp_nonneg x) hn)
  have hchat := add_nonneg (term k.promptTokens (n := 70) (by decide)) (term k.completionTokens (n := 150) (by decide))
  have hdecision :=
    add_nonneg (term k.decisionInputTokens (n := 42) (by decide)) (term k.decisionOutputTokens (n := 0) (by decide))
  have hother := add_nonneg (term k.embeddingTokens (n := 4) (by decide)) (sat_nonneg hdecision)
  exact sat_nonneg (add_nonneg (sat_nonneg hchat) (sat_nonneg hother))

/-- Saturation and clamping only lower the cost. -/
theorem costNanoUsd_le (k : Counts) : costNanoUsd k ≤ clamp k.promptTokens * 70 + clamp k.completionTokens * 150 +
    (clamp k.embeddingTokens * 4 + (clamp k.decisionInputTokens * 42 + clamp k.decisionOutputTokens * 0)) := by
  have hchat := (sat_le _).trans
    (add_le_add (sat_le (clamp k.promptTokens * 70)) (sat_le (clamp k.completionTokens * 150)))
  have hdecision := (sat_le _).trans
    (add_le_add (sat_le (clamp k.decisionInputTokens * 42)) (sat_le (clamp k.decisionOutputTokens * 0)))
  have hother := (sat_le _).trans (add_le_add (sat_le (clamp k.embeddingTokens * 4)) hdecision)
  exact (sat_le _).trans (add_le_add hchat hother)

theorem reference_pos (v : ℤ) : 0 < pricedCostReferenceForVersion v := by
  rw [pricedCostReferenceForVersion]
  split
  · decide
  · decide

theorem ratioBps_nonneg (v : ℤ) {cost cases : ℤ} (hcost : 0 ≤ cost) (hcases : 1 ≤ cases) :
    0 ≤ ratioBps v cost cases := by
  have hnormalized : 0 ≤ normalizedCost cost cases := Int.ediv_nonneg (sat_nonneg (by omega)) (by omega)
  exact le_min (Int.ediv_nonneg (sat_nonneg (by omega)) (reference_pos v).le) (by decide)

/-- A larger cost of a smaller run has a larger ratio. -/
theorem ratioBps_mono (v : ℤ) {cost cost' cases cases' : ℤ} (hcost0 : 0 ≤ cost) (hcost : cost ≤ cost')
    (hcases' : 1 ≤ cases') (hcases : cases' ≤ cases) : ratioBps v cost cases ≤ ratioBps v cost' cases' := by
  have hscaled0 : 0 ≤ sat (cost' * 350) := sat_nonneg (by omega)
  have hmore : normalizedCost cost cases ≤ normalizedCost cost' cases :=
    Int.ediv_le_ediv (by omega) (sat_mono (by omega))
  have hfewer : normalizedCost cost' cases ≤ normalizedCost cost' cases' := by
    refine Int.le_ediv_of_mul_le (by omega) ?_
    calc sat (cost' * 350) / cases * cases'
        ≤ sat (cost' * 350) / cases * cases :=
          mul_le_mul_of_nonneg_left hcases (Int.ediv_nonneg hscaled0 (by omega))
      _ ≤ sat (cost' * 350) := Int.ediv_mul_le _ (by omega)
  exact min_le_min_right _ (Int.ediv_le_ediv (reference_pos v) (sat_mono (by omega)))

/-! ## The curve as a polyline -/

theorem factorAfter_eq (r : ℤ) (lo : ℤ × ℤ) (rest : List (ℤ × ℤ)) : factorAfter r lo rest = descent lo rest r := by
  induction rest generalizing lo with
  | nil => rfl
  | cons hi rest ih =>
    rw [factorAfter, descent]
    split
    · exact ih hi
    · rfl

theorem factorForCurve_eq (r : ℤ) (c : Curve ℤ) : pricedCostFactorBpsForCurve r c = polyline c.first c.rest r := by
  rw [pricedCostFactorBpsForCurve, polyline]
  by_cases h : c.first.1 < r
  · rw [if_neg (not_le.2 h), if_pos h, factorAfter_eq]
  · rw [if_pos (not_lt.1 h), if_neg h]

/-- The published curve falls from 10000 to the floor of the version. -/
theorem curve_falling (v : ℤ) :
    Falling (pricedCostCurveForVersion v).first (pricedCostCurveForVersion v).rest ∧
      (pricedCostCurveForVersion v).first.2 = 10000 ∧
      floorOf (pricedCostCurveForVersion v).first (pricedCostCurveForVersion v).rest = pricedCostFloorForVersion v := by
  rw [pricedCostCurveForVersion, pricedCostFloorForVersion]
  split
  · exact ⟨by simp [Falling, PRICED_COST_V2_CURVE], rfl, rfl⟩
  · exact ⟨by simp [Falling, PRICED_COST_CURVE], rfl, rfl⟩

theorem factorBps_mem (v cost cases : ℤ) :
    pricedCostFloorForVersion v ≤ factorBps v cost cases ∧ factorBps v cost cases ≤ 10000 := by
  obtain ⟨hf, hfirst, hfloor⟩ := curve_falling v
  rw [factorBps, factorForCurve_eq]
  exact ⟨hfloor ▸ le_polyline Division.int hf _, hfirst ▸ polyline_le Division.int hf _⟩

/-- The factor falls with the cost and rises with the number of cases. -/
theorem factorBps_antitone (v : ℤ) {cost cost' cases cases' : ℤ} (hcost0 : 0 ≤ cost) (hcost : cost ≤ cost')
    (hcases' : 1 ≤ cases') (hcases : cases' ≤ cases) : factorBps v cost' cases' ≤ factorBps v cost cases := by
  rw [factorBps, factorForCurve_eq, factorBps, factorForCurve_eq]
  exact polyline_antitone Division.int (curve_falling v).1 (ratioBps_mono v hcost0 hcost hcases' hcases)

/-! ## The real curve at the exact ratio -/

/-- The exact ratio in basis points of counts that are neither clamped nor rounded. -/
def realRatio (benchVersion cases : ℤ) (k : Counts) : ℚ :=
  (70 * k.promptTokens + 150 * k.completionTokens + 4 * k.embeddingTokens + 42 * k.decisionInputTokens +
    0 * k.decisionOutputTokens) * 350 / cases * 10000 / pricedCostReferenceForVersion benchVersion

/-- The real piecewise-linear curve at the exact ratio. -/
def realFactor (benchVersion cases : ℤ) (k : Counts) : ℚ :=
  polyline (real (pricedCostCurveForVersion benchVersion).first)
    ((pricedCostCurveForVersion benchVersion).rest.map real) (realRatio benchVersion cases k)

/-- The counts of a block. -/
def Counts.clamped (k : Counts) : Counts where
  promptTokens := clamp k.promptTokens
  completionTokens := clamp k.completionTokens
  embeddingTokens := clamp k.embeddingTokens
  decisionCalls := k.decisionCalls
  decisionInputTokens := clamp k.decisionInputTokens
  decisionOutputTokens := clamp k.decisionOutputTokens

theorem ediv_cast_le {a b : ℤ} (hb : 0 < b) : ((a / b : ℤ) : ℚ) ≤ (a : ℚ) / b := by
  rw [le_div_iff₀ (Int.cast_pos.2 hb)]
  exact_mod_cast Int.ediv_mul_le a hb.ne'

/-- Clamping, saturating, rounding and capping only lower the ratio. -/
theorem ratioBps_le_realRatio (v : ℤ) {cases : ℤ} (hcases : 1 ≤ cases) (k : Counts) :
    (ratioBps v (costNanoUsd k) cases : ℚ) ≤ realRatio v cases k.clamped := by
  have hcases0 : (0 : ℚ) < cases := by exact_mod_cast hcases
  have href0 : (0 : ℚ) < pricedCostReferenceForVersion v := Int.cast_pos.2 (reference_pos v)
  have hcost : (costNanoUsd k : ℚ) ≤ 70 * clamp k.promptTokens + 150 * clamp k.completionTokens +
      4 * clamp k.embeddingTokens + 42 * clamp k.decisionInputTokens + 0 * clamp k.decisionOutputTokens := by
    have h := costNanoUsd_le k
    exact_mod_cast (by omega : costNanoUsd k ≤ 70 * clamp k.promptTokens + 150 * clamp k.completionTokens +
      4 * clamp k.embeddingTokens + 42 * clamp k.decisionInputTokens + 0 * clamp k.decisionOutputTokens)
  have hnormalized : (normalizedCost (costNanoUsd k) cases : ℚ) ≤ costNanoUsd k * 350 / cases := by
    refine (ediv_cast_le (by omega)).trans (div_le_div_of_nonneg_right ?_ hcases0.le)
    exact_mod_cast sat_le (costNanoUsd k * 350)
  calc (ratioBps v (costNanoUsd k) cases : ℚ)
      ≤ (sat (normalizedCost (costNanoUsd k) cases * 10000) / pricedCostReferenceForVersion v : ℤ) := by
        exact_mod_cast min_le_left _ _
    _ ≤ (sat (normalizedCost (costNanoUsd k) cases * 10000) : ℤ) / pricedCostReferenceForVersion v :=
        ediv_cast_le (reference_pos v)
    _ ≤ (normalizedCost (costNanoUsd k) cases : ℚ) * 10000 / pricedCostReferenceForVersion v := by
        refine div_le_div_of_nonneg_right ?_ href0.le
        exact_mod_cast sat_le (normalizedCost (costNanoUsd k) cases * 10000)
    _ ≤ realRatio v cases k.clamped := by
        rw [realRatio]
        refine div_le_div_of_nonneg_right (mul_le_mul_of_nonneg_right ?_ (by norm_num)) href0.le
        refine hnormalized.trans (div_le_div_of_nonneg_right ?_ hcases0.le)
        exact mul_le_mul_of_nonneg_right hcost (by norm_num)

theorem realFactor_le (v : ℤ) {cases : ℤ} (hcases : 1 ≤ cases) (k : Counts) :
    realFactor v cases k.clamped ≤ factorBps v (costNanoUsd k) cases := by
  have hf := (curve_falling v).1
  rw [factorBps, factorForCurve_eq, realFactor]
  exact (polyline_antitone Division.rat (falling_real hf) (ratioBps_le_realRatio v hcases k)).trans
    (polyline_cast_le hf _)

theorem clamped_le {k : Counts} (h0 : Counts.Le {} k) : k.clamped.Le k := by
  have h {x : ℤ} (hx : 0 ≤ x) : clamp x ≤ x := (min_le_left _ _).trans (max_eq_left hx).le
  exact ⟨h h0.prompt, h h0.completion, h h0.embedding, h h0.decisionInput, h h0.decisionOutput⟩

/-- The real curve falls with the counts, so it is lower still at counts that are not clamped. -/
theorem realFactor_antitone (v : ℤ) {cases : ℤ} (hcases : 1 ≤ cases) {k k' : Counts} (h : k.Le k') :
    realFactor v cases k' ≤ realFactor v cases k := by
  refine polyline_antitone Division.rat (falling_real (curve_falling v).1) ?_
  have hcases0 : (0 : ℚ) ≤ cases := by exact_mod_cast (by omega : 0 ≤ cases)
  have href0 : (0 : ℚ) ≤ pricedCostReferenceForVersion v := Int.cast_nonneg (reference_pos v).le
  have hcost : 70 * k.promptTokens + 150 * k.completionTokens + 4 * k.embeddingTokens + 42 * k.decisionInputTokens +
      0 * k.decisionOutputTokens ≤ 70 * k'.promptTokens + 150 * k'.completionTokens + 4 * k'.embeddingTokens +
      42 * k'.decisionInputTokens + 0 * k'.decisionOutputTokens := by
    obtain ⟨h1, h2, h3, h4, -⟩ := h
    omega
  rw [realRatio, realRatio]
  refine div_le_div_of_nonneg_right (mul_le_mul_of_nonneg_right ?_ (by norm_num)) href0
  refine div_le_div_of_nonneg_right (mul_le_mul_of_nonneg_right ?_ (by norm_num)) hcases0
  exact_mod_cast hcost

theorem realFactor_le_max (v cases : ℤ) (k : Counts) : realFactor v cases k ≤ 10000 := by
  obtain ⟨hf, hfirst, -⟩ := curve_falling v
  have h := polyline_le Division.rat (falling_real hf) (realRatio v cases k)
  rw [show (real (pricedCostCurveForVersion v).first).2 = ((pricedCostCurveForVersion v).first.2 : ℚ) from rfl,
    hfirst] at h
  exact_mod_cast h

/-! ## The block -/

/-- The word of a posture in a block. -/
def postureWord (posture : String) : String :=
  if normalizedPosture posture = "shadow".toList then "shadow" else "enforce"

theorem postureWord_cases (posture : String) : postureWord posture = "shadow" ∨ postureWord posture = "enforce" := by
  rw [postureWord]
  split
  · exact Or.inl rfl
  · exact Or.inr rfl

theorem postureWord_shadow : postureWord "shadow" = "shadow" := by decide

theorem postureWord_enforce : postureWord "enforce" = "enforce" := by decide

theorem postureWord_postureWord (posture : String) : postureWord (postureWord posture) = postureWord posture := by
  obtain h | h := postureWord_cases posture
  · rw [h, postureWord_shadow]
  · rw [h, postureWord_enforce]

theorem buildPricedCost_isSome {v : ℤ} {posture : String} {cases : ℤ} {complete : Bool} {source : String}
    {k : Counts} {b : PricedCostSummary ℤ ℤ} (h : buildPricedCost v posture cases complete source k = some b) :
    isPricedCostBenchVersion v = true := by
  by_contra hv
  rw [buildPricedCost, if_pos hv] at h
  cases h

/-- What a block says about the call that built it. -/
structure BuiltFrom (v : ℤ) (posture : String) (cases : ℤ) (complete : Bool) (source : String) (k : Counts)
    (b : PricedCostSummary ℤ ℤ) : Prop where
  version : isPricedCostBenchVersion v = true
  posture_eq : b.posture = postureWord posture
  cases_eq : b.cases = cases
  source_eq : b.source = source
  promptTokens_eq : b.promptTokens = clamp k.promptTokens
  completionTokens_eq : b.completionTokens = clamp k.completionTokens
  embeddingTokens_eq : b.embeddingTokens = clamp k.embeddingTokens
  decisionCalls_eq : b.decisionCalls = k.decisionCalls
  decisionInputTokens_eq : b.decisionInputTokens = clamp k.decisionInputTokens
  decisionOutputTokens_eq : b.decisionOutputTokens = clamp k.decisionOutputTokens
  result_eq : b.result = "priced" ↔ complete = true ∧ 1 ≤ cases
  factorBPS_eq : b.factorBPS = if complete = true ∧ 1 ≤ cases then factorBps v (costNanoUsd k) cases else 10000
  applied_eq : b.appliedFactorBPS = b.factorBPS ∨ b.appliedFactorBPS = 10000
  result_cases : b.result = "priced" ∨ b.result = "insufficient_evidence"
  normalizationCases_eq : b.normalizationCases = 350
  ratioBPS_nonneg : 0 ≤ b.ratioBPS
  ratioBPS_le : b.ratioBPS ≤ 100000
  floorBPS_eq : b.floorBPS = pricedCostFloorForVersion v

theorem builtFrom {v : ℤ} {posture : String} {cases : ℤ} {complete : Bool} {source : String}
    {k : Counts} {b : PricedCostSummary ℤ ℤ} (h : buildPricedCost v posture cases complete source k = some b) :
    BuiltFrom v posture cases complete source k b := by
  have hv := buildPricedCost_isSome h
  rw [buildPricedCost, if_neg (not_not.2 hv)] at h
  dsimp only at h
  by_cases hunpriced : ¬ complete = true ∨ cases ≤ 0
  · have hnot : ¬ (complete = true ∧ 1 ≤ cases) := by
      rintro ⟨hc, hn⟩
      exact hunpriced.elim (fun h => h hc) fun h => by omega
    have hword : ¬ "insufficient_evidence" = "priced" := by decide
    rw [if_pos hunpriced] at h
    cases h
    exact ⟨hv, rfl, rfl, rfl, rfl, rfl, rfl, rfl, rfl, rfl, iff_of_false hword hnot, (if_neg hnot).symm,
      Or.inr rfl, Or.inr rfl, rfl, le_refl _, Int.zero_le_ofNat _, rfl⟩
  · have hpriced : complete = true ∧ 1 ≤ cases := by
      rw [not_or, not_not, not_le] at hunpriced
      exact hunpriced
    rw [if_neg hunpriced] at h
    change (if postureWord posture = "enforce" then _ else _) = _ at h
    split at h
    · cases h
      exact ⟨hv, rfl, rfl, rfl, rfl, rfl, rfl, rfl, rfl, rfl, iff_of_true rfl hpriced, (if_pos hpriced).symm,
        Or.inl rfl, Or.inl rfl, rfl, ratioBps_nonneg v (costNanoUsd_nonneg k) hpriced.2, min_le_right _ _, rfl⟩
    · cases h
      exact ⟨hv, rfl, rfl, rfl, rfl, rfl, rfl, rfl, rfl, rfl, iff_of_true rfl hpriced, (if_pos hpriced).symm,
        Or.inr rfl, Or.inl rfl, rfl, ratioBps_nonneg v (costNanoUsd_nonneg k) hpriced.2, min_le_right _ _, rfl⟩

/-- A call is settled by its version, its posture word, its cases, its clamped counts and whether it is priced. -/
theorem buildPricedCost_congr {v : ℤ} {posture posture' : String} {cases : ℤ} {complete complete' : Bool}
    {source : String} {k k' : Counts} (hposture : postureWord posture = postureWord posture')
    (hcomplete : complete = true ∧ 1 ≤ cases ↔ complete' = true ∧ 1 ≤ cases) (hk : k.clamped = k'.clamped) :
    buildPricedCost v posture cases complete source k = buildPricedCost v posture' cases complete' source k' := by
  obtain ⟨h1, h2, h3, h4, h5, h6⟩ : clamp k.promptTokens = clamp k'.promptTokens ∧
      clamp k.completionTokens = clamp k'.completionTokens ∧ clamp k.embeddingTokens = clamp k'.embeddingTokens ∧
      k.decisionCalls = k'.decisionCalls ∧ clamp k.decisionInputTokens = clamp k'.decisionInputTokens ∧
      clamp k.decisionOutputTokens = clamp k'.decisionOutputTokens := by
    simpa only [Counts.clamped, Counts.mk.injEq] using hk
  have hunpriced : (¬ complete = true ∨ cases ≤ 0) ↔ (¬ complete' = true ∨ cases ≤ 0) := by
    have hnot (c : Bool) : (¬ c = true ∨ cases ≤ 0) ↔ ¬ (c = true ∧ 1 ≤ cases) := by
      rw [not_and_or, not_le, ← zero_add (1 : ℤ), Int.lt_add_one_iff]
    rw [hnot, hnot, hcomplete]
  rw [postureWord, postureWord] at hposture
  rw [buildPricedCost, buildPricedCost]
  dsimp only
  rw [hposture, h1, h2, h3, h4, h5, h6]
  simp only [hunpriced]

/-- The counts that a block carries. -/
def blockCounts (b : PricedCostSummary ℤ ℤ) : Counts where
  promptTokens := b.promptTokens
  completionTokens := b.completionTokens
  embeddingTokens := b.embeddingTokens
  decisionCalls := b.decisionCalls
  decisionInputTokens := b.decisionInputTokens
  decisionOutputTokens := b.decisionOutputTokens

/-- A block is rebuilt from what it carries: clamping and normalising the posture a second time change nothing. -/
theorem buildPricedCost_rebuild {v : ℤ} {posture : String} {cases : ℤ} {complete : Bool} {source : String}
    {k : Counts} {b : PricedCostSummary ℤ ℤ} (h : buildPricedCost v posture cases complete source k = some b) :
    buildPricedCost v b.posture b.cases (b.result = "priced") b.source (blockCounts b) = some b := by
  have hb := builtFrom h
  rw [← h, hb.posture_eq, hb.cases_eq, hb.source_eq]
  refine buildPricedCost_congr (postureWord_postureWord posture) ?_ ?_
  · rw [decide_eq_true_iff, hb.result_eq]
    tauto
  · simp only [blockCounts, Counts.clamped, hb.promptTokens_eq, hb.completionTokens_eq, hb.embeddingTokens_eq,
      hb.decisionCalls_eq, hb.decisionInputTokens_eq, hb.decisionOutputTokens_eq, clamp_clamp]

theorem floor_mem (v : ℤ) : 0 ≤ pricedCostFloorForVersion v ∧ pricedCostFloorForVersion v ≤ 10000 := by
  rw [pricedCostFloorForVersion]
  split
  · exact ⟨by decide, by decide⟩
  · exact ⟨by decide, by decide⟩

/-- The factor of a block is between the floor and 10000. -/
theorem BuiltFrom.factor_mem {v : ℤ} {posture : String} {cases : ℤ} {complete : Bool} {source : String} {k : Counts}
    {b : PricedCostSummary ℤ ℤ} (hb : BuiltFrom v posture cases complete source k b) :
    pricedCostFloorForVersion v ≤ b.factorBPS ∧ b.factorBPS ≤ 10000 := by
  rw [hb.factorBPS_eq]
  split
  · exact factorBps_mem v (costNanoUsd k) cases
  · exact ⟨(floor_mem v).2, le_refl _⟩

theorem BuiltFrom.clamped_eq {v : ℤ} {posture : String} {cases : ℤ} {complete : Bool} {source : String} {k : Counts}
    {b : PricedCostSummary ℤ ℤ} (hb : BuiltFrom v posture cases complete source k b) : k.clamped = blockCounts b := by
  simp only [blockCounts, Counts.clamped, hb.promptTokens_eq, hb.completionTokens_eq, hb.embeddingTokens_eq,
    hb.decisionCalls_eq, hb.decisionInputTokens_eq, hb.decisionOutputTokens_eq]

/-- The factor of a block is never below the real curve at the exact ratio. -/
theorem BuiltFrom.realFactor_le {v : ℤ} {posture : String} {cases : ℤ} {complete : Bool} {source : String}
    {k : Counts} {b : PricedCostSummary ℤ ℤ} (hb : BuiltFrom v posture cases complete source k b)
    (hcases : 1 ≤ cases) : realFactor v cases (blockCounts b) ≤ b.factorBPS := by
  rw [← hb.clamped_eq, hb.factorBPS_eq]
  split
  · exact ScreeningProtocol.realFactor_le v hcases k
  · exact realFactor_le_max v cases k.clamped

/-! ## Reports -/

/-- The data of a report that carries its rates and its curve. -/
def PricedCostReport.block (r : PricedCostReport) : Option (PricedCostSummary ℤ ℤ) := do
  let prices ← r.prices
  let curve ← r.curve
  return {
    contractID := r.contractId
    posture := r.posture.word
    applied := r.applied
    result := r.result.word
    window := r.window
    source := r.source
    cases := r.cases
    promptTokens := r.promptTokens
    completionTokens := r.completionTokens
    embeddingTokens := r.embeddingTokens
    decisionCalls := r.decisionCalls
    decisionInputTokens := r.decisionInputTokens
    decisionOutputTokens := r.decisionOutputTokens
    prices := prices
    promptCostNanoUSD := r.promptCostNanoUsd
    completionCostNanoUSD := r.completionCostNanoUsd
    embeddingCostNanoUSD := r.embeddingCostNanoUsd
    decisionCostNanoUSD := r.decisionCostNanoUsd
    costNanoUSD := r.costNanoUsd
    normalizationCases := r.normalizationCases
    normalizedCostNanoUSD := r.normalizedCostNanoUsd
    referenceNanoUSD := r.referenceNanoUsd
    ratioBPS := r.ratioBps.val
    curve := curve
    floorBPS := r.floorBps.val
    factorBPS := r.factorBps.val
    appliedFactorBPS := r.appliedFactorBps.val }

theorem postureWord_word (p : PricedCostPosture) : postureWord p.word = p.word := by
  cases p
  · exact postureWord_enforce
  · exact postureWord_shadow

theorem result_iff (r : PricedCostResult) : r.word = "priced" ↔ r = .priced := by
  cases r
  · decide
  · decide

/-- A report whose data are a block is recomputed as the block is rebuilt. -/
theorem recomputed_eq {r : PricedCostReport} {b : PricedCostSummary ℤ ℤ} (h : r.block = some b) (v : ℤ) :
    r.recomputed v = buildPricedCost v b.posture b.cases (b.result = "priced") b.source (blockCounts b) := by
  obtain ⟨prices, hprices, h⟩ := Option.bind_eq_some_iff.1 h
  obtain ⟨curve, hcurve, h⟩ := Option.bind_eq_some_iff.1 h
  cases h
  rw [PricedCostReport.recomputed]
  exact congrArg (fun c => buildPricedCost v r.posture.word r.cases c r.source _)
    (decide_eq_decide.2 (result_iff r.result).symm)

/-- A report matches the published rule exactly when its data are a block that some call builds. -/
theorem matchesPublishedRule_iff (r : PricedCostReport) (v : ℤ) : r.matchesPublishedRule v = true ↔
    ∃ b, r.block = some b ∧ ∃ posture cases complete source k,
      buildPricedCost v posture cases complete source k = some b := by
  constructor
  · intro h
    rw [PricedCostReport.matchesPublishedRule] at h
    cases hwant : r.recomputed v with
    | none =>
      rw [hwant] at h
      cases h
    | some want =>
      rw [hwant] at h
      have hsame : r.SameRule want := of_decide_eq_true h
      have hb := builtFrom hwant
      refine ⟨want, ?_, _, _, _, _, _, hwant⟩
      have hposture : r.posture.word = want.posture := (hb.posture_eq.trans (postureWord_word _)).symm
      have hcalls : (r.decisionCalls : ℤ) = want.decisionCalls := hb.decisionCalls_eq.symm
      obtain ⟨h1, h2, h3, h4, h5, h6, h7, h8, h9, h10, h11, h12, h13, h14, h15, h16, h17, h18, h19, h20, h21, h22,
        h23⟩ := hsame
      rw [PricedCostReport.block, h9, h10]
      simp only [Option.bind_eq_bind, Option.bind_some, h1, h2, h3, h4, h5, h6, h7, h8, h11, h12, h13, h14, h15, h16,
        h17, h18, h19, h20, h21, h22, h23, hposture, hcalls, ← hb.cases_eq, ← hb.source_eq]
      rfl
  · rintro ⟨b, hr, posture, cases, complete, source, k, hbuilt⟩
    have hrebuild := (recomputed_eq hr v).trans (buildPricedCost_rebuild hbuilt)
    rw [PricedCostReport.matchesPublishedRule, hrebuild]
    obtain ⟨prices, hprices, h⟩ := Option.bind_eq_some_iff.1 hr
    obtain ⟨curve, hcurve, h⟩ := Option.bind_eq_some_iff.1 h
    cases h
    refine decide_eq_true ?_
    exact ⟨rfl, rfl, rfl, rfl, rfl, rfl, rfl, rfl, hprices, hcurve, rfl, rfl, rfl, rfl, rfl, rfl, rfl, rfl, rfl, rfl,
      rfl, rfl, rfl⟩

/-- The report of a block, with every number put in its range. -/
def reportOf (b : PricedCostSummary ℤ ℤ) : PricedCostReport where
  contractId := b.contractID
  posture := if b.posture = "shadow" then .shadow else .enforce
  applied := b.applied
  result := if b.result = "priced" then .priced else .insufficientEvidence
  window := b.window
  source := b.source
  cases := b.cases.toNat
  promptTokens := b.promptTokens.toNat
  completionTokens := b.completionTokens.toNat
  embeddingTokens := b.embeddingTokens.toNat
  decisionCalls := b.decisionCalls.toNat
  decisionInputTokens := b.decisionInputTokens.toNat
  decisionOutputTokens := b.decisionOutputTokens.toNat
  prices := some b.prices
  promptCostNanoUsd := b.promptCostNanoUSD.toNat
  completionCostNanoUsd := b.completionCostNanoUSD.toNat
  embeddingCostNanoUsd := b.embeddingCostNanoUSD.toNat
  decisionCostNanoUsd := b.decisionCostNanoUSD.toNat
  costNanoUsd := b.costNanoUSD.toNat
  normalizationCases := b.normalizationCases.toNat
  normalizedCostNanoUsd := b.normalizedCostNanoUSD.toNat
  referenceNanoUsd := b.referenceNanoUSD.toNat
  curve := some b.curve
  ratioBps := ⟨min b.ratioBPS.toNat 100000, min_le_right _ _⟩
  floorBps := ⟨min b.floorBPS.toNat 10000, min_le_right _ _⟩
  factorBps := ⟨min b.factorBPS.toNat 10000, min_le_right _ _⟩
  appliedFactorBps := ⟨min b.appliedFactorBPS.toNat 10000, min_le_right _ _⟩

/-- The data of a summary that some call builds for a run with `0` cases or more are the data of a report. -/
theorem reportOf_block {v : ℤ} {posture : String} {cases : ℤ} {complete : Bool} {source : String} {k : Counts}
    {s : PricedCostSummary UInt64 Int64} (hb : BuiltFrom v posture cases complete source k s.block)
    (hcases : 0 ≤ s.block.cases) : (reportOf s.block).block = some s.block := by
  have word (a : UInt64) : ((value a).toNat : ℤ) = value a := Int.toNat_of_nonneg (value_nonneg a)
  have capped {x : ℤ} {n : ℕ} (h0 : 0 ≤ x) (hn : x ≤ n) : ((min x.toNat n : ℕ) : ℤ) = x := by omega
  have hposture :
      (if s.block.posture = "shadow" then PricedCostPosture.shadow else .enforce).word = s.block.posture := by
    obtain h | h := postureWord_cases posture
    · rw [hb.posture_eq, h]
      rfl
    · rw [hb.posture_eq, h]
      rfl
  have hresult : (if s.block.result = "priced" then PricedCostResult.priced else .insufficientEvidence).word =
      s.block.result := by
    obtain h | h := hb.result_cases
    · rw [h]
      rfl
    · rw [h]
      rfl
  obtain ⟨hfloor0, hfloor⟩ := floor_mem v
  obtain ⟨hfactor, hfactor'⟩ := hb.factor_mem
  have hfloorBPS := hb.floorBPS_eq
  have happlied : 0 ≤ s.block.appliedFactorBPS ∧ s.block.appliedFactorBPS ≤ 10000 := by
    obtain h | h := hb.applied_eq
    · exact ⟨by omega, by omega⟩
    · exact ⟨by omega, by omega⟩
  have hnormalization : 0 ≤ s.block.normalizationCases := by
    have h := hb.normalizationCases_eq
    omega
  change some _ = some s.block
  rw [Option.some.injEq]
  simp only [reportOf, hposture, hresult, Int.toNat_of_nonneg hcases, Int.toNat_of_nonneg hnormalization,
    capped hb.ratioBPS_nonneg hb.ratioBPS_le, capped (n := 10000) (by omega : 0 ≤ s.block.floorBPS) (by omega),
    capped (n := 10000) (by omega : 0 ≤ s.block.factorBPS) (by omega), capped (n := 10000) happlied.1 happlied.2]
  simp only [PricedCostSummary.block, word]

end ScreeningProtocol

/-! ## The Go validator -/

open ScreeningProtocol

theorem BuildPricedCost_eq_some_iff {v : Int64} {posture : String} {cases : Int64} {u : PricedCostUsage}
    {s : PricedCostSummary UInt64 Int64} : BuildPricedCost v posture cases u = some (some s) ↔
      buildPricedCost v.toInt (blockPosture posture) cases.toInt u.chatComplete u.source u.counts =
        some s.block := by
  obtain ⟨t, hgo, hpy⟩ := BuildPricedCost_eq v posture cases u
  rw [hgo, hpy, Option.some.injEq]
  constructor
  · rintro rfl
    rfl
  · intro h
    obtain ⟨s', rfl, hs⟩ := Option.map_eq_some_iff.1 h
    rw [PricedCostSummary.block_injective hs]

theorem blockPosture_eq {word posture : String} (h : word = postureWord posture) : blockPosture word = word := by
  obtain hs | hs := postureWord_cases posture
  · rw [h, hs]
    rfl
  · rw [h, hs]
    rfl

/-- A Go block is rebuilt from its own counts. -/
theorem BuildPricedCost_rebuild {v : Int64} {posture : String} {cases : Int64} {u : PricedCostUsage}
    {s : PricedCostSummary UInt64 Int64} (h : BuildPricedCost v posture cases u = some (some s)) :
    BuildPricedCost v s.posture s.cases s.usage = some (some s) := by
  have hbuilt := BuildPricedCost_eq_some_iff.1 h
  have hposture : blockPosture s.posture = s.posture := blockPosture_eq (builtFrom hbuilt).posture_eq
  rw [BuildPricedCost_eq_some_iff, hposture]
  exact buildPricedCost_rebuild hbuilt

/-- `ValidatePricedCost` accepts exactly the blocks that some call builds. -/
theorem ValidatePricedCost_iff (v : Int64) (s : PricedCostSummary UInt64 Int64) :
    ValidatePricedCost v s = some (.ok ()) ↔
      ∃ posture cases u, BuildPricedCost v posture cases u = some (some s) := by
  constructor
  · intro h
    refine ⟨s.posture, s.cases, s.usage, ?_⟩
    obtain ⟨t, hgo, -⟩ := BuildPricedCost_eq v s.posture s.cases s.usage
    rw [ValidatePricedCost, step hgo] at h
    cases t with
    | none => cases h
    | some want =>
      dsimp only at h
      split at h
      · next hsame =>
        have hb := builtFrom (BuildPricedCost_eq_some_iff.1 hgo)
        have hcases : want.cases = s.cases := Int64.toInt_inj.1 hb.cases_eq
        have hsource : want.source = s.source := hb.source_eq
        have hcalls : want.decisionCalls = s.decisionCalls := value_inj.1 hb.decisionCalls_eq
        rw [hgo]
        cases s
        cases want
        simp only [PricedCostSummary.SameRule] at hsame
        simp only at hcases hsource hcalls
        simp only [hsame, hcases, hsource, hcalls]
      · cases h
  · rintro ⟨posture, cases, u, h⟩
    rw [ValidatePricedCost, step (BuildPricedCost_rebuild h)]
    exact if_pos (by unfold PricedCostSummary.SameRule; simp only [and_self])

/-- No operation of `ValidatePricedCost` leaves its word. -/
theorem ValidatePricedCost_isSome (v : Int64) (s : PricedCostSummary UInt64 Int64) :
    (ValidatePricedCost v s).isSome = true := by
  obtain ⟨t, hgo, -⟩ := BuildPricedCost_eq v s.posture s.cases s.usage
  rw [ValidatePricedCost, step hgo]
  cases t with
  | none => rfl
  | some want =>
    dsimp only
    split
    · rfl
    · rfl

/-! ## Both validators and the factor -/

theorem matches_iff_validates {v : Int64} {s : PricedCostSummary UInt64 Int64} (hcases : 0 ≤ s.cases.toInt) :
    ValidatePricedCost v s = some (.ok ()) ↔
      ∃ r : PricedCostReport, r.block = some s.block ∧ r.matchesPublishedRule v.toInt = true := by
  rw [ValidatePricedCost_iff]
  constructor
  · rintro ⟨posture, cases, u, h⟩
    have hbuilt := BuildPricedCost_eq_some_iff.1 h
    have hblock := reportOf_block (builtFrom hbuilt) hcases
    exact ⟨reportOf s.block, hblock, (matchesPublishedRule_iff _ _).2 ⟨s.block, hblock, _, _, _, _, _, hbuilt⟩⟩
  · rintro ⟨r, hr, hmatch⟩
    obtain ⟨b, hb, posture, cases, complete, source, k, hbuilt⟩ := (matchesPublishedRule_iff _ _).1 hmatch
    rw [hr, Option.some.injEq] at hb
    rw [← hb] at hbuilt
    have hposture : blockPosture s.posture = s.posture := blockPosture_eq (builtFrom hbuilt).posture_eq
    refine ⟨s.posture, s.cases, s.usage, ?_⟩
    rw [BuildPricedCost_eq_some_iff, hposture]
    exact buildPricedCost_rebuild hbuilt

/-- More tokens never raise the factor, and more cases never lower it. -/
theorem factorBPS_antitone {v : Int64} {posture posture' : String} {cases cases' : Int64} {u u' : PricedCostUsage}
    {s s' : PricedCostSummary UInt64 Int64} (h : BuildPricedCost v posture cases u = some (some s))
    (h' : BuildPricedCost v posture' cases' u' = some (some s')) (hcomplete : u.chatComplete = u'.chatComplete)
    (hcounts : u.counts.Le u'.counts) (hcases : cases' = cases ∨ 1 ≤ cases'.toInt ∧ cases'.toInt ≤ cases.toInt) :
    s'.factorBPS ≤ s.factorBPS := by
  have hs : s.factorBPS.toInt = _ := (builtFrom (BuildPricedCost_eq_some_iff.1 h)).factorBPS_eq
  have hs' : s'.factorBPS.toInt = _ := (builtFrom (BuildPricedCost_eq_some_iff.1 h')).factorBPS_eq
  rw [Int64.le_iff_toInt_le, hs, hs', ← hcomplete]
  by_cases hpriced : u.chatComplete = true ∧ 1 ≤ cases'.toInt
  · have hle : cases'.toInt ≤ cases.toInt := hcases.elim (fun e => (congrArg Int64.toInt e).le) fun e => e.2
    have hpriced' : u.chatComplete = true ∧ 1 ≤ cases.toInt := ⟨hpriced.1, hpriced.2.trans hle⟩
    rw [if_pos hpriced, if_pos hpriced']
    exact factorBps_antitone _ (costNanoUsd_nonneg _) (costNanoUsd_mono hcounts) hpriced.2 hle
  · have hpriced' : ¬ (u.chatComplete = true ∧ 1 ≤ cases.toInt) := by
      rintro ⟨hc, hn⟩
      obtain rfl | hcases := hcases
      · exact hpriced ⟨hc, hn⟩
      · exact hpriced ⟨hc, hcases.1⟩
    rw [if_neg hpriced, if_neg hpriced']

/-- Priced cost is one rule in two languages: the same block without an operation that leaves its word, a factor between
the floor and 10000 that falls with the tokens, rises with the cases and is never below the real curve, and two
validators that accept exactly the blocks that some call builds. -/
theorem priced_cost_one_rule (v : Int64) :
    (∀ (posture : PricedCostPosture) (cases : Int64) (u : PricedCostUsage),
      ∃ s, BuildPricedCost v posture.word cases u = some s ∧
        buildPricedCost v.toInt posture.word cases.toInt u.chatComplete u.source u.counts =
          s.map PricedCostSummary.block) ∧
    (∀ posture cases u s, BuildPricedCost v posture cases u = some (some s) →
      (Bench.pricedCostFloorForVersion v).toInt ≤ s.factorBPS.toInt ∧ s.factorBPS.toInt ≤ 10000 ∧
        (1 ≤ cases.toInt → realFactor v.toInt cases.toInt s.usage.counts ≤ s.factorBPS.toInt ∧
          realFactor v.toInt cases.toInt u.counts ≤ s.factorBPS.toInt)) ∧
    (∀ posture posture' cases u u' s s', BuildPricedCost v posture cases u = some (some s) →
      BuildPricedCost v posture' cases u' = some (some s') → u.chatComplete = u'.chatComplete →
        u.counts.Le u'.counts → s'.factorBPS ≤ s.factorBPS) ∧
    (∀ posture posture' cases cases' u s s', BuildPricedCost v posture cases u = some (some s) →
      BuildPricedCost v posture' cases' u = some (some s') → 1 ≤ cases.toInt → cases ≤ cases' →
        s.factorBPS ≤ s'.factorBPS) ∧
    (∀ s, (ValidatePricedCost v s).isSome = true ∧
      (ValidatePricedCost v s = some (.ok ()) ↔
        ∃ posture cases u, BuildPricedCost v posture cases u = some (some s))) ∧
    (∀ (w : ℤ) (r : PricedCostReport), r.matchesPublishedRule w = true ↔
      ∃ b, r.block = some b ∧ ∃ posture cases complete source k,
        buildPricedCost w posture cases complete source k = some b) ∧
    (∀ s, 0 ≤ s.cases.toInt → (ValidatePricedCost v s = some (.ok ()) ↔
      ∃ r : PricedCostReport, r.block = some s.block ∧ r.matchesPublishedRule v.toInt = true)) := by
  refine ⟨?_, ?_, ?_, ?_, ?_, ?_, ?_⟩
  · intro posture cases u
    have hposture : blockPosture posture.word = posture.word := blockPosture_eq (postureWord_word posture).symm
    obtain ⟨s, hgo, hpy⟩ := BuildPricedCost_eq v posture.word cases u
    rw [hposture] at hpy
    exact ⟨s, hgo, hpy⟩
  · intro posture cases u s h
    have hb := builtFrom (BuildPricedCost_eq_some_iff.1 h)
    obtain ⟨hfloor, hmax⟩ := hb.factor_mem
    refine ⟨(contract_eq v).2.2.1.trans_le hfloor, hmax, fun hcases => ?_⟩
    have hreal : realFactor v.toInt cases.toInt s.usage.counts ≤ s.factorBPS.toInt := hb.realFactor_le hcases
    have hclamped : u.counts.clamped = s.usage.counts := hb.clamped_eq
    have hpos : Counts.Le {} u.counts :=
      ⟨value_nonneg _, value_nonneg _, value_nonneg _, value_nonneg _, value_nonneg _⟩
    have hraw := realFactor_antitone v.toInt hcases (clamped_le hpos)
    rw [hclamped] at hraw
    exact ⟨hreal, hraw.trans hreal⟩
  · intro posture posture' cases u u' s s' h h' hcomplete hcounts
    exact factorBPS_antitone h h' hcomplete hcounts (Or.inl rfl)
  · intro posture posture' cases cases' u s s' h h' hcases hle
    exact factorBPS_antitone h' h rfl (Counts.Le.refl _) (Or.inr ⟨hcases, Int64.le_iff_toInt_le.1 hle⟩)
  · exact fun s => ⟨ValidatePricedCost_isSome v s, ValidatePricedCost_iff v s⟩
  · exact fun w r => matchesPublishedRule_iff r w
  · exact fun s hcases => matches_iff_validates hcases

/-! ## A report wider than Go's words -/

/-- The normalized cost of a priced block is the saturated product over its cases. -/
theorem normalizedCost_eq {v : ℤ} {posture : String} {cases : ℤ} {complete : Bool} {source : String} {k : Counts}
    {b : PricedCostSummary ℤ ℤ} (h : buildPricedCost v posture cases complete source k = some b)
    (hresult : b.result = "priced") : b.normalizedCostNanoUSD = normalizedCost b.costNanoUSD cases := by
  rw [buildPricedCost, if_neg (not_not.2 (buildPricedCost_isSome h))] at h
  dsimp only at h
  split at h
  · have hword : ¬ "insufficient_evidence" = "priced" := by decide
    cases h
    exact absurd hresult hword
  · split at h
    · cases h
      rfl
    · cases h
      rfl

/-- A report of 2^63 cases, with a cost whose product saturates. -/
def wideReport : PricedCostReport where
  contractId := ScreeningProtocol.pricedCostContractIdForVersion 16
  posture := .enforce
  applied := true
  result := .priced
  window := "whole_run"
  cases := 2 ^ 63
  promptTokens := 9007199254740991
  prices := some ScreeningProtocol.pricedCostPrices
  promptCostNanoUsd := 630503947831869370
  costNanoUsd := 630503947831869370
  normalizedCostNanoUsd := 1
  referenceNanoUsd := (ScreeningProtocol.pricedCostReferenceForVersion 16).toNat
  curve := some PRICED_COST_CURVE.points
  factorBps := ⟨10000, by decide⟩
  appliedFactorBps := ⟨10000, by decide⟩

/-- The mirror accepts a report that no Go call builds: with a number of cases that an `int` holds, the saturated
product leaves a normalized cost of 2 or more. -/
theorem wide_report_matches :
    wideReport.matchesPublishedRule 16 = true ∧
    ∀ v posture cases u s, BuildPricedCost v posture cases u = some (some s) → ¬ wideReport.SameRule s.block := by
  refine ⟨by decide +kernel, ?_⟩
  intro v posture cases u s h hsame
  obtain ⟨-, -, hresult, -, -, -, -, -, -, -, -, -, -, -, -, -, -, -, -, -, hcost, hnormalized, -⟩ := hsame
  have hbuilt := BuildPricedCost_eq_some_iff.1 h
  have hnormal := normalizedCost_eq hbuilt hresult.symm
  rw [← hcost, ← hnormalized] at hnormal
  have hpos := ((builtFrom hbuilt).result_eq.1 hresult.symm).2
  have hcases := cases.toInt_lt
  have hsat : sat (630503947831869370 * 350) = 2 ^ 64 - 1 := by decide
  have htwo : 2 ≤ (2 ^ 64 - 1) / cases.toInt := (Int.le_ediv_iff_mul_le (by omega)).2 (by omega)
  change (1 : ℤ) = sat (630503947831869370 * 350) / cases.toInt at hnormal
  rw [hsat] at hnormal
  omega

end DittoSubnet.Bench

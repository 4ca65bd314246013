import DittoSubnet.Bench.PricedCost

/-!
# The Go block is the Python block

Every operation of `BuildPricedCost` gets one lemma that gives its word and the integer of the word: the saturating
operations (`satAdd_spec`, `satMul_spec`), the loop over the curve (`factorAfter_spec`, by induction on the segments)
and the cap of the ratio (`toI_capped`). They chain to `BuildPricedCost_eq`: no operation leaves its word, and the
block is the one that `ScreeningProtocol.buildPricedCost` builds from the same counts.
-/

namespace DittoSubnet.Bench

open Kit.Machine Kit.Polyline
open ScreeningProtocol (clamp sat)

theorem value_lt_value {a b : UInt64} : value a < value b ↔ a < b := by
  rw [value, value, Int.ofNat_lt, UInt64.lt_iff_toNat_lt]

theorem value_maxUint64 : value maxUint64 = ScreeningProtocol.UINT64_MAX := by decide

theorem value_le_max (a : UInt64) : value a ≤ ScreeningProtocol.UINT64_MAX := by
  have h := value_lt a
  rw [ScreeningProtocol.UINT64_MAX]
  omega

/-! ## The saturating operations -/

theorem value_clampTokens (a : UInt64) : value (clampTokens a) = clamp (value a) := by
  have hmax : value pricedCostMaxTokens = ScreeningProtocol.MAX_USAGE_COUNT := by decide
  have h0 := value_nonneg a
  rw [clampTokens, clamp, max_eq_left h0]
  split
  · next h =>
    rw [← value_lt_value, hmax] at h
    rw [hmax, min_eq_right h.le]
  · next h =>
    rw [← value_lt_value, hmax] at h
    rw [min_eq_left (not_lt.1 h)]

theorem satAdd_spec (a b : UInt64) : ∃ c, satAdd a b = some c ∧ value c = sat (value a + value b) := by
  have ha := value_nonneg a
  have hb := value_nonneg b
  have hmax := value_maxUint64
  have hble := value_le_max b
  obtain ⟨room, hroom, hvalue⟩ : ∃ room, subU maxUint64 b = some room ∧ value room = value maxUint64 - value b :=
    exists_u64 (by omega) (by rw [hmax, ScreeningProtocol.UINT64_MAX]; omega)
  rw [satAdd, hroom, Option.bind_eq_bind, Option.bind_some, sat]
  by_cases h : room < a
  · rw [if_pos h]
    rw [← value_lt_value, hvalue] at h
    exact ⟨maxUint64, rfl, by rw [hmax, min_eq_right (by omega)]⟩
  · rw [if_neg h]
    rw [← value_lt_value, hvalue] at h
    obtain ⟨c, hc, hv⟩ : ∃ c, addU a b = some c ∧ value c = value a + value b :=
      exists_u64 (by omega) (by rw [ScreeningProtocol.UINT64_MAX] at hmax; omega)
    exact ⟨c, hc, by rw [hv, min_eq_left (by omega)]⟩

/-- The guard of `satMul` divides: `b` exceeds the quotient exactly when the product exceeds the largest word. -/
theorem satMul_spec (a b : UInt64) : ∃ c, satMul a b = some c ∧ value c = sat (value a * value b) := by
  have ha := value_nonneg a
  have hb := value_nonneg b
  have hmax := value_maxUint64
  have hfits : value a * value b ≤ ScreeningProtocol.UINT64_MAX →
      ∃ c, mulU a b = some c ∧ value c = sat (value a * value b) := by
    intro h
    obtain ⟨c, hc, hv⟩ : ∃ c, mulU a b = some c ∧ value c = value a * value b :=
      exists_u64 (mul_nonneg ha hb) (by rw [ScreeningProtocol.UINT64_MAX] at h; omega)
    exact ⟨c, hc, by rw [hv, sat, min_eq_left h]⟩
  rw [satMul]
  by_cases h0 : a = 0
  · subst h0
    rw [if_neg (not_not.2 rfl)]
    exact hfits (by rw [show value 0 = 0 from rfl, zero_mul, ScreeningProtocol.UINT64_MAX]; omega)
  · have hpos : 0 < value a := lt_of_le_of_ne ha fun e => h0 (value_inj.1 e.symm)
    rw [if_pos h0]
    obtain ⟨most, hmost, hvalue⟩ : ∃ most, divU maxUint64 a = some most ∧
        value most = value maxUint64 / value a := by
      rw [divU, if_neg h0]
      exact exists_u64 (Int.ediv_nonneg (value_nonneg _) ha)
        ((Int.ediv_le_self _ (value_nonneg _)).trans_lt (value_lt _))
    rw [hmost, Option.bind_eq_bind, Option.bind_some]
    by_cases h : most < b
    · rw [if_pos h]
      rw [← value_lt_value, hvalue, hmax, Int.ediv_lt_iff_lt_mul hpos, mul_comm] at h
      exact ⟨maxUint64, rfl, by rw [hmax, sat, min_eq_right h.le]⟩
    · rw [if_neg h]
      rw [← value_lt_value, hvalue, hmax, Int.ediv_lt_iff_lt_mul hpos, mul_comm, not_lt] at h
      exact hfits h

theorem divU_spec (a : UInt64) {b : UInt64} (hb : 0 < value b) :
    ∃ c, divU a b = some c ∧ value c = value a / value b := by
  have h0 : b ≠ 0 := by
    rintro rfl
    exact lt_irrefl _ hb
  rw [divU, if_neg h0]
  exact exists_u64 (Int.ediv_nonneg (value_nonneg a) hb.le)
    ((Int.ediv_le_self _ (value_nonneg a)).trans_lt (value_lt a))

/-! ## The curve -/

/-- The integers of a breakpoint. -/
def point (p : Int64 × Int64) : ℤ × ℤ := (p.1.toInt, p.2.toInt)

/-- A coordinate of a published curve or a reported ratio. -/
def Small (x : Int64) : Prop := 0 ≤ x.toInt ∧ x.toInt ≤ 100000

theorem exists_i64_of_small {x : ℤ} (h0 : -100000 * 100000 ≤ x) (h : x ≤ 100000 * 100000) :
    ∃ a, i64 x = some a ∧ a.toInt = x := exists_i64 (by omega) (by omega)

/-- No operation on a published segment leaves its word, and the drop is rounded down in both languages. -/
theorem factorAfter_spec {r : Int64} (hr : Small r) {lo : Int64 × Int64} {rest : List (Int64 × Int64)}
    (hsmall : ∀ p ∈ lo :: rest, Small p.1 ∧ Small p.2) (hf : Falling (point lo) (rest.map point))
    (hlo : lo.1.toInt ≤ r.toInt) :
    ∃ f, factorAfter r lo rest = some f ∧
      f.toInt = ScreeningProtocol.factorAfter r.toInt (point lo) (rest.map point) := by
  induction rest generalizing lo with
  | nil => exact ⟨lo.2, rfl, rfl⟩
  | cons hi rest ih =>
    obtain ⟨hlt, hle, hrest⟩ := hf
    rw [factorAfter, List.map_cons, ScreeningProtocol.factorAfter]
    by_cases hword : hi.1 < r
    · have h : (point hi).1 < r.toInt := Int64.lt_iff_toInt_lt.1 hword
      rw [if_pos hword, if_pos h]
      exact ih (fun p hp => hsmall p (List.mem_cons_of_mem _ hp)) hrest h.le
    · have h : ¬ hi.1.toInt < r.toInt := fun h => hword (Int64.lt_iff_toInt_lt.2 h)
      rw [if_neg hword, if_neg (show ¬ r.toInt > (point hi).1 from h)]
      obtain ⟨⟨hl1, hl1'⟩, hl2, hl2'⟩ := hsmall lo List.mem_cons_self
      obtain ⟨⟨hh1, hh1'⟩, hh2, hh2'⟩ := hsmall hi (List.mem_cons_of_mem _ List.mem_cons_self)
      obtain ⟨hr0, hr'⟩ := hr
      change lo.1.toInt < hi.1.toInt at hlt
      change hi.2.toInt ≤ lo.2.toInt at hle
      obtain ⟨fall, hfall, hfv⟩ : ∃ x, subI lo.2 hi.2 = some x ∧ x.toInt = lo.2.toInt - hi.2.toInt :=
        exists_i64_of_small (by omega) (by omega)
      obtain ⟨along, halong, hav⟩ : ∃ x, subI r lo.1 = some x ∧ x.toInt = r.toInt - lo.1.toInt :=
        exists_i64_of_small (by omega) (by omega)
      obtain ⟨width, hwidth, hwv⟩ : ∃ x, subI hi.1 lo.1 = some x ∧ x.toInt = hi.1.toInt - lo.1.toInt :=
        exists_i64_of_small (by omega) (by omega)
      have hprod0 : 0 ≤ fall.toInt * along.toInt := mul_nonneg (by omega) (by omega)
      have hprod1 : fall.toInt * along.toInt ≤ 100000 * 100000 :=
        mul_le_mul (by omega) (by omega) (by omega) (by omega)
      obtain ⟨product, hproduct, hpv⟩ : ∃ x, mulI fall along = some x ∧ x.toInt = fall.toInt * along.toInt :=
        exists_i64_of_small (by omega) hprod1
      have hwidth0 : width ≠ 0 := by
        rintro rfl
        change (0 : ℤ) = _ at hwv
        omega
      have hdrop0 : 0 ≤ product.toInt / width.toInt := Int.ediv_nonneg (by omega) (by omega)
      have hdrop1 : product.toInt / width.toInt ≤ fall.toInt := by
        rw [hpv]
        exact Int.ediv_le_of_le_mul (by omega) (mul_le_mul_of_nonneg_left (by omega) (by omega))
      obtain ⟨drop, hdrop, hdv⟩ : ∃ x, divI product width = some x ∧ x.toInt = product.toInt / width.toInt := by
        rw [divI, if_neg hwidth0, Int.tdiv_eq_ediv_of_nonneg (by omega)]
        exact exists_i64_of_small (by omega) (by omega)
      obtain ⟨f, hf', hfv'⟩ : ∃ x, subI lo.2 drop = some x ∧ x.toInt = lo.2.toInt - drop.toInt :=
        exists_i64_of_small (by omega) (by omega)
      refine ⟨f, ?_, ?_⟩
      · simp only [hfall, halong, hproduct, hwidth, hdrop, hf', Option.bind_eq_bind, Option.bind_some]
      · rw [hfv', hdv, hpv, hfv, hav, hwv]
        rfl

/-- The integers of a curve. -/
def Curve.integers (c : Curve Int64) : Curve ℤ := ⟨point c.first, c.rest.map point⟩

/-- A curve whose breakpoints move right and down in the range of the reported ratios. -/
structure Curve.Published (c : Curve Int64) : Prop where
  small : ∀ p ∈ c.points, Small p.1 ∧ Small p.2
  falling : Falling c.integers.first c.integers.rest

theorem factorBPS_spec {c : Curve Int64} (hc : c.Published) {r : Int64} (hr : Small r) :
    ∃ f, PricedCostFactorBPSForCurve r c = some f ∧
      f.toInt = ScreeningProtocol.pricedCostFactorBpsForCurve r.toInt c.integers := by
  rw [PricedCostFactorBPSForCurve, ScreeningProtocol.pricedCostFactorBpsForCurve]
  by_cases hword : r ≤ c.first.1
  · have h : r.toInt ≤ c.integers.first.1 := Int64.le_iff_toInt_le.1 hword
    rw [if_pos hword, if_pos h]
    exact ⟨c.first.2, rfl, rfl⟩
  · have h : ¬ r.toInt ≤ c.integers.first.1 := fun h => hword (Int64.le_iff_toInt_le.2 h)
    rw [if_neg hword, if_neg h]
    exact factorAfter_spec hr hc.small hc.falling (not_le.1 h).le

theorem curve_published (v : Int64) : (pricedCostCurveForVersion v).Published := by
  rw [pricedCostCurveForVersion]
  split
  · exact ⟨by simp [Small, Curve.points, PricedCostV2Curve],
      by simp [Falling, Curve.integers, point, PricedCostV2Curve]⟩
  · exact ⟨by simp [Small, Curve.points, PricedCostCurve],
      by simp [Falling, Curve.integers, point, PricedCostCurve]⟩

/-- The cap on the ratio keeps the conversion to a signed word in range. -/
theorem toI_capped (ratio : UInt64) :
    ∃ r, toI (if 100000 < ratio then 100000 else ratio) = some r ∧ r.toInt = min (value ratio) 100000 := by
  have hvalue : value (if 100000 < ratio then 100000 else ratio) = min (value ratio) 100000 := by
    split
    · next h => exact (min_eq_right (value_lt_value.2 h).le).symm
    · next h => exact (min_eq_left (not_lt.1 fun h' => h (value_lt_value.1 h'))).symm
  have h0 := value_nonneg ratio
  rw [toI, hvalue]
  exact exists_i64 (by omega) (by omega)

theorem small_of_capped {ratio : UInt64} {r : Int64} (h : r.toInt = min (value ratio) 100000) : Small r := by
  have h0 := value_nonneg ratio
  exact ⟨by omega, by omega⟩

/-! ## The contract of a version -/

theorem value_prices : value pricedCostPrices.promptToken = 70 ∧ value pricedCostPrices.completionToken = 150 ∧
    value pricedCostPrices.embeddingToken = 4 ∧ value pricedCostPrices.decisionInputToken = 42 ∧
    value pricedCostPrices.decisionOutputToken = 0 := by decide

theorem prices_block : pricedCostPrices.block = ScreeningProtocol.pricedCostPrices := by
  obtain ⟨h1, h2, h3, h4, h5⟩ := value_prices
  rw [PricedCostPrices.block, h1, h2, h3, h4, h5]
  rfl

theorem points_block (v : Int64) : ((pricedCostCurveForVersion v).points.map fun p => (p.1.toInt, p.2.toInt)) =
    (pricedCostCurveForVersion v).integers.points := rfl

/-- The constants that `BuildPricedCost` writes as words. -/
theorem constants : value 350 = 350 ∧ value 10000 = 10000 ∧ value 0 = 0 ∧
    (350 : Int64).toInt = 350 ∧ (10000 : Int64).toInt = 10000 ∧ (0 : Int64).toInt = 0 := by decide

theorem reference_pos (v : Int64) : 0 < value (pricedCostReferenceForVersion v) := by
  rw [pricedCostReferenceForVersion]
  split
  · decide
  · decide

theorem v2_iff {v : Int64} :
    PricedCostV2MinBenchVersion ≤ v ↔ v.toInt ≥ ScreeningProtocol.PRICED_COST_V2_MIN_BENCH_VERSION :=
  Int64.le_iff_toInt_le

theorem benchVersion_iff {v : Int64} :
    PricedCostBenchVersion v = ScreeningProtocol.isPricedCostBenchVersion v.toInt := by
  rw [PricedCostBenchVersion, ScreeningProtocol.isPricedCostBenchVersion]
  exact decide_eq_decide.2 Int64.le_iff_toInt_le

theorem contract_eq (v : Int64) :
    pricedCostContractIDForVersion v = ScreeningProtocol.pricedCostContractIdForVersion v.toInt ∧
      value (pricedCostReferenceForVersion v) = ScreeningProtocol.pricedCostReferenceForVersion v.toInt ∧
      (pricedCostFloorForVersion v).toInt = ScreeningProtocol.pricedCostFloorForVersion v.toInt ∧
      (pricedCostCurveForVersion v).integers = ScreeningProtocol.pricedCostCurveForVersion v.toInt := by
  by_cases h : PricedCostV2MinBenchVersion ≤ v
  · have h' := v2_iff.1 h
    simp only [pricedCostContractIDForVersion, pricedCostReferenceForVersion, pricedCostFloorForVersion,
      pricedCostCurveForVersion, ScreeningProtocol.pricedCostContractIdForVersion,
      ScreeningProtocol.pricedCostReferenceForVersion, ScreeningProtocol.pricedCostFloorForVersion,
      ScreeningProtocol.pricedCostCurveForVersion, if_pos h, if_pos h']
    exact ⟨trivial, by decide, by decide, rfl⟩
  · have h' := fun hv => h (v2_iff.2 hv)
    simp only [pricedCostContractIDForVersion, pricedCostReferenceForVersion, pricedCostFloorForVersion,
      pricedCostCurveForVersion, ScreeningProtocol.pricedCostContractIdForVersion,
      ScreeningProtocol.pricedCostReferenceForVersion, ScreeningProtocol.pricedCostFloorForVersion,
      ScreeningProtocol.pricedCostCurveForVersion, if_neg h, if_neg h']
    exact ⟨trivial, by decide, by decide, rfl⟩

/-! ## One rule -/

/-- The counts of a run as the keyword arguments of the Python function. -/
def PricedCostUsage.counts (u : PricedCostUsage) : ScreeningProtocol.Counts where
  promptTokens := value u.promptTokens
  completionTokens := value u.completionTokens
  embeddingTokens := value u.embeddingTokens
  decisionCalls := value u.decisionCalls
  decisionInputTokens := value u.decisionInputTokens
  decisionOutputTokens := value u.decisionOutputTokens

theorem normalizedPosture_blockPosture (posture : String) :
    (if ScreeningProtocol.normalizedPosture (blockPosture posture) = "shadow".toList then "shadow" else "enforce") =
      blockPosture posture := by
  rw [blockPosture]
  split
  · decide
  · decide

theorem step {α β : Type} {x : Option α} {a : α} {f : α → Option β} (h : x = some a) : (x >>= f) = f a := by
  rw [h]
  rfl

/-- No operation of `BuildPricedCost` leaves its word, and the block is the one that Python builds. -/
theorem BuildPricedCost_eq (v : Int64) (posture : String) (cases : Int64) (u : PricedCostUsage) :
    ∃ s, BuildPricedCost v posture cases u = some s ∧
      ScreeningProtocol.buildPricedCost v.toInt (blockPosture posture) cases.toInt u.chatComplete u.source u.counts =
        s.map PricedCostSummary.block := by
  rw [BuildPricedCost, ScreeningProtocol.buildPricedCost, ← benchVersion_iff]
  by_cases hv : PricedCostBenchVersion v
  swap
  · rw [if_pos hv, if_pos hv]
    exact ⟨none, rfl, rfl⟩
  rw [if_neg (not_not.2 hv), if_neg (not_not.2 hv)]
  obtain ⟨promptCost, hprompt, hpromptv⟩ := satMul_spec (clampTokens u.promptTokens) pricedCostPrices.promptToken
  obtain ⟨completionCost, hcompletion, hcompletionv⟩ :=
    satMul_spec (clampTokens u.completionTokens) pricedCostPrices.completionToken
  obtain ⟨embeddingCost, hembedding, hembeddingv⟩ :=
    satMul_spec (clampTokens u.embeddingTokens) pricedCostPrices.embeddingToken
  obtain ⟨inputCost, hinput, hinputv⟩ :=
    satMul_spec (clampTokens u.decisionInputTokens) pricedCostPrices.decisionInputToken
  obtain ⟨outputCost, houtput, houtputv⟩ :=
    satMul_spec (clampTokens u.decisionOutputTokens) pricedCostPrices.decisionOutputToken
  obtain ⟨decisionCost, hdecision, hdecisionv⟩ := satAdd_spec inputCost outputCost
  obtain ⟨chatCost, hchat, hchatv⟩ := satAdd_spec promptCost completionCost
  obtain ⟨otherCost, hother, hotherv⟩ := satAdd_spec embeddingCost decisionCost
  obtain ⟨cost, hcost, hcostv⟩ := satAdd_spec chatCost otherCost
  obtain ⟨hid, href, hfloor, hcurve⟩ := contract_eq v
  obtain ⟨h350, h10000, h0, hi350, hi10000, hi0⟩ := constants
  simp only [value_clampTokens, value_prices] at hpromptv hcompletionv hembeddingv hinputv houtputv
  dsimp only
  rw [step hprompt, step hcompletion, step hembedding, step hinput, step houtput, step hdecision, step hchat,
    step hother, step hcost]
  simp only [normalizedPosture_blockPosture, PricedCostUsage.counts, ← hpromptv, ← hcompletionv, ← hembeddingv,
    ← hinputv, ← houtputv, ← hdecisionv, ← hchatv, ← hotherv, ← hcostv, ← hid, ← href, ← hfloor, ← hcurve]
  have hempty : ¬ u.chatComplete ∨ cases ≤ 0 ↔ ¬ u.chatComplete ∨ cases.toInt ≤ 0 := by
    rw [Int64.le_iff_toInt_le, hi0]
  by_cases hunpriced : ¬ u.chatComplete ∨ cases ≤ 0
  · rw [if_pos hunpriced, if_pos (hempty.1 hunpriced)]
    refine ⟨_, rfl, ?_⟩
    simp only [Option.map_some, PricedCostSummary.block, value_clampTokens, prices_block, points_block,
      h0, hi350, hi10000, hi0]
  rw [if_neg hunpriced, if_neg fun h => hunpriced (hempty.2 h)]
  have hcases : 0 < cases.toInt := not_le.1 fun h => hunpriced (hempty.2 (Or.inr h))
  obtain ⟨scaled, hscaled, hscaledv⟩ := satMul_spec cost 350
  obtain ⟨casesWord, hword, hwordv⟩ : ∃ w, toU cases = some w ∧ value w = cases.toInt :=
    exists_u64 hcases.le ((toInt_lt cases).trans (by norm_num))
  obtain ⟨normalized, hnormalized, hnormalizedv⟩ := divU_spec scaled (b := casesWord) (by omega)
  obtain ⟨scaledRatio, hscaledRatio, hscaledRatiov⟩ := satMul_spec normalized 10000
  obtain ⟨ratio, hratio, hratiov⟩ := divU_spec scaledRatio (reference_pos v)
  obtain ⟨ratioBPS, hbps, hbpsv⟩ := toI_capped ratio
  obtain ⟨factor, hfactor, hfactorv⟩ := factorBPS_spec (curve_published v) (small_of_capped hbpsv)
  rw [h350] at hscaledv
  rw [h10000] at hscaledRatiov
  rw [step hscaled, step hword, step hnormalized, step hscaledRatio, step hratio, step hbps, step hfactor]
  simp only [← hscaledv, ← hwordv, ← hnormalizedv, ← hscaledRatiov, ← hratiov, ← hbpsv, ← hfactorv]
  by_cases henforce : blockPosture posture = "enforce"
  · rw [if_pos henforce, if_pos henforce]
    refine ⟨_, rfl, ?_⟩
    simp only [Option.map_some, PricedCostSummary.block, value_clampTokens, prices_block, points_block,
      hwordv, hi350]
  · rw [if_neg henforce, if_neg henforce]
    refine ⟨_, rfl, ?_⟩
    simp only [Option.map_some, PricedCostSummary.block, value_clampTokens, prices_block, points_block,
      hwordv, hi350, hi10000]

end DittoSubnet.Bench

import DittoSubnet.Bench.ScoreGates
import DittoSubnet.Kit.Machine
import DittoSubnet.Kit.Polyline

/-!
# The priced inference cost factor

From bench 16 the scorer prices the inference of a run and reports the factor of the composite in a block
(`PricedCostSummary`). The rule is written twice: in Go over 64-bit words (`BuildPricedCost`, package `scoregates`) and
in Python over unbounded integers (`buildPricedCost`, `ditto_screening_protocol.priced_cost`).

* The Go functions compute with checked words: `none` is a result that does not fit its word.
* `BuildPricedCost_eq` says that no such result occurs and that the block is the one Python builds.
* `ValidatePricedCost` and `PricedCostReport.matchesPublishedRule` rebuild a reported block from its own counts.
-/

namespace DittoSubnet.Bench

open Kit.Machine

/-! ## The block -/

/-- The locked public rates, in nano-USD per token, over the words `U`. -/
structure PricedCostPrices (U : Type) where
  chatModel : String
  promptToken : U
  completionToken : U
  embeddingModel : String
  embeddingToken : U
  decisionModel : String
  decisionInputToken : U
  decisionOutputToken : U
  completionIncludesReasoning : Bool
  deriving DecidableEq

/-- The `details.priced_cost` block over the unsigned words `U` and the signed words `I`. -/
structure PricedCostSummary (U I : Type) where
  contractID : String
  posture : String
  applied : Bool
  result : String
  window : String
  source : String
  cases : I
  promptTokens : U
  completionTokens : U
  embeddingTokens : U
  decisionCalls : U
  decisionInputTokens : U
  decisionOutputTokens : U
  prices : PricedCostPrices U
  promptCostNanoUSD : U
  completionCostNanoUSD : U
  embeddingCostNanoUSD : U
  decisionCostNanoUSD : U
  costNanoUSD : U
  normalizationCases : I
  normalizedCostNanoUSD : U
  referenceNanoUSD : U
  ratioBPS : I
  curve : List (I × I)
  floorBPS : I
  factorBPS : I
  appliedFactorBPS : I
  deriving DecidableEq

/-- The integers of the rates. -/
def PricedCostPrices.block (p : PricedCostPrices UInt64) : PricedCostPrices ℤ where
  chatModel := p.chatModel
  promptToken := value p.promptToken
  completionToken := value p.completionToken
  embeddingModel := p.embeddingModel
  embeddingToken := value p.embeddingToken
  decisionModel := p.decisionModel
  decisionInputToken := value p.decisionInputToken
  decisionOutputToken := value p.decisionOutputToken
  completionIncludesReasoning := p.completionIncludesReasoning

/-- The block that a reader decodes from the words of a summary. -/
def PricedCostSummary.block (s : PricedCostSummary UInt64 Int64) : PricedCostSummary ℤ ℤ where
  contractID := s.contractID
  posture := s.posture
  applied := s.applied
  result := s.result
  window := s.window
  source := s.source
  cases := s.cases.toInt
  promptTokens := value s.promptTokens
  completionTokens := value s.completionTokens
  embeddingTokens := value s.embeddingTokens
  decisionCalls := value s.decisionCalls
  decisionInputTokens := value s.decisionInputTokens
  decisionOutputTokens := value s.decisionOutputTokens
  prices := s.prices.block
  promptCostNanoUSD := value s.promptCostNanoUSD
  completionCostNanoUSD := value s.completionCostNanoUSD
  embeddingCostNanoUSD := value s.embeddingCostNanoUSD
  decisionCostNanoUSD := value s.decisionCostNanoUSD
  costNanoUSD := value s.costNanoUSD
  normalizationCases := s.normalizationCases.toInt
  normalizedCostNanoUSD := value s.normalizedCostNanoUSD
  referenceNanoUSD := value s.referenceNanoUSD
  ratioBPS := s.ratioBPS.toInt
  curve := s.curve.map fun p => (p.1.toInt, p.2.toInt)
  floorBPS := s.floorBPS.toInt
  factorBPS := s.factorBPS.toInt
  appliedFactorBPS := s.appliedFactorBPS.toInt

theorem PricedCostPrices.block_injective : Function.Injective PricedCostPrices.block := by
  intro p q h
  cases p
  cases q
  simpa only [PricedCostPrices.block, PricedCostPrices.mk.injEq, value_inj] using h

/-- A block determines the words it is decoded from. -/
theorem PricedCostSummary.block_injective : Function.Injective PricedCostSummary.block := by
  intro s t h
  have hpoint : Function.Injective fun p : Int64 × Int64 => (p.1.toInt, p.2.toInt) := fun p q hpq =>
    Prod.ext (Int64.toInt_inj.1 (congrArg Prod.fst hpq)) (Int64.toInt_inj.1 (congrArg Prod.snd hpq))
  cases s
  cases t
  simpa only [PricedCostSummary.block, PricedCostSummary.mk.injEq, value_inj, Int64.toInt_inj,
    PricedCostPrices.block_injective.eq_iff, (List.map_injective_iff.2 hpoint).eq_iff] using h

/-- A published curve: its first breakpoint and the others, each as `(ratio_bps, factor_bps)`. -/
structure Curve (I : Type) where
  first : I × I
  rest : List (I × I)

def Curve.points {I : Type} (c : Curve I) : List (I × I) := c.first :: c.rest

/-! ## Go: `scoregates/priced_cost.go` -/

def PricedCostMinBenchVersion : Int64 := 16
def PricedCostV2MinBenchVersion : Int64 := 17

def PricedCostBenchVersion (v : Int64) : Bool := PricedCostMinBenchVersion ≤ v

/-- `PricedCostCurve`. -/
def PricedCostCurve : Curve Int64 := ⟨(10000, 10000), [(15000, 8000), (20000, 6000)]⟩

/-- `PricedCostV2Curve`. -/
def PricedCostV2Curve : Curve Int64 := ⟨(10000, 10000), [(15000, 6500), (20000, 3000)]⟩

def pricedCostCurveForVersion (benchVersion : Int64) : Curve Int64 :=
  if PricedCostV2MinBenchVersion ≤ benchVersion then PricedCostV2Curve else PricedCostCurve

def pricedCostContractIDForVersion (benchVersion : Int64) : String :=
  if PricedCostV2MinBenchVersion ≤ benchVersion then "priced-cost-v2" else "priced-cost-v1"

def pricedCostReferenceForVersion (benchVersion : Int64) : UInt64 :=
  if PricedCostV2MinBenchVersion ≤ benchVersion then 500000000 else 1000000000

def pricedCostFloorForVersion (benchVersion : Int64) : Int64 :=
  if PricedCostV2MinBenchVersion ≤ benchVersion then 3000 else 6000

def pricedCostPrices : PricedCostPrices UInt64 where
  chatModel := "openai/gpt-oss-20b"
  promptToken := 70
  completionToken := 150
  embeddingModel := "perplexity/pplx-embed-v1-0.6b"
  embeddingToken := 4
  decisionModel := "typesafe/jev-1.14"
  decisionInputToken := 42
  decisionOutputToken := 0
  completionIncludesReasoning := true

/-- The run's metered inference. -/
structure PricedCostUsage where
  chatComplete : Bool
  source : String
  promptTokens : UInt64
  completionTokens : UInt64
  embeddingTokens : UInt64
  decisionCalls : UInt64
  decisionInputTokens : UInt64
  decisionOutputTokens : UInt64

def pricedCostMaxTokens : UInt64 := 9007199254740991

def clampTokens (v : UInt64) : UInt64 := if pricedCostMaxTokens < v then pricedCostMaxTokens else v

/-- `^uint64(0)`. -/
def maxUint64 : UInt64 := 18446744073709551615

def satAdd (a b : UInt64) : Option UInt64 := do
  let room ← subU maxUint64 b
  if room < a then return maxUint64
  addU a b

/-- The quotient is computed only for `a ≠ 0`. -/
def satMul (a b : UInt64) : Option UInt64 := do
  if a ≠ 0 then
    let most ← divU maxUint64 a
    if most < b then return maxUint64
  mulU a b

/-- The loop over the segments of `PricedCostFactorBPSForCurve`, behind the breakpoint `lo`. -/
def factorAfter (ratioBPS : Int64) (lo : Int64 × Int64) : List (Int64 × Int64) → Option Int64
  | [] => some lo.2
  | hi :: rest =>
    if hi.1 < ratioBPS then factorAfter ratioBPS hi rest
    else do
      let fall ← subI lo.2 hi.2
      let along ← subI ratioBPS lo.1
      let product ← mulI fall along
      let width ← subI hi.1 lo.1
      let drop ← divI product width
      subI lo.2 drop

def PricedCostFactorBPSForCurve (ratioBPS : Int64) (curve : Curve Int64) : Option Int64 :=
  if ratioBPS ≤ curve.first.1 then some curve.first.2 else factorAfter ratioBPS curve.first curve.rest

/-- The posture that a block carries: anything but `shadow` is `enforce`. -/
def blockPosture (posture : String) : String := if posture = "shadow" then "shadow" else "enforce"

/-- The inner `none` is the nil block of an earlier version, the outer one a result that does not fit its word. -/
def BuildPricedCost (benchVersion : Int64) (posture : String) (cases : Int64) (usage : PricedCostUsage) :
    Option (Option (PricedCostSummary UInt64 Int64)) := do
  if ¬ PricedCostBenchVersion benchVersion then return none
  let posture := blockPosture posture
  let prices := pricedCostPrices
  let reference := pricedCostReferenceForVersion benchVersion
  let curve := pricedCostCurveForVersion benchVersion
  let prompt := clampTokens usage.promptTokens
  let completion := clampTokens usage.completionTokens
  let embedding := clampTokens usage.embeddingTokens
  let decisionIn := clampTokens usage.decisionInputTokens
  let decisionOut := clampTokens usage.decisionOutputTokens
  let promptCost ← satMul prompt prices.promptToken
  let completionCost ← satMul completion prices.completionToken
  let embeddingCost ← satMul embedding prices.embeddingToken
  let inputCost ← satMul decisionIn prices.decisionInputToken
  let outputCost ← satMul decisionOut prices.decisionOutputToken
  let decisionCost ← satAdd inputCost outputCost
  let chatCost ← satAdd promptCost completionCost
  let otherCost ← satAdd embeddingCost decisionCost
  let cost ← satAdd chatCost otherCost
  let summary : PricedCostSummary UInt64 Int64 :=
    { contractID := pricedCostContractIDForVersion benchVersion
      posture := posture
      applied := false
      result := "insufficient_evidence"
      window := "whole_run"
      source := usage.source
      cases := cases
      promptTokens := prompt
      completionTokens := completion
      embeddingTokens := embedding
      decisionCalls := usage.decisionCalls
      decisionInputTokens := decisionIn
      decisionOutputTokens := decisionOut
      prices := prices
      promptCostNanoUSD := promptCost
      completionCostNanoUSD := completionCost
      embeddingCostNanoUSD := embeddingCost
      decisionCostNanoUSD := decisionCost
      costNanoUSD := cost
      normalizationCases := 350
      normalizedCostNanoUSD := 0
      referenceNanoUSD := reference
      ratioBPS := 0
      curve := curve.points
      floorBPS := pricedCostFloorForVersion benchVersion
      factorBPS := 10000
      appliedFactorBPS := 10000 }
  if ¬ usage.chatComplete ∨ cases ≤ 0 then return some summary
  let scaled ← satMul cost 350
  let casesWord ← toU cases
  let normalized ← divU scaled casesWord
  let scaledRatio ← satMul normalized 10000
  let ratio ← divU scaledRatio reference
  let ratioBPS ← toI (if 100000 < ratio then 100000 else ratio)
  let factor ← PricedCostFactorBPSForCurve ratioBPS curve
  let priced := { summary with
    result := "priced", normalizedCostNanoUSD := normalized, ratioBPS := ratioBPS, factorBPS := factor }
  if posture = "enforce" then return some { priced with applied := true, appliedFactorBPS := factor }
  return some priced

/-- The counts that a reported block was built from. -/
def PricedCostSummary.usage (s : PricedCostSummary UInt64 Int64) : PricedCostUsage where
  chatComplete := s.result = "priced"
  source := s.source
  promptTokens := s.promptTokens
  completionTokens := s.completionTokens
  embeddingTokens := s.embeddingTokens
  decisionCalls := s.decisionCalls
  decisionInputTokens := s.decisionInputTokens
  decisionOutputTokens := s.decisionOutputTokens

/-- The fields that `ValidatePricedCost` compares. -/
def PricedCostSummary.SameRule (s want : PricedCostSummary UInt64 Int64) : Prop :=
  s.curve = want.curve ∧ s.contractID = want.contractID ∧ s.result = want.result ∧ s.posture = want.posture ∧
    s.promptTokens = want.promptTokens ∧ s.completionTokens = want.completionTokens ∧
    s.embeddingTokens = want.embeddingTokens ∧ s.decisionInputTokens = want.decisionInputTokens ∧
    s.decisionOutputTokens = want.decisionOutputTokens ∧
    s.window = want.window ∧ s.prices = want.prices ∧ s.normalizationCases = want.normalizationCases ∧
    s.referenceNanoUSD = want.referenceNanoUSD ∧ s.floorBPS = want.floorBPS ∧
    s.promptCostNanoUSD = want.promptCostNanoUSD ∧ s.completionCostNanoUSD = want.completionCostNanoUSD ∧
    s.embeddingCostNanoUSD = want.embeddingCostNanoUSD ∧ s.decisionCostNanoUSD = want.decisionCostNanoUSD ∧
    s.factorBPS = want.factorBPS ∧ s.appliedFactorBPS = want.appliedFactorBPS ∧
    s.costNanoUSD = want.costNanoUSD ∧ s.normalizedCostNanoUSD = want.normalizedCostNanoUSD ∧
    s.ratioBPS = want.ratioBPS ∧ s.applied = want.applied

instance (s want : PricedCostSummary UInt64 Int64) : Decidable (s.SameRule want) := by
  unfold PricedCostSummary.SameRule
  infer_instance

/-- Rebuild a reported block from its own counts; the outer `none` is a result that does not fit its word. -/
def ValidatePricedCost (benchVersion : Int64) (s : PricedCostSummary UInt64 Int64) : Option (Except Failure Unit) := do
  match ← BuildPricedCost benchVersion s.posture s.cases s.usage with
  | none => return .error (invalid "priced cost reported below bench 16")
  | some want =>
    if s.SameRule want then return .ok ()
    return .error (invalid "priced cost block does not match the published rule")

/-! ## Python: `ditto_screening_protocol/priced_cost.py` -/

namespace ScreeningProtocol

def PRICED_COST_MIN_BENCH_VERSION : ℤ := 16
def PRICED_COST_V2_MIN_BENCH_VERSION : ℤ := 17

def UINT64_MAX : ℤ := 2 ^ 64 - 1
def MAX_USAGE_COUNT : ℤ := 9007199254740991

def isPricedCostBenchVersion (benchVersion : ℤ) : Bool := PRICED_COST_MIN_BENCH_VERSION ≤ benchVersion

def clamp (tokens : ℤ) : ℤ := min (max tokens 0) MAX_USAGE_COUNT

def sat (x : ℤ) : ℤ := min x UINT64_MAX

/-- The loop over neighbouring breakpoints, behind the breakpoint `lo`. -/
def factorAfter (ratioBps : ℤ) (lo : ℤ × ℤ) : List (ℤ × ℤ) → ℤ
  | [] => lo.2
  | hi :: rest =>
    if ratioBps > hi.1 then factorAfter ratioBps hi rest
    else
      let drop := (lo.2 - hi.2) * (ratioBps - lo.1) / (hi.1 - lo.1)
      lo.2 - drop

def pricedCostFactorBpsForCurve (ratioBps : ℤ) (curve : Curve ℤ) : ℤ :=
  if ratioBps ≤ curve.first.1 then curve.first.2 else factorAfter ratioBps curve.first curve.rest

def PRICED_COST_CURVE : Curve ℤ := ⟨(10000, 10000), [(15000, 8000), (20000, 6000)]⟩
def PRICED_COST_V2_CURVE : Curve ℤ := ⟨(10000, 10000), [(15000, 6500), (20000, 3000)]⟩

def pricedCostContractIdForVersion (benchVersion : ℤ) : String :=
  if benchVersion ≥ PRICED_COST_V2_MIN_BENCH_VERSION then "priced-cost-v2" else "priced-cost-v1"

def pricedCostReferenceForVersion (benchVersion : ℤ) : ℤ :=
  if benchVersion ≥ PRICED_COST_V2_MIN_BENCH_VERSION then 500000000 else 1000000000

def pricedCostFloorForVersion (benchVersion : ℤ) : ℤ :=
  if benchVersion ≥ PRICED_COST_V2_MIN_BENCH_VERSION then 3000 else 6000

def pricedCostCurveForVersion (benchVersion : ℤ) : Curve ℤ :=
  if benchVersion ≥ PRICED_COST_V2_MIN_BENCH_VERSION then PRICED_COST_V2_CURVE else PRICED_COST_CURVE

def pricedCostPrices : PricedCostPrices ℤ where
  chatModel := "openai/gpt-oss-20b"
  promptToken := 70
  completionToken := 150
  embeddingModel := "perplexity/pplx-embed-v1-0.6b"
  embeddingToken := 4
  decisionModel := "typesafe/jev-1.14"
  decisionInputToken := 42
  decisionOutputToken := 0
  completionIncludesReasoning := true

/-- The code points that `str.strip` removes. -/
def isSpace (c : Char) : Bool :=
  (9 ≤ c.toNat ∧ c.toNat ≤ 13) ∨ (28 ≤ c.toNat ∧ c.toNat ≤ 32) ∨ c.toNat = 0x85 ∨ c.toNat = 0xa0 ∨ c.toNat = 0x1680 ∨
    (0x2000 ≤ c.toNat ∧ c.toNat ≤ 0x200a) ∨ c.toNat = 0x2028 ∨ c.toNat = 0x2029 ∨ c.toNat = 0x202f ∨
    c.toNat = 0x205f ∨ c.toNat = 0x3000

/-- `posture.strip().lower()`; no character outside ASCII has a lower case among the letters of `shadow`. -/
def normalizedPosture (posture : String) : List Char :=
  (((posture.toList.dropWhile isSpace).reverse.dropWhile isSpace).reverse).map Char.toLower

/-- The keyword arguments of the counts, all 0 by default. -/
structure Counts where
  promptTokens : ℤ := 0
  completionTokens : ℤ := 0
  embeddingTokens : ℤ := 0
  decisionCalls : ℤ := 0
  decisionInputTokens : ℤ := 0
  decisionOutputTokens : ℤ := 0

def buildPricedCost (benchVersion : ℤ) (posture : String) (cases : ℤ) (chatComplete : Bool) (source : String)
    (counts : Counts) : Option (PricedCostSummary ℤ ℤ) :=
  if ¬ isPricedCostBenchVersion benchVersion then none
  else
    let appliedPosture := if normalizedPosture posture = "shadow".toList then "shadow" else "enforce"
    let reference := pricedCostReferenceForVersion benchVersion
    let curve := pricedCostCurveForVersion benchVersion
    let prompt := clamp counts.promptTokens
    let completion := clamp counts.completionTokens
    let embedding := clamp counts.embeddingTokens
    let decisionIn := clamp counts.decisionInputTokens
    let decisionOut := clamp counts.decisionOutputTokens
    let promptCost := sat (prompt * 70)
    let completionCost := sat (completion * 150)
    let embeddingCost := sat (embedding * 4)
    let decisionCost := sat (sat (decisionIn * 42) + sat (decisionOut * 0))
    let cost := sat (sat (promptCost + completionCost) + sat (embeddingCost + decisionCost))
    let block : PricedCostSummary ℤ ℤ :=
      { contractID := pricedCostContractIdForVersion benchVersion
        posture := appliedPosture
        applied := false
        result := "insufficient_evidence"
        window := "whole_run"
        source := source
        cases := cases
        promptTokens := prompt
        completionTokens := completion
        embeddingTokens := embedding
        decisionCalls := counts.decisionCalls
        decisionInputTokens := decisionIn
        decisionOutputTokens := decisionOut
        prices := pricedCostPrices
        promptCostNanoUSD := promptCost
        completionCostNanoUSD := completionCost
        embeddingCostNanoUSD := embeddingCost
        decisionCostNanoUSD := decisionCost
        costNanoUSD := cost
        normalizationCases := 350
        normalizedCostNanoUSD := 0
        referenceNanoUSD := reference
        ratioBPS := 0
        curve := curve.points
        floorBPS := pricedCostFloorForVersion benchVersion
        factorBPS := 10000
        appliedFactorBPS := 10000 }
    if ¬ chatComplete ∨ cases ≤ 0 then some block
    else
      let normalized := sat (cost * 350) / cases
      let ratio := min (sat (normalized * 10000) / reference) 100000
      let factor := pricedCostFactorBpsForCurve ratio curve
      let priced := { block with
        result := "priced", normalizedCostNanoUSD := normalized, ratioBPS := ratio, factorBPS := factor }
      if appliedPosture = "enforce" then some { priced with applied := true, appliedFactorBPS := factor }
      else some priced

inductive PricedCostPosture
  | enforce
  | shadow
  deriving DecidableEq

def PricedCostPosture.word : PricedCostPosture → String
  | .enforce => "enforce"
  | .shadow => "shadow"

inductive PricedCostResult
  | priced
  | insufficientEvidence
  deriving DecidableEq

def PricedCostResult.word : PricedCostResult → String
  | .priced => "priced"
  | .insufficientEvidence => "insufficient_evidence"

/-- `_BPS`. -/
abbrev Bps := {n : ℕ // n ≤ 10000}

/-- The validated `details.priced_cost` block of a report; `none` also stands for rates or a curve of another shape. -/
structure PricedCostReport where
  contractId : String
  posture : PricedCostPosture
  applied : Bool
  result : PricedCostResult
  window : String
  source : String := ""
  cases : ℕ
  promptTokens : ℕ := 0
  completionTokens : ℕ := 0
  embeddingTokens : ℕ := 0
  decisionCalls : ℕ := 0
  decisionInputTokens : ℕ := 0
  decisionOutputTokens : ℕ := 0
  prices : Option (PricedCostPrices ℤ) := none
  promptCostNanoUsd : ℕ := 0
  completionCostNanoUsd : ℕ := 0
  embeddingCostNanoUsd : ℕ := 0
  decisionCostNanoUsd : ℕ := 0
  costNanoUsd : ℕ := 0
  normalizationCases : ℕ := 350
  normalizedCostNanoUsd : ℕ := 0
  referenceNanoUsd : ℕ := 1000000000
  curve : Option (List (ℤ × ℤ)) := none
  ratioBps : {n : ℕ // n ≤ 100000} := ⟨0, by decide⟩
  floorBps : Bps := ⟨6000, by decide⟩
  factorBps : Bps
  appliedFactorBps : Bps

/-- The block the published rule produces for the inputs of a report. -/
def PricedCostReport.recomputed (r : PricedCostReport) (benchVersion : ℤ) : Option (PricedCostSummary ℤ ℤ) :=
  buildPricedCost benchVersion r.posture.word r.cases (r.result = .priced) r.source
    { promptTokens := r.promptTokens
      completionTokens := r.completionTokens
      embeddingTokens := r.embeddingTokens
      decisionCalls := r.decisionCalls
      decisionInputTokens := r.decisionInputTokens
      decisionOutputTokens := r.decisionOutputTokens }

/-- The fields that `matches_published_rule` compares. -/
def PricedCostReport.SameRule (r : PricedCostReport) (want : PricedCostSummary ℤ ℤ) : Prop :=
  r.contractId = want.contractID ∧ r.window = want.window ∧ r.result.word = want.result ∧
    r.promptTokens = want.promptTokens ∧ r.completionTokens = want.completionTokens ∧
    r.embeddingTokens = want.embeddingTokens ∧ r.decisionInputTokens = want.decisionInputTokens ∧
    r.decisionOutputTokens = want.decisionOutputTokens ∧ r.prices = some want.prices ∧ r.curve = some want.curve ∧
    r.normalizationCases = want.normalizationCases ∧ r.referenceNanoUsd = want.referenceNanoUSD ∧
    r.floorBps.val = want.floorBPS ∧ r.promptCostNanoUsd = want.promptCostNanoUSD ∧
    r.completionCostNanoUsd = want.completionCostNanoUSD ∧ r.embeddingCostNanoUsd = want.embeddingCostNanoUSD ∧
    r.decisionCostNanoUsd = want.decisionCostNanoUSD ∧ r.factorBps.val = want.factorBPS ∧
    r.appliedFactorBps.val = want.appliedFactorBPS ∧ r.applied = want.applied ∧ r.costNanoUsd = want.costNanoUSD ∧
    r.normalizedCostNanoUsd = want.normalizedCostNanoUSD ∧ r.ratioBps.val = want.ratioBPS

instance (r : PricedCostReport) (want : PricedCostSummary ℤ ℤ) : Decidable (r.SameRule want) := by
  unfold PricedCostReport.SameRule
  infer_instance

/-- Whether the reported factor is the one the published rule gives. -/
def PricedCostReport.matchesPublishedRule (r : PricedCostReport) (benchVersion : ℤ) : Bool :=
  match r.recomputed benchVersion with
  | none => false
  | some want => r.SameRule want

end ScreeningProtocol
end DittoSubnet.Bench

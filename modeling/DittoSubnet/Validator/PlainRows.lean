import DittoSubnet.Validator.Fold

/-!
# Comparisons of plain rows, exact and rounded

The folds are modelled over exact numbers. The code computes with binary64 numbers, where a sum or a product is
rounded. What rounding can change is seen on plain rows: rows that carry no evidence besides their quorum score. The
operations of their comparison are written once, over any numbers, and read twice:

* over exact numbers they are the fold (`dethroneScores_plain`, `beats_plain`, `selectChampion_plain`);
* over `Float.Model` they are the fold as the code computes it, up to what the mathematical library answers
  (`MathLibrary`).
-/

namespace DittoSubnet.Validator

open Kit

/-- The functions of the mathematical library that a comparison calls. -/
structure MathLibrary (K : Type) where
  sqrt : K → K
  exp : K → K
  /-- `x ** 2`, which a library need not round as the product of `x` with itself. -/
  square : K → K

/-- A full-benchmark row of a version before the seasons, known by its quorum score only. -/
structure ScoreRow (K : Type) where
  minerHotkey : String
  agentId : Uuid
  composite : K
  compositeStderr : Option K
  firstSeen : Timestamp
  benchVersion : ℕ

/-! ## The comparison over any numbers -/

namespace ScoreRow

section Operations

variable {K : Type} [Add K] [Sub K] [Mul K] [Div K] [Neg K] [Min K] [Max K] [LE K] [LT K] [DecidableLE K]
  [DecidableLT K] [NatCast K] [Zero K] [One K]

/-- The quality times the multiplier of a row without efficiency evidence. -/
def effectiveComposite (r : ScoreRow K) : K := r.composite * 1

def dethroneBandScale (lib : MathLibrary K) (challenger champion : ScoreRow K) (championComposite : K) : K :=
  if min challenger.benchVersion champion.benchVersion < KOTH_BAND_DECAY_MIN_BENCH_VERSION then 1
  else
    let boundedChampion := min (max championComposite (60 / 100)) 1
    lib.exp (-2 * (boundedChampion - 60 / 100))

def ceilingCappedBand (band : K) (challenger champion : ScoreRow K) (championScore : K) (active : Bool) : K :=
  if !active then band
  else if min challenger.benchVersion champion.benchVersion < KOTH_BAND_DECAY_MIN_BENCH_VERSION then band
  else
    let headroom := 1 - championScore
    if headroom ≤ 0 then 0 else min band (1 / 2 * headroom)

def indifferenceBand (margin : K) (statistical : Option K) (capped : Bool) : K :=
  match statistical with
  | none => margin
  | some statistical => max margin (if capped then min statistical (2 * margin) else statistical)

def entryStderr (r : ScoreRow K) : Option K :=
  match r.compositeStderr with
  | some v => if 0 ≤ v then some v else none
  | none => none

/-- The statistical term, with the squares as the fold writes them. -/
def unpairedStatisticalBand (lib : MathLibrary K) (square : K → K) (challenger champion : ScoreRow K) (dethroneZ : K) :
    Option K :=
  if dethroneZ ≤ 0 then none
  else
    match challenger.entryStderr, champion.entryStderr with
    | some seC, some seChamp => some (dethroneZ * lib.sqrt (square (seC * 1) + square (seChamp * 1)))
    | _, _ => none

def dethroneScores (lib : MathLibrary K) (square : K → K) (p : MemoryFoldParams K) (challenger champion : ScoreRow K) :
    K × K :=
  let chall := challenger.effectiveComposite
  let champ := champion.effectiveComposite
  let band := indifferenceBand p.margin (unpairedStatisticalBand lib square challenger champion p.dethroneZ)
    p.statisticalBandCap
  let band := band * dethroneBandScale lib challenger champion champ
  let band := ceilingCappedBand band challenger champion champ p.ceilingBandClamp
  (chall, champ + band)

def beats (lib : MathLibrary K) (square : K → K) (p : MemoryFoldParams K) (challenger champion : ScoreRow K) : Bool :=
  let scores := dethroneScores lib square p challenger champion
  scores.1 > scores.2

def scoreCeilingDeadlocked (lib : MathLibrary K) (square : K → K) (p : MemoryFoldParams K)
    (challenger champion : ScoreRow K) : Bool :=
  let scores := dethroneScores lib square p challenger champion
  scores.1 ≤ scores.2 ∧ scores.2 ≥ 1

def seniorityKey (r : ScoreRow K) : Timestamp ×ₗ Uuid := toLex (r.firstSeen, r.agentId)

/-- The champion of a pool without an incumbent and without a gate. -/
def selectChampion (lib : MathLibrary K) (square : K → K) (p : MemoryFoldParams K) (rows : List (ScoreRow K)) :
    Option (ScoreRow K) :=
  match sortOn seniorityKey (rows.filter fun r => 0 < r.effectiveComposite) with
  | [] => none
  | champ :: challengers => some (walk (beats lib square p) champ challengers)

end Operations

end ScoreRow

/-! ## The exact reading -/

variable {K : Type} [ExactArith K]

/-- The exact functions. -/
def exactLibrary : MathLibrary K := ⟨ExactArith.sqrt, ExactArith.exp, fun x => x ^ 2⟩

/-- A row with a quorum score and nothing else to compare it by. -/
structure Plain (e : LedgerEntry K) : Prop where
  version : entryVersion e < DUELING_MIN_BENCH_VERSION
  eligible : MIN_ELIGIBLE_CASES ≤ e.n
  confirmationComposites : e.confirmationComposites = none
  confirmationHistory : e.confirmationHistory = none
  efficiencyBonus : e.efficiencyBonus = none
  efficiencyFactor : e.efficiencyFactor = none
  receipt : e.v9Confirmation = none

/-- The row as its comparison reads it. -/
def plainRow (e : LedgerEntry K) : ScoreRow K :=
  ⟨e.minerHotkey, e.agentId, e.composite, e.compositeStderr, e.firstSeen, entryVersion e⟩

section Plain

variable {p : MemoryFoldParams K} {challenger champion e : LedgerEntry K}

theorem Plain.boundedEfficiencyFactor (h : Plain e) : boundedEfficiencyFactor e = none := by
  simp [Validator.boundedEfficiencyFactor, h.efficiencyFactor]

theorem Plain.efficiencyMultiplier (h : Plain e) : efficiencyMultiplier e = 1 := by
  simp [Validator.efficiencyMultiplier, h.boundedEfficiencyFactor, h.efficiencyBonus]

theorem Plain.qualityComposite (h : Plain e) : qualityComposite e = e.composite := by
  have hhistory : entryConfirmationHistory e = none := by simp [entryConfirmationHistory, h.confirmationHistory]
  have hconfirmations : entryConfirmations e = none := by simp [entryConfirmations, h.confirmationComposites]
  simp only [Validator.qualityComposite, h.receipt, continualComposite, hhistory, hconfirmations]
  cases e.continualAggregateMethod <;> cases quorumComposites e <;> rfl

theorem Plain.effectiveComposite (h : Plain e) : effectiveComposite e = (plainRow e).effectiveComposite := by
  rw [Validator.effectiveComposite, efficiencyAdjustedComposite, h.boundedEfficiencyFactor, h.qualityComposite,
    h.efficiencyMultiplier]
  rfl

theorem Plain.not_dueling (h : Plain e) : isDuelingEntry e = false := by
  simp only [isDuelingEntry, isDuelingBenchVersion, decide_eq_false_iff_not, not_le]
  exact h.version

/-- Plain rows share no seed. -/
theorem Plain.pairedDethrone (h : Plain challenger) (z : K) : pairedDethrone challenger champion z = none := by
  have hseeds : entrySeedComposites challenger none = none := by
    simp [entrySeedComposites, h.receipt, entryConfirmationHistory, h.confirmationHistory, entryConfirmations,
      h.confirmationComposites]
  have hmaps : pairedSeedMaps challenger champion = none := by
    simp [pairedSeedMaps, h.not_dueling, hseeds]
  simp [Validator.pairedDethrone, pairedStatistic, hmaps]

theorem Plain.qualityPrimary (h : Plain challenger) (h' : Plain champion) :
    qualityPrimaryEfficiencyActive [challenger, champion] = false := by
  simp [qualityPrimaryEfficiencyActive, h.boundedEfficiencyFactor, h'.boundedEfficiencyFactor]

theorem unpairedStatisticalBand_plain (h : Plain challenger) (h' : Plain champion) (z : K) :
    unpairedStatisticalBand challenger champion z =
      ScoreRow.unpairedStatisticalBand exactLibrary (fun x => x * x) (plainRow challenger) (plainRow champion) z := by
  have hscale {e : LedgerEntry K} (h : Plain e) : efficiencyStderrScale e = 1 := by
    rw [efficiencyStderrScale, h.boundedEfficiencyFactor, h.efficiencyMultiplier]
  have hstderr (e : LedgerEntry K) : (plainRow e).entryStderr = entryStderr e := rfl
  unfold unpairedStatisticalBand ScoreRow.unpairedStatisticalBand
  rw [h.qualityPrimary h', hstderr, hstderr, hscale h, hscale h']
  rfl

theorem ceilingCappedBand_plain (h : Plain challenger) (h' : Plain champion) (band score : K) (active : Bool) :
    ceilingCappedBand band challenger champion score active =
      ScoreRow.ceilingCappedBand band (plainRow challenger) (plainRow champion) score active := by
  have hceiling : comparisonCeiling challenger champion = 1 := by
    simp [comparisonCeiling, h.qualityPrimary h', effectiveScoreCeiling, h.boundedEfficiencyFactor,
      h.efficiencyMultiplier]
  unfold ceilingCappedBand ScoreRow.ceilingCappedBand
  rw [hceiling]
  rfl

/-- The scores of a comparison of plain rows. -/
theorem dethroneScores_plain (h : Plain challenger) (h' : Plain champion) : dethroneScores p challenger champion =
    ScoreRow.dethroneScores exactLibrary (fun x => x * x) p (plainRow challenger) (plainRow champion) := by
  have hcomposite {e : LedgerEntry K} (h : Plain e) :
      dethroneComposite e false = (plainRow e).effectiveComposite := h.effectiveComposite
  unfold dethroneScores ScoreRow.dethroneScores
  rw [h.pairedDethrone]
  simp only
  rw [h.qualityPrimary h', hcomposite h, hcomposite h', ceilingCappedBand_plain h h',
    unpairedStatisticalBand_plain h h']
  rfl

theorem beats_plain (hgate : p.crownGate = none) (h : Plain challenger) (h' : Plain champion) :
    beats p challenger champion =
      ScoreRow.beats exactLibrary (fun x => x * x) p (plainRow challenger) (plainRow champion) := by
  have hcomparable : duelingIncomparable challenger champion = false := by
    simp [duelingIncomparable, h.not_dueling]
  simp only [beats, hcomparable, hgate, clearsBand, dethroneScores_plain h h', ScoreRow.beats]
  rfl

theorem scoreCeilingDeadlocked_plain (h : Plain challenger) (h' : Plain champion) :
    scoreCeilingDeadlocked p challenger champion =
      ScoreRow.scoreCeilingDeadlocked exactLibrary (fun x => x * x) p (plainRow challenger) (plainRow champion) := by
  have hceiling : comparisonCeiling challenger champion = 1 := by
    simp [comparisonCeiling, h.qualityPrimary h', effectiveScoreCeiling, h.boundedEfficiencyFactor,
      h.efficiencyMultiplier]
  unfold scoreCeilingDeadlocked ScoreRow.scoreCeilingDeadlocked
  rw [dethroneScores_plain h h', hceiling]

/-- The champion of a pool of plain rows. -/
theorem selectChampion_plain {entries : List (LedgerEntry K)} (hgate : p.crownGate = none)
    (hincumbent : p.incumbentAgentId = none) (hplain : ∀ e ∈ entries, Plain e) :
    (selectChampion p entries).map plainRow =
      ScoreRow.selectChampion exactLibrary (fun x => x * x) p (entries.map plainRow) := by
  have hpool : scoredPool entries = entries.filter fun e => decide (0 < (plainRow e).effectiveComposite) := by
    have heligible : filterEligible entries = entries := by
      rw [filterEligible, List.filter_eq_self]
      intro e he
      simp [entryEligible, (hplain e he).eligible, duelingFoldReady, (hplain e he).not_dueling]
    rw [scoredPool, heligible]
    refine List.filter_congr fun e he => ?_
    rw [(hplain e he).effectiveComposite]
  have hrows : (sortOn seniorityKey (scoredPool entries)).map plainRow =
      sortOn ScoreRow.seniorityKey ((entries.map plainRow).filter fun r => decide (0 < r.effectiveComposite)) := by
    rw [sortOn_map seniorityKey ScoreRow.seniorityKey plainRow fun _ => rfl, hpool, List.filter_map]
    rfl
  have hmem {e : LedgerEntry K} (he : e ∈ sortOn seniorityKey (scoredPool entries)) : Plain e := by
    rw [mem_sortOn, hpool] at he
    exact hplain e (List.mem_of_mem_filter he)
  unfold selectChampion champion opener ScoreRow.selectChampion
  rw [hincumbent, hgate, ← hrows]
  have hnone : (scoredPool entries).find? (fun e => decide (some e.agentId = none)) = none := by simp
  rw [hnone]
  cases hsorted : sortOn seniorityKey (scoredPool entries) with
  | nil => rfl
  | cons champ challengers =>
    rw [hsorted] at hmem
    simp only [List.map_cons, Option.map_some]
    refine congrArg some ?_
    have hbeats : ∀ a b a' b', (Plain a ∧ a' = plainRow a) → (Plain b ∧ b' = plainRow b) →
        beats p a b = ScoreRow.beats exactLibrary (fun x => x * x) p a' b' := by
      rintro a b _ _ ⟨ha, rfl⟩ ⟨hb, rfl⟩
      exact beats_plain hgate ha hb
    have hrest : List.Forall₂ (fun e r => Plain e ∧ r = plainRow e) challengers (challengers.map plainRow) := by
      rw [List.forall₂_map_right_iff, List.forall₂_same]
      intro e he
      exact ⟨hmem (List.mem_cons_of_mem _ he), rfl⟩
    exact (rel_walk hbeats hrest ⟨hmem List.mem_cons_self, rfl⟩).2.symm

end Plain

/-! ## The rounded reading -/

section Binary64

instance natCastModel : NatCast Float.Model := ⟨Float.Model.ofNat⟩

instance zeroModel : Zero Float.Model := ⟨Float.Model.ofNat 0⟩

instance oneModel : One Float.Model := ⟨Float.Model.ofNat 1⟩

/-- The compiled constants. -/
def roundedParams (ceilingBandClamp : Bool) : MemoryFoldParams Float.Model where
  margin := 7 / 1000
  tailSize := KOTH_TAIL_SIZE
  rankShares := [65 / 100, 14 / 100, 10 / 100, 7 / 100, 4 / 100]
  dethroneZ := 164 / 100
  tiePooling := false
  ceilingBandClamp := ceilingBandClamp
  statisticalBandCap := false
  incumbentAgentId := none
  unpaidAgentId := none
  crownGate := none

/-- The number nearest to a decimal. -/
def decimal (digits places : ℕ) : Float.Model := Float.Model.ofScientific digits (-places)

/-- The square root rounds correctly; the exponential and the square are what the C library answers at the arguments of
the samples: `exp(-0.0)`, `exp(-0.7999999999999998)`, and `0.0397 ** 2`, which is not `0.0397 * 0.0397`. -/
def sampleLibrary : MathLibrary Float.Model where
  sqrt := Float.Model.sqrt
  exp := fun x => if x == 0 then 1 else decimal 4493289641172217 16
  square := fun x => if x == decimal 397 4 then decimal 15760899999999998 19 else x * x

end Binary64

end DittoSubnet.Validator

import DittoSubnet.Kit.Walk
import DittoSubnet.Platform.ScoreOrder

/-!
# The Platform's mirror of the fold

`ditto/api_server/koth.py`: the public-safe row (`KothEntry`), the lift of a served ledger row, the per-row scores, the
dethrone decision with its explanation, and the projection (`projectKoth`) with the payout (`emissionAllocation`).

This is a second implementation of what `ditto/validator/weights.py` computes. It works on its own row type, keeps its
own copies of the constants and its own bodies; only the dueling arithmetic is shared with the validator. The
provenance rank of a row is not read by any function of this module and is left out.

Scores are exact numbers, as in `Validator.Fold`, so that `x ** 2` here and `x * x` there are the same square.
-/

namespace DittoSubnet.Platform

open Kit

variable {K : Type} [ExactArith K]

def KOTH_MARGIN : K := 7 / 1000
def KOTH_BAND_DECAY_MIN_BENCH_VERSION : ℕ := 6
def KOTH_BAND_DECAY_START_COMPOSITE : K := 60 / 100
def KOTH_BAND_DECAY_RATE : K := 2
def KOTH_CEILING_HEADROOM_SHARE : K := 1 / 2
def KOTH_TAIL_SIZE : ℕ := 4
def KOTH_RANK_SHARES : List K := [65 / 100, 14 / 100, 10 / 100, 7 / 100, 4 / 100]
def KOTH_DETHRONE_Z : K := 164 / 100
def KOTH_STATISTICAL_BAND_CAP_MULTIPLE : K := 2
def CONFIRMATION_SEED_CEILING : ℕ := 15
def CURVE_VERSION_BOUNDED_FACTOR : ℕ := 3
def CURVE_VERSION_UNBOUNDED_FACTOR : ℕ := 4

/-- Whether a frozen policy stores a factor. -/
def isFactorCurve (curveVersion : ℕ) : Bool :=
  curveVersion = CURVE_VERSION_BOUNDED_FACTOR ∨ curveVersion = CURVE_VERSION_UNBOUNDED_FACTOR

/-! ## Rows -/

/-- One bench-16 confirmation record: its seed, version and aggregates. -/
structure DuelingSeedRecord (K : Type) [ExactArith K] where
  seed : ℤ
  benchVersion : ℕ
  report : Option (DuelingReport K)

/-- The subset of one active ledger row the fold uses. -/
structure KothEntry (K : Type) [ExactArith K] where
  minerHotkey : String
  agentId : Uuid
  composite : K
  firstSeen : Timestamp
  benchVersion : ℕ
  compositeStderr : Option K
  quorumComposites : Option (List K)
  completedWaveComposites : Option (List K)
  confirmationComposites : Option (List K)
  confirmationSeeds : Option (List ℤ)
  efficiencyBonus : Option K
  efficiencyFactor : Option K
  efficiencyCurveVersion : Option ℕ
  duelingSeasonId : Option String
  dueling : Option (DuelingReport K)
  duelingRecords : Option (List (DuelingSeedRecord K))
  duelRecords : Option (List (DuelingSeedRecord K))

/-- The confirmation rows collapsed to a median per seed, in seed order, cut at the ceiling. -/
def confirmationHistory (entry : LedgerEntry K) : Option (Dict ℤ K) :=
  match entry.confirmationHistory with
  | none => none
  | some [] => none
  | some records =>
    let collapsed := (groupOn (records.map fun r => (r.seed, r.composite))).map fun g => (g.1, median g.2)
    if collapsed.isEmpty then none else some ((sortOn Prod.fst collapsed).take CONFIRMATION_SEED_CEILING)

/-- The records of a served history, unless the row carries a receipt or the history is empty. -/
def liftRecords (receipt : Option V9ConfirmationReceipt) (records : Option (List (ConfirmationScoreRecord K))) :
    Option (List (DuelingSeedRecord K)) :=
  match receipt, records with
  | some _, _ => none
  | none, none => none
  | none, some [] => none
  | none, some records => some (records.map fun r => ⟨r.seed, r.benchVersion, r.dueling⟩)

/-- The confirmations and seeds of a lifted row, when they pair up to at least two. -/
def pairedConfirmations (confirmations : Option (List K)) (seeds : Option (List ℤ)) : Option (List K × List ℤ) :=
  match confirmations, seeds with
  | some confirmations, some seeds =>
    if confirmations.length = seeds.length ∧ 2 ≤ confirmations.length then some (confirmations, seeds) else none
  | _, _ => none

/-- The completed waves of a lifted row: the served history under the activation marker, else the in-row bundle. -/
def liftWaves (entry : LedgerEntry K) : List K :=
  match confirmationHistory entry, entry.continualAggregateMethod with
  | some history, some .meanAfterQuorum => history.map Prod.snd
  | _, _ => entry.confirmationComposites.getD []

/-- One row of `koth_entries_from_ledger`. -/
def kothEntryFromLedger (entry : LedgerEntry K) : KothEntry K :=
  let history := confirmationHistory entry
  let confirmations := match history with
    | some history => some (history.map Prod.snd)
    | none => entry.confirmationComposites
  let seeds := match history with
    | some history => some history.keys
    | none => entry.confirmationSeeds
  let paired := pairedConfirmations confirmations seeds
  { minerHotkey := entry.minerHotkey
    agentId := entry.agentId
    composite := match entry.v9Confirmation with
      | some receipt => (receipt.fullEffectiveMicros : K) / 1000000
      | none => entry.composite
    firstSeen := entry.firstSeen
    benchVersion := match entry.benchVersion with
      | some v => if v = 0 then 1 else v
      | none => 1
    compositeStderr := entry.compositeStderr
    quorumComposites := match entry.v9Confirmation with
      | some _ => some []
      | none => some (entry.scoreProofs.map (·.composite))
    completedWaveComposites := match entry.v9Confirmation with
      | some _ => some []
      | none => some (liftWaves entry)
    confirmationComposites := paired.map Prod.fst
    confirmationSeeds := paired.map Prod.snd
    efficiencyBonus := entry.efficiencyBonus
    efficiencyFactor := entry.efficiencyFactor
    efficiencyCurveVersion := entry.efficiencyCurveVersion
    duelingSeasonId := entry.duelingSeasonId
    dueling := entry.dueling
    duelingRecords := liftRecords entry.v9Confirmation entry.confirmationHistory
    duelRecords := liftRecords entry.v9Confirmation entry.duelHistory }

/-- The lift of a served ledger. -/
def kothEntriesFromLedger (entries : List (LedgerEntry K)) : List (KothEntry K) := entries.map kothEntryFromLedger

/-! ## Scores -/

/-- At least two confirmations, all in range. -/
def confirmations (entry : KothEntry K) : Option (List K) :=
  match entry.confirmationComposites with
  | none => none
  | some values =>
    if values.length < 2 then none
    else if values.any fun value => ¬ (0 ≤ value ∧ value ≤ 1) then none
    else some values

/-- At least `minimum` composites, all in range. -/
def validatedComposites (values : Option (List K)) (minimum : ℕ) : Option (List K) :=
  match values with
  | none => none
  | some values =>
    if values.length < minimum then none
    else if values.any fun value => ¬ (0 ≤ value ∧ value ≤ 1) then none
    else some values

def efficiencyCurveVersion (entry : KothEntry K) : ℕ :=
  match entry.efficiencyCurveVersion with
  | some version => if isFactorCurve version then version else CURVE_VERSION_BOUNDED_FACTOR
  | none => CURVE_VERSION_BOUNDED_FACTOR

/-- A surfaced factor, with malformed values neutralised. -/
def boundedEfficiencyFactor (entry : KothEntry K) : Option K :=
  match entry.efficiencyFactor with
  | none => none
  | some factor =>
    if entry.benchVersion < 9 then some 1
    else if factor ≤ 0 then some 1
    else if efficiencyCurveVersion entry < CURVE_VERSION_UNBOUNDED_FACTOR ∧
        ¬ (85 / 100 ≤ factor ∧ factor ≤ 11 / 10) then some 1
    else some factor

def efficiencyMultiplier (entry : KothEntry K) : K :=
  match boundedEfficiencyFactor entry with
  | some factor => factor
  | none =>
    match entry.efficiencyBonus with
    | some bonus => if 0 ≤ bonus ∧ bonus ≤ 1 / 10 then 1 + bonus else 1
    | none => 1

/-- A factor applied to a quality: a penalty below one, a share of the headroom above. -/
def boundedEfficiencyAdjustedQuality (quality factor : K) (curveVersion : ℕ) : K :=
  if factor ≤ 1 then quality * factor
  else if CURVE_VERSION_UNBOUNDED_FACTOR ≤ curveVersion then quality + (1 - quality) * (1 - 1 / factor)
  else quality + (factor - 1) * (1 - quality)

def efficiencyStderrScale (entry : KothEntry K) : K :=
  match boundedEfficiencyFactor entry with
  | some factor =>
    if factor ≤ 1 then factor
    else if CURVE_VERSION_UNBOUNDED_FACTOR ≤ efficiencyCurveVersion entry then 1 / factor
    else 2 - factor
  | none => efficiencyMultiplier entry

def efficiencyAdjustedComposite (entry : KothEntry K) (quality : K) : K :=
  match boundedEfficiencyFactor entry with
  | some factor => boundedEfficiencyAdjustedQuality quality factor (efficiencyCurveVersion entry)
  | none => quality * efficiencyMultiplier entry

def effectiveScoreCeiling (entry : KothEntry K) : K :=
  match boundedEfficiencyFactor entry with
  | some factor => if factor ≤ 1 then factor else 1
  | none => efficiencyMultiplier entry

/-- The continual aggregate: the mean of three quorum scores and the completed waves, else the confirmation median,
else the stored composite. -/
def continualComposite (entry : KothEntry K) : K :=
  let fallback := match confirmations entry with
    | none => entry.composite
    | some values => median values
  match validatedComposites entry.quorumComposites 3, validatedComposites entry.completedWaveComposites 1 with
  | some quorum, some waves => if quorum.length = 3 then mean (quorum ++ waves) else fallback
  | _, _ => fallback

/-- The efficiency projection of the continual aggregate. -/
def effectiveComposite (entry : KothEntry K) : K := efficiencyAdjustedComposite entry (continualComposite entry)

def stderr (entry : KothEntry K) : Option K :=
  match entry.compositeStderr with
  | some value => if 0 ≤ value then some value else none
  | none => none

/-- The paired confirmations keyed by seed; nothing when a seed is negative or repeated. -/
def seedComposites (entry : KothEntry K) : Option (Dict ℤ K) :=
  match confirmations entry, entry.confirmationSeeds with
  | some composites, some seeds =>
    if seeds.length ≠ composites.length then none
    else if (seeds.any fun seed => seed < 0) || !seeds.Nodup then none
    else some (seeds.zip composites)
  | _, _ => none

/-! ## Dueling rows -/

def isDuelingEntry (entry : KothEntry K) : Bool := isDuelingBenchVersion entry.benchVersion

/-- The row's season, cross-checked against its report's. -/
def entrySeason (entry : KothEntry K) : Option String :=
  match entry.dueling with
  | none => none
  | some report =>
    match entry.duelingSeasonId with
    | none => some report.seasonId
    | some season => if season = report.seasonId then some season else none

def duelingFoldReady (entry : KothEntry K) : Bool := !isDuelingEntry entry || (entrySeason entry).isSome

/-- The positive rows the fold may rank. -/
def foldPool (entries : List (KothEntry K)) : List (KothEntry K) :=
  entries.filter fun entry => 0 < entry.composite && duelingFoldReady entry

def duelingIncomparable (a b : KothEntry K) : Bool :=
  if !(isDuelingEntry a && isDuelingEntry b) then false
  else (entrySeason a).isNone || entrySeason a != entrySeason b || a.benchVersion != b.benchVersion

def duelingPairMask (a b : KothEntry K) : Option (Finset String) :=
  if !(isDuelingEntry a && isDuelingEntry b) then none
  else if duelingIncomparable a b then none
  else
    match a.dueling, b.dueling with
    | some reportA, some reportB => some {reportA.ownerKey, reportB.ownerKey}
    | _, _ => none

/-- One record's composite with `mask`'s columns removed, when the record is evidence for this row. -/
def recordMaskedComposite (entry : KothEntry K) (record : DuelingSeedRecord K) (mask : Finset String) : Option K :=
  match record.report, entry.dueling with
  | some report, some entryReport =>
    if some report.seasonId ≠ entrySeason entry ∨ report.ownerKey ≠ entryReport.ownerKey ∨
        record.benchVersion ≠ entry.benchVersion then none
    else
      let value := duelingComposite report.datagenRaw report.datagenGate report.columns mask
      if ¬ (0 ≤ value ∧ value ≤ 1) then none else some value
  | _, _ => none

/-- Per-seed masked medians over the first seeds of the row's records. -/
def duelingSeedComposites (entry : KothEntry K) (mask : Finset String) : Option (Dict ℤ K) :=
  match entry.duelingRecords with
  | none => none
  | some [] => none
  | some records =>
    let window := (sortOn id (records.map (·.seed)).dedup).take CONFIRMATION_SEED_CEILING
    let grouped := groupOn (records.filterMap fun r =>
      if r.seed ∉ window then none else (recordMaskedComposite entry r mask).map fun value => (r.seed, value))
    if grouped.isEmpty then none else some ((sortOn Prod.fst grouped).map fun g => (g.1, median g.2))

/-- The per-seed maps a pairing compares. -/
def pairedSeedMaps (a b : KothEntry K) : Option (Dict ℤ K × Dict ℤ K) :=
  let pair : Option (Dict ℤ K) → Option (Dict ℤ K) → Option (Dict ℤ K × Dict ℤ K)
    | some aMap, some bMap => some (aMap, bMap)
    | _, _ => none
  if isDuelingEntry a && isDuelingEntry b then
    match duelingPairMask a b with
    | none => none
    | some mask => pair (duelingSeedComposites a mask) (duelingSeedComposites b mask)
  else pair (seedComposites a) (seedComposites b)

def sharedSeedCount (a b : KothEntry K) : ℕ :=
  match pairedSeedMaps a b with
  | none => 0
  | some maps => (maps.1.keys.filter fun s => s ∈ maps.2.keys).length

/-! ## The paired statistic and the bands -/

/-- Whether curve-v3 ordering is present in the ledger. -/
def qualityPrimaryEfficiencyActive (entries : List (KothEntry K)) : Bool :=
  entries.any fun entry => (boundedEfficiencyFactor entry).isSome

/-- The shared-seed head-to-head. -/
structure PairedStatistic (K : Type) where
  meanDifference : K
  championReference : K
  standardError : K
  differences : List K

/-- The score of one seed in a comparison. -/
def seedScore (qualityPrimary : Bool) (entry : KothEntry K) (quality : K) : K :=
  if qualityPrimary then quality else efficiencyAdjustedComposite entry quality

def pairedStatistic (challenger champion : KothEntry K) : Option (PairedStatistic K) :=
  match pairedSeedMaps challenger champion with
  | none => none
  | some (challengerBySeed, championBySeed) =>
    let shared := sortOn id (challengerBySeed.keys.filter fun s => s ∈ championBySeed.keys)
    if shared.length < 2 then none
    else
      let qualityPrimary := qualityPrimaryEfficiencyActive [challenger, champion]
      let scores := shared.filterMap fun seed =>
        match challengerBySeed.get? seed, championBySeed.get? seed with
        | some x, some y => some (seedScore qualityPrimary challenger x, seedScore qualityPrimary champion y)
        | _, _ => none
      let differences := scores.map fun s => s.1 - s.2
      some {
        meanDifference := mean differences
        championReference := mean (scores.map Prod.snd)
        standardError := standardErrorOfMean differences
        differences := differences }

def dethroneBandScale (challenger champion : KothEntry K) (championComposite : K) : K :=
  if min challenger.benchVersion champion.benchVersion < KOTH_BAND_DECAY_MIN_BENCH_VERSION then 1
  else
    let boundedChampion := min (max championComposite KOTH_BAND_DECAY_START_COMPOSITE) 1
    ExactArith.exp (-KOTH_BAND_DECAY_RATE * (boundedChampion - KOTH_BAND_DECAY_START_COMPOSITE))

def ceilingCappedBand (band : K) (challenger champion : KothEntry K) (championScore : K) (active : Bool) : K :=
  if !active then band
  else if min challenger.benchVersion champion.benchVersion < KOTH_BAND_DECAY_MIN_BENCH_VERSION then band
  else
    let ceiling := if qualityPrimaryEfficiencyActive [challenger, champion] then 1
      else effectiveScoreCeiling challenger
    let headroom := ceiling - championScore
    if headroom ≤ 0 then 0 else min band (KOTH_CEILING_HEADROOM_SHARE * headroom)

def cappedStatisticalBand (margin statistical : K) : K := min statistical (KOTH_STATISTICAL_BAND_CAP_MULTIPLE * margin)

def indifferenceBand (margin : K) (statistical : Option K) (capped : Bool) : K :=
  match statistical with
  | none => margin
  | some statistical => max margin (if capped then cappedStatisticalBand margin statistical else statistical)

def dethroneComposite (entry : KothEntry K) (qualityPrimary : Bool) : K :=
  if qualityPrimary then continualComposite entry else effectiveComposite entry

/-! ## The title duel -/

def duelGoverns (challenger champion : KothEntry K) (crownGate : Option CrownGate) : Bool :=
  match crownGate with
  | none => false
  | some gate => gate.duelWindow.isSome && isDuelingEntry challenger && isDuelingEntry champion

/-- The keyed masked composite of one duel record, when it is evidence for this row. -/
def duelRecordValue (entry : KothEntry K) (entryReport : DuelingReport K) (mask : Finset String)
    (r : DuelingSeedRecord K) : Option ((String × ℕ × ℤ) × K) :=
  match r.report with
  | none => none
  | some report =>
    if r.seed < 0 then none
    else if report.ownerKey ≠ entryReport.ownerKey ∨ r.benchVersion ≠ entry.benchVersion then none
    else
      let value := duelingComposite report.datagenRaw report.datagenGate report.columns mask
      if ¬ (0 ≤ value ∧ value ≤ 1) then none
      else some (seasonSeedKey report.seasonId report.seasonIndex r.seed, value)

def entryDuelRecords (entry : KothEntry K) (mask : Finset String) : Option (Dict (String × ℤ) (ℕ × K)) :=
  match entry.duelRecords, entry.dueling with
  | some [], _ => none
  | some records, some entryReport =>
    let collapsed := collapseRecords (records.filterMap (duelRecordValue entry entryReport mask))
    if collapsed.isEmpty then none else some collapsed
  | _, _ => none

/-- The windowed cross-season paired statistic for two bench-16 rows. -/
def duelStatisticFor (challenger champion : KothEntry K) (window : ℤ) : Option (DuelStatistic K) :=
  match duelingPairMask challenger champion with
  | none => none
  | some mask =>
    match entryDuelRecords challenger mask, entryDuelRecords champion mask with
    | some chall, some champ =>
      let scored (entry : KothEntry K) (records : Dict (String × ℤ) (ℕ × K)) : Dict (String × ℤ) (ℕ × K) :=
        if qualityPrimaryEfficiencyActive [challenger, champion] then records
        else records.map fun r => (r.1, (r.2.1, efficiencyAdjustedComposite entry r.2.2))
      duelStatistic (duelPairs (scored challenger chall) (scored champion champ) window)
    | _, _ => none

/-- What `min_shared_seeds` counts. -/
def crownEvidenceCount (a b : KothEntry K) (gate : CrownGate) : ℕ :=
  match duelGoverns a b (some gate), gate.duelWindow with
  | true, some window =>
    match duelStatisticFor a b window with
    | none => 0
    | some stat => stat.count
  | _, _ => sharedSeedCount a b

/-! ## Decisions -/

inductive DethroneMethod
  | flat | unpaired | paired | duel
  deriving DecidableEq, Repr

/-- Why a challenger did or did not clear the incumbent. -/
structure DethroneDecision (K : Type) where
  challengerLead : K
  requiredLead : K
  marginLead : K
  statisticalLead : Option K
  method : DethroneMethod
  dethrones : Bool
  requiredScore : K
  scoreCeiling : K
  ceilingDeadlocked : Bool
  pairedStandardError : Option K := none
  sharedSeedCount : Option ℕ := none
  seedDifferences : Option (List K) := none
  requiredSharedSeeds : Option ℤ := none
  gateBlocked : Bool := false

/-- `z * sqrt(se_challenger^2 + se_champion^2)`, when both errors are served. -/
def unpairedStatisticalLead (challenger champion : KothEntry K) (qualityPrimary : Bool) : Option K :=
  match stderr challenger, stderr champion with
  | some challengerStderr, some championStderr =>
    let scaled (entry : KothEntry K) (value : K) : K :=
      if qualityPrimary then value else value * efficiencyStderrScale entry
    some (KOTH_DETHRONE_Z *
      ExactArith.sqrt (scaled challenger challengerStderr ^ 2 + scaled champion championStderr ^ 2))
  | _, _ => none

/-- The comparison without a crown gate. -/
def ungatedDethroneDecision (challenger champion : KothEntry K) (ceilingBandClamp statisticalBandCap : Bool) :
    DethroneDecision K :=
  let qualityPrimary := qualityPrimaryEfficiencyActive [challenger, champion]
  let scoreCeiling := if qualityPrimary then 1 else effectiveScoreCeiling challenger
  match pairedStatistic challenger champion with
  | some paired =>
    let pairedStatisticalLead := indifferenceBand KOTH_MARGIN (some (KOTH_DETHRONE_Z * paired.standardError)) true
    let required := pairedStatisticalLead * dethroneBandScale challenger champion paired.championReference
    let required := ceilingCappedBand required challenger champion paired.championReference ceilingBandClamp
    let observedScore := paired.championReference + paired.meanDifference
    let requiredScore := paired.championReference + required
    { challengerLead := paired.meanDifference
      requiredLead := required
      marginLead := KOTH_MARGIN
      statisticalLead := some pairedStatisticalLead
      method := .paired
      dethrones := observedScore > requiredScore
      requiredScore := requiredScore
      scoreCeiling := scoreCeiling
      ceilingDeadlocked := ¬ observedScore > requiredScore ∧ requiredScore ≥ scoreCeiling
      pairedStandardError := some paired.standardError
      sharedSeedCount := some paired.differences.length
      seedDifferences := some paired.differences }
  | none =>
    let challengerComposite := dethroneComposite challenger qualityPrimary
    let championComposite := dethroneComposite champion qualityPrimary
    let statisticalLead := unpairedStatisticalLead challenger champion qualityPrimary
    let required := indifferenceBand KOTH_MARGIN statisticalLead statisticalBandCap *
      dethroneBandScale challenger champion championComposite
    let required := ceilingCappedBand required challenger champion championComposite ceilingBandClamp
    let requiredScore := championComposite + required
    { challengerLead := challengerComposite - championComposite
      requiredLead := required
      marginLead := KOTH_MARGIN
      statisticalLead := statisticalLead
      method := if statisticalLead.isSome then .unpaired else .flat
      dethrones := challengerComposite > requiredScore
      requiredScore := requiredScore
      scoreCeiling := scoreCeiling
      ceilingDeadlocked := ¬ challengerComposite > requiredScore ∧ requiredScore ≥ scoreCeiling }

/-- The title duel as an explainable decision. -/
def duelDecision (challenger champion : KothEntry K) (gate : CrownGate) (window : ℤ) (ceilingBandClamp : Bool)
    (ungated : DethroneDecision K) : DethroneDecision K :=
  match duelStatisticFor challenger champion window with
  | none =>
    { ungated with
      dethrones := false
      requiredSharedSeeds := some gate.minSharedSeeds
      gateBlocked := ungated.dethrones
      sharedSeedCount := some 0 }
  | some stat =>
    let reference := stat.championReference
    let marginLead := KOTH_MARGIN * dethroneBandScale challenger champion reference
    let lead := duelRequiredLead stat marginLead
    let required := lead.map fun lead => ceilingCappedBand lead challenger champion reference ceilingBandClamp
    -- below the boundary table no lead dethrones; the floor is still what the board shows
    let enough := (stat.count : ℤ) ≥ gate.minSharedSeeds && required.isSome
    let shown := required.getD marginLead
    let observedScore := reference + stat.meanDifference
    let requiredScore := reference + shown
    { challengerLead := stat.meanDifference
      requiredLead := shown
      marginLead := marginLead
      statisticalLead := lead
      method := .duel
      dethrones := enough && observedScore > requiredScore
      requiredScore := requiredScore
      scoreCeiling := ungated.scoreCeiling
      ceilingDeadlocked := ungated.ceilingDeadlocked
      pairedStandardError := some stat.standardError
      sharedSeedCount := some stat.count
      seedDifferences := some (stat.pairs.map DuelPair.difference)
      requiredSharedSeeds := some gate.minSharedSeeds
      gateBlocked := !enough && observedScore > requiredScore }

/-- One challenger against the champion, with the crown gate's veto. -/
def dethroneDecision (challenger champion : KothEntry K) (ceilingBandClamp statisticalBandCap : Bool)
    (crownGate : Option CrownGate) : DethroneDecision K :=
  let ungated := ungatedDethroneDecision challenger champion ceilingBandClamp statisticalBandCap
  let incomparable := duelingIncomparable challenger champion
  let decision := if incomparable then { ungated with dethrones := false } else ungated
  match crownGate with
  | none => decision
  | some gate =>
    match duelGoverns challenger champion (some gate), gate.duelWindow with
    | true, some window =>
      let duel := duelDecision challenger champion gate window ceilingBandClamp ungated
      if incomparable then { duel with dethrones := false } else duel
    | _, _ =>
      let qualified := decision.method = .paired && (sharedSeedCount challenger champion : ℤ) ≥ gate.minSharedSeeds
      { decision with
        dethrones := decision.dethrones && qualified
        requiredSharedSeeds := some gate.minSharedSeeds
        gateBlocked := decision.dethrones && !qualified }

/-! ## The projection -/

/-- The ranked fields of a row. -/
def rankableRow (entry : KothEntry K) : RankableRow K := ⟨entry.agentId, entry.firstSeen, entry.composite⟩

/-- Quality first, efficiency only inside an exact quality tier. -/
def rankedEntries (entries : List (KothEntry K)) : List (KothEntry K) :=
  let efficiency := Dict.ofList (entries.map fun entry => (entry.agentId, effectiveComposite entry))
  if !qualityPrimaryEfficiencyActive entries then rankSubmissions rankableRow entries efficiency []
  else
    let quality := Dict.ofList (entries.map fun entry => (entry.agentId, continualComposite entry))
    rankSubmissions rankableRow entries quality efficiency

/-- Champion, paid tail and the explanation of the raw leader. -/
structure KothProjection (K : Type) [ExactArith K] where
  champion : KothEntry K
  tail : List (KothEntry K)
  rawLeader : KothEntry K
  rawLeaderDecision : Option (DethroneDecision K)

/-- Whether the lower of two neighbours takes the upper's slot. -/
def duelingSwap (lower upper : KothEntry K) : Bool :=
  match duelingPairMask lower upper with
  | none => false
  | some _ =>
    match pairedStatistic lower upper with
    | none => false
    | some paired => paired.meanDifference > 0

def duelingAdjacentOrder (ranked : List (KothEntry K)) : List (KothEntry K) :=
  if !(ranked.any isDuelingEntry) then ranked else bubbleLoop duelingSwap ranked.length ranked

def seniorityKey (entry : KothEntry K) : Timestamp ×ₗ Uuid := toLex (entry.firstSeen, entry.agentId)

/-- The keyword arguments of the projection and the allocation. -/
structure KothOptions where
  tiePooling : Bool
  ceilingBandClamp : Bool
  statisticalBandCap : Bool
  incumbentAgentId : Option Uuid
  crownGate : Option CrownGate

/-- The opener of the walk and its challengers. -/
def opener (scored : List (KothEntry K)) (incumbentAgentId : Option Uuid) :
    Option (KothEntry K × List (KothEntry K)) :=
  let ordered := sortOn seniorityKey scored
  match scored.find? fun entry => some entry.agentId = incumbentAgentId with
  | some incumbent => some (incumbent, ordered.filter fun entry => entry.agentId ≠ incumbent.agentId)
  | none =>
    match ordered with
    | [] => none
    | champion :: challengers => some (champion, challengers)

/-- The opener and the challengers under the crown gate. -/
def gatedOpener (scored : List (KothEntry K)) (gate : CrownGate) (outgoing : KothEntry K) :
    Option (KothEntry K × List (KothEntry K)) :=
  let standing := (rankedEntries scored).take (max 1 gate.standingRank).toNat
  let standingIds := standing.map (·.agentId)
  let champion :=
    if outgoing.agentId ∉ standingIds then
      (standing.find? fun entry => (crownEvidenceCount entry outgoing gate : ℤ) ≥ gate.minSharedSeeds).or standing.head?
    else some outgoing
  champion.map fun champion =>
    (champion, (sortOn seniorityKey scored).filter fun entry =>
      entry.agentId ∈ standingIds ∧ entry.agentId ≠ champion.agentId)

/-- The champion of the projection: the walk over the challengers. -/
def projectChampion (o : KothOptions) (scored : List (KothEntry K)) : Option (KothEntry K) :=
  let dethrones (challenger champion : KothEntry K) : Bool :=
    (dethroneDecision challenger champion o.ceilingBandClamp o.statisticalBandCap o.crownGate).dethrones
  match opener scored o.incumbentAgentId with
  | none => none
  | some (champion, challengers) =>
    match o.crownGate with
    | none => some (walk dethrones champion challengers)
    | some gate => (gatedOpener scored gate champion).map fun start => walk dethrones start.1 start.2

/-- The paid tail. -/
def projectTail (distinctHotkeys : Bool) (scored : List (KothEntry K)) (champion : KothEntry K) :
    List (KothEntry K) :=
  let rankedTail := (rankedEntries scored).filter fun entry => entry.minerHotkey ≠ champion.minerHotkey
  if distinctHotkeys then
    duelingAdjacentOrder ((distinctOn (·.minerHotkey) [champion.minerHotkey] rankedTail).take KOTH_TAIL_SIZE)
  else duelingAdjacentOrder (rankedTail.take KOTH_TAIL_SIZE)

/-- The champion and participation tail of a score pool; nothing for an empty pool. -/
def projectKoth (o : KothOptions) (entries : List (KothEntry K)) : Option (KothProjection K) :=
  let scored := foldPool entries
  match projectChampion o scored, (rankedEntries scored).head? with
  | some champion, some rawLeader => some {
      champion := champion
      tail := projectTail o.tiePooling scored champion
      rawLeader := rawLeader
      rawLeaderDecision :=
        if rawLeader.agentId = champion.agentId then none
        else some (dethroneDecision rawLeader champion o.ceilingBandClamp o.statisticalBandCap o.crownGate) }
  | _, _ => none

/-! ## The allocation -/

inductive EmissionMode
  | ranked | scoreCeilingPool
  deriving DecidableEq, Repr

/-- Projected recipients and shares. -/
structure EmissionAllocation (K : Type) [ExactArith K] where
  mode : EmissionMode
  members : List (KothEntry K)
  shares : List K

/-- The fail-closed tie rule. -/
def weightTied (statisticalBandCap : Bool) (candidate anchor : KothEntry K) : Bool :=
  if duelingIncomparable candidate anchor then false
  else if qualityPrimaryEfficiencyActive [candidate, anchor] then
    continualComposite candidate = continualComposite anchor ∧ effectiveComposite candidate = effectiveComposite anchor
  else if effectiveComposite candidate = effectiveComposite anchor then true
  else
    match pairedStatistic candidate anchor with
    | none => false
    | some paired =>
      if !statisticalBandCap then |paired.meanDifference| ≤ KOTH_DETHRONE_Z * paired.standardError
      else |paired.meanDifference| ≤ cappedStatisticalBand KOTH_MARGIN (KOTH_DETHRONE_Z * paired.standardError)

/-- Champion first, then the tail, without a repeated agent. -/
def emissionSet (projection : KothProjection K) : List (KothEntry K) :=
  projection.champion :: distinctOn (·.agentId) [projection.champion.agentId] projection.tail

def emissionShares (projection : KothProjection K) (tiePooling statisticalBandCap : Bool)
    (rankShares : Option (List K)) : List K :=
  let members := emissionSet projection
  let shares := (rankShares.getD KOTH_RANK_SHARES).take members.length
  if !tiePooling then shares else averageRuns (weightTied statisticalBandCap) (members.zip shares)

def distinctRanked (entries : List (KothEntry K)) : List (KothEntry K) :=
  distinctOn (·.minerHotkey) [] (rankedEntries (foldPool entries))

def scoreCeilingCohort (o : KothOptions) (entries : List (KothEntry K)) (projection : KothProjection K) :
    List (KothEntry K) :=
  if qualityPrimaryEfficiencyActive (foldPool entries) then []
  else
    match (distinctRanked entries).find? fun entry => entry.minerHotkey ≠ projection.champion.minerHotkey,
      distinctRanked entries with
    | some challenger, anchor :: rest =>
      if !(dethroneDecision challenger projection.champion o.ceilingBandClamp o.statisticalBandCap
          none).ceilingDeadlocked then []
      else
        let cohort := anchor :: rest.takeWhile fun entry => weightTied o.statisticalBandCap entry anchor
        if cohort.length > 1 then cohort else []
    | _, _ => []

/-- Payout mode, membership and shares. -/
def emissionAllocation (o : KothOptions) (entries : List (KothEntry K)) (projection : Option (KothProjection K))
    (rankShares : Option (List K)) : EmissionAllocation K :=
  match projection with
  | none => ⟨.ranked, [], []⟩
  | some projection =>
    let ceilingCohort := if o.tiePooling then scoreCeilingCohort o entries projection else []
    if ceilingCohort.isEmpty then
      ⟨.ranked, emissionSet projection, emissionShares projection o.tiePooling o.statisticalBandCap rankShares⟩
    else ⟨.scoreCeilingPool, ceilingCohort, List.replicate ceilingCohort.length (1 / (ceilingCohort.length : K))⟩

end DittoSubnet.Platform

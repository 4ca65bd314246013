import DittoSubnet.Kit.Walk
import DittoSubnet.Validator.Evidence

/-!
# The validator's weight fold

The pairwise half of `ditto/validator/weights.py`: the paired and unpaired dethrone statistics with their bands, the
title duel, the champion walk with incumbency and crown gate, the tail, the score-ceiling cohort, and `computeWeights`.

Scores are exact numbers: no sum, product or square is rounded. What rounding can change is in `Validator.PlainRows`.
-/

namespace DittoSubnet.Validator

open Kit

variable {K : Type} [ExactArith K]

def KOTH_BAND_DECAY_MIN_BENCH_VERSION : ℕ := 6
def KOTH_BAND_DECAY_START_COMPOSITE : K := 60 / 100
def KOTH_BAND_DECAY_RATE : K := 2
def KOTH_CEILING_HEADROOM_SHARE : K := 1 / 2
def KOTH_STATISTICAL_BAND_CAP_MULTIPLE : K := 2
def KOTH_MARGIN : K := 7 / 1000
def KOTH_DETHRONE_Z : K := 164 / 100
def KOTH_TAIL_SIZE : ℤ := 4
def KOTH_RANK_SHARES : List K := [65 / 100, 14 / 100, 10 / 100, 7 / 100, 4 / 100]

/-- The key under which the shares of a provisional incumbent are reported. -/
def UNPAID_SHARE_KEY : String := "<unpaid>"

/-- The keyword arguments of `compute_weights`, resolved for one epoch. -/
structure MemoryFoldParams (K : Type) where
  margin : K
  tailSize : ℤ
  rankShares : List K
  dethroneZ : K
  tiePooling : Bool
  ceilingBandClamp : Bool
  statisticalBandCap : Bool
  incumbentAgentId : Option Uuid
  unpaidAgentId : Option Uuid
  crownGate : Option CrownGate

/-! ## Bands -/

/-- The versioned high-score scale of the dethrone band. -/
def dethroneBandScale (challenger champion : LedgerEntry K) (championComposite : K) : K :=
  if min (entryVersion challenger) (entryVersion champion) < KOTH_BAND_DECAY_MIN_BENCH_VERSION then 1
  else
    let boundedChampion := min (max championComposite KOTH_BAND_DECAY_START_COMPOSITE) 1
    ExactArith.exp (-KOTH_BAND_DECAY_RATE * (boundedChampion - KOTH_BAND_DECAY_START_COMPOSITE))

/-- The score ceiling of a comparison: a perfect score, or the challenger's attainable one. -/
def comparisonCeiling (challenger champion : LedgerEntry K) : K :=
  if qualityPrimaryEfficiencyActive [challenger, champion] then 1 else effectiveScoreCeiling challenger

/-- Caps the band at a share of the headroom the challenger has left. -/
def ceilingCappedBand (band : K) (challenger champion : LedgerEntry K) (championScore : K) (active : Bool) : K :=
  if !active then band
  else if min (entryVersion challenger) (entryVersion champion) < KOTH_BAND_DECAY_MIN_BENCH_VERSION then band
  else
    let headroom := comparisonCeiling challenger champion - championScore
    if headroom ≤ 0 then 0 else min band (KOTH_CEILING_HEADROOM_SHARE * headroom)

def cappedStatisticalBand (margin statistical : K) : K := min statistical (KOTH_STATISTICAL_BAND_CAP_MULTIPLE * margin)

def indifferenceBand (margin : K) (statistical : Option K) (capped : Bool) : K :=
  match statistical with
  | none => margin
  | some statistical => max margin (if capped then cappedStatisticalBand margin statistical else statistical)

def unpairedStatisticalBand (challenger champion : LedgerEntry K) (dethroneZ : K) : Option K :=
  if dethroneZ ≤ 0 then none
  else
    match entryStderr challenger, entryStderr champion with
    | some seC, some seChamp =>
      let qualityPrimary := qualityPrimaryEfficiencyActive [challenger, champion]
      let seC := if qualityPrimary then seC else seC * efficiencyStderrScale challenger
      let seChamp := if qualityPrimary then seChamp else seChamp * efficiencyStderrScale champion
      some (dethroneZ * ExactArith.sqrt (seC * seC + seChamp * seChamp))
    | _, _ => none

/-- The score the hysteresis comparison uses for one row. -/
def dethroneComposite (e : LedgerEntry K) (qualityPrimary : Bool) : K :=
  if qualityPrimary then qualityComposite e else effectiveComposite e

/-! ## Paired evidence -/

/-- `(mean_diff, champ_ref, se_diff)` over the shared seeds. -/
structure PairedStatistic (K : Type) where
  meanDiff : K
  champRef : K
  seDiff : K

/-- The two per-seed maps a pairing compares: pair-masked for two bench-16 rows. -/
def pairedSeedMaps (a b : LedgerEntry K) : Option (Dict ℤ K × Dict ℤ K) :=
  let maps (mask : Option (Finset String)) : Option (Dict ℤ K × Dict ℤ K) :=
    match entrySeedComposites a mask, entrySeedComposites b mask with
    | some aMap, some bMap => some (aMap, bMap)
    | _, _ => none
  if isDuelingEntry a && isDuelingEntry b then
    match duelingPairMask a b with
    | none => none
    | some mask => maps (some mask)
  else maps none

/-- The shared seeds, sorted. -/
def commonSeeds (maps : Dict ℤ K × Dict ℤ K) : List ℤ := sortOn id (maps.1.keys.filter fun s => s ∈ maps.2.keys)

/-- The score of one seed in a comparison. -/
def seedScore (qualityPrimary : Bool) (e : LedgerEntry K) (quality : K) : K :=
  if qualityPrimary then quality else efficiencyAdjustedComposite e quality

/-- The challenger's and the champion's score on each shared seed. -/
def sharedScores (challenger champion : LedgerEntry K) (maps : Dict ℤ K × Dict ℤ K) : List (K × K) :=
  let qualityPrimary := qualityPrimaryEfficiencyActive [challenger, champion]
  (commonSeeds maps).filterMap fun s =>
    match maps.1.get? s, maps.2.get? s with
    | some x, some y => some (seedScore qualityPrimary challenger x, seedScore qualityPrimary champion y)
    | _, _ => none

def pairedStatistic (challenger champion : LedgerEntry K) : Option (PairedStatistic K) :=
  match pairedSeedMaps challenger champion with
  | none => none
  | some maps =>
    if (commonSeeds maps).length < 2 then none
    else
      let scores := sharedScores challenger champion maps
      let diffs := scores.map fun s => s.1 - s.2
      some { meanDiff := mean diffs, champRef := mean (scores.map Prod.snd), seDiff := standardErrorOfMean diffs }

def pairedDethrone (challenger champion : LedgerEntry K) (dethroneZ : K) : Option (PairedStatistic K) :=
  if dethroneZ ≤ 0 then none else pairedStatistic challenger champion

/-- The confirmation seeds both rows carry a composite for. -/
def sharedSeedCount (a b : LedgerEntry K) : ℕ :=
  match pairedSeedMaps a b with
  | none => 0
  | some maps => (maps.1.keys.filter fun s => s ∈ maps.2.keys).length

/-! ## The title duel -/

def duelGoverns (challenger champion : LedgerEntry K) (crownGate : Option CrownGate) : Bool :=
  match crownGate with
  | none => false
  | some gate => gate.duelWindow.isSome && isDuelingEntry challenger && isDuelingEntry champion

/-- The keyed masked composite of one duel record, when it is evidence for this row. -/
def duelRecordValue (e : LedgerEntry K) (entryReport : DuelingReport K) (mask : Finset String)
    (r : ConfirmationScoreRecord K) : Option ((String × ℕ × ℤ) × K) :=
  match r.dueling with
  | none => none
  | some report =>
    if r.seed < 0 ∨ report.ownerKey ≠ entryReport.ownerKey ∨ r.benchVersion ≠ entryVersion e then none
    else
      let value := duelingComposite report.datagenRaw report.datagenGate report.columns mask
      if 0 ≤ value ∧ value ≤ 1 then some (seasonSeedKey report.seasonId report.seasonIndex r.seed, value) else none

/-- `(season_id, seed) -> (season_index, masked median)` from the served duel history. -/
def entryDuelRecords (e : LedgerEntry K) (mask : Finset String) : Option (Dict (String × ℤ) (ℕ × K)) :=
  match e.duelHistory, e.dueling with
  | some records, some entryReport =>
    let collapsed := collapseRecords (records.filterMap (duelRecordValue e entryReport mask))
    if collapsed.isEmpty then none else some collapsed
  | _, _ => none

/-- The duel records on the comparison's score scale. -/
def scoredDuelRecords (qualityPrimary : Bool) (e : LedgerEntry K) (records : Dict (String × ℤ) (ℕ × K)) :
    Dict (String × ℤ) (ℕ × K) :=
  if qualityPrimary then records else records.map fun r => (r.1, (r.2.1, efficiencyAdjustedComposite e r.2.2))

/-- The windowed cross-season paired statistic for two bench-16 rows. -/
def duelStatisticOf (challenger champion : LedgerEntry K) (window : ℤ) : Option (DuelStatistic K) :=
  match duelingPairMask challenger champion with
  | none => none
  | some mask =>
    match entryDuelRecords challenger mask, entryDuelRecords champion mask with
    | some chall, some champ =>
      let qualityPrimary := qualityPrimaryEfficiencyActive [challenger, champion]
      duelStatistic (duelPairs (scoredDuelRecords qualityPrimary challenger chall)
        (scoredDuelRecords qualityPrimary champion champ) window)
    | _, _ => none

/-- The lead the title duel asks for, when the number of pairs has a boundary. -/
def duelLead (p : MemoryFoldParams K) (challenger champion : LedgerEntry K) (stat : DuelStatistic K) : Option K :=
  let floor := p.margin * dethroneBandScale challenger champion stat.championReference
  (duelRequiredLead stat floor).map fun lead =>
    ceilingCappedBand lead challenger champion stat.championReference p.ceilingBandClamp

def duelBeats (p : MemoryFoldParams K) (gate : CrownGate) (window : ℤ) (challenger champion : LedgerEntry K) : Bool :=
  match duelStatisticOf challenger champion window with
  | none => false
  | some stat =>
    if (stat.count : ℤ) < gate.minSharedSeeds then false
    else
      match duelLead p challenger champion stat with
      | none => false
      | some lead => stat.championReference + stat.meanDifference > stat.championReference + lead

/-- What `min_shared_seeds` counts: duel pairs under a title duel, else shared seeds. -/
def crownEvidenceCount (a b : LedgerEntry K) (gate : CrownGate) : ℕ :=
  match gate.duelWindow with
  | none => sharedSeedCount a b
  | some window =>
    if duelGoverns a b (some gate) then
      match duelStatisticOf a b window with
      | none => 0
      | some stat => stat.count
    else sharedSeedCount a b

/-! ## Dethroning -/

/-- The required band of a paired comparison. -/
def pairedBand (p : MemoryFoldParams K) (challenger champion : LedgerEntry K) (paired : PairedStatistic K) : K :=
  ceilingCappedBand
    (indifferenceBand p.margin (some (p.dethroneZ * paired.seDiff)) true *
      dethroneBandScale challenger champion paired.champRef)
    challenger champion paired.champRef p.ceilingBandClamp

/-- The observed and the strictly exceeded required score. -/
def dethroneScores (p : MemoryFoldParams K) (challenger champion : LedgerEntry K) : K × K :=
  match pairedDethrone challenger champion p.dethroneZ with
  | some paired =>
    (paired.champRef + paired.meanDiff, paired.champRef + pairedBand p challenger champion paired)
  | none =>
    let qualityPrimary := qualityPrimaryEfficiencyActive [challenger, champion]
    let chall := dethroneComposite challenger qualityPrimary
    let champ := dethroneComposite champion qualityPrimary
    let band := indifferenceBand p.margin (unpairedStatisticalBand challenger champion p.dethroneZ)
      p.statisticalBandCap
    let band := band * dethroneBandScale challenger champion champ
    let band := ceilingCappedBand band challenger champion champ p.ceilingBandClamp
    (chall, champ + band)

/-- The crown gate refuses the comparison: too few shared seeds, or no paired statistic. -/
def gateRefuses (p : MemoryFoldParams K) (challenger champion : LedgerEntry K) : Bool :=
  match p.crownGate with
  | none => false
  | some gate => (sharedSeedCount challenger champion : ℤ) < gate.minSharedSeeds ||
      (pairedDethrone challenger champion p.dethroneZ).isNone

/-- The comparison of the two scores. -/
def clearsBand (p : MemoryFoldParams K) (challenger champion : LedgerEntry K) : Bool :=
  let scores := dethroneScores p challenger champion
  scores.1 > scores.2

/-- Whether `challenger` dethrones `champion`. -/
def beats (p : MemoryFoldParams K) (challenger champion : LedgerEntry K) : Bool :=
  if duelingIncomparable challenger champion then false
  else
    match p.crownGate with
    | none => clearsBand p challenger champion
    | some gate =>
      match duelGoverns challenger champion (some gate), gate.duelWindow with
      | true, some window => duelBeats p gate window challenger champion
      | _, _ => if gateRefuses p challenger champion then false else clearsBand p challenger champion

/-! ## The champion -/

/-- The walk order: `(first_seen, agent_id)`. -/
def seniorityKey (e : LedgerEntry K) : Timestamp ×ₗ Uuid := toLex (e.firstSeen, e.agentId)

/-- The ranking order: quality first where curve-v3 ordering is present, then the effective score. -/
def rankingKey (qualityPrimary : Bool) (e : LedgerEntry K) : K ×ₗ K ×ₗ Timestamp ×ₗ Uuid :=
  toLex (-(dethroneComposite e qualityPrimary), toLex (-(effectiveComposite e), toLex (e.firstSeen, e.agentId)))

/-- The pool in ranking order. -/
def rankedEntries (entries : List (LedgerEntry K)) : List (LedgerEntry K) :=
  sortOn (rankingKey (qualityPrimaryEfficiencyActive entries)) entries

/-- The opener of the walk and the challengers in walk order: the incumbent if it is in the pool, else the earliest
lineage. -/
def opener (entries : List (LedgerEntry K)) (incumbentAgentId : Option Uuid) :
    Option (LedgerEntry K × List (LedgerEntry K)) :=
  let ordered := sortOn seniorityKey entries
  match entries.find? fun e => some e.agentId = incumbentAgentId with
  | some incumbent => some (incumbent, ordered.filter fun e => e.agentId ≠ incumbent.agentId)
  | none =>
    match ordered with
    | [] => none
    | champ :: challengers => some (champ, challengers)

/-- The rows that may hold or take the crown under the gate. -/
def standing (entries : List (LedgerEntry K)) (gate : CrownGate) : List (LedgerEntry K) :=
  (rankedEntries entries).take (max 1 gate.standingRank).toNat

/-- The opener after the standing rule: an opener outside the standing rows hands the crown to the best-ranked standing
row with enough evidence against it, else to rank 1. -/
def standingOpener (entries : List (LedgerEntry K)) (gate : CrownGate) (champ : LedgerEntry K) :
    Option (LedgerEntry K) :=
  let rows := standing entries gate
  if champ.agentId ∈ rows.map (·.agentId) then some champ
  else (rows.find? fun e => gate.minSharedSeeds ≤ (crownEvidenceCount e champ gate : ℤ)).or rows.head?

/-- The standing challengers in walk order. -/
def standingChallengers (entries : List (LedgerEntry K)) (gate : CrownGate) (champ : LedgerEntry K) :
    List (LedgerEntry K) :=
  (sortOn seniorityKey entries).filter fun e =>
    e.agentId ∈ (standing entries gate).map (·.agentId) ∧ e.agentId ≠ champ.agentId

/-- The KOTH champion of a pool; nothing for an empty pool. -/
def champion (p : MemoryFoldParams K) (entries : List (LedgerEntry K)) : Option (LedgerEntry K) :=
  match opener entries p.incumbentAgentId with
  | none => none
  | some (champ, challengers) =>
    match p.crownGate with
    | none => some (walk (beats p) champ challengers)
    | some gate =>
      (standingOpener entries gate champ).map fun champ =>
        walk (beats p) champ (standingChallengers entries gate champ)

/-- The deterministic champion of a ledger. -/
def selectChampion (p : MemoryFoldParams K) (entries : List (LedgerEntry K)) : Option (LedgerEntry K) :=
  champion p (scoredPool entries)

/-! ## The tail -/

/-- Whether the lower of two neighbours takes the upper's slot. -/
def duelingSwap (lower upper : LedgerEntry K) : Bool :=
  match duelingPairMask lower upper with
  | none => false
  | some _ =>
    match pairedStatistic lower upper with
    | none => false
    | some paired => paired.meanDiff > 0

/-- The tail slots ordered by the pair-masked comparison of neighbours. -/
def duelingAdjacentOrder (ranked : List (LedgerEntry K)) : List (LedgerEntry K) :=
  if ranked.any isDuelingEntry then bubbleLoop duelingSwap ranked.length ranked else ranked

/-- The next ranked rows, optionally limited to distinct hotkeys. -/
def tail (entries : List (LedgerEntry K)) (champion : LedgerEntry K) (tailSize : ℤ) (distinctHotkeys : Bool) :
    List (LedgerEntry K) :=
  if tailSize ≤ 0 then []
  else
    let ranked := sortOn (rankingKey (qualityPrimaryEfficiencyActive entries))
      (entries.filter fun e => e.minerHotkey ≠ champion.minerHotkey)
    if distinctHotkeys then
      duelingAdjacentOrder ((distinctOn (·.minerHotkey) [champion.minerHotkey] ranked).take tailSize.toNat)
    else duelingAdjacentOrder (ranked.take tailSize.toNat)

/-! ## Payout -/

/-- Whether two occupied slots may share weight. -/
def weightTied (p : MemoryFoldParams K) (candidate anchor : LedgerEntry K) : Bool :=
  if duelingIncomparable candidate anchor then false
  else if qualityPrimaryEfficiencyActive [candidate, anchor] then
    qualityComposite candidate = qualityComposite anchor ∧ effectiveComposite candidate = effectiveComposite anchor
  else if effectiveComposite candidate = effectiveComposite anchor then true
  else
    match pairedDethrone candidate anchor p.dethroneZ with
    | none => false
    | some paired =>
      if p.statisticalBandCap then |paired.meanDiff| ≤ cappedStatisticalBand p.margin (p.dethroneZ * paired.seDiff)
      else |paired.meanDiff| ≤ p.dethroneZ * paired.seDiff

/-- Even the challenger's maximum score cannot clear the crown. -/
def scoreCeilingDeadlocked (p : MemoryFoldParams K) (challenger champion : LedgerEntry K) : Bool :=
  let scores := dethroneScores p challenger champion
  scores.1 ≤ scores.2 ∧ scores.2 ≥ comparisonCeiling challenger champion

/-- One position per destination hotkey, in ranking order. -/
def distinctRanked (entries : List (LedgerEntry K)) : List (LedgerEntry K) :=
  distinctOn (·.minerHotkey) [] (rankedEntries entries)

/-- The uncapped best-score cohort when the crown cannot be taken; empty otherwise. -/
def scoreCeilingCohort (p : MemoryFoldParams K) (entries : List (LedgerEntry K)) (champion : LedgerEntry K) :
    List (LedgerEntry K) :=
  if qualityPrimaryEfficiencyActive entries then []
  else
    match (distinctRanked entries).find? fun e => e.minerHotkey ≠ champion.minerHotkey, distinctRanked entries with
    | some challenger, anchor :: rest =>
      if scoreCeilingDeadlocked p challenger champion then
        let cohort := anchor :: rest.takeWhile fun e => weightTied p e anchor
        if cohort.length > 1 then cohort else []
      else []
    | _, _ => []

/-- The rank shares averaged over evidence ties. -/
def poolTiedRankShares (p : MemoryFoldParams K) (recipients : List (LedgerEntry K)) (shares : List K) : List K :=
  averageRuns (weightTied p) (recipients.zip shares)

/-- The recipients of one fold with their shares. -/
def payout (p : MemoryFoldParams K) (scored : List (LedgerEntry K)) (champion : LedgerEntry K) :
    List (LedgerEntry K × K) :=
  let cohort := if p.tiePooling then scoreCeilingCohort p scored champion else []
  if cohort.isEmpty then
    let recipients := champion :: tail scored champion p.tailSize p.tiePooling
    let shares := p.rankShares.take recipients.length
    recipients.zip (if p.tiePooling then poolTiedRankShares p recipients shares else shares)
  else cohort.zip (List.replicate cohort.length (1 / (cohort.length : K)))

/-- The refusals of `compute_weights`. -/
inductive WeightError
  | rankSharesLength
  | rankSharesNotPositive
  | rankSharesSum
  deriving DecidableEq, Repr

def WeightError.message : WeightError → String
  | .rankSharesLength => "rank_shares must contain champion plus tail_size entries"
  | .rankSharesNotPositive => "rank_shares must contain only finite positive values"
  | .rankSharesSum => "rank_shares must sum to 1"

/-- The check of the rank shares, in source order. -/
def checkRankShares (p : MemoryFoldParams K) : Except WeightError Unit :=
  if (p.rankShares.length : ℤ) ≠ p.tailSize + 1 then .error .rankSharesLength
  else if p.rankShares.any fun share => share ≤ 0 then .error .rankSharesNotPositive
  else if |p.rankShares.sum - 1| ≤ 1 / 1000000000000 then .ok ()
  else .error .rankSharesSum

/-- The weight destination of a row. -/
def shareKey (p : MemoryFoldParams K) (e : LedgerEntry K) : String :=
  if some e.agentId = p.unpaidAgentId then UNPAID_SHARE_KEY else e.minerHotkey

/-- `{miner_hotkey: weight}` for the KOTH mechanism; empty when no miner scored above zero. -/
def computeWeights (p : MemoryFoldParams K) (entries : List (LedgerEntry K)) : Except WeightError (Dict String K) :=
  match champion p (scoredPool entries) with
  | none => .ok []
  | some champ =>
    match checkRankShares p with
    | .error err => .error err
    | .ok _ => .ok (Dict.ofList ((payout p (scoredPool entries) champ).map fun r => (shareKey p r.1, r.2)))

end DittoSubnet.Validator

import DittoSubnet.Platform.Lift
import DittoSubnet.Validator.Crown
import DittoSubnet.Validator.PlainRows

/-!
# The two folds agree

On rows whose scores the two sides read alike (`Agrees`), the Platform's projection of the lifted ledger is the
validator's fold of the ledger. The pairwise halves are compared first, branch by branch:

* `pairedStatistic_lift`, `duelStatisticFor_lift`: the two statistics are the same. The Platform's maps drop a single
  shared seed that the validator keeps, but a statistic needs two (`le_sharedSeedCount_lift`);
* `dethrones_lift`: the decision dethrones iff the validator's comparison does.

Both folds are king-of-the-hill folds (`Validator.hill`, `hill`), so related rows give related results:
`koth_projection_agrees` is the agreement on champion, tail and payout. It is one of exact numbers: the two sides write
a square differently, and rounded to binary64 they can crown different agents (`rounded_folds_differ`).
-/

namespace DittoSubnet.Platform

open Kit

variable {K : Type} [ExactArith K]

/-- A row whose scores the two sides read alike, served in the shape of the Platform. -/
structure Agrees (e : LedgerEntry K) : Prop where
  eligible : Validator.MIN_ELIGIBLE_CASES ≤ e.n
  served : ReceiptServed e
  quality : continualComposite (kothEntryFromLedger e) = Validator.qualityComposite e
  effective : effectiveComposite (kothEntryFromLedger e) = Validator.effectiveComposite e
  positive : 0 < (kothEntryFromLedger e).composite ↔ 0 < Validator.effectiveComposite e

/-- The validator's parameters for a marker setting, at the compiled margin, band and tail. -/
def foldParams (o : KothOptions) (rankShares : List K) (unpaidAgentId : Option Uuid) :
    Validator.MemoryFoldParams K where
  margin := Validator.KOTH_MARGIN
  tailSize := Validator.KOTH_TAIL_SIZE
  rankShares := rankShares
  dethroneZ := Validator.KOTH_DETHRONE_Z
  tiePooling := o.tiePooling
  ceilingBandClamp := o.ceilingBandClamp
  statisticalBandCap := o.statisticalBandCap
  incumbentAgentId := o.incumbentAgentId
  unpaidAgentId := unpaidAgentId
  crownGate := o.crownGate

/-! ## Per-seed maps -/

/-- The seeds of a map are distinct. -/
theorem keys_entrySeedComposites {e : LedgerEntry K} (he : ReceiptServed e) {m : Dict ℤ K}
    (h : Validator.entrySeedComposites e none = some m) : m.keys.Nodup := by
  cases hr : e.v9Confirmation with
  | some receipt =>
    rw [entrySeedComposites_of_receipt he (by rw [hr]; rfl)] at h
    cases h
  | none =>
    rw [entrySeedComposites_none_of_no_receipt hr] at h
    cases hh : Validator.entryConfirmationHistory e with
    | some history =>
      rw [hh] at h
      cases h
      exact (Validator.entryConfirmationHistory_spec hh).2.1
    | none =>
      rw [hh] at h
      obtain ⟨comps, -, h⟩ := Option.bind_eq_some_iff.1 h
      obtain ⟨seeds, -, h⟩ := Option.bind_eq_some_iff.1 h
      unfold Validator.alignedSeedComposites at h
      split at h
      · cases h
      · rename_i hl
        split at h
        · rename_i hok
          cases h
          simp only [Bool.and_eq_true, decide_eq_true_eq] at hok
          rw [Dict.keys, List.map_fst_zip (by omega)]
          exact hok.2
        · cases h

omit [ExactArith K] in
theorem length_commonSeeds_le {x y : Dict ℤ K} (hx : x.keys.Nodup) :
    (Validator.commonSeeds (x, y)).length ≤ x.length ∧ (Validator.commonSeeds (x, y)).length ≤ y.length := by
  have h₁ : (x.keys.filter fun s => s ∈ y.keys).length ≤ x.keys.length := List.length_filter_le _ _
  have h₂ : (x.keys.filter fun s => s ∈ y.keys).length ≤ y.keys.length :=
    (List.subperm_of_subset (hx.filter _) fun s hs => by simpa using (List.mem_filter.1 hs).2).length_le
  simp only [Validator.commonSeeds, length_sortOn]
  simp only [Dict.keys, List.length_map] at h₁ h₂ ⊢
  exact ⟨h₁, h₂⟩

section Pairs

variable {a b : LedgerEntry K}

/-- Two rows that both sides compare in one season use the same maps. -/
theorem pairedSeedMaps_dueling (ha : Agrees a) (hb : Agrees b)
    (hd : (Validator.isDuelingEntry a && Validator.isDuelingEntry b) = true) :
    pairedSeedMaps (kothEntryFromLedger a) (kothEntryFromLedger b) = Validator.pairedSeedMaps a b := by
  cases hmask : Validator.duelingPairMask a b with
  | none => simp only [pairedSeedMaps, Validator.pairedSeedMaps, isDuelingEntry_lift, hd, if_true, duelingPairMask_lift,
    hmask]
  | some mask =>
    cases hx : Validator.entrySeedComposites a (some mask) <;> cases hy :
      Validator.entrySeedComposites b (some mask) <;>
        simp only [pairedSeedMaps, Validator.pairedSeedMaps, isDuelingEntry_lift, hd, if_true, duelingPairMask_lift,
        hmask, duelingSeedComposites_lift ha.served, duelingSeedComposites_lift hb.served, hx, hy]

/-- Other pairs use the validator's maps when both have two seeds; otherwise the Platform has none and the validator's
share fewer than two seeds. -/
theorem pairedSeedMaps_plain (ha : Agrees a) (hb : Agrees b)
    (hd : (Validator.isDuelingEntry a && Validator.isDuelingEntry b) = false) :
    pairedSeedMaps (kothEntryFromLedger a) (kothEntryFromLedger b) = Validator.pairedSeedMaps a b ∨
      pairedSeedMaps (kothEntryFromLedger a) (kothEntryFromLedger b) = none ∧
        ∀ maps, Validator.pairedSeedMaps a b = some maps → (Validator.commonSeeds maps).length < 2 := by
  simp only [pairedSeedMaps, Validator.pairedSeedMaps, isDuelingEntry_lift, hd, Bool.false_eq_true, if_false,
    seedComposites_lift ha.served, seedComposites_lift hb.served]
  cases hx : Validator.entrySeedComposites a none with
  | none => exact .inl rfl
  | some x =>
    cases hy : Validator.entrySeedComposites b none with
    | none =>
      refine .inl ?_
      cases (some x).filter fun m => decide (2 ≤ m.length) <;> rfl
    | some y =>
      have hle := length_commonSeeds_le (y := y) (keys_entrySeedComposites ha.served hx)
      by_cases hlx : 2 ≤ x.length
      · by_cases hly : 2 ≤ y.length
        · exact .inl (by simp [Option.filter, hlx, hly])
        · refine .inr ⟨by simp [Option.filter, hlx, hly], fun maps hm => ?_⟩
          cases hm
          omega
      · refine .inr ⟨by simp [Option.filter, hlx], fun maps hm => ?_⟩
        cases hm
        omega

/-- Either the maps are the same, or neither side can form a statistic. -/
theorem pairedSeedMaps_lift (ha : Agrees a) (hb : Agrees b) :
    pairedSeedMaps (kothEntryFromLedger a) (kothEntryFromLedger b) = Validator.pairedSeedMaps a b ∨
      pairedSeedMaps (kothEntryFromLedger a) (kothEntryFromLedger b) = none ∧
        ∀ maps, Validator.pairedSeedMaps a b = some maps → (Validator.commonSeeds maps).length < 2 := by
  cases hd : Validator.isDuelingEntry a && Validator.isDuelingEntry b with
  | true => exact .inl (pairedSeedMaps_dueling ha hb hd)
  | false => exact pairedSeedMaps_plain ha hb hd

/-- The score scale of a comparison is the same. -/
theorem seedScore_lift (q : K) :
    seedScore (Validator.qualityPrimaryEfficiencyActive [a, b]) (kothEntryFromLedger a) q =
        Validator.seedScore (Validator.qualityPrimaryEfficiencyActive [a, b]) a q ∧
      seedScore (Validator.qualityPrimaryEfficiencyActive [a, b]) (kothEntryFromLedger b) q =
        Validator.seedScore (Validator.qualityPrimaryEfficiencyActive [a, b]) b q := by
  cases hq : Validator.qualityPrimaryEfficiencyActive [a, b] with
  | true => exact ⟨rfl, rfl⟩
  | false =>
    obtain ⟨hfa, hfb⟩ := factor_none_of_pair hq
    exact ⟨efficiencyAdjustedComposite_of_none hfa q, efficiencyAdjustedComposite_of_none hfb q⟩

/-- The validator's reading of a Platform statistic. -/
def PairedStatistic.forget (s : PairedStatistic K) : Validator.PairedStatistic K :=
  ⟨s.meanDifference, s.championReference, s.standardError⟩

/-- The paired statistics are the same. -/
theorem pairedStatistic_lift (ha : Agrees a) (hb : Agrees b) :
    (pairedStatistic (kothEntryFromLedger a) (kothEntryFromLedger b)).map PairedStatistic.forget =
      Validator.pairedStatistic a b := by
  unfold pairedStatistic Validator.pairedStatistic
  rcases pairedSeedMaps_lift ha hb with hm | ⟨hm, hshort⟩
  · rw [hm, qualityPrimary_pair]
    cases Validator.pairedSeedMaps a b with
    | none => rfl
    | some maps =>
      obtain ⟨x, y⟩ := maps
      simp only [Validator.sharedScores, Validator.commonSeeds, fun q => (seedScore_lift (a := a) (b := b) q).1,
        fun q => (seedScore_lift (a := a) (b := b) q).2]
      split <;> rfl
  · rw [hm]
    cases hv : Validator.pairedSeedMaps a b with
    | none => rfl
    | some maps => simp [hshort maps hv]

/-- The crown gate counts alike once it asks for two seeds. -/
theorem le_sharedSeedCount_lift (ha : Agrees a) (hb : Agrees b) {n : ℤ} (hn : 2 ≤ n) :
    n ≤ (sharedSeedCount (kothEntryFromLedger a) (kothEntryFromLedger b) : ℤ) ↔
      n ≤ (Validator.sharedSeedCount a b : ℤ) := by
  unfold sharedSeedCount Validator.sharedSeedCount
  rcases pairedSeedMaps_lift ha hb with hm | ⟨hm, hshort⟩
  · cases hmaps : Validator.pairedSeedMaps a b <;> simp only [hm, hmaps]
  · rw [hm]
    cases hv : Validator.pairedSeedMaps a b with
    | none => rfl
    | some maps =>
      have := hshort maps hv
      simp only [Validator.commonSeeds, length_sortOn] at this
      simp only
      omega

/-! ## The title duel -/

theorem duelGoverns_lift (gate : Option CrownGate) :
    duelGoverns (kothEntryFromLedger a) (kothEntryFromLedger b) gate = Validator.duelGoverns a b gate := by
  unfold duelGoverns Validator.duelGoverns
  cases gate with
  | none => rfl
  | some gate => rw [isDuelingEntry_lift, isDuelingEntry_lift]

theorem duelStatisticFor_lift (ha : Agrees a) (hb : Agrees b) (window : ℤ) :
    duelStatisticFor (kothEntryFromLedger a) (kothEntryFromLedger b) window =
      Validator.duelStatisticOf a b window := by
  have hscored : ∀ (e : LedgerEntry K) (r : Dict (String × ℤ) (ℕ × K)), (e = a ∨ e = b) →
      (if Validator.qualityPrimaryEfficiencyActive [a, b] then r
        else r.map fun r => (r.1, (r.2.1, efficiencyAdjustedComposite (kothEntryFromLedger e) r.2.2))) =
      Validator.scoredDuelRecords (Validator.qualityPrimaryEfficiencyActive [a, b]) e r := by
    intro e r he
    unfold Validator.scoredDuelRecords
    cases hq : Validator.qualityPrimaryEfficiencyActive [a, b] with
    | true => rfl
    | false =>
      obtain ⟨hfa, hfb⟩ := factor_none_of_pair hq
      have hf : e.efficiencyFactor = none := by rcases he with rfl | rfl <;> assumption
      simp only [Bool.false_eq_true, if_false, efficiencyAdjustedComposite_of_none hf]
  unfold duelStatisticFor Validator.duelStatisticOf
  simp only [duelingPairMask_lift, entryDuelRecords_lift ha.served, entryDuelRecords_lift hb.served,
    qualityPrimary_pair]
  cases Validator.duelingPairMask a b with
  | none => rfl
  | some mask =>
    simp only
    cases Validator.entryDuelRecords a mask with
    | none => rfl
    | some r =>
      cases Validator.entryDuelRecords b mask with
      | none => rfl
      | some t => simp only [hscored a r (.inl rfl), hscored b t (.inr rfl)]

theorem le_crownEvidenceCount_lift (ha : Agrees a) (hb : Agrees b) {gate : CrownGate} (hn : 2 ≤ gate.minSharedSeeds) :
    gate.minSharedSeeds ≤ (crownEvidenceCount (kothEntryFromLedger a) (kothEntryFromLedger b) gate : ℤ) ↔
      gate.minSharedSeeds ≤ (Validator.crownEvidenceCount a b gate : ℤ) := by
  unfold crownEvidenceCount Validator.crownEvidenceCount
  rw [duelGoverns_lift]
  cases hw : gate.duelWindow with
  | none =>
    cases Validator.duelGoverns a b (some gate) <;> exact le_sharedSeedCount_lift ha hb hn
  | some window =>
    cases Validator.duelGoverns a b (some gate) with
    | false => exact le_sharedSeedCount_lift ha hb hn
    | true =>
      cases hstat : Validator.duelStatisticOf a b window with
      | none => simp only [duelStatisticFor_lift ha hb, if_true, hstat]
      | some stat => simp only [duelStatisticFor_lift ha hb, if_true, hstat]

/-! ## Decisions -/

theorem dethroneBandScale_lift (q : K) :
    dethroneBandScale (kothEntryFromLedger a) (kothEntryFromLedger b) q = Validator.dethroneBandScale a b q := by
  simp only [dethroneBandScale, lift_benchVersion]
  rfl

/-- The ceiling of a comparison is the same. -/
theorem comparisonCeiling_lift :
    (if Validator.qualityPrimaryEfficiencyActive [a, b] then 1 else effectiveScoreCeiling (kothEntryFromLedger a)) =
      Validator.comparisonCeiling a b := by
  unfold Validator.comparisonCeiling
  cases hq : Validator.qualityPrimaryEfficiencyActive [a, b] with
  | true => rfl
  | false =>
    rw [if_neg (by simp), if_neg (by simp)]
    exact effectiveScoreCeiling_of_none (factor_none_of_pair hq).1

theorem ceilingCappedBand_lift (band q : K) (active : Bool) :
    ceilingCappedBand band (kothEntryFromLedger a) (kothEntryFromLedger b) q active =
      Validator.ceilingCappedBand band a b q active := by
  simp only [ceilingCappedBand, Validator.ceilingCappedBand, lift_benchVersion, qualityPrimary_pair,
    comparisonCeiling_lift]
  rfl

theorem dethroneComposite_lift {e : LedgerEntry K} (he : Agrees e) (qualityPrimary : Bool) :
    dethroneComposite (kothEntryFromLedger e) qualityPrimary = Validator.dethroneComposite e qualityPrimary := by
  rw [dethroneComposite, Validator.dethroneComposite, he.quality, he.effective]

theorem unpairedStatisticalLead_lift :
    unpairedStatisticalLead (kothEntryFromLedger a) (kothEntryFromLedger b)
        (Validator.qualityPrimaryEfficiencyActive [a, b]) =
      Validator.unpairedStatisticalBand a b Validator.KOTH_DETHRONE_Z := by
  have hz : ¬ (Validator.KOTH_DETHRONE_Z : K) ≤ 0 := by
    rw [Validator.KOTH_DETHRONE_Z]
    norm_num
  unfold unpairedStatisticalLead Validator.unpairedStatisticalBand
  rw [stderr_lift, stderr_lift, if_neg hz]
  cases Validator.entryStderr a with
  | none => rfl
  | some x =>
    cases Validator.entryStderr b with
    | none => rfl
    | some y =>
      cases hq : Validator.qualityPrimaryEfficiencyActive [a, b] with
      | true => simp [KOTH_DETHRONE_Z, Validator.KOTH_DETHRONE_Z, pow_two]
      | false =>
        obtain ⟨hfa, hfb⟩ := factor_none_of_pair hq
        simp [KOTH_DETHRONE_Z, Validator.KOTH_DETHRONE_Z, pow_two, efficiencyStderrScale_of_none hfa,
          efficiencyStderrScale_of_none hfb]

variable (o : KothOptions) (rankShares : List K) (unpaid : Option Uuid)

theorem pairedDethrone_compiled :
    Validator.pairedDethrone a b (foldParams o rankShares unpaid).dethroneZ = Validator.pairedStatistic a b := by
  have hz : ¬ (Validator.KOTH_DETHRONE_Z : K) ≤ 0 := by
    rw [Validator.KOTH_DETHRONE_Z]
    norm_num
  exact if_neg hz

/-- The ungated decision is the validator's comparison: same verdict, same deadlock, and paired iff there is a paired
statistic. -/
theorem ungatedDethroneDecision_lift (ha : Agrees a) (hb : Agrees b) :
    let d := ungatedDethroneDecision (kothEntryFromLedger a) (kothEntryFromLedger b) o.ceilingBandClamp
      o.statisticalBandCap
    d.dethrones = Validator.clearsBand (foldParams o rankShares unpaid) a b ∧
      d.ceilingDeadlocked = Validator.scoreCeilingDeadlocked (foldParams o rankShares unpaid) a b ∧
      decide (d.method = .paired) = (Validator.pairedStatistic a b).isSome := by
  have hp := pairedStatistic_lift ha hb
  unfold ungatedDethroneDecision Validator.clearsBand Validator.scoreCeilingDeadlocked Validator.dethroneScores
  rw [pairedDethrone_compiled]
  cases hs : pairedStatistic (kothEntryFromLedger a) (kothEntryFromLedger b) with
  | some s =>
    rw [hs, Option.map_some] at hp
    simp only [← hp, PairedStatistic.forget, Validator.pairedBand, qualityPrimary_pair, comparisonCeiling_lift,
      dethroneBandScale_lift, ceilingCappedBand_lift, not_lt, gt_iff_lt]
    exact ⟨rfl, rfl, rfl⟩
  | none =>
    rw [hs, Option.map_none] at hp
    simp only [← hp, qualityPrimary_pair, comparisonCeiling_lift, dethroneBandScale_lift, ceilingCappedBand_lift,
      dethroneComposite_lift ha, dethroneComposite_lift hb, unpairedStatisticalLead_lift, not_lt, gt_iff_lt]
    refine ⟨rfl, rfl, ?_⟩
    cases Validator.unpairedStatisticalBand a b Validator.KOTH_DETHRONE_Z <;> rfl

/-- The duel decision dethrones iff the validator's duel does. -/
theorem duelDecision_lift (ha : Agrees a) (hb : Agrees b) (gate : CrownGate) (window : ℤ) (d : DethroneDecision K) :
    (duelDecision (kothEntryFromLedger a) (kothEntryFromLedger b) gate window o.ceilingBandClamp d).dethrones =
      Validator.duelBeats (foldParams o rankShares unpaid) gate window a b := by
  unfold duelDecision Validator.duelBeats
  rw [duelStatisticFor_lift ha hb]
  cases Validator.duelStatisticOf a b window with
  | none => rfl
  | some stat =>
    simp only [dethroneBandScale_lift, ceilingCappedBand_lift, Validator.duelLead]
    have hm : (foldParams o rankShares unpaid).margin = (KOTH_MARGIN : K) := rfl
    have hc : (foldParams o rankShares unpaid).ceilingBandClamp = o.ceilingBandClamp := rfl
    rw [hm, hc]
    cases duelRequiredLead stat (KOTH_MARGIN * Validator.dethroneBandScale a b stat.championReference) with
    | none => simp
    | some lead =>
      by_cases hdeep : (stat.count : ℤ) < gate.minSharedSeeds
      · have : ¬ gate.minSharedSeeds ≤ (stat.count : ℤ) := not_le.2 hdeep
        simp [hdeep, this]
      · have : gate.minSharedSeeds ≤ (stat.count : ℤ) := not_lt.1 hdeep
        simp [hdeep, this]

/-- The decision dethrones iff the validator's comparison does. -/
theorem dethrones_lift (ha : Agrees a) (hb : Agrees b) (hgate : ∀ gate ∈ o.crownGate, 2 ≤ gate.minSharedSeeds) :
    (dethroneDecision (kothEntryFromLedger a) (kothEntryFromLedger b) o.ceilingBandClamp o.statisticalBandCap
      o.crownGate).dethrones = Validator.beats (foldParams o rankShares unpaid) a b := by
  obtain ⟨hdet, -, hpaired⟩ := ungatedDethroneDecision_lift o rankShares unpaid ha hb
  have hg : (foldParams o rankShares unpaid).crownGate = o.crownGate := rfl
  unfold dethroneDecision Validator.beats
  simp only [duelingIncomparable_lift, duelGoverns_lift, hg]
  cases hi : Validator.duelingIncomparable a b with
  | true =>
    cases o.crownGate with
    | none => rfl
    | some gate =>
      simp only [if_true]
      split <;> simp
  | false =>
    simp only [Bool.false_eq_true, if_false]
    cases hgate' : o.crownGate with
    | none => exact hdet
    | some gate =>
      -- without a duel: the paired method on enough seeds, against the validator's refusal
      have hrefuse : Validator.gateRefuses (foldParams o rankShares unpaid) a b =
          !(decide (gate.minSharedSeeds ≤ (sharedSeedCount (kothEntryFromLedger a) (kothEntryFromLedger b) : ℤ)) &&
            (Validator.pairedStatistic a b).isSome) := by
        have hcount := le_sharedSeedCount_lift ha hb (hgate gate hgate')
        rw [Validator.gateRefuses, hg, hgate', pairedDethrone_compiled]
        simp only [hcount]
        cases Validator.pairedStatistic a b with
        | none => simp
        | some s => simp [← decide_not]
      have hplain : ((ungatedDethroneDecision (kothEntryFromLedger a) (kothEntryFromLedger b) o.ceilingBandClamp
            o.statisticalBandCap).dethrones &&
          (decide ((ungatedDethroneDecision (kothEntryFromLedger a) (kothEntryFromLedger b) o.ceilingBandClamp
            o.statisticalBandCap).method = .paired) &&
          decide ((sharedSeedCount (kothEntryFromLedger a) (kothEntryFromLedger b) : ℤ) ≥ gate.minSharedSeeds))) =
          if Validator.gateRefuses (foldParams o rankShares unpaid) a b then false
          else Validator.clearsBand (foldParams o rankShares unpaid) a b := by
        rw [hdet, hpaired, hrefuse]
        cases (Validator.pairedStatistic a b).isSome <;>
          cases decide (gate.minSharedSeeds ≤ (sharedSeedCount (kothEntryFromLedger a) (kothEntryFromLedger b) : ℤ)) <;>
          simp
      simp only
      cases Validator.duelGoverns a b (some gate) with
      | false => exact hplain
      | true =>
        cases gate.duelWindow with
        | none => exact hplain
        | some window => exact duelDecision_lift o rankShares unpaid ha hb gate window _

theorem scoreCeilingDeadlocked_lift (ha : Agrees a) (hb : Agrees b) :
    (dethroneDecision (kothEntryFromLedger a) (kothEntryFromLedger b) o.ceilingBandClamp o.statisticalBandCap
      none).ceilingDeadlocked = Validator.scoreCeilingDeadlocked (foldParams o rankShares unpaid) a b := by
  obtain ⟨-, hdead, -⟩ := ungatedDethroneDecision_lift o rankShares unpaid ha hb
  rw [← hdead]
  unfold dethroneDecision
  simp only
  split <;> rfl

theorem duelingSwap_lift (ha : Agrees a) (hb : Agrees b) :
    duelingSwap (kothEntryFromLedger a) (kothEntryFromLedger b) = Validator.duelingSwap a b := by
  have hp := pairedStatistic_lift ha hb
  unfold duelingSwap Validator.duelingSwap
  rw [duelingPairMask_lift, ← hp]
  cases Validator.duelingPairMask a b with
  | none => rfl
  | some mask => cases pairedStatistic (kothEntryFromLedger a) (kothEntryFromLedger b) <;> rfl

theorem weightTied_lift (ha : Agrees a) (hb : Agrees b) :
    weightTied o.statisticalBandCap (kothEntryFromLedger a) (kothEntryFromLedger b) =
      Validator.weightTied (foldParams o rankShares unpaid) a b := by
  have hp := pairedStatistic_lift ha hb
  unfold weightTied Validator.weightTied
  rw [duelingIncomparable_lift, qualityPrimary_pair, ha.quality, hb.quality, ha.effective, hb.effective,
    pairedDethrone_compiled, ← hp]
  cases hs : pairedStatistic (kothEntryFromLedger a) (kothEntryFromLedger b) with
  | none => rfl
  | some s =>
    have hcap : (foldParams o rankShares unpaid).statisticalBandCap = o.statisticalBandCap := rfl
    simp only [Option.map_some, PairedStatistic.forget, hcap]
    cases o.statisticalBandCap <;> rfl

end Pairs

/-! ## The projection as a hill -/

/-- The parts of the Platform's fold. -/
def hill (o : KothOptions) (qualityPrimary : Bool) :
    Hill (KothEntry K) Uuid String (Timestamp ×ₗ Uuid) (Bool ×ₗ K ×ₗ K ×ₗ Timestamp ×ₗ String) where
  name := (·.agentId)
  owner := (·.minerHotkey)
  seniority := seniorityKey
  rank := fun k => scoreOrderKey (rankableRow k) (some (dethroneComposite k qualityPrimary))
    (some (effectiveComposite k))
  beats := fun a b => (dethroneDecision a b o.ceilingBandClamp o.statisticalBandCap o.crownGate).dethrones
  enough := fun e champ =>
    match o.crownGate with
    | none => false
    | some gate => gate.minSharedSeeds ≤ (crownEvidenceCount e champ gate : ℤ)
  swap := duelingSwap
  adjacent := isDuelingEntry
  tied := weightTied o.statisticalBandCap
  deadlocked := fun a b => (dethroneDecision a b o.ceilingBandClamp o.statisticalBandCap none).ceilingDeadlocked

section Projection

variable (o : KothOptions) {pool : List (KothEntry K)}

/-- Each row is ranked by its own scores, since the maps are keyed by distinct agents. -/
theorem rankedEntries_eq (hid : (pool.map (·.agentId)).Nodup) :
    rankedEntries pool = (hill o (qualityPrimaryEfficiencyActive pool)).ranked pool := by
  have hget : ∀ (f : KothEntry K → K), ∀ k ∈ pool,
      (Dict.ofList (pool.map fun entry => (entry.agentId, f entry))).get? k.agentId = some (f k) := fun f k hk => by
    refine Dict.get?_ofList_of_mem ?_ (List.mem_map.2 ⟨k, hk, rfl⟩)
    simpa [Dict.keys, Function.comp_def] using hid
  unfold rankedEntries Hill.ranked
  cases hq : qualityPrimaryEfficiencyActive pool with
  | false =>
    refine sortOn_congr fun a ha b hb => ?_
    simp only [rankableRow, hget _ a ha, hget _ b hb, hill, dethroneComposite, scoreOrderKey, Dict.get?,
      Option.getD_some, Option.getD_none, Bool.false_eq_true, if_false]
  | true =>
    refine sortOn_congr fun a ha b hb => ?_
    simp only [rankableRow, hget _ a ha, hget _ b hb, hill, dethroneComposite, scoreOrderKey, Option.getD_some, if_true]

theorem opener_eq (qualityPrimary : Bool) (incumbent : Option Uuid) :
    opener pool incumbent = (hill o qualityPrimary).opener incumbent pool := by
  unfold opener Hill.opener Hill.ordered hill
  cases pool.find? fun e => decide (some e.agentId = incumbent) with
  | some c => rfl
  | none => cases sortOn seniorityKey pool <;> rfl

theorem gatedOpener_eq (hid : (pool.map (·.agentId)).Nodup) {gate : CrownGate} (hg : o.crownGate = some gate)
    (outgoing : KothEntry K) : gatedOpener pool gate outgoing =
      ((hill o (qualityPrimaryEfficiencyActive pool)).standingOpener (max 1 gate.standingRank).toNat pool outgoing).map
        fun c => (c, (hill o (qualityPrimaryEfficiencyActive pool)).standingChallengers (max 1 gate.standingRank).toNat
          pool c) := by
  unfold gatedOpener Hill.standingOpener Hill.standingChallengers Hill.standing
  simp only [rankedEntries_eq o hid, ite_not]
  simp only [hill, hg, ge_iff_le]
  rfl

/-- The champion is the champion of the hill. -/
theorem projectChampion_eq (hid : (pool.map (·.agentId)).Nodup) : projectChampion o pool =
    (hill o (qualityPrimaryEfficiencyActive pool)).champion o.incumbentAgentId
      (o.crownGate.map fun gate => (max 1 gate.standingRank).toNat) pool := by
  unfold projectChampion Hill.champion Hill.start
  rw [← opener_eq o]
  cases opener pool o.incumbentAgentId with
  | none => rfl
  | some s =>
    cases hg : o.crownGate with
    | none =>
      simp only [Option.map_none, Option.map_some, hill, hg]
    | some gate =>
      simp only [gatedOpener_eq o hid hg, Option.map_some, Option.map_map]
      simp only [hill, hg]

/-- The tail is the tail of the hill. -/
theorem projectTail_eq (hid : (pool.map (·.agentId)).Nodup) (distinct : Bool) (champ : KothEntry K) :
    projectTail distinct pool champ =
      (hill o (qualityPrimaryEfficiencyActive pool)).tail KOTH_TAIL_SIZE distinct pool champ := by
  have hadj : ∀ (b : Bool) (l : List (KothEntry K)), duelingAdjacentOrder l = (hill o b).adjacentOrder l :=
      fun b l => by
    unfold duelingAdjacentOrder Hill.adjacentOrder
    rw [show (hill o b).adjacent = (isDuelingEntry : KothEntry K → Bool) from rfl]
    cases l.any isDuelingEntry <;> rfl
  unfold projectTail Hill.tail
  rw [rankedEntries_eq o hid]
  simp only [hadj (qualityPrimaryEfficiencyActive pool)]
  cases distinct <;> rfl

theorem separates_of_nodup (hid : (pool.map (·.agentId)).Nodup) (qualityPrimary : Bool) :
    Hill.Separates (hill o qualityPrimary) pool where
  names := hid
  seniority := fun a ha b hb hab => by
    simp only [hill, seniorityKey, EmbeddingLike.apply_eq_iff_eq, Prod.mk.injEq] at hab
    exact List.inj_on_of_nodup_map hid ha hb hab.2
  rank := fun a ha b hb hab => by
    simp only [hill, scoreOrderKey, EmbeddingLike.apply_eq_iff_eq, Prod.mk.injEq, rankableRow] at hab
    have hle := (uuidStr_le_iff a.agentId b.agentId).1 (le_of_eq hab.2.2.2.2)
    have hge := (uuidStr_le_iff b.agentId a.agentId).1 (ge_of_eq hab.2.2.2.2)
    exact List.inj_on_of_nodup_map hid ha hb (le_antisymm hle hge)

theorem emissionSet_eq {projection : KothProjection K}
    (hn : ((projection.champion :: projection.tail).map (·.agentId)).Nodup) :
    emissionSet projection = projection.champion :: projection.tail := by
  rw [List.map_cons, List.nodup_cons] at hn
  rw [emissionSet, distinctOn_eq_self hn.2]
  intro e he hm
  rw [List.mem_singleton] at hm
  exact hn.1 (hm ▸ List.mem_map_of_mem he)

theorem scoreCeilingCohort_eq {entries : List (KothEntry K)} (hid : ((foldPool entries).map (·.agentId)).Nodup)
    (hq : qualityPrimaryEfficiencyActive (foldPool entries) = false) (projection : KothProjection K) :
    scoreCeilingCohort o entries projection = (hill o false).cohort (foldPool entries) projection.champion := by
  have hd : (hill o false).distinctRanked (foldPool entries) = distinctRanked entries := by
    rw [distinctRanked, rankedEntries_eq o hid, hq]
    rfl
  have howner : (hill o false).owner = fun e : KothEntry K => e.minerHotkey := rfl
  have hdead : (hill o false).deadlocked = fun a b : KothEntry K =>
    (dethroneDecision a b o.ceilingBandClamp o.statisticalBandCap none).ceilingDeadlocked := rfl
  unfold scoreCeilingCohort Hill.cohort
  rw [hd, hq, if_neg (by simp)]
  simp only [howner, hdead]
  cases (distinctRanked entries).find? fun e => decide (e.minerHotkey ≠ projection.champion.minerHotkey) with
  | none => rfl
  | some rival =>
    cases distinctRanked entries with
    | nil => rfl
    | cons anchor rest =>
      simp only
      cases (dethroneDecision rival projection.champion o.ceilingBandClamp o.statisticalBandCap
        none).ceilingDeadlocked <;> rfl

/-- The allocation is the payout of the hill. -/
theorem emissionAllocation_eq {entries : List (KothEntry K)} (hid : ((foldPool entries).map (·.agentId)).Nodup)
    (projection : KothProjection K) (hmem : projection.champion ∈ foldPool entries)
    (htail : projection.tail = projectTail o.tiePooling (foldPool entries) projection.champion)
    {served : Option (List K)} (hlen : (served.getD KOTH_RANK_SHARES).length = KOTH_TAIL_SIZE + 1) :
    let payout := (hill o (qualityPrimaryEfficiencyActive (foldPool entries))).payout o.tiePooling
      (o.tiePooling && !qualityPrimaryEfficiencyActive (foldPool entries)) KOTH_TAIL_SIZE (served.getD KOTH_RANK_SHARES)
      (foldPool entries) projection.champion
    (emissionAllocation o entries (some projection) served).members = payout.map Prod.fst ∧
      (emissionAllocation o entries (some projection) served).shares = payout.map Prod.snd := by
  have hs := separates_of_nodup o hid (qualityPrimaryEfficiencyActive (foldPool entries))
  rw [projectTail_eq o hid] at htail
  have hset : emissionSet projection = projection.champion ::
      (hill o (qualityPrimaryEfficiencyActive (foldPool entries))).tail KOTH_TAIL_SIZE o.tiePooling (foldPool entries)
        projection.champion := by
    rw [← htail]
    refine emissionSet_eq ?_
    rw [htail]
    exact Hill.names_tail_nodup hs KOTH_TAIL_SIZE o.tiePooling hmem
  have hcohort : (if o.tiePooling then scoreCeilingCohort o entries projection else []) =
      if o.tiePooling && !qualityPrimaryEfficiencyActive (foldPool entries) then
        (hill o (qualityPrimaryEfficiencyActive (foldPool entries))).cohort (foldPool entries) projection.champion
      else [] := by
    cases o.tiePooling with
    | false => rfl
    | true =>
      cases hq : qualityPrimaryEfficiencyActive (foldPool entries) with
      | true => simp [scoreCeilingCohort, hq]
      | false => simp [scoreCeilingCohort_eq o hid hq]
  have hle := Hill.length_tail_le (hill o (qualityPrimaryEfficiencyActive (foldPool entries))) (foldPool entries)
    KOTH_TAIL_SIZE o.tiePooling projection.champion
  simp only [emissionAllocation, Hill.payout, hcohort]
  generalize (if o.tiePooling && !qualityPrimaryEfficiencyActive (foldPool entries) then
    (hill o (qualityPrimaryEfficiencyActive (foldPool entries))).cohort (foldPool entries) projection.champion
    else []) = cohort
  cases cohort with
  | nil =>
    -- champion and tail on the curve: there is a share for every slot
    simp only [List.isEmpty_nil, if_true, emissionShares, hset]
    set recipients := projection.champion ::
      (hill o (qualityPrimaryEfficiencyActive (foldPool entries))).tail KOTH_TAIL_SIZE o.tiePooling (foldPool entries)
        projection.champion with hrec
    have hshares : ((served.getD KOTH_RANK_SHARES).take recipients.length).length = recipients.length := by
      rw [List.length_take, hlen]
      simp only [hrec, List.length_cons]
      omega
    have htied : (hill o (qualityPrimaryEfficiencyActive (foldPool entries))).tied =
      (weightTied o.statisticalBandCap : KothEntry K → KothEntry K → Bool) := rfl
    have hav : (averageRuns (weightTied o.statisticalBandCap)
        (recipients.zip ((served.getD KOTH_RANK_SHARES).take recipients.length))).length = recipients.length := by
      rw [length_averageRuns, List.length_zip, hshares, min_self]
    cases o.tiePooling with
    | false =>
      simp only [Bool.not_false, Bool.false_eq_true, if_true, if_false]
      rw [List.map_fst_zip (le_of_eq hshares.symm), List.map_snd_zip (le_of_eq hshares)]
      exact ⟨rfl, rfl⟩
    | true =>
      simp only [Bool.not_true, Bool.false_eq_true, if_true, if_false, htied]
      rw [List.map_fst_zip (le_of_eq hav.symm), List.map_snd_zip (le_of_eq hav)]
      exact ⟨rfl, rfl⟩
  | cons c cs =>
    simp only [List.isEmpty_cons, Bool.false_eq_true, if_false]
    rw [List.map_fst_zip (by simp), List.map_snd_zip (by simp)]
    exact ⟨rfl, rfl⟩

end Projection

/-! ## Agreement -/

/-- A row and its lift. -/
def Mirrors (e : LedgerEntry K) (k : KothEntry K) : Prop := Agrees e ∧ k = kothEntryFromLedger e

theorem mirrors_map {l : List (LedgerEntry K)} (h : ∀ e ∈ l, Agrees e) :
    List.Forall₂ Mirrors l (l.map kothEntryFromLedger) := by
  rw [List.forall₂_map_right_iff, List.forall₂_same]
  exact fun e he => ⟨h e he, rfl⟩

/-- Both orders rank alike: the same scores, then the same clock, then the same agent. -/
theorem rank_lift {a b : LedgerEntry K} (ha : Agrees a) (hb : Agrees b) (o : KothOptions) (qualityPrimary : Bool) :
    Validator.rankingKey qualityPrimary a ≤ Validator.rankingKey qualityPrimary b ↔
      (hill o qualityPrimary).rank (kothEntryFromLedger a) ≤ (hill o qualityPrimary).rank (kothEntryFromLedger b) := by
  have hids : ∀ e : LedgerEntry K, (kothEntryFromLedger e).firstSeen = e.firstSeen ∧
    (kothEntryFromLedger e).agentId = e.agentId := fun _ => ⟨rfl, rfl⟩
  simp only [Validator.rankingKey, hill, scoreOrderKey, rankableRow, Option.getD_some, dethroneComposite_lift ha,
    dethroneComposite_lift hb, ha.effective, hb.effective, Prod.Lex.toLex_le_toLex, hids, uuidStr_le_iff, lt_irrefl,
    false_or, true_and]

/-- The two hills answer alike on a row and its lift. -/
theorem hill_agree (o : KothOptions) (rankShares : List K) (unpaid : Option Uuid) (qualityPrimary : Bool)
    (hgate : ∀ gate ∈ o.crownGate, 2 ≤ gate.minSharedSeeds) :
    Hill.Agree (Validator.hill (foldParams o rankShares unpaid) qualityPrimary) (hill o qualityPrimary) Mirrors where
  name := by rintro a _ ⟨-, rfl⟩; rfl
  owner := by rintro a _ ⟨-, rfl⟩; rfl
  seniority := by rintro a b _ _ ⟨-, rfl⟩ ⟨-, rfl⟩; rfl
  rank := by rintro a b _ _ ⟨ha, rfl⟩ ⟨hb, rfl⟩; exact rank_lift ha hb o qualityPrimary
  beats := by rintro a b _ _ ⟨ha, rfl⟩ ⟨hb, rfl⟩; exact (dethrones_lift o rankShares unpaid ha hb hgate).symm
  enough := by
    rintro a b _ _ ⟨ha, rfl⟩ ⟨hb, rfl⟩
    have hg : (foldParams o rankShares unpaid).crownGate = o.crownGate := rfl
    simp only [Validator.hill, hill, hg]
    cases hgate' : o.crownGate with
    | none => rfl
    | some gate =>
      simp only
      rw [Bool.eq_iff_iff, decide_eq_true_iff, decide_eq_true_iff]
      exact (le_crownEvidenceCount_lift ha hb (hgate gate hgate')).symm
  swap := by rintro a b _ _ ⟨ha, rfl⟩ ⟨hb, rfl⟩; exact (duelingSwap_lift ha hb).symm
  adjacent := by rintro a _ ⟨-, rfl⟩; exact (isDuelingEntry_lift a).symm
  tied := by rintro a b _ _ ⟨ha, rfl⟩ ⟨hb, rfl⟩; exact (weightTied_lift o rankShares unpaid ha hb).symm
  deadlocked := by
    rintro a b _ _ ⟨ha, rfl⟩ ⟨hb, rfl⟩
    exact (scoreCeilingDeadlocked_lift o rankShares unpaid ha hb).symm

/-- The two sides fold the same rows. -/
theorem foldPool_lift {entries : List (LedgerEntry K)} (h : ∀ e ∈ entries, Agrees e) :
    foldPool (kothEntriesFromLedger entries) = (Validator.scoredPool entries).map kothEntryFromLedger := by
  rw [foldPool, kothEntriesFromLedger, List.filter_map, Validator.scoredPool, Validator.filterEligible,
    List.filter_filter]
  refine congrArg (List.map kothEntryFromLedger) (List.filter_congr fun e he => ?_)
  have hel : Validator.entryEligible e = true := decide_eq_true (h e he).eligible
  simp only [Function.comp_apply, duelingFoldReady_lift, (h e he).positive, hel, Bool.true_and]

/-- The projection of the lifted ledger has the lifted champion, and the tail and the payout of the validator's fold. -/
theorem projectKoth_lift (o : KothOptions) (served : Option (List K)) (unpaid : Option Uuid)
    {entries : List (LedgerEntry K)} (hid : (entries.map (·.agentId)).Nodup) (hrows : ∀ e ∈ entries, Agrees e)
    (hgate : ∀ gate ∈ o.crownGate, 2 ≤ gate.minSharedSeeds)
    (hlen : (served.getD KOTH_RANK_SHARES).length = KOTH_TAIL_SIZE + 1) :
    (Validator.selectChampion (foldParams o (served.getD KOTH_RANK_SHARES) unpaid) entries = none ∧
        projectKoth o (kothEntriesFromLedger entries) = none) ∨
      ∃ champ projection,
        Validator.selectChampion (foldParams o (served.getD KOTH_RANK_SHARES) unpaid) entries = some champ ∧
        projectKoth o (kothEntriesFromLedger entries) = some projection ∧
        projection.champion = kothEntryFromLedger champ ∧
        List.Forall₂ Mirrors (Validator.tail (Validator.scoredPool entries) champ Validator.KOTH_TAIL_SIZE o.tiePooling)
          projection.tail ∧
        ∃ payout : List (KothEntry K × K),
          (emissionAllocation o (kothEntriesFromLedger entries) (some projection) served).members =
            payout.map Prod.fst ∧
          (emissionAllocation o (kothEntriesFromLedger entries) (some projection) served).shares =
            payout.map Prod.snd ∧
          List.Forall₂ (fun x y => Mirrors x.1 y.1 ∧ x.2 = y.2)
            (Validator.payout (foldParams o (served.getD KOTH_RANK_SHARES) unpaid) (Validator.scoredPool entries) champ)
            payout := by
  set p := foldParams o (served.getD KOTH_RANK_SHARES) unpaid with hp
  set pool := Validator.scoredPool entries with hpool
  have hfold : foldPool (kothEntriesFromLedger entries) = pool.map kothEntryFromLedger := foldPool_lift hrows
  have hpid : (pool.map (·.agentId)).Nodup := ((List.filter_sublist.trans List.filter_sublist).map _).nodup hid
  have hkid : ((pool.map kothEntryFromLedger).map (·.agentId)).Nodup := by
    rw [List.map_map]
    exact hpid
  have hpa : ∀ e ∈ pool, Agrees e := fun e he => hrows e (List.mem_of_mem_filter (List.mem_of_mem_filter he))
  have hqp := qualityPrimary_lift pool
  have hrel := Hill.rel_champion (hill_agree o (served.getD KOTH_RANK_SHARES) unpaid
    (Validator.qualityPrimaryEfficiencyActive pool) hgate) o.incumbentAgentId (Validator.standingCount p)
    (mirrors_map hpa)
  have hv : Validator.selectChampion p entries = _ := Validator.champion_eq p pool
  have hk : projectChampion o (pool.map kothEntryFromLedger) = _ := projectChampion_eq o hkid
  rw [hqp] at hk
  have hsc : Validator.standingCount p = o.crownGate.map fun gate => (max 1 gate.standingRank).toNat := rfl
  rw [← hsc] at hk
  have hinc : p.incumbentAgentId = o.incumbentAgentId := rfl
  rw [hinc] at hv
  rw [← hv, ← hk] at hrel
  generalize hx : Validator.selectChampion p entries = x at hrel
  generalize hy : projectChampion o (pool.map kothEntryFromLedger) = y at hrel
  cases hrel with
  | none => exact .inl ⟨rfl, by simp only [projectKoth, hfold, hy]⟩
  | @some champ k hm =>
    obtain ⟨hca, rfl⟩ := hm
    have hcm : champ ∈ pool := Validator.champion_mem hpid hx
    have hkm : kothEntryFromLedger champ ∈ pool.map kothEntryFromLedger := List.mem_map_of_mem hcm
    cases hr : (rankedEntries (pool.map kothEntryFromLedger)).head? with
    | none =>
      rw [List.head?_eq_none_iff, rankedEntries_eq o hkid] at hr
      exact absurd hr (sortOn_ne_nil (List.ne_nil_of_mem hkm))
    | some rawLeader =>
      have htail : ∀ c, projectTail o.tiePooling (pool.map kothEntryFromLedger) c =
          (hill o (Validator.qualityPrimaryEfficiencyActive pool)).tail KOTH_TAIL_SIZE o.tiePooling
            (pool.map kothEntryFromLedger) c := fun c => by rw [projectTail_eq o hkid, hqp]
      refine .inr ⟨champ, ⟨kothEntryFromLedger champ,
        projectTail o.tiePooling (pool.map kothEntryFromLedger) (kothEntryFromLedger champ), rawLeader, _⟩, rfl,
        by simp only [projectKoth, hfold, hy, hr]; rfl, rfl, ?_, ?_⟩
      · rw [htail, Validator.tail_eq (p := p) hpid]
        exact Hill.rel_tail (hill_agree o _ unpaid _ hgate) _ _ (mirrors_map hpa) ⟨hca, rfl⟩
      · obtain ⟨hmembers, hshares⟩ := emissionAllocation_eq o (by rw [hfold]; exact hkid) ⟨kothEntryFromLedger champ,
          projectTail o.tiePooling (pool.map kothEntryFromLedger) (kothEntryFromLedger champ), rawLeader, _⟩
          (by rw [hfold]; exact hkm) (by rw [hfold]) hlen
        refine ⟨_, hmembers, hshares, ?_⟩
        rw [Validator.payout_eq (p := p) hpid, hfold, hqp]
        exact Hill.rel_payout (hill_agree o _ unpaid _ hgate) _ _ _ _ (mirrors_map hpa) ⟨hca, rfl⟩

theorem agentIds_of_mirrors {l : List (LedgerEntry K)} {m : List (KothEntry K)} (h : List.Forall₂ Mirrors l m) :
    m.map (·.agentId) = l.map (·.agentId) := by
  induction h with
  | nil => rfl
  | cons hab _ ih =>
    obtain ⟨-, rfl⟩ := hab
    rw [List.map_cons, List.map_cons, ih]
    rfl

/-- Related payouts have the same recipients and the same destinations. -/
theorem destinations_of_mirrors {p : Validator.MemoryFoldParams K} {xs : List (LedgerEntry K × K)}
    {ys : List (KothEntry K × K)} (h : List.Forall₂ (fun x y => Mirrors x.1 y.1 ∧ x.2 = y.2) xs ys) :
    (ys.map Prod.fst).map (·.agentId) = xs.map (fun r => r.1.agentId) ∧
      ys.map (fun r => (if some r.1.agentId = p.unpaidAgentId then Validator.UNPAID_SHARE_KEY else r.1.minerHotkey,
        r.2)) = xs.map fun r => (Validator.shareKey p r.1, r.2) := by
  induction h with
  | nil => exact ⟨rfl, rfl⟩
  | @cons x y _ _ hab _ ih =>
    obtain ⟨⟨-, hy⟩, hxy⟩ := hab
    have hid : y.1.agentId = x.1.agentId := by rw [hy]; rfl
    have hkey : y.1.minerHotkey = x.1.minerHotkey := by rw [hy]; rfl
    simp only [List.map_cons, ih.1, ih.2, hid, hkey, hxy, Validator.shareKey, and_self]

theorem length_of_checkRankShares {p : Validator.MemoryFoldParams K} (h : Validator.checkRankShares p = .ok ()) :
    (p.rankShares.length : ℤ) = p.tailSize + 1 := by
  unfold Validator.checkRankShares at h
  split at h
  · cases h
  · rename_i hl
    simpa using hl

/-- On rows that the two sides score alike, the projection of the lifted ledger crowns the agent of the validator's
fold, lists the same tail in the same order, and pays the same agents the same shares, so that the weights are those of
the allocation. -/
theorem koth_projection_agrees (o : KothOptions) (served : Option (List K)) (unpaid : Option Uuid)
    (entries : List (LedgerEntry K)) (hid : (entries.map (·.agentId)).Nodup) (hrows : ∀ e ∈ entries, Agrees e)
    (hgate : ∀ gate ∈ o.crownGate, 2 ≤ gate.minSharedSeeds)
    (hcurve : Validator.checkRankShares (foldParams o (served.getD KOTH_RANK_SHARES) unpaid) = .ok ()) :
    let p := foldParams o (served.getD KOTH_RANK_SHARES) unpaid
    let projection := projectKoth o (kothEntriesFromLedger entries)
    let allocation := emissionAllocation o (kothEntriesFromLedger entries) projection served
    projection.map (·.champion.agentId) = (Validator.selectChampion p entries).map (·.agentId) ∧
      projection.map (fun q => q.tail.map (·.agentId)) =
        (Validator.selectChampion p entries).map (fun champ =>
          (Validator.tail (Validator.scoredPool entries) champ p.tailSize p.tiePooling).map (·.agentId)) ∧
      allocation.members.map (·.agentId) = ((Validator.selectChampion p entries).map fun champ =>
          (Validator.payout p (Validator.scoredPool entries) champ).map fun r => r.1.agentId).getD [] ∧
      Validator.computeWeights p entries = .ok (Dict.ofList ((allocation.members.zip allocation.shares).map fun r =>
        (if some r.1.agentId = unpaid then Validator.UNPAID_SHARE_KEY else r.1.minerHotkey, r.2))) := by
  intro p projection allocation
  have hlen : (served.getD KOTH_RANK_SHARES).length = KOTH_TAIL_SIZE + 1 := by
    have h : ((served.getD KOTH_RANK_SHARES).length : ℤ) = Validator.KOTH_TAIL_SIZE + 1 :=
      length_of_checkRankShares hcurve
    rw [Validator.KOTH_TAIL_SIZE] at h
    rw [KOTH_TAIL_SIZE]
    omega
  have hweights : Validator.computeWeights p entries = (Validator.selectChampion p entries).elim (.ok []) fun champ =>
      .ok (Dict.ofList ((Validator.payout p (Validator.scoredPool entries) champ).map fun r =>
        (Validator.shareKey p r.1, r.2))) := by
    unfold Validator.computeWeights Validator.selectChampion
    rewrite [hcurve]
    cases Validator.champion p (Validator.scoredPool entries) <;> rfl
  rcases projectKoth_lift o served unpaid hid hrows hgate hlen with
    ⟨hv, hk⟩ | ⟨champ, pr, hv, hk, hchamp, htail, payout, hmembers, hshares, hpay⟩
  · have hal : allocation = ⟨.ranked, [], []⟩ := by
      simp only [allocation, projection, hk, emissionAllocation]
    rw [hweights, show Validator.selectChampion p entries = none from hv, show projection = none from hk, hal]
    exact ⟨rfl, rfl, rfl, rfl⟩
  · have hal : allocation.members = payout.map Prod.fst ∧ allocation.shares = payout.map Prod.snd := by
      simp only [allocation, projection, hk, hmembers, hshares, and_self]
    obtain ⟨hids, hdest⟩ := destinations_of_mirrors (p := p) hpay
    have hzip : (payout.map Prod.fst).zip (payout.map Prod.snd) = payout := by
      rw [← List.unzip_fst, ← List.unzip_snd, List.zip_unzip]
    rw [hweights, show Validator.selectChampion p entries = some champ from hv, show projection = some pr from hk,
      hal.1, hal.2, hzip]
    refine ⟨?_, ?_, hids, ?_⟩
    · simp only [Option.map_some, hchamp]
      rfl
    · simp only [Option.map_some]
      exact congrArg some (agentIds_of_mirrors htail)
    · exact congrArg (fun d => Except.ok (Dict.ofList d)) hdest.symm

theorem mirrorVersion_pos : ∀ v ∈ some 12, 1 ≤ v := by simp

/-- Two bench-12 rows that share two seeds. -/
def mirrorPool : List (LedgerEntry ℚ) :=
  [{ Validator.historyRow "a" 1 1 [Validator.tenths 1 5, Validator.tenths 2 5] with
      benchVersion := some 12, benchVersion_pos := mirrorVersion_pos },
   { Validator.historyRow "b" 2 2 [Validator.tenths 1 6, Validator.tenths 2 6] with
      benchVersion := some 12, benchVersion_pos := mirrorVersion_pos }]

def mirrorOptions : KothOptions where
  tiePooling := true
  ceilingBandClamp := true
  statisticalBandCap := true
  incumbentAgentId := some 1
  crownGate := some { minSharedSeeds := 2, standingRank := 5, duelWindow := some 15 }

theorem agrees_mirrorPool : ∀ e ∈ mirrorPool, Agrees e := by
  have hserved : ∀ e ∈ mirrorPool, e.v9Confirmation = none := by
    simp [mirrorPool, Validator.historyRow]
  have hscores : ∀ e ∈ mirrorPool, Validator.MIN_ELIGIBLE_CASES ≤ e.n ∧
      continualComposite (kothEntryFromLedger e) = Validator.qualityComposite e ∧
      effectiveComposite (kothEntryFromLedger e) = Validator.effectiveComposite e ∧
      (0 < (kothEntryFromLedger e).composite ↔ 0 < Validator.effectiveComposite e) := by
    decide +kernel
  intro e he
  obtain ⟨hn, hq, heff, hpos⟩ := hscores e he
  have hr : ¬ e.v9Confirmation.isSome = true := by simp [hserved e he]
  exact ⟨hn, ⟨fun h => absurd h hr, fun h => absurd h hr, fun h => absurd h hr, fun h => absurd h hr⟩, hq, heff, hpos⟩

theorem koth_projection_agrees_two_rows :
    (projectKoth mirrorOptions (kothEntriesFromLedger mirrorPool)).map (·.champion.agentId) = some 2 ∧
      (Validator.selectChampion (foldParams mirrorOptions KOTH_RANK_SHARES none) mirrorPool).map (·.agentId) =
        some 2 := by
  have h := koth_projection_agrees mirrorOptions (none : Option (List ℚ)) none mirrorPool (by decide)
    agrees_mirrorPool (by simp [mirrorOptions]) (by decide +kernel)
  have hv : (Validator.selectChampion (foldParams mirrorOptions KOTH_RANK_SHARES none) mirrorPool).map (·.agentId) =
      some 2 := by decide +kernel
  exact ⟨h.1.trans hv, hv⟩

/-! ## Rounding -/

section Rounding

variable {N : Type} [Add N] [Sub N] [Mul N] [Div N] [Neg N] [Min N] [Max N] [LE N] [LT N] [DecidableLE N]
  [DecidableLT N] [NatCast N] [Zero N] [One N]

/-- The champion of plain rows as the validator computes it, with `se * se`. -/
def validatorPlainChampion (lib : Validator.MathLibrary N) (p : Validator.MemoryFoldParams N)
    (rows : List (Validator.ScoreRow N)) : Option Uuid :=
  (Validator.ScoreRow.selectChampion lib (fun x => x * x) p rows).map (·.agentId)

/-- The champion of plain rows as the projection computes it, with `se ** 2`. -/
def projectedPlainChampion (lib : Validator.MathLibrary N) (p : Validator.MemoryFoldParams N)
    (rows : List (Validator.ScoreRow N)) : Option Uuid :=
  (Validator.ScoreRow.selectChampion lib lib.square p rows).map (·.agentId)

end Rounding

section Plain

variable {e : LedgerEntry K}

/-- Without confirmations the two sides score a row alike. -/
theorem agrees_plain (h : Validator.Plain e) : Agrees e := by
  have hreceipt : ¬ e.v9Confirmation.isSome = true := by simp [h.receipt]
  have hhistory : confirmationHistory e = none := by simp [confirmationHistory, h.confirmationHistory]
  have hwaves : (kothEntryFromLedger e).completedWaveComposites = some [] := by
    simp [kothEntryFromLedger, h.receipt, liftWaves, hhistory, h.confirmationComposites]
  have hnone : confirmations (kothEntryFromLedger e) = none := by
    simp [confirmations, kothEntryFromLedger, hhistory, h.confirmationComposites, pairedConfirmations]
  have hcomposite : (kothEntryFromLedger e).composite = e.composite := by
    simp [kothEntryFromLedger, h.receipt]
  have hquality : continualComposite (kothEntryFromLedger e) = e.composite := by
    have hempty : validatedComposites (some ([] : List K)) 1 = none := rfl
    rw [continualComposite, hnone, hwaves, hempty, hcomposite]
    cases validatedComposites (kothEntryFromLedger e).quorumComposites 3 <;> rfl
  have heffective : effectiveComposite (kothEntryFromLedger e) = Validator.effectiveComposite e := by
    rw [effectiveComposite, Validator.effectiveComposite, hquality, h.qualityComposite,
      efficiencyAdjustedComposite_of_none h.efficiencyFactor]
  refine ⟨h.eligible, ⟨?_, ?_, ?_, ?_⟩, ?_, heffective, ?_⟩
  · exact fun hsome => absurd hsome hreceipt
  · exact fun hsome => absurd hsome hreceipt
  · exact fun hsome => absurd hsome hreceipt
  · exact fun hsome => absurd hsome hreceipt
  · rw [hquality, h.qualityComposite]
  · rw [hcomposite, h.effectiveComposite, Validator.ScoreRow.effectiveComposite, mul_one]
    rfl

/-- Over exact numbers both are the champions of the two folds. -/
theorem plainChampion_exact (o : KothOptions) {entries : List (LedgerEntry K)} (hgate : o.crownGate = none)
    (hincumbent : o.incumbentAgentId = none) (hid : (entries.map (·.agentId)).Nodup)
    (hplain : ∀ e ∈ entries, Validator.Plain e) :
    validatorPlainChampion Validator.exactLibrary (foldParams o KOTH_RANK_SHARES none)
          (entries.map Validator.plainRow) =
        (Validator.selectChampion (foldParams o KOTH_RANK_SHARES none) entries).map (·.agentId) ∧
      projectedPlainChampion Validator.exactLibrary (foldParams o KOTH_RANK_SHARES none)
          (entries.map Validator.plainRow) =
        (projectKoth o (kothEntriesFromLedger entries)).map (·.champion.agentId) := by
  have hvalidator : validatorPlainChampion Validator.exactLibrary (foldParams o KOTH_RANK_SHARES none)
      (entries.map Validator.plainRow) =
        (Validator.selectChampion (foldParams o KOTH_RANK_SHARES none) entries).map (·.agentId) := by
    rw [validatorPlainChampion, ← Validator.selectChampion_plain hgate hincumbent hplain, Option.map_map]
    rfl
  have hsquare : (Validator.exactLibrary (K := K)).square = fun x => x * x := by
    funext x
    exact sq x
  have hprojected : projectedPlainChampion Validator.exactLibrary (foldParams o KOTH_RANK_SHARES none)
      (entries.map Validator.plainRow) =
        validatorPlainChampion Validator.exactLibrary (foldParams o KOTH_RANK_SHARES none)
          (entries.map Validator.plainRow) := by
    rw [projectedPlainChampion, hsquare, validatorPlainChampion]
  refine ⟨hvalidator, hprojected.trans (hvalidator.trans ?_)⟩
  have hlift := projectKoth_lift o (none : Option (List K)) none hid (fun e he => agrees_plain (hplain e he))
    (by simp [hgate]) rfl
  rcases hlift with ⟨hv, hk⟩ | ⟨champ, projection, hv, hk, hchampion, -⟩
  · rw [hk]
    exact congrArg _ hv
  · rw [hk, Option.map_some, hchampion]
    exact congrArg _ hv

end Plain

def stderrRow (hotkey : String) (id : Uuid) (composite stderr : Float.Model) : Validator.ScoreRow Float.Model where
  minerHotkey := hotkey
  agentId := id
  composite := composite
  compositeStderr := some stderr
  firstSeen := id
  benchVersion := 12

def roundedPool : List (Validator.ScoreRow Float.Model) :=
  [stderrRow "a" 1 (Validator.decimal 68 3) (Validator.decimal 42 3),
   stderrRow "b" 2 (Validator.decimal 16278135926436169 17) (Validator.decimal 397 4)]

/-- The validator asks for 0.16278135926436169, which the challenger has and does not exceed; the projection asks for
0.16278135926436166. -/
theorem rounded_folds_differ :
    validatorPlainChampion Validator.sampleLibrary (Validator.roundedParams false) roundedPool = some 1 ∧
      projectedPlainChampion Validator.sampleLibrary (Validator.roundedParams false) roundedPool = some 2 := by
  decide +kernel

end DittoSubnet.Platform

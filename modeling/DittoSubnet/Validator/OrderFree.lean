import DittoSubnet.Validator.Crown

/-!
# The order of the served rows

The fold does not depend on the order in which the ledger lists its rows, nor on the order of the records inside a
row's confirmation history or duel history.

* `Reordered e e'`: the same row up to the order of its two histories. The collapsed maps of such rows are equal
  (`Reordered.history`, `Reordered.seedComposites`) and so is every pairwise statistic.
* `hill_agree`: the parts of the fold answer alike on reordered rows.
* `weights_order_free`: two ledgers with the same rows, in any order and with any order of their records, have the same
  weights and the same champion.
-/

namespace DittoSubnet.Validator

open Kit

variable {K : Type} [ExactArith K]

/-- The row with other histories. -/
def withHistories (e : LedgerEntry K) (confirmations duels : Option (List (ConfirmationScoreRecord K))) :
    LedgerEntry K := { e with confirmationHistory := confirmations, duelHistory := duels }

/-- The same row, up to the order of its confirmation and duel records. -/
inductive Reordered (e : LedgerEntry K) : LedgerEntry K → Prop
  | mk (confirmations duels : Option (List (ConfirmationScoreRecord K)))
      (hc : Option.Rel List.Perm e.confirmationHistory confirmations)
      (hd : Option.Rel List.Perm e.duelHistory duels) : Reordered e (withHistories e confirmations duels)

namespace Reordered

/-! ## One row -/

variable {a a' b b' e e' : LedgerEntry K}

theorem refl (e : LedgerEntry K) : Reordered e e := by
  have hrefl : ∀ o : Option (List (ConfirmationScoreRecord K)), Option.Rel List.Perm o o := fun o => by
    cases o with
    | none => exact .none
    | some l => exact .some (.refl l)
  exact .mk e.confirmationHistory e.duelHistory (hrefl _) (hrefl _)

theorem agentId (h : Reordered e e') : e'.agentId = e.agentId := by cases h; rfl

theorem minerHotkey (h : Reordered e e') : e'.minerHotkey = e.minerHotkey := by cases h; rfl

theorem version (h : Reordered e e') : entryVersion e' = entryVersion e := by cases h; rfl

theorem dueling (h : Reordered e e') : e'.dueling = e.dueling := by cases h; rfl

theorem isDueling (h : Reordered e e') : isDuelingEntry e' = isDuelingEntry e := by cases h; rfl

theorem season (h : Reordered e e') : entrySeason e' = entrySeason e := by cases h; rfl

theorem eligible (h : Reordered e e') :
    (entryEligible e' && duelingFoldReady e') = (entryEligible e && duelingFoldReady e) := by cases h; rfl

theorem factor (h : Reordered e e') : boundedEfficiencyFactor e' = boundedEfficiencyFactor e := by cases h; rfl

theorem adjusted (h : Reordered e e') (q : K) :
    efficiencyAdjustedComposite e' q = efficiencyAdjustedComposite e q := by cases h; rfl

theorem ceiling (h : Reordered e e') : effectiveScoreCeiling e' = effectiveScoreCeiling e := by cases h; rfl

theorem stderrScale (h : Reordered e e') : efficiencyStderrScale e' = efficiencyStderrScale e := by cases h; rfl

theorem stderr (h : Reordered e e') : entryStderr e' = entryStderr e := by cases h; rfl

theorem seniority (h : Reordered e e') : seniorityKey e' = seniorityKey e := by cases h; rfl

/-- The collapsed history is sorted by distinct seeds, so it does not see the order of the records. -/
theorem history (h : Reordered e e') : entryConfirmationHistory e' = entryConfirmationHistory e := by
  obtain ⟨c, d, hc, hd⟩ := h
  unfold entryConfirmationHistory withHistories
  cases hr : e.confirmationHistory with
  | none => rw [hr] at hc; cases hc; rfl
  | some records =>
    rw [hr] at hc
    cases hc with
    | some hp =>
      simp only [filter_confirmations]
      have hkv := hp.map fun r : ConfirmationScoreRecord K => (r.seed, r.composite)
      rw [isEmpty_groupOn_perm hkv, sortOn_groupOn_perm hkv (f := median) fun _ _ h => median_perm h]

theorem continual (h : Reordered e e') : continualComposite e' = continualComposite e := by
  have hh := h.history
  obtain ⟨c, d, hc, hd⟩ := h
  unfold continualComposite
  rw [hh]
  rfl

theorem quality (h : Reordered e e') : qualityComposite e' = qualityComposite e := by
  have hq := h.continual
  obtain ⟨c, d, hc, hd⟩ := h
  unfold qualityComposite
  rw [hq]
  rfl

theorem effective (h : Reordered e e') : effectiveComposite e' = effectiveComposite e := by
  rw [effectiveComposite, effectiveComposite, h.quality, h.adjusted]

theorem dethrone (h : Reordered e e') (qualityPrimary : Bool) :
    dethroneComposite e' qualityPrimary = dethroneComposite e qualityPrimary := by
  rw [dethroneComposite, dethroneComposite, h.quality, h.effective]

theorem ranking (h : Reordered e e') (qualityPrimary : Bool) :
    rankingKey qualityPrimary e' = rankingKey qualityPrimary e := by
  have hf : e'.firstSeen = e.firstSeen := by cases h; rfl
  rw [rankingKey, rankingKey, h.dethrone, h.effective, hf, h.agentId]

theorem maskedRecord (h : Reordered e e') (r : ConfirmationScoreRecord K) (mask : Finset String) :
    recordMaskedComposite e' r mask = recordMaskedComposite e r mask := by cases h; rfl

/-- The masked medians do not see the order of the records. -/
theorem duelingSeeds (h : Reordered e e') (mask : Finset String) :
    duelingSeedComposites e' mask = duelingSeedComposites e mask := by
  have hh := h.history
  have hm := h.maskedRecord
  obtain ⟨c, d, hc, hd⟩ := h
  unfold duelingSeedComposites
  rw [hh]
  cases hw : entryConfirmationHistory e with
  | none => rfl
  | some window =>
    have hcc : (withHistories e c d).confirmationHistory = c := rfl
    rw [hcc]
    cases hr : e.confirmationHistory with
    | none => rw [hr] at hc; cases hc; rfl
    | some records =>
      rw [hr] at hc
      cases hc with
      | some hp =>
        simp only [hm]
        have hkv := hp.filterMap fun r =>
          if r.seed ∈ window.keys then (recordMaskedComposite e r mask).map fun value => (r.seed, value) else none
        have hsort : ∀ kvs : List (ℤ × K), (sortOn Prod.fst (groupOn kvs)).map (fun g => (g.1, median g.2)) =
            sortOn Prod.fst ((groupOn kvs).map fun g => (g.1, median g.2)) := fun kvs =>
          sortOn_map Prod.fst Prod.fst (fun g => (g.1, median g.2)) (fun _ => rfl) (groupOn kvs)
        rw [isEmpty_groupOn_perm hkv, hsort, hsort, sortOn_groupOn_perm hkv (f := median) fun _ _ h => median_perm h]

theorem seedComposites (h : Reordered e e') (mask : Option (Finset String)) :
    entrySeedComposites e' mask = entrySeedComposites e mask := by
  have hh := h.history
  have hd := h.duelingSeeds
  obtain ⟨c, d, hc, hd'⟩ := h
  cases mask with
  | some mask =>
    unfold entrySeedComposites
    simp only [hd]
    rfl
  | none =>
    unfold entrySeedComposites
    simp only [hh]
    rfl

/-- The duel records of reordered rows are the same dictionary. -/
theorem duelRecords (h : Reordered e e') (mask : Finset String) :
    Option.Rel List.Perm (entryDuelRecords e mask) (entryDuelRecords e' mask) := by
  obtain ⟨c, d, hc, hd⟩ := h
  have hval : ∀ report, duelRecordValue (withHistories e c d) report mask = duelRecordValue e report mask :=
    fun _ => rfl
  unfold entryDuelRecords
  cases hr : e.duelHistory with
  | none => rw [hr] at hd; cases hd; exact .none
  | some records =>
    rw [hr] at hd
    cases hd with
    | some hp =>
      have hdue : ∀ o, (withHistories e c o).dueling = e.dueling := fun _ => rfl
      have hhist : ∀ o, (withHistories e c o).duelHistory = o := fun _ => rfl
      rw [hhist, hdue]
      cases e.dueling with
      | none => exact .none
      | some report =>
        simp only [hval]
        have hcp := collapseRecords_perm (hp.filterMap (duelRecordValue e report mask))
        rw [hcp.isEmpty_eq]
        split
        · exact .none
        · exact .some hcp

/-! ## Two rows -/

theorem qualityPrimary (ha : Reordered a a') (hb : Reordered b b') :
    qualityPrimaryEfficiencyActive [a', b'] = qualityPrimaryEfficiencyActive [a, b] := by
  simp only [qualityPrimaryEfficiencyActive, List.any_cons, ha.factor, hb.factor, List.any_nil]

theorem incomparable (ha : Reordered a a') (hb : Reordered b b') :
    duelingIncomparable a' b' = duelingIncomparable a b := by
  simp only [duelingIncomparable, ha.isDueling, hb.isDueling, ha.season, hb.season, ha.version, hb.version]

theorem pairMask (ha : Reordered a a') (hb : Reordered b b') : duelingPairMask a' b' = duelingPairMask a b := by
  simp only [duelingPairMask, ha.isDueling, hb.isDueling, ha.incomparable hb, ha.dueling, hb.dueling]

theorem seedMaps (ha : Reordered a a') (hb : Reordered b b') : pairedSeedMaps a' b' = pairedSeedMaps a b := by
  simp only [pairedSeedMaps, ha.isDueling, hb.isDueling, ha.pairMask hb, ha.seedComposites, hb.seedComposites]

theorem paired (ha : Reordered a a') (hb : Reordered b b') : pairedStatistic a' b' = pairedStatistic a b := by
  simp only [pairedStatistic, ha.seedMaps hb, sharedScores, seedScore, ha.qualityPrimary hb, ha.adjusted, hb.adjusted]

theorem pairedDethrone (ha : Reordered a a') (hb : Reordered b b') (z : K) :
    Validator.pairedDethrone a' b' z = Validator.pairedDethrone a b z := by
  simp only [Validator.pairedDethrone, ha.paired hb]

theorem sharedSeeds (ha : Reordered a a') (hb : Reordered b b') : sharedSeedCount a' b' = sharedSeedCount a b := by
  simp only [sharedSeedCount, ha.seedMaps hb]

/-- The scored duel records stay the same dictionary. -/
theorem scoredDuelRecords (ha : Reordered a a') (qp : Bool) {r r' : Dict (String × ℤ) (ℕ × K)} (h : r.Perm r') :
    (Validator.scoredDuelRecords qp a r).Perm (Validator.scoredDuelRecords qp a' r') := by
  unfold Validator.scoredDuelRecords
  split
  · exact h
  · simp only [ha.adjusted]
    exact h.map _

theorem keys_scoredDuelRecords {mask : Finset String} {r : Dict (String × ℤ) (ℕ × K)} (qp : Bool)
    (h : entryDuelRecords a mask = some r) : (Dict.keys (Validator.scoredDuelRecords qp a r)).Nodup := by
  have hn : (Dict.keys r).Nodup := by
    unfold entryDuelRecords at h
    split at h
    · simp only at h
      split at h
      · cases h
      · cases h
        exact collapseRecords_nodup _
    · cases h
  unfold Validator.scoredDuelRecords
  split
  · exact hn
  · rwa [Dict.keys_map r fun _ v => (v.1, efficiencyAdjustedComposite a v.2)]

/-- The windowed duel statistic does not see the order of the records. -/
theorem duelStatistic (ha : Reordered a a') (hb : Reordered b b') (window : ℤ) :
    duelStatisticOf a' b' window = duelStatisticOf a b window := by
  unfold duelStatisticOf
  rw [ha.pairMask hb]
  cases duelingPairMask a b with
  | none => rfl
  | some mask =>
    have hra := ha.duelRecords mask
    have hrb := hb.duelRecords mask
    simp only [ha.qualityPrimary hb]
    generalize hga : entryDuelRecords a mask = x at hra
    generalize entryDuelRecords a' mask = x' at hra
    generalize hgb : entryDuelRecords b mask = y at hrb
    generalize entryDuelRecords b' mask = y' at hrb
    cases hra with
    | none => rfl
    | some hpr =>
      cases hrb with
      | none => rfl
      | some hpt =>
        have hna := keys_scoredDuelRecords (qualityPrimaryEfficiencyActive [a, b]) hga
        have hnb := keys_scoredDuelRecords (qualityPrimaryEfficiencyActive [a, b]) hgb
        simp only
        rw [duelPairs_perm hna hnb (ha.scoredDuelRecords _ hpr) (hb.scoredDuelRecords _ hpt)]

theorem bandScale (ha : Reordered a a') (hb : Reordered b b') (q : K) :
    dethroneBandScale a' b' q = dethroneBandScale a b q := by
  simp only [dethroneBandScale, ha.version, hb.version]

theorem comparisonCeiling (ha : Reordered a a') (hb : Reordered b b') :
    Validator.comparisonCeiling a' b' = Validator.comparisonCeiling a b := by
  simp only [Validator.comparisonCeiling, ha.qualityPrimary hb, ha.ceiling]

theorem cappedBand (ha : Reordered a a') (hb : Reordered b b') (band q : K) (active : Bool) :
    ceilingCappedBand band a' b' q active = ceilingCappedBand band a b q active := by
  simp only [ceilingCappedBand, ha.version, hb.version, ha.comparisonCeiling hb]

theorem unpairedBand (ha : Reordered a a') (hb : Reordered b b') (z : K) :
    unpairedStatisticalBand a' b' z = unpairedStatisticalBand a b z := by
  simp only [unpairedStatisticalBand, ha.stderr, hb.stderr, ha.qualityPrimary hb, ha.stderrScale, hb.stderrScale]

variable {p : MemoryFoldParams K}

theorem scores (ha : Reordered a a') (hb : Reordered b b') : dethroneScores p a' b' = dethroneScores p a b := by
  simp only [dethroneScores, ha.pairedDethrone hb, pairedBand, ha.bandScale hb, ha.cappedBand hb, ha.qualityPrimary hb,
    ha.dethrone, hb.dethrone, ha.unpairedBand hb]

theorem duelBeats (ha : Reordered a a') (hb : Reordered b b') (gate : CrownGate) (window : ℤ) :
    Validator.duelBeats p gate window a' b' = Validator.duelBeats p gate window a b := by
  simp only [Validator.duelBeats, ha.duelStatistic hb, duelLead, ha.bandScale hb, ha.cappedBand hb]

theorem governs (ha : Reordered a a') (hb : Reordered b b') (gate : Option CrownGate) :
    duelGoverns a' b' gate = duelGoverns a b gate := by
  simp only [duelGoverns, ha.isDueling, hb.isDueling]

theorem clears (ha : Reordered a a') (hb : Reordered b b') : clearsBand p a' b' = clearsBand p a b := by
  simp only [clearsBand, ha.scores hb]

theorem refuses (ha : Reordered a a') (hb : Reordered b b') : gateRefuses p a' b' = gateRefuses p a b := by
  simp only [gateRefuses, ha.sharedSeeds hb, ha.pairedDethrone hb]

theorem beats (ha : Reordered a a') (hb : Reordered b b') : Validator.beats p a' b' = Validator.beats p a b := by
  simp only [Validator.beats, ha.incomparable hb, ha.clears hb, ha.refuses hb, ha.governs hb, ha.duelBeats hb]

theorem evidenceCount (ha : Reordered a a') (hb : Reordered b b') (gate : CrownGate) :
    crownEvidenceCount a' b' gate = crownEvidenceCount a b gate := by
  simp only [crownEvidenceCount, ha.governs hb, ha.duelStatistic hb, ha.sharedSeeds hb]

theorem tied (ha : Reordered a a') (hb : Reordered b b') : weightTied p a' b' = weightTied p a b := by
  simp only [weightTied, ha.incomparable hb, ha.qualityPrimary hb, ha.quality, hb.quality, ha.effective, hb.effective,
    ha.pairedDethrone hb]

theorem swap (ha : Reordered a a') (hb : Reordered b b') : duelingSwap a' b' = duelingSwap a b := by
  simp only [duelingSwap, ha.pairMask hb, ha.paired hb]

theorem deadlocked (ha : Reordered a a') (hb : Reordered b b') :
    scoreCeilingDeadlocked p a' b' = scoreCeilingDeadlocked p a b := by
  simp only [scoreCeilingDeadlocked, ha.scores hb, ha.comparisonCeiling hb]

end Reordered

/-! ## The fold -/

variable {p : MemoryFoldParams K}

/-- The parts of the fold answer alike on reordered rows. -/
theorem hill_agree (p : MemoryFoldParams K) (qualityPrimary : Bool) :
    Hill.Agree (hill p qualityPrimary) (hill p qualityPrimary) Reordered where
  name := fun _ _ h => h.agentId.symm
  owner := fun _ _ h => h.minerHotkey.symm
  seniority := fun _ _ _ _ ha hb => by simp only [hill, ha.seniority, hb.seniority]
  rank := fun _ _ _ _ ha hb => by simp only [hill, ha.ranking, hb.ranking]
  beats := fun _ _ _ _ ha hb => (ha.beats hb).symm
  enough := fun _ _ _ _ ha hb => by simp only [hill, ha.evidenceCount hb]
  swap := fun _ _ _ _ ha hb => (ha.swap hb).symm
  adjacent := fun _ _ h => h.isDueling.symm
  tied := fun _ _ _ _ ha hb => (ha.tied hb).symm
  deadlocked := fun _ _ _ _ ha hb => (ha.deadlocked hb).symm

/-- The same rows up to their order and the order of their records. -/
def SameLedger (l l' : List (LedgerEntry K)) : Prop := ∃ m, l.Perm m ∧ List.Forall₂ Reordered m l'

theorem SameLedger.scoredPool {l l' : List (LedgerEntry K)} (h : SameLedger l l') :
    SameLedger (scoredPool l) (scoredPool l') := by
  obtain ⟨m, hp, hr⟩ := h
  refine ⟨Validator.scoredPool m, (hp.filter _).filter _, ?_⟩
  refine rel_filter (fun a b hab => by rw [hab.effective]) (rel_filter (fun a b hab => ?_) hr)
  exact hab.eligible.symm

theorem active_of_reordered {m l' : List (LedgerEntry K)} (h : List.Forall₂ Reordered m l') :
    qualityPrimaryEfficiencyActive m = qualityPrimaryEfficiencyActive l' := by
  induction h with
  | nil => rfl
  | cons hab _ ih =>
    simp only [qualityPrimaryEfficiencyActive, List.any_cons, hab.factor] at ih ⊢
    rw [ih]

theorem SameLedger.active {l l' : List (LedgerEntry K)} (h : SameLedger l l') :
    qualityPrimaryEfficiencyActive l = qualityPrimaryEfficiencyActive l' := by
  obtain ⟨m, hp, hr⟩ := h
  rw [← active_of_reordered hr]
  exact hp.any_eq

theorem agentIds_of_reordered {m l' : List (LedgerEntry K)} (h : List.Forall₂ Reordered m l') :
    m.map (·.agentId) = l'.map (·.agentId) := by
  induction h with
  | nil => rfl
  | cons hab _ ih => rw [List.map_cons, List.map_cons, hab.agentId, ih]

theorem SameLedger.nodup {l l' : List (LedgerEntry K)} (h : SameLedger l l') (hid : (l.map (·.agentId)).Nodup) :
    (l'.map (·.agentId)).Nodup := by
  obtain ⟨m, hp, hr⟩ := h
  rw [← agentIds_of_reordered hr]
  exact (hp.map _).nodup_iff.1 hid

theorem nodup_scoredPool {l : List (LedgerEntry K)} (hid : (l.map (·.agentId)).Nodup) :
    ((scoredPool l).map (·.agentId)).Nodup :=
  ((List.filter_sublist.trans List.filter_sublist).map _).nodup hid

/-- The champion of the same ledger is the same row, up to the order of its records. -/
theorem SameLedger.champion {l l' : List (LedgerEntry K)} (h : SameLedger l l') (hid : (l.map (·.agentId)).Nodup) :
    Option.Rel Reordered (champion p l) (champion p l') := by
  have hact := h.active
  obtain ⟨m, hp, hr⟩ := h
  rw [champion_eq, champion_eq, ← hact,
    Hill.champion_perm (separates_of_nodup p (qualityPrimaryEfficiencyActive l) hid) hp]
  exact Hill.rel_champion (hill_agree p _) p.incumbentAgentId (standingCount p) hr

/-- The payout of the same ledger goes to the same rows with the same shares. -/
theorem SameLedger.payout {l l' : List (LedgerEntry K)} (h : SameLedger l l') (hid : (l.map (·.agentId)).Nodup)
    {c c' : LedgerEntry K} (hc : Reordered c c') :
    List.Forall₂ (fun x y => Reordered x.1 y.1 ∧ x.2 = y.2) (payout p l c) (payout p l' c') := by
  have hact := h.active
  have hid' := h.nodup hid
  obtain ⟨m, hp, hr⟩ := h
  rw [payout_eq hid, payout_eq hid', ← hact,
    Hill.payout_perm (separates_of_nodup p (qualityPrimaryEfficiencyActive l) hid) hp]
  exact Hill.rel_payout (hill_agree p _) _ _ _ _ hr hc

theorem destinations_of_reordered {xs ys : List (LedgerEntry K × K)}
    (h : List.Forall₂ (fun x y => Reordered x.1 y.1 ∧ x.2 = y.2) xs ys) :
    xs.map (fun r => (shareKey p r.1, r.2)) = ys.map fun r => (shareKey p r.1, r.2) := by
  induction h with
  | nil => rfl
  | @cons x y _ _ hab _ ih =>
    have hk : shareKey p y.1 = shareKey p x.1 := by rw [shareKey, hab.1.agentId, hab.1.minerHotkey, shareKey]
    rw [List.map_cons, List.map_cons, ih, hab.2, hk]

/-- Two ledgers with the same rows, in any order and with any order of their confirmation and duel records, give the
same weights and the same champion. -/
theorem weights_order_free (p : MemoryFoldParams K) (l l' : List (LedgerEntry K)) (h : SameLedger l l')
    (hid : (l.map (·.agentId)).Nodup) :
    computeWeights p l = computeWeights p l' ∧
      (selectChampion p l).map (·.agentId) = (selectChampion p l').map (·.agentId) := by
  have hs := h.scoredPool
  have hid' := nodup_scoredPool hid
  have hc := hs.champion (p := p) hid'
  unfold computeWeights selectChampion
  generalize Validator.champion p (scoredPool l) = x at hc
  generalize Validator.champion p (scoredPool l') = y at hc
  cases hc with
  | none => exact ⟨rfl, rfl⟩
  | some hc =>
    refine ⟨?_, congrArg some hc.agentId.symm⟩
    have hpay := hs.payout (p := p) hid' hc
    simp only [destinations_of_reordered hpay]

theorem reordered_historyRow (hotkey : String) (id : Uuid) (firstSeen : Timestamp)
    {history history' : List (ConfirmationScoreRecord ℚ)} (h : history.Perm history') :
    Reordered (historyRow hotkey id firstSeen history) (historyRow hotkey id firstSeen history') :=
  .mk (some history') none (.some h) .none

/-- The cycle, listed from the last row and each history from its last record. -/
def cyclePoolReversed : List (LedgerEntry ℚ) :=
  [historyRow "c" 3 3 [tenths 6 5, tenths 5 5, tenths 4 6, tenths 3 6],
   historyRow "b" 2 2 [tenths 4 5, tenths 3 5, tenths 2 6, tenths 1 6],
   historyRow "a" 1 1 [tenths 6 6, tenths 5 6, tenths 2 5, tenths 1 5]]

theorem sameLedger_cycle : SameLedger cyclePool cyclePoolReversed := by
  refine ⟨cyclePool.reverse, (List.reverse_perm _).symm, ?_⟩
  refine .cons ?_ (.cons ?_ (.cons ?_ .nil))
  all_goals exact reordered_historyRow _ _ _ (List.reverse_perm _).symm

theorem weights_order_free_cycle : SameLedger cyclePool cyclePoolReversed ∧
    computeWeights (cycleParams (some cycleGate)) cyclePool =
      computeWeights (cycleParams (some cycleGate)) cyclePoolReversed ∧
    (selectChampion (cycleParams (some cycleGate)) cyclePool).map (·.agentId) =
      (selectChampion (cycleParams (some cycleGate)) cyclePoolReversed).map (·.agentId) :=
  ⟨sameLedger_cycle,
    weights_order_free (cycleParams (some cycleGate)) cyclePool cyclePoolReversed sameLedger_cycle (by decide)⟩

end DittoSubnet.Validator

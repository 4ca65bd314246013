import DittoSubnet.Validator.PlainRows

/-!
# Reachability under the ceiling clamp

With `ceiling_band_clamp` on, the band a challenger has to clear never takes more than half of what it can still win.

* `ceilingCappedBand_lt`: the capped band is below the headroom while there is any, and zero when there is none.
* `dethroneScores_perfect`: a challenger of perfect quality is observed at its ceiling.
* `crown_reachable`: the required score is below the ceiling exactly while the champion's score is.
* `crown_rounded_off`: rounded to binary64 the required score can meet the ceiling.
-/

namespace DittoSubnet.Validator

open Kit

variable {K : Type} [ExactArith K]

/-! ## The champion's score in a comparison -/

/-- The champion's comparison score: its mean over the shared seeds, or its composite. -/
def championScore (p : MemoryFoldParams K) (challenger champion : LedgerEntry K) : K :=
  match pairedDethrone challenger champion p.dethroneZ with
  | some paired => paired.champRef
  | none => dethroneComposite champion (qualityPrimaryEfficiencyActive [challenger, champion])

/-- The challenger's quality is 1, on every shared seed where the comparison is paired. -/
def PerfectQuality (p : MemoryFoldParams K) (challenger champion : LedgerEntry K) : Prop :=
  match pairedDethrone challenger champion p.dethroneZ with
  | some _ => ∀ maps, pairedSeedMaps challenger champion = some maps → ∀ s ∈ commonSeeds maps, maps.1.get? s = some 1
  | none => qualityComposite challenger = 1

/-- The rows are of a version with the clamp and may be compared. -/
structure Clamped (p : MemoryFoldParams K) (challenger champion : LedgerEntry K) : Prop where
  active : p.ceilingBandClamp = true
  challengerVersion : KOTH_BAND_DECAY_MIN_BENCH_VERSION ≤ entryVersion challenger
  championVersion : KOTH_BAND_DECAY_MIN_BENCH_VERSION ≤ entryVersion champion
  comparable : duelingIncomparable challenger champion = false

section Ceiling

variable {p : MemoryFoldParams K} {challenger champion : LedgerEntry K}

/-- The clamp of two rows it applies to. -/
theorem ceilingCappedBand_eq (h : Clamped p challenger champion) (band score : K) :
    ceilingCappedBand band challenger champion score p.ceilingBandClamp =
      if comparisonCeiling challenger champion - score ≤ 0 then 0
      else min band (KOTH_CEILING_HEADROOM_SHARE * (comparisonCeiling challenger champion - score)) := by
  have hversion : ¬ min (entryVersion challenger) (entryVersion champion) < KOTH_BAND_DECAY_MIN_BENCH_VERSION :=
    not_lt.2 (le_min h.challengerVersion h.championVersion)
  simp [ceilingCappedBand, h.active, hversion]

/-- Some of the headroom is left over the band. -/
theorem ceilingCappedBand_lt (h : Clamped p challenger champion) (band : K) {score : K}
    (hscore : score < comparisonCeiling challenger champion) :
    score + ceilingCappedBand band challenger champion score p.ceilingBandClamp <
      comparisonCeiling challenger champion := by
  have hroom : 0 < comparisonCeiling challenger champion - score := sub_pos.2 hscore
  rw [ceilingCappedBand_eq h, if_neg (not_le.2 hroom)]
  have hhalf := min_le_right band (KOTH_CEILING_HEADROOM_SHARE * (comparisonCeiling challenger champion - score))
  have hshare : (KOTH_CEILING_HEADROOM_SHARE : K) = 1 / 2 := rfl
  rw [hshare] at hhalf ⊢
  linarith

/-- Without headroom there is no band. -/
theorem ceilingCappedBand_zero (h : Clamped p challenger champion) (band : K) {score : K}
    (hscore : comparisonCeiling challenger champion ≤ score) :
    ceilingCappedBand band challenger champion score p.ceilingBandClamp = 0 := by
  rw [ceilingCappedBand_eq h, if_pos (sub_nonpos.2 hscore)]

/-- In both branches the required score is the champion's with a capped band on top. -/
theorem dethroneScores_required (p : MemoryFoldParams K) (challenger champion : LedgerEntry K) :
    ∃ band, (dethroneScores p challenger champion).2 = championScore p challenger champion +
      ceilingCappedBand band challenger champion (championScore p challenger champion) p.ceilingBandClamp := by
  unfold dethroneScores championScore pairedBand
  cases pairedDethrone challenger champion p.dethroneZ with
  | some paired => exact ⟨_, rfl⟩
  | none => exact ⟨_, rfl⟩

/-! ## Perfect quality -/

/-- The transform takes perfect quality to the ceiling. -/
theorem seedScore_perfect (challenger champion : LedgerEntry K) :
    seedScore (qualityPrimaryEfficiencyActive [challenger, champion]) challenger 1 =
      comparisonCeiling challenger champion := by
  unfold seedScore comparisonCeiling
  by_cases hprimary : qualityPrimaryEfficiencyActive [challenger, champion] = true
  · rw [if_pos hprimary, if_pos hprimary]
  · rw [if_neg hprimary, if_neg hprimary]
    -- Outside quality-primary pairs neither row has a factor: what is left is the bonus.
    have hfactor : boundedEfficiencyFactor challenger = none := by
      simp only [qualityPrimaryEfficiencyActive, List.any_cons, List.any_nil, Bool.or_false, Bool.or_eq_true,
        not_or] at hprimary
      simpa using hprimary.1
    simp [efficiencyAdjustedComposite, effectiveScoreCeiling, hfactor]

/-- The score of a row in an unpaired comparison is its quality, put through the same transform. -/
theorem dethroneComposite_eq_seedScore (e : LedgerEntry K) (qualityPrimary : Bool) :
    dethroneComposite e qualityPrimary = seedScore qualityPrimary e (qualityComposite e) := by
  unfold dethroneComposite seedScore effectiveComposite
  rfl

/-- On every shared seed both rows have a value. -/
theorem sharedScores_fst_perfect {maps : Dict ℤ K × Dict ℤ K}
    (hperfect : ∀ s ∈ commonSeeds maps, maps.1.get? s = some 1) :
    (∀ x ∈ (sharedScores challenger champion maps).map Prod.fst, x = comparisonCeiling challenger champion) ∧
      (sharedScores challenger champion maps).length = (commonSeeds maps).length := by
  have hboth : ∀ s ∈ commonSeeds maps, ∃ y, maps.2.get? s = some y := by
    intro s hs
    have hmem := (List.mem_filter.1 (mem_sortOn.1 hs)).2
    exact Dict.mem_keys_iff.1 (by simpa using hmem)
  constructor
  · intro x hx
    obtain ⟨xy, hxy, rfl⟩ := List.mem_map.1 hx
    obtain ⟨s, hs, hsome⟩ := List.mem_filterMap.1 hxy
    obtain ⟨y, hy⟩ := hboth s hs
    rw [hperfect s hs, hy] at hsome
    rw [← Option.some.inj hsome]
    exact seedScore_perfect challenger champion
  · unfold sharedScores
    rw [List.length_filterMap_eq_countP, List.countP_eq_length]
    intro s hs
    obtain ⟨y, hy⟩ := hboth s hs
    simp [hperfect s hs, hy]

/-- A challenger of perfect quality is observed at its ceiling. -/
theorem dethroneScores_perfect (hperfect : PerfectQuality p challenger champion) :
    (dethroneScores p challenger champion).1 = comparisonCeiling challenger champion := by
  unfold PerfectQuality at hperfect
  unfold dethroneScores
  cases hpaired : pairedDethrone challenger champion p.dethroneZ with
  | none =>
    rw [hpaired] at hperfect
    simp only at hperfect ⊢
    rw [dethroneComposite_eq_seedScore, hperfect, seedScore_perfect]
  | some paired =>
    rw [hpaired] at hperfect
    simp only at hperfect ⊢
    unfold pairedDethrone at hpaired
    split at hpaired
    · cases hpaired
    · unfold pairedStatistic at hpaired
      cases hmaps : pairedSeedMaps challenger champion with
      | none =>
        rw [hmaps] at hpaired
        cases hpaired
      | some maps =>
        rw [hmaps] at hpaired
        simp only at hpaired
        split at hpaired
        · cases hpaired
        · rename_i hseeds
          obtain ⟨hall, hlength⟩ := sharedScores_fst_perfect (hperfect maps hmaps)
          have hne : (sharedScores challenger champion maps).map Prod.fst ≠ [] := by
            intro hnil
            have := congrArg List.length hnil
            rw [List.length_map, hlength, List.length_nil] at this
            omega
          rw [← Option.some.inj hpaired]
          show mean ((sharedScores challenger champion maps).map Prod.snd) +
            mean ((sharedScores challenger champion maps).map fun s => s.1 - s.2) = _
          rw [mean_add_mean_sub]
          exact (mean_eq_iff_of_le hne fun x hx => (hall x hx).le).2 hall

end Ceiling

/-! ## Reachability -/

/-- While the champion's score is below the ceiling the required score is too, so that there is no deadlock and perfect
quality takes the crown; a deadlock is a champion at the ceiling that the challenger is not observed above. -/
theorem crown_reachable {p : MemoryFoldParams K} {challenger champion : LedgerEntry K}
    (h : Clamped p challenger champion) :
    (championScore p challenger champion < comparisonCeiling challenger champion →
      (dethroneScores p challenger champion).2 < comparisonCeiling challenger champion ∧
      scoreCeilingDeadlocked p challenger champion = false ∧
      (p.crownGate = none → PerfectQuality p challenger champion → beats p challenger champion = true)) ∧
    (scoreCeilingDeadlocked p challenger champion = true ↔
      comparisonCeiling challenger champion ≤ championScore p challenger champion ∧
        (dethroneScores p challenger champion).1 ≤ championScore p challenger champion) := by
  obtain ⟨band, hband⟩ := dethroneScores_required p challenger champion
  have hdeadlocked : scoreCeilingDeadlocked p challenger champion = true ↔
      (dethroneScores p challenger champion).1 ≤ (dethroneScores p challenger champion).2 ∧
        comparisonCeiling challenger champion ≤ (dethroneScores p challenger champion).2 := by
    simp [scoreCeilingDeadlocked]
  have hbelow : championScore p challenger champion < comparisonCeiling challenger champion →
      (dethroneScores p challenger champion).2 < comparisonCeiling challenger champion := by
    intro hscore
    rw [hband]
    exact ceilingCappedBand_lt h band hscore
  constructor
  · intro hscore
    have hrequired := hbelow hscore
    refine ⟨hrequired, ?_, ?_⟩
    · rw [← Bool.not_eq_true, hdeadlocked]
      exact fun hdead => absurd hdead.2 (not_le.2 hrequired)
    · intro hgate hperfect
      have hobserved := dethroneScores_perfect hperfect
      unfold beats clearsBand
      rw [h.comparable, hgate]
      simp [hobserved, hrequired]
  · rw [hdeadlocked]
    rcases lt_or_ge (championScore p challenger champion) (comparisonCeiling challenger champion) with hscore | hscore
    · have hrequired := hbelow hscore
      constructor
      · exact fun hdead => absurd hdead.2 (not_le.2 hrequired)
      · exact fun hdead => absurd hdead.1 (not_le.2 hscore)
    · have hrequired : (dethroneScores p challenger champion).2 = championScore p challenger champion := by
        rw [hband, ceilingCappedBand_zero h band hscore, add_zero]
      rw [hrequired]
      exact and_comm

/-- A version-6 row without confirmation evidence. -/
def ceilingRow (id : Uuid) (composite : Fin 11) : LedgerEntry ℚ where
  minerHotkey := toString id
  agentId := id
  composite := (composite : ℕ) / 10
  n := 100
  firstSeen := id
  benchVersion := some 6
  scoreProofs := []
  compositeStderr := none
  confirmationComposites := none
  confirmationSeeds := none
  confirmationHistory := none
  duelHistory := none
  continualAggregateMethod := none
  efficiencyBonus := none
  efficiencyFactor := none
  efficiencyCurveVersion := none
  v9Confirmation := none
  duelingSeasonId := none
  dueling := none
  composite_mem := tenth_mem composite
  benchVersion_pos := by simp
  compositeStderr_nonneg := compositeStderr_absent ℚ
  efficiencyBonus_mem := efficiencyBonus_absent ℚ
  efficiencyFactor_pos := efficiencyFactor_absent ℚ
  efficiencyCurveVersion_ge := efficiencyCurveVersion_absent

/-- A margin that no challenger would clear without the clamp. -/
def ceilingParams : MemoryFoldParams ℚ where
  margin := 1
  tailSize := KOTH_TAIL_SIZE
  rankShares := KOTH_RANK_SHARES
  dethroneZ := KOTH_DETHRONE_Z
  tiePooling := true
  ceilingBandClamp := true
  statisticalBandCap := false
  incumbentAgentId := none
  unpaidAgentId := none
  crownGate := none

theorem crown_reachable_sample :
    beats ceilingParams (ceilingRow 2 10) (ceilingRow 1 9) = true ∧
      scoreCeilingDeadlocked ceilingParams (ceilingRow 2 10) (ceilingRow 1 10) = true := by
  constructor
  · have h : Clamped ceilingParams (ceilingRow 2 10) (ceilingRow 1 9) := ⟨rfl, by decide, by decide, by decide⟩
    have hunpaired : (pairedDethrone (ceilingRow 2 10) (ceilingRow 1 9) ceilingParams.dethroneZ).isNone = true := by
      decide +kernel
    have hperfect : PerfectQuality ceilingParams (ceilingRow 2 10) (ceilingRow 1 9) := by
      unfold PerfectQuality
      rw [Option.isNone_iff_eq_none.1 hunpaired]
      show qualityComposite (ceilingRow 2 10) = 1
      decide +kernel
    exact ((crown_reachable h).1 (by decide +kernel)).2.2 rfl hperfect
  · have h : Clamped ceilingParams (ceilingRow 2 10) (ceilingRow 1 10) := ⟨rfl, by decide, by decide, by decide⟩
    exact (crown_reachable h).2.2 (by decide +kernel)

/-! ## Rounding -/

def scoreRow (id : Uuid) (composite : Float.Model) : ScoreRow Float.Model where
  minerHotkey := "miner"
  agentId := id
  composite := composite
  compositeStderr := none
  firstSeen := id
  benchVersion := 12

def nearlyPerfectRow : ScoreRow Float.Model := scoreRow 1 (decimal 9999999999999999 16)

def perfectRow : ScoreRow Float.Model := scoreRow 2 1

/-- Half of the last headroom is rounded up to all of it: the champion is below the ceiling, the required score is not,
and a perfect score does not take the crown. -/
theorem crown_rounded_off :
    nearlyPerfectRow.effectiveComposite < 1 ∧ perfectRow.effectiveComposite = 1 ∧
      (ScoreRow.dethroneScores sampleLibrary (fun x => x * x) (roundedParams true) perfectRow nearlyPerfectRow).2 = 1 ∧
      ScoreRow.scoreCeilingDeadlocked sampleLibrary (fun x => x * x) (roundedParams true) perfectRow nearlyPerfectRow =
        true ∧
      ScoreRow.beats sampleLibrary (fun x => x * x) (roundedParams true) perfectRow nearlyPerfectRow = false := by
  decide +kernel

end DittoSubnet.Validator

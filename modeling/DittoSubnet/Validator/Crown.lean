import DittoSubnet.Kit.Hill
import DittoSubnet.Validator.Fold

/-!
# The crown

The validator's fold is a king-of-the-hill fold: `hill p qualityPrimary` names its parts and `champion_eq`, `tail_eq`,
`payout_eq` say that the functions of `weights.py` are the fold's. What follows for the crown:

* `gated_champion_safe`: under a crown gate the champion is one of the standing rows, and from a standing opener it is
  reached by wins of standing rows on deep enough paired or duel evidence (`EvidenceWin`), because a gated win is one
  (`beats_gated`).
* `champion_again_iff_unbeaten`: whether the champion keeps the crown when it opens the next walk over the same pool.
  One pass over a relation that is not transitive does not settle that; `crown_cycle` is a pool where it does not.
-/

namespace DittoSubnet.Validator

open Kit

variable {K : Type} [ExactArith K] {p : MemoryFoldParams K} {entries : List (LedgerEntry K)}

/-! ## The fold as a hill -/

/-- The parts of the validator's fold. -/
def hill (p : MemoryFoldParams K) (qualityPrimary : Bool) :
    Hill (LedgerEntry K) Uuid String (Timestamp ×ₗ Uuid) (K ×ₗ K ×ₗ Timestamp ×ₗ Uuid) where
  name := (·.agentId)
  owner := (·.minerHotkey)
  seniority := seniorityKey
  rank := rankingKey qualityPrimary
  beats := beats p
  enough := fun e champ =>
    match p.crownGate with
    | none => false
    | some gate => gate.minSharedSeeds ≤ (crownEvidenceCount e champ gate : ℤ)
  swap := duelingSwap
  adjacent := isDuelingEntry
  tied := weightTied p
  deadlocked := scoreCeilingDeadlocked p

/-- The number of standing rows. -/
def standingCount (p : MemoryFoldParams K) : Option ℕ := p.crownGate.map fun gate => (max 1 gate.standingRank).toNat

theorem separates_of_nodup (p : MemoryFoldParams K) (qualityPrimary : Bool)
    (hid : (entries.map (·.agentId)).Nodup) : Hill.Separates (hill p qualityPrimary) entries where
  names := hid
  seniority := fun a ha b hb hab => by
    simp only [hill, seniorityKey, EmbeddingLike.apply_eq_iff_eq, Prod.mk.injEq] at hab
    exact List.inj_on_of_nodup_map hid ha hb hab.2
  rank := fun a ha b hb hab => by
    simp only [hill, rankingKey, EmbeddingLike.apply_eq_iff_eq, Prod.mk.injEq] at hab
    exact List.inj_on_of_nodup_map hid ha hb hab.2.2.2

/-- The opener after the standing rule, with its challengers. -/
def walkStart (p : MemoryFoldParams K) (entries : List (LedgerEntry K)) :
    Option (LedgerEntry K × List (LedgerEntry K)) :=
  match opener entries p.incumbentAgentId with
  | none => none
  | some (champ, challengers) =>
    match p.crownGate with
    | none => some (champ, challengers)
    | some gate => (standingOpener entries gate champ).map fun champ => (champ, standingChallengers entries gate champ)

theorem opener_eq (p : MemoryFoldParams K) (entries : List (LedgerEntry K)) (qualityPrimary : Bool)
    (incumbent : Option Uuid) : opener entries incumbent = (hill p qualityPrimary).opener incumbent entries := by
  unfold opener Hill.opener Hill.ordered hill
  cases entries.find? fun e => decide (some e.agentId = incumbent) with
  | some c => rfl
  | none => cases sortOn seniorityKey entries <;> rfl

theorem standingOpener_eq {gate : CrownGate} (hg : p.crownGate = some gate) (champ : LedgerEntry K) :
    standingOpener entries gate champ =
      (hill p (qualityPrimaryEfficiencyActive entries)).standingOpener (max 1 gate.standingRank).toNat entries
        champ := by
  simp only [standingOpener, Hill.standingOpener, hill, hg]
  rfl

theorem walkStart_eq (p : MemoryFoldParams K) (entries : List (LedgerEntry K)) : walkStart p entries =
    (hill p (qualityPrimaryEfficiencyActive entries)).start p.incumbentAgentId (standingCount p) entries := by
  unfold walkStart Hill.start standingCount
  rw [← opener_eq p entries (qualityPrimaryEfficiencyActive entries)]
  cases opener entries p.incumbentAgentId with
  | none => rfl
  | some s =>
    cases hg : p.crownGate with
    | none => rfl
    | some gate => simp only [Option.map_some, standingOpener_eq hg]; rfl

theorem champion_eq_walk (p : MemoryFoldParams K) (entries : List (LedgerEntry K)) :
    champion p entries = (walkStart p entries).map fun s => walk (beats p) s.1 s.2 := by
  unfold champion walkStart
  cases opener entries p.incumbentAgentId with
  | none => rfl
  | some s =>
    cases p.crownGate with
    | none => rfl
    | some gate =>
      simp only [Option.map_map]
      rfl

/-- The champion is the champion of the hill. -/
theorem champion_eq (p : MemoryFoldParams K) (entries : List (LedgerEntry K)) : champion p entries =
    (hill p (qualityPrimaryEfficiencyActive entries)).champion p.incumbentAgentId (standingCount p) entries := by
  rw [champion_eq_walk, walkStart_eq]
  rfl

/-- The champion of a pool is one of its rows. -/
theorem champion_mem {pool : List (LedgerEntry K)}
    (hid : (pool.map (·.agentId)).Nodup) {champ : LedgerEntry K} (hc : champion p pool = some champ) :
    champ ∈ pool := by
  rw [champion_eq] at hc
  exact Hill.champion_mem (separates_of_nodup p (qualityPrimaryEfficiencyActive pool) hid) hc

/-- The tail is the tail of the hill: sorting after the filter or before it is the same. -/
theorem tail_eq (hid : (entries.map (·.agentId)).Nodup) (champ : LedgerEntry K) (tailSize : ℤ) (distinct : Bool) :
    tail entries champ tailSize distinct =
      (hill p (qualityPrimaryEfficiencyActive entries)).tail tailSize.toNat distinct entries champ := by
  have hrest : (sortOn (rankingKey (qualityPrimaryEfficiencyActive entries)) entries).filter
        (fun e => decide (e.minerHotkey ≠ champ.minerHotkey)) =
      sortOn (rankingKey (qualityPrimaryEfficiencyActive entries))
        (entries.filter fun e => decide (e.minerHotkey ≠ champ.minerHotkey)) :=
    filter_sortOn (separates_of_nodup p (qualityPrimaryEfficiencyActive entries) hid).rank _
  unfold tail Hill.tail
  by_cases hsize : tailSize ≤ 0
  · have h0 : tailSize.toNat = 0 := by omega
    rw [if_pos hsize]
    simp only [h0, List.take_zero]
    rfl
  · rw [if_neg hsize]
    simp only [← hrest]
    cases distinct <;> rfl

theorem scoreCeilingCohort_eq (hq : qualityPrimaryEfficiencyActive entries = false) (champ : LedgerEntry K) :
    scoreCeilingCohort p entries champ = (hill p false).cohort entries champ := by
  have hd : (hill p false).distinctRanked entries = distinctRanked entries := by
    rw [distinctRanked, rankedEntries, hq]
    rfl
  unfold scoreCeilingCohort Hill.cohort
  have howner : (hill p false).owner = fun e : LedgerEntry K => e.minerHotkey := rfl
  rw [hd, hq, if_neg (by simp)]
  simp only [howner]
  cases (distinctRanked entries).find? fun e => decide (e.minerHotkey ≠ champ.minerHotkey) with
  | none => rfl
  | some rival => cases distinctRanked entries <;> rfl

/-- The payout is the payout of the hill. -/
theorem payout_eq (hid : (entries.map (·.agentId)).Nodup) (champ : LedgerEntry K) : payout p entries champ =
    (hill p (qualityPrimaryEfficiencyActive entries)).payout p.tiePooling
      (p.tiePooling && !qualityPrimaryEfficiencyActive entries) p.tailSize.toNat p.rankShares entries champ := by
  have hc : (if p.tiePooling then scoreCeilingCohort p entries champ else []) =
      if p.tiePooling && !qualityPrimaryEfficiencyActive entries then
        (hill p (qualityPrimaryEfficiencyActive entries)).cohort entries champ else [] := by
    cases p.tiePooling with
    | false => rfl
    | true =>
      cases hq : qualityPrimaryEfficiencyActive entries with
      | true => simp [scoreCeilingCohort, hq]
      | false => simp [scoreCeilingCohort_eq hq]
  unfold payout Hill.payout
  rw [hc, tail_eq (p := p) hid champ p.tailSize p.tiePooling]
  rfl

/-! ## What a gated win rests on -/

/-- A win on at least `min_shared_seeds` shared seeds or duel pairs, with a lead strictly above the required band. -/
inductive EvidenceWin (p : MemoryFoldParams K) (gate : CrownGate) (challenger champion : LedgerEntry K) : Prop
  | paired (maps : Dict ℤ K × Dict ℤ K) (stat : PairedStatistic K)
      (hmaps : pairedSeedMaps challenger champion = some maps) (hstat : pairedStatistic challenger champion = some stat)
      (hdeep : gate.minSharedSeeds ≤ ((commonSeeds maps).length : ℤ))
      (hlead : pairedBand p challenger champion stat < stat.meanDiff)
  | duel (window : ℤ) (stat : DuelStatistic K) (lead : K) (hwindow : gate.duelWindow = some window)
      (hversions : isDuelingEntry challenger = true ∧ isDuelingEntry champion = true)
      (hstat : duelStatisticOf challenger champion window = some stat)
      (hdeep : gate.minSharedSeeds ≤ (stat.count : ℤ)) (hrequired : duelLead p challenger champion stat = some lead)
      (hlead : lead < stat.meanDifference)

theorem duelBeats_evidence {gate : CrownGate} {window : ℤ} {a b : LedgerEntry K} (hw : gate.duelWindow = some window)
    (hv : isDuelingEntry a = true ∧ isDuelingEntry b = true) (h : duelBeats p gate window a b = true) :
    EvidenceWin p gate a b := by
  unfold duelBeats at h
  split at h
  · cases h
  · rename_i stat hstat
    split at h
    · cases h
    · rename_i hdeep
      split at h
      · cases h
      · rename_i lead hlead
        have hlt : stat.championReference + lead < stat.championReference + stat.meanDifference := by simpa using h
        exact .duel window stat lead hw hv hstat (by omega) hlead (by linarith)

theorem sharedSeedCount_eq {a b : LedgerEntry K} {maps : Dict ℤ K × Dict ℤ K} (hm : pairedSeedMaps a b = some maps) :
    sharedSeedCount a b = (commonSeeds maps).length := by
  simp [sharedSeedCount, hm, commonSeeds]

theorem pairedStatistic_maps {a b : LedgerEntry K} {stat : PairedStatistic K} (h : pairedStatistic a b = some stat) :
    ∃ maps, pairedSeedMaps a b = some maps := by
  unfold pairedStatistic at h
  split at h
  · cases h
  · rename_i maps hm
    exact ⟨maps, hm⟩

theorem clearsBand_evidence {gate : CrownGate} {a b : LedgerEntry K} (hg : p.crownGate = some gate)
    (hr : gateRefuses p a b = false) (h : clearsBand p a b = true) : EvidenceWin p gate a b := by
  simp only [gateRefuses, hg, Bool.or_eq_false_iff, decide_eq_false_iff_not, not_lt, Option.isNone_eq_false_iff] at hr
  obtain ⟨hdeep, hpd⟩ := hr
  obtain ⟨stat, hpd⟩ := Option.isSome_iff_exists.1 hpd
  have hstat : pairedStatistic a b = some stat := by
    unfold pairedDethrone at hpd
    split at hpd
    · cases hpd
    · exact hpd
  obtain ⟨maps, hm⟩ := pairedStatistic_maps hstat
  rw [sharedSeedCount_eq hm] at hdeep
  have hlt : stat.champRef + pairedBand p a b stat < stat.champRef + stat.meanDiff := by
    simpa [clearsBand, dethroneScores, hpd] using h
  exact .paired maps stat hm hstat hdeep (by linarith)

/-- Under a crown gate a win is comparable and rests on deep enough evidence. -/
theorem beats_gated {gate : CrownGate} {a b : LedgerEntry K} (hg : p.crownGate = some gate)
    (h : beats p a b = true) : duelingIncomparable a b = false ∧ EvidenceWin p gate a b := by
  unfold beats at h
  cases hi : duelingIncomparable a b with
  | true => simp [hi] at h
  | false =>
    refine ⟨rfl, ?_⟩
    simp only [hi, Bool.false_eq_true, if_false, hg] at h
    split at h
    · rename_i window hgov hw
      simp only [duelGoverns, Bool.and_eq_true] at hgov
      exact duelBeats_evidence hw ⟨hgov.1.2, hgov.2⟩ h
    · split at h
      · cases h
      · rename_i hr
        exact clearsBand_evidence hg (by simpa using hr) h

/-! ## A pool with a cycle -/

/-- A confirmation score in tenths. -/
def tenths (seed : ℕ) (k : Fin 11) : ConfirmationScoreRecord ℚ where
  seed := seed
  composite := (k : ℕ) / 10
  benchVersion := 5
  dueling := none
  seed_nonneg := Int.natCast_nonneg seed
  composite_mem := tenth_mem k

/-- A row that is known by its confirmation history only. -/
def historyRow (hotkey : String) (id : Uuid) (firstSeen : Timestamp) (history : List (ConfirmationScoreRecord ℚ)) :
    LedgerEntry ℚ where
  minerHotkey := hotkey
  agentId := id
  composite := 1 / 2
  n := 100
  firstSeen := firstSeen
  benchVersion := some 5
  scoreProofs := []
  compositeStderr := none
  confirmationComposites := none
  confirmationSeeds := none
  confirmationHistory := some history
  duelHistory := none
  continualAggregateMethod := none
  efficiencyBonus := none
  efficiencyFactor := none
  efficiencyCurveVersion := none
  v9Confirmation := none
  duelingSeasonId := none
  dueling := none
  composite_mem := half_mem ℚ
  benchVersion_pos := by simp
  compositeStderr_nonneg := compositeStderr_absent ℚ
  efficiencyBonus_mem := efficiencyBonus_absent ℚ
  efficiencyFactor_pos := efficiencyFactor_absent ℚ
  efficiencyCurveVersion_ge := efficiencyCurveVersion_absent

/-- Three rows, each pair sharing two seeds of its own: `b` leads `a`, `c` leads `b`, and `a` leads `c`. -/
def cyclePool : List (LedgerEntry ℚ) :=
  [historyRow "a" 1 1 [tenths 1 5, tenths 2 5, tenths 5 6, tenths 6 6],
   historyRow "b" 2 2 [tenths 1 6, tenths 2 6, tenths 3 5, tenths 4 5],
   historyRow "c" 3 3 [tenths 3 6, tenths 4 6, tenths 5 5, tenths 6 5]]

def cycleGate : CrownGate := { minSharedSeeds := 2, standingRank := 5, duelWindow := none }

/-- The compiled constants, without pooling and without an incumbent. -/
def cycleParams (crownGate : Option CrownGate) : MemoryFoldParams ℚ where
  margin := KOTH_MARGIN
  tailSize := KOTH_TAIL_SIZE
  rankShares := KOTH_RANK_SHARES
  dethroneZ := KOTH_DETHRONE_Z
  tiePooling := false
  ceilingBandClamp := false
  statisticalBandCap := false
  incumbentAgentId := none
  unpaidAgentId := none
  crownGate := crownGate

/-! ## Crown-gate safety -/

/-- Under a crown gate the champion stands; from a standing opener it is reached by a finite chain of wins of standing
rows, each comparable with the row it beat and each on enough paired or duel evidence. -/
theorem gated_champion_safe (p : MemoryFoldParams K) (entries : List (LedgerEntry K)) (gate : CrownGate)
    (hg : p.crownGate = some gate) (hne : entries ≠ []) (hid : (entries.map (·.agentId)).Nodup) :
    ∃ champ, champion p entries = some champ ∧ champ ∈ standing entries gate ∧
      ∃ o es, opener entries p.incumbentAgentId = some (o, es) ∧ (o ∈ standing entries gate →
        Relation.ReflTransGen (fun a b => b ∈ standing entries gate ∧ duelingIncomparable b a = false ∧
          EvidenceWin p gate b a) o champ) := by
  have hs := separates_of_nodup p (qualityPrimaryEfficiencyActive entries) hid
  have hn : 0 < (max 1 gate.standingRank).toNat := by omega
  have hsc : standingCount p = some (max 1 gate.standingRank).toNat := by rw [standingCount, hg]; rfl
  obtain ⟨champ, hc, hmem⟩ := Hill.champion_mem_standing hs hne p.incumbentAgentId hn
  obtain ⟨⟨o, es⟩, ho⟩ := Hill.opener_isSome (h := hill p (qualityPrimaryEfficiencyActive entries)) hne
    p.incumbentAgentId
  refine ⟨champ, by rw [champion_eq, hsc, hc], hmem, o, es, by rw [opener_eq p, ho], fun hst => ?_⟩
  refine (Hill.champion_chain hs ho hst hc).lift id fun a b hab => ⟨hab.1, ?_⟩
  exact beats_gated hg hab.2

theorem gated_champion_safe_cycle :
    ∃ champ, champion (cycleParams (some cycleGate)) cyclePool = some champ ∧ champ ∈ standing cyclePool cycleGate ∧
      ∃ o es, opener cyclePool none = some (o, es) ∧ (o ∈ standing cyclePool cycleGate →
        Relation.ReflTransGen (fun a b => b ∈ standing cyclePool cycleGate ∧ duelingIncomparable b a = false ∧
          EvidenceWin (cycleParams (some cycleGate)) cycleGate b a) o champ) :=
  gated_champion_safe (cycleParams (some cycleGate)) cyclePool cycleGate rfl (by simp [cyclePool]) (by decide)

/-! ## Crown stability -/

/-- The champion keeps the crown as the next incumbent iff neither the row that started the walk nor a challenger senior
to it beats it. -/
theorem champion_again_iff_unbeaten (p : MemoryFoldParams K) (entries : List (LedgerEntry K))
    (hid : (entries.map (·.agentId)).Nodup) (champ o : LedgerEntry K) (es : List (LedgerEntry K))
    (hst : walkStart p entries = some (o, es)) (hc : champion p entries = some champ) :
    champion { p with incumbentAgentId := some champ.agentId } entries = some champ ↔
      ∀ e, e ≠ champ → (e = o ∨ e ∈ es ∧ seniorityKey e < seniorityKey champ) → beats p e champ = false := by
  have hs := separates_of_nodup p (qualityPrimaryEfficiencyActive entries) hid
  rw [champion_eq] at hc
  rw [walkStart_eq] at hst
  have hagain := Hill.champion_again_iff hs hst hc
  rw [champion_eq]
  exact hagain

theorem champion_again_iff_unbeaten_cycle : ∃ champ o es,
    walkStart (cycleParams none) cyclePool = some (o, es) ∧ champion (cycleParams none) cyclePool = some champ ∧
      (champion { cycleParams none with incumbentAgentId := some champ.agentId } cyclePool = some champ ↔
        ∀ e, e ≠ champ → (e = o ∨ e ∈ es ∧ seniorityKey e < seniorityKey champ) →
          beats (cycleParams none) e champ = false) := by
  have hst : (walkStart (cycleParams none) cyclePool).isSome = true := by decide +kernel
  have hc : (champion (cycleParams none) cyclePool).isSome = true := by decide +kernel
  obtain ⟨⟨o, es⟩, hst⟩ := Option.isSome_iff_exists.1 hst
  obtain ⟨champ, hc⟩ := Option.isSome_iff_exists.1 hc
  exact ⟨champ, o, es, hst, hc,
    champion_again_iff_unbeaten (cycleParams none) cyclePool (by decide) champ o es hst hc⟩

/-- The champion of the cycle, `c`, loses the crown to `b` when it opens the next walk. -/
theorem crown_cycle : ¬ ∀ (p : MemoryFoldParams ℚ) (entries : List (LedgerEntry ℚ)) (champ : LedgerEntry ℚ),
    0 < p.margin → 0 ≤ p.dethroneZ → (entries.map (·.agentId)).Nodup → champion p entries = some champ →
      champion { p with incumbentAgentId := some champ.agentId } entries = some champ := by
  intro h
  have hfirst : (champion (cycleParams none) cyclePool).map (·.agentId) = some 3 := by decide +kernel
  have hsecond : (champion { cycleParams none with incumbentAgentId := some 3 } cyclePool).map (·.agentId) =
      some 2 := by
    decide +kernel
  obtain ⟨champ, hc, hid⟩ := Option.map_eq_some_iff.1 hfirst
  have hagain := h (cycleParams none) cyclePool champ (by decide +kernel) (by decide +kernel) (by decide) hc
  rw [hid] at hagain
  rw [hagain, Option.map_some, hid] at hsecond
  exact absurd hsecond (by decide)

end DittoSubnet.Validator

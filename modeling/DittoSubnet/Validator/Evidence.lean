import DittoSubnet.Wire.Ledger

/-!
# The validator's reading of one ledger row

The per-row half of `ditto/validator/weights.py`: the version and season of a row, its confirmation maps, the frozen
efficiency transform, and the two scores every comparison uses, `qualityComposite` (authoritative quality) and
`effectiveComposite` (after efficiency).
-/

namespace DittoSubnet.Validator

open Kit

variable {K : Type} [ExactArith K]

def DEFAULT_BENCH_VERSION : ℕ := 1
def MIN_ELIGIBLE_CASES : ℕ := 100
def TOP5_MAX_CONFIRMATION_SEEDS : ℕ := 15

/-- The versions with a full-confirmation receipt contract (`CONFIRMATION_BENCH_VERSIONS`). -/
def RECEIPT_CONTRACT_VERSIONS : List ℕ := [9, 10, 11, 12, 13, 14, 15, 16, 17]

/-! ## Version, eligibility and season -/

def entryVersion (e : LedgerEntry K) : ℕ :=
  match e.benchVersion with
  | some v => if 0 < v then v else DEFAULT_BENCH_VERSION
  | none => DEFAULT_BENCH_VERSION

/-- The run administered the full benchmark. -/
def entryEligible (e : LedgerEntry K) : Bool := MIN_ELIGIBLE_CASES ≤ e.n

def isDuelingEntry (e : LedgerEntry K) : Bool := isDuelingBenchVersion (entryVersion e)

/-- The season of a bench-16 row: the row's own, cross-checked against its report's. -/
def entrySeason (e : LedgerEntry K) : Option String :=
  match e.dueling with
  | none => none
  | some report =>
    match e.duelingSeasonId with
    | none => some report.seasonId
    | some season => if season = report.seasonId then some season else none

/-- Pre-16 rows always; a bench-16 row only with its season and aggregates. -/
def duelingFoldReady (e : LedgerEntry K) : Bool := !isDuelingEntry e || (entrySeason e).isSome

/-- Two bench-16 rows that do not share one `(bench_version, season_id)`. -/
def duelingIncomparable (a b : LedgerEntry K) : Bool :=
  if isDuelingEntry a && isDuelingEntry b then
    (entrySeason a).isNone || entrySeason a != entrySeason b || entryVersion a != entryVersion b
  else false

/-- `{owner(A), owner(B)}` for two comparable bench-16 rows. -/
def duelingPairMask (a b : LedgerEntry K) : Option (Finset String) :=
  if !(isDuelingEntry a && isDuelingEntry b) then none
  else if duelingIncomparable a b then none
  else
    match a.dueling, b.dueling with
    | some reportA, some reportB => some {reportA.ownerKey, reportB.ownerKey}
    | _, _ => none

/-! ## Confirmation evidence -/

/-- The in-row confirmation composites: at least two, all in range. -/
def entryConfirmations (e : LedgerEntry K) : Option (List K) :=
  match e.confirmationComposites with
  | none => none
  | some v =>
    if v.length < 2 then none
    else if v.all fun x => 0 ≤ x ∧ x ≤ 1 then some v
    else none

/-- The confirmation rows collapsed to a median per seed, cut at the compiled ceiling. -/
def entryConfirmationHistory (e : LedgerEntry K) : Option (Dict ℤ K) :=
  match e.confirmationHistory with
  | none => none
  | some records =>
    let grouped := groupOn ((records.filter fun r => 0 ≤ r.seed ∧ 0 ≤ r.composite ∧ r.composite ≤ 1).map
      fun r => (r.seed, r.composite))
    if grouped.isEmpty then none
    else some ((sortOn Prod.fst (grouped.map fun g => (g.1, median g.2))).take TOP5_MAX_CONFIRMATION_SEEDS)

/-- One record's composite with `mask`'s columns removed, when the record is evidence for this row. -/
def recordMaskedComposite (e : LedgerEntry K) (record : ConfirmationScoreRecord K) (mask : Finset String) : Option K :=
  match record.dueling, e.dueling with
  | some report, some entryReport =>
    if some report.seasonId ≠ entrySeason e ∨ report.ownerKey ≠ entryReport.ownerKey ∨
        record.benchVersion ≠ entryVersion e then none
    else
      let value := duelingComposite report.datagenRaw report.datagenGate report.columns mask
      if 0 ≤ value ∧ value ≤ 1 then some value else none
  | _, _ => none

/-- Per-seed masked medians over the seeds the unmasked window keeps. -/
def duelingSeedComposites (e : LedgerEntry K) (mask : Finset String) : Option (Dict ℤ K) :=
  match entryConfirmationHistory e, e.confirmationHistory with
  | some window, some records =>
    let grouped := groupOn (records.filterMap fun r =>
      if r.seed ∈ window.keys then (recordMaskedComposite e r mask).map fun value => (r.seed, value) else none)
    if grouped.isEmpty then none else some ((sortOn Prod.fst grouped).map fun g => (g.1, median g.2))
  | _, _ => none

/-- The in-row confirmations keyed by their seeds, when the two lists align and no seed is negative or repeated. -/
def alignedSeedComposites (seeds : List ℤ) (comps : List K) : Option (Dict ℤ K) :=
  if seeds.length ≠ comps.length then none
  else if (seeds.all fun s => 0 ≤ s) && seeds.Nodup then some (seeds.zip comps)
  else none

/-- The per-seed composites of a row; a receipt row never pairs on continual history. -/
def entrySeedComposites (e : LedgerEntry K) (mask : Option (Finset String)) : Option (Dict ℤ K) :=
  if entryVersion e ∈ RECEIPT_CONTRACT_VERSIONS ∧ e.v9Confirmation.isSome then none
  else
    match mask with
    | some mask => duelingSeedComposites e mask
    | none =>
      match entryConfirmationHistory e with
      | some history => some history
      | none =>
        match entryConfirmations e, e.confirmationSeeds with
        | some comps, some seeds => alignedSeedComposites seeds comps
        | _, _ => none

/-- The standard error of the composite, when served. -/
def entryStderr (e : LedgerEntry K) : Option K :=
  match e.compositeStderr with
  | some v => if 0 ≤ v then some v else none
  | none => none

/-! ## Efficiency -/

def efficiencyCurveVersion (e : LedgerEntry K) : ℕ :=
  match e.efficiencyCurveVersion with
  | some version => if 3 ≤ version then version else 3
  | none => 3

/-- A surfaced factor, with malformed values neutralised. -/
def boundedEfficiencyFactor (e : LedgerEntry K) : Option K :=
  match e.efficiencyFactor with
  | none => none
  | some factor =>
    if entryVersion e < 9 then some 1
    else if entryVersion e = 9 ∧ e.v9Confirmation.isNone then some 1
    else if factor ≤ 0 then some 1
    else if efficiencyCurveVersion e < 4 ∧ ¬ (85 / 100 ≤ factor ∧ factor ≤ 11 / 10) then some 1
    else some factor

def efficiencyMultiplier (e : LedgerEntry K) : K :=
  match boundedEfficiencyFactor e with
  | some factor => factor
  | none =>
    match e.efficiencyBonus with
    | some bonus => if 0 ≤ bonus ∧ bonus ≤ 1 / 10 then 1 + bonus else 1
    | none => 1

/-- The frozen adjustment of a quality score. -/
def efficiencyAdjustedComposite (e : LedgerEntry K) (quality : K) : K :=
  match boundedEfficiencyFactor e with
  | some factor =>
    if factor ≤ 1 then quality * factor
    else if 4 ≤ efficiencyCurveVersion e then quality + (1 - quality) * (1 - 1 / factor)
    else quality + (factor - 1) * (1 - quality)
  | none => quality * efficiencyMultiplier e

/-- The highest score the row's transform can attain. -/
def effectiveScoreCeiling (e : LedgerEntry K) : K :=
  match boundedEfficiencyFactor e with
  | some factor => if factor ≤ 1 then factor else 1
  | none => efficiencyMultiplier e

/-- The slope of the row's transform on the quality scale. -/
def efficiencyStderrScale (e : LedgerEntry K) : K :=
  match boundedEfficiencyFactor e with
  | some factor =>
    if factor ≤ 1 then factor
    else if 4 ≤ efficiencyCurveVersion e then 1 / factor
    else 2 - factor
  | none => efficiencyMultiplier e

/-- Whether curve-v3 ordering is present in the pool. -/
def qualityPrimaryEfficiencyActive (entries : List (LedgerEntry K)) : Bool :=
  entries.any fun e => (boundedEfficiencyFactor e).isSome

/-! ## The two scores -/

/-- The three signed quorum scores, when they are all in range. -/
def quorumComposites (e : LedgerEntry K) : Option (List K) :=
  if e.scoreProofs.length = 3 ∧ e.scoreProofs.all (fun p => 0 ≤ p.composite ∧ p.composite ≤ 1) then
    some (e.scoreProofs.map (·.composite))
  else none

/-- The median of at least two confirmations, else the raw composite. -/
def confirmationMedian (e : LedgerEntry K) (vals : Option (List K)) : K :=
  match vals with
  | some vals => if vals.length < 2 then e.composite else median vals
  | none => e.composite

/-- The continual score before efficiency: the mean of the quorum and one value per retained seed once the marker is
served, else the confirmation median. -/
def continualComposite (e : LedgerEntry K) : K :=
  let history := entryConfirmationHistory e
  let vals : Option (List K) :=
    match history with
    | some history => some (sortOn id (history.map Prod.snd))
    | none => entryConfirmations e
  match e.continualAggregateMethod, quorumComposites e, history with
  | some .meanAfterQuorum, some quorum, some history =>
    if history.isEmpty then confirmationMedian e vals
    else mean (quorum ++ (sortOn Prod.fst history).map Prod.snd)
  | _, _, _ => confirmationMedian e vals

/-- Authoritative quality: the verified receipt where one is served, else the continual score. -/
def qualityComposite (e : LedgerEntry K) : K :=
  match e.v9Confirmation with
  | some receipt =>
    if entryVersion e ∈ RECEIPT_CONTRACT_VERSIONS then (receipt.fullEffectiveMicros : K) / 1000000
    else continualComposite e
  | none => continualComposite e

/-- The efficiency projection of the quality. -/
def effectiveComposite (e : LedgerEntry K) : K := efficiencyAdjustedComposite e (qualityComposite e)

/-- Full-benchmark rows whose season evidence is complete. -/
def filterEligible (entries : List (LedgerEntry K)) : List (LedgerEntry K) :=
  entries.filter fun e => entryEligible e && duelingFoldReady e

/-- The pool the fold ranks: eligible rows with a positive score. -/
def scoredPool (entries : List (LedgerEntry K)) : List (LedgerEntry K) :=
  (filterEligible entries).filter fun e => 0 < effectiveComposite e

/-! ## What a collapsed history is -/

/-- The seeds of a group are the seeds of the records, one each. -/
theorem keys_groupOn_perm_dedup {ν : Type} (kvs : List (ℤ × ν)) :
    (groupOn kvs).keys.Perm (kvs.map Prod.fst).dedup := by
  rw [List.perm_ext_iff_of_nodup (keys_groupOn_nodup kvs) (List.nodup_dedup _)]
  intro k
  rw [mem_keys_groupOn, List.mem_dedup]

/-- The confirmation rows in range are all of them. -/
theorem filter_confirmations (records : List (ConfirmationScoreRecord K)) :
    (records.filter fun r => 0 ≤ r.seed ∧ 0 ≤ r.composite ∧ r.composite ≤ 1) = records := by
  rw [List.filter_eq_self]
  intro r _
  simp [r.seed_nonneg, r.composite_mem.1, r.composite_mem.2]

/-- A collapsed history is not empty, has one in-range value for each seed, and is in seed order. -/
theorem entryConfirmationHistory_spec {e : LedgerEntry K} {h : Dict ℤ K} (hh : entryConfirmationHistory e = some h) :
    h ≠ [] ∧ h.keys.Nodup ∧ (∀ kv ∈ h, 0 ≤ kv.1 ∧ 0 ≤ kv.2 ∧ kv.2 ≤ 1) ∧ h.Pairwise (fun a b => a.1 ≤ b.1) := by
  unfold entryConfirmationHistory at hh
  cases hr : e.confirmationHistory with
  | none => rw [hr] at hh; cases hh
  | some records =>
    simp only [hr, filter_confirmations] at hh
    split at hh
    · cases hh
    rename_i hne
    cases hh
    set kvs := records.map fun r => (r.seed, r.composite) with hkvs
    set collapsed := (groupOn kvs).map fun g => (g.1, median g.2) with hc
    have hcne : collapsed ≠ [] := by simpa [hc, List.isEmpty_iff] using hne
    refine ⟨?_, ?_, ?_, (pairwise_sortOn Prod.fst collapsed).take⟩
    · intro h
      rw [List.take_eq_nil_iff] at h
      exact h.elim (by simp [TOP5_MAX_CONFIRMATION_SEEDS]) (sortOn_ne_nil hcne)
    · have hk : (Dict.keys collapsed).Nodup := by
        rw [hc, Dict.keys_map (groupOn kvs) fun _ vs => median vs]
        exact keys_groupOn_nodup kvs
      have hs : (Dict.keys (sortOn Prod.fst collapsed)).Nodup :=
        ((sortOn_perm Prod.fst collapsed).map Prod.fst).nodup_iff.2 hk
      exact ((List.take_sublist _ _).map Prod.fst).nodup hs
    · intro kv hkv
      have hm : kv ∈ collapsed := mem_sortOn.1 (List.mem_of_mem_take hkv)
      obtain ⟨g, hg, rfl⟩ := List.mem_map.1 hm
      obtain ⟨hvs, hgne⟩ := mem_groupOn.1 (show (g.1, g.2) ∈ groupOn kvs from hg)
      have hval : ∀ x ∈ g.2, 0 ≤ x ∧ x ≤ 1 := by
        intro x hx
        rw [hvs, valuesOf, List.mem_map] at hx
        obtain ⟨p, hp, rfl⟩ := hx
        obtain ⟨r, _, rfl⟩ := List.mem_map.1 (List.mem_of_mem_filter hp)
        exact r.composite_mem
      have hseed : 0 ≤ g.1 := by
        have : g.1 ∈ kvs.map Prod.fst := mem_keys_groupOn.1 (List.mem_map.2 ⟨g, hg, rfl⟩)
        obtain ⟨p, hp, hpg⟩ := List.mem_map.1 this
        obtain ⟨r, _, rfl⟩ := List.mem_map.1 hp
        exact hpg ▸ r.seed_nonneg
      exact ⟨hseed, median_mem (hvs ▸ hgne) hval⟩

/-- There is a collapsed history exactly when a record is served. -/
theorem entryConfirmationHistory_eq_none_iff {e : LedgerEntry K} :
    entryConfirmationHistory e = none ↔ e.confirmationHistory.getD [] = [] := by
  unfold entryConfirmationHistory
  cases hr : e.confirmationHistory with
  | none => simp
  | some records =>
    simp only [filter_confirmations, Option.getD_some]
    cases hg : groupOn (records.map fun r => (r.seed, r.composite)) with
    | nil => simpa using groupOn_eq_nil_iff.1 hg
    | cons g gs =>
      have : records ≠ [] := by rintro rfl; simp [groupOn] at hg
      simp [this]

/-- The seeds of a collapsed history are the first served seeds. -/
theorem keys_entryConfirmationHistory {e : LedgerEntry K} {h : Dict ℤ K} {records : List (ConfirmationScoreRecord K)}
    (hr : e.confirmationHistory = some records) (hh : entryConfirmationHistory e = some h) :
    h.keys = (sortOn id (records.map (·.seed)).dedup).take TOP5_MAX_CONFIRMATION_SEEDS := by
  simp only [entryConfirmationHistory, hr, filter_confirmations] at hh
  split at hh
  · cases hh
  cases hh
  set kvs := records.map fun r => (r.seed, r.composite) with hkvs
  have hperm : (groupOn kvs).keys.Perm (records.map (·.seed)).dedup := by
    have := keys_groupOn_perm_dedup kvs
    rwa [hkvs, List.map_map] at this
  unfold Dict.keys
  rw [List.map_take, map_sortOn, List.map_map]
  congr 1
  exact sortOn_eq_of_perm (fun _ _ _ _ h => h) hperm

end DittoSubnet.Validator

import DittoSubnet.Platform.Koth
import DittoSubnet.Validator.Fold

/-!
# Lifted rows

What the Platform reads off a lifted ledger row, next to what the validator reads off the row itself: version, season,
confirmation history, efficiency, per-seed maps and duel records. Everything here is one row at a time.

* `ReceiptServed`: the shape in which a receipt row is served, without confirmations and without a duel history.
* `seedComposites_lift`: the Platform pairs on the validator's map, except that it drops a map with one seed.
* `duelingSeedComposites_lift`, `entryDuelRecords_lift`: the dueling maps are the same.
-/

namespace DittoSubnet.Platform

open Kit

variable {K : Type} [ExactArith K]

/-- A receipt row is served on a version with a receipt contract, without confirmations or duel history. -/
structure ReceiptServed (e : LedgerEntry K) : Prop where
  version : e.v9Confirmation.isSome → Validator.entryVersion e ∈ Validator.RECEIPT_CONTRACT_VERSIONS
  composites : e.v9Confirmation.isSome → e.confirmationComposites = none
  history : e.v9Confirmation.isSome → e.confirmationHistory.getD [] = []
  duels : e.v9Confirmation.isSome → e.duelHistory.getD [] = []

/-! ## Version and season -/

@[simp] theorem lift_benchVersion (e : LedgerEntry K) :
    (kothEntryFromLedger e).benchVersion = Validator.entryVersion e := by
  unfold Validator.entryVersion
  cases hv : e.benchVersion with
  | none => simp [kothEntryFromLedger, hv, Validator.DEFAULT_BENCH_VERSION]
  | some v =>
    have := e.benchVersion_pos v hv
    have h0 : v ≠ 0 := by omega
    simp [kothEntryFromLedger, hv, h0, Nat.pos_of_ne_zero h0]

@[simp] theorem isDuelingEntry_lift (e : LedgerEntry K) :
    isDuelingEntry (kothEntryFromLedger e) = Validator.isDuelingEntry e := by
  rw [isDuelingEntry, lift_benchVersion, Validator.isDuelingEntry]

@[simp] theorem entrySeason_lift (e : LedgerEntry K) :
    entrySeason (kothEntryFromLedger e) = Validator.entrySeason e := rfl

@[simp] theorem duelingFoldReady_lift (e : LedgerEntry K) :
    duelingFoldReady (kothEntryFromLedger e) = Validator.duelingFoldReady e := by
  simp [duelingFoldReady, Validator.duelingFoldReady]

@[simp] theorem duelingIncomparable_lift (a b : LedgerEntry K) :
    duelingIncomparable (kothEntryFromLedger a) (kothEntryFromLedger b) = Validator.duelingIncomparable a b := by
  simp only [duelingIncomparable, Validator.duelingIncomparable, isDuelingEntry_lift, entrySeason_lift,
    lift_benchVersion]
  cases Validator.isDuelingEntry a && Validator.isDuelingEntry b <;> rfl

@[simp] theorem duelingPairMask_lift (a b : LedgerEntry K) :
    duelingPairMask (kothEntryFromLedger a) (kothEntryFromLedger b) = Validator.duelingPairMask a b := by
  simp only [duelingPairMask, Validator.duelingPairMask, isDuelingEntry_lift, duelingIncomparable_lift]
  rfl

/-! ## Confirmation evidence -/

/-- Both sides collapse the history alike: every served record is in range. -/
theorem confirmationHistory_eq (e : LedgerEntry K) :
    confirmationHistory e = Validator.entryConfirmationHistory e := by
  unfold confirmationHistory Validator.entryConfirmationHistory
  cases e.confirmationHistory with
  | none => rfl
  | some records =>
    simp only [Validator.filter_confirmations]
    cases records with
    | nil => rfl
    | cons r rs => simp [List.isEmpty_iff, CONFIRMATION_SEED_CEILING, Validator.TOP5_MAX_CONFIRMATION_SEEDS]

omit [ExactArith K] in
/-- The lifted confirmations of a row with a history: the history's values, when there are two. -/
theorem pairedConfirmations_history (h : Dict ℤ K) :
    pairedConfirmations (some (h.map Prod.snd)) (some h.keys) =
      if 2 ≤ h.length then some (h.map Prod.snd, h.keys) else none := by
  simp [pairedConfirmations, Dict.keys]

theorem validatedComposites_eq (o : Option (List K)) (minimum : ℕ) : validatedComposites o minimum =
    o.bind fun values => if minimum ≤ values.length ∧ ∀ x ∈ values, 0 ≤ x ∧ x ≤ 1 then some values else none := by
  unfold validatedComposites
  cases o with
  | none => rfl
  | some values =>
    simp only [Option.bind_some]
    by_cases hlen : values.length < minimum
    · have : ¬ (minimum ≤ values.length ∧ ∀ x ∈ values, 0 ≤ x ∧ x ≤ 1) := fun h => by omega
      rw [if_pos hlen, if_neg this]
    · rw [if_neg hlen]
      by_cases hv : ∀ x ∈ values, 0 ≤ x ∧ x ≤ 1
      · rw [if_neg (by simpa using hv), if_pos ⟨by omega, hv⟩]
      · have hany : (values.any fun value => decide ¬ (0 ≤ value ∧ value ≤ 1)) = true := by
          push Not at hv
          obtain ⟨x, hx, h⟩ := hv
          exact List.any_eq_true.2 ⟨x, hx, decide_eq_true fun hc => absurd (h hc.1) (not_lt.2 hc.2)⟩
        rw [if_pos hany, if_neg fun h => hv h.2]

/-- Both sides accept a bundle of at least two values in range. -/
theorem confirmations_eq (k : KothEntry K) : confirmations k = k.confirmationComposites.bind fun values =>
    if 2 ≤ values.length ∧ ∀ x ∈ values, 0 ≤ x ∧ x ≤ 1 then some values else none :=
  validatedComposites_eq k.confirmationComposites 2

theorem entryConfirmations_eq (e : LedgerEntry K) :
    Validator.entryConfirmations e = e.confirmationComposites.bind fun values =>
      if 2 ≤ values.length ∧ ∀ x ∈ values, 0 ≤ x ∧ x ≤ 1 then some values else none := by
  unfold Validator.entryConfirmations
  cases e.confirmationComposites with
  | none => rfl
  | some values =>
    simp only [Option.bind_some]
    by_cases hlen : values.length < 2
    · have : ¬ (2 ≤ values.length ∧ ∀ x ∈ values, 0 ≤ x ∧ x ≤ 1) := fun h => by omega
      rw [if_pos hlen, if_neg this]
    · rw [if_neg hlen]
      by_cases hv : ∀ x ∈ values, 0 ≤ x ∧ x ≤ 1
      · rw [if_pos (by simpa using hv), if_pos ⟨by omega, hv⟩]
      · rw [if_neg (by simpa using hv), if_neg fun h => hv h.2]

/-- The seed map of a Platform row is the validator's alignment of its two lists. -/
theorem seedComposites_eq (k : KothEntry K) : seedComposites k =
    (confirmations k).bind fun comps => k.confirmationSeeds.bind fun seeds =>
      Validator.alignedSeedComposites seeds comps := by
  unfold seedComposites Validator.alignedSeedComposites
  cases confirmations k with
  | none => rfl
  | some comps =>
    cases k.confirmationSeeds with
    | none => rfl
    | some seeds =>
      have hneg : (seeds.any fun s => decide (s < 0)) = !(seeds.all fun s => decide (0 ≤ s)) := by
        rw [List.not_all_eq_any_not]
        congr 1
        funext s
        rw [← decide_not]
        simp
      simp only [Option.bind_some, hneg]
      cases seeds.all (fun s => decide (0 ≤ s)) <;> by_cases hn : seeds.Nodup <;> simp [hn]

omit [ExactArith K] in
theorem alignedSeedComposites_history {h : Dict ℤ K} (hnodup : h.keys.Nodup) (hmem : ∀ kv ∈ h, 0 ≤ kv.1) :
    Validator.alignedSeedComposites h.keys (h.map Prod.snd) = some h := by
  have hall : (h.keys.all fun s => decide (0 ≤ s)) = true := by
    rw [List.all_eq_true]
    intro s hs
    obtain ⟨kv, hkv, rfl⟩ := List.mem_map.1 hs
    simpa using hmem kv hkv
  have hzip : h.keys.zip (h.map Prod.snd) = h := by
    rw [Dict.keys, ← List.unzip_fst, ← List.unzip_snd, List.zip_unzip]
  have hl : h.keys.length = (h.map Prod.snd).length := by simp [Dict.keys]
  simp only [Validator.alignedSeedComposites, hl, ne_eq, not_true_eq_false, if_false, hall, hnodup, decide_true,
    Bool.and_self, if_true, hzip]

/-- A row with a history pairs on it when it has at least two seeds. -/
theorem seedComposites_of_history {e : LedgerEntry K} {h : Dict ℤ K}
    (hh : Validator.entryConfirmationHistory e = some h) :
    seedComposites (kothEntryFromLedger e) = if 2 ≤ h.length then some h else none := by
  obtain ⟨-, hnodup, hmem, -⟩ := Validator.entryConfirmationHistory_spec hh
  have hc : (kothEntryFromLedger e).confirmationComposites = if 2 ≤ h.length then some (h.map Prod.snd) else none := by
    simp only [kothEntryFromLedger, confirmationHistory_eq, hh, pairedConfirmations_history]
    split <;> rfl
  have hs : (kothEntryFromLedger e).confirmationSeeds = if 2 ≤ h.length then some h.keys else none := by
    simp only [kothEntryFromLedger, confirmationHistory_eq, hh, pairedConfirmations_history]
    split <;> rfl
  have hval : ∀ x ∈ h.map Prod.snd, 0 ≤ x ∧ x ≤ 1 := fun x hx => by
    obtain ⟨kv, hkv, rfl⟩ := List.mem_map.1 hx
    exact (hmem kv hkv).2
  rw [seedComposites_eq, confirmations_eq, hc, hs]
  by_cases hlen : 2 ≤ h.length
  · have hcond : 2 ≤ (h.map Prod.snd).length ∧ ∀ x ∈ h.map Prod.snd, 0 ≤ x ∧ x ≤ 1 := ⟨by simpa using hlen, hval⟩
    rw [if_pos hlen, if_pos hlen, if_pos hlen, Option.bind_some, if_pos hcond, Option.bind_some, Option.bind_some,
      alignedSeedComposites_history hnodup fun kv hkv => (hmem kv hkv).1]
  · simp only [if_neg hlen, Option.bind_none]

/-- A row without a history pairs on its in-row bundle, under the validator's own conditions. -/
theorem seedComposites_of_bundle {e : LedgerEntry K} (hh : Validator.entryConfirmationHistory e = none) :
    seedComposites (kothEntryFromLedger e) =
      (Validator.entryConfirmations e).bind fun comps => e.confirmationSeeds.bind fun seeds =>
        Validator.alignedSeedComposites seeds comps := by
  have hc : (kothEntryFromLedger e).confirmationComposites =
      (pairedConfirmations e.confirmationComposites e.confirmationSeeds).map Prod.fst := by
    simp only [kothEntryFromLedger, confirmationHistory_eq, hh]
  have hs : (kothEntryFromLedger e).confirmationSeeds =
      (pairedConfirmations e.confirmationComposites e.confirmationSeeds).map Prod.snd := by
    simp only [kothEntryFromLedger, confirmationHistory_eq, hh]
  rw [seedComposites_eq, confirmations_eq, entryConfirmations_eq, hc, hs]
  cases e.confirmationComposites with
  | none => rfl
  | some comps =>
    cases e.confirmationSeeds with
    | none => simp [pairedConfirmations]
    | some seeds =>
      simp only [pairedConfirmations, Option.bind_some]
      by_cases hcond : 2 ≤ comps.length ∧ ∀ x ∈ comps, 0 ≤ x ∧ x ≤ 1
      · by_cases hal : comps.length = seeds.length
        · simp [hal, hal ▸ hcond.1]
        · have hal' : ¬ seeds.length = comps.length := fun h => hal h.symm
          simp [if_pos hcond, hal, hal', Validator.alignedSeedComposites]
      · by_cases hal : comps.length = seeds.length ∧ 2 ≤ comps.length
        · simp [if_pos hal, if_neg hcond]
        · simp [if_neg hal, if_neg hcond]

theorem entrySeedComposites_of_receipt {e : LedgerEntry K} (he : ReceiptServed e) (hr : e.v9Confirmation.isSome)
    (mask : Option (Finset String)) : Validator.entrySeedComposites e mask = none := by
  unfold Validator.entrySeedComposites
  rw [if_pos ⟨he.version hr, hr⟩]

theorem entrySeedComposites_none_of_no_receipt {e : LedgerEntry K} (hr : e.v9Confirmation = none) :
    Validator.entrySeedComposites e none =
      match Validator.entryConfirmationHistory e with
      | some history => some history
      | none => (Validator.entryConfirmations e).bind fun comps => e.confirmationSeeds.bind fun seeds =>
        Validator.alignedSeedComposites seeds comps := by
  simp only [Validator.entrySeedComposites, hr, Option.isSome_none, Bool.false_eq_true, and_false, if_false]
  cases Validator.entryConfirmationHistory e with
  | some h => rfl
  | none =>
    cases Validator.entryConfirmations e with
    | none => rfl
    | some comps => cases e.confirmationSeeds <;> rfl

/-- An aligned bundle has two seeds. -/
theorem length_bundle {e : LedgerEntry K} {m : Dict ℤ K}
    (h : ((Validator.entryConfirmations e).bind fun comps => e.confirmationSeeds.bind fun seeds =>
      Validator.alignedSeedComposites seeds comps) = some m) : 2 ≤ m.length := by
  rw [entryConfirmations_eq] at h
  obtain ⟨comps, hc, h⟩ := Option.bind_eq_some_iff.1 h
  obtain ⟨seeds, -, h⟩ := Option.bind_eq_some_iff.1 h
  obtain ⟨values, -, hv⟩ := Option.bind_eq_some_iff.1 hc
  split at hv
  · rename_i hcond
    cases hv
    unfold Validator.alignedSeedComposites at h
    split at h
    · cases h
    · rename_i hl
      split at h
      · cases h
        simp only [List.length_zip]
        omega
      · cases h
  · cases hv

/-- The Platform pairs on the validator's map, but drops a map with one seed. -/
theorem seedComposites_lift {e : LedgerEntry K} (he : ReceiptServed e) :
    seedComposites (kothEntryFromLedger e) =
      (Validator.entrySeedComposites e none).filter fun m => 2 ≤ m.length := by
  cases hr : e.v9Confirmation with
  | some receipt =>
    have hs : e.v9Confirmation.isSome := by rw [hr]; rfl
    have hh : Validator.entryConfirmationHistory e = none :=
      Validator.entryConfirmationHistory_eq_none_iff.2 (he.history hs)
    rw [entrySeedComposites_of_receipt he hs, seedComposites_of_bundle hh, entryConfirmations_eq, he.composites hs]
    rfl
  | none =>
    rw [entrySeedComposites_none_of_no_receipt hr]
    cases hh : Validator.entryConfirmationHistory e with
    | some h =>
      rw [seedComposites_of_history hh]
      simp [Option.filter]
    | none =>
      rw [seedComposites_of_bundle hh]
      cases hb : (Validator.entryConfirmations e).bind fun comps => e.confirmationSeeds.bind fun seeds =>
          Validator.alignedSeedComposites seeds comps with
      | none => rfl
      | some m => simp [Option.filter, length_bundle hb]

/-! ## Dueling evidence -/

theorem recordMaskedComposite_lift (e : LedgerEntry K) (r : ConfirmationScoreRecord K) (mask : Finset String) :
    recordMaskedComposite (kothEntryFromLedger e) ⟨r.seed, r.benchVersion, r.dueling⟩ mask =
      Validator.recordMaskedComposite e r mask := by
  unfold recordMaskedComposite Validator.recordMaskedComposite
  simp only [lift_benchVersion, entrySeason_lift, ite_not]
  rfl

/-- The pair-masked seed maps are the same. -/
theorem duelingSeedComposites_lift {e : LedgerEntry K} (he : ReceiptServed e) (mask : Finset String) :
    duelingSeedComposites (kothEntryFromLedger e) mask = Validator.entrySeedComposites e (some mask) := by
  cases hr : e.v9Confirmation with
  | some receipt =>
    have hs : e.v9Confirmation.isSome := by rw [hr]; rfl
    rw [entrySeedComposites_of_receipt he hs]
    simp [duelingSeedComposites, kothEntryFromLedger, hr, liftRecords]
  | none =>
    simp only [Validator.entrySeedComposites, hr, Option.isSome_none, Bool.false_eq_true, and_false, if_false,
      Validator.duelingSeedComposites]
    cases hc : e.confirmationHistory with
    | none => simp [duelingSeedComposites, kothEntryFromLedger, hr, hc, liftRecords]
    | some records =>
      cases records with
      | nil =>
        have hh : Validator.entryConfirmationHistory e = none :=
          Validator.entryConfirmationHistory_eq_none_iff.2 (by rw [hc]; rfl)
        simp [duelingSeedComposites, kothEntryFromLedger, hr, hc, liftRecords, hh]
      | cons r rs =>
        cases hh : Validator.entryConfirmationHistory e with
        | none =>
          have := Validator.entryConfirmationHistory_eq_none_iff.1 hh
          rw [hc] at this
          cases this
        | some h =>
          have hk := Validator.keys_entryConfirmationHistory hc hh
          have hd : (kothEntryFromLedger e).duelingRecords =
              some ((r :: rs).map fun r => ⟨r.seed, r.benchVersion, r.dueling⟩) := by
            simp [kothEntryFromLedger, hr, hc, liftRecords]
          have hseeds : ((r :: rs).map fun r => (⟨r.seed, r.benchVersion, r.dueling⟩ : DuelingSeedRecord K)).map
              (·.seed) = (r :: rs).map (·.seed) := by simp
          have hrec : ∀ window : List ℤ, ((r :: rs).map fun r =>
                (⟨r.seed, r.benchVersion, r.dueling⟩ : DuelingSeedRecord K)).filterMap (fun r =>
                  if r.seed ∉ window then none
                  else (recordMaskedComposite (kothEntryFromLedger e) r mask).map fun value => (r.seed, value)) =
              (r :: rs).filterMap fun r => if r.seed ∈ window then
                (Validator.recordMaskedComposite e r mask).map fun value => (r.seed, value) else none := by
            intro window
            rw [List.filterMap_map]
            congr 1
            funext r
            simp only [Function.comp_apply, recordMaskedComposite_lift, ite_not]
          simp only [duelingSeedComposites, hd]
          rw [List.map_cons] at hseeds hrec ⊢
          simp only [hseeds, hrec, hk]
          rfl

theorem duelRecordValue_lift (e : LedgerEntry K) (report : DuelingReport K) (mask : Finset String)
    (r : ConfirmationScoreRecord K) :
    duelRecordValue (kothEntryFromLedger e) report mask ⟨r.seed, r.benchVersion, r.dueling⟩ =
      Validator.duelRecordValue e report mask r := by
  unfold duelRecordValue Validator.duelRecordValue
  cases r.dueling with
  | none => rfl
  | some rep =>
    have hseed : ¬ r.seed < 0 := not_lt.2 r.seed_nonneg
    simp only [hseed, if_false, false_or, lift_benchVersion, ite_not]

/-- The duel records are the same. -/
theorem entryDuelRecords_lift {e : LedgerEntry K} (he : ReceiptServed e) (mask : Finset String) :
    entryDuelRecords (kothEntryFromLedger e) mask = Validator.entryDuelRecords e mask := by
  have hd : (kothEntryFromLedger e).dueling = e.dueling := rfl
  cases hh : e.duelHistory with
  | none =>
    have hk : (kothEntryFromLedger e).duelRecords = none := by
      cases hr : e.v9Confirmation <;> simp [kothEntryFromLedger, hr, hh, liftRecords]
    simp [entryDuelRecords, Validator.entryDuelRecords, hk, hh]
  | some records =>
    cases records with
    | nil =>
      have hk : (kothEntryFromLedger e).duelRecords = none := by
        cases hr : e.v9Confirmation <;> simp [kothEntryFromLedger, hr, hh, liftRecords]
      simp only [entryDuelRecords, Validator.entryDuelRecords, hk, hh]
      cases e.dueling <;> rfl
    | cons r rs =>
      have hr : e.v9Confirmation = none := by
        cases hr : e.v9Confirmation with
        | none => rfl
        | some receipt =>
          have := he.duels (by rw [hr]; rfl)
          rw [hh] at this
          cases this
      have hk : (kothEntryFromLedger e).duelRecords =
          some ((r :: rs).map fun r => ⟨r.seed, r.benchVersion, r.dueling⟩) := by
        simp [kothEntryFromLedger, hr, hh, liftRecords]
      unfold entryDuelRecords Validator.entryDuelRecords
      rw [hk, hh, hd]
      cases e.dueling with
      | none => rfl
      | some report =>
        simp only [List.map_cons]
        rw [← List.map_cons (f := fun r : ConfirmationScoreRecord K =>
          (⟨r.seed, r.benchVersion, r.dueling⟩ : DuelingSeedRecord K)), List.filterMap_map]
        simp only [Function.comp_def, duelRecordValue_lift e report mask]

/-! ## Efficiency -/

theorem isSome_boundedEfficiencyFactor (k : KothEntry K) :
    (boundedEfficiencyFactor k).isSome = k.efficiencyFactor.isSome := by
  unfold boundedEfficiencyFactor
  cases k.efficiencyFactor with
  | none => rfl
  | some f =>
    simp only [Option.isSome_some]
    repeat' split
    all_goals rfl

theorem isSome_validatorBoundedEfficiencyFactor (e : LedgerEntry K) :
    (Validator.boundedEfficiencyFactor e).isSome = e.efficiencyFactor.isSome := by
  unfold Validator.boundedEfficiencyFactor
  cases e.efficiencyFactor with
  | none => rfl
  | some f =>
    simp only [Option.isSome_some]
    repeat' split
    all_goals rfl

/-- Both sides order by quality first in the same pools. -/
theorem qualityPrimary_lift (entries : List (LedgerEntry K)) :
    qualityPrimaryEfficiencyActive (entries.map kothEntryFromLedger) =
      Validator.qualityPrimaryEfficiencyActive entries := by
  unfold qualityPrimaryEfficiencyActive Validator.qualityPrimaryEfficiencyActive
  rw [List.any_map]
  congr 1
  funext e
  rw [Function.comp_apply, isSome_boundedEfficiencyFactor, isSome_validatorBoundedEfficiencyFactor]
  rfl

theorem qualityPrimary_pair (a b : LedgerEntry K) :
    qualityPrimaryEfficiencyActive [kothEntryFromLedger a, kothEntryFromLedger b] =
      Validator.qualityPrimaryEfficiencyActive [a, b] := qualityPrimary_lift [a, b]

/-- In a pair without quality-first ordering neither row carries a factor. -/
theorem factor_none_of_pair {a b : LedgerEntry K} (h : Validator.qualityPrimaryEfficiencyActive [a, b] = false) :
    a.efficiencyFactor = none ∧ b.efficiencyFactor = none := by
  simp only [Validator.qualityPrimaryEfficiencyActive, List.any_cons, List.any_nil, Bool.or_false,
    Bool.or_eq_false_iff, isSome_validatorBoundedEfficiencyFactor] at h
  exact ⟨Option.not_isSome_iff_eq_none.1 (by simp [h.1]), Option.not_isSome_iff_eq_none.1 (by simp [h.2])⟩

section NoFactor

variable {e : LedgerEntry K} (hf : e.efficiencyFactor = none)
include hf

theorem boundedEfficiencyFactor_of_none : boundedEfficiencyFactor (kothEntryFromLedger e) = none := by
  have : (kothEntryFromLedger e).efficiencyFactor = none := hf
  rw [boundedEfficiencyFactor, this]

theorem validatorBoundedEfficiencyFactor_of_none : Validator.boundedEfficiencyFactor e = none := by
  rw [Validator.boundedEfficiencyFactor, hf]

theorem efficiencyMultiplier_of_none :
    efficiencyMultiplier (kothEntryFromLedger e) = Validator.efficiencyMultiplier e := by
  rw [efficiencyMultiplier, Validator.efficiencyMultiplier, boundedEfficiencyFactor_of_none hf,
    validatorBoundedEfficiencyFactor_of_none hf]
  rfl

theorem efficiencyAdjustedComposite_of_none (q : K) :
    efficiencyAdjustedComposite (kothEntryFromLedger e) q = Validator.efficiencyAdjustedComposite e q := by
  rw [efficiencyAdjustedComposite, Validator.efficiencyAdjustedComposite, boundedEfficiencyFactor_of_none hf,
    validatorBoundedEfficiencyFactor_of_none hf, efficiencyMultiplier_of_none hf]

theorem effectiveScoreCeiling_of_none :
    effectiveScoreCeiling (kothEntryFromLedger e) = Validator.effectiveScoreCeiling e := by
  rw [effectiveScoreCeiling, Validator.effectiveScoreCeiling, boundedEfficiencyFactor_of_none hf,
    validatorBoundedEfficiencyFactor_of_none hf, efficiencyMultiplier_of_none hf]

theorem efficiencyStderrScale_of_none :
    efficiencyStderrScale (kothEntryFromLedger e) = Validator.efficiencyStderrScale e := by
  rw [efficiencyStderrScale, Validator.efficiencyStderrScale, boundedEfficiencyFactor_of_none hf,
    validatorBoundedEfficiencyFactor_of_none hf, efficiencyMultiplier_of_none hf]

end NoFactor

theorem stderr_lift (e : LedgerEntry K) : stderr (kothEntryFromLedger e) = Validator.entryStderr e := rfl

end DittoSubnet.Platform

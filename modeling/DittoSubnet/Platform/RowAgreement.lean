import DittoSubnet.Platform.Lift

/-!
# When the two sides score a row alike

`ServedRow` is the shape of a row of the served ledger (`_ledger_entries`). The Platform's scores of the lifted row are
the validator's scores of the row, and both sides keep the row in their pool, exactly when three conditions on the
served data hold (`row_scores_agree_iff`):

* `BundleAgrees`: an in-row confirmation bundle without a history is not read as completed waves, nor dropped for want
  of aligned seeds, to a different value;
* `CurveAgrees`: a factor on a curve above 4, which the validator reads as unbounded and the Platform as bounded, moves
  the score alike;
* `PoolAgrees`: the stored composite, which the Platform tests, is positive when the validator's score is.

`bundle_masquerades` is a served row that fails the first one.
-/

namespace DittoSubnet.Platform

open Kit

variable {K : Type} [ExactArith K]

/-- A row as `_ledger_entries` serves it: with the continual mode off no confirmation field is served, a receipt comes
without confirmations and on a version with a receipt contract, and a stored bundle is a non-empty list in range. -/
structure ServedRow (e : LedgerEntry K) : Prop where
  eligible : Validator.MIN_ELIGIBLE_CASES ≤ e.n
  version : 10 ≤ Validator.entryVersion e
  proofs : e.scoreProofs.length ≤ 3
  receipt : e.v9Confirmation.isSome → Validator.entryVersion e ∈ Validator.RECEIPT_CONTRACT_VERSIONS ∧
    e.confirmationComposites = none ∧ e.confirmationSeeds = none ∧ e.confirmationHistory = none
  continualOff : e.continualAggregateMethod = none → e.v9Confirmation = none →
    e.confirmationComposites = none ∧ e.confirmationSeeds = none ∧ e.confirmationHistory = none
  bundle : ∀ l ∈ e.confirmationComposites, l ≠ [] ∧ ∀ x ∈ l, 0 ≤ x ∧ x ≤ 1

/-! ## The served evidence and the three conditions -/

/-- The scores of the quorum. -/
def quorumOf (e : LedgerEntry K) : List K := e.scoreProofs.map (·.composite)

/-- One median for each retained seed of the history. -/
def seedMedians (e : LedgerEntry K) : List K := ((Validator.entryConfirmationHistory e).getD []).map Prod.snd

/-- The composite a receipt attests, else the stored one. -/
def storedComposite (e : LedgerEntry K) : K :=
  match e.v9Confirmation with
  | some receipt => (receipt.fullEffectiveMicros : K) / 1000000
  | none => e.composite

/-- At least two values stand for themselves, fewer give way to the stored composite. -/
def orStored (e : LedgerEntry K) (values : List K) : List K :=
  if 2 ≤ values.length then values else [storedComposite e]

/-- A full quorum and a history are averaged; all other evidence has a median. -/
def Averaged (e : LedgerEntry K) : Prop := e.scoreProofs.length = 3 ∧ seedMedians e ≠ []

instance (e : LedgerEntry K) : Decidable (Averaged e) := inferInstanceAs (Decidable (_ ∧ _))

/-- The served scores that decide the row's quality. -/
def evidenceValues (e : LedgerEntry K) : List K :=
  if Averaged e then quorumOf e ++ seedMedians e
  else if seedMedians e = [] then orStored e (e.confirmationComposites.getD [])
  else orStored e (seedMedians e)

/-- The evidence is above zero: one averaged score is, or the median is. -/
def PositiveEvidence (e : LedgerEntry K) : Prop :=
  if Averaged e then ∃ x ∈ evidenceValues e, 0 < x else 0 < median (evidenceValues e)

/-- The evidence is perfect: every averaged score is 1, or the median is. -/
def PerfectEvidence (e : LedgerEntry K) : Prop :=
  if Averaged e then ∀ x ∈ evidenceValues e, x = 1 else median (evidenceValues e) = 1

/-- Whether the stored seeds align with a bundle. -/
def AlignedSeeds (e : LedgerEntry K) (bundle : List K) : Prop :=
  ∃ seeds ∈ e.confirmationSeeds, seeds.length = bundle.length

/-- A bundle that stands alone is read alike: with a full quorum its mean with the quorum is its median, and without one
it has aligned seeds or its median is the stored composite. -/
def BundleAgrees (e : LedgerEntry K) : Prop :=
  seedMedians e = [] → ∀ bundle ∈ e.confirmationComposites,
    if e.scoreProofs.length = 3 then mean (quorumOf e ++ bundle) = median (orStored e bundle)
    else AlignedSeeds e bundle ∨ median (orStored e bundle) = storedComposite e

/-- A factor on a curve above 4 is a bounded penalty, or acts on evidence it cannot move. -/
def CurveAgrees (e : LedgerEntry K) : Prop :=
  ∀ factor ∈ e.efficiencyFactor, ∀ version ∈ e.efficiencyCurveVersion, 5 ≤ version →
    (85 / 100 ≤ factor ∧ factor ≤ 1) ∨ (factor < 85 / 100 ∧ ¬ PositiveEvidence e) ∨ (1 < factor ∧ PerfectEvidence e)

/-- A factor that lifts every quality above 0. -/
def RaisingFactor (e : LedgerEntry K) : Prop :=
  ∃ factor ∈ e.efficiencyFactor, 1 < factor ∧ (4 ≤ Validator.efficiencyCurveVersion e ∨ factor ≤ 11 / 10)

/-- A row that may be ranked has a positive stored composite iff its evidence or its factor makes its score positive. -/
def PoolAgrees (e : LedgerEntry K) : Prop :=
  Validator.duelingFoldReady e = true → (0 < storedComposite e ↔ PositiveEvidence e ∨ RaisingFactor e)

/-! ## The quality of the evidence -/

section Quality

variable {e : LedgerEntry K}

/-- The mean or the median of the evidence. -/
def evidenceQuality (e : LedgerEntry K) : K :=
  if Averaged e then mean (evidenceValues e) else median (evidenceValues e)

theorem quorumOf_mem : ∀ x ∈ quorumOf e, 0 ≤ x ∧ x ≤ 1 := by
  intro x hx
  obtain ⟨proof, -, rfl⟩ := List.mem_map.1 hx
  exact proof.composite_mem

theorem seedMedians_of_history {h : Dict ℤ K} (hh : Validator.entryConfirmationHistory e = some h) :
    seedMedians e = h.map Prod.snd := by
  rw [seedMedians, hh, Option.getD_some]

theorem seedMedians_mem : ∀ x ∈ seedMedians e, 0 ≤ x ∧ x ≤ 1 := by
  intro x hx
  cases hh : Validator.entryConfirmationHistory e with
  | none =>
    rw [seedMedians, hh] at hx
    cases hx
  | some h =>
    rw [seedMedians_of_history hh] at hx
    obtain ⟨kv, hkv, rfl⟩ := List.mem_map.1 hx
    exact ((Validator.entryConfirmationHistory_spec hh).2.2.1 kv hkv).2

/-- A row has seed medians exactly when it has a collapsed history. -/
theorem seedMedians_eq_nil_iff : seedMedians e = [] ↔ Validator.entryConfirmationHistory e = none := by
  cases hh : Validator.entryConfirmationHistory e with
  | none => simp [seedMedians, hh]
  | some h =>
    rw [seedMedians_of_history hh]
    simp [(Validator.entryConfirmationHistory_spec hh).1]

theorem storedComposite_mem : 0 ≤ storedComposite e ∧ storedComposite e ≤ 1 := by
  unfold storedComposite
  cases e.v9Confirmation with
  | none => exact e.composite_mem
  | some receipt =>
    have h : (receipt.fullEffectiveMicros : K) ≤ 1000000 := by exact_mod_cast receipt.fullEffectiveMicros_le
    constructor
    · positivity
    · exact (div_le_one (by norm_num)).2 h

theorem orStored_spec {values : List K} (hv : ∀ x ∈ values, 0 ≤ x ∧ x ≤ 1) :
    orStored e values ≠ [] ∧ ∀ x ∈ orStored e values, 0 ≤ x ∧ x ≤ 1 := by
  unfold orStored
  split
  · rename_i hlen
    exact ⟨List.ne_nil_of_length_pos (by omega), hv⟩
  · refine ⟨List.cons_ne_nil _ _, fun x hx => ?_⟩
    rw [List.mem_singleton.1 hx]
    exact storedComposite_mem

/-- There is evidence, and it is in range. -/
theorem evidenceValues_spec (hs : ServedRow e) :
    evidenceValues e ≠ [] ∧ ∀ x ∈ evidenceValues e, 0 ≤ x ∧ x ≤ 1 := by
  unfold evidenceValues
  split
  · rename_i ha
    refine ⟨List.append_ne_nil_of_right_ne_nil _ ha.2, fun x hx => ?_⟩
    rcases List.mem_append.1 hx with hx | hx
    · exact quorumOf_mem x hx
    · exact seedMedians_mem x hx
  · split
    · refine orStored_spec fun x hx => ?_
      cases hc : e.confirmationComposites with
      | none => rw [hc] at hx; cases hx
      | some l => rw [hc] at hx; exact (hs.bundle l hc).2 x hx
    · exact orStored_spec seedMedians_mem

theorem evidenceQuality_mem (hs : ServedRow e) : 0 ≤ evidenceQuality e ∧ evidenceQuality e ≤ 1 := by
  obtain ⟨hne, hmem⟩ := evidenceValues_spec hs
  unfold evidenceQuality
  split
  · exact mean_mem hne hmem
  · exact median_mem hne hmem

theorem evidenceQuality_pos_iff (hs : ServedRow e) : 0 < evidenceQuality e ↔ PositiveEvidence e := by
  obtain ⟨hne, hmem⟩ := evidenceValues_spec hs
  unfold evidenceQuality PositiveEvidence
  split
  · exact mean_pos_iff hne fun x hx => (hmem x hx).1
  · exact Iff.rfl

theorem evidenceQuality_eq_one_iff (hs : ServedRow e) : evidenceQuality e = 1 ↔ PerfectEvidence e := by
  obtain ⟨hne, hmem⟩ := evidenceValues_spec hs
  unfold evidenceQuality PerfectEvidence
  split
  · exact mean_eq_iff_of_le hne fun x hx => (hmem x hx).2
  · exact Iff.rfl

/-- A confirmation median is the median of the values, or the composite. -/
theorem confirmationMedian_eq (hr : e.v9Confirmation = none) (o : Option (List K)) :
    Validator.confirmationMedian e o = median (orStored e (o.getD [])) := by
  have hstored : storedComposite e = e.composite := by rw [storedComposite, hr]
  cases o with
  | none => simp [Validator.confirmationMedian, orStored, hstored, median_singleton]
  | some values =>
    simp only [Validator.confirmationMedian, orStored, Option.getD_some]
    by_cases hlen : 2 ≤ values.length
    · rw [if_neg (by omega), if_pos hlen]
    · rw [if_pos (by omega), if_neg hlen, hstored, median_singleton]

theorem orStored_perm {xs ys : List K} (h : xs.Perm ys) : median (orStored e xs) = median (orStored e ys) := by
  unfold orStored
  rw [h.length_eq]
  split
  · exact median_perm h
  · rfl

/-- The in-row bundle that the validator accepts, as evidence. -/
theorem orStored_entryConfirmations (hs : ServedRow e) :
    orStored e ((Validator.entryConfirmations e).getD []) = orStored e (e.confirmationComposites.getD []) := by
  rw [entryConfirmations_eq]
  cases hc : e.confirmationComposites with
  | none => rfl
  | some l =>
    have hl := (hs.bundle l hc).2
    rw [Option.bind_some, Option.getD_some]
    by_cases hlen : 2 ≤ l.length
    · rw [if_pos ⟨hlen, hl⟩, Option.getD_some]
    · have hcond : ¬ (2 ≤ l.length ∧ ∀ x ∈ l, 0 ≤ x ∧ x ≤ 1) := fun h => hlen h.1
      simp only [if_neg hcond, Option.getD_none, orStored, List.length_nil, if_neg hlen]
      rfl

/-- A served history comes with the activation marker. -/
theorem marker_of_history (hs : ServedRow e) (hr : e.v9Confirmation = none) {h : Dict ℤ K}
    (hh : Validator.entryConfirmationHistory e = some h) : e.continualAggregateMethod = some .meanAfterQuorum := by
  cases hm : e.continualAggregateMethod with
  | some m => cases m; rfl
  | none =>
    have hn := (hs.continualOff hm hr).2.2
    simp [Validator.entryConfirmationHistory, hn] at hh

theorem history_none_of_receipt (hs : ServedRow e) (hr : e.v9Confirmation.isSome) :
    Validator.entryConfirmationHistory e = none := by
  rw [Validator.entryConfirmationHistory, (hs.receipt hr).2.2.2]

/-- A collapsed history is in seed order. -/
theorem sortOn_history {h : Dict ℤ K} (hh : Validator.entryConfirmationHistory e = some h) : sortOn Prod.fst h = h := by
  obtain ⟨-, hnodup, -, hsorted⟩ := Validator.entryConfirmationHistory_spec hh
  refine (eq_sortOn_of_perm ?_ (List.Perm.refl h) hsorted).symm
  intro a ha b hb hab
  exact List.inj_on_of_nodup_map hnodup ha hb hab

theorem quorumComposites_eq : Validator.quorumComposites e =
    if e.scoreProofs.length = 3 then some (quorumOf e) else none := by
  have hall : (e.scoreProofs.all fun p => decide (0 ≤ p.composite ∧ p.composite ≤ 1)) = true := by
    rw [List.all_eq_true]
    exact fun proof _ => decide_eq_true proof.composite_mem
  unfold Validator.quorumComposites
  simp only [hall, and_true]
  rfl

/-- Evidence that gives way to the stored composite has it as its quality. -/
theorem evidenceQuality_of_bundle (h : seedMedians e = []) :
    evidenceQuality e = median (orStored e (e.confirmationComposites.getD [])) := by
  have ha : ¬ Averaged e := fun ha => ha.2 h
  rw [evidenceQuality, evidenceValues, if_neg ha, if_neg ha, if_pos h]

theorem evidenceQuality_of_history (h : seedMedians e ≠ []) : evidenceQuality e =
    if e.scoreProofs.length = 3 then mean (quorumOf e ++ seedMedians e) else median (orStored e (seedMedians e)) := by
  unfold evidenceQuality evidenceValues
  by_cases hp : e.scoreProofs.length = 3
  · have ha : Averaged e := ⟨hp, h⟩
    rw [if_pos ha, if_pos ha, if_pos hp]
  · have ha : ¬ Averaged e := fun ha => hp ha.1
    rw [if_neg ha, if_neg ha, if_neg h, if_neg hp]

theorem evidenceQuality_of_receipt (hs : ServedRow e) (hr : e.v9Confirmation.isSome) :
    evidenceQuality e = storedComposite e := by
  rw [evidenceQuality_of_bundle (seedMedians_eq_nil_iff.2 (history_none_of_receipt hs hr)), (hs.receipt hr).2.1]
  exact median_singleton _

/-- The validator's quality is the quality of the evidence. -/
theorem qualityComposite_eq (hs : ServedRow e) : Validator.qualityComposite e = evidenceQuality e := by
  cases hr : e.v9Confirmation with
  | some receipt =>
    have hsome : e.v9Confirmation.isSome := by rw [hr]; rfl
    rw [evidenceQuality_of_receipt hs hsome, Validator.qualityComposite, storedComposite, hr]
    simp only [(hs.receipt hsome).1, if_true]
  | none =>
    rw [Validator.qualityComposite, hr]
    simp only [Validator.continualComposite]
    cases hh : Validator.entryConfirmationHistory e with
    | none =>
      rw [evidenceQuality_of_bundle (seedMedians_eq_nil_iff.2 hh), ← orStored_entryConfirmations hs,
        ← confirmationMedian_eq hr]
      cases e.continualAggregateMethod <;> cases Validator.quorumComposites e <;> rfl
    | some h =>
      have hmed := seedMedians_of_history hh
      have hne := (Validator.entryConfirmationHistory_spec hh).1
      have hperm : (sortOn id (h.map Prod.snd)).Perm (seedMedians e) := hmed ▸ sortOn_perm _ _
      rw [evidenceQuality_of_history (by simpa [hmed] using hne), marker_of_history hs hr hh, quorumComposites_eq]
      by_cases hp : e.scoreProofs.length = 3
      · simp only [if_pos hp, sortOn_history hh, ← hmed]
        rw [if_neg (by simpa [List.isEmpty_iff] using hne)]
      · simp only [if_neg hp]
        rw [confirmationMedian_eq hr, Option.getD_some, orStored_perm hperm]

/-! ## The Platform's quality of a lifted row -/

theorem validatedComposites_of_mem {values : List K} (hv : ∀ x ∈ values, 0 ≤ x ∧ x ≤ 1) (minimum : ℕ) :
    validatedComposites (some values) minimum = if minimum ≤ values.length then some values else none := by
  rw [validatedComposites_eq, Option.bind_some]
  by_cases h : minimum ≤ values.length
  · rw [if_pos ⟨h, hv⟩, if_pos h]
  · rw [if_neg fun hc => h hc.1, if_neg h]

/-- The waves of a row are its seed medians, else its bundle. -/
theorem liftWaves_eq (hs : ServedRow e) (hr : e.v9Confirmation = none) :
    liftWaves e = if seedMedians e = [] then e.confirmationComposites.getD [] else seedMedians e := by
  unfold liftWaves
  rw [confirmationHistory_eq]
  cases hh : Validator.entryConfirmationHistory e with
  | none => rw [if_pos (seedMedians_eq_nil_iff.2 hh)]
  | some h =>
    have hne : seedMedians e ≠ [] := by rw [Ne, seedMedians_eq_nil_iff, hh]; exact Option.some_ne_none h
    rw [marker_of_history hs hr hh, if_neg hne, seedMedians_of_history hh]

theorem liftWaves_mem (hs : ServedRow e) (hr : e.v9Confirmation = none) : ∀ x ∈ liftWaves e, 0 ≤ x ∧ x ≤ 1 := by
  intro x hx
  rw [liftWaves_eq hs hr] at hx
  split at hx
  · cases hc : e.confirmationComposites with
    | none => rw [hc] at hx; cases hx
    | some l => rw [hc] at hx; exact (hs.bundle l hc).2 x hx
  · exact seedMedians_mem x hx

/-- The Platform accepts two confirmations or none. -/
theorem length_confirmations {k : KothEntry K} {values : List K} (h : confirmations k = some values) :
    2 ≤ values.length := by
  rw [confirmations_eq] at h
  obtain ⟨l, -, hl⟩ := Option.bind_eq_some_iff.1 h
  split at hl
  · rename_i hcond
    cases hl
    exact hcond.1
  · cases hl

/-- Without an accepted quorum or wave the quality is the median of the confirmations, or the stored composite. -/
theorem continualComposite_fallback {k : KothEntry K}
    (h : validatedComposites k.quorumComposites 3 = none ∨ validatedComposites k.completedWaveComposites 1 = none) :
    continualComposite k = median ((confirmations k).getD [k.composite]) := by
  unfold continualComposite
  cases confirmations k <;> rcases h with h | h
  · simp [h, median_singleton]
  · cases validatedComposites k.quorumComposites 3 <;> simp [h, median_singleton]
  · simp [h]
  · cases validatedComposites k.quorumComposites 3 <;> simp [h]

/-- Without a receipt: the mean of a full quorum and the waves, else the median of the paired confirmations. -/
theorem continualComposite_lift (hs : ServedRow e) (hr : e.v9Confirmation = none) :
    continualComposite (kothEntryFromLedger e) =
      if e.scoreProofs.length = 3 ∧ liftWaves e ≠ [] then mean (quorumOf e ++ liftWaves e)
      else median (orStored e ((confirmations (kothEntryFromLedger e)).getD [])) := by
  have hlen : (quorumOf e).length = e.scoreProofs.length := List.length_map _
  have hq : validatedComposites (kothEntryFromLedger e).quorumComposites 3 =
      if 3 ≤ (quorumOf e).length then some (quorumOf e) else none := by
    rw [← validatedComposites_of_mem quorumOf_mem]
    simp [kothEntryFromLedger, hr, quorumOf]
  have hw : validatedComposites (kothEntryFromLedger e).completedWaveComposites 1 =
      if 1 ≤ (liftWaves e).length then some (liftWaves e) else none := by
    rw [← validatedComposites_of_mem (liftWaves_mem hs hr)]
    simp [kothEntryFromLedger, hr]
  have hproofs := hs.proofs
  by_cases hp : e.scoreProofs.length = 3 ∧ liftWaves e ≠ []
  · have hw1 : 1 ≤ (liftWaves e).length := List.length_pos_iff.2 hp.2
    rw [if_pos (by omega)] at hq
    rw [if_pos hw1] at hw
    rw [if_pos hp]
    simp only [continualComposite, hq, hw, hlen, hp.1, if_true]
  · have hnone : validatedComposites (kothEntryFromLedger e).quorumComposites 3 = none ∨
        validatedComposites (kothEntryFromLedger e).completedWaveComposites 1 = none := by
      rcases not_and_or.1 hp with hp | hp
      · exact .inl (hq.trans (if_neg (by omega)))
      · exact .inr (hw.trans (if_neg (by simpa using hp)))
    rw [if_neg hp, continualComposite_fallback hnone]
    cases hv : confirmations (kothEntryFromLedger e) with
    | none => rfl
    | some values => rw [Option.getD_some, Option.getD_some, orStored, if_pos (length_confirmations hv)]

theorem confirmations_of_history {h : Dict ℤ K} (hh : Validator.entryConfirmationHistory e = some h) :
    orStored e ((confirmations (kothEntryFromLedger e)).getD []) = orStored e (seedMedians e) := by
  have hc : (kothEntryFromLedger e).confirmationComposites = if 2 ≤ h.length then some (h.map Prod.snd) else none := by
    simp only [kothEntryFromLedger, confirmationHistory_eq, hh, pairedConfirmations_history]
    split <;> rfl
  have hmem := seedMedians_mem (e := e)
  rw [seedMedians_of_history hh] at hmem ⊢
  rw [confirmations_eq, hc]
  by_cases hlen : 2 ≤ h.length
  · rw [if_pos hlen, Option.bind_some, if_pos ⟨by simpa using hlen, hmem⟩, Option.getD_some]
  · have : ¬ 2 ≤ (h.map Prod.snd).length := by simpa using hlen
    simp [hlen, orStored]

/-- The Platform reads a bundle only with aligned seeds. -/
theorem confirmations_of_bundle (hh : Validator.entryConfirmationHistory e = none) {bundle : List K}
    (hc : e.confirmationComposites = some bundle) (hb : ∀ x ∈ bundle, 0 ≤ x ∧ x ≤ 1) :
    (AlignedSeeds e bundle → orStored e ((confirmations (kothEntryFromLedger e)).getD []) = orStored e bundle) ∧
      (¬ AlignedSeeds e bundle →
        orStored e ((confirmations (kothEntryFromLedger e)).getD []) = [storedComposite e]) := by
  have hk : (kothEntryFromLedger e).confirmationComposites =
      (pairedConfirmations (some bundle) e.confirmationSeeds).map Prod.fst := by
    simp only [kothEntryFromLedger, confirmationHistory_eq, hh, hc]
  rw [confirmations_eq, hk]
  constructor
  · rintro ⟨seeds, hseeds, hlen⟩
    rw [Option.mem_def.1 hseeds]
    by_cases h2 : 2 ≤ bundle.length
    · rw [pairedConfirmations, if_pos ⟨hlen.symm, h2⟩, Option.map_some, Option.bind_some, if_pos ⟨h2, hb⟩,
        Option.getD_some]
    · simp [pairedConfirmations, hlen, h2, orStored]
  · intro hna
    cases hseeds : e.confirmationSeeds with
    | none => simp [pairedConfirmations, orStored]
    | some seeds =>
      have : ¬ bundle.length = seeds.length := fun h => hna ⟨seeds, hseeds, h.symm⟩
      simp [pairedConfirmations, this, orStored]

/-- The two qualities agree exactly on the rows whose bundle is read alike. -/
theorem continualComposite_eq_iff (hs : ServedRow e) :
    continualComposite (kothEntryFromLedger e) = evidenceQuality e ↔ BundleAgrees e := by
  cases hr : e.v9Confirmation with
  | some receipt =>
    have hsome : e.v9Confirmation.isSome := by rw [hr]; rfl
    have hc : continualComposite (kothEntryFromLedger e) = storedComposite e := by
      have hh := history_none_of_receipt hs hsome
      simp [continualComposite, kothEntryFromLedger, hr, validatedComposites, confirmations, confirmationHistory_eq, hh,
        (hs.receipt hsome).2.1, pairedConfirmations, storedComposite]
    rw [hc, evidenceQuality_of_receipt hs hsome]
    refine ⟨fun _ _ bundle hb => ?_, fun _ => rfl⟩
    rw [(hs.receipt hsome).2.1] at hb
    cases hb
  | none =>
    rw [continualComposite_lift hs hr, liftWaves_eq hs hr]
    cases hh : Validator.entryConfirmationHistory e with
    | some h =>
      have hne : seedMedians e ≠ [] := by rw [Ne, seedMedians_eq_nil_iff, hh]; exact Option.some_ne_none h
      rw [evidenceQuality_of_history hne, confirmations_of_history hh, if_neg hne]
      simp only [ne_eq, hne, not_false_eq_true, and_true, true_iff]
      exact fun h => absurd h hne
    | none =>
      have hnil : seedMedians e = [] := seedMedians_eq_nil_iff.2 hh
      rw [evidenceQuality_of_bundle hnil, if_pos hnil]
      cases hc : e.confirmationComposites with
      | none =>
        have hk : confirmations (kothEntryFromLedger e) = none := by
          simp [confirmations, kothEntryFromLedger, confirmationHistory_eq, hh, hc, pairedConfirmations]
        simp [hk, BundleAgrees, hc]
      | some bundle =>
        obtain ⟨hbne, hb⟩ := hs.bundle bundle hc
        obtain ⟨hal, hna⟩ := confirmations_of_bundle hh hc hb
        have hiff : BundleAgrees e ↔ if e.scoreProofs.length = 3 then
            mean (quorumOf e ++ bundle) = median (orStored e bundle)
            else AlignedSeeds e bundle ∨ median (orStored e bundle) = storedComposite e := by
          simp [BundleAgrees, hnil, hc]
        rw [hiff, Option.getD_some]
        by_cases hp : e.scoreProofs.length = 3
        · rw [if_pos ⟨hp, hbne⟩, if_pos hp]
        · rw [if_neg fun h => hp h.1, if_neg hp]
          by_cases ha : AlignedSeeds e bundle
          · simp [hal ha, ha]
          · rw [hna ha, median_singleton, eq_comm]
            simp [ha]

end Quality

/-! ## The factor -/

/-- What a factor on a curve does to a quality: bounded below curve 4, of the remaining headroom above 1. -/
def curveAdjusted (curve : ℕ) (factor quality : K) : K :=
  if curve < 4 ∧ ¬ (85 / 100 ≤ factor ∧ factor ≤ 11 / 10) then quality
  else if factor ≤ 1 then quality * factor
  else if 4 ≤ curve then quality + (1 - quality) * (1 - 1 / factor)
  else quality + (factor - 1) * (1 - quality)

section Factor

variable {e : LedgerEntry K} {factor : K}

theorem validatorAdjusted_of_factor (hv : 10 ≤ Validator.entryVersion e) (hf : e.efficiencyFactor = some factor)
    (quality : K) : Validator.efficiencyAdjustedComposite e quality =
      curveAdjusted (Validator.efficiencyCurveVersion e) factor quality := by
  have hpos := e.efficiencyFactor_pos factor hf
  have h9 : ¬ Validator.entryVersion e < 9 := by omega
  have h9' : ¬ (Validator.entryVersion e = 9 ∧ e.v9Confirmation.isNone) := fun h => by omega
  simp only [Validator.efficiencyAdjustedComposite, Validator.boundedEfficiencyFactor, hf, if_neg h9, if_neg h9',
    if_neg (not_le.2 hpos), curveAdjusted]
  by_cases hb : Validator.efficiencyCurveVersion e < 4 ∧ ¬ (85 / 100 ≤ factor ∧ factor ≤ 11 / 10)
  · simp only [if_pos hb, le_refl, if_true, mul_one]
  · simp only [if_neg hb]

theorem platformAdjusted_of_factor (hv : 10 ≤ Validator.entryVersion e) (hf : e.efficiencyFactor = some factor)
    (quality : K) : efficiencyAdjustedComposite (kothEntryFromLedger e) quality =
      curveAdjusted (efficiencyCurveVersion (kothEntryFromLedger e)) factor quality := by
  have hpos := e.efficiencyFactor_pos factor hf
  have hf' : (kothEntryFromLedger e).efficiencyFactor = some factor := hf
  have h9 : ¬ Validator.entryVersion e < 9 := by omega
  by_cases hb : efficiencyCurveVersion (kothEntryFromLedger e) < 4 ∧ ¬ (85 / 100 ≤ factor ∧ factor ≤ 11 / 10)
  · have hk : boundedEfficiencyFactor (kothEntryFromLedger e) = some 1 := by
      simp only [boundedEfficiencyFactor, hf', lift_benchVersion, if_neg h9, if_neg (not_le.2 hpos)]
      exact if_pos hb
    simp only [efficiencyAdjustedComposite, hk, boundedEfficiencyAdjustedQuality, curveAdjusted, if_pos hb, le_refl,
      if_true, mul_one]
  · have hk : boundedEfficiencyFactor (kothEntryFromLedger e) = some factor := by
      simp only [boundedEfficiencyFactor, hf', lift_benchVersion, if_neg h9, if_neg (not_le.2 hpos)]
      exact if_neg hb
    simp only [efficiencyAdjustedComposite, hk, boundedEfficiencyAdjustedQuality, curveAdjusted, if_neg hb]
    rfl

/-- Both sides read a curve of at most 4 alike; the Platform reads a later one as curve 3. -/
theorem efficiencyCurveVersion_lift : efficiencyCurveVersion (kothEntryFromLedger e) =
    if Validator.efficiencyCurveVersion e ≤ 4 then Validator.efficiencyCurveVersion e else 3 := by
  have hk : (kothEntryFromLedger e).efficiencyCurveVersion = e.efficiencyCurveVersion := rfl
  unfold efficiencyCurveVersion Validator.efficiencyCurveVersion
  rw [hk]
  cases hc : e.efficiencyCurveVersion with
  | none => rfl
  | some version =>
    have hge := e.efficiencyCurveVersion_ge version hc
    have hcurve : isFactorCurve version = true ↔ version ≤ 4 := by
      rw [isFactorCurve, decide_eq_true_eq]
      simp only [CURVE_VERSION_BOUNDED_FACTOR, CURVE_VERSION_UNBOUNDED_FACTOR]
      omega
    simp only [if_pos hge, hcurve, CURVE_VERSION_BOUNDED_FACTOR]

theorem curveAdjusted_of_le_one {curve : ℕ} (h : 85 / 100 ≤ factor ∨ 4 ≤ curve) (h1 : factor ≤ 1) (quality : K) :
    curveAdjusted curve factor quality = quality * factor := by
  have hb : ¬ (curve < 4 ∧ ¬ (85 / 100 ≤ factor ∧ factor ≤ 11 / 10)) := by
    rintro ⟨hc, hr⟩
    rcases h with h | h
    · exact hr ⟨h, h1.trans (by norm_num)⟩
    · omega
  rw [curveAdjusted, if_neg hb, if_pos h1]

theorem curveAdjusted_unbounded {curve : ℕ} (hc : 4 ≤ curve) (h1 : 1 < factor) (quality : K) :
    curveAdjusted curve factor quality = quality + (1 - quality) * (1 - 1 / factor) := by
  rw [curveAdjusted, if_neg fun h => by omega, if_neg (not_le.2 h1), if_pos hc]

theorem curveAdjusted_bounded {curve : ℕ} (hc : curve < 4) (h1 : 1 < factor) (h2 : factor ≤ 11 / 10) (quality : K) :
    curveAdjusted curve factor quality = quality + (factor - 1) * (1 - quality) := by
  have hlow : 85 / 100 ≤ factor := le_trans (by norm_num) h1.le
  rw [curveAdjusted, if_neg fun h => h.2 ⟨hlow, h2⟩, if_neg (not_le.2 h1), if_neg (by omega)]

theorem curveAdjusted_neutral {curve : ℕ} (hc : curve < 4) (h : factor < 85 / 100 ∨ 11 / 10 < factor) (quality : K) :
    curveAdjusted curve factor quality = quality := by
  have hr : ¬ (85 / 100 ≤ factor ∧ factor ≤ 11 / 10) := by
    rintro ⟨h₁, h₂⟩
    rcases h with h | h
    · exact absurd h₁ (not_le.2 h)
    · exact absurd h₂ (not_le.2 h)
  rw [curveAdjusted, if_pos ⟨hc, hr⟩]

/-- The share of the headroom that an unbounded factor closes. -/
theorem headroomShare_mem (h1 : 1 < factor) : 0 < 1 - 1 / factor ∧ 1 - 1 / factor < factor - 1 := by
  have h0 : 0 < factor := one_pos.trans h1
  have hinv : factor * (1 / factor) = 1 := mul_one_div_cancel h0.ne'
  have hlt : 1 / factor < 1 := (div_lt_one h0).2 h1
  constructor
  · linarith
  · nlinarith [mul_pos (sub_pos.2 h1) (sub_pos.2 hlt)]

/-- A factor that the bounded and the unbounded curve read alike, on a quality in range. -/
theorem curveAdjusted_three_eq_iff {curve : ℕ} (hc : 4 ≤ curve) {quality : K} (h0 : 0 ≤ quality) :
    curveAdjusted 3 factor quality = curveAdjusted curve factor quality ↔
      (85 / 100 ≤ factor ∧ factor ≤ 1) ∨ (factor < 85 / 100 ∧ ¬ 0 < quality) ∨ (1 < factor ∧ quality = 1) := by
  rcases le_or_gt factor 1 with h1 | h1
  · rw [curveAdjusted_of_le_one (.inr hc) h1]
    rcases lt_or_ge factor (85 / 100) with hlow | hlow
    · -- the bounded curve drops the penalty, which shows unless there is nothing to lose
      rw [curveAdjusted_neutral (by norm_num) (.inl hlow)]
      have hne : factor ≠ 1 := (lt_trans hlow (by norm_num)).ne
      have hq : quality = quality * factor ↔ quality = 0 := by
        rw [eq_comm, mul_right_eq_self₀]
        simp [hne]
      rw [hq]
      simp [not_le.2 hlow, hlow, not_lt.2 h1, le_antisymm_iff, h0]
    · simp [curveAdjusted_of_le_one (.inl hlow) h1, hlow, h1]
  · rw [curveAdjusted_unbounded hc h1]
    obtain ⟨hs0, hs1⟩ := headroomShare_mem h1
    have hright : ((85 / 100 ≤ factor ∧ factor ≤ 1) ∨ (factor < 85 / 100 ∧ ¬ 0 < quality) ∨
        (1 < factor ∧ quality = 1)) ↔ quality = 1 := by
      have hlow : ¬ factor < 85 / 100 := not_lt.2 (le_trans (by norm_num) h1.le)
      simp [not_le.2 h1, hlow, h1]
    rw [hright]
    rcases le_or_gt factor (11 / 10) with h2 | h2
    · rw [curveAdjusted_bounded (by norm_num) h1 h2]
      constructor
      · intro h
        have : (1 - quality) * (factor - 1 - (1 - 1 / factor)) = 0 := by linarith
        rcases mul_eq_zero.1 this with h | h
        · linarith
        · linarith
      · rintro rfl
        ring
    · rw [curveAdjusted_neutral (by norm_num) (.inr h2)]
      constructor
      · intro h
        have : (1 - quality) * (1 - 1 / factor) = 0 := by linarith
        rcases mul_eq_zero.1 this with h | h
        · linarith
        · linarith
      · rintro rfl
        ring

/-- When an adjusted quality is positive. -/
theorem curveAdjusted_pos_iff {curve : ℕ} (hpos : 0 < factor) {quality : K} (h0 : 0 ≤ quality) (h1 : quality ≤ 1) :
    0 < curveAdjusted curve factor quality ↔
      0 < quality ∨ (1 < factor ∧ (4 ≤ curve ∨ factor ≤ 11 / 10)) := by
  rcases le_or_gt factor 1 with hf | hf
  · have hright : (0 < quality ∨ (1 < factor ∧ (4 ≤ curve ∨ factor ≤ 11 / 10))) ↔ 0 < quality := by
      simp [not_lt.2 hf]
    rw [hright]
    by_cases hb : 85 / 100 ≤ factor ∨ 4 ≤ curve
    · rw [curveAdjusted_of_le_one hb hf]
      exact mul_pos_iff_of_pos_right hpos
    · push Not at hb
      rw [curveAdjusted_neutral hb.2 (.inl hb.1)]
  · obtain ⟨hs0, hs1⟩ := headroomShare_mem hf
    have hlift : ∀ share : K, 0 < share → 0 < quality + (1 - quality) * share := by
      intro share hshare
      rcases h0.eq_or_lt with h0 | h0
      · rw [← h0]
        linarith
      · have := mul_nonneg (sub_nonneg.2 h1) hshare.le
        linarith
    rcases le_or_gt 4 curve with hc | hc
    · rw [curveAdjusted_unbounded hc hf]
      exact iff_of_true (hlift _ hs0) (.inr ⟨hf, .inl hc⟩)
    · rcases le_or_gt factor (11 / 10) with h2 | h2
      · rw [curveAdjusted_bounded hc hf h2, mul_comm]
        exact iff_of_true (hlift _ (sub_pos.2 hf)) (.inr ⟨hf, .inr h2⟩)
      · rw [curveAdjusted_neutral hc (.inr h2)]
        simp [not_le.2 h2, not_le.2 hc]

end Factor

/-! ## The agreement -/

section Agreement

variable {e : LedgerEntry K}

theorem validatorCurveVersion_of_some {version : ℕ} (h : e.efficiencyCurveVersion = some version) :
    Validator.efficiencyCurveVersion e = version := by
  rw [Validator.efficiencyCurveVersion, h]
  exact if_pos (e.efficiencyCurveVersion_ge version h)

/-- Both sides adjust the row's quality alike exactly under `CurveAgrees`. -/
theorem adjusted_eq_iff (hs : ServedRow e) :
    efficiencyAdjustedComposite (kothEntryFromLedger e) (evidenceQuality e) =
      Validator.efficiencyAdjustedComposite e (evidenceQuality e) ↔ CurveAgrees e := by
  cases hf : e.efficiencyFactor with
  | none =>
    refine iff_of_true (efficiencyAdjustedComposite_of_none hf _) ?_
    intro factor hfactor
    rw [hf] at hfactor
    cases hfactor
  | some factor =>
    rw [platformAdjusted_of_factor hs.version hf, validatorAdjusted_of_factor hs.version hf,
      efficiencyCurveVersion_lift]
    have hq := evidenceQuality_mem hs
    by_cases h4 : Validator.efficiencyCurveVersion e ≤ 4
    · rw [if_pos h4]
      refine iff_of_true rfl fun factor _ version hversion h5 => ?_
      have := validatorCurveVersion_of_some hversion
      omega
    · rw [if_neg h4, curveAdjusted_three_eq_iff (by omega) hq.1, evidenceQuality_pos_iff hs,
        evidenceQuality_eq_one_iff hs]
      cases hc : e.efficiencyCurveVersion with
      | none =>
        rw [Validator.efficiencyCurveVersion, hc] at h4
        exact absurd (by norm_num) h4
      | some version =>
        have hversion := validatorCurveVersion_of_some hc
        have h5 : 5 ≤ version := by omega
        simp [CurveAgrees, hf, hc, h5]

/-- The validator's score is positive when the evidence or the factor makes it so. -/
theorem effectiveComposite_pos_iff (hs : ServedRow e) :
    0 < Validator.effectiveComposite e ↔ PositiveEvidence e ∨ RaisingFactor e := by
  have hq := evidenceQuality_mem hs
  rw [Validator.effectiveComposite, qualityComposite_eq hs, ← evidenceQuality_pos_iff hs]
  cases hf : e.efficiencyFactor with
  | none =>
    have hraise : ¬ RaisingFactor e := by simp [RaisingFactor, hf]
    have hm : 0 < Validator.efficiencyMultiplier e := by
      rw [Validator.efficiencyMultiplier, validatorBoundedEfficiencyFactor_of_none hf]
      cases e.efficiencyBonus with
      | none => exact one_pos
      | some bonus =>
        simp only
        split
        · rename_i hb
          linarith [hb.1]
        · exact one_pos
    rw [Validator.efficiencyAdjustedComposite, validatorBoundedEfficiencyFactor_of_none hf]
    simp only [hraise, or_false]
    exact mul_pos_iff_of_pos_right hm
  | some factor =>
    rw [validatorAdjusted_of_factor hs.version hf,
      curveAdjusted_pos_iff (e.efficiencyFactor_pos factor hf) hq.1 hq.2]
    simp [RaisingFactor, hf]

/-- Both sides keep the row exactly under `PoolAgrees`. -/
theorem pool_iff (hs : ServedRow e) :
    (kothEntryFromLedger e ∈ foldPool (kothEntriesFromLedger [e]) ↔ e ∈ Validator.scoredPool [e]) ↔ PoolAgrees e := by
  have hk : kothEntryFromLedger e ∈ foldPool (kothEntriesFromLedger [e]) ↔
      0 < storedComposite e ∧ Validator.duelingFoldReady e = true := by
    have hc : (kothEntryFromLedger e).composite = storedComposite e := rfl
    simp [foldPool, kothEntriesFromLedger, hc]
  have hv : e ∈ Validator.scoredPool [e] ↔
      Validator.duelingFoldReady e = true ∧ (PositiveEvidence e ∨ RaisingFactor e) := by
    rw [← effectiveComposite_pos_iff hs]
    simp [Validator.scoredPool, Validator.filterEligible, Validator.entryEligible, hs.eligible, and_comm]
  rw [hk, hv, PoolAgrees]
  by_cases hr : Validator.duelingFoldReady e = true
  · simp [hr]
  · simp [hr]

/-- The Platform scores a served row as the validator does, and keeps it when the validator does, exactly when its
bundle, its curve and its stored composite are read alike. -/
theorem row_scores_agree_iff (e : LedgerEntry K) (hs : ServedRow e) :
    (continualComposite (kothEntryFromLedger e) = Validator.qualityComposite e ∧
      effectiveComposite (kothEntryFromLedger e) = Validator.effectiveComposite e ∧
      (kothEntryFromLedger e ∈ foldPool (kothEntriesFromLedger [e]) ↔ e ∈ Validator.scoredPool [e])) ↔
      BundleAgrees e ∧ CurveAgrees e ∧ PoolAgrees e := by
  rw [pool_iff hs, effectiveComposite, Validator.effectiveComposite, qualityComposite_eq hs]
  constructor
  · rintro ⟨hquality, heffective, hpool⟩
    rw [hquality] at heffective
    exact ⟨(continualComposite_eq_iff hs).1 hquality, (adjusted_eq_iff hs).1 heffective, hpool⟩
  · rintro ⟨hbundle, hcurve, hpool⟩
    have hquality := (continualComposite_eq_iff hs).2 hbundle
    rw [hquality]
    exact ⟨rfl, (adjusted_eq_iff hs).2 hcurve, hpool⟩

end Agreement

/-! ## A bundle read as waves -/

/-- A quorum score of one half. -/
def halfProof : LedgerScoreProof ℚ where
  composite := 1 / 2
  composite_mem := half_mem ℚ

/-- A bench-12 row with a full quorum of one half and an in-row bundle, without a history. -/
def bundleRow (bundle : Option (List ℚ)) : LedgerEntry ℚ where
  minerHotkey := "miner"
  agentId := 1
  composite := 1 / 2
  n := 100
  firstSeen := 0
  benchVersion := some 12
  scoreProofs := [halfProof, halfProof, halfProof]
  compositeStderr := none
  confirmationComposites := bundle
  confirmationSeeds := none
  confirmationHistory := none
  duelHistory := none
  continualAggregateMethod := some .meanAfterQuorum
  efficiencyBonus := none
  efficiencyFactor := none
  efficiencyCurveVersion := none
  v9Confirmation := none
  duelingSeasonId := none
  dueling := none
  composite_mem := half_mem ℚ
  benchVersion_pos := by simp
  compositeStderr_nonneg := compositeStderr_absent ℚ
  efficiencyBonus_mem := efficiencyBonus_absent ℚ
  efficiencyFactor_pos := efficiencyFactor_absent ℚ
  efficiencyCurveVersion_ge := efficiencyCurveVersion_absent

theorem servedRow_bundleRow {bundle : Option (List ℚ)} (h : ∀ l ∈ bundle, l ≠ [] ∧ ∀ x ∈ l, 0 ≤ x ∧ x ≤ 1) :
    ServedRow (bundleRow bundle) where
  eligible := by simp [bundleRow, Validator.MIN_ELIGIBLE_CASES]
  version := by simp [bundleRow, Validator.entryVersion]
  proofs := by simp [bundleRow]
  receipt := by simp [bundleRow]
  continualOff := by simp [bundleRow]
  bundle := h

/-- A bundle whose mean with the quorum is its median is read alike. -/
theorem row_scores_agree_iff_half :
    ServedRow (bundleRow (some [1 / 2, 1 / 2])) ∧
      continualComposite (kothEntryFromLedger (bundleRow (some [1 / 2, 1 / 2]))) =
        Validator.qualityComposite (bundleRow (some [1 / 2, 1 / 2])) := by
  have hs : ServedRow (bundleRow (some [1 / 2, 1 / 2])) := servedRow_bundleRow (by simp; norm_num)
  refine ⟨hs, ((row_scores_agree_iff _ hs).2 ⟨?_, ?_, ?_⟩).1⟩
  · intro _ bundle hb
    cases hb
    rw [if_pos (by rfl)]
    decide +kernel
  · intro factor hf
    cases hf
  · have hpos : PositiveEvidence (bundleRow (some [1 / 2, 1 / 2])) := by
      unfold PositiveEvidence
      decide +kernel
    exact fun _ => iff_of_true (by decide +kernel) (.inl hpos)

/-- A served row whose two bundled confirmations the Platform averages with the quorum, while the validator takes their
median. -/
theorem bundle_masquerades : ¬ ∀ e : LedgerEntry ℚ, ServedRow e →
    continualComposite (kothEntryFromLedger e) = Validator.qualityComposite e ∧
      effectiveComposite (kothEntryFromLedger e) = Validator.effectiveComposite e ∧
      (kothEntryFromLedger e ∈ foldPool (kothEntriesFromLedger [e]) ↔ e ∈ Validator.scoredPool [e]) := by
  intro h
  have hs : ServedRow (bundleRow (some [9 / 10, 9 / 10])) := servedRow_bundleRow (by simp; norm_num)
  have heq := (h _ hs).1
  revert heq
  decide +kernel

end DittoSubnet.Platform

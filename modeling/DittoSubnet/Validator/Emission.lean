import DittoSubnet.Validator.Fold
import DittoSubnet.Validator.Tracks

/-!
# From track vectors to the submitted vector

The emission half of `ditto/validator/weights.py` as `_update_weights` composes it: an empty track hands its share to
its fallback (`reassignUnclaimedShares`), the vectors are blended by share (`blendTrackWeights`), the provisional
incumbent's share is taken out (`splitUnpaidShare`), and the miners are capped at the share that is paid
(`applyMinerEmissionCap`); everything else goes to the burn hotkey.

* `reassign_spec`: the total of the split is kept, and a track with a positive weight keeps its share.
* `blend_spec`: up to a scale, the blend holds each miner's normalised weight times the share of the track.
* `emission_law`: the submitted vector, hotkey by hotkey.
* `unassigned_share_burns`: the burn also takes the basis points that no paying track holds.
-/

namespace DittoSubnet.Validator

open Kit

variable {K : Type} [ExactArith K]

/-- Whether a track vector carries a strictly positive weight. -/
def hasPositiveWeight (vector : Dict String K) : Bool := vector.any fun hw => 0 < hw.2

/-! ## The functions of the pipeline -/

/-- One hop of the reassignment: the track's own configured share goes to its fallback. -/
def reassignStep (original : Dict String ℤ) (vectors : Dict String (Dict String K)) (fallbacks : Dict String String)
    (resolved : Dict String ℤ) (trackId : String) : Dict String ℤ :=
  match fallbacks.get? trackId with
  | none => resolved
  | some target =>
    if target = trackId ∨ target ∉ original.keys ∨ hasPositiveWeight ((vectors.get? trackId).getD []) then resolved
    else (resolved.add trackId (-original.amount trackId)).add target (original.amount trackId)

/-- Moves the share of an empty track to its declared fallback. -/
def reassignUnclaimedShares (shares : Dict String ℤ) (vectors : Dict String (Dict String K))
    (fallbacks : Dict String String) : Dict String ℤ :=
  let original := shares.positives
  Dict.positives ((sortOn id original.keys).foldl (reassignStep original vectors fallbacks) original)

/-- The paying split after empty tracks hand their share to a fallback. -/
def TrackRegistry.claimedSharesBps (registry : TrackRegistry) (vectors : Dict String (Dict String K)) :
    Dict String ℤ := reassignUnclaimedShares registry.sharesBps vectors registry.fallbacks

/-- The tracks that contribute to the blend. -/
def contributing (vectors : Dict String (Dict String K)) (shares : Dict String ℤ) : Dict String (Dict String K) :=
  vectors.filter fun tv => hasPositiveWeight tv.2 && 0 < shares.amount tv.1

/-- One track's normalised positive weights, scaled by its share. -/
def scaledTrack (shares : Dict String ℤ) (tv : String × Dict String K) : List (String × K) :=
  let positives := tv.2.positives
  let total := positives.total
  if total ≤ 0 then []
  else positives.map fun hw => (hw.1, hw.2 * ((shares.amount tv.1 : K) / (BASIS_POINT_SCALE : K) / total))

/-- Blends the track vectors by share; a single fully allocated track passes through. -/
def blendTrackWeights (vectors : Dict String (Dict String K)) (shares : Dict String ℤ) : Dict String K :=
  let combined := (contributing vectors shares).foldl
    (fun combined tv => Dict.addAll combined (scaledTrack shares tv)) []
  match contributing vectors shares with
  | [] => []
  | [(onlyId, onlyVector)] =>
    if shares.amount onlyId = BASIS_POINT_SCALE then onlyVector.positives else combined
  | _ => combined

/-- The fraction of the pool that non-empty tracks claim. -/
def trackAllocatedShare (shares : Dict String ℤ) (vectors : Dict String (Dict String K)) : K :=
  let allocated : Dict String ℤ := shares.filter fun tb => 0 < tb.2 && hasPositiveWeight ((vectors.get? tb.1).getD [])
  (allocated.total : K) / (BASIS_POINT_SCALE : K)

/-- The payable vector, and the fraction of the positive weight that is payable. -/
def splitUnpaidShare (weights : Dict String K) : Dict String K × K :=
  if UNPAID_SHARE_KEY ∉ weights.keys then (weights, 1)
  else
    let paid : Dict String K := weights.filter fun hw => hw.1 ≠ UNPAID_SHARE_KEY
    let total := weights.positives.total
    if total ≤ 0 then (paid, 0) else (paid, paid.positives.total / total)

/-- Caps the miners at their share and routes the rest to the burn hotkey. -/
def applyMinerEmissionCap (weights : Dict String K) (minerShare : K) (burnHotkey : String) :
    Except String (Dict String K) :=
  if ¬ (0 ≤ minerShare ∧ minerShare ≤ 1) then .error "miner_share must be in [0, 1]"
  else
    let miners : Dict String K := weights.filter fun hw => hw.1 ≠ burnHotkey ∧ 0 < hw.2
    let total := miners.total
    if (total ≤ 0 ∨ minerShare < 1) ∧ burnHotkey = "" then .error "burn_hotkey must be non-empty"
    else if total ≤ 0 then .ok [(burnHotkey, 1)]
    else
      let capped : Dict String K := miners.map fun hw => (hw.1, hw.2 / total * minerShare)
      let burnShare := 1 - minerShare
      .ok (if 0 < burnShare then capped.set burnHotkey burnShare else capped)

/-- Whether the submitted vector will contain the burn hotkey (outside an enforcing treasury fold). -/
def ownerBurnDestinationRequired (weights : Dict String K) (minerShare paidMinerFraction : K) : Bool :=
  if ¬ (0 ≤ minerShare ∧ minerShare ≤ 1) ∨ ¬ (0 ≤ paidMinerFraction ∧ paidMinerFraction ≤ 1) then true
  else
    let paid := if hasPositiveWeight weights then minerShare * paidMinerFraction else 0
    0 < 1 - paid

/-- The configured burn hotkey, else the owner hotkey read from the chain. -/
def resolveBurnHotkey (configBurn ownerHotkey : Option String) : Option String :=
  match configBurn with
  | some burn => some burn
  | none => ownerHotkey

/-- The vector of every track. -/
def TrackRegistry.trackVectors (registry : TrackRegistry) (fold : String → Dict String K) :
    Dict String (Dict String K) := registry.tracks.map fun track => (track.trackId, fold track.trackId)

/-- The emission half of `_update_weights`; nothing when the burn hotkey is needed and cannot be resolved. -/
def updateWeights (registry : TrackRegistry) (fold : String → Dict String K) (minerShare : K)
    (configBurn ownerHotkey : Option String) : Option (Except String (Dict String K)) :=
  let trackVectors := registry.trackVectors fold
  let payingShares := registry.claimedSharesBps trackVectors
  let eligibleVectors := trackVectors.filter fun tv => tv.1 ∈ payingShares.keys
  let (minerWeights, paidFraction) := splitUnpaidShare (blendTrackWeights eligibleVectors payingShares)
  let allocated := trackAllocatedShare payingShares eligibleVectors
  let cap := applyMinerEmissionCap minerWeights (minerShare * allocated * paidFraction)
  if configBurn.isSome || ownerBurnDestinationRequired minerWeights minerShare (allocated * paidFraction) then
    (resolveBurnHotkey configBurn ownerHotkey).map cap
  else some (cap "")

/-! ## Reassignment -/

section Reassign

variable {original : Dict String ℤ} {vectors : Dict String (Dict String K)} {fallbacks : Dict String String}

/-- What the loop keeps while the tracks of `pending` are still to come. -/
structure ReassignInv (original : Dict String ℤ) (vectors : Dict String (Dict String K)) (pending : List String)
    (resolved : Dict String ℤ) : Prop where
  keys_nodup : resolved.keys.Nodup
  keys_subset : ∀ t ∈ resolved.keys, t ∈ original.keys
  total : resolved.total = original.total
  nonneg : ∀ t, 0 ≤ resolved.amount t
  pending : ∀ t ∈ pending, original.amount t ≤ resolved.amount t
  positive : ∀ t, hasPositiveWeight ((vectors.get? t).getD []) = true → original.amount t ≤ resolved.amount t

/-- A step leaves the split alone, or moves the share of an empty track to another track of the split. -/
theorem reassignStep_cases (original : Dict String ℤ) (vectors : Dict String (Dict String K))
    (fallbacks : Dict String String) (resolved : Dict String ℤ) (t : String) :
    reassignStep original vectors fallbacks resolved t = resolved ∨
      ∃ target, target ≠ t ∧ target ∈ original.keys ∧ hasPositiveWeight ((vectors.get? t).getD []) = false ∧
        reassignStep original vectors fallbacks resolved t =
          (resolved.add t (-original.amount t)).add target (original.amount t) := by
  unfold reassignStep
  cases fallbacks.get? t with
  | none => exact .inl rfl
  | some target =>
    by_cases h : target = t ∨ target ∉ original.keys ∨ hasPositiveWeight ((vectors.get? t).getD [])
    · exact .inl (if_pos h)
    · push Not at h
      obtain ⟨hne, hmem, hpos⟩ := h
      refine .inr ⟨target, hne, hmem, by simpa using hpos, if_neg ?_⟩
      push Not
      exact ⟨hne, hmem, hpos⟩

theorem mem_keys_add {d : Dict String ℤ} {k k' : String} {v : ℤ} (h : k' ∈ (d.add k v).keys) :
    k' = k ∨ k' ∈ d.keys := by
  obtain ⟨w, hw⟩ := Dict.mem_keys_iff.1 h
  rw [Dict.add, Dict.get?_set] at hw
  by_cases he : k = k'
  · exact .inl he.symm
  · rw [if_neg he] at hw
    exact .inr (Dict.mem_keys_iff.2 ⟨w, hw⟩)

theorem ReassignInv.step {t : String} {pending : List String} {resolved : Dict String ℤ}
    (horig : ∀ t, 0 ≤ original.amount t) (ht : t ∈ original.keys) (hnew : t ∉ pending)
    (h : ReassignInv original vectors (t :: pending) resolved) :
    ReassignInv original vectors pending (reassignStep original vectors fallbacks resolved t) := by
  rcases reassignStep_cases original vectors fallbacks resolved t with he | ⟨target, hne, hmem, hempty, he⟩
  · rw [he]
    exact ⟨h.keys_nodup, h.keys_subset, h.total, h.nonneg, fun t ht => h.pending t (List.mem_cons_of_mem _ ht),
      h.positive⟩
  rw [he]
  -- what the two additions do to a track other than `t`, and to `t` itself
  have hother : ∀ t', t' ≠ t → resolved.amount t' ≤
      Dict.amount ((resolved.add t (-original.amount t)).add target (original.amount t)) t' := by
    intro t' hne'
    have := horig t
    rw [Dict.amount_add, Dict.amount_add, if_neg fun h => hne' h.symm]
    split <;> omega
  have hself : Dict.amount ((resolved.add t (-original.amount t)).add target (original.amount t)) t =
      resolved.amount t - original.amount t := by
    rw [Dict.amount_add, Dict.amount_add, if_pos rfl, if_neg hne]
    omega
  have hpend := h.pending t List.mem_cons_self
  refine ⟨Dict.keys_add_nodup (Dict.keys_add_nodup h.keys_nodup _ _) _ _, ?_, ?_, ?_, ?_, ?_⟩
  · intro t' ht'
    rcases mem_keys_add ht' with rfl | ht'
    · exact hmem
    · rcases mem_keys_add ht' with rfl | ht'
      · exact ht
      · exact h.keys_subset t' ht'
  · rw [Dict.total_add (Dict.keys_add_nodup h.keys_nodup _ _), Dict.total_add h.keys_nodup, h.total]
    omega
  · intro t'
    by_cases ht' : t' = t
    · rw [ht', hself]
      omega
    · exact (h.nonneg t').trans (hother t' ht')
  · intro t' ht'
    have hne' : t' ≠ t := fun e => hnew (e ▸ ht')
    exact (h.pending t' (List.mem_cons_of_mem _ ht')).trans (hother t' hne')
  · intro t' hpos
    have hne' : t' ≠ t := by
      rintro rfl
      rw [hempty] at hpos
      cases hpos
    exact (h.positive t' hpos).trans (hother t' hne')

theorem ReassignInv.run (fallbacks : Dict String String) (horig : ∀ t, 0 ≤ original.amount t) {pending : List String}
    (hnodup : pending.Nodup) (hmem : ∀ t ∈ pending, t ∈ original.keys) : ∀ {resolved : Dict String ℤ},
    ReassignInv original vectors pending resolved →
    ReassignInv original vectors [] (pending.foldl (reassignStep original vectors fallbacks) resolved) := by
  induction pending with
  | nil => intro resolved h; exact h
  | cons t pending ih =>
    intro resolved h
    rw [List.nodup_cons] at hnodup
    exact ih hnodup.2 (fun t ht => hmem t (List.mem_cons_of_mem _ ht))
      (h.step horig (hmem t List.mem_cons_self) hnodup.1)

/-- The reassigned split: positive shares of tracks of the split with the same total, where a track with a positive
weight has lost nothing. -/
theorem reassign_spec (vectors : Dict String (Dict String K)) (fallbacks : Dict String String) {shares : Dict String ℤ}
    (hnodup : shares.keys.Nodup) (hnonneg : ∀ tb ∈ shares, 0 ≤ tb.2) :
    (reassignUnclaimedShares shares vectors fallbacks).keys.Nodup ∧
      (∀ tb ∈ reassignUnclaimedShares shares vectors fallbacks, 0 < tb.2) ∧
      (∀ t ∈ (reassignUnclaimedShares shares vectors fallbacks).keys, t ∈ shares.keys) ∧
      (reassignUnclaimedShares shares vectors fallbacks).total = shares.total ∧
      ∀ t, hasPositiveWeight ((vectors.get? t).getD []) = true →
        shares.amount t ≤ (reassignUnclaimedShares shares vectors fallbacks).amount t := by
  have horig : ∀ t, 0 ≤ shares.positives.amount t := fun t => by
    rw [Dict.amount_positives hnonneg hnodup]
    exact Dict.amount_nonneg hnonneg t
  have hkeys : shares.positives.keys.Nodup := Dict.keys_filter_nodup hnodup _
  have hstart : ReassignInv shares.positives vectors (sortOn id shares.positives.keys) shares.positives :=
    ⟨hkeys, fun _ h => h, rfl, horig, fun _ _ => le_refl _, fun _ _ => le_refl _⟩
  have hend := hstart.run fallbacks horig ((sortOn_perm _ _).nodup_iff.2 hkeys) fun t ht => mem_sortOn.1 ht
  set resolved := (sortOn id shares.positives.keys).foldl (reassignStep shares.positives vectors fallbacks)
    shares.positives with hresolved
  have hclaimed : reassignUnclaimedShares shares vectors fallbacks = resolved.positives := rfl
  have hvalues : ∀ tb ∈ resolved, 0 ≤ tb.2 := fun tb htb => by
    rw [← Dict.amount_of_mem hend.keys_nodup (show (tb.1, tb.2) ∈ resolved from htb)]
    exact hend.nonneg tb.1
  rw [hclaimed]
  refine ⟨Dict.keys_filter_nodup hend.keys_nodup _, fun tb htb => ?_, fun t ht => ?_, ?_, fun t ht => ?_⟩
  · simpa using (List.mem_filter.1 htb).2
  · have h₁ := hend.keys_subset t ((List.filter_sublist.map Prod.fst).subset ht)
    exact (List.filter_sublist.map Prod.fst).subset h₁
  · rw [Dict.total_positives hvalues, hend.total, Dict.total_positives hnonneg]
  · rw [Dict.amount_positives hvalues hend.keys_nodup, ← Dict.amount_positives hnonneg hnodup]
    exact hend.positive t ht

end Reassign

/-! ## The blend -/

/-- A track vector: one non-negative weight for each key. -/
structure TrackVector (vector : Dict String K) : Prop where
  keys_nodup : vector.keys.Nodup
  nonneg : ∀ hw ∈ vector, 0 ≤ hw.2

/-- The share of the pool that `bps` basis points are. -/
def bpsShare (bps : ℤ) : K := (bps : K) / (BASIS_POINT_SCALE : K)

/-- A key's normalised weight in a vector. -/
def normalized (vector : Dict String K) (hotkey : String) : K := vector.amount hotkey / vector.positives.total

section Blend

variable {vectors : Dict String (Dict String K)} {shares : Dict String ℤ}

theorem bpsShare_pos {bps : ℤ} (h : 0 < bps) : (0 : K) < bpsShare bps := by
  have : (0 : K) < (bps : K) := Int.cast_pos.2 h
  exact div_pos this (by norm_num [BASIS_POINT_SCALE])

theorem positives_pos (vector : Dict String K) : ∀ hw ∈ vector.positives, 0 < hw.2 := by
  intro hw h
  simpa using (List.mem_filter.1 h).2

/-- A vector with a positive weight has a positive total. -/
theorem total_positives_pos {vector : Dict String K} (h : hasPositiveWeight vector = true) :
    0 < vector.positives.total := by
  obtain ⟨hw, hmem, hpos⟩ := List.any_eq_true.1 h
  have hne : vector.positives ≠ [] := List.ne_nil_of_mem (List.mem_filter.2 ⟨hmem, hpos⟩)
  exact Dict.total_pos hne (positives_pos vector)

/-- A track that contributes puts its share into the blend, each key its normalised part of it. -/
theorem scaledTrack_spec {tv : String × Dict String K} (hv : TrackVector tv.2) (hpos : hasPositiveWeight tv.2 = true)
    (hshare : 0 < shares.amount tv.1) :
    (∀ hw ∈ scaledTrack shares tv, 0 < hw.2) ∧
      (∀ h, ((scaledTrack shares tv).map fun hw => if hw.1 = h then hw.2 else 0).sum =
        bpsShare (shares.amount tv.1) * normalized tv.2 h) ∧
      ((scaledTrack shares tv).map Prod.snd).sum = bpsShare (shares.amount tv.1) := by
  have htotal := total_positives_pos hpos
  have hs : (0 : K) < bpsShare (shares.amount tv.1) := bpsShare_pos hshare
  have hscaled : scaledTrack shares tv = tv.2.positives.map fun hw =>
      (hw.1, hw.2 * (bpsShare (shares.amount tv.1) / tv.2.positives.total)) := by
    simp only [scaledTrack, if_neg (not_le.2 htotal)]
    rfl
  rw [hscaled]
  refine ⟨fun hw hmem => ?_, fun h => ?_, ?_⟩
  · obtain ⟨hw', hmem', rfl⟩ := List.mem_map.1 hmem
    exact mul_pos (positives_pos tv.2 hw' hmem') (div_pos hs htotal)
  · have hk : (Dict.keys (tv.2.positives.map fun hw =>
        (hw.1, hw.2 * (bpsShare (shares.amount tv.1) / tv.2.positives.total)))).Nodup := by
      rw [Dict.keys_map tv.2.positives fun _ w => w * (bpsShare (shares.amount tv.1) / tv.2.positives.total)]
      exact Dict.keys_filter_nodup hv.keys_nodup _
    rw [Dict.sum_ite_eq_amount hk,
      Dict.amount_map_value (fun w => w * (bpsShare (shares.amount tv.1) / tv.2.positives.total)) (zero_mul _),
      Dict.amount_positives hv.nonneg hv.keys_nodup, normalized]
    ring
  · show Dict.total (tv.2.positives.map fun hw =>
      (hw.1, hw.2 * (bpsShare (shares.amount tv.1) / tv.2.positives.total))) = _
    rw [Dict.total_map_mul, mul_div_cancel₀ _ htotal.ne']

/-- The blend of all contributing tracks, one after the other. -/
theorem combined_spec : ∀ (tracks : Dict String (Dict String K)) {combined : Dict String K},
    (∀ tv ∈ tracks, TrackVector tv.2 ∧ hasPositiveWeight tv.2 = true ∧ 0 < shares.amount tv.1) →
    combined.keys.Nodup → (∀ hw ∈ combined, 0 < hw.2) →
    (tracks.foldl (fun combined tv => Dict.addAll combined (scaledTrack shares tv)) combined).keys.Nodup ∧
      (∀ hw ∈ tracks.foldl (fun combined tv => Dict.addAll combined (scaledTrack shares tv)) combined, 0 < hw.2) ∧
      (∀ h, Dict.amount (tracks.foldl (fun combined tv => Dict.addAll combined (scaledTrack shares tv)) combined) h =
        combined.amount h + (tracks.map fun tv => bpsShare (shares.amount tv.1) * normalized tv.2 h).sum) ∧
      Dict.total (tracks.foldl (fun combined tv => Dict.addAll combined (scaledTrack shares tv)) combined) =
        combined.total + (tracks.map fun tv => bpsShare (shares.amount tv.1)).sum
  | [], _, _, hk, hp => ⟨hk, hp, fun h => by simp, by simp⟩
  | tv :: tracks, combined, htracks, hk, hp => by
    obtain ⟨hv, hpos, hshare⟩ := htracks tv List.mem_cons_self
    obtain ⟨hvalues, hamount, htotal⟩ := scaledTrack_spec hv hpos hshare
    have hrest := combined_spec tracks (fun tv h => htracks tv (List.mem_cons_of_mem _ h))
      (Dict.keys_addAll_nodup (scaledTrack shares tv) hk) (Dict.addAll_pos _ hvalues hk hp)
    rw [List.foldl_cons]
    refine ⟨hrest.1, hrest.2.1, fun h => ?_, ?_⟩
    · rw [hrest.2.2.1 h, Dict.amount_addAll, hamount, List.map_cons, List.sum_cons, add_assoc]
    · rw [hrest.2.2.2, Dict.total_addAll _ hk, htotal, List.map_cons, List.sum_cons, add_assoc]

/-- Up to a scale, the blend holds each key's normalised weight times the share of the track. -/
theorem blend_spec (shares : Dict String ℤ) (hvectors : ∀ tv ∈ vectors, TrackVector tv.2) :
    (blendTrackWeights vectors shares).keys.Nodup ∧ (∀ hw ∈ blendTrackWeights vectors shares, 0 < hw.2) ∧
      ∃ scale : K, 0 < scale ∧
        (∀ h, (blendTrackWeights vectors shares).amount h = scale *
          ((contributing vectors shares).map fun tv => bpsShare (shares.amount tv.1) * normalized tv.2 h).sum) ∧
        (blendTrackWeights vectors shares).total =
          scale * ((contributing vectors shares).map fun tv => bpsShare (shares.amount tv.1)).sum := by
  have hcontrib : ∀ tv ∈ contributing vectors shares,
      TrackVector tv.2 ∧ hasPositiveWeight tv.2 = true ∧ 0 < shares.amount tv.1 := by
    intro tv htv
    obtain ⟨hmem, hcond⟩ := List.mem_filter.1 htv
    rw [Bool.and_eq_true, decide_eq_true_eq] at hcond
    exact ⟨hvectors tv hmem, hcond⟩
  have hcombined := @combined_spec K _ shares (contributing vectors shares) [] hcontrib List.nodup_nil (by simp)
  have hsum : blendTrackWeights vectors shares = (contributing vectors shares).foldl
      (fun combined tv => Dict.addAll combined (scaledTrack shares tv)) [] ∨
      ∃ tv, contributing vectors shares = [tv] ∧ shares.amount tv.1 = BASIS_POINT_SCALE ∧
        blendTrackWeights vectors shares = tv.2.positives := by
    unfold blendTrackWeights
    cases hc : contributing vectors shares with
    | nil => exact .inl rfl
    | cons tv rest =>
      cases rest with
      | nil =>
        by_cases hfull : shares.amount tv.1 = BASIS_POINT_SCALE
        · exact .inr ⟨tv, rfl, hfull, by simp [hfull]⟩
        · exact .inl (by simp [hfull])
      | cons tv' rest => exact .inl rfl
  rcases hsum with heq | ⟨tv, hc, hfull, heq⟩
  · rw [heq]
    refine ⟨hcombined.1, hcombined.2.1, 1, one_pos, fun h => ?_, ?_⟩
    · rw [hcombined.2.2.1 h, Dict.amount_nil, zero_add, one_mul]
    · rw [hcombined.2.2.2, Dict.total_nil, zero_add, one_mul]
  · -- a single full track passes through unscaled
    obtain ⟨hv, hpos, hshare⟩ := hcontrib tv (by rw [hc]; exact List.mem_singleton_self tv)
    have htotal := total_positives_pos hpos
    have hone : (bpsShare (shares.amount tv.1) : K) = 1 := by
      rw [hfull, bpsShare, div_self]
      norm_num [BASIS_POINT_SCALE]
    rw [heq, hc]
    refine ⟨Dict.keys_filter_nodup hv.keys_nodup _, positives_pos tv.2, tv.2.positives.total, htotal, fun h => ?_, ?_⟩
    · rw [List.map_singleton, List.sum_singleton, hone, one_mul, normalized, mul_div_cancel₀ _ htotal.ne',
        Dict.amount_positives hv.nonneg hv.keys_nodup]
    · rw [List.map_singleton, List.sum_singleton, hone, mul_one]

end Blend

/-! ## The unpaid share and the cap -/

section Cap

variable {weights : Dict String K}

/-- The unpaid share leaves the vector, and the fraction says how much of the total stays. -/
theorem splitUnpaidShare_spec (hk : weights.keys.Nodup) (hpos : ∀ hw ∈ weights, 0 < hw.2) :
    (splitUnpaidShare weights).1 = weights.filter (fun hw => decide (hw.1 ≠ UNPAID_SHARE_KEY)) ∧
      weights.total * (splitUnpaidShare weights).2 = (splitUnpaidShare weights).1.total ∧
      0 ≤ (splitUnpaidShare weights).2 ∧ (splitUnpaidShare weights).2 ≤ 1 := by
  have hself : ∀ {d : Dict String K}, (∀ hw ∈ d, 0 < hw.2) → d.positives = d := fun h =>
    List.filter_eq_self.2 fun hw hmem => decide_eq_true (h hw hmem)
  unfold splitUnpaidShare
  by_cases hun : UNPAID_SHARE_KEY ∉ weights.keys
  · rw [if_pos hun]
    have hfilter : weights.filter (fun hw => decide (hw.1 ≠ UNPAID_SHARE_KEY)) = weights := by
      refine List.filter_eq_self.2 fun hw hmem => decide_eq_true fun h => hun ?_
      exact h ▸ List.mem_map_of_mem hmem
    exact ⟨hfilter.symm, mul_one _, zero_le_one, le_refl 1⟩
  · have hne : weights ≠ [] := by
      rintro rfl
      exact hun (by simp [Dict.keys])
    have htotal := Dict.total_pos hne hpos
    have hpaid : ∀ hw ∈ weights.filter (fun hw => decide (hw.1 ≠ UNPAID_SHARE_KEY)), 0 < hw.2 :=
      fun hw hmem => hpos hw (List.mem_of_mem_filter hmem)
    have herase := Dict.total_erase hk UNPAID_SHARE_KEY
    have hamount := Dict.amount_nonneg (fun hw h => (hpos hw h).le) UNPAID_SHARE_KEY
    have hpaid0 := Dict.total_nonneg fun hw h => (hpaid hw h).le
    rw [if_neg hun]
    simp only [hself hpos, hself hpaid, if_neg (not_le.2 htotal)]
    refine ⟨trivial, mul_div_cancel₀ _ htotal.ne', div_nonneg hpaid0 htotal.le, (div_le_one htotal).2 ?_⟩
    linarith

/-- The capped vector: each miner's part of the share, and the rest for the burn hotkey. -/
theorem applyMinerEmissionCap_spec (hk : weights.keys.Nodup) (hpos : ∀ hw ∈ weights, 0 < hw.2) {share : K}
    (h0 : 0 ≤ share) (h1 : share ≤ 1) (hidle : weights.total = 0 → share = 0) {burn : String}
    (hburn : burn ∉ weights.keys) (hempty : burn = "" → 0 < weights.total ∧ share = 1) :
    ∃ v, applyMinerEmissionCap weights share burn = .ok v ∧ v.keys.Nodup ∧ (∀ hw ∈ v, 0 ≤ hw.2) ∧ v.total = 1 ∧
      (∀ h, h ≠ burn → v.amount h = weights.amount h / weights.total * share) ∧ v.amount burn = 1 - share := by
  have hminers : weights.filter (fun hw => decide (hw.1 ≠ burn ∧ 0 < hw.2)) = weights := by
    refine List.filter_eq_self.2 fun hw hmem => decide_eq_true ⟨fun h => hburn ?_, hpos hw hmem⟩
    exact h ▸ List.mem_map_of_mem hmem
  have hnonneg := Dict.total_nonneg fun hw h => (hpos hw h).le
  unfold applyMinerEmissionCap
  rw [if_neg (not_not.2 ⟨h0, h1⟩)]
  simp only [hminers]
  have hnoerr : ¬ ((weights.total ≤ 0 ∨ share < 1) ∧ burn = "") := by
    rintro ⟨h, he⟩
    obtain ⟨ht, hs⟩ := hempty he
    rcases h with h | h
    · exact absurd ht (not_lt.2 h)
    · exact absurd hs h.ne
  rw [if_neg hnoerr]
  rcases hnonneg.eq_or_lt with htotal | htotal
  · -- an empty pool: everything burns
    have hnil : weights = [] := by
      by_contra hne
      exact absurd (Dict.total_pos hne hpos) (by rw [← htotal]; exact lt_irrefl _)
    have hs := hidle htotal.symm
    refine ⟨[(burn, 1)], by rw [if_pos htotal.symm.le], by simp [Dict.keys], by simp, by simp, fun h hne => ?_, ?_⟩
    · rw [hs, mul_zero, Dict.amount_cons, if_neg fun e => hne e.symm, Dict.amount_nil]
    · rw [Dict.amount_cons, if_pos rfl, hs, sub_zero]
  · rw [if_neg (not_le.2 htotal)]
    set capped : Dict String K := weights.map fun hw => (hw.1, hw.2 / weights.total * share) with hcapped
    have hckeys : capped.keys = weights.keys := Dict.keys_map weights fun _ w => w / weights.total * share
    have hcamount : ∀ h, capped.amount h = weights.amount h / weights.total * share := fun h =>
      Dict.amount_map_value (fun w => w / weights.total * share) (by simp) weights h
    have hctotal : capped.total = share := by
      have hmul : capped = weights.map fun hw => (hw.1, hw.2 * (share / weights.total)) := by
        rw [hcapped]
        refine List.map_congr_left fun hw _ => ?_
        rw [div_mul_eq_mul_div, mul_div_assoc]
      rw [hmul, Dict.total_map_mul, mul_div_cancel₀ _ htotal.ne']
    have hcnonneg : ∀ hw ∈ capped, 0 ≤ hw.2 := by
      intro hw hmem
      obtain ⟨hw', hmem', rfl⟩ := List.mem_map.1 hmem
      exact mul_nonneg (div_nonneg (hpos hw' hmem').le htotal.le) h0
    have hcburn : burn ∉ capped.keys := hckeys ▸ hburn
    rcases h1.eq_or_lt with hone | hlt
    · rw [if_neg (by rw [hone, sub_self]; exact lt_irrefl 0)]
      refine ⟨capped, rfl, hckeys ▸ hk, hcnonneg, hctotal.trans hone, fun h _ => hcamount h, ?_⟩
      rw [Dict.amount_of_not_mem hcburn, hone, sub_self]
    · rw [if_pos (sub_pos.2 hlt)]
      have hset : capped.set burn (1 - share) = capped ++ [(burn, 1 - share)] := Dict.set_of_not_mem hcburn _
      refine ⟨_, rfl, Dict.keys_set_nodup (hckeys ▸ hk) _ _, ?_, ?_, fun h hne => ?_, ?_⟩
      · intro hw hmem
        rw [hset, List.mem_append, List.mem_singleton] at hmem
        rcases hmem with hmem | rfl
        · exact hcnonneg hw hmem
        · exact (sub_pos.2 hlt).le
      · rw [hset, Dict.total_append, hctotal]
        simp
      · rw [Dict.amount_set, if_neg fun e => hne e.symm, hcamount]
      · rw [Dict.amount_set, if_pos rfl]

end Cap

/-! ## The split of a registry -/

section Law

variable {registry : TrackRegistry} {fold : String → Dict String K}

/-- The split that a registry pays, after empty tracks handed over their share. -/
def claimedBps (registry : TrackRegistry) (fold : String → Dict String K) : Dict String ℤ :=
  registry.claimedSharesBps (registry.trackVectors fold)

/-- The claimed tracks with a positive weight. -/
def payingTracks (registry : TrackRegistry) (fold : String → Dict String K) : Dict String ℤ :=
  (claimedBps registry fold).filter fun tb => hasPositiveWeight (fold tb.1)

/-- The part of the pool that a key holds over all tracks. -/
def trackedShare (registry : TrackRegistry) (fold : String → Dict String K) (hotkey : String) : K :=
  ((claimedBps registry fold).map fun tb => bpsShare tb.2 * normalized (fold tb.1) hotkey).sum

/-- The part of the pool that belongs to tracks which end unclaimed. -/
def unclaimedShare (registry : TrackRegistry) (fold : String → Dict String K) : K :=
  bpsShare (Dict.total ((claimedBps registry fold).filter fun tb => !hasPositiveWeight (fold tb.1)))

/-- The part of the pool that no paying track holds. -/
def unassignedShare (registry : TrackRegistry) : K := 1 - bpsShare registry.sharesBps.total

omit [ExactArith K] in
theorem keys_trackVectors (registry : TrackRegistry) (fold : String → Dict String K) :
    (registry.trackVectors fold).keys = registry.tracks.map (·.trackId) := by
  simp [TrackRegistry.trackVectors, Dict.keys, Function.comp_def]

omit [ExactArith K] in
theorem get?_trackVectors (fold : String → Dict String K) {t : String} (ht : t ∈ registry.tracks.map (·.trackId)) :
    (registry.trackVectors fold).get? t = some (fold t) := by
  have hnodup : (registry.trackVectors fold).keys.Nodup := by
    rw [keys_trackVectors]
    exact registry.nodup
  obtain ⟨track, htrack, rfl⟩ := List.mem_map.1 ht
  exact Dict.get?_of_mem hnodup (List.mem_map.2 ⟨track, htrack, rfl⟩)

/-- What is claimed: positive shares of registered tracks with the total of the configured split, where a track with a
positive weight has at least its own share. -/
theorem claimedBps_spec (registry : TrackRegistry) (fold : String → Dict String K) :
    (claimedBps registry fold).keys.Nodup ∧ (∀ tb ∈ claimedBps registry fold, 0 < tb.2) ∧
      (∀ t ∈ (claimedBps registry fold).keys, t ∈ registry.tracks.map (·.trackId)) ∧
      (claimedBps registry fold).total = registry.sharesBps.total ∧
      ∀ t, hasPositiveWeight (fold t) = true → registry.sharesBps.amount t ≤ (claimedBps registry fold).amount t := by
  obtain ⟨hnodup, hpos, hkeys, htotal, hkept⟩ := reassign_spec (registry.trackVectors fold) registry.fallbacks
    registry.keys_sharesBps_nodup registry.sharesBps_nonneg
  refine ⟨hnodup, hpos, fun t ht => TrackRegistry.mem_tracks_of_mem_sharesBps (hkeys t ht), htotal, fun t ht => ?_⟩
  by_cases hmem : t ∈ registry.sharesBps.keys
  · refine hkept t ?_
    rw [get?_trackVectors fold (TrackRegistry.mem_tracks_of_mem_sharesBps hmem)]
    exact ht
  · rw [Dict.amount_of_not_mem hmem]
    exact Dict.amount_nonneg (fun tb h => (hpos tb h).le) t

/-- The vectors of the claimed tracks. -/
def eligibleVectors (registry : TrackRegistry) (fold : String → Dict String K) : Dict String (Dict String K) :=
  (registry.trackVectors fold).filter fun tv => tv.1 ∈ (claimedBps registry fold).keys

theorem mem_eligibleVectors {tv : String × Dict String K} :
    tv ∈ eligibleVectors registry fold ↔ tv.1 ∈ (claimedBps registry fold).keys ∧ tv.2 = fold tv.1 := by
  unfold eligibleVectors
  rw [List.mem_filter, decide_eq_true_eq, and_comm]
  refine and_congr_right fun ht => ⟨fun hmem => ?_, fun htv => ?_⟩
  · obtain ⟨track, -, rfl⟩ := List.mem_map.1 hmem
    rfl
  · have hg := get?_trackVectors fold ((claimedBps_spec registry fold).2.2.1 _ ht)
    rw [← htv] at hg
    exact Dict.mem_of_get? hg

theorem keys_eligibleVectors_nodup : (eligibleVectors registry fold).keys.Nodup := by
  refine Dict.keys_filter_nodup ?_ _
  rw [keys_trackVectors]
  exact registry.nodup

theorem get?_eligibleVectors {t : String} (ht : t ∈ (claimedBps registry fold).keys) :
    (eligibleVectors registry fold).get? t = some (fold t) :=
  Dict.get?_of_mem keys_eligibleVectors_nodup (mem_eligibleVectors.2 ⟨ht, rfl⟩)

/-- A sum over the contributing tracks is a sum over the paying tracks. -/
theorem sum_contributing (f : String → ℤ → K) :
    ((contributing (eligibleVectors registry fold) (claimedBps registry fold)).map fun tv =>
      f tv.1 ((claimedBps registry fold).amount tv.1)).sum =
      ((payingTracks registry fold).map fun tb => f tb.1 tb.2).sum := by
  obtain ⟨hnodup, hpos, -⟩ := claimedBps_spec registry fold
  have hleft : ((contributing (eligibleVectors registry fold) (claimedBps registry fold)).map fun tv =>
      f tv.1 ((claimedBps registry fold).amount tv.1)) =
      (contributing (eligibleVectors registry fold) (claimedBps registry fold)).keys.map fun t =>
        f t ((claimedBps registry fold).amount t) := by simp [Dict.keys, Function.comp_def]
  have hright : ((payingTracks registry fold).map fun tb => f tb.1 tb.2) =
      (payingTracks registry fold).keys.map fun t => f t ((claimedBps registry fold).amount t) := by
    rw [Dict.keys, List.map_map]
    refine List.map_congr_left fun tb htb => ?_
    rw [Function.comp_apply, Dict.amount_of_mem hnodup (List.mem_of_mem_filter htb)]
  rw [hleft, hright]
  refine (List.Perm.map _ ?_).sum_eq
  refine (List.perm_ext_iff_of_nodup (Dict.keys_filter_nodup keys_eligibleVectors_nodup _)
    (Dict.keys_filter_nodup hnodup _)).2 fun t => ?_
  constructor
  · intro ht
    obtain ⟨tv, htv, rfl⟩ := List.mem_map.1 ht
    obtain ⟨hmem, hcond⟩ := List.mem_filter.1 htv
    obtain ⟨hclaimed, hvector⟩ := mem_eligibleVectors.1 hmem
    obtain ⟨tb, htb, hid⟩ := List.mem_map.1 hclaimed
    rw [Bool.and_eq_true, hvector, ← hid] at hcond
    exact List.mem_map.2 ⟨tb, List.mem_filter.2 ⟨htb, hcond.1⟩, hid⟩
  · intro ht
    obtain ⟨tb, htb, rfl⟩ := List.mem_map.1 ht
    obtain ⟨hmem, hcond⟩ := List.mem_filter.1 htb
    refine List.mem_map.2 ⟨(tb.1, fold tb.1),
      List.mem_filter.2 ⟨mem_eligibleVectors.2 ⟨List.mem_map_of_mem hmem, rfl⟩, ?_⟩, rfl⟩
    rw [Bool.and_eq_true, decide_eq_true_eq, Dict.amount_of_mem hnodup (show (tb.1, tb.2) ∈ _ from hmem)]
    exact ⟨hcond, hpos tb hmem⟩

theorem normalized_of_empty {vector : Dict String K} (h : hasPositiveWeight vector = false) (hotkey : String) :
    normalized vector hotkey = 0 := by
  have hnil : vector.positives = [] := by
    refine List.filter_eq_nil_iff.2 fun hw hmem hpos => ?_
    have : hasPositiveWeight vector = true := List.any_eq_true.2 ⟨hw, hmem, hpos⟩
    rw [h] at this
    cases this
  rw [normalized, hnil, Dict.total_nil, div_zero]

/-- Empty tracks give a key nothing. -/
theorem sum_payingTracks (hotkey : String) :
    ((payingTracks registry fold).map fun tb => bpsShare tb.2 * normalized (fold tb.1) hotkey).sum =
      trackedShare registry fold hotkey := by
  unfold payingTracks trackedShare
  induction claimedBps registry fold with
  | nil => rfl
  | cons tb rest ih =>
    cases hpos : hasPositiveWeight (fold tb.1) with
    | true => rw [List.filter_cons_of_pos (by simp [hpos]), List.map_cons, List.map_cons, List.sum_cons, List.sum_cons,
      ih]
    | false =>
      rw [List.filter_cons_of_neg (by simp [hpos]), ih, List.map_cons, List.sum_cons, normalized_of_empty hpos,
        mul_zero, zero_add]

theorem bpsShare_add (a b : ℤ) : (bpsShare (a + b) : K) = bpsShare a + bpsShare b := by
  unfold bpsShare
  push_cast
  ring

theorem sum_bpsShare (d : Dict String ℤ) : (d.map fun tb => (bpsShare tb.2 : K)).sum = bpsShare d.total := by
  induction d with
  | nil => simp [bpsShare]
  | cons tb d ih => rw [List.map_cons, List.sum_cons, ih, Dict.total_cons, bpsShare_add]

/-- The claimed basis points belong to paying tracks and to tracks that end unclaimed. -/
theorem paying_add_unclaimed (registry : TrackRegistry) (fold : String → Dict String K) :
    bpsShare (payingTracks registry fold).total + unclaimedShare registry fold =
    (bpsShare registry.sharesBps.total : K) := by
  rw [← (claimedBps_spec registry fold).2.2.2.1, unclaimedShare, ← bpsShare_add]
  congr 1
  unfold payingTracks
  induction claimedBps registry fold with
  | nil => rfl
  | cons tb rest ih =>
    cases hpos : hasPositiveWeight (fold tb.1) with
    | true =>
      rw [List.filter_cons_of_pos (by simp [hpos]), List.filter_cons_of_neg (by simp [hpos]), Dict.total_cons,
        Dict.total_cons, add_assoc, ih]
    | false =>
      rw [List.filter_cons_of_neg (by simp [hpos]), List.filter_cons_of_pos (by simp [hpos]), Dict.total_cons,
        Dict.total_cons, add_left_comm, ih]

theorem trackAllocatedShare_eq (registry : TrackRegistry) (fold : String → Dict String K) :
    trackAllocatedShare (claimedBps registry fold) (eligibleVectors registry fold) =
    (bpsShare (payingTracks registry fold).total : K) := by
  have hfilter : (claimedBps registry fold).filter (fun tb =>
      decide (0 < tb.2) && hasPositiveWeight (((eligibleVectors registry fold).get? tb.1).getD [])) =
      payingTracks registry fold := by
    refine List.filter_congr fun tb htb => ?_
    rw [get?_eligibleVectors (List.mem_map_of_mem htb), decide_eq_true ((claimedBps_spec registry fold).2.1 tb htb)]
    rfl
  simp only [trackAllocatedShare, hfilter]
  rfl

theorem payingTracks_share_mem (registry : TrackRegistry) (fold : String → Dict String K) :
    (0 : K) ≤ bpsShare (payingTracks registry fold).total ∧
    (bpsShare (payingTracks registry fold).total : K) ≤ bpsShare registry.sharesBps.total := by
  have hpos := (claimedBps_spec registry fold).2.1
  have hnonneg : ∀ {d : Dict String ℤ}, (∀ tb ∈ d, 0 < tb.2) → (0 : K) ≤ bpsShare d.total := by
    intro d hd
    have : (0 : K) ≤ (d.total : K) := Int.cast_nonneg (Dict.total_nonneg fun tb h => (hd tb h).le)
    exact div_nonneg this (by norm_num [BASIS_POINT_SCALE])
  have h₁ : (0 : K) ≤ bpsShare (payingTracks registry fold).total :=
    hnonneg fun tb h => hpos tb (List.mem_of_mem_filter h)
  have h₂ : 0 ≤ unclaimedShare registry fold := hnonneg fun tb h => hpos tb (List.mem_of_mem_filter h)
  have h₃ := paying_add_unclaimed registry fold
  exact ⟨h₁, by linarith⟩

theorem bpsShare_sharesBps_le (registry : TrackRegistry) : (bpsShare registry.sharesBps.total : K) ≤ 1 := by
  have h : (registry.sharesBps.total : K) ≤ (BASIS_POINT_SCALE : K) := by exact_mod_cast registry.total_sharesBps_le
  exact (div_le_one (by norm_num [BASIS_POINT_SCALE])).2 h

/-- The keys of a vector of positive weights are those with a positive amount. -/
theorem not_mem_keys_of_amount {d : Dict String K} (hk : d.keys.Nodup) (hpos : ∀ hw ∈ d, 0 < hw.2) {k : String}
    (h : d.amount k = 0) : k ∉ d.keys := by
  intro hmem
  obtain ⟨hw, hw_mem, rfl⟩ := List.mem_map.1 hmem
  have := Dict.amount_of_mem hk (show (hw.1, hw.2) ∈ d from hw_mem)
  exact absurd (hpos hw hw_mem) (by rw [← this, h]; exact lt_irrefl 0)

/-- The blend of a registry: each key its part of the pool, up to a scale. -/
theorem blend_registry (registry : TrackRegistry) (hfold : ∀ t, TrackVector (fold t)) :
    (blendTrackWeights (eligibleVectors registry fold) (claimedBps registry fold)).keys.Nodup ∧
      (∀ hw ∈ blendTrackWeights (eligibleVectors registry fold) (claimedBps registry fold), 0 < hw.2) ∧
      ∃ scale : K, 0 < scale ∧
        (∀ h, (blendTrackWeights (eligibleVectors registry fold) (claimedBps registry fold)).amount h =
          scale * trackedShare registry fold h) ∧
        (blendTrackWeights (eligibleVectors registry fold) (claimedBps registry fold)).total =
          scale * bpsShare (payingTracks registry fold).total := by
  have hvectors : ∀ tv ∈ eligibleVectors registry fold, TrackVector tv.2 := fun tv htv => by
    rw [(mem_eligibleVectors.1 htv).2]
    exact hfold tv.1
  obtain ⟨hk, hpos, scale, hscale, hamount, htotal⟩ := blend_spec (claimedBps registry fold) hvectors
  refine ⟨hk, hpos, scale, hscale, fun h => ?_, ?_⟩
  · rw [hamount h, ← sum_payingTracks, ← sum_contributing fun t b => bpsShare b * normalized (fold t) h]
    congr 2
    refine List.map_congr_left fun tv htv => ?_
    rw [(mem_eligibleVectors.1 (List.mem_of_mem_filter htv)).2]
  · rw [htotal, ← sum_bpsShare, ← sum_contributing fun _ b => bpsShare b]

/-- The submitted vector before the cap: the payable weights, and the part of the pool that is paid. -/
def paidPool (registry : TrackRegistry) (fold : String → Dict String K) : Dict String K × K :=
  let split := splitUnpaidShare (blendTrackWeights (eligibleVectors registry fold) (claimedBps registry fold))
  (split.1, trackAllocatedShare (claimedBps registry fold) (eligibleVectors registry fold) * split.2)

/-- The payable weights are the miners' parts of the pool, up to a scale, and the paid part is what the paying tracks
hold without the unpaid share. -/
theorem paidPool_spec (registry : TrackRegistry) (hfold : ∀ t, TrackVector (fold t)) :
    (paidPool registry fold).1.keys.Nodup ∧ (∀ hw ∈ (paidPool registry fold).1, 0 < hw.2) ∧
      0 ≤ (paidPool registry fold).2 ∧ (paidPool registry fold).2 ≤ 1 ∧
      (paidPool registry fold).2 =
        bpsShare (payingTracks registry fold).total - trackedShare registry fold UNPAID_SHARE_KEY ∧
      ∃ scale : K, 0 < scale ∧ (paidPool registry fold).1.total = scale * (paidPool registry fold).2 ∧
        ∀ h, (paidPool registry fold).1.amount h =
          if h = UNPAID_SHARE_KEY then 0 else scale * trackedShare registry fold h := by
  obtain ⟨hk, hpos, scale, hscale, hamount, htotal⟩ := blend_registry registry hfold
  obtain ⟨hpaid, hfraction, hf0, hf1⟩ := splitUnpaidShare_spec hk hpos
  set blend := blendTrackWeights (eligibleVectors registry fold) (claimedBps registry fold) with hblend
  have hpool : paidPool registry fold =
      ((splitUnpaidShare blend).1, bpsShare (payingTracks registry fold).total * (splitUnpaidShare blend).2) := by
    rw [paidPool, trackAllocatedShare_eq]
  rw [hpool]
  obtain ⟨hle0, hle⟩ := payingTracks_share_mem registry fold
  have hcap : (bpsShare registry.sharesBps.total : K) ≤ 1 := bpsShare_sharesBps_le registry
  have hpart : scale * (bpsShare (payingTracks registry fold).total * (splitUnpaidShare blend).2) =
      (splitUnpaidShare blend).1.total := by rw [← mul_assoc, ← htotal, hfraction]
  have herase : (splitUnpaidShare blend).1.total + blend.amount UNPAID_SHARE_KEY = blend.total := by
    rw [hpaid]
    exact Dict.total_erase hk UNPAID_SHARE_KEY
  refine ⟨?_, fun hw h => ?_, mul_nonneg hle0 hf0, mul_le_one₀ (hle.trans hcap) hf0 hf1, ?_, scale, hscale, hpart.symm,
    fun h => ?_⟩
  · rw [hpaid]
    exact Dict.keys_filter_nodup hk _
  · rw [hpaid] at h
    exact hpos hw (List.mem_of_mem_filter h)
  · refine mul_left_cancel₀ hscale.ne' ?_
    rw [hpart, mul_sub, ← htotal, ← hamount]
    linarith
  · rw [hpaid, Dict.amount_filter_key fun k => decide (k ≠ UNPAID_SHARE_KEY), hamount]
    by_cases hun : h = UNPAID_SHARE_KEY
    · rw [if_pos hun, if_neg (by simpa using hun)]
    · rw [if_neg hun, if_pos (decide_eq_true hun)]

/-- The hotkeys that a track may pay: not the burn hotkey and not the empty one. -/
def PaysMiners (burn : String) (fold : String → Dict String K) : Prop :=
  ∀ t, burn ∉ (fold t).keys ∧ "" ∉ (fold t).keys

theorem trackedShare_of_not_mem (registry : TrackRegistry) {k : String} (hk : ∀ t, k ∉ (fold t).keys) :
    trackedShare registry fold k = 0 := by
  refine List.sum_eq_zero fun x hx => ?_
  obtain ⟨tb, -, rfl⟩ := List.mem_map.1 hx
  rw [normalized, Dict.amount_of_not_mem (hk tb.1), zero_div, mul_zero]

/-- A key that no track pays is not among the payable weights. -/
theorem not_mem_paidPool (registry : TrackRegistry) (hfold : ∀ t, TrackVector (fold t)) {k : String}
    (hk : ∀ t, k ∉ (fold t).keys) : k ∉ (paidPool registry fold).1.keys := by
  obtain ⟨hnodup, hpos, -, -, -, scale, -, -, hamount⟩ := paidPool_spec registry hfold
  refine not_mem_keys_of_amount hnodup hpos ?_
  rw [hamount, trackedShare_of_not_mem registry hk, mul_zero, ite_self]

/-- Capping the payable weights at the paid part gives each miner its part of the pool. -/
theorem paidPool_capped (registry : TrackRegistry) (hfold : ∀ t, TrackVector (fold t)) {minerShare : K}
    (h0 : 0 ≤ minerShare) (h1 : minerShare ≤ 1) {burn : String} (hburn : ∀ t, burn ∉ (fold t).keys)
    (hempty : burn = "" → hasPositiveWeight (paidPool registry fold).1 = true ∧
      minerShare * (paidPool registry fold).2 = 1) :
    ∃ v, applyMinerEmissionCap (paidPool registry fold).1 (minerShare * (paidPool registry fold).2) burn = .ok v ∧
      v.keys.Nodup ∧ (∀ hw ∈ v, 0 ≤ hw.2) ∧ v.total = 1 ∧
      (∀ h, h ≠ burn → v.amount h =
        if h = UNPAID_SHARE_KEY then 0 else minerShare * trackedShare registry fold h) ∧
      v.amount burn = 1 - minerShare * (paidPool registry fold).2 := by
  obtain ⟨hnodup, hpos, hp0, hp1, -, scale, hscale, htotal, hamount⟩ := paidPool_spec registry hfold
  have hidle : (paidPool registry fold).1.total = 0 → minerShare * (paidPool registry fold).2 = 0 := by
    intro h
    rw [htotal] at h
    rw [(mul_eq_zero.1 h).resolve_left hscale.ne', mul_zero]
  have hpositive : hasPositiveWeight (paidPool registry fold).1 = true → 0 < (paidPool registry fold).1.total := by
    intro h
    obtain ⟨hw, hmem, -⟩ := List.any_eq_true.1 h
    exact Dict.total_pos (List.ne_nil_of_mem hmem) hpos
  obtain ⟨v, hv, hvk, hvpos, hvtotal, hvamount, hvburn⟩ := applyMinerEmissionCap_spec hnodup hpos (mul_nonneg h0 hp0)
    (mul_le_one₀ h1 hp0 hp1) hidle (not_mem_paidPool registry hfold hburn)
    fun he => ⟨hpositive (hempty he).1, (hempty he).2⟩
  refine ⟨v, hv, hvk, hvpos, hvtotal, fun h hne => ?_, hvburn⟩
  have hweight := hamount h
  rw [hvamount h hne]
  by_cases hun : h = UNPAID_SHARE_KEY
  · rw [if_pos hun] at hweight
    rw [if_pos hun, hweight, zero_div, zero_mul]
  rw [if_neg hun] at hweight ⊢
  rcases hp0.eq_or_lt with hzero | hpart
  · -- nothing is paid, so the key holds nothing
    have hnil : (paidPool registry fold).1 = [] := by
      by_contra hcons
      have := Dict.total_pos hcons hpos
      rw [htotal, ← hzero, mul_zero] at this
      exact lt_irrefl 0 this
    rw [hnil, Dict.amount_nil, eq_comm, mul_eq_zero] at hweight
    rw [← hzero, hweight.resolve_left hscale.ne', mul_zero, mul_zero]
  · calc (paidPool registry fold).1.amount h / (paidPool registry fold).1.total *
          (minerShare * (paidPool registry fold).2)
        = scale * trackedShare registry fold h / (scale * (paidPool registry fold).2) *
          (minerShare * (paidPool registry fold).2) := by rw [hweight, htotal]
      _ = minerShare * trackedShare registry fold h := by
          rw [mul_div_mul_left _ _ hscale.ne', div_mul_eq_mul_div, mul_comm minerShare, ← mul_assoc,
            mul_div_right_comm, mul_div_cancel_right₀ _ hpart.ne', mul_comm]

/-- The submitted vector of any registry. -/
theorem updateWeights_spec (registry : TrackRegistry) (hfold : ∀ t, TrackVector (fold t)) {minerShare : K}
    (h0 : 0 ≤ minerShare) (h1 : minerShare ≤ 1) {configBurn ownerHotkey : Option String} {burn : String}
    (hresolve : resolveBurnHotkey configBurn ownerHotkey = some burn) (hburn : burn ≠ "")
    (hminers : PaysMiners burn fold) :
    ∃ v, updateWeights registry fold minerShare configBurn ownerHotkey = some (.ok v) ∧ v.keys.Nodup ∧
      (∀ hw ∈ v, 0 ≤ hw.2) ∧ v.total = 1 ∧
      (∀ h, h ≠ burn → h ≠ UNPAID_SHARE_KEY → v.amount h = minerShare * trackedShare registry fold h) ∧
      v.amount burn = (1 - minerShare) + minerShare * (unclaimedShare registry fold +
        trackedShare registry fold UNPAID_SHARE_KEY + unassignedShare registry) := by
  obtain ⟨-, -, hp0, hp1, hpart, -⟩ := paidPool_spec registry hfold
  have hrest : 1 - minerShare * (paidPool registry fold).2 = (1 - minerShare) + minerShare *
      (unclaimedShare registry fold + trackedShare registry fold UNPAID_SHARE_KEY + unassignedShare registry) := by
    rw [hpart, unassignedShare, ← paying_add_unclaimed registry fold]
    ring
  have hupdate : updateWeights registry fold minerShare configBurn ownerHotkey =
      if configBurn.isSome ||
          ownerBurnDestinationRequired (paidPool registry fold).1 minerShare (paidPool registry fold).2 then
        (resolveBurnHotkey configBurn ownerHotkey).map
          (applyMinerEmissionCap (paidPool registry fold).1 (minerShare * (paidPool registry fold).2))
      else some (applyMinerEmissionCap (paidPool registry fold).1 (minerShare * (paidPool registry fold).2) "") := by
    simp only [paidPool, ← mul_assoc]
    rfl
  rw [hupdate, ← hrest]
  by_cases hreq : (configBurn.isSome ||
      ownerBurnDestinationRequired (paidPool registry fold).1 minerShare (paidPool registry fold).2) = true
  · obtain ⟨v, hv, hvk, hvpos, hvtotal, hvamount, hvburn⟩ := paidPool_capped registry hfold h0 h1
      (fun t => (hminers t).1) fun he => absurd he hburn
    rw [if_pos hreq, hresolve]
    exact ⟨v, by rw [Option.map_some, hv], hvk, hvpos, hvtotal,
      fun h hne hun => (hvamount h hne).trans (if_neg hun), hvburn⟩
  · -- no residual: every basis point is paid, and the vector has no burn key
    have hnone : ownerBurnDestinationRequired (paidPool registry fold).1 minerShare (paidPool registry fold).2 =
        false := by simp_all
    have hfull : hasPositiveWeight (paidPool registry fold).1 = true ∧ minerShare * (paidPool registry fold).2 = 1 := by
      unfold ownerBurnDestinationRequired at hnone
      rw [if_neg (by simp [h0, h1, hp0, hp1])] at hnone
      cases hw : hasPositiveWeight (paidPool registry fold).1 with
      | false => simp [hw] at hnone
      | true =>
        simp only [hw, if_true, decide_eq_false_iff_not, not_lt, sub_nonpos] at hnone
        exact ⟨rfl, le_antisymm (mul_le_one₀ h1 hp0 hp1) hnone⟩
    obtain ⟨v, hv, hvk, hvpos, hvtotal, hvamount, hvempty⟩ := paidPool_capped registry hfold h0 h1
      (fun t => (hminers t).2) fun _ => hfull
    rw [if_neg hreq]
    refine ⟨v, by rw [hv], hvk, hvpos, hvtotal, fun h _ hun => ?_, ?_⟩
    · by_cases he : h = ""
      · rw [he, hvempty, trackedShare_of_not_mem registry fun t => (hminers t).2, hfull.2, sub_self, mul_zero]
      · exact (hvamount h he).trans (if_neg hun)
    · rw [hvamount burn hburn, trackedShare_of_not_mem registry fun t => (hminers t).1, mul_zero, ite_self, hfull.2,
        sub_self]

end Law

/-! ## The emission law -/

/-- Every split that the ledger serves gives a registry, and the submitted vector is non-negative with sum 1: a miner
gets its normalised weights times the claimed shares, and the burn hotkey the operator burn and, of the miners' part,
the unclaimed tracks, the unpaid incumbent and the basis points that no paying track holds. -/
theorem emission_law (raw default : Dict String ℤ) (settings : TrackSettings) (fold : String → Dict String K)
    (hfold : ∀ t, TrackVector (fold t)) (minerShare : K) (h0 : 0 ≤ minerShare) (h1 : minerShare ≤ 1)
    (configBurn ownerHotkey : Option String) (burn : String)
    (hresolve : resolveBurnHotkey configBurn ownerHotkey = some burn) (hburn : burn ≠ "")
    (hminers : PaysMiners burn fold) :
    ∃ registry v, buildDefaultRegistry (resolveTrackShares raw default) settings = .ok registry ∧
      updateWeights registry fold minerShare configBurn ownerHotkey = some (.ok v) ∧
      v.keys.Nodup ∧ (∀ hw ∈ v, 0 ≤ hw.2) ∧ v.total = 1 ∧
      (∀ h, h ≠ burn → h ≠ UNPAID_SHARE_KEY → v.amount h = minerShare * trackedShare registry fold h) ∧
      v.amount burn = (1 - minerShare) + minerShare * (unclaimedShare registry fold +
        trackedShare registry fold UNPAID_SHARE_KEY + unassignedShare registry) ∧
      (∀ t, hasPositiveWeight (fold t) = true →
        registry.sharesBps.amount t ≤ (claimedBps registry fold).amount t) ∧
      (claimedBps registry fold).total = registry.sharesBps.total := by
  obtain ⟨registry, hregistry⟩ := buildDefaultRegistry_eq_ok (resolveTrackShares raw default) settings
  obtain ⟨v, hv, hk, hpos, htotal, hamount, hrest⟩ := updateWeights_spec registry hfold h0 h1 hresolve hburn hminers
  obtain ⟨-, -, -, hclaimed, hkept⟩ := claimedBps_spec registry fold
  exact ⟨registry, v, hregistry, hv, hk, hpos, htotal, hamount, hrest, hkept, hclaimed⟩

/-- The settings under which every track is paid. -/
def activeSettings : TrackSettings := ⟨.active, true, .active, true, .active, true⟩

/-- Two miners on memory, and two on the router beside the unpaid incumbent. Nobody has a weight on coding or on the
generator. -/
def fourTracks (trackId : String) : Dict String ℚ :=
  if trackId = TRACK_MEMORY then [("alice", 3), ("bob", 1)]
  else if trackId = TRACK_ROUTER then [("carol", 1), ("alice", 1), (UNPAID_SHARE_KEY, 2)]
  else if trackId = TRACK_CODING then [("carol", 0)]
  else []

theorem trackVector_fourTracks (t : String) : TrackVector (fourTracks t) := by
  unfold fourTracks
  split
  · exact ⟨by decide, by simp⟩
  · split
    · exact ⟨by decide, by simp⟩
    · split
      · exact ⟨by decide, by simp⟩
      · exact ⟨by simp [Dict.keys], by simp⟩

theorem paysMiners_fourTracks : PaysMiners "burn" fourTracks := by
  intro t
  unfold fourTracks
  split
  · decide
  · split
    · decide
    · split
      · decide
      · simp [Dict.keys]

/-- Three miners on four tracks, with a tenth of the pool burnt and five percent of the rest left to no track. -/
theorem emission_law_four_tracks : PaysMiners "burn" fourTracks ∧ ∃ registry v,
    buildDefaultRegistry (resolveTrackShares [(TRACK_MEMORY, 5000), (TRACK_ROUTER, 3000), (TRACK_CODING, 1000),
      (TRACK_GENERATOR, 500)] []) activeSettings = .ok registry ∧
      updateWeights registry fourTracks (9 / 10) (some "burn") none = some (.ok v) ∧ Dict.total v = 1 ∧
      v.amount "alice" = 9 / 10 * trackedShare registry fourTracks "alice" := by
  obtain ⟨registry, v, hregistry, hv, -, -, htotal, hshare, -⟩ := emission_law [(TRACK_MEMORY, 5000),
    (TRACK_ROUTER, 3000), (TRACK_CODING, 1000), (TRACK_GENERATOR, 500)] [] activeSettings fourTracks
    trackVector_fourTracks (9 / 10) (by norm_num) (by norm_num) (some "burn") none "burn" rfl (by decide)
    paysMiners_fourTracks
  exact ⟨paysMiners_fourTracks, registry, v, hregistry, hv, htotal, hshare "alice" (by decide) (by decide)⟩

/-- The settings that keep every track besides memory in shadow. -/
def shadowSettings : TrackSettings := ⟨.shadow, false, .shadow, false, .shadow, false⟩

/-- A memory vector with one miner. -/
def loneMiner (trackId : String) : Dict String ℚ := if trackId = TRACK_MEMORY then [("miner", 1)] else []

theorem trackVector_loneMiner (t : String) : TrackVector (loneMiner t) := by
  unfold loneMiner
  split
  · exact ⟨by decide, by simp⟩
  · exact ⟨by simp [Dict.keys], by simp⟩

theorem paysMiners_loneMiner : PaysMiners "burn" loneMiner := by
  intro t
  unfold loneMiner
  split
  · decide
  · simp [Dict.keys]

/-- With half of the pool served to memory and nothing to the other tracks, half of it burns, although there is no
operator burn, no unclaimed track and no unpaid incumbent. -/
theorem unassigned_share_burns : ¬ ∀ (raw default : Dict String ℤ) (settings : TrackSettings)
    (fold : String → Dict String ℚ), (∀ t, TrackVector (fold t)) → ∀ (minerShare : ℚ), 0 ≤ minerShare →
    minerShare ≤ 1 → ∀ (configBurn ownerHotkey : Option String) (burn : String),
    resolveBurnHotkey configBurn ownerHotkey = some burn → burn ≠ "" → PaysMiners burn fold →
    ∃ registry v, buildDefaultRegistry (resolveTrackShares raw default) settings = .ok registry ∧
      updateWeights registry fold minerShare configBurn ownerHotkey = some (.ok v) ∧
      v.amount burn = (1 - minerShare) + minerShare * (unclaimedShare registry fold +
        trackedShare registry fold UNPAID_SHARE_KEY) := by
  intro h
  obtain ⟨registry, v, hregistry, hv, hburn⟩ := h [(TRACK_MEMORY, 5000)] [] shadowSettings loneMiner
    trackVector_loneMiner 1 (by norm_num) (by norm_num) (some "burn") none "burn" rfl (by decide) paysMiners_loneMiner
  obtain ⟨v', hv', -, -, -, -, hburn'⟩ := updateWeights_spec registry trackVector_loneMiner
    (zero_le_one' ℚ) (le_refl 1) (show resolveBurnHotkey (some "burn") none = some "burn" from rfl) (by decide)
    paysMiners_loneMiner
  rw [hv] at hv'
  cases hv'
  rw [hburn] at hburn'
  have hunassigned : (unassignedShare registry : ℚ) = 0 := by linarith
  have hshares : registry.sharesBps.total = 5000 := by
    have hmap : (buildDefaultRegistry (resolveTrackShares [(TRACK_MEMORY, 5000)] []) shadowSettings).map
        (·.sharesBps.total) = .ok 5000 := rfl
    rw [hregistry] at hmap
    exact Except.ok.inj hmap
  rw [unassignedShare, hshares] at hunassigned
  norm_num [bpsShare, BASIS_POINT_SCALE] at hunassigned

end DittoSubnet.Validator

import DittoSubnet.Kit.Tally
import DittoSubnet.Kit.Transaction

/-!
# The split of an earning

`plan_service_distribution` of `treasury_weight_math.py`: a finalized earning is split over the service buckets by
integer largest-remainder rounding.

* `planServiceDistribution_eq_ok`: with valid destinations the plan exists.
* `sum_splitService`: it pays out exactly the earning.
-/

namespace DittoSubnet.Treasury

open Kit

/-- A service bucket, its share and its holding wallet. -/
structure ServiceDestination where
  bucketId : String
  allocationBps : ℕ
  holdingColdkey : String
  deriving DecidableEq, Repr

/-- What one bucket is to receive of an earning. -/
structure ServiceDistribution where
  bucketId : String
  holdingColdkey : String
  alphaRao : ℕ
  deriving DecidableEq, Repr

/-- The destinations that the split accepts. -/
structure ValidDestinations (collectorColdkey : String) (destinations : List ServiceDestination) : Prop where
  required : collectorColdkey ≠ "" ∧ destinations ≠ [] ∧ destinations.length ≤ 20
  buckets : (destinations.map (·.bucketId)).Nodup
  wallets : (destinations.map (·.holdingColdkey)).Nodup
  each : ∀ d ∈ destinations, d.bucketId ≠ "" ∧ d.holdingColdkey ≠ "" ∧ d.holdingColdkey ≠ collectorColdkey ∧
    d.allocationBps ≤ 10000
  pool : 0 < (destinations.map (·.allocationBps)).sum ∧ (destinations.map (·.allocationBps)).sum ≤ 10000

/-- The destinations with a share, in bucket order. -/
def orderedDestinations (destinations : List ServiceDestination) : List ServiceDestination :=
  sortOn (·.bucketId) (destinations.filter fun d => d.allocationBps ≠ 0)

/-- The indices by falling remainder, then by bucket. -/
def remainderOrder (amount total : ℕ) (ordered : List ServiceDestination) : List ℕ :=
  sortOn (fun i => toLex (OrderDual.toDual (amount * (ordered.getD i ⟨"", 0, ""⟩).allocationBps % total),
    (ordered.getD i ⟨"", 0, ""⟩).bucketId)) (List.range ordered.length)

/-- Floors, and one more for the largest remainders until the dust is gone. -/
def splitAmounts (amount total : ℕ) (ordered : List ServiceDestination) : List ℕ :=
  let amounts := ordered.map fun d => amount * d.allocationBps / total
  let dust := amount - amounts.sum
  ((remainderOrder amount total ordered).take dust).foldl (fun amounts i => amounts.modify i (· + 1)) amounts

/-- The split of an amount over the destinations. -/
def splitService (amount : ℕ) (destinations : List ServiceDestination) : List ServiceDistribution :=
  let total := (destinations.map (·.allocationBps)).sum
  let ordered := orderedDestinations destinations
  ((ordered.zip (splitAmounts amount total ordered)).filter fun da => da.2 ≠ 0).map fun da =>
    ⟨da.1.bucketId, da.1.holdingColdkey, da.2⟩

/-- The checked split. -/
def planServiceDistribution (attributedAlphaRao availableAlphaRao : ℕ) (collectorColdkey : String)
    (destinations : List ServiceDestination) : Except String (List ServiceDistribution) := do
  ensure (attributedAlphaRao ≤ availableAlphaRao) "attributed earnings exceed available collector stake"
  ensure (collectorColdkey ≠ "" ∧ destinations ≠ [] ∧ destinations.length ≤ 20)
    "collector and service destinations are required"
  ensure ((destinations.map (·.bucketId)).Nodup) "duplicate bucket"
  ensure ((destinations.map (·.holdingColdkey)).Nodup) "duplicate holding wallet"
  ensure (∀ d ∈ destinations, d.bucketId ≠ "" ∧ d.holdingColdkey ≠ "" ∧ d.holdingColdkey ≠ collectorColdkey ∧
    d.allocationBps ≤ 10000) "invalid service destination"
  ensure (0 < (destinations.map (·.allocationBps)).sum ∧ (destinations.map (·.allocationBps)).sum ≤ 10000)
    "service pool must be between 1 and 10000 bps"
  pure (splitService attributedAlphaRao destinations)

/-- With valid destinations a whole earning can be split. -/
theorem planServiceDistribution_eq_ok {collectorColdkey : String} {destinations : List ServiceDestination}
    (h : ValidDestinations collectorColdkey destinations) (amount : ℕ) :
    planServiceDistribution amount amount collectorColdkey destinations = .ok (splitService amount destinations) := by
  simp only [planServiceDistribution, ensure, if_pos (le_refl amount), if_pos h.required, if_pos h.buckets,
    if_pos h.wallets, if_pos h.each, if_pos h.pool]
  rfl

/-! ## Conservation -/

section Conservation

variable {amount total : ℕ} {ordered : List ServiceDestination}

theorem sum_modify_succ : ∀ (l : List ℕ) {i : ℕ}, i < l.length → (l.modify i (· + 1)).sum = l.sum + 1
  | [], _, h => absurd h (Nat.not_lt_zero _)
  | a :: l, 0, _ => by
    rw [List.modify_zero_cons, List.sum_cons, List.sum_cons]
    omega
  | a :: l, i + 1, h => by
    have ih := sum_modify_succ l (Nat.lt_of_succ_lt_succ h)
    rw [List.modify_succ_cons, List.sum_cons, List.sum_cons, ih]
    omega

theorem length_foldl_modify (indices : List ℕ) : ∀ (l : List ℕ),
    (indices.foldl (fun l i => l.modify i (· + 1)) l).length = l.length := by
  induction indices with
  | nil => intro l; rfl
  | cons i indices ih =>
    intro l
    rw [List.foldl_cons, ih, List.length_modify]

/-- Each rounded index adds one. -/
theorem sum_foldl_modify (indices : List ℕ) : ∀ {l : List ℕ}, (∀ i ∈ indices, i < l.length) →
    (indices.foldl (fun l i => l.modify i (· + 1)) l).sum = l.sum + indices.length := by
  induction indices with
  | nil => intro l _; rfl
  | cons i indices ih =>
    intro l h
    have hi := h i List.mem_cons_self
    have hrest : ∀ j ∈ indices, j < (l.modify i (· + 1)).length := by
      intro j hj
      rw [List.length_modify]
      exact h j (List.mem_cons_of_mem _ hj)
    rw [List.foldl_cons, ih hrest, sum_modify_succ l hi, List.length_cons]
    omega

/-- The floors and the remainders make up the whole. -/
theorem sum_floor_add_sum_remainder (amount total : ℕ) (l : List ℕ) :
    total * (l.map fun b => amount * b / total).sum + (l.map fun b => amount * b % total).sum = amount * l.sum := by
  induction l with
  | nil => simp
  | cons b l ih =>
    have hb := Nat.div_add_mod (amount * b) total
    simp only [List.map_cons, List.sum_cons, Nat.mul_add]
    omega

theorem sum_remainder_le (amount total : ℕ) (htotal : 0 < total) (l : List ℕ) :
    (l.map fun b => amount * b % total).sum ≤ total * l.length := by
  induction l with
  | nil => simp
  | cons b l ih =>
    have hb := Nat.mod_lt (amount * b) htotal
    simp only [List.map_cons, List.sum_cons, List.length_cons, Nat.mul_add]
    omega

/-- The dust is at most one for each destination. -/
theorem dust_le (amount : ℕ) (htotal : 0 < total) (hsum : (ordered.map (·.allocationBps)).sum = total) :
    (ordered.map fun d => amount * d.allocationBps / total).sum ≤ amount ∧
      amount - (ordered.map fun d => amount * d.allocationBps / total).sum ≤ ordered.length := by
  have hparts := sum_floor_add_sum_remainder amount total (ordered.map (·.allocationBps))
  have hrem := sum_remainder_le amount total htotal (ordered.map (·.allocationBps))
  rw [hsum, List.map_map, List.map_map] at hparts
  rw [List.map_map, List.length_map] at hrem
  set floors := (ordered.map fun d => amount * d.allocationBps / total).sum with hfloors
  have hf : (ordered.map ((fun b => amount * b / total) ∘ (·.allocationBps))).sum = floors := rfl
  rw [hf, Nat.mul_comm amount total] at hparts
  have hle : total * floors ≤ total * amount := by omega
  have hfloor : floors ≤ amount := Nat.le_of_mul_le_mul_left hle htotal
  refine ⟨hfloor, Nat.le_of_mul_le_mul_left ?_ htotal⟩
  rw [Nat.mul_sub]
  omega

theorem length_splitAmounts (amount total : ℕ) (ordered : List ServiceDestination) :
    (splitAmounts amount total ordered).length = ordered.length := by
  simp only [splitAmounts]
  rw [length_foldl_modify, List.length_map]

theorem sum_splitAmounts (htotal : 0 < total) (hsum : (ordered.map (·.allocationBps)).sum = total) :
    (splitAmounts amount total ordered).sum = amount := by
  obtain ⟨hfloor, hdust⟩ := dust_le amount htotal hsum
  simp only [splitAmounts]
  rw [sum_foldl_modify]
  · have hlen : (remainderOrder amount total ordered).length = ordered.length := by
      simp [remainderOrder]
    rw [List.length_take, hlen]
    omega
  · intro i hi
    have hmem : i ∈ List.range ordered.length := mem_sortOn.1 (List.mem_of_mem_take hi)
    simpa using hmem

theorem sum_filter_ne_zero (l : List (ServiceDestination × ℕ)) :
    ((l.filter fun da => da.2 ≠ 0).map fun da => da.2).sum = (l.map Prod.snd).sum := by
  induction l with
  | nil => rfl
  | cons da l ih =>
    by_cases h : da.2 = 0
    · rw [List.filter_cons_of_neg (by simp [h]), ih, List.map_cons, List.sum_cons, h, Nat.zero_add]
    · rw [List.filter_cons_of_pos (by simp [h]), List.map_cons, List.map_cons, List.sum_cons, List.sum_cons, ih]

theorem sum_orderedDestinations (destinations : List ServiceDestination) :
    ((orderedDestinations destinations).map (·.allocationBps)).sum = (destinations.map (·.allocationBps)).sum := by
  unfold orderedDestinations
  rw [((sortOn_perm _ _).map _).sum_eq]
  induction destinations with
  | nil => rfl
  | cons d ds ih =>
    by_cases h : d.allocationBps = 0
    · rw [List.filter_cons_of_neg (by simp [h]), ih, List.map_cons, List.sum_cons, h, Nat.zero_add]
    · rw [List.filter_cons_of_pos (by simp [h]), List.map_cons, List.map_cons, List.sum_cons, List.sum_cons, ih]

/-- The split pays out the whole amount. -/
theorem sum_splitService {collectorColdkey : String} {destinations : List ServiceDestination}
    (h : ValidDestinations collectorColdkey destinations) (amount : ℕ) :
    ((splitService amount destinations).map (·.alphaRao)).sum = amount := by
  have hsum := sum_orderedDestinations destinations
  simp only [splitService, List.map_map, Function.comp_def]
  rw [sum_filter_ne_zero, List.map_snd_zip (length_splitAmounts _ _ _).le, sum_splitAmounts h.pool.1 hsum]

/-- The buckets of the split are distinct. -/
theorem nodup_splitService {collectorColdkey : String} {destinations : List ServiceDestination}
    (h : ValidDestinations collectorColdkey destinations) (amount : ℕ) :
    ((splitService amount destinations).map (·.bucketId)).Nodup := by
  have hordered : ((orderedDestinations destinations).map (·.bucketId)).Nodup := by
    unfold orderedDestinations
    rw [((sortOn_perm _ _).map _).nodup_iff]
    exact (List.filter_sublist.map _).nodup h.buckets
  have hzip : ((orderedDestinations destinations).zip (splitAmounts amount (destinations.map (·.allocationBps)).sum
      (orderedDestinations destinations))).map (fun da => da.1.bucketId) =
      (orderedDestinations destinations).map (·.bucketId) := by
    have hcomp : (fun da : ServiceDestination × ℕ => da.1.bucketId) = (fun d => d.bucketId) ∘ Prod.fst := rfl
    rw [hcomp, ← List.map_map, List.map_fst_zip (length_splitAmounts _ _ _).ge]
  simp only [splitService, List.map_map, Function.comp_def]
  refine (List.filter_sublist.map _).nodup ?_
  rw [hzip]
  exact hordered

/-- Every part of the split goes to the wallet of its bucket, and is not empty. -/
theorem mem_splitService {amount : ℕ} {destinations : List ServiceDestination} {part : ServiceDistribution}
    (h : part ∈ splitService amount destinations) : 0 < part.alphaRao ∧ ∃ d ∈ destinations,
      d.bucketId = part.bucketId ∧ d.holdingColdkey = part.holdingColdkey ∧ 0 < d.allocationBps := by
  obtain ⟨da, hda, rfl⟩ := List.mem_map.1 h
  obtain ⟨hzip, hne⟩ := List.mem_filter.1 hda
  have hd := mem_sortOn.1 (List.of_mem_zip hzip).1
  obtain ⟨hmem, hbps⟩ := List.mem_filter.1 hd
  exact ⟨Nat.pos_of_ne_zero (by simpa using hne), da.1, hmem, rfl, rfl, Nat.pos_of_ne_zero (by simpa using hbps)⟩

end Conservation

end DittoSubnet.Treasury

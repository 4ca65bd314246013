import DittoSubnet.Kit.Arith
import DittoSubnet.Kit.Dict

/-!
# The dueling bench and the title duel

The shared protocol package (`dueling.py`, `title_duel.py`) that both folds call.

* A bench-16 score report (`DuelingReport`) carries a datagen half and five owned generator columns;
  `duelingComposite` recomputes the composite with the columns of a set of owners masked.
* A title duel pairs the records of two agents by `(season, seed)`: `collapseRecords` takes one median per pair,
  `duelPairs` the newest shared pairs, `duelStatistic` their paired statistic and `duelRequiredLead` the lead that
  the frozen boundary asks for.

Scores are elements of an `ExactArith` field, so a float sum is read as an exact sum and every value is finite.
-/

namespace DittoSubnet

open Kit

variable {K : Type} [ExactArith K]

/-! ## `dueling.py` -/

def DUELING_MIN_BENCH_VERSION : ℕ := 16
def DUELING_SLICE_COLUMNS : ℕ := 5
def DUELING_COLUMN_WEIGHT : K := 1 / 10

/-- Whether the version carries a generator slice (a floor). -/
def isDuelingBenchVersion (benchVersion : ℕ) : Bool := DUELING_MIN_BENCH_VERSION ≤ benchVersion

/-- One slice column: its owner (`""` for the public default) and the sum of its `n` case scores. -/
structure DuelingColumnAggregate (K : Type) where
  columnId : String
  ownerKey : String
  n : ℕ
  sum : K

/-- The column's mean case score; a column with no cases scores 0. -/
def DuelingColumnAggregate.mean (c : DuelingColumnAggregate K) : K := if c.n = 0 then 0 else c.sum / c.n

/-- The `details.dueling` block of a bench-16 score report. -/
structure DuelingReport (K : Type) [ExactArith K] where
  seasonId : String
  seasonIndex : ℕ
  ownerKey : String
  datagenRaw : K
  datagenGate : K
  columns : List (DuelingColumnAggregate K)
  datagenRaw_mem : 0 ≤ datagenRaw ∧ datagenRaw ≤ 1
  datagenGate_mem : 0 ≤ datagenGate ∧ datagenGate ≤ 1
  length_columns : columns.length = DUELING_SLICE_COLUMNS

/-- The columns whose owner is not masked, in column order. -/
def counted (columns : List (DuelingColumnAggregate K)) (mask : Finset String) : List (DuelingColumnAggregate K) :=
  sortOn (·.columnId) (columns.filter fun c => c.ownerKey = "" ∨ c.ownerKey ∉ mask)

/-- The composite without the masked columns, whose weight returns to the datagen half. -/
def duelingComposite (datagenRaw datagenGate : K) (columns : List (DuelingColumnAggregate K))
    (mask : Finset String) : K :=
  let kept := counted columns mask
  let generator := (kept.map fun c => DUELING_COLUMN_WEIGHT * c.mean).sum
  let share : K := 1 - DUELING_COLUMN_WEIGHT * (kept.length : K)
  datagenGate * (share * datagenRaw + generator)

/-! ## `title_duel.py` -/

/-- `c(n)` for `n` paired differences; fewer than three pairs cannot dethrone. -/
def TITLE_DUEL_BOUNDARY : ℕ → Option K
  | 3 => some (6965 / 1000)
  | 4 => some (4541 / 1000)
  | 5 => some (3747 / 1000)
  | 6 => some (3365 / 1000)
  | 7 => some (3143 / 1000)
  | 8 => some (2998 / 1000)
  | 9 => some (2896 / 1000)
  | 10 => some (2821 / 1000)
  | 11 => some (2764 / 1000)
  | 12 => some (2718 / 1000)
  | 13 => some (2681 / 1000)
  | 14 => some (2650 / 1000)
  | 15 => some (2624 / 1000)
  | _ => none

/-- One shared `(season, seed)` with both sides' seed scores. -/
structure DuelPair (K : Type) where
  seasonIndex : ℕ
  seasonId : String
  seed : ℤ
  challenger : K
  champion : K

def DuelPair.difference (p : DuelPair K) : K := p.challenger - p.champion

/-- The windowed paired statistic the dethrone test reads. -/
structure DuelStatistic (K : Type) where
  pairs : List (DuelPair K)
  meanDifference : K
  championReference : K
  standardError : K

def DuelStatistic.count (s : DuelStatistic K) : ℕ := s.pairs.length

/-- The grouping key of one dueling confirmation record. -/
def seasonSeedKey (seasonId : String) (seasonIndex : ℕ) (seed : ℤ) : String × ℕ × ℤ := (seasonId, seasonIndex, seed)

/-- The records of one `(season, seed)`, as `(index, median)`; dropped when they disagree on the season index. -/
def collapseGroup (samples : List (ℕ × K)) : Option (ℕ × K) :=
  match (samples.map Prod.fst).dedup with
  | [index] => some (index, median (samples.map Prod.snd))
  | _ => none

/-- Groups `((season_id, season_index, seed), value)` to one median per `(season_id, seed)`. -/
def collapseRecords (values : List ((String × ℕ × ℤ) × K)) : Dict (String × ℤ) (ℕ × K) :=
  let grouped := groupOn (values.map fun v => ((v.1.1, v.1.2.2), (v.1.2.1, v.2)))
  grouped.filterMap fun g => (collapseGroup g.2).map fun c => (g.1, c)

/-- `(season_index desc, season_id, seed)`. -/
def duelOrder (p : DuelPair K) : ℤ ×ₗ String ×ₗ ℤ := toLex (-(p.seasonIndex : ℤ), toLex (p.seasonId, p.seed))

/-- The newest `window` shared pairs whose two sides agree on the season index. -/
def duelPairs (challenger champion : Dict (String × ℤ) (ℕ × K)) (window : ℤ) : List (DuelPair K) :=
  let pairs := challenger.filterMap fun c =>
    match champion.get? c.1 with
    | some d => if c.2.1 = d.1 then some ⟨c.2.1, c.1.1, c.1.2, c.2.2, d.2⟩ else none
    | none => none
  (sortOn duelOrder pairs).take (max 0 window).toNat

/-- Mean, champion reference and standard error over at least two pairs. -/
def duelStatistic (pairs : List (DuelPair K)) : Option (DuelStatistic K) :=
  if pairs.length < 2 then none
  else some {
    pairs := pairs
    meanDifference := Kit.mean (pairs.map DuelPair.difference)
    championReference := Kit.mean (pairs.map DuelPair.champion)
    standardError := standardErrorOfMean (pairs.map DuelPair.difference) }

/-- `max(margin_floor, c(n) * se)`, or nothing when `n` has no boundary. -/
def duelRequiredLead (statistic : DuelStatistic K) (marginFloor : K) : Option K :=
  (TITLE_DUEL_BOUNDARY statistic.count).map fun critical => max marginFloor (critical * statistic.standardError)

/-! ## The order of the records does not matter -/

theorem collapseGroup_perm {xs ys : List (ℕ × K)} (h : xs.Perm ys) : collapseGroup xs = collapseGroup ys := by
  have hd : ((xs.map Prod.fst).dedup).Perm ((ys.map Prod.fst).dedup) := (h.map Prod.fst).dedup
  have hm : median (xs.map Prod.snd) = median (ys.map Prod.snd) := median_perm (h.map Prod.snd)
  unfold collapseGroup
  rw [hm]
  generalize (xs.map Prod.fst).dedup = a at hd
  generalize (ys.map Prod.fst).dedup = b at hd
  match a, b, hd with
  | [], b, hd => rw [hd.symm.eq_nil]
  | [i], b, hd => rw [List.perm_singleton.1 hd.symm]
  | i :: j :: a, b, hd =>
    match b, hd with
    | [], hd => exact absurd hd.eq_nil (by simp)
    | [k], hd => exact absurd hd.length_eq (by simp)
    | _ :: _ :: _, _ => rfl

theorem collapseRecords_perm {xs ys : List ((String × ℕ × ℤ) × K)} (h : xs.Perm ys) :
    (collapseRecords xs).Perm (collapseRecords ys) := by
  have hp := groupOn_map_perm (h.map fun v => ((v.1.1, v.1.2.2), (v.1.2.1, v.2))) (f := collapseGroup)
    (fun _ _ h => collapseGroup_perm h)
  have heq : ∀ l : List ((String × ℕ × ℤ) × K), collapseRecords l =
      ((groupOn (l.map fun v => ((v.1.1, v.1.2.2), (v.1.2.1, v.2)))).map fun kv => (kv.1, collapseGroup kv.2)).filterMap
        fun g => g.2.map fun c => (g.1, c) := fun l => by
    simp only [collapseRecords, List.filterMap_map, Function.comp_def]
  rw [heq, heq]
  exact hp.filterMap _

theorem collapseRecords_nodup (xs : List ((String × ℕ × ℤ) × K)) : (Dict.keys (collapseRecords xs)).Nodup := by
  refine List.Sublist.nodup ?_ (keys_groupOn_nodup (xs.map fun v => ((v.1.1, v.1.2.2), (v.1.2.1, v.2))))
  unfold collapseRecords Dict.keys
  generalize groupOn (xs.map fun v => ((v.1.1, v.1.2.2), (v.1.2.1, v.2))) = d
  induction d with
  | nil => exact .slnil
  | cons g d ih =>
    cases hg : collapseGroup g.2 with
    | none => simpa [List.filterMap_cons, hg] using ih.cons g.1
    | some c => simpa [List.filterMap_cons, hg] using ih

omit [ExactArith K] in
/-- Every shared pair stands for its own `(season, seed)`. -/
theorem duelOrder_injOn {chall champ : Dict (String × ℤ) (ℕ × K)} (hd : chall.keys.Nodup) :
    let pairs := chall.filterMap fun c =>
      match champ.get? c.1 with
      | some d => if c.2.1 = d.1 then some (⟨c.2.1, c.1.1, c.1.2, c.2.2, d.2⟩ : DuelPair K) else none
      | none => none
    ∀ p ∈ pairs, ∀ q ∈ pairs, duelOrder p = duelOrder q → p = q := by
  have key : ∀ p : DuelPair K, ∀ c ∈ chall, (match champ.get? c.1 with
      | some d => if c.2.1 = d.1 then some (⟨c.2.1, c.1.1, c.1.2, c.2.2, d.2⟩ : DuelPair K) else none
      | none => none) = some p → c.1 = (p.seasonId, p.seed) := by
    intro p c _ h
    split at h
    · split at h
      · cases h; rfl
      · cases h
    · cases h
  intro pairs p hp q hq h
  obtain ⟨c, hc, hpc⟩ := List.mem_filterMap.1 hp
  obtain ⟨d, hd', hqd⟩ := List.mem_filterMap.1 hq
  simp only [duelOrder, EmbeddingLike.apply_eq_iff_eq, Prod.mk.injEq] at h
  have hk : c.1 = d.1 := by rw [key p c hc hpc, key q d hd' hqd, h.2.1, h.2.2]
  have hcd : c = d := List.inj_on_of_nodup_map hd hc hd' hk
  subst hcd
  exact Option.some.inj (hpc.symm.trans hqd)

omit [ExactArith K] in
/-- The window depends only on the two maps. -/
theorem duelPairs_perm {a a' b b' : Dict (String × ℤ) (ℕ × K)} (ha : a.keys.Nodup) (hb : b.keys.Nodup)
    (haa : a.Perm a') (hbb : b.Perm b') (window : ℤ) : duelPairs a b window = duelPairs a' b' window := by
  have hget : ∀ k, b.get? k = b'.get? k := Dict.get?_perm hb hbb
  unfold duelPairs
  simp only [← hget]
  rw [sortOn_eq_of_perm (duelOrder_injOn ha) (haa.filterMap _)]

end DittoSubnet

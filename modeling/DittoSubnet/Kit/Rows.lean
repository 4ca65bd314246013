import DittoSubnet.Kit.Dict
import Mathlib.Algebra.BigOperators.Group.List.Basic
import Mathlib.Algebra.Order.BigOperators.Group.List
import Mathlib.Tactic.Abel

/-!
# Sums over the rows of a table

A table is a dictionary of rows. `sumRows` adds up a value of each row; a count is the sum of ones, and a filter is a
value that is zero elsewhere. `mapRows` updates every row, which is what updating the rows of a condition one after the
other does (`foldl_set_filter`). An update of one row changes a sum by the difference of the two values
(`sumRows_set`), a new row by its value (`sumRows_insert`), and an update of many rows is a sum over the old table
(`sumRows_mapRows`).
-/

namespace Kit.Dict

variable {κ ν M : Type} [DecidableEq κ]

/-- The sum of a value over the rows. -/
def sumRows [AddCommMonoid M] (f : κ → ν → M) (d : Dict κ ν) : M := (d.map fun row => f row.1 row.2).sum

/-- Updates every row. -/
def mapRows (f : κ → ν → ν) (d : Dict κ ν) : Dict κ ν := d.map fun row => (row.1, f row.1 row.2)

theorem get?_mapRows (f : κ → ν → ν) (d : Dict κ ν) (k : κ) : get? (mapRows f d) k = (get? d k).map (f k) := by
  induction d with
  | nil => rfl
  | cons row d ih =>
    obtain ⟨k', v⟩ := row
    simp only [mapRows, List.map_cons, get?] at ih ⊢
    split
    · rename_i h
      rw [h, Option.map_some]
    · exact ih

omit [DecidableEq κ] in
theorem keys_mapRows (f : κ → ν → ν) (d : Dict κ ν) : keys (mapRows f d) = keys d := keys_map d f

theorem set_set (d : Dict κ ν) (k : κ) (v w : ν) : set (set d k v) k w = set d k w := by
  induction d with
  | nil => simp [set]
  | cons row d ih =>
    obtain ⟨k', v'⟩ := row
    by_cases hk : k' = k
    · simp [set, hk]
    · simp [set, hk, ih]

theorem foldl_set_cons (f : κ → ν → ν) {k : κ} (v : ν) : ∀ (rows : List (κ × ν)) (d : Dict κ ν),
    k ∉ rows.map Prod.fst → rows.foldl (fun d row => set d row.1 (f row.1 row.2)) ((k, v) :: d) =
      (k, v) :: rows.foldl (fun d row => set d row.1 (f row.1 row.2)) d
  | [], _, _ => rfl
  | (k', w) :: rows, d, h => by
    rw [List.map_cons, List.mem_cons, not_or] at h
    rw [List.foldl_cons, List.foldl_cons]
    show rows.foldl _ (set ((k, v) :: d) k' (f k' w)) = _
    rw [set, if_neg h.1]
    exact foldl_set_cons f v rows _ h.2

/-- The rows of a condition, updated one after the other. -/
theorem foldl_set_filter (f : κ → ν → ν) (P : κ → ν → Prop) [∀ k v, Decidable (P k v)] :
    ∀ {d : Dict κ ν}, (keys d).Nodup →
      (d.filter fun row => P row.1 row.2).foldl (fun d row => set d row.1 (f row.1 row.2)) d =
        mapRows (fun k v => if P k v then f k v else v) d
  | [], _ => rfl
  | (k, v) :: d, h => by
    rw [keys, List.map_cons, List.nodup_cons] at h
    have ih := foldl_set_filter f P (d := d) h.2
    have hnot : k ∉ (d.filter fun row => P row.1 row.2).map Prod.fst :=
      fun hmem => h.1 ((List.filter_sublist.map Prod.fst).subset hmem)
    rw [List.filter_cons]
    by_cases hP : P k v
    · simp only [hP, decide_true, if_true, List.foldl_cons, mapRows, List.map_cons]
      rw [set, if_pos rfl, foldl_set_cons f _ _ _ hnot, ih]
      rfl
    · simp only [hP, decide_false, Bool.false_eq_true, if_false, mapRows, List.map_cons]
      rw [foldl_set_cons f _ _ _ hnot, ih]
      rfl

section Sums

variable [AddCommGroup M]

theorem sumRows_insert {f : κ → ν → M} {d : Dict κ ν} {k : κ} (h : get? d k = none) (v : ν) :
    sumRows f (set d k v) = sumRows f d + f k v := by
  rw [set_of_not_mem (get?_eq_none_iff.1 h), sumRows, sumRows, List.map_append, List.sum_append]
  simp

theorem sumRows_set {f : κ → ν → M} {d : Dict κ ν} {k : κ} {v : ν} (h : get? d k = some v) (w : ν) :
    sumRows f (set d k w) = sumRows f d - f k v + f k w := by
  induction d with
  | nil => cases h
  | cons row d ih =>
    obtain ⟨k', v'⟩ := row
    by_cases hk : k' = k
    · subst hk
      simp only [get?, if_true, Option.some.injEq] at h
      subst h
      simp only [set, if_true, sumRows, List.map_cons, List.sum_cons]
      abel
    · simp only [get?, hk, if_false] at h
      simp only [set, hk, if_false, sumRows, List.map_cons, List.sum_cons] at ih ⊢
      rw [ih h]
      abel

omit [DecidableEq κ] in
theorem sumRows_mapRows (f : κ → ν → M) (g : κ → ν → ν) (d : Dict κ ν) :
    sumRows f (mapRows g d) = sumRows (fun k v => f k (g k v)) d := by
  simp [sumRows, mapRows, Function.comp_def]

omit [DecidableEq κ] in
theorem sumRows_congr {f g : κ → ν → M} {d : Dict κ ν} (h : ∀ row ∈ d, f row.1 row.2 = g row.1 row.2) :
    sumRows f d = sumRows g d := by
  unfold sumRows
  congr 1
  exact List.map_congr_left h

omit [DecidableEq κ] in
theorem sumRows_eq_zero {f : κ → ν → M} {d : Dict κ ν} (h : ∀ row ∈ d, f row.1 row.2 = 0) : sumRows f d = 0 := by
  apply List.sum_eq_zero
  intro x hx
  obtain ⟨row, hrow, rfl⟩ := List.mem_map.1 hx
  exact h row hrow

end Sums

omit [DecidableEq κ] in
/-- A sum of bounded values is bounded by the count of the rows they are on. -/
theorem sumRows_le_sumRows {f g : κ → ν → ℤ} {d : Dict κ ν} (h : ∀ row ∈ d, f row.1 row.2 ≤ g row.1 row.2) :
    sumRows f d ≤ sumRows g d := List.sum_le_sum h

end Kit.Dict

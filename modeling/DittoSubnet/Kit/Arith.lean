import Mathlib

/-!
# Exact arithmetic with a square root and an exponential

`ExactArith K` is an ordered field with the two functions that statistical code needs beyond the field operations.
Only signs, the value of the root at `0` and the bound of the exponential below `0` are fixed, so the real numbers are
an instance, and so are the rationals with a floor square root and a truncated exponential: there every definition
over `K` can be evaluated.

`mean` and `standardErrorOfMean` are the two sample statistics, both independent of the order of the sample.
-/

namespace Kit

/-! ## Numerals -/

/- A numeral of a field carries the proof that it is at least two. The numerals of decimal constants carry these. -/
instance atLeastTwo_2 : Nat.AtLeastTwo 2 := ⟨by decide⟩
instance atLeastTwo_4 : Nat.AtLeastTwo 4 := ⟨by decide⟩
instance atLeastTwo_7 : Nat.AtLeastTwo 7 := ⟨by decide⟩
instance atLeastTwo_10 : Nat.AtLeastTwo 10 := ⟨by decide⟩
instance atLeastTwo_11 : Nat.AtLeastTwo 11 := ⟨by decide⟩
instance atLeastTwo_14 : Nat.AtLeastTwo 14 := ⟨by decide⟩
instance atLeastTwo_60 : Nat.AtLeastTwo 60 := ⟨by decide⟩
instance atLeastTwo_65 : Nat.AtLeastTwo 65 := ⟨by decide⟩
instance atLeastTwo_85 : Nat.AtLeastTwo 85 := ⟨by decide⟩
instance atLeastTwo_100 : Nat.AtLeastTwo 100 := ⟨by decide⟩
instance atLeastTwo_164 : Nat.AtLeastTwo 164 := ⟨by decide⟩
instance atLeastTwo_1000 : Nat.AtLeastTwo 1000 := ⟨by decide⟩
instance atLeastTwo_1000000 : Nat.AtLeastTwo 1000000 := ⟨by decide⟩

/-! ## The class -/

/-- An ordered field with a square root and an exponential. -/
class ExactArith (K : Type) extends Field K, LinearOrder K, IsStrictOrderedRing K where
  sqrt : K → K
  exp : K → K
  sqrt_nonneg : ∀ x, 0 ≤ sqrt x
  sqrt_zero : sqrt 0 = 0
  exp_pos : ∀ x, 0 < exp x
  exp_le_one : ∀ x, x ≤ 0 → exp x ≤ 1

attribute [simp] ExactArith.sqrt_zero

/-! ## The real and the rational numbers -/

noncomputable instance : ExactArith ℝ where
  sqrt := Real.sqrt
  exp := Real.exp
  sqrt_nonneg := Real.sqrt_nonneg
  sqrt_zero := Real.sqrt_zero
  exp_pos := Real.exp_pos
  exp_le_one := fun _ h => Real.exp_le_one_iff.2 h

/-- The floor square root of the numerator over the denominator; exact on squares. -/
def ratSqrt (q : ℚ) : ℚ := (Nat.sqrt (q.num.toNat * q.den) : ℚ) / q.den

/-- The partial sum of the exponential series with `n` terms. -/
def expSeries (x : ℚ) : ℕ → ℚ
  | 0 => 0
  | n + 1 => expSeries x n + x ^ n / (n.factorial : ℚ)

/-- Eight terms of the series at `|x|`, inverted below `0`. -/
def ratExp (q : ℚ) : ℚ := if q ≤ 0 then 1 / expSeries (-q) 8 else expSeries q 8

theorem expSeries_succ_ge_one {x : ℚ} (hx : 0 ≤ x) : ∀ n, 1 ≤ expSeries x (n + 1)
  | 0 => by simp [expSeries]
  | n + 1 => by
    have h := expSeries_succ_ge_one hx n
    have : 0 ≤ x ^ (n + 1) / ((n + 1).factorial : ℚ) := by positivity
    rw [expSeries]
    linarith

instance : ExactArith ℚ where
  sqrt := ratSqrt
  exp := ratExp
  sqrt_nonneg := fun x => by unfold ratSqrt; positivity
  sqrt_zero := by simp [ratSqrt]
  exp_pos := fun x => by
    unfold ratExp
    split
    · rename_i h
      have := expSeries_succ_ge_one (x := -x) (by linarith) 7
      positivity
    · rename_i h
      have := expSeries_succ_ge_one (x := x) (by linarith) 7
      linarith
  exp_le_one := fun x h => by
    have := expSeries_succ_ge_one (x := -x) (by linarith) 7
    simp only [ratExp, h, if_true]
    exact (div_le_one (by linarith)).2 this

/-! ## Sample statistics -/

section Stats

variable {K : Type} [ExactArith K]

/-- The arithmetic mean. -/
def mean (xs : List K) : K := xs.sum / xs.length

theorem le_mean {a : K} {xs : List K} (hne : xs ≠ []) (h : ∀ x ∈ xs, a ≤ x) : a ≤ mean xs := by
  have hpos : (0 : K) < xs.length := Nat.cast_pos.2 (List.length_pos_iff.2 hne)
  have hsum := List.card_nsmul_le_sum xs a h
  rw [nsmul_eq_mul] at hsum
  exact (le_div_iff₀' hpos).2 hsum

theorem mean_le {b : K} {xs : List K} (hne : xs ≠ []) (h : ∀ x ∈ xs, x ≤ b) : mean xs ≤ b := by
  have hpos : (0 : K) < xs.length := Nat.cast_pos.2 (List.length_pos_iff.2 hne)
  have hsum := List.sum_le_card_nsmul xs b h
  rw [nsmul_eq_mul] at hsum
  exact (div_le_iff₀' hpos).2 hsum

/-- The mean of a sample lies between any bounds of the sample. -/
theorem mean_mem {a b : K} {xs : List K} (hne : xs ≠ []) (h : ∀ x ∈ xs, a ≤ x ∧ x ≤ b) : a ≤ mean xs ∧ mean xs ≤ b :=
  ⟨le_mean hne fun x hx => (h x hx).1, mean_le hne fun x hx => (h x hx).2⟩

/-- A sample below `b` has the mean `b` only when it is constant. -/
theorem mean_eq_iff_of_le {b : K} {xs : List K} (hne : xs ≠ []) (h : ∀ x ∈ xs, x ≤ b) :
    mean xs = b ↔ ∀ x ∈ xs, x = b := by
  have hpos : (0 : K) < xs.length := Nat.cast_pos.2 (List.length_pos_iff.2 hne)
  constructor
  · intro hm x hx
    by_contra hxb
    have hlt : (xs.map id).sum < (xs.map fun _ => b).sum :=
      List.sum_lt_sum id (fun _ => b) h ⟨x, hx, lt_of_le_of_ne (h x hx) hxb⟩
    rw [List.map_id, List.map_const', List.sum_replicate, nsmul_eq_mul] at hlt
    rw [mean, div_eq_iff hpos.ne', mul_comm] at hm
    exact hlt.ne hm
  · intro hx
    exact le_antisymm (mean_mem hne fun x hm => ⟨(hx x hm).ge, (hx x hm).le⟩).2
      (mean_mem hne fun x hm => ⟨(hx x hm).ge, (hx x hm).le⟩).1

/-- The mean of a non-negative sample is positive when a value is. -/
theorem mean_pos_iff {xs : List K} (hne : xs ≠ []) (h : ∀ x ∈ xs, 0 ≤ x) : 0 < mean xs ↔ ∃ x ∈ xs, 0 < x := by
  have hpos : (0 : K) < xs.length := Nat.cast_pos.2 (List.length_pos_iff.2 hne)
  constructor
  · intro hm
    by_contra hc
    push Not at hc
    have := (mean_mem hne fun x hx => ⟨h x hx, hc x hx⟩).2
    exact absurd hm (not_lt.2 this)
  · rintro ⟨x, hx, hx0⟩
    exact div_pos (lt_of_lt_of_le hx0 (List.single_le_sum h x hx)) hpos

/-- The mean of one column and the mean difference add up to the mean of the other. -/
theorem mean_add_mean_sub {xs : List (K × K)} :
    mean (xs.map Prod.snd) + mean (xs.map fun x => x.1 - x.2) = mean (xs.map Prod.fst) := by
  have hsum : (xs.map Prod.snd).sum + (xs.map fun x => x.1 - x.2).sum = (xs.map Prod.fst).sum := by
    induction xs with
    | nil => simp
    | cons x xs ih =>
      simp only [List.map_cons, List.sum_cons]
      linarith
  simp only [mean, List.length_map]
  rw [← add_div, hsum]

/-- The standard error of the mean, from the sample variance with `n - 1` degrees of freedom. -/
def standardErrorOfMean (xs : List K) : K :=
  ExactArith.sqrt ((xs.map fun x => (x - mean xs) ^ 2).sum / ((xs.length : K) - 1) / xs.length)

end Stats

end Kit

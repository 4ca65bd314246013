import Mathlib

/-!
# Falling polylines

A list of breakpoints `(x, y)` with growing `x` and falling `y` is a line that starts level, falls from breakpoint to
breakpoint and ends level (`polyline`). The definition only needs a division that is monotone and cancels a product
(`Division`), so it is read over a field, where it is the real line, and over the integers, where the drop of a segment
is rounded down.

* Over both the line falls (`polyline_antitone`) and stays between its last and its first height (`polyline_le`,
  `le_polyline`).
* The integer line is never below the real one (`polyline_cast_le`).
-/

namespace Kit.Polyline

section Definition

variable {K : Type} [Sub K] [Mul K] [Div K] [LT K] [DecidableLT K]

/-- The line between two breakpoints. -/
def segment (lo hi : K × K) (x : K) : K := lo.2 - (lo.2 - hi.2) * (x - lo.1) / (hi.1 - lo.1)

/-- The line from the breakpoint `lo` on, level after the last one. -/
def descent (lo : K × K) : List (K × K) → K → K
  | [], _ => lo.2
  | hi :: rest, x => if hi.1 < x then descent hi rest x else segment lo hi x

/-- The line with first breakpoint `p`, level before it. -/
def polyline (p : K × K) (rest : List (K × K)) (x : K) : K := if p.1 < x then descent p rest x else p.2

end Definition

/-- A division that is monotone in the dividend and cancels a product. -/
structure Division (K : Type) [CommRing K] [LinearOrder K] [Div K] : Prop where
  mono : ∀ {a b c : K}, 0 < c → a ≤ b → a / c ≤ b / c
  cancel : ∀ {a c : K}, 0 < c → a * c / c = a

theorem Division.int : Division ℤ where
  mono := fun hc h => Int.ediv_le_ediv hc h
  cancel := fun hc => Int.mul_ediv_cancel _ hc.ne'

theorem Division.rat : Division ℚ where
  mono := fun hc h => div_le_div_of_nonneg_right h hc.le
  cancel := fun hc => mul_div_cancel_right₀ _ hc.ne'

section Falling

variable {K : Type} [LinearOrder K]

/-- The breakpoints move right and down. -/
def Falling (lo : K × K) : List (K × K) → Prop
  | [] => True
  | hi :: rest => lo.1 < hi.1 ∧ hi.2 ≤ lo.2 ∧ Falling hi rest

instance decidableFalling : ∀ (lo : K × K) (rest : List (K × K)), Decidable (Falling lo rest)
  | _, [] => inferInstanceAs (Decidable True)
  | lo, hi :: rest =>
    have := decidableFalling hi rest
    inferInstanceAs (Decidable (lo.1 < hi.1 ∧ hi.2 ≤ lo.2 ∧ Falling hi rest))

/-- The height of the last breakpoint. -/
def floorOf (lo : K × K) : List (K × K) → K
  | [] => lo.2
  | hi :: rest => floorOf hi rest

theorem floorOf_le {lo : K × K} {rest : List (K × K)} (hf : Falling lo rest) : floorOf lo rest ≤ lo.2 := by
  induction rest generalizing lo with
  | nil => exact le_refl _
  | cons hi rest ih => exact (ih hf.2.2).trans hf.2.1

end Falling

section Order

variable {K : Type} [CommRing K] [LinearOrder K] [IsStrictOrderedRing K] [Div K]
variable (hdiv : Division K)

include hdiv

theorem segment_le {lo hi : K × K} {x : K} (hlt : lo.1 < hi.1) (hle : hi.2 ≤ lo.2) (hx : lo.1 ≤ x) :
    segment lo hi x ≤ lo.2 := by
  have hc : 0 < hi.1 - lo.1 := sub_pos.2 hlt
  have hdrop : 0 ≤ (lo.2 - hi.2) * (x - lo.1) := mul_nonneg (sub_nonneg.2 hle) (sub_nonneg.2 hx)
  have h := hdiv.mono hc hdrop
  have hzero : (0 : K) / (hi.1 - lo.1) = 0 := by simpa using hdiv.cancel hc (a := 0)
  rw [hzero] at h
  rw [segment]
  linarith

theorem le_segment {lo hi : K × K} {x : K} (hlt : lo.1 < hi.1) (hle : hi.2 ≤ lo.2) (hx : x ≤ hi.1) :
    hi.2 ≤ segment lo hi x := by
  have hc : 0 < hi.1 - lo.1 := sub_pos.2 hlt
  have hdrop : (lo.2 - hi.2) * (x - lo.1) ≤ (lo.2 - hi.2) * (hi.1 - lo.1) :=
    mul_le_mul_of_nonneg_left (by linarith) (sub_nonneg.2 hle)
  have h := hdiv.mono hc hdrop
  rw [hdiv.cancel hc] at h
  rw [segment]
  linarith

theorem segment_antitone {lo hi : K × K} {x y : K} (hlt : lo.1 < hi.1) (hle : hi.2 ≤ lo.2) (hxy : x ≤ y) :
    segment lo hi y ≤ segment lo hi x := by
  have hdrop : (lo.2 - hi.2) * (x - lo.1) ≤ (lo.2 - hi.2) * (y - lo.1) :=
    mul_le_mul_of_nonneg_left (by linarith) (sub_nonneg.2 hle)
  have h := hdiv.mono (sub_pos.2 hlt) hdrop
  rw [segment, segment]
  linarith

/-- The line stays at or below the breakpoint it starts from. -/
theorem descent_le {lo : K × K} {rest : List (K × K)} {x : K} (hf : Falling lo rest) (hx : lo.1 ≤ x) :
    descent lo rest x ≤ lo.2 := by
  induction rest generalizing lo with
  | nil => exact le_refl _
  | cons hi rest ih =>
    obtain ⟨hlt, hle, hrest⟩ := hf
    rw [descent]
    split
    · next h => exact (ih hrest h.le).trans hle
    · exact segment_le hdiv hlt hle hx

/-- The line stays at or above its last breakpoint. -/
theorem le_descent {lo : K × K} {rest : List (K × K)} {x : K} (hf : Falling lo rest) :
    floorOf lo rest ≤ descent lo rest x := by
  induction rest generalizing lo with
  | nil => exact le_refl _
  | cons hi rest ih =>
    obtain ⟨hlt, hle, hrest⟩ := hf
    rw [descent, floorOf]
    split
    · exact ih hrest
    · next h => exact (floorOf_le hrest).trans (le_segment hdiv hlt hle (not_lt.1 h))

/-- The line falls; a step over a breakpoint passes its height. -/
theorem descent_antitone {lo : K × K} {rest : List (K × K)} {x y : K} (hf : Falling lo rest) (hxy : x ≤ y) :
    descent lo rest y ≤ descent lo rest x := by
  induction rest generalizing lo with
  | nil => exact le_refl _
  | cons hi rest ih =>
    obtain ⟨hlt, hle, hrest⟩ := hf
    rw [descent, descent]
    by_cases hx : hi.1 < x
    · rw [if_pos hx, if_pos (hx.trans_le hxy)]
      exact ih hrest
    · rw [if_neg hx]
      split
      · next hy => exact (descent_le hdiv hrest hy.le).trans (le_segment hdiv hlt hle (not_lt.1 hx))
      · exact segment_antitone hdiv hlt hle hxy

variable {p : K × K} {rest : List (K × K)}

theorem polyline_le (hf : Falling p rest) (x : K) : polyline p rest x ≤ p.2 := by
  rw [polyline]
  split
  · next h => exact descent_le hdiv hf h.le
  · exact le_refl _

theorem le_polyline (hf : Falling p rest) (x : K) : floorOf p rest ≤ polyline p rest x := by
  rw [polyline]
  split
  · exact le_descent hdiv hf
  · exact floorOf_le hf

theorem polyline_antitone (hf : Falling p rest) {x y : K} (hxy : x ≤ y) :
    polyline p rest y ≤ polyline p rest x := by
  rw [polyline, polyline]
  by_cases hx : p.1 < x
  · rw [if_pos hx, if_pos (hx.trans_le hxy)]
    exact descent_antitone hdiv hf hxy
  · rw [if_neg hx]
    split
    · next hy => exact descent_le hdiv hf hy.le
    · exact le_refl _

end Order

/-! ## The integer line and the real line -/

/-- The breakpoint as a point of the real line. -/
def real (p : ℤ × ℤ) : ℚ × ℚ := (p.1, p.2)

theorem segment_cast_le {lo hi : ℤ × ℤ} {x : ℤ} (hlt : lo.1 < hi.1) :
    segment (real lo) (real hi) (x : ℚ) ≤ (segment lo hi x : ℤ) := by
  have hc : 0 < hi.1 - lo.1 := sub_pos.2 hlt
  have h : (((lo.2 - hi.2) * (x - lo.1) / (hi.1 - lo.1) : ℤ) : ℚ) ≤
      ((lo.2 - hi.2) * (x - lo.1) : ℤ) / ((hi.1 - lo.1 : ℤ) : ℚ) := by
    rw [le_div_iff₀ (Int.cast_pos.2 hc)]
    exact_mod_cast Int.ediv_mul_le ((lo.2 - hi.2) * (x - lo.1)) hc.ne'
  rw [segment, segment, real, real]
  push_cast at h ⊢
  linarith

theorem falling_real {lo : ℤ × ℤ} {rest : List (ℤ × ℤ)} (hf : Falling lo rest) :
    Falling (real lo) (rest.map real) := by
  induction rest generalizing lo with
  | nil => trivial
  | cons hi rest ih =>
    obtain ⟨hlt, hle, hrest⟩ := hf
    exact ⟨Int.cast_lt.2 hlt, Int.cast_le.2 hle, ih hrest⟩

theorem descent_cast_le {lo : ℤ × ℤ} {rest : List (ℤ × ℤ)} {x : ℤ} (hf : Falling lo rest) :
    descent (real lo) (rest.map real) (x : ℚ) ≤ (descent lo rest x : ℤ) := by
  induction rest generalizing lo with
  | nil => exact le_refl _
  | cons hi rest ih =>
    obtain ⟨hlt, hle, hrest⟩ := hf
    rw [List.map_cons, descent, descent]
    by_cases h : hi.1 < x
    · rw [if_pos h, if_pos (show (real hi).1 < x from Int.cast_lt.2 h)]
      exact ih hrest
    · rw [if_neg h, if_neg (show ¬ (real hi).1 < x from fun h' => h (Int.cast_lt.1 h'))]
      exact segment_cast_le hlt

/-- Rounding the drops down never takes the integer line below the real one. -/
theorem polyline_cast_le {p : ℤ × ℤ} {rest : List (ℤ × ℤ)} (hf : Falling p rest) (x : ℤ) :
    polyline (real p) (rest.map real) (x : ℚ) ≤ (polyline p rest x : ℤ) := by
  rw [polyline, polyline]
  by_cases h : p.1 < x
  · rw [if_pos h, if_pos (show (real p).1 < x from Int.cast_lt.2 h)]
    exact descent_cast_le hf
  · rw [if_neg h, if_neg (show ¬ (real p).1 < x from fun h' => h (Int.cast_lt.1 h'))]
    exact le_refl _

end Kit.Polyline

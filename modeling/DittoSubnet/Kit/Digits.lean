import Mathlib

/-!
# Fixed-width digit strings

`digits digit base w n` is the `w`-digit numeral of `n`, most significant digit first. When the digit characters ascend
the lexicographic order of numerals is the order of the numbers (`digits_lt_iff`), and a separator at a fixed position
does not change the order of two strings (`lex_separator`).
-/

namespace Kit

variable {α : Type}

/-- The `w`-digit numeral of `n`, most significant digit first. -/
def digits (digit : ℕ → α) (base : ℕ) : ℕ → ℕ → List α
  | 0, _ => []
  | w + 1, n => digit (n / base ^ w % base) :: digits digit base w n

theorem length_digits (digit : ℕ → α) (base : ℕ) : ∀ w n, (digits digit base w n).length = w
  | 0, _ => rfl
  | w + 1, n => by rw [digits, List.length_cons, length_digits digit base w n]

/-- The digits below the width only depend on the residue. -/
theorem digits_mod (digit : ℕ → α) {base : ℕ} : ∀ w v n, w ≤ v → digits digit base w (n % base ^ v) =
    digits digit base w n
  | 0, _, _, _ => rfl
  | w + 1, v, n, h => by
    have hdiv : n % base ^ v / base ^ w % base = n / base ^ w % base := by
      obtain ⟨k, rfl⟩ : ∃ k, v = w + (k + 1) := ⟨v - w - 1, by omega⟩
      rw [pow_add, Nat.mod_mul_right_div_self, pow_succ', Nat.mod_mul_right_mod]
    rw [digits, digits, hdiv, digits_mod digit w v n (by omega)]

/-- Numbers compare by quotient, then by remainder. -/
theorem lt_iff_div_lt_or_mod_lt {B : ℕ} (hB : 0 < B) (m n : ℕ) :
    m < n ↔ m / B < n / B ∨ m / B = n / B ∧ m % B < n % B := by
  have hm := Nat.div_add_mod m B
  have hn := Nat.div_add_mod n B
  have hrm := Nat.mod_lt m hB
  have hrn := Nat.mod_lt n hB
  rcases lt_trichotomy (m / B) (n / B) with h | h | h
  · have : B * (m / B + 1) ≤ B * (n / B) := Nat.mul_le_mul_left B h
    rw [Nat.mul_add, Nat.mul_one] at this
    constructor <;> omega
  · rw [h] at hm ⊢
    constructor <;> omega
  · have : B * (n / B + 1) ≤ B * (m / B) := Nat.mul_le_mul_left B h
    rw [Nat.mul_add, Nat.mul_one] at this
    constructor <;> omega

section Order

variable [LinearOrder α]

/-- Numerals of one width compare like the numbers. -/
theorem digits_lt_iff {digit : ℕ → α} {base : ℕ} (hb : 0 < base)
    (hd : ∀ i j, i < base → j < base → (digit i < digit j ↔ i < j)) :
    ∀ (w m n : ℕ), m < base ^ w → n < base ^ w → (digits digit base w m < digits digit base w n ↔ m < n)
  | 0, m, n, hm, hn => by
    have : m = n := by simp only [pow_zero] at hm hn; omega
    simp [digits, this]
  | w + 1, m, n, hm, hn => by
    have hpos : 0 < base ^ w := pow_pos hb w
    have hq : ∀ k, k < base ^ (w + 1) → k / base ^ w < base := fun k hk =>
      Nat.div_lt_of_lt_mul (by rwa [pow_succ] at hk)
    have hlow : ∀ k, digits digit base w k = digits digit base w (k % base ^ w) := fun k =>
      (digits_mod digit w w k le_rfl).symm
    have heq : digit (m / base ^ w) = digit (n / base ^ w) ↔ m / base ^ w = n / base ^ w := by
      refine ⟨fun h => ?_, fun h => by rw [h]⟩
      have h₁ := hd _ _ (hq m hm) (hq n hn)
      have h₂ := hd _ _ (hq n hn) (hq m hm)
      rw [h] at h₁ h₂
      simp only [lt_irrefl, false_iff, not_lt] at h₁ h₂
      omega
    simp only [digits, Nat.mod_eq_of_lt (hq m hm), Nat.mod_eq_of_lt (hq n hn), List.cons_lt_cons_iff,
      hd _ _ (hq m hm) (hq n hn), heq, hlow m, hlow n]
    rw [digits_lt_iff hb hd w _ _ (Nat.mod_lt _ hpos) (Nat.mod_lt _ hpos), lt_iff_div_lt_or_mod_lt hpos m n]

/-- Blocks of one length compare before what follows them. -/
theorem append_lt_append_iff : ∀ {x y : List α} {l m : List α}, x.length = y.length →
    (x ++ l < y ++ m ↔ x < y ∨ x = y ∧ l < m)
  | [], [], l, m, _ => by simp
  | a :: x, b :: y, l, m, h => by
    simp only [List.length_cons, Nat.add_right_cancel_iff] at h
    simp only [List.cons_append, List.cons_lt_cons_iff, append_lt_append_iff h, List.cons.injEq]
    tauto

/-- A separator after blocks of one length does not change the order. -/
theorem lex_separator {x y l m l' m' : List α} (c : α) (h : x.length = y.length) (hlm : l < m ↔ l' < m') :
    x ++ c :: l < y ++ c :: m ↔ x ++ l' < y ++ m' := by
  rw [append_lt_append_iff h, append_lt_append_iff h, List.cons_lt_cons_iff, hlm]
  simp

end Order

end Kit

import Mathlib.Data.List.Basic
import Mathlib.Tactic

/-!
# UTF-8, a rune at a time

`decodeRune` takes the first rune off a byte string, with the ranges that the first byte gives for the second;
`valid` says that nothing but runes is left to the end. A byte below 0x80 is a rune of its own and no part of a longer
one, so a byte string can be cut at it (`valid_append_ascii`), whatever stands on its sides.
-/

namespace Kit.Utf8

/-- The first byte of a longer rune: how many bytes follow, the range of the first of them, its own bits. -/
structure Lead where
  tails : ℕ
  low : ℕ
  high : ℕ
  bits : ℕ
  deriving DecidableEq, Repr

/-- What a first byte from 0x80 on announces. -/
def lead (b : ℕ) : Option Lead :=
  if 0xC2 ≤ b ∧ b ≤ 0xDF then some ⟨1, 0x80, 0xBF, b % 32⟩
  else if b = 0xE0 then some ⟨2, 0xA0, 0xBF, b % 16⟩
  else if b = 0xED then some ⟨2, 0x80, 0x9F, b % 16⟩
  else if 0xE1 ≤ b ∧ b ≤ 0xEF then some ⟨2, 0x80, 0xBF, b % 16⟩
  else if b = 0xF0 then some ⟨3, 0x90, 0xBF, b % 8⟩
  else if 0xF1 ≤ b ∧ b ≤ 0xF3 then some ⟨3, 0x80, 0xBF, b % 8⟩
  else if b = 0xF4 then some ⟨3, 0x80, 0x8F, b % 8⟩
  else none

/-- Reads the bytes that follow, the first of them in its own range. -/
def readTails : ℕ → ℕ → ℕ → ℕ → List UInt8 → Option (ℕ × List UInt8)
  | 0, _, _, code, rest => some (code, rest)
  | _ + 1, _, _, _, [] => none
  | n + 1, low, high, code, b :: rest =>
    if low ≤ b.toNat ∧ b.toNat ≤ high then readTails n 0x80 0xBF (code * 64 + b.toNat % 64) rest else none

/-- The first rune of a byte string and what follows it, if there is one. -/
def decodeRune : List UInt8 → Option (ℕ × List UInt8)
  | [] => none
  | b :: rest =>
    if b.toNat < 0x80 then some (b.toNat, rest)
    else match lead b.toNat with
      | none => none
      | some l => readTails l.tails l.low l.high l.bits rest

theorem length_readTails : ∀ {n low high code : ℕ} {bytes rest : List UInt8} {code' : ℕ},
    readTails n low high code bytes = some (code', rest) → rest.length ≤ bytes.length
  | 0, _, _, _, bytes, rest, _, h => by
    simp only [readTails, Option.some.injEq, Prod.mk.injEq] at h
    rw [h.2]
  | _ + 1, _, _, _, [], _, _, h => by simp [readTails] at h
  | n + 1, low, high, code, b :: bytes, rest, _, h => by
    simp only [readTails] at h
    split at h
    · have := length_readTails h
      rw [List.length_cons]
      omega
    · cases h

theorem length_decodeRune {bytes rest : List UInt8} {code : ℕ} (h : decodeRune bytes = some (code, rest)) :
    rest.length < bytes.length := by
  cases bytes with
  | nil => cases h
  | cons b bytes =>
    simp only [decodeRune] at h
    split at h
    · simp only [Option.some.injEq, Prod.mk.injEq] at h
      rw [h.2, List.length_cons]
      omega
    · split at h
      · cases h
      · have := length_readTails h
        rw [List.length_cons]
        omega

/-- Nothing but runes. -/
def valid (bytes : List UInt8) : Bool :=
  match _h : decodeRune bytes with
  | none => bytes.isEmpty
  | some (_, rest) => valid rest
termination_by bytes.length
decreasing_by exact length_decodeRune _h

@[simp] theorem valid_nil : valid [] = true := by
  rw [valid]
  rfl

theorem valid_of_none {bytes : List UInt8} (hne : bytes ≠ []) (h : decodeRune bytes = none) : valid bytes = false := by
  rw [valid]
  split
  · simpa using hne
  · rename_i h'
    rw [h] at h'
    cases h'

theorem valid_of_some {bytes rest : List UInt8} {code : ℕ} (h : decodeRune bytes = some (code, rest)) :
    valid bytes = valid rest := by
  rw [valid]
  split
  · rename_i h'
    rw [h] at h'
    cases h'
  · rename_i code' rest' h'
    rw [h] at h'
    cases h'
    rfl

theorem decodeRune_ascii {b : UInt8} (hb : b.toNat < 0x80) (rest : List UInt8) :
    decodeRune (b :: rest) = some (b.toNat, rest) := by
  simp [decodeRune, hb]

theorem valid_ascii {b : UInt8} (hb : b.toNat < 0x80) (rest : List UInt8) : valid (b :: rest) = valid rest :=
  valid_of_some (decodeRune_ascii hb rest)

/-- The bytes that follow a first byte are not ASCII. -/
theorem low_of_lead {b : ℕ} {l : Lead} (h : lead b = some l) : 0x80 ≤ l.low := by
  unfold lead at h
  split_ifs at h <;> cases h <;> simp

/-- An ASCII byte is no part of a longer rune. -/
theorem readTails_append_ascii {a : UInt8} (ha : a.toNat < 0x80) (v : List UInt8) : ∀ (n : ℕ) {low high code : ℕ}
    (u : List UInt8), 0x80 ≤ low →
    readTails n low high code (u ++ a :: v) = (readTails n low high code u).map fun cr => (cr.1, cr.2 ++ a :: v)
  | 0, _, _, _, u, _ => rfl
  | n + 1, low, high, code, [], hlow => by
    have : ¬ (low ≤ a.toNat ∧ a.toNat ≤ high) := by omega
    simp [readTails, this]
  | n + 1, low, high, code, b :: u, hlow => by
    simp only [List.cons_append, readTails]
    split
    · exact readTails_append_ascii ha v n u (le_refl _)
    · rfl

theorem decodeRune_append_ascii {a : UInt8} (ha : a.toNat < 0x80) (v : List UInt8) {u : List UInt8} (hu : u ≠ []) :
    decodeRune (u ++ a :: v) = (decodeRune u).map fun cr => (cr.1, cr.2 ++ a :: v) := by
  cases u with
  | nil => exact absurd rfl hu
  | cons b u =>
    simp only [List.cons_append, decodeRune]
    split
    · rfl
    · cases hl : lead b.toNat with
      | none => rfl
      | some l => exact readTails_append_ascii ha v l.tails u (low_of_lead hl)

/-- A byte string can be cut at an ASCII byte. -/
theorem valid_append_ascii {a : UInt8} (ha : a.toNat < 0x80) (v : List UInt8) (u : List UInt8) :
    valid (u ++ a :: v) = (valid u && valid v) := by
  induction hn : u.length using Nat.strong_induction_on generalizing u with
  | _ n ih =>
    by_cases hu : u = []
    · rw [hu, List.nil_append, valid_ascii ha, valid_nil, Bool.true_and]
    · have happend := decodeRune_append_ascii ha v hu
      cases hd : decodeRune u with
      | none =>
        rw [hd] at happend
        rw [valid_of_none (by simp) happend, valid_of_none hu hd, Bool.false_and]
      | some cr =>
        obtain ⟨code, rest⟩ := cr
        rw [hd] at happend
        rw [valid_of_some happend, valid_of_some hd]
        exact ih rest.length (by rw [← hn]; exact length_decodeRune hd) rest rfl

end Kit.Utf8

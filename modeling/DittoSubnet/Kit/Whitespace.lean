import Mathlib.Tactic

/-!
# White space

The characters that two standard libraries call white space: `unicode.IsSpace` of Go, and `str.isspace` of Python, which
counts the four separators from `U+001C` as well.
-/

namespace Kit

/-- `unicode.IsSpace`. -/
def unicodeSpace (c : Char) : Bool :=
  (9 ≤ c.toNat && c.toNat ≤ 13) || (0x2000 ≤ c.toNat && c.toNat ≤ 0x200A) ||
    c.toNat ∈ [0x20, 0x85, 0xA0, 0x1680, 0x2028, 0x2029, 0x202F, 0x205F, 0x3000]

/-- `str.isspace` of one character. -/
def strSpace (c : Char) : Bool := unicodeSpace c || (0x1C ≤ c.toNat && c.toNat ≤ 0x1F)

end Kit

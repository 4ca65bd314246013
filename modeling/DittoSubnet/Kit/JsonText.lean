import Mathlib.Data.List.Basic
import Mathlib.Tactic

/-!
# JSON texts as bytes

The grammar of JSON over bytes, with the string literals of a text in the order they are written. Between its quotes a
literal is a list of items: bytes that stand for themselves, of any value from 0x20 on, two-byte escapes, and `\u` with
four hex digits. Whether the items spell Unicode text is left open.

* `Derives`: what is a JSON text, and with which literals.
* `Derives.segmented`: outside its literals a text holds neither quotes nor backslashes, and nothing but ASCII.
* `paired_iff`: surrogate escapes stand in pairs, said of positions and decided from left to right.
-/

namespace Kit.JsonText

/-! ## String literals -/

/-- The value of a hex digit. -/
def hexDigit (b : UInt8) : Option ℕ :=
  if 0x30 ≤ b.toNat ∧ b.toNat ≤ 0x39 then some (b.toNat - 0x30)
  else if 0x61 ≤ b.toNat ∧ b.toNat ≤ 0x66 then some (b.toNat - 0x61 + 10)
  else if 0x41 ≤ b.toNat ∧ b.toNat ≤ 0x46 then some (b.toNat - 0x41 + 10)
  else none

/-- What a literal is written with between its quotes. -/
inductive Item
  | byte (b : UInt8)
  | escape (b : UInt8)
  | unicode (h₃ h₂ h₁ h₀ : UInt8)
  deriving DecidableEq, Repr

namespace Item

def bytes : Item → List UInt8
  | byte b => [b]
  | escape b => [0x5C, b]
  | unicode h₃ h₂ h₁ h₀ => [0x5C, 0x75, h₃, h₂, h₁, h₀]

/-- No control byte, quote or backslash stands for itself; `"`, `\`, `/`, `b`, `f`, `n`, `r`, `t` follow a backslash. -/
def WellFormed : Item → Prop
  | byte b => 0x20 ≤ b.toNat ∧ b ≠ 0x22 ∧ b ≠ 0x5C
  | escape b => b ∈ [0x22, 0x5C, 0x2F, 0x62, 0x66, 0x6E, 0x72, 0x74]
  | unicode h₃ h₂ h₁ h₀ => ∀ h ∈ [h₃, h₂, h₁, h₀], (hexDigit h).isSome

/-- The code that a `\u` escape names. -/
def code : Item → Option ℕ
  | unicode h₃ h₂ h₁ h₀ => do
    let d₃ ← hexDigit h₃
    let d₂ ← hexDigit h₂
    let d₁ ← hexDigit h₁
    let d₀ ← hexDigit h₀
    pure ((d₃ * 16 + d₂) * 256 + (d₁ * 16 + d₀))
  | _ => none

/-- An escape of a high surrogate. -/
def isHigh (item : Item) : Bool := item.code.any fun c => 0xD800 ≤ c && c ≤ 0xDBFF

/-- An escape of a low surrogate. -/
def isLow (item : Item) : Bool := item.code.any fun c => 0xDC00 ≤ c && c ≤ 0xDFFF

theorem not_isLow_of_isHigh {item : Item} (h : item.isHigh = true) : item.isLow = false := by
  unfold isHigh at h
  unfold isLow
  cases hc : item.code with
  | none => rfl
  | some c =>
    rw [hc] at h
    simp only [Option.any_some, Bool.and_eq_true, decide_eq_true_eq] at h
    simp only [Option.any_some, Bool.and_eq_false_iff, decide_eq_false_iff_not]
    omega

end Item

/-- A string literal. -/
structure Literal where
  items : List Item
  wellFormed : ∀ item ∈ items, item.WellFormed

/-- What stands between the quotes. -/
def Literal.content (literal : Literal) : List UInt8 := literal.items.flatMap Item.bytes

/-- The literal as it is written. -/
def Literal.quoted (literal : Literal) : List UInt8 := 0x22 :: (literal.content ++ [0x22])

/-! ## Paired surrogates -/

/-- Every escape of a high surrogate is followed by one of a low surrogate, and every escape of a low surrogate follows
one of a high surrogate. -/
def Paired (items : List Item) : Prop :=
  (∀ i item, items[i]? = some item → item.isHigh = true → ∃ next, items[i + 1]? = some next ∧ next.isLow = true) ∧
  ∀ i item, items[i]? = some item → item.isLow = true →
    ∃ j previous, i = j + 1 ∧ items[j]? = some previous ∧ previous.isHigh = true

/-- The pairs, from left to right. -/
def pairs : List Item → Bool
  | [] => true
  | [item] => !item.isHigh && !item.isLow
  | item :: next :: rest =>
    if item.isHigh then next.isLow && pairs rest else !item.isLow && pairs (next :: rest)

/-- An item that is no surrogate changes nothing. -/
theorem paired_cons {item : Item} {rest : List Item} (hhigh : item.isHigh = false) (hlow : item.isLow = false) :
    Paired (item :: rest) ↔ Paired rest := by
  constructor
  · rintro ⟨hh, hl⟩
    refine ⟨fun i x hx hi => hh (i + 1) x hx hi, ?_⟩
    intro i x hx hi
    obtain ⟨j, p, hij, hp, hph⟩ := hl (i + 1) x hx hi
    obtain rfl : i = j := by omega
    cases i with
    | zero =>
      obtain rfl : item = p := by simpa using hp
      rw [hhigh] at hph
      cases hph
    | succ i => exact ⟨i, p, rfl, hp, hph⟩
  · rintro ⟨hh, hl⟩
    constructor
    · intro i x hx hi
      cases i with
      | zero =>
        obtain rfl : item = x := by simpa using hx
        rw [hhigh] at hi
        cases hi
      | succ i => exact hh i x hx hi
    · intro i x hx hi
      cases i with
      | zero =>
        obtain rfl : item = x := by simpa using hx
        rw [hlow] at hi
        cases hi
      | succ i =>
        obtain ⟨j, p, hij, hp, hph⟩ := hl i x hx hi
        exact ⟨j + 1, p, by omega, hp, hph⟩

/-- A pair changes nothing. -/
theorem paired_pair {item next : Item} {rest : List Item} (hhigh : item.isHigh = true) (hlow : next.isLow = true) :
    Paired (item :: next :: rest) ↔ Paired rest := by
  have hnext : next.isHigh = false := by
    by_contra h
    rw [Item.not_isLow_of_isHigh (by simpa using h)] at hlow
    cases hlow
  have hitem := Item.not_isLow_of_isHigh hhigh
  constructor
  · rintro ⟨hh, hl⟩
    refine ⟨fun i x hx hi => hh (i + 2) x hx hi, ?_⟩
    intro i x hx hi
    obtain ⟨j, p, hij, hp, hph⟩ := hl (i + 2) x hx hi
    obtain rfl : i + 1 = j := by omega
    cases i with
    | zero =>
      obtain rfl : next = p := by simpa using hp
      rw [hnext] at hph
      cases hph
    | succ i => exact ⟨i, p, rfl, hp, hph⟩
  · rintro ⟨hh, hl⟩
    constructor
    · intro i x hx hi
      match i with
      | 0 => exact ⟨next, rfl, hlow⟩
      | 1 =>
        obtain rfl : next = x := by simpa using hx
        rw [hnext] at hi
        cases hi
      | i + 2 => exact hh i x hx hi
    · intro i x hx hi
      match i with
      | 0 =>
        obtain rfl : item = x := by simpa using hx
        rw [hitem] at hi
        cases hi
      | 1 => exact ⟨0, item, rfl, rfl, hhigh⟩
      | i + 2 =>
        obtain ⟨j, p, hij, hp, hph⟩ := hl i x hx hi
        exact ⟨j + 2, p, by omega, hp, hph⟩

/-- A high surrogate that nothing pairs. -/
theorem not_paired_of_high {item : Item} {rest : List Item} (hhigh : item.isHigh = true)
    (hnext : ∀ next, rest[0]? = some next → next.isLow = false) : ¬ Paired (item :: rest) := by
  rintro ⟨hh, -⟩
  obtain ⟨next, hn, hlow⟩ := hh 0 item rfl hhigh
  rw [hnext next hn] at hlow
  cases hlow

/-- A low surrogate that comes first. -/
theorem not_paired_of_low {item : Item} {rest : List Item} (hlow : item.isLow = true) : ¬ Paired (item :: rest) := by
  rintro ⟨-, hl⟩
  obtain ⟨j, -, hj, -⟩ := hl 0 item rfl hlow
  omega

theorem paired_iff (items : List Item) : Paired items ↔ pairs items = true := by
  fun_induction pairs items with
  | case1 => simp [Paired]
  | case2 item =>
    by_cases hhigh : item.isHigh = true
    · simp [hhigh, @not_paired_of_high item [] hhigh]
    · by_cases hlow : item.isLow = true
      · simp [hlow, not_paired_of_low hlow]
      · rw [paired_cons (by simpa using hhigh) (by simpa using hlow)]
        simp [hhigh, hlow, Paired]
  | case3 item next rest hhigh ih =>
    by_cases hlow : next.isLow = true
    · rw [paired_pair hhigh hlow, ih, hlow, Bool.true_and]
    · have hnot : ¬ Paired (item :: next :: rest) := not_paired_of_high hhigh fun x hx => by
        obtain rfl : next = x := by simpa using hx
        simpa using hlow
      simp [hlow, hnot]
  | case4 item next rest hhigh ih =>
    by_cases hlow : item.isLow = true
    · simp [hlow, not_paired_of_low hlow]
    · rw [paired_cons (by simpa using hhigh) (by simpa using hlow), ih]
      simp [hlow]

/-! ## The grammar -/

/-- Blanks. -/
def Space (bytes : List UInt8) : Prop := ∀ b ∈ bytes, b = 0x20 ∨ b = 0x09 ∨ b = 0x0A ∨ b = 0x0D

def Digit (b : UInt8) : Prop := 0x30 ≤ b.toNat ∧ b.toNat ≤ 0x39

/-- A number: `-?(0|[1-9][0-9]*)(\.[0-9]+)?([eE][+-]?[0-9]+)?`. -/
structure Number (bytes : List UInt8) : Prop where
  parts : ∃ sign whole fraction exponent, bytes = sign ++ whole ++ fraction ++ exponent ∧
    (sign = [] ∨ sign = [0x2D]) ∧
    (whole = [0x30] ∨ ∃ d ds, whole = d :: ds ∧ Digit d ∧ d ≠ 0x30 ∧ ∀ d ∈ ds, Digit d) ∧
    (fraction = [] ∨ ∃ ds, fraction = 0x2E :: ds ∧ ds ≠ [] ∧ ∀ d ∈ ds, Digit d) ∧
    (exponent = [] ∨ ∃ e s ds, exponent = e :: s ++ ds ∧ (e = 0x65 ∨ e = 0x45) ∧ (s = [] ∨ s = [0x2B] ∨ s = [0x2D]) ∧
      ds ≠ [] ∧ ∀ d ∈ ds, Digit d)

/-- The symbols of the grammar: a value, a value between blanks, and what brackets and braces hold. -/
inductive Sym
  | value
  | element
  | elements
  | members

/-- What a symbol derives, and the string literals in it. -/
inductive Derives : Sym → List UInt8 → List Literal → Prop
  -- `null`, `true`, `false`
  | null : Derives .value [0x6E, 0x75, 0x6C, 0x6C] []
  | true : Derives .value [0x74, 0x72, 0x75, 0x65] []
  | false : Derives .value [0x66, 0x61, 0x6C, 0x73, 0x65] []
  | number {bytes : List UInt8} : Number bytes → Derives .value bytes []
  | string (literal : Literal) : Derives .value literal.quoted [literal]
  -- `[…]`
  | emptyArray {space : List UInt8} : Space space → Derives .value (0x5B :: (space ++ [0x5D])) []
  | array {bytes : List UInt8} {literals : List Literal} : Derives .elements bytes literals →
      Derives .value (0x5B :: (bytes ++ [0x5D])) literals
  -- `{…}`
  | emptyObject {space : List UInt8} : Space space → Derives .value (0x7B :: (space ++ [0x7D])) []
  | object {bytes : List UInt8} {literals : List Literal} : Derives .members bytes literals →
      Derives .value (0x7B :: (bytes ++ [0x7D])) literals
  | element {before bytes after : List UInt8} {literals : List Literal} : Space before → Derives .value bytes literals →
      Space after → Derives .element (before ++ bytes ++ after) literals
  | lastElement {bytes : List UInt8} {literals : List Literal} : Derives .element bytes literals →
      Derives .elements bytes literals
  | moreElements {bytes more : List UInt8} {literals literals' : List Literal} : Derives .element bytes literals →
      Derives .elements more literals' → Derives .elements (bytes ++ 0x2C :: more) (literals ++ literals')
  | lastMember {before after bytes : List UInt8} {literals : List Literal} (name : Literal) : Space before →
      Space after → Derives .element bytes literals →
      Derives .members (before ++ name.quoted ++ after ++ 0x3A :: bytes) (name :: literals)
  | moreMembers {bytes more : List UInt8} {literals literals' : List Literal} : Derives .members bytes literals →
      Derives .members more literals' → Derives .members (bytes ++ 0x2C :: more) (literals ++ literals')

/-- A JSON document, its string literals in order. -/
def Document (body : List UInt8) (literals : List Literal) : Prop := Derives .element body literals

/-! ## Outside the literals -/

/-- A byte outside the literals. -/
def Plain (b : UInt8) : Prop := b.toNat < 0x80 ∧ b ≠ 0x22 ∧ b ≠ 0x5C

instance (b : UInt8) : Decidable (Plain b) := inferInstanceAs (Decidable (_ ∧ _))

theorem plain_of_all {bytes : List UInt8} (h : (bytes.all fun b => Plain b) = true) : ∀ b ∈ bytes, Plain b := by
  intro b hb
  exact of_decide_eq_true (List.all_eq_true.1 h b hb)

/-- Plain bytes, and string literals between them. -/
inductive Segmented : List UInt8 → List Literal → Prop
  | nil : Segmented [] []
  | plain {b : UInt8} {rest : List UInt8} {literals : List Literal} : Plain b → Segmented rest literals →
      Segmented (b :: rest) literals
  | literal (literal : Literal) {rest : List UInt8} {literals : List Literal} : Segmented rest literals →
      Segmented (literal.quoted ++ rest) (literal :: literals)

namespace Segmented

variable {u v : List UInt8} {literals literals' : List Literal}

theorem append (h : Segmented u literals) (h' : Segmented v literals') :
    Segmented (u ++ v) (literals ++ literals') := by
  induction h with
  | nil => exact h'
  | plain hb _ ih => exact .plain hb ih
  | literal l _ ih =>
    rw [List.append_assoc, List.cons_append]
    exact .literal l ih

theorem of_plain (h : ∀ b ∈ u, Plain b) : Segmented u [] := by
  induction u with
  | nil => exact .nil
  | cons b u ih => exact .plain (h b List.mem_cons_self) (ih fun b hb => h b (List.mem_cons_of_mem _ hb))

/-- Plain bytes around a text. -/
theorem wrap {before after : List UInt8} (hbefore : ∀ b ∈ before, Plain b) (h : Segmented u literals)
    (hafter : ∀ b ∈ after, Plain b) : Segmented (before ++ u ++ after) literals := by
  have := ((of_plain hbefore).append h).append (of_plain hafter)
  simpa using this

theorem quoted (l : Literal) : Segmented l.quoted [l] := by
  have := Segmented.literal l .nil
  rwa [List.append_nil] at this

end Segmented

theorem Space.plain {bytes : List UInt8} (h : Space bytes) : ∀ b ∈ bytes, Plain b := by
  intro b hb
  rcases h b hb with rfl | rfl | rfl | rfl <;> decide

theorem Digit.plain {b : UInt8} (h : Digit b) : Plain b := by
  obtain ⟨hlow, hhigh⟩ := h
  refine ⟨by omega, ?_, ?_⟩
  · rintro rfl
    simp at hlow
  · rintro rfl
    simp at hhigh

theorem Number.plain {bytes : List UInt8} (h : Number bytes) : ∀ b ∈ bytes, Plain b := by
  obtain ⟨sign, whole, fraction, exponent, rfl, hsign, hwhole, hfraction, hexponent⟩ := h.parts
  have hs : ∀ b ∈ sign, Plain b := by
    rcases hsign with rfl | rfl <;> exact plain_of_all rfl
  have hw : ∀ b ∈ whole, Plain b := by
    rcases hwhole with rfl | ⟨d, ds, rfl, hd, -, hds⟩
    · exact plain_of_all rfl
    · intro b hb
      rcases List.mem_cons.1 hb with rfl | hb
      · exact hd.plain
      · exact (hds b hb).plain
  have hf : ∀ b ∈ fraction, Plain b := by
    rcases hfraction with rfl | ⟨ds, rfl, -, hds⟩
    · exact plain_of_all rfl
    · intro b hb
      rcases List.mem_cons.1 hb with rfl | hb
      · decide
      · exact (hds b hb).plain
  have he : ∀ b ∈ exponent, Plain b := by
    rcases hexponent with rfl | ⟨e, s, ds, rfl, he, hs, -, hds⟩
    · exact plain_of_all rfl
    · intro b hb
      rcases List.mem_append.1 hb with hb | hb
      · rcases List.mem_cons.1 hb with rfl | hb
        · rcases he with rfl | rfl <;> decide
        · rcases hs with rfl | rfl | rfl
          · cases hb
          · rw [List.mem_singleton.1 hb]; decide
          · rw [List.mem_singleton.1 hb]; decide
      · exact (hds b hb).plain
  intro b hb
  rcases List.mem_append.1 hb with hb | hb
  · rcases List.mem_append.1 hb with hb | hb
    · rcases List.mem_append.1 hb with hb | hb
      · exact hs b hb
      · exact hw b hb
    · exact hf b hb
  · exact he b hb

/-- Outside its literals a JSON text is plain. -/
theorem Derives.segmented {sym : Sym} {bytes : List UInt8} {literals : List Literal} (h : Derives sym bytes literals) :
    Segmented bytes literals := by
  induction h with
  | null => exact .of_plain (plain_of_all rfl)
  | true => exact .of_plain (plain_of_all rfl)
  | false => exact .of_plain (plain_of_all rfl)
  | number h => exact .of_plain h.plain
  | string literal => exact .quoted literal
  | emptyArray h => exact @Segmented.wrap _ _ [0x5B] _ (plain_of_all rfl) (.of_plain h.plain) (plain_of_all rfl)
  | array _ ih => exact @Segmented.wrap _ _ [0x5B] _ (plain_of_all rfl) ih (plain_of_all rfl)
  | emptyObject h => exact @Segmented.wrap _ _ [0x7B] _ (plain_of_all rfl) (.of_plain h.plain) (plain_of_all rfl)
  | object _ ih => exact @Segmented.wrap _ _ [0x7B] _ (plain_of_all rfl) ih (plain_of_all rfl)
  | element hbefore _ hafter ih => exact .wrap hbefore.plain ih hafter.plain
  | lastElement _ ih => exact ih
  | moreElements _ _ ih ih' => exact ih.append (.plain (by decide) ih')
  | lastMember name hbefore hafter _ ih =>
    have hname := Segmented.wrap hbefore.plain (.quoted name) hafter.plain
    exact hname.append (.plain (by decide) ih)
  | moreMembers _ _ ih ih' => exact ih.append (.plain (by decide) ih')

end Kit.JsonText

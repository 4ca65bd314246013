import DittoSubnet.Kit.Utf8
import DittoSubnet.Kit.JsonText

/-!
# The raw Unicode scan

`ValidateRawJSONUnicode` of `canonical.go` looks at a JSON body before it is decoded. It knows nothing of quotes: it
walks over the raw bytes and jumps over two bytes at a backslash, over six at a `\u` escape and over twelve at a pair.

* `scan_segmented`: over a text whose quotes and backslashes are those of its literals the walk stays in step.
* `decodeString_faithful`: a decoder that puts U+FFFD for what is no Unicode does so unless the escapes are paired and
  the bytes are UTF-8.
* `validateRawJSONUnicode_exact`: what the scan accepts.
-/

namespace DittoSubnet.Coding

open Kit Kit.JsonText

/-! ## The scan -/

/-- Pairs of hex digits as bytes. -/
def hexDecodeString : List UInt8 → Option (List ℕ)
  | [] => some []
  | [_] => none
  | a :: b :: rest => do
    let high ← hexDigit a
    let low ← hexDigit b
    let decoded ← hexDecodeString rest
    pure ((high * 16 + low) :: decoded)

/-- The code of a `\u` escape that the bytes begin with. -/
def escapedCodepoint : List UInt8 → Option ℕ
  | b₀ :: b₁ :: h₃ :: h₂ :: h₁ :: h₀ :: _ =>
    if b₀ ≠ 0x5C ∨ b₁ ≠ 0x75 then none
    else match hexDecodeString [h₃, h₂, h₁, h₀] with
      | some [high, low] => some (high * 256 + low)
      | _ => none
  | _ => none

/-- The loop of the scan, over what stands from the index on. -/
def scan : List UInt8 → Except String Unit
  | [] => .ok ()
  | [_] => .ok ()
  | b :: c :: rest =>
    if b ≠ 0x5C then scan (c :: rest)
    else if c ≠ 0x75 then scan rest
    else match escapedCodepoint (b :: c :: rest) with
      | none => scan rest
      | some codepoint =>
        if 0xD800 ≤ codepoint ∧ codepoint ≤ 0xDBFF then
          match escapedCodepoint (rest.drop 4) with
          | none => .error "coding JSON contains an unpaired high surrogate"
          | some paired =>
            if paired < 0xDC00 ∨ 0xDFFF < paired then .error "coding JSON contains an unpaired high surrogate"
            else scan (rest.drop 10)
        else if 0xDC00 ≤ codepoint ∧ codepoint ≤ 0xDFFF then
          .error "coding JSON contains an unpaired low surrogate"
        else scan (rest.drop 4)
termination_by bytes => bytes.length
decreasing_by all_goals simp only [List.length_cons, List.length_drop]; omega

/-- Rejects bodies that a decoder would otherwise coerce to U+FFFD. -/
def ValidateRawJSONUnicode (body : List UInt8) : Except String Unit :=
  if Utf8.valid body then scan body else .error "coding JSON is not valid UTF-8"

/-! ## The decoder behind it -/

/-- What a decoder makes of a rune or an escape. -/
inductive Decoded
  | rune (code : ℕ)
  | replacement
  deriving DecidableEq, Repr

/-- The code of a two-byte escape. -/
def simpleEscape (b : UInt8) : ℕ :=
  if b = 0x62 then 8 else if b = 0x66 then 12 else if b = 0x6E then 10 else if b = 0x72 then 13
  else if b = 0x74 then 9 else b.toNat

/-- A decoder of what stands between two quotes: bytes that are no UTF-8 and surrogate escapes without a partner are
replaced, one at a time, and nothing else is. -/
def decodeString : List UInt8 → List Decoded
  | [] => []
  | b :: rest =>
    if b = 0x5C then
      match rest with
      | [] => []
      | c :: tail =>
        if c ≠ 0x75 then .rune (simpleEscape c) :: decodeString tail
        else match escapedCodepoint (b :: c :: tail) with
          | none => []
          | some codepoint =>
            if 0xD800 ≤ codepoint ∧ codepoint ≤ 0xDFFF then
              match escapedCodepoint (tail.drop 4) with
              | none => .replacement :: decodeString (tail.drop 4)
              | some paired =>
                if codepoint ≤ 0xDBFF ∧ 0xDC00 ≤ paired ∧ paired ≤ 0xDFFF then
                  .rune ((codepoint - 0xD800) * 0x400 + (paired - 0xDC00) + 0x10000) :: decodeString (tail.drop 10)
                else .replacement :: decodeString (tail.drop 4)
            else .rune codepoint :: decodeString (tail.drop 4)
    else match _h : Utf8.decodeRune (b :: rest) with
      | some (code, rest') => .rune code :: decodeString rest'
      | none => .replacement :: decodeString rest
termination_by bytes => bytes.length
decreasing_by all_goals first
  | exact Utf8.length_decodeRune _h
  | (simp only [List.length_cons, List.length_drop]; omega)

/-! ## One item of a literal -/

section Items

variable {item next : Item} {rest : List UInt8}

/-- What the items of a literal are written with. -/
abbrev written (items : List Item) : List UInt8 := items.flatMap Item.bytes

theorem escapedCodepoint_unicode (h₃ h₂ h₁ h₀ : UInt8) (rest : List UInt8) :
    escapedCodepoint (0x5C :: 0x75 :: h₃ :: h₂ :: h₁ :: h₀ :: rest) = (Item.unicode h₃ h₂ h₁ h₀).code := by
  simp only [escapedCodepoint, hexDecodeString, Item.code]
  cases hexDigit h₃ <;> cases hexDigit h₂ <;> cases hexDigit h₁ <;> cases hexDigit h₀ <;> rfl

theorem escapedCodepoint_plain {b : UInt8} (hb : b ≠ 0x5C) (rest : List UInt8) :
    escapedCodepoint (b :: rest) = none := by
  unfold escapedCodepoint
  split
  · rename_i heq
    cases heq
    rw [if_pos (Or.inl hb)]
  · rfl

theorem escapedCodepoint_escape {b : UInt8} (hb : b ≠ 0x75) (rest : List UInt8) :
    escapedCodepoint (0x5C :: b :: rest) = none := by
  unfold escapedCodepoint
  split
  · rename_i heq
    cases heq
    rw [if_pos (Or.inr hb)]
  · rfl

theorem ne_of_wellFormed_escape {b : UInt8} (h : (Item.escape b).WellFormed) : b ≠ 0x75 ∧ b.toNat < 0x80 := by
  simp only [Item.WellFormed, List.mem_cons, List.not_mem_nil, or_false] at h
  rcases h with rfl | rfl | rfl | rfl | rfl | rfl | rfl | rfl <;> decide

/-- The item that comes next is a `\u` escape, or no escape of a code begins there. -/
theorem escapedCodepoint_written {items : List Item} (hitems : ∀ item ∈ items, item.WellFormed)
    (hrest : ∀ b ∈ rest.head?, b ≠ 0x5C) : escapedCodepoint (written items ++ rest) = items.head?.bind Item.code := by
  cases items with
  | nil =>
    cases rest with
    | nil => rfl
    | cons b rest => exact escapedCodepoint_plain (hrest b rfl) rest
  | cons item items =>
    have hitem := hitems item List.mem_cons_self
    cases item with
    | byte b => exact escapedCodepoint_plain hitem.2.2 _
    | escape b => exact escapedCodepoint_escape (ne_of_wellFormed_escape hitem).1 _
    | unicode h₃ h₂ h₁ h₀ => exact escapedCodepoint_unicode h₃ h₂ h₁ h₀ _

theorem code_of_unicode {h₃ h₂ h₁ h₀ : UInt8} (h : (Item.unicode h₃ h₂ h₁ h₀).WellFormed) :
    ∃ c, (Item.unicode h₃ h₂ h₁ h₀).code = some c := by
  obtain ⟨d₃, h3⟩ := Option.isSome_iff_exists.1 (h h₃ (by simp))
  obtain ⟨d₂, h2⟩ := Option.isSome_iff_exists.1 (h h₂ (by simp))
  obtain ⟨d₁, h1⟩ := Option.isSome_iff_exists.1 (h h₁ (by simp))
  obtain ⟨d₀, h0⟩ := Option.isSome_iff_exists.1 (h h₀ (by simp))
  exact ⟨_, by simp only [Item.code, h3, h2, h1, h0]; rfl⟩

/-- Only `\u` escapes name a code. -/
theorem eq_unicode_of_code {c : ℕ} (h : item.code = some c) :
    ∃ h₃ h₂ h₁ h₀, item = .unicode h₃ h₂ h₁ h₀ := by
  cases item with
  | byte b => cases h
  | escape b => cases h
  | unicode h₃ h₂ h₁ h₀ => exact ⟨h₃, h₂, h₁, h₀, rfl⟩

theorem isHigh_iff : item.isHigh = true ↔ ∃ c, item.code = some c ∧ 0xD800 ≤ c ∧ c ≤ 0xDBFF := by
  unfold Item.isHigh
  cases item.code <;> simp

theorem isLow_iff : item.isLow = true ↔ ∃ c, item.code = some c ∧ 0xDC00 ≤ c ∧ c ≤ 0xDFFF := by
  unfold Item.isLow
  cases item.code <;> simp

theorem scan_plain {b : UInt8} (hb : b ≠ 0x5C) (rest : List UInt8) : scan (b :: rest) = scan rest := by
  cases rest with
  | nil => simp [scan]
  | cons c rest => rw [scan, if_pos hb]

theorem scan_escape {b : UInt8} (hb : b ≠ 0x75) (rest : List UInt8) : scan (0x5C :: b :: rest) = scan rest := by
  rw [scan, if_neg (by simp), if_pos hb]

/-- The scan at a `\u` escape. -/
theorem scan_unicode {c : ℕ} (h : item.code = some c) (rest : List UInt8) : scan (item.bytes ++ rest) =
    if 0xD800 ≤ c ∧ c ≤ 0xDBFF then
      match escapedCodepoint rest with
      | none => .error "coding JSON contains an unpaired high surrogate"
      | some paired =>
        if paired < 0xDC00 ∨ 0xDFFF < paired then .error "coding JSON contains an unpaired high surrogate"
        else scan (rest.drop 6)
    else if 0xDC00 ≤ c ∧ c ≤ 0xDFFF then .error "coding JSON contains an unpaired low surrogate"
    else scan rest := by
  obtain ⟨h₃, h₂, h₁, h₀, rfl⟩ := eq_unicode_of_code h
  simp only [Item.bytes, List.cons_append, List.nil_append]
  rw [scan, if_neg (by simp), if_neg (by simp), escapedCodepoint_unicode, h]
  rfl

/-- An item that is no surrogate is jumped over. -/
theorem scan_other (hitem : item.WellFormed) (hhigh : item.isHigh = false) (hlow : item.isLow = false)
    (rest : List UInt8) : scan (item.bytes ++ rest) = scan rest := by
  cases item with
  | byte b => exact scan_plain hitem.2.2 rest
  | escape b => exact scan_escape (ne_of_wellFormed_escape hitem).1 rest
  | unicode h₃ h₂ h₁ h₀ =>
    obtain ⟨c, hc⟩ := code_of_unicode hitem
    have hnotHigh : ¬ (0xD800 ≤ c ∧ c ≤ 0xDBFF) := fun h => by
      rw [isHigh_iff.2 ⟨c, hc, h⟩] at hhigh
      cases hhigh
    have hnotLow : ¬ (0xDC00 ≤ c ∧ c ≤ 0xDFFF) := fun h => by
      rw [isLow_iff.2 ⟨c, hc, h⟩] at hlow
      cases hlow
    rw [scan_unicode hc, if_neg hnotHigh, if_neg hnotLow]

theorem scan_low (hlow : item.isLow = true) (rest : List UInt8) :
    scan (item.bytes ++ rest) = .error "coding JSON contains an unpaired low surrogate" := by
  obtain ⟨c, hc, hrange⟩ := isLow_iff.1 hlow
  rw [scan_unicode hc, if_neg (by omega), if_pos hrange]

/-- A pair is jumped over. -/
theorem scan_pair (hhigh : item.isHigh = true) (hlow : next.isLow = true) (rest : List UInt8) :
    scan (item.bytes ++ (next.bytes ++ rest)) = scan rest := by
  obtain ⟨c, hc, hrange⟩ := isHigh_iff.1 hhigh
  obtain ⟨c', hc', hrange'⟩ := isLow_iff.1 hlow
  obtain ⟨h₃, h₂, h₁, h₀, rfl⟩ := eq_unicode_of_code hc'
  have hnext : escapedCodepoint ((Item.unicode h₃ h₂ h₁ h₀).bytes ++ rest) = some c' :=
    (escapedCodepoint_unicode h₃ h₂ h₁ h₀ rest).trans hc'
  rw [scan_unicode hc, if_pos hrange, hnext]
  simp only
  rw [if_neg (by omega)]
  rfl

/-- A high surrogate that no low one follows is refused. -/
theorem scan_high (hhigh : item.isHigh = true) (hnext : ∀ c ∈ escapedCodepoint rest, ¬ (0xDC00 ≤ c ∧ c ≤ 0xDFFF)) :
    scan (item.bytes ++ rest) = .error "coding JSON contains an unpaired high surrogate" := by
  obtain ⟨c, hc, hrange⟩ := isHigh_iff.1 hhigh
  rw [scan_unicode hc, if_pos hrange]
  cases hpaired : escapedCodepoint rest with
  | none => rfl
  | some paired =>
    have := hnext paired hpaired
    simp only
    rw [if_pos (by omega)]

end Items

/-! ## A literal -/

theorem pairs_cons {item : Item} (rest : List Item) (hhigh : item.isHigh = false) (hlow : item.isLow = false) :
    pairs (item :: rest) = pairs rest := by
  cases rest with
  | nil => simp [pairs, hhigh, hlow]
  | cons next rest => simp [pairs, hhigh, hlow]

/-- What follows a high surrogate without a partner is no low one. -/
theorem not_low_of_head {items : List Item} {rest : List UInt8} (hitems : ∀ item ∈ items, item.WellFormed)
    (hrest : ∀ b ∈ rest.head?, b ≠ 0x5C) (hhead : ∀ next ∈ items.head?, next.isLow = false) :
    ∀ c ∈ escapedCodepoint (written items ++ rest), ¬ (0xDC00 ≤ c ∧ c ≤ 0xDFFF) := by
  intro c hc hrange
  rw [escapedCodepoint_written hitems hrest] at hc
  obtain ⟨next, hnext, hcode⟩ := Option.bind_eq_some_iff.1 hc
  have hlow := hhead next hnext
  rw [isLow_iff.2 ⟨c, hcode, hrange⟩] at hlow
  cases hlow

/-- The scan gets to the end of a literal when its surrogates are paired, and is then in step with what follows. -/
theorem scan_written {rest : List UInt8} (hrest : ∀ b ∈ rest.head?, b ≠ 0x5C) (items : List Item)
    (hitems : ∀ item ∈ items, item.WellFormed) :
    scan (written items ++ rest) = .ok () ↔ pairs items = true ∧ scan rest = .ok () := by
  fun_induction pairs items with
  | case1 => simp [written]
  | case2 item =>
    have hitem := hitems item List.mem_cons_self
    have hone : written [item] ++ rest = item.bytes ++ (written [] ++ rest) := by simp [written]
    rw [hone]
    by_cases hhigh : item.isHigh = true
    · rw [scan_high hhigh (@not_low_of_head [] rest (by simp) hrest (by simp))]
      simp [hhigh]
    · by_cases hlow : item.isLow = true
      · rw [scan_low hlow]
        simp [hlow]
      · rw [scan_other hitem (by simpa using hhigh) (by simpa using hlow)]
        simp [hhigh, hlow, written]
  | case3 item next items hhigh ih =>
    have htail : ∀ item ∈ next :: items, item.WellFormed := fun x hx => hitems x (List.mem_cons_of_mem _ hx)
    have hsplit : written (item :: next :: items) ++ rest = item.bytes ++ (written (next :: items) ++ rest) := by
      simp [written]
    rw [hsplit]
    by_cases hlow : next.isLow = true
    · have hsplit' : written (next :: items) ++ rest = next.bytes ++ (written items ++ rest) := by simp [written]
      rw [hsplit', scan_pair hhigh hlow, ih fun x hx => htail x (List.mem_cons_of_mem _ hx), hlow, Bool.true_and]
    · rw [scan_high hhigh (not_low_of_head htail hrest (by simpa using hlow))]
      simp [hlow]
  | case4 item next items hhigh ih =>
    have htail : ∀ item ∈ next :: items, item.WellFormed := fun x hx => hitems x (List.mem_cons_of_mem _ hx)
    have hsplit : written (item :: next :: items) ++ rest = item.bytes ++ (written (next :: items) ++ rest) := by
      simp [written]
    rw [hsplit]
    by_cases hlow : item.isLow = true
    · rw [scan_low hlow]
      simp [hlow]
    · rw [scan_other (hitems item List.mem_cons_self) (by simpa using hhigh) (by simpa using hlow), ih htail]
      simp [hlow]

/-! ## The decoder on a literal -/

theorem decodeString_some {b : UInt8} {rest rest' : List UInt8} {code : ℕ} (hb : b ≠ 0x5C)
    (h : Utf8.decodeRune (b :: rest) = some (code, rest')) :
    decodeString (b :: rest) = .rune code :: decodeString rest' := by
  rw [decodeString.eq_def]
  simp only [if_neg hb]
  split
  · rename_i h'
    rw [h] at h'
    cases h'
    rfl
  · rename_i h'
    rw [h] at h'
    cases h'

theorem decodeString_none {b : UInt8} {rest : List UInt8} (hb : b ≠ 0x5C) (h : Utf8.decodeRune (b :: rest) = none) :
    decodeString (b :: rest) = .replacement :: decodeString rest := by
  rw [decodeString.eq_def]
  simp only [if_neg hb]
  split
  · rename_i h'
    rw [h] at h'
    cases h'
  · rfl

theorem decodeString_escape {b : UInt8} (hb : b ≠ 0x75) (rest : List UInt8) :
    decodeString (0x5C :: b :: rest) = .rune (simpleEscape b) :: decodeString rest := by
  rw [decodeString.eq_def]
  simp only [if_true, if_pos hb]

/-- The decoder at a `\u` escape. -/
theorem decodeString_unicode {item : Item} {c : ℕ} (h : item.code = some c) (rest : List UInt8) :
    decodeString (item.bytes ++ rest) =
      if 0xD800 ≤ c ∧ c ≤ 0xDFFF then
        match escapedCodepoint rest with
        | none => .replacement :: decodeString rest
        | some paired =>
          if c ≤ 0xDBFF ∧ 0xDC00 ≤ paired ∧ paired ≤ 0xDFFF then
            .rune ((c - 0xD800) * 0x400 + (paired - 0xDC00) + 0x10000) :: decodeString (rest.drop 6)
          else .replacement :: decodeString rest
      else .rune c :: decodeString rest := by
  obtain ⟨h₃, h₂, h₁, h₀, rfl⟩ := eq_unicode_of_code h
  simp only [Item.bytes, List.cons_append, List.nil_append]
  rw [decodeString.eq_def]
  simp only [if_true, ne_eq, not_true_eq_false, if_false, escapedCodepoint_unicode, h]
  rfl

/-- An escape that is no surrogate is one rune. -/
theorem decodeString_other {item : Item} (hitem : item.WellFormed) (hescape : ∀ b, item ≠ .byte b)
    (hhigh : item.isHigh = false) (hlow : item.isLow = false) (rest : List UInt8) :
    ∃ code, decodeString (item.bytes ++ rest) = .rune code :: decodeString rest := by
  cases item with
  | byte b => exact absurd rfl (hescape b)
  | escape b => exact ⟨_, decodeString_escape (ne_of_wellFormed_escape hitem).1 rest⟩
  | unicode h₃ h₂ h₁ h₀ =>
    obtain ⟨c, hc⟩ := code_of_unicode hitem
    have hnot : ¬ (0xD800 ≤ c ∧ c ≤ 0xDFFF) := by
      intro h
      by_cases hc' : c ≤ 0xDBFF
      · rw [isHigh_iff.2 ⟨c, hc, h.1, hc'⟩] at hhigh
        cases hhigh
      · rw [isLow_iff.2 ⟨c, hc, by omega, h.2⟩] at hlow
        cases hlow
    exact ⟨c, by rw [decodeString_unicode hc, if_neg hnot]⟩

/-- A pair is one rune. -/
theorem decodeString_pair {item next : Item} (hhigh : item.isHigh = true) (hlow : next.isLow = true)
    (rest : List UInt8) :
    ∃ code, decodeString (item.bytes ++ (next.bytes ++ rest)) = .rune code :: decodeString rest := by
  obtain ⟨c, hc, hrange⟩ := isHigh_iff.1 hhigh
  obtain ⟨c', hc', hrange'⟩ := isLow_iff.1 hlow
  obtain ⟨h₃, h₂, h₁, h₀, rfl⟩ := eq_unicode_of_code hc'
  have hnext : escapedCodepoint ((Item.unicode h₃ h₂ h₁ h₀).bytes ++ rest) = some c' :=
    (escapedCodepoint_unicode h₃ h₂ h₁ h₀ rest).trans hc'
  rw [decodeString_unicode hc, if_pos (by omega), hnext]
  simp only
  rw [if_pos ⟨hrange.2, hrange'⟩]
  exact ⟨_, rfl⟩

/-- A surrogate without a partner is replaced. -/
theorem decodeString_alone {item : Item} {rest : List UInt8} (hitem : item.isHigh = true ∨ item.isLow = true)
    (hnext : item.isHigh = true → ∀ c ∈ escapedCodepoint rest, ¬ (0xDC00 ≤ c ∧ c ≤ 0xDFFF)) :
    Decoded.replacement ∈ decodeString (item.bytes ++ rest) := by
  obtain ⟨c, hc, hrange⟩ : ∃ c, item.code = some c ∧ 0xD800 ≤ c ∧ c ≤ 0xDFFF := by
    rcases hitem with h | h
    · obtain ⟨c, hc, hrange⟩ := isHigh_iff.1 h
      exact ⟨c, hc, by omega⟩
    · obtain ⟨c, hc, hrange⟩ := isLow_iff.1 h
      exact ⟨c, hc, by omega⟩
  rw [decodeString_unicode hc, if_pos hrange]
  cases hpaired : escapedCodepoint rest with
  | none => exact List.mem_cons_self
  | some paired =>
    simp only
    rw [if_neg]
    · exact List.mem_cons_self
    · rintro ⟨hle, hlow⟩
      exact hnext (isHigh_iff.2 ⟨c, hc, hrange.1, hle⟩) paired hpaired hlow

theorem ascii_of_hexDigit {b : UInt8} (h : (hexDigit b).isSome = true) : b.toNat < 0x80 := by
  unfold hexDigit at h
  split_ifs at h
  · omega
  · omega
  · omega
  · cases h

/-- Escapes are written in ASCII. -/
theorem valid_escape {item : Item} (hitem : item.WellFormed) (hescape : ∀ b, item ≠ .byte b) (rest : List UInt8) :
    Utf8.valid (item.bytes ++ rest) = Utf8.valid rest := by
  cases item with
  | byte b => exact absurd rfl (hescape b)
  | escape b =>
    simp only [Item.bytes, List.cons_append, List.nil_append]
    rw [Utf8.valid_ascii (by decide), Utf8.valid_ascii (ne_of_wellFormed_escape hitem).2]
  | unicode h₃ h₂ h₁ h₀ =>
    simp only [Item.bytes, List.cons_append, List.nil_append]
    rw [Utf8.valid_ascii (by decide), Utf8.valid_ascii (by decide),
      Utf8.valid_ascii (ascii_of_hexDigit (hitem _ (by simp))),
        Utf8.valid_ascii (ascii_of_hexDigit (hitem _ (by simp))),
      Utf8.valid_ascii (ascii_of_hexDigit (hitem _ (by simp))),
        Utf8.valid_ascii (ascii_of_hexDigit (hitem _ (by simp)))]

/-- The further bytes of a rune stand for themselves. -/
theorem readTails_written : ∀ {n low high code code' : ℕ} {items : List Item} {rest : List UInt8}, 0x80 ≤ low →
    (∀ item ∈ items, item.WellFormed) → Utf8.readTails n low high code (written items) = some (code', rest) →
    ∃ items', rest = written items' ∧ items'.length ≤ items.length ∧ (∀ item ∈ items', item.WellFormed) ∧
      pairs items = pairs items'
  | 0, _, _, _, _, items, rest, _, hitems, h => by
    simp only [Utf8.readTails, Option.some.injEq, Prod.mk.injEq] at h
    exact ⟨items, h.2.symm, le_refl _, hitems, rfl⟩
  | _ + 1, _, _, _, _, [], _, _, _, h => by simp [written, Utf8.readTails] at h
  | n + 1, low, high, code, _, .byte b :: items, rest, hlow, hitems, h => by
    have hbytes : written (.byte b :: items) = b :: written items := rfl
    rw [hbytes, Utf8.readTails] at h
    split at h
    · obtain ⟨items', hrest, hlength, hitems', hpairs⟩ := readTails_written (le_refl _)
        (fun x hx => hitems x (List.mem_cons_of_mem _ hx)) h
      refine ⟨items', hrest, ?_, hitems', ?_⟩
      · rw [List.length_cons]
        omega
      · rw [pairs_cons items rfl rfl, hpairs]
    · cases h
  | n + 1, low, high, code, _, .escape b :: items, rest, hlow, hitems, h => by
    have hbytes : written (.escape b :: items) = 0x5C :: b :: written items := rfl
    rw [hbytes, Utf8.readTails, if_neg] at h
    · cases h
    · simp only [UInt8.reduceToNat]
      omega
  | n + 1, low, high, code, _, .unicode h₃ h₂ h₁ h₀ :: items, rest, hlow, hitems, h => by
    have hbytes : written (.unicode h₃ h₂ h₁ h₀ :: items) = 0x5C :: 0x75 :: h₃ :: h₂ :: h₁ :: h₀ :: written items := rfl
    rw [hbytes, Utf8.readTails, if_neg] at h
    · cases h
    · simp only [UInt8.reduceToNat]
      omega

theorem decodeRune_written {b : UInt8} {items : List Item} {code : ℕ} {rest : List UInt8}
    (hitems : ∀ item ∈ items, item.WellFormed) (h : Utf8.decodeRune (b :: written items) = some (code, rest)) :
    ∃ items', rest = written items' ∧ items'.length ≤ items.length ∧ (∀ item ∈ items', item.WellFormed) ∧
      pairs items = pairs items' := by
  simp only [Utf8.decodeRune] at h
  split at h
  · simp only [Option.some.injEq, Prod.mk.injEq] at h
    exact ⟨items, h.2.symm, le_refl _, hitems, rfl⟩
  · cases hl : Utf8.lead b.toNat with
    | none =>
      rw [hl] at h
      cases h
    | some l =>
      rw [hl] at h
      exact readTails_written (Utf8.low_of_lead hl) hitems h

theorem pairs_low {item : Item} (items : List Item) (hlow : item.isLow = true) : pairs (item :: items) = false := by
  rw [← Bool.not_eq_true, ← paired_iff]
  exact not_paired_of_low hlow

theorem pairs_high {item : Item} {items : List Item} (hhigh : item.isHigh = true)
    (hhead : ∀ next ∈ items.head?, next.isLow = false) : pairs (item :: items) = false := by
  rw [← Bool.not_eq_true, ← paired_iff]
  refine not_paired_of_high hhigh ?_
  intro next hnext
  rw [← List.head?_eq_getElem?] at hnext
  exact hhead next hnext

/-- Decoding a literal, and what it takes to decode it without a replacement. -/
def Faithful (items : List Item) : Prop :=
  Decoded.replacement ∉ decodeString (written items) ↔ pairs items = true ∧ Utf8.valid (written items) = true

/-- A literal that begins with a byte. -/
theorem faithful_byte {b : UInt8} {items : List Item} (hb : b ≠ 0x5C) (hitems : ∀ item ∈ items, item.WellFormed)
    (ih : ∀ items', items'.length ≤ items.length → (∀ item ∈ items', item.WellFormed) → Faithful items') :
    Faithful (.byte b :: items) := by
  have hbytes : written (.byte b :: items) = b :: written items := rfl
  unfold Faithful
  rw [hbytes, pairs_cons items rfl rfl]
  cases hd : Utf8.decodeRune (b :: written items) with
  | none =>
    rw [decodeString_none hb hd, Utf8.valid_of_none (by simp) hd]
    simp
  | some cr =>
    obtain ⟨code, rest⟩ := cr
    obtain ⟨items', rfl, hle, hitems', hpairs⟩ := decodeRune_written hitems hd
    have hrest := ih items' hle hitems'
    unfold Faithful at hrest
    rw [decodeString_some hb hd, Utf8.valid_of_some hd, hpairs, ← hrest]
    simp

/-- A literal that begins with an escape. -/
theorem faithful_escape {item : Item} {items : List Item} (hitem : item.WellFormed) (hescape : ∀ b, item ≠ .byte b)
    (hitems : ∀ item ∈ items, item.WellFormed)
    (ih : ∀ items', items'.length ≤ items.length → (∀ item ∈ items', item.WellFormed) → Faithful items') :
    Faithful (item :: items) := by
  have hbytes : written (item :: items) = item.bytes ++ written items := rfl
  have hfollow : (∀ next ∈ items.head?, next.isLow = false) →
      ∀ c ∈ escapedCodepoint (written items), ¬ (0xDC00 ≤ c ∧ c ≤ 0xDFFF) := by
    intro hhead
    have := @not_low_of_head items [] hitems (by simp) hhead
    rwa [List.append_nil] at this
  unfold Faithful
  rw [hbytes, valid_escape hitem hescape]
  by_cases hlow : item.isLow = true
  · have hhigh : item.isHigh = true → False := by
      intro hhigh
      rw [Item.not_isLow_of_isHigh hhigh] at hlow
      cases hlow
    have hmem := @decodeString_alone item (written items) (.inr hlow) fun h => (hhigh h).elim
    simp [hmem, pairs_low items hlow]
  · by_cases hhigh : item.isHigh = true
    · by_cases hnext : ∃ next, items.head? = some next ∧ next.isLow = true
      · obtain ⟨next, hnext, hnextLow⟩ := hnext
        obtain ⟨items', rfl⟩ := List.head?_eq_some_iff.1 hnext
        have hitems' : ∀ x ∈ items', x.WellFormed := fun x hx => hitems x (List.mem_cons_of_mem _ hx)
        have hnextEscape : ∀ b, next ≠ .byte b := by
          rintro b rfl
          cases hnextLow
        have hnextBytes : written (next :: items') = next.bytes ++ written items' := rfl
        obtain ⟨code, hcode⟩ := decodeString_pair hhigh hnextLow (written items')
        have hrest := ih items' (by rw [List.length_cons]; omega) hitems'
        unfold Faithful at hrest
        rw [hnextBytes, hcode, valid_escape (hitems next List.mem_cons_self) hnextEscape, pairs, if_pos hhigh, hnextLow,
          Bool.true_and, ← hrest]
        simp
      · have hhead : ∀ next ∈ items.head?, next.isLow = false := by
          intro next hmem
          by_contra h
          exact hnext ⟨next, hmem, by simpa using h⟩
        have hmem := decodeString_alone (.inl hhigh) fun _ => hfollow hhead
        simp [hmem, pairs_high hhigh hhead]
    · obtain ⟨code, hcode⟩ := decodeString_other hitem hescape (by simpa using hhigh) (by simpa using hlow)
        (written items)
      have hrest := ih items (le_refl _) hitems
      unfold Faithful at hrest
      rw [hcode, pairs_cons items (by simpa using hhigh) (by simpa using hlow), ← hrest]
      simp

/-- The decoder puts no replacement when the surrogates are paired and the bytes are UTF-8, and only then. -/
theorem decodeString_faithful (items : List Item) (hitems : ∀ item ∈ items, item.WellFormed) : Faithful items := by
  induction hn : items.length using Nat.strong_induction_on generalizing items with
  | _ n ih =>
    cases items with
    | nil => simp [Faithful, written, decodeString, pairs]
    | cons item items =>
      have hitem := hitems item List.mem_cons_self
      have htail : ∀ x ∈ items, x.WellFormed := fun x hx => hitems x (List.mem_cons_of_mem _ hx)
      have hshorter : ∀ items', items'.length ≤ items.length → (∀ item ∈ items', item.WellFormed) →
          Faithful items' := by
        intro items' hle hitems'
        exact ih items'.length (by rw [← hn, List.length_cons]; omega) items' hitems' rfl
      cases item with
      | byte b => exact faithful_byte hitem.2.2 htail hshorter
      | escape b => exact faithful_escape hitem (by simp) htail hshorter
      | unicode h₃ h₂ h₁ h₀ => exact faithful_escape hitem (by simp) htail hshorter

/-! ## A document -/

section Documents

variable {body : List UInt8} {literals : List Literal}

/-- The scan of a text is the scan of its literals. -/
theorem scan_segmented (h : Segmented body literals) :
    scan body = .ok () ↔ ∀ literal ∈ literals, pairs literal.items = true := by
  induction h with
  | nil => simp [scan]
  | plain hb _ ih => rw [scan_plain hb.2.2, ih]
  | @literal literal rest literals _ ih =>
    have hquoted : literal.quoted ++ rest = 0x22 :: (written literal.items ++ 0x22 :: rest) := by
      simp [Literal.quoted, Literal.content, written]
    rw [hquoted, scan_plain (by decide), scan_written (by simp) literal.items literal.wellFormed,
      scan_plain (by decide), ih, List.forall_mem_cons]

/-- A text is UTF-8 when its literals are. -/
theorem valid_segmented (h : Segmented body literals) :
    Utf8.valid body = true ↔ ∀ literal ∈ literals, Utf8.valid literal.content = true := by
  induction h with
  | nil => simp
  | plain hb _ ih => rw [Utf8.valid_ascii hb.1, ih]
  | @literal literal rest literals _ ih =>
    have hquoted : literal.quoted ++ rest = 0x22 :: (literal.content ++ 0x22 :: rest) := by
      simp [Literal.quoted]
    rw [hquoted, Utf8.valid_ascii (by decide), Utf8.valid_append_ascii (by decide), Bool.and_eq_true, ih,
      List.forall_mem_cons]

theorem validateRawJSONUnicode_eq_ok_iff :
    ValidateRawJSONUnicode body = .ok () ↔ Utf8.valid body = true ∧ scan body = .ok () := by
  unfold ValidateRawJSONUnicode
  split <;> simp_all

/-- The scan is exact on JSON documents: it accepts those that are UTF-8 and whose literals hold surrogate escapes in
pairs only, and these are the documents that a decoder reads without a replacement. -/
theorem validateRawJSONUnicode_exact (h : Kit.JsonText.Document body literals) :
    (ValidateRawJSONUnicode body = .ok () ↔ Utf8.valid body = true ∧ ∀ literal ∈ literals, Paired literal.items) ∧
    (ValidateRawJSONUnicode body = .ok () ↔
      ∀ literal ∈ literals, Decoded.replacement ∉ decodeString literal.content) := by
  have hsegmented := Derives.segmented h
  constructor
  · rw [validateRawJSONUnicode_eq_ok_iff, scan_segmented hsegmented]
    simp only [paired_iff]
  · rw [validateRawJSONUnicode_eq_ok_iff, scan_segmented hsegmented, valid_segmented hsegmented, ← forall₂_and]
    refine forall₂_congr ?_
    intro literal _
    have hfaithful := decodeString_faithful literal.items literal.wellFormed
    unfold Faithful at hfaithful
    rw [and_comm]
    exact hfaithful.symm

end Documents

/-- A literal with a pair of surrogate escapes, a line break and a letter. -/
def sampleLiteral : Literal where
  items := [.unicode 0x64 0x38 0x33 0x64, .unicode 0x44 0x45 0x30 0x30, .escape 0x6E, .byte 0x61]
  wellFormed := by
    intro item hitem
    simp only [List.mem_cons, List.not_mem_nil, or_false] at hitem
    rcases hitem with rfl | rfl | rfl | rfl
    · show ∀ h ∈ ([0x64, 0x38, 0x33, 0x64] : List UInt8), (hexDigit h).isSome = true
      exact List.all_eq_true.1 rfl
    · show ∀ h ∈ ([0x44, 0x45, 0x30, 0x30] : List UInt8), (hexDigit h).isSome = true
      exact List.all_eq_true.1 rfl
    · show (0x6E : UInt8) ∈ ([0x22, 0x5C, 0x2F, 0x62, 0x66, 0x6E, 0x72, 0x74] : List UInt8)
      decide
    · show 0x20 ≤ (0x61 : UInt8).toNat ∧ (0x61 : UInt8) ≠ 0x22 ∧ (0x61 : UInt8) ≠ 0x5C
      decide

theorem validateRawJSONUnicode_exact_sample : ValidateRawJSONUnicode sampleLiteral.quoted = .ok () ∧
    Decoded.replacement ∉ decodeString sampleLiteral.content := by
  have hdocument : Kit.JsonText.Document sampleLiteral.quoted [sampleLiteral] := by
    have hnone : Space [] := by simp [Space]
    have helement := Derives.element hnone (.string sampleLiteral) hnone
    rwa [List.nil_append, List.append_nil] at helement
  have hvalid : Utf8.valid sampleLiteral.quoted = true := by
    show Utf8.valid [0x22, 0x5C, 0x75, 0x64, 0x38, 0x33, 0x64, 0x5C, 0x75, 0x44, 0x45, 0x30, 0x30, 0x5C, 0x6E, 0x61,
      0x22] = true
    repeat rw [Utf8.valid_ascii (by decide)]
    exact Utf8.valid_nil
  have hpaired : Paired sampleLiteral.items := (paired_iff _).2 (by decide)
  obtain ⟨haccepts, hdecodes⟩ := validateRawJSONUnicode_exact hdocument
  have hok := haccepts.2 ⟨hvalid, by simpa using hpaired⟩
  exact ⟨hok, hdecodes.1 hok sampleLiteral List.mem_cons_self⟩

end DittoSubnet.Coding

import Mathlib

/-!
# Line-oriented encodings

Text is a list of bytes. `text` is the UTF-8 encoding of a string and `runes` reads bytes back, with the replacement
character for a byte that starts no valid sequence; `runes_text` says that encoded text is read back unchanged.

`render` writes key-value lines. A rendered list is determined by its bytes (`render_injective`) when keys and values
hold no newline, also as the first lines (`render_append_inj`) or the last lines (`append_render_inj`) of a longer
text whose other part is free.
-/

namespace Kit

/-- Text as its bytes. -/
abbrev Bytes := List UInt8

/-! ## UTF-8 -/

/-- The bytes of a string. -/
def text (s : String) : Bytes := s.toByteArray.data.toList

theorem text_eq (s : String) : text s = s.toList.flatMap String.utf8EncodeChar := by
  rw [text, ← String.utf8Encode_toList, List.utf8Encode, List.data_toByteArray]

/-- The characters of `n` bytes at most: a byte that starts no valid sequence is read as `U+FFFD`. -/
def readRunes : ℕ → Bytes → List Char
  | 0, _ => []
  | _ + 1, [] => []
  | n + 1, b :: bs =>
    match ByteArray.utf8DecodeChar? (b :: bs).toByteArray 0 with
    | some c => c :: readRunes n ((b :: bs).drop c.utf8Size)
    | none => Char.ofNat 0xFFFD :: readRunes n bs

/-- The characters of a text. -/
def runes (b : Bytes) : List Char := readRunes b.length b

theorem encode_ne_nil (c : Char) : String.utf8EncodeChar c ≠ [] := by
  intro h
  have hlen := String.length_utf8EncodeChar c
  rw [h] at hlen
  exact absurd hlen.symm c.utf8Size_pos.ne'

theorem readRunes_encode (cs : List Char) : ∀ n, (cs.flatMap String.utf8EncodeChar).length ≤ n →
    readRunes n (cs.flatMap String.utf8EncodeChar) = cs := by
  induction cs with
  | nil =>
    intro n _
    cases n <;> rfl
  | cons c cs ih =>
    intro n hn
    rw [List.flatMap_cons] at hn ⊢
    obtain ⟨b, bs, hb⟩ : ∃ b bs, String.utf8EncodeChar c = b :: bs :=
      List.exists_cons_of_ne_nil (encode_ne_nil c)
    have hsize : (String.utf8EncodeChar c).length = c.utf8Size := String.length_utf8EncodeChar c
    have hdecode : ByteArray.utf8DecodeChar?
        (String.utf8EncodeChar c ++ cs.flatMap String.utf8EncodeChar).toByteArray 0 = some c := by
      rw [List.toByteArray_append]
      exact ByteArray.utf8DecodeChar?_utf8EncodeChar_append
    have hdrop : (String.utf8EncodeChar c ++ cs.flatMap String.utf8EncodeChar).drop c.utf8Size =
        cs.flatMap String.utf8EncodeChar := by
      rw [← hsize, List.drop_left]
    rw [List.length_append] at hn
    rw [hb, List.cons_append] at hdecode hdrop ⊢
    have hpos : 0 < c.utf8Size := c.utf8Size_pos
    cases n with
    | zero => omega
    | succ n =>
      rw [readRunes, hdecode]
      dsimp only
      rw [hdrop, ih n (by omega)]

/-- Encoded text is read back unchanged. -/
@[simp] theorem runes_text (s : String) : runes (text s) = s.toList := by
  rw [runes, text_eq, readRunes_encode s.toList _ (le_refl _)]

theorem text_injective : Function.Injective text := by
  intro s t h
  have := congrArg runes h
  rw [runes_text, runes_text] at this
  exact String.toList_inj.mp this

/-! ## Values -/

/-- The byte that ends a line. -/
def newline : UInt8 := 10

/-- A value that stays on its line. -/
def Plain (b : Bytes) : Prop := newline ∉ b

instance (b : Bytes) : Decidable (Plain b) := inferInstanceAs (Decidable (newline ∉ b))

/-- A number in decimal. -/
def num (n : ℤ) : Bytes := text n.repr

/-- A truth value in words. -/
def flag : Bool → Bytes
  | true => text "true"
  | false => text "false"

theorem num_injective : Function.Injective num := fun _ _ h => Int.repr_injective (text_injective h)

theorem flag_injective : Function.Injective flag := by
  intro a b h
  revert h
  cases a <;> cases b <;> decide

theorem plain_flag (b : Bool) : Plain (flag b) := by
  cases b <;> decide

theorem plain_text {s : String} (h : ∀ c ∈ s.toList, c.utf8Size = 1 ∧ c ≠ '\n') : Plain (text s) := by
  intro hmem
  rw [text_eq] at hmem
  obtain ⟨c, hc, hb⟩ := List.mem_flatMap.mp hmem
  obtain ⟨hsize, hne⟩ := h c hc
  rw [String.utf8EncodeChar_eq_singleton hsize, List.mem_singleton] at hb
  have hval : c.val.toNat < 256 := by
    have := Char.utf8Size_eq_one_iff.mp hsize
    have h2 : c.val.toNat ≤ 127 := this
    omega
  apply hne
  apply Char.ext
  apply UInt32.toNat_inj.mp
  have := congrArg UInt8.toNat hb
  rw [UInt32.toNat_toUInt8, Nat.mod_eq_of_lt hval] at this
  exact this.symm

/-- Digits are single bytes other than a newline. -/
theorem digit_byte {c : Char} (h : c.isDigit) : c.utf8Size = 1 ∧ c ≠ '\n' := by
  have hrange : 48 ≤ c.val.toNat ∧ c.val.toNat ≤ 57 := by
    simp only [Char.isDigit, ge_iff_le, Bool.and_eq_true, decide_eq_true_eq] at h
    exact ⟨h.1, h.2⟩
  constructor
  · apply Char.utf8Size_eq_one_iff.mpr
    exact (show c.val.toNat ≤ 127 by omega)
  · rintro rfl
    exact absurd hrange.1 (by decide)

theorem plain_num (n : ℤ) : Plain (num n) := by
  apply plain_text
  intro c hc
  cases n with
  | ofNat n =>
    exact digit_byte (Nat.isDigit_of_mem_toDigits (b := 10) (by decide) (by decide)
      (by simpa [Int.repr, Nat.repr] using hc))
  | negSucc n =>
    rw [Int.repr] at hc
    simp only [String.toList_append, List.mem_append] at hc
    rcases hc with hc | hc
    · have : c = '-' := by simpa using hc
      subst this
      decide
    · exact digit_byte (Nat.isDigit_of_mem_toDigits (b := 10) (by decide) (by decide) (by simpa [Nat.repr] using hc))

/-! ## Lines -/

/-- The byte between a key and its value. -/
def equals : UInt8 := 61

/-- One line: the key, an equals sign and the value. -/
def line (f : String × Bytes) : Bytes := text f.1 ++ equals :: f.2 ++ [newline]

/-- A list of lines. -/
def render (fields : List (String × Bytes)) : Bytes := fields.flatMap line

/-- A field that its line determines. -/
def OneLine (f : String × Bytes) : Prop := equals ∉ text f.1 ∧ Plain (text f.1) ∧ Plain f.2

/-- Two texts that agree up to the end of a part without the mark agree on that part. -/
theorem append_mark_inj {α : Type} {mark : α} : ∀ {a b c d : List α}, mark ∉ a → mark ∉ b →
    a ++ mark :: c = b ++ mark :: d → a = b ∧ c = d
  | [], [], _, _, _, _, h => ⟨rfl, (List.cons.inj h).2⟩
  | [], y :: b, _, _, _, hb, h => absurd (List.mem_cons.mpr (Or.inl (List.cons.inj h).1)) hb
  | x :: a, [], _, _, ha, _, h => absurd (List.mem_cons.mpr (Or.inl (List.cons.inj h).1.symm)) ha
  | x :: a, y :: b, c, d, ha, hb, h => by
    obtain ⟨hxy, htail⟩ := List.cons.inj h
    have ih := append_mark_inj (fun hm => ha (List.mem_cons_of_mem _ hm)) (fun hm => hb (List.mem_cons_of_mem _ hm))
      htail
    exact ⟨by rw [hxy, ih.1], ih.2⟩

/-- The same from the end. -/
theorem mark_append_inj {α : Type} {mark : α} {a b c d : List α} (hc : mark ∉ c) (hd : mark ∉ d)
    (h : a ++ mark :: c = b ++ mark :: d) : a = b ∧ c = d := by
  have hrev : c.reverse ++ mark :: a.reverse = d.reverse ++ mark :: b.reverse := by
    have := congrArg List.reverse h
    simpa [List.append_assoc] using this
  have := append_mark_inj (fun hm => hc (List.mem_reverse.mp hm)) (fun hm => hd (List.mem_reverse.mp hm)) hrev
  exact ⟨List.reverse_inj.mp this.2, List.reverse_inj.mp this.1⟩

/-- The part of a line before its end. -/
theorem plain_line {f : String × Bytes} (h : OneLine f) : Plain (text f.1 ++ equals :: f.2) := by
  intro hmem
  rcases List.mem_append.mp hmem with hk | hv
  · exact h.2.1 hk
  · rcases List.mem_cons.mp hv with he | hv
    · exact absurd he (by decide)
    · exact h.2.2 hv

theorem field_inj {f g : String × Bytes} (hf : OneLine f) (hg : OneLine g)
    (h : text f.1 ++ equals :: f.2 = text g.1 ++ equals :: g.2) : f = g := by
  obtain ⟨hk, hv⟩ := append_mark_inj hf.1 hg.1 h
  exact Prod.ext (text_injective hk) hv

/-- The first lines of a text are determined by it. -/
theorem render_append_inj : ∀ {fs gs : List (String × Bytes)} {a b : Bytes}, (∀ f ∈ fs, OneLine f) →
    (∀ g ∈ gs, OneLine g) → fs.length = gs.length → render fs ++ a = render gs ++ b → fs = gs ∧ a = b
  | [], [], _, _, _, _, _, h => ⟨rfl, h⟩
  | [], _ :: _, _, _, _, _, hlen, _ => nomatch hlen
  | _ :: _, [], _, _, _, _, hlen, _ => nomatch hlen
  | f :: fs, g :: gs, a, b, hf, hg, hlen, h => by
    have hsplit : (text f.1 ++ equals :: f.2) ++ newline :: (render fs ++ a) =
        (text g.1 ++ equals :: g.2) ++ newline :: (render gs ++ b) := by
      simpa [render, line, List.append_assoc] using h
    have hf0 := hf f List.mem_cons_self
    have hg0 := hg g List.mem_cons_self
    obtain ⟨hline, hrest⟩ := append_mark_inj (plain_line hf0) (plain_line hg0) hsplit
    obtain ⟨htail, hab⟩ := render_append_inj (fun x hx => hf x (List.mem_cons_of_mem _ hx))
      (fun x hx => hg x (List.mem_cons_of_mem _ hx)) (Nat.succ.inj hlen) hrest
    exact ⟨by rw [field_inj hf0 hg0 hline, htail], hab⟩

/-- Rendered lists are equal when their bytes are. -/
theorem render_injective : ∀ {fs gs : List (String × Bytes)}, (∀ f ∈ fs, OneLine f) → (∀ g ∈ gs, OneLine g) →
    render fs = render gs → fs = gs
  | [], [], _, _, _ => rfl
  | [], g :: gs, _, _, h => by
    simp [render, line] at h
  | f :: fs, [], _, _, h => by
    simp [render, line] at h
  | f :: fs, g :: gs, hf, hg, h => by
    have hsplit : (text f.1 ++ equals :: f.2) ++ newline :: render fs =
        (text g.1 ++ equals :: g.2) ++ newline :: render gs := by
      simpa [render, line, List.append_assoc] using h
    have hf0 := hf f List.mem_cons_self
    have hg0 := hg g List.mem_cons_self
    obtain ⟨hline, hrest⟩ := append_mark_inj (plain_line hf0) (plain_line hg0) hsplit
    rw [field_inj hf0 hg0 hline, render_injective (fun x hx => hf x (List.mem_cons_of_mem _ hx))
      (fun x hx => hg x (List.mem_cons_of_mem _ hx)) hrest]

/-- Text that ends with lines ends with a newline. -/
theorem exists_newline (a : Bytes) (fs : List (String × Bytes)) : ∃ u, a ++ newline :: render fs = u ++ [newline] := by
  rcases List.eq_nil_or_concat fs with rfl | ⟨fs', f, rfl⟩
  · exact ⟨a, rfl⟩
  · exact ⟨a ++ newline :: (render fs' ++ (text f.1 ++ equals :: f.2)), by simp [render, line]⟩

/-- The last lines of a text are determined by it, whatever stands before them. -/
theorem append_render_inj {fs : List (String × Bytes)} : ∀ {gs : List (String × Bytes)} {a b : Bytes},
    (∀ f ∈ fs, OneLine f) → (∀ g ∈ gs, OneLine g) → fs.length = gs.length →
    a ++ newline :: render fs = b ++ newline :: render gs → a = b ∧ fs = gs := by
  induction fs using List.reverseRecOn with
  | nil =>
    intro gs a b _ _ hlen h
    obtain rfl : gs = [] := List.length_eq_zero_iff.mp hlen.symm
    exact ⟨(mark_append_inj (by simp [render]) (by simp [render]) h).1, rfl⟩
  | append_singleton fs f ih =>
    intro gs a b hf hg hlen h
    obtain ⟨gs, g, rfl⟩ : ∃ gs' g, gs = gs' ++ [g] := by
      rcases List.eq_nil_or_concat gs with rfl | ⟨gs', g, hgs⟩
      · simp at hlen
      · exact ⟨gs', g, by rw [hgs, List.concat_eq_append]⟩
    have hf0 := hf f (by simp)
    have hg0 := hg g (by simp)
    -- the last newline is the end of the last line: drop it, then cut at the newline before that line
    have hends : ((a ++ newline :: render fs) ++ (text f.1 ++ equals :: f.2)) ++ [newline] =
        ((b ++ newline :: render gs) ++ (text g.1 ++ equals :: g.2)) ++ [newline] := by
      simpa [render, line, List.append_assoc] using h
    replace hends := List.append_cancel_right hends
    obtain ⟨u, hu⟩ := exists_newline a fs
    obtain ⟨v, hv⟩ := exists_newline b gs
    rw [hu, hv, List.append_assoc, List.append_assoc] at hends
    obtain ⟨huv, hline⟩ := mark_append_inj (plain_line hf0) (plain_line hg0) hends
    obtain ⟨hab, hfg⟩ := ih (fun x hx => hf x (List.mem_append_left _ hx))
        (fun x hx => hg x (List.mem_append_left _ hx))
      (by simpa using hlen) (by rw [hu, hv, huv])
    exact ⟨hab, by rw [hfg, field_inj hf0 hg0 hline]⟩

end Kit

import Mathlib

/-!
# One-claim grants

Claims are numbered `1, 2, …, top`. A grant is recorded by the last number before it (its `low`), and covers the
numbers from there up to the next grant (`Covers`). `Chained base top lows` says that from `base` on every number
between two grants was granted once: the grants follow one another without a gap, and at most the last one is unspent.

* `Chained.single`, `Chained.grant`, `Chained.claim`, `Chained.revoke`: what keeps a chain.
* `Chained.existsUnique`: every number above the base is covered by exactly one grant.
* `Chained.covers_inj`: a grant covers at most one number.
-/

namespace Kit

/-- The `i`-th grant covers a number: it lies above its low and not above the next low. -/
def Covers (lows : List ℕ) (i id : ℕ) : Prop :=
  ∃ low, lows[i]? = some low ∧ low < id ∧ ∀ next, lows[i + 1]? = some next → id ≤ next

/-- The grants follow one another from `base`; the last one is spent or next. -/
structure Chained (base top : ℕ) (lows : List ℕ) : Prop where
  consecutive : lows = List.range' base lows.length
  granted : base + lows.length ≤ top + 1
  spent : top ≤ base + lows.length

namespace Chained

variable {base top low i id : ℕ} {lows : List ℕ}

theorem single (base : ℕ) : Chained base base [base] := ⟨rfl, le_rfl, Nat.le_succ base⟩

theorem getElem? (h : Chained base top lows) (hi : i < lows.length) : lows[i]? = some (base + i) := by
  rw [h.consecutive, List.getElem?_range' hi, Nat.one_mul]

theorem nodup (h : Chained base top lows) : lows.Nodup := by
  rw [h.consecutive]
  exact List.nodup_range'

theorem mem_iff (h : Chained base top lows) : low ∈ lows ↔ base ≤ low ∧ low < base + lows.length := by
  rw [h.consecutive, List.mem_range'_1, List.length_range']

/-- The last grant. -/
theorem getLast? (h : Chained base top lows) (hne : lows ≠ []) : lows.getLast? = some (base + (lows.length - 1)) := by
  have hpos : 0 < lows.length := List.length_pos_of_ne_nil hne
  rw [List.getLast?_eq_getElem?, h.getElem? (by omega)]

/-- With `low` as the last grant, the next number is its only free one. -/
theorem top_of_last (h : Chained base top lows) (hlow : lows.getLast? = some low) : top = low ∨ top = low + 1 := by
  have hne : lows ≠ [] := by
    rintro rfl
    cases hlow
  have hpos : 0 < lows.length := List.length_pos_of_ne_nil hne
  rw [h.getLast? hne, Option.some.injEq] at hlow
  have hgranted := h.granted
  have hspent := h.spent
  omega

/-- A new grant after a spent one. -/
theorem grant (h : Chained base top lows) (hlow : lows.getLast? = some low) (hspent : top = low + 1) :
    Chained base top (lows ++ [top]) := by
  have hne : lows ≠ [] := by
    rintro rfl
    cases hlow
  have hpos : 0 < lows.length := List.length_pos_of_ne_nil hne
  rw [h.getLast? hne, Option.some.injEq] at hlow
  have htop : top = base + lows.length := by omega
  refine ⟨?_, ?_, ?_⟩
  · rw [List.length_append, List.length_singleton, List.range'_1_concat, ← h.consecutive, ← htop]
  · rw [List.length_append, List.length_singleton]
    omega
  · rw [List.length_append, List.length_singleton]
    omega

/-- A claim under the last grant. -/
theorem claim (h : Chained base top lows) (hlow : lows.getLast? = some top) : Chained base (top + 1) lows := by
  have hne : lows ≠ [] := by
    rintro rfl
    cases hlow
  have hpos : 0 < lows.length := List.length_pos_of_ne_nil hne
  rw [h.getLast? hne, Option.some.injEq] at hlow
  have hgranted := h.granted
  exact ⟨h.consecutive, by omega, by omega⟩

/-- An unspent grant is the last one and can be taken back. -/
theorem revoke {front : List ℕ} (h : Chained base top (front ++ [top])) : Chained base top front := by
  have hlen : (front ++ [top]).length = front.length + 1 := by rw [List.length_append, List.length_singleton]
  have hcons := h.consecutive
  have hspent := h.spent
  have hgranted := h.granted
  rw [hlen] at hgranted
  rw [hlen, List.range'_1_concat] at hcons
  have hlast := (List.append_inj' hcons rfl).2
  rw [List.singleton_inj] at hlast
  exact ⟨(List.append_inj' hcons rfl).1, by omega, by omega⟩

/-- Up to the top, the window of a grant is the one number after it. -/
theorem covers_iff (h : Chained base top lows) (hid : id ≤ top) :
    Covers lows i id ↔ i < lows.length ∧ id = base + i + 1 := by
  have hspent := h.spent
  constructor
  · rintro ⟨low, hlow, hlt, hnext⟩
    have hi : i < lows.length := (List.getElem?_eq_some_iff.1 hlow).1
    rw [h.getElem? hi, Option.some.injEq] at hlow
    refine ⟨hi, ?_⟩
    by_cases hlast : i + 1 < lows.length
    · have hle := hnext _ (h.getElem? hlast)
      omega
    · omega
  · rintro ⟨hi, rfl⟩
    refine ⟨base + i, h.getElem? hi, Nat.lt_succ_self _, ?_⟩
    intro next hnext
    have hlast : i + 1 < lows.length := (List.getElem?_eq_some_iff.1 hnext).1
    rw [h.getElem? hlast, Option.some.injEq] at hnext
    omega

/-- Every number above the base is covered exactly once. -/
theorem existsUnique (h : Chained base top lows) (hlt : base < id) (hid : id ≤ top) : ∃! i, Covers lows i id := by
  have hspent := h.spent
  refine ⟨id - base - 1, (h.covers_iff hid).2 ⟨by omega, by omega⟩, ?_⟩
  intro i hi
  obtain ⟨-, heq⟩ := (h.covers_iff hid).1 hi
  omega

/-- A grant covers at most one number. -/
theorem covers_inj {id' : ℕ} (h : Chained base top lows) (hid : id ≤ top) (hid' : id' ≤ top) (hc : Covers lows i id)
    (hc' : Covers lows i id') : id = id' := by
  rw [((h.covers_iff hid).1 hc).2, ((h.covers_iff hid').1 hc').2]

end Chained

end Kit

import DittoSubnet.Kit.Sorting

/-!
# The smallest elements of a set

`smallest k s` holds the `k` smallest elements of a finite set, as a bottom-`k` sketch keeps them. An element is kept
when fewer than `k` elements of the set are below it (`mem_smallest`). So the kept elements of a union are those of the
union of what is kept of its parts (`smallest_union`), and an element of the set below a kept one is kept
(`mem_smallest_of_le`).
-/

namespace Kit

variable {κ : Type} [LinearOrder κ]

/-- The `k` smallest elements. -/
def smallest (k : ℕ) (s : Finset κ) : Finset κ := ((sorted s).take k).toFinset

theorem coe_sorted (s : Finset κ) : (sorted s : Multiset κ) = s.val := by
  obtain ⟨m, hm⟩ := s
  induction m using Quot.inductionOn with
  | h l => exact Quot.sound (sortOn_perm id l)

theorem nodup_sorted (s : Finset κ) : (sorted s).Nodup := by
  rw [← Multiset.coe_nodup, coe_sorted]
  exact s.nodup

theorem pairwise_sorted (s : Finset κ) : (sorted s).Pairwise (· < ·) := by
  have hle : (sorted s).Pairwise (· ≤ ·) := by
    obtain ⟨m, hm⟩ := s
    induction m using Quot.inductionOn with
    | h l => exact pairwise_sortOn id l
  exact (hle.and (nodup_sorted s)).imp fun h => lt_of_le_of_ne h.1 h.2

theorem length_sorted (s : Finset κ) : (sorted s).length = s.card := by
  rw [← Multiset.coe_card, coe_sorted]
  rfl

/-- A place before the `k`-th of an ascending list has fewer than `k` elements below it. -/
theorem mem_take_iff : ∀ {l : List κ} {k : ℕ} {x : κ}, l.Pairwise (· < ·) →
    (x ∈ l.take k ↔ x ∈ l ∧ (l.filter (· < x)).length < k)
  | [], k, x, _ => by simp
  | a :: l, 0, x, _ => by simp
  | a :: l, k + 1, x, h => by
    rw [List.pairwise_cons] at h
    rw [List.take_succ_cons, List.mem_cons, List.mem_cons, mem_take_iff h.2]
    by_cases hxa : x = a
    · have hnone : (a :: l).filter (fun y => decide (y < a)) = [] := by
        rw [List.filter_eq_nil_iff]
        intro y hy
        rcases List.mem_cons.1 hy with rfl | hy
        · simp
        · simpa using (h.1 y hy).le
      simp [hxa, hnone]
    · constructor
      · rintro (h' | ⟨hx, hlt⟩)
        · exact absurd h' hxa
        · refine ⟨.inr hx, ?_⟩
          rw [List.filter_cons_of_pos (by simpa using h.1 x hx), List.length_cons]
          omega
      · rintro ⟨hx, hlt⟩
        have hx := hx.resolve_left hxa
        rw [List.filter_cons_of_pos (by simpa using h.1 x hx), List.length_cons] at hlt
        exact .inr ⟨hx, by omega⟩

variable {k : ℕ} {s t : Finset κ} {x y : κ}

theorem mem_smallest : x ∈ smallest k s ↔ x ∈ s ∧ (s.filter (· < x)).card < k := by
  rw [smallest, List.mem_toFinset, mem_take_iff (pairwise_sorted s), mem_sorted]
  have hcard : ((sorted s).filter (· < x)).length = (s.filter (· < x)).card := by
    rw [← Multiset.coe_card, ← Multiset.filter_coe, coe_sorted]
    rfl
  rw [hcard]

theorem smallest_subset : smallest k s ⊆ s := fun _ h => (mem_smallest.1 h).1

theorem card_smallest : (smallest k s).card = min k s.card := by
  rw [smallest, List.toFinset_card_of_nodup ((nodup_sorted s).sublist (List.take_sublist _ _)), List.length_take,
    length_sorted]

theorem smallest_eq_self (h : s.card ≤ k) : smallest k s = s :=
  Finset.eq_of_subset_of_card_le smallest_subset (by rw [card_smallest, min_eq_right h])

theorem smallest_eq_empty_iff (hk : 0 < k) : smallest k s = ∅ ↔ s = ∅ := by
  rw [← Finset.card_eq_zero, card_smallest, ← Finset.card_eq_zero (s := s)]
  omega

/-- What is kept of a set is kept of each part that holds it. -/
theorem mem_smallest_of_subset (hst : s ⊆ t) (hx : x ∈ s) (h : x ∈ smallest k t) : x ∈ smallest k s :=
  mem_smallest.2 ⟨hx, (Finset.card_le_card (Finset.filter_subset_filter _ hst)).trans_lt (mem_smallest.1 h).2⟩

/-- An element below a kept one is kept. -/
theorem mem_smallest_of_le (hx : x ∈ s) (hy : y ∈ smallest k s) (hxy : x ≤ y) : x ∈ smallest k s := by
  refine mem_smallest.2 ⟨hx, (Finset.card_le_card fun z hz => ?_).trans_lt (mem_smallest.1 hy).2⟩
  rw [Finset.mem_filter] at hz ⊢
  exact ⟨hz.1, hz.2.trans_le hxy⟩

/-- An element that is not kept has `k` kept elements below it. -/
theorem card_below_of_not_mem (hx : x ∈ s) (h : x ∉ smallest k s) : k ≤ ((smallest k s).filter (· < x)).card := by
  have hle : k ≤ (s.filter (· < x)).card := by
    by_contra hlt
    exact h (mem_smallest.2 ⟨hx, not_le.1 hlt⟩)
  have hall : smallest k s = (smallest k s).filter (· < x) := by
    refine (Finset.filter_true_of_mem fun y hy => ?_).symm
    by_contra hge
    exact h (mem_smallest_of_le hx hy (not_lt.1 hge))
  rw [← hall, card_smallest]
  exact le_min (le_refl k) (hle.trans (Finset.card_filter_le _ _))

/-- Any `k` elements with the others above them are the smallest ones. -/
theorem smallest_eq_of_lower (hts : t ⊆ s) (hcard : t.card = k) (hlower : ∀ x ∈ s, x ∉ t → ∀ y ∈ t, y < x) :
    smallest k s = t := by
  have hsub : t ⊆ smallest k s := by
    intro y hy
    refine mem_smallest.2 ⟨hts hy, ?_⟩
    have hbelow : s.filter (· < y) ⊆ t.erase y := by
      intro x hx
      rw [Finset.mem_filter] at hx
      rw [Finset.mem_erase]
      refine ⟨hx.2.ne, ?_⟩
      by_contra hnot
      exact lt_asymm hx.2 (hlower x hx.1 hnot y hy)
    have hle := Finset.card_le_card hbelow
    have hpos := Finset.card_pos.2 ⟨y, hy⟩
    rw [Finset.card_erase_of_mem hy] at hle
    omega
  refine (Finset.eq_of_subset_of_card_le hsub ?_).symm
  rw [card_smallest, hcard]
  exact min_le_left _ _

/-- The smallest elements of a union are found among those of its parts. -/
theorem smallest_union : smallest k (smallest k s ∪ smallest k t) = smallest k (s ∪ t) := by
  have hsub : smallest k s ∪ smallest k t ⊆ s ∪ t := Finset.union_subset_union smallest_subset smallest_subset
  ext x
  constructor
  · intro hx
    obtain ⟨hmem, hcard⟩ := mem_smallest.1 hx
    refine mem_smallest.2 ⟨hsub hmem, ?_⟩
    -- an element below `x` that one side dropped would have `k` kept elements of that side below it
    refine (Finset.card_le_card fun y hy => ?_).trans_lt hcard
    rw [Finset.mem_filter, Finset.mem_union] at hy ⊢
    have hdropped : ∀ u : Finset κ, smallest k u ⊆ smallest k s ∪ smallest k t → y ∈ u → y ∈ smallest k u := by
      intro u hu hyu
      by_contra hnot
      have hle := (card_below_of_not_mem hyu hnot).trans
        (Finset.card_le_card (Finset.filter_subset_filter (· < y) hu))
      have hbelow : (smallest k s ∪ smallest k t).filter (· < y) ⊆ (smallest k s ∪ smallest k t).filter (· < x) := by
        intro z hz
        rw [Finset.mem_filter] at hz ⊢
        exact ⟨hz.1, hz.2.trans hy.2⟩
      have hle' := hle.trans (Finset.card_le_card hbelow)
      omega
    refine ⟨?_, hy.2⟩
    rcases hy.1 with h | h
    · exact .inl (hdropped s Finset.subset_union_left h)
    · exact .inr (hdropped t Finset.subset_union_right h)
  · intro hx
    have hmem := smallest_subset hx
    have hkept : x ∈ smallest k s ∪ smallest k t := by
      rcases Finset.mem_union.1 hmem with h | h
      · exact Finset.mem_union_left _ (mem_smallest_of_subset Finset.subset_union_left h hx)
      · exact Finset.mem_union_right _ (mem_smallest_of_subset Finset.subset_union_right h hx)
    exact mem_smallest_of_subset hsub hkept hx

end Kit

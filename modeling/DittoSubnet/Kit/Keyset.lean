import DittoSubnet.Kit.Sorting

/-!
# Keyset cursors

A sweep reads a growing table page by page in the order of a position. A page takes the first `limit` items behind the
cursor and up to a bound (`page`); the cursor then moves to the last item of a full page, and to the bound after a page
that was not full (`next`).

* The cursor never moves back, and a page holds exactly the items between the two cursors (`le_next`,
  `mem_page_iff`).
* Over a list of pages the items come in order, so none is read twice (`sweep_pairwise`), and an item up to the bound of
  a page that was not full has been read, when each page could see it from the time its bound passed the item
  (`mem_sweep`).
-/

namespace Kit.Keyset

variable {α P : Type} [LinearOrder P] {pos : α → P}

/-- What one page reads: the items it sees, the bound and the limit. -/
structure Page (α P : Type) where
  items : List α
  bound : P
  limit : ℕ

variable (pos)

/-- The first items behind the cursor and up to the bound. -/
def Page.page (p : Page α P) (cursor : P) : List α :=
  (sortOn pos (p.items.filter fun a => cursor < pos a ∧ pos a ≤ p.bound)).take p.limit

/-- The cursor behind a page. -/
def Page.next (p : Page α P) (cursor : P) : P :=
  match (p.page pos cursor).getLast? with
  | some last => if p.limit ≤ (p.page pos cursor).length then pos last else max p.bound cursor
  | none => max p.bound cursor

/-- The pages that a sweep reads from a cursor on. -/
def sweep (cursor : P) : List (Page α P) → List (List α)
  | [] => []
  | p :: ps => p.page pos cursor :: sweep (p.next pos cursor) ps

/-- The cursor at the end of a sweep. -/
def final (cursor : P) : List (Page α P) → P
  | [] => cursor
  | p :: ps => final (p.next pos cursor) ps

variable {pos} {p : Page α P} {cursor : P} {a : α}

/-! ## One page -/

theorem mem_page (h : a ∈ p.page pos cursor) : a ∈ p.items ∧ cursor < pos a ∧ pos a ≤ p.bound := by
  have hmem := mem_sortOn.1 (List.mem_of_mem_take h)
  rw [List.mem_filter, decide_eq_true_eq] at hmem
  exact hmem

theorem page_pairwise (pos : α → P) (p : Page α P) (cursor : P) : (p.page pos cursor).Pairwise fun a b =>
    pos a ≤ pos b :=
  (pairwise_sortOn pos _).sublist (List.take_sublist _ _)

/-- The last item of a page has the largest position. -/
theorem le_last {last : α} (hlast : (p.page pos cursor).getLast? = some last) (h : a ∈ p.page pos cursor) :
    pos a ≤ pos last := by
  obtain ⟨front, hfront⟩ := List.getLast?_eq_some_iff.1 hlast
  have hsorted := page_pairwise pos p cursor
  rw [hfront] at h hsorted
  rcases List.mem_append.1 h with h | h
  · exact (List.pairwise_append.1 hsorted).2.2 a h last List.mem_cons_self
  · rw [List.mem_singleton.1 h]

/-- After a full page the cursor is at an item of the page, else at the bound if that is ahead. -/
theorem next_cases (pos : α → P) (p : Page α P) (cursor : P) :
    (∃ last ∈ p.page pos cursor, (p.page pos cursor).getLast? = some last ∧
      p.limit ≤ (p.page pos cursor).length ∧ p.next pos cursor = pos last) ∨
    (((p.page pos cursor).length < p.limit ∨ p.page pos cursor = []) ∧ p.next pos cursor = max p.bound cursor) := by
  rw [Page.next]
  cases hlast : (p.page pos cursor).getLast? with
  | none => exact Or.inr ⟨Or.inr (List.getLast?_eq_none_iff.1 hlast), rfl⟩
  | some last =>
    by_cases hfull : p.limit ≤ (p.page pos cursor).length
    · exact Or.inl ⟨last, List.mem_of_getLast? hlast, rfl, hfull, if_pos hfull⟩
    · exact Or.inr ⟨Or.inl (not_le.1 hfull), if_neg hfull⟩

theorem le_next (p : Page α P) (cursor : P) : cursor ≤ p.next pos cursor := by
  obtain ⟨last, hmem, -, -, hnext⟩ | ⟨-, hnext⟩ := next_cases pos p cursor
  · rw [hnext]
    exact (mem_page hmem).2.1.le
  · rw [hnext]
    exact le_max_right _ _

/-- A cursor that moves stays within the bound. -/
theorem next_le (h : cursor < p.next pos cursor) : p.next pos cursor ≤ p.bound := by
  obtain ⟨last, hmem, -, -, hnext⟩ | ⟨-, hnext⟩ := next_cases pos p cursor
  · rw [hnext]
    exact (mem_page hmem).2.2
  · rw [hnext] at h ⊢
    exact max_le (le_refl _) ((lt_max_iff.1 h).elim le_of_lt fun h => absurd h (lt_irrefl _))

/-- A page that is not full brings the cursor to its bound. -/
theorem bound_le_next (h : (p.page pos cursor).length < p.limit) : p.bound ≤ p.next pos cursor := by
  obtain ⟨last, -, -, hfull, -⟩ | ⟨-, hnext⟩ := next_cases pos p cursor
  · exact absurd h (not_lt.2 hfull)
  · rw [hnext]
    exact le_max_left _ _

/-- A prefix of a sorted list that has one item of each position up to a bound has all of them. -/
theorem mem_take_of_le {l : List α} {n : ℕ} {last : α} (hsorted : l.Pairwise fun a b => pos a ≤ pos b)
    (hinj : ∀ a ∈ l, ∀ b ∈ l, pos a = pos b → a = b) (hlast : last ∈ l.take n) (ha : a ∈ l)
    (hle : pos a ≤ pos last) : a ∈ l.take n := by
  rw [← List.take_append_drop n l] at ha hsorted
  rcases List.mem_append.1 ha with h | h
  · exact h
  · have hge := (List.pairwise_append.1 hsorted).2.2 last hlast a h
    have heq := hinj a (List.mem_of_mem_drop h) last (List.mem_of_mem_take hlast) (le_antisymm hle hge)
    rw [heq]
    exact hlast

/-- A page holds exactly the items it sees between the two cursors. -/
theorem mem_page_iff (hinj : ∀ a ∈ p.items, ∀ b ∈ p.items, pos a = pos b → a = b) (hlimit : 1 ≤ p.limit) :
    a ∈ p.page pos cursor ↔ a ∈ p.items ∧ cursor < pos a ∧ pos a ≤ p.next pos cursor := by
  have hsub {b : α} (hb : b ∈ sortOn pos (p.items.filter fun a => cursor < pos a ∧ pos a ≤ p.bound)) : b ∈ p.items :=
    List.mem_of_mem_filter (mem_sortOn.1 hb)
  constructor
  · intro h
    obtain ⟨hitem, hcursor, hbound⟩ := mem_page h
    refine ⟨hitem, hcursor, ?_⟩
    obtain ⟨last, -, hlast, -, hnext⟩ | ⟨-, hnext⟩ := next_cases pos p cursor
    · rw [hnext]
      exact le_last hlast h
    · rw [hnext]
      exact hbound.trans (le_max_left _ _)
  · rintro ⟨hitem, hcursor, hle⟩
    have hbound : pos a ≤ p.bound := hle.trans (next_le (hcursor.trans_le hle))
    have hcandidate : a ∈ sortOn pos (p.items.filter fun a => cursor < pos a ∧ pos a ≤ p.bound) :=
      mem_sortOn.2 (List.mem_filter.2 ⟨hitem, decide_eq_true ⟨hcursor, hbound⟩⟩)
    obtain ⟨last, hmem, -, -, hnext⟩ | ⟨hshort, -⟩ := next_cases pos p cursor
    · rw [hnext] at hle
      exact mem_take_of_le (pairwise_sortOn pos _) (fun b hb c hc => hinj b (hsub hb) c (hsub hc)) hmem hcandidate hle
    · -- a page that is not full has taken every candidate
      rw [Page.page] at hshort ⊢
      rw [List.take_of_length_le]
      · exact hcandidate
      · rw [List.length_take] at hshort
        have hpos := List.length_pos_of_mem hcandidate
        rcases hshort with h | h
        · omega
        · have hnil := congrArg List.length h
          rw [List.length_take, List.length_nil] at hnil
          omega

/-! ## A sweep -/

variable {ps : List (Page α P)}

theorem final_append (cursor : P) (ps qs : List (Page α P)) :
    final pos cursor (ps ++ qs) = final pos (final pos cursor ps) qs := by
  induction ps generalizing cursor with
  | nil => rfl
  | cons p ps ih => exact ih _

theorem sweep_append (cursor : P) (ps qs : List (Page α P)) :
    sweep pos cursor (ps ++ qs) = sweep pos cursor ps ++ sweep pos (final pos cursor ps) qs := by
  induction ps generalizing cursor with
  | nil => rfl
  | cons p ps ih => exact congrArg (p.page pos cursor :: ·) (ih _)

/-- Every item that a sweep reads is behind the cursor it starts from. -/
theorem lt_of_mem_sweep {batch : List α} (hbatch : batch ∈ sweep pos cursor ps) (ha : a ∈ batch) : cursor < pos a := by
  induction ps generalizing cursor with
  | nil => cases hbatch
  | cons p ps ih =>
    rcases List.mem_cons.1 hbatch with rfl | h
    · exact (mem_page ha).2.1
    · exact (le_next p cursor).trans_lt (ih h)

/-- A page and the pages after it read different items. -/
theorem sweep_pairwise (hinj : ∀ p ∈ ps, ∀ a ∈ p.items, ∀ b ∈ p.items, pos a = pos b → a = b)
    (hlimit : ∀ p ∈ ps, 1 ≤ p.limit) :
    (sweep pos cursor ps).Pairwise fun batch later => ∀ a ∈ batch, ∀ b ∈ later, pos a < pos b := by
  induction ps generalizing cursor with
  | nil => exact List.Pairwise.nil
  | cons p ps ih =>
    rw [List.forall_mem_cons] at hinj hlimit
    refine List.Pairwise.cons ?_ (ih hinj.2 hlimit.2)
    intro later hlater a ha b hb
    exact ((mem_page_iff hinj.1 hlimit.1).1 ha).2.2.trans_lt (lt_of_mem_sweep hlater hb)

/-- An item up to the final cursor has been read, when each page saw it from the time its bound passed the item. -/
theorem mem_sweep (hinj : ∀ p ∈ ps, ∀ a ∈ p.items, ∀ b ∈ p.items, pos a = pos b → a = b)
    (hlimit : ∀ p ∈ ps, 1 ≤ p.limit) (hseen : ∀ p ∈ ps, pos a ≤ p.bound → a ∈ p.items) (hcursor : cursor < pos a)
    (hfinal : pos a ≤ final pos cursor ps) : ∃ batch ∈ sweep pos cursor ps, a ∈ batch := by
  induction ps generalizing cursor with
  | nil => exact absurd hcursor (not_lt.2 hfinal)
  | cons p ps ih =>
    rw [List.forall_mem_cons] at hinj hlimit hseen
    by_cases hnext : pos a ≤ p.next pos cursor
    · have hitem := hseen.1 (hnext.trans (next_le (hcursor.trans_le hnext)))
      exact ⟨_, List.mem_cons_self, (mem_page_iff hinj.1 hlimit.1).2 ⟨hitem, hcursor, hnext⟩⟩
    · obtain ⟨batch, hbatch, ha⟩ := ih hinj.2 hlimit.2 hseen.2 (not_le.1 hnext) hfinal
      exact ⟨batch, List.mem_cons_of_mem _ hbatch, ha⟩

end Kit.Keyset

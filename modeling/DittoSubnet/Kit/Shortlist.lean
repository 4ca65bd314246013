import Mathlib

/-!
# Short lists with an open end

`shortlist near n cap l` takes the first `n` elements of `l` and goes on as long as the next element is near the `n`-th,
up to `cap` elements. It is an initial part of `l` (`shortlist_initial`), so what holds of a list and its order holds of
the short list; `mem_shortlist_of_near` says when an element further down is still taken.
-/

namespace Kit

variable {α : Type} {near : α → α → Bool} {n cap : ℕ} {l : List α}

/-- The first `n` elements, then those that follow as long as they are near the last of these, at most `cap`. -/
def shortlist (near : α → α → Bool) (n cap : ℕ) (l : List α) : List α :=
  l.take n ++ ((l.drop n).takeWhile fun a => (l.take n).getLast?.any (near a)).take (cap - n)

theorem shortlist_initial (near : α → α → Bool) (n cap : ℕ) (l : List α) : shortlist near n cap l <+: l := by
  have htail : ((l.drop n).takeWhile fun a => (l.take n).getLast?.any (near a)).take (cap - n) <+: l.drop n :=
    (List.take_prefix _ _).trans (List.takeWhile_prefix _)
  have happend := (List.prefix_append_right_inj (l.take n)).2 htail
  rwa [List.take_append_drop] at happend

theorem take_initial_shortlist (near : α → α → Bool) (n cap : ℕ) (l : List α) : l.take n <+: shortlist near n cap l :=
  List.prefix_append _ _

theorem shortlist_of_le (h : cap ≤ n) : shortlist near n cap l = l.take n := by
  simp [shortlist, Nat.sub_eq_zero_of_le h]

theorem length_shortlist_le (h : n ≤ cap) : (shortlist near n cap l).length ≤ cap := by
  rw [shortlist, List.length_append]
  have hfixed := List.length_take_le n l
  have hopen := List.length_take_le (cap - n) ((l.drop n).takeWhile fun a => (l.take n).getLast?.any (near a))
  omega

theorem shortlist_zero : shortlist near 0 cap l = [] := by
  cases l <;> simp [shortlist]

/-- The element that closes the fixed part opens the end. -/
theorem shortlist_one (a : α) :
    shortlist near 1 (cap + 1) (a :: l) = a :: (l.takeWhile fun b => near b a).take cap := by
  simp [shortlist]

theorem shortlist_cons (a : α) : shortlist near (n + 2) (cap + 1) (a :: l) = a :: shortlist near (n + 1) cap l := by
  cases l with
  | nil => simp [shortlist]
  | cons b l =>
    have hcap : cap + 1 - (n + 2) = cap - (n + 1) := by omega
    simp only [shortlist, List.take_succ_cons, List.drop_succ_cons, List.getLast?_cons_cons, List.cons_append, hcap]

/-- Beyond the fixed part only elements near its last one are taken. -/
theorem near_of_mem_shortlist {a c : α} (h : a ∈ shortlist near n cap l) (ha : a ∉ l.take n)
    (hc : (l.take n).getLast? = some c) : near a c = true := by
  rw [shortlist, hc] at h
  simp only [Option.any_some] at h
  have hopen := List.mem_of_mem_take ((List.mem_append.1 h).resolve_left ha)
  simpa using List.mem_takeWhile_imp hopen

/-- An element is taken when all from the fixed part down to it are near the last fixed one, unless the list is full. -/
theorem mem_shortlist_of_near {a c : α} {j : ℕ} (hc : (l.take n).getLast? = some c) (hj : l[j]? = some a)
    (hnear : ∀ k b, n ≤ k → k ≤ j → l[k]? = some b → near b c = true) :
    a ∈ shortlist near n cap l ∨ cap ≤ (shortlist near n cap l).length := by
  rcases Nat.lt_or_ge j n with hjn | hjn
  · exact .inl ((take_initial_shortlist near n cap l).subset
      (List.mem_of_getElem? (by rw [List.getElem?_take_of_lt hjn, hj])))
  have hlen : j < l.length := (List.getElem?_eq_some_iff.1 hj).1
  have hdrop : (l.drop n)[j - n]? = some a := by
    rw [List.getElem?_drop, Nat.add_sub_cancel' hjn, hj]
  -- the open end runs at least down to the element
  have hall : ∀ b ∈ (l.drop n).take (j - n + 1), (l.take n).getLast?.any (near b) = true := by
    intro b hb
    obtain ⟨k, hk⟩ := List.mem_iff_getElem?.1 hb
    rw [List.getElem?_take, List.getElem?_drop] at hk
    split at hk
    · rw [hc]
      exact hnear (n + k) b (by omega) (by omega) hk
    · cases hk
  have hrun : (l.drop n).takeWhile (fun b => (l.take n).getLast?.any (near b)) = (l.drop n).take (j - n + 1) ++
      ((l.drop n).drop (j - n + 1)).takeWhile fun b => (l.take n).getLast?.any (near b) := by
    rw [← List.takeWhile_append_of_pos hall, List.take_append_drop]
  have hmem : a ∈ (l.drop n).take (j - n + 1) :=
    List.mem_of_getElem? (by rw [List.getElem?_take_of_lt (Nat.lt_succ_self _), hdrop])
  unfold shortlist
  rw [hrun]
  rcases Nat.le_total (j - n + 1) (cap - n) with hcap | hcap
  · left
    apply List.mem_append_right
    rw [List.take_append]
    apply List.mem_append_left
    rwa [List.take_of_length_le ((List.length_take_le _ _).trans hcap)]
  · right
    simp only [List.length_append, List.length_take, List.length_drop]
    omega

end Kit

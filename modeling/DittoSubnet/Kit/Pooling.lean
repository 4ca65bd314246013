import DittoSubnet.Kit.Arith
import DittoSubnet.Kit.Walk

/-!
# Pooled runs

`Pooled tied l shares`: `l` is cut into maximal anchored runs and every share of a run is replaced by the mean of the
run. `averageRuns` of `Kit.Walk` computes it (`pooled_averageRuns`). Pooling keeps the sum, the sign and the order of
the shares, whatever `tied` is.
-/

namespace Kit

variable {α K : Type} [ExactArith K]

/-- Maximal runs tied to their first element, each with the mean of exactly its shares. -/
inductive Pooled (tied : α → α → Bool) : List (α × K) → List K → Prop
  | nil : Pooled tied [] []
  | run {anchor : α × K} {run rest : List (α × K)} {pooled : List K} :
    (∀ e ∈ run, tied e.1 anchor.1 = true) → (∀ e ∈ rest.head?, tied e.1 anchor.1 = false) → Pooled tied rest pooled →
    Pooled tied (anchor :: (run ++ rest))
      (List.replicate (run.length + 1) (mean ((anchor :: run).map Prod.snd)) ++ pooled)

section Pooled

variable {tied : α → α → Bool} {l : List (α × K)} {pooled : List K}

theorem averageRun_eq_mean (run : List K) (hne : run ≠ []) : averageRun run = List.replicate run.length (mean run) := by
  unfold averageRun
  split
  · rfl
  · rename_i hlength
    obtain ⟨x, rfl⟩ : ∃ x, run = [x] := by
      rw [← List.length_eq_one_iff]
      have := List.length_pos_iff.2 hne
      omega
    simp [mean]

/-- Inside a run everything taken so far is tied to its anchor. -/
theorem pooled_averageRunsFrom (anchor : α × K) : ∀ (l taken : List (α × K)), (∀ e ∈ taken, tied e.1 anchor.1 = true) →
    Pooled tied (anchor :: (taken ++ l)) (averageRunsFrom tied anchor.1 ((anchor :: taken).map Prod.snd) l) := by
  intro l
  induction l generalizing anchor with
  | nil =>
    intro taken htaken
    have hrun := @Pooled.run α K _ tied anchor taken [] [] htaken (by simp) .nil
    rw [averageRunsFrom, averageRun_eq_mean _ (by simp), List.length_map, List.length_cons]
    simpa using hrun
  | cons e rest ih =>
    intro taken htaken
    rw [averageRunsFrom]
    cases he : tied e.1 anchor.1 with
    | true =>
      -- The run goes on.
      have htaken' : ∀ e' ∈ taken ++ [e], tied e'.1 anchor.1 = true := by
        intro e' he'
        rcases List.mem_append.1 he' with he' | he'
        · exact htaken e' he'
        · rw [List.mem_singleton.1 he']
          exact he
      have hrest := ih anchor (taken ++ [e]) htaken'
      rw [if_pos rfl]
      simpa using hrest
    | false =>
      -- `e` opens the next run.
      have hrest := ih e [] (by simp)
      have hrun := Pooled.run htaken (by simpa using he) hrest
      rw [if_neg (by simp), averageRun_eq_mean _ (by simp), List.length_map, List.length_cons]
      exact hrun

theorem pooled_averageRuns (tied : α → α → Bool) (l : List (α × K)) : Pooled tied l (averageRuns tied l) := by
  cases l with
  | nil => exact .nil
  | cons anchor rest => exact pooled_averageRunsFrom anchor rest [] (by simp)

theorem Pooled.sum_eq (h : Pooled tied l pooled) : pooled.sum = (l.map Prod.snd).sum := by
  induction h with
  | nil => simp
  | @run anchor run rest pooled _ _ _ ih =>
    have hlength : ((run.length : K) + 1) ≠ 0 := Nat.cast_add_one_ne_zero run.length
    have hmean : ((run.length : K) + 1) * mean ((anchor :: run).map Prod.snd) =
        anchor.2 + (run.map Prod.snd).sum := by
      simp only [mean, List.map_cons, List.sum_cons, List.length_cons, List.length_map, Nat.cast_add, Nat.cast_one]
      exact mul_div_cancel₀ _ hlength
    rw [List.sum_append, List.sum_replicate, nsmul_eq_mul, Nat.cast_add, Nat.cast_one, hmean, ih]
    simp [add_assoc]

/-- A pooled share is a mean of shares. -/
theorem Pooled.exists_mean (h : Pooled tied l pooled) {x : K} (hx : x ∈ pooled) :
    ∃ run, run ≠ [] ∧ run ⊆ l.map Prod.snd ∧ x = mean run := by
  induction h with
  | nil => cases hx
  | @run anchor run rest pooled _ _ _ ih =>
    rcases List.mem_append.1 hx with hx | hx
    · refine ⟨(anchor :: run).map Prod.snd, by simp, ?_, (List.mem_replicate.1 hx).2⟩
      exact List.map_subset _ (List.cons_subset_cons _ (List.subset_append_left run rest))
    · obtain ⟨xs, hne, hsub, heq⟩ := ih hx
      have hrest : rest ⊆ anchor :: (run ++ rest) := fun e he => List.mem_cons_of_mem _ (List.mem_append_right _ he)
      exact ⟨xs, hne, fun y hy => List.map_subset Prod.snd hrest (hsub hy), heq⟩

theorem Pooled.pos (h : Pooled tied l pooled) (hpos : ∀ x ∈ l.map Prod.snd, 0 < x) : ∀ x ∈ pooled, 0 < x := by
  intro x hx
  obtain ⟨run, hne, hsub, rfl⟩ := h.exists_mean hx
  obtain ⟨y, hy⟩ := List.exists_mem_of_ne_nil run hne
  exact (mean_pos_iff hne fun z hz => (hpos z (hsub hz)).le).2 ⟨y, hy, hpos y (hsub hy)⟩

/-- Shares that do not rise along the list do not rise after pooling. -/
theorem Pooled.antitone (h : Pooled tied l pooled) (hsorted : (l.map Prod.snd).Pairwise (· ≥ ·)) :
    pooled.Pairwise (· ≥ ·) := by
  induction h with
  | nil => exact .nil
  | @run anchor run rest pooled _ _ hrest ih =>
    have hsplit : (anchor :: (run ++ rest)).map Prod.snd = (anchor :: run).map Prod.snd ++ rest.map Prod.snd := by simp
    rw [hsplit, List.pairwise_append] at hsorted
    obtain ⟨-, htail, hcross⟩ := hsorted
    rw [List.pairwise_append]
    refine ⟨List.pairwise_replicate.2 (.inr (le_refl _)), ih htail, ?_⟩
    intro x hx y hy
    rw [(List.mem_replicate.1 hx).2]
    obtain ⟨ys, hne, hsub, rfl⟩ := hrest.exists_mean hy
    exact le_mean (by simp) fun a ha => mean_le hne fun b hb => hcross a ha b (hsub hb)

end Pooled

end Kit

import DittoSubnet.Kit.Chain
import DittoSubnet.Kit.Transaction

/-!
# Checked scans

A checked loop over a list whose state summarises what it has read: `view before` is the state after the elements
`before`. When a step from that state succeeds exactly for an element that has a property against the ones before it,
the loop succeeds exactly for a list all of whose elements have it (`foldlM_eq_ok_iff`).
-/

namespace Kit.Scan

open Kit.Chain

variable {α ε σ : Type} {f : σ → α → Except ε σ} {view : List α → σ} {P : List α → α → Prop}

theorem everywhere_left {before after : List α} (h : Everywhere P (before ++ after)) : Everywhere P before := by
  intro first a later hsplit
  exact h first a (later ++ after) (by rw [hsplit]; simp)

/-- The loop from the state of the elements read so far. -/
theorem foldlM_from_eq_ok_iff
    (hstep : ∀ before a s, Everywhere P before → (f (view before) a = .ok s ↔ P before a ∧ s = view (before ++ [a]))) :
    ∀ (l before : List α) (s : σ), Everywhere P before →
      (l.foldlM f (view before) = .ok s ↔ Everywhere P (before ++ l) ∧ s = view (before ++ l)) := by
  intro l
  induction l with
  | nil =>
    intro before s hbefore
    rw [List.foldlM_nil, pure_eq_ok_iff, List.append_nil]
    exact ⟨fun heq => ⟨hbefore, heq.symm⟩, fun h => h.2.symm⟩
  | cons a rest ih =>
    intro before s hbefore
    have hassoc : before ++ a :: rest = (before ++ [a]) ++ rest := by simp
    rw [List.foldlM_cons, bind_eq_ok_iff, hassoc]
    constructor
    · rintro ⟨next, hnext, hrest⟩
      obtain ⟨ha, rfl⟩ := (hstep before a next hbefore).1 hnext
      exact (ih (before ++ [a]) s (everywhere_append.2 ⟨hbefore, ha⟩)).1 hrest
    · rintro ⟨hall, rfl⟩
      have hfront : Everywhere P (before ++ [a]) := everywhere_left hall
      refine ⟨view (before ++ [a]), (hstep before a _ hbefore).2 ⟨(everywhere_append.1 hfront).2, rfl⟩, ?_⟩
      exact (ih (before ++ [a]) _ hfront).2 ⟨hall, rfl⟩

theorem foldlM_eq_ok_iff
    (hstep : ∀ before a s, Everywhere P before → (f (view before) a = .ok s ↔ P before a ∧ s = view (before ++ [a])))
    (l : List α) (s : σ) : l.foldlM f (view []) = .ok s ↔ Everywhere P l ∧ s = view l :=
  foldlM_from_eq_ok_iff hstep l [] s everywhere_nil

end Kit.Scan

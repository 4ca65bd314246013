import Mathlib.Tactic

/-!
# Transducers

A `Transducer` reads a letter at a time, writes what it has decided on, and writes what it still holds at the end. What
it makes of a text it has cut in two is what it wrote over the first part and what it makes of the second from the state
reached (`eval_append`). A word that is `Silent` in a state may be inserted wherever that state is reached
(`eval_insert`).
-/

namespace Kit

/-- A machine with states `σ` from letters `α` to letters `β`. -/
structure Transducer (σ α β : Type) where
  step : σ → α → σ
  emit : σ → α → List β
  flush : σ → List β

namespace Transducer

variable {σ α β : Type}

/-- The state after a word. -/
def run (t : Transducer σ α β) (s : σ) (w : List α) : σ := w.foldl t.step s

/-- What is written over a word. -/
def out (t : Transducer σ α β) : σ → List α → List β
  | _, [] => []
  | s, a :: w => t.emit s a ++ out t (t.step s a) w

/-- What a whole text becomes. -/
def eval (t : Transducer σ α β) (s : σ) (w : List α) : List β := t.out s w ++ t.flush (t.run s w)

/-- The word changes neither the state nor the output. -/
def Silent (t : Transducer σ α β) (s : σ) (w : List α) : Prop := t.run s w = s ∧ t.out s w = []

variable {t : Transducer σ α β} {s : σ}

@[simp] theorem run_nil : t.run s [] = s := rfl

@[simp] theorem run_cons (a : α) (w : List α) : t.run s (a :: w) = t.run (t.step s a) w := rfl

@[simp] theorem out_nil : t.out s [] = [] := rfl

@[simp] theorem out_cons (a : α) (w : List α) : t.out s (a :: w) = t.emit s a ++ t.out (t.step s a) w := rfl

@[simp] theorem eval_nil : t.eval s [] = t.flush s := rfl

theorem eval_cons (a : α) (w : List α) : t.eval s (a :: w) = t.emit s a ++ t.eval (t.step s a) w := by
  simp [eval]

theorem run_append (v w : List α) : t.run s (v ++ w) = t.run (t.run s v) w := List.foldl_append

theorem out_append (v w : List α) : t.out s (v ++ w) = t.out s v ++ t.out (t.run s v) w := by
  induction v generalizing s with
  | nil => simp
  | cons a v ih => simp [ih]

theorem eval_append (v w : List α) : t.eval s (v ++ w) = t.out s v ++ t.eval (t.run s v) w := by
  simp [eval, out_append, run_append]

theorem Silent.append {v w : List α} (hv : t.Silent s v) (hw : t.Silent s w) : t.Silent s (v ++ w) := by
  constructor
  · rw [run_append, hv.1, hw.1]
  · rw [out_append, hv.1, hv.2, hw.2, List.append_nil]

theorem silent_of_forall {w : List α} (h : ∀ a ∈ w, t.step s a = s ∧ t.emit s a = []) : t.Silent s w := by
  induction w with
  | nil => exact ⟨rfl, rfl⟩
  | cons a w ih =>
    obtain ⟨hstep, hemit⟩ := h a List.mem_cons_self
    obtain ⟨hrun, hout⟩ := ih fun b hb => h b (List.mem_cons_of_mem a hb)
    constructor
    · rw [run_cons, hstep, hrun]
    · rw [out_cons, hstep, hemit, hout, List.append_nil]

/-- A silent word may be inserted where its state is reached. -/
theorem eval_insert (pre post : List α) {w : List α} (h : t.Silent (t.run s pre) w) :
    t.eval s (pre ++ (w ++ post)) = t.eval s (pre ++ post) := by
  rw [eval_append, eval_append, eval_append, h.1, h.2, List.nil_append]

end Transducer

end Kit

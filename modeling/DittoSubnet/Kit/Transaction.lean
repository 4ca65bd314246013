import Mathlib

/-!
# Checked transactions

A transaction is a function of the state that ends in a new state or in an error. `ensure` is its guard and
`bind_eq_ok_iff` takes a successful one apart step by step; `foldlM_inv` is the invariant rule of a checked loop.

`commit` runs a transaction and keeps the old state when it fails; `run` is a sequence of such steps, and `run_inv` the
invariant rule over a run.
-/

namespace Kit

variable {ε α β σ ι : Type}

/-- Fails with `message` unless the condition holds. -/
def ensure (p : Prop) [Decidable p] (message : ε) : Except ε Unit := if p then .ok () else .error message

@[simp] theorem ensure_eq_ok_iff {p : Prop} {_ : Decidable p} {message : ε} {u : Unit} :
    ensure p message = .ok u ↔ p := by
  unfold ensure
  split
  · rename_i h
    simp [h]
  · rename_i h
    simp [h]

theorem ensure_bind_pos {p : Prop} [Decidable p] {message : ε} {f : Unit → Except ε β} (h : p) :
    (ensure p message >>= f) = f () := by
  unfold ensure
  rw [if_pos h]
  rfl

theorem ensure_bind_neg {p : Prop} [Decidable p] {message : ε} {f : Unit → Except ε β} (h : ¬ p) :
    (ensure p message >>= f) = .error message := by
  unfold ensure
  rw [if_neg h]
  rfl

/-- A refusal that no guard gives does not come from the guard. -/
theorem ensure_bind_ne {p : Prop} [Decidable p] {message e : ε} {f : Unit → Except ε β} (hmessage : message ≠ e)
    (hf : f () ≠ .error e) : (ensure p message >>= f) ≠ .error e := by
  by_cases h : p
  · rw [ensure_bind_pos h]
    exact hf
  · rw [ensure_bind_neg h]
    intro heq
    exact hmessage (Except.error.inj heq)

theorem bind_eq_ok_iff {x : Except ε α} {f : α → Except ε β} {b : β} :
    (x >>= f) = .ok b ↔ ∃ a, x = .ok a ∧ f a = .ok b := by
  cases x with
  | error e =>
    constructor
    · intro h
      cases h
    · rintro ⟨a, h, -⟩
      cases h
  | ok a =>
    constructor
    · intro h
      exact ⟨a, rfl, h⟩
    · rintro ⟨a', h, hf⟩
      cases h
      exact hf

/-- Naming the error differently does not change what succeeds. -/
theorem mapError_eq_ok_iff {ε' : Type} {x : Except ε α} {f : ε → ε'} {a : α} : x.mapError f = .ok a ↔ x = .ok a := by
  cases x <;> simp [Except.mapError]

/-- A guard before the rest of a transaction. -/
theorem ensure_bind_eq_ok_iff {p : Prop} {_ : Decidable p} {message : ε} {f : Unit → Except ε β} {b : β} :
    (ensure p message >>= f) = .ok b ↔ p ∧ f () = .ok b := by
  by_cases h : p
  · rw [ensure_bind_pos h]
    exact ⟨fun hf => ⟨h, hf⟩, And.right⟩
  · rw [ensure_bind_neg h]
    exact ⟨(fun hf => nomatch hf), fun hf => absurd hf.1 h⟩

/-- A check before the rest of a transaction. -/
theorem check_bind_eq_ok_iff {x : Except ε Unit} {f : Unit → Except ε β} {b : β} :
    (x >>= f) = .ok b ↔ x = .ok () ∧ f () = .ok b := by
  rw [bind_eq_ok_iff]
  exact ⟨fun ⟨_, hx, hf⟩ => ⟨hx, hf⟩, fun ⟨hx, hf⟩ => ⟨(), hx, hf⟩⟩

@[simp] theorem pure_eq_ok_iff {a b : α} : (pure a : Except ε α) = .ok b ↔ a = b := by
  constructor
  · intro h
    exact Except.ok.inj h
  · rintro rfl
    rfl

@[simp] theorem throw_eq_ok_iff {e : ε} {a : α} : (throw e : Except ε α) = .ok a ↔ False := by
  constructor
  · intro h
    cases h
  · exact False.elim

/-- What every step of a checked loop keeps holds after the loop. -/
theorem foldlM_inv {P : List α → σ → Prop} {f : σ → α → Except ε σ}
    (hstep : ∀ (done : List α) (s s' : σ) (a : α), P done s → f s a = .ok s' → P (done ++ [a]) s') :
    ∀ (l done : List α) {s s' : σ}, P done s → l.foldlM f s = .ok s' → P (done ++ l) s'
  | [], done, s, s', hP, h => by
    rw [List.foldlM_nil, pure_eq_ok_iff] at h
    rw [List.append_nil, ← h]
    exact hP
  | a :: l, done, s, s', hP, h => by
    rw [List.foldlM_cons, bind_eq_ok_iff] at h
    obtain ⟨s₁, ha, hl⟩ := h
    rw [show done ++ a :: l = (done ++ [a]) ++ l by simp]
    exact foldlM_inv hstep l (done ++ [a]) (hstep done s s₁ a hP ha) hl

/-- Loops whose steps agree on the elements agree. -/
theorem foldlM_congr {f g : σ → α → Except ε σ} : ∀ {l : List α} {s : σ}, (∀ s, ∀ a ∈ l, f s a = g s a) →
    l.foldlM f s = l.foldlM g s
  | [], _, _ => rfl
  | a :: l, s, h => by
    rw [List.foldlM_cons, List.foldlM_cons, h s a List.mem_cons_self]
    congr 1
    funext s'
    exact foldlM_congr fun s b hb => h s b (List.mem_cons_of_mem _ hb)

/-- A checked pass over a list has checked every element. -/
theorem forM_ok {f : α → Except ε PUnit} {u : PUnit} :
    ∀ {l : List α}, l.forM f = .ok u → ∀ a ∈ l, f a = .ok ()
  | [], _, a, ha => by cases ha
  | b :: l, h, a, ha => by
    rw [List.forM, bind_eq_ok_iff] at h
    obtain ⟨⟨⟩, hb, hl⟩ := h
    rcases List.mem_cons.1 ha with rfl | ha
    · exact hb
    · exact forM_ok hl a ha

/-! ## Runs -/

/-- Runs a transaction; a failed one leaves the state as it was. -/
def commit (t : σ → Except ε (σ × α)) (s : σ) : σ :=
  match t s with
  | .ok (s', _) => s'
  | .error _ => s

theorem commit_cases (t : σ → Except ε (σ × α)) (s : σ) : commit t s = s ∨ ∃ a, t s = .ok (commit t s, a) := by
  unfold commit
  cases t s with
  | error e => exact .inl rfl
  | ok r => exact .inr ⟨r.2, rfl⟩

/-- A reflexive relation that every success of a transaction keeps holds of its commit. -/
theorem commit_rel {R : σ → σ → Prop} {t : σ → Except ε (σ × α)} {s : σ} (hrefl : R s s)
    (h : ∀ s' a, t s = .ok (s', a) → R s s') : R s (commit t s) := by
  rcases commit_cases t s with heq | ⟨a, ha⟩
  · rw [heq]
    exact hrefl
  · exact h _ a ha

/-- The state after a sequence of inputs. -/
def run (step : σ → ι → σ) (s : σ) (inputs : List ι) : σ := inputs.foldl step s

theorem run_cons (step : σ → ι → σ) (s : σ) (input : ι) (inputs : List ι) :
    run step s (input :: inputs) = run step (step s input) inputs := rfl

/-- What every step keeps holds in every state of a run. -/
theorem run_inv {step : σ → ι → σ} {P : σ → Prop} (hstep : ∀ s i, P s → P (step s i)) :
    ∀ (inputs : List ι) {s : σ}, P s → P (run step s inputs)
  | [], _, h => h
  | i :: inputs, s, h => run_inv hstep inputs (hstep s i h)

/-- The same for a run of inputs of one kind. -/
theorem run_inv_mem {step : σ → ι → σ} {P : σ → Prop} {inputs : List ι} {s : σ}
    (hstep : ∀ s, ∀ i ∈ inputs, P s → P (step s i)) (h : P s) : P (run step s inputs) := by
  induction inputs generalizing s with
  | nil => exact h
  | cons i inputs ih =>
    apply ih
    · intro s j hj
      exact hstep s j (List.mem_cons_of_mem _ hj)
    · exact hstep s i List.mem_cons_self h

theorem run_append (step : σ → ι → σ) (s : σ) (before after : List ι) :
    run step s (before ++ after) = run step (run step s before) after := List.foldl_append

end Kit

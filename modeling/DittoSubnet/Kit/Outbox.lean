import DittoSubnet.Kit.Transaction

/-!
# Commit, then send

Any number of processes share a state. A process runs a transaction; a committed one may leave it with a numbered ticket
that it sends after the lock is released. Between the two it may crash, and then the ticket is lost. `System` also logs
what was sent.

`Ticketed` is what the transactions must keep: a ticket is stored in the state by the commit that issues it, with a
number above all earlier ones. Then (`Inv`, `inv_run`) every ticket that is held or was sent is stored, and no number is
sent twice.
-/

namespace Kit.Outbox

variable {P σ ι ε β : Type}

/-- The shared state, the tickets held between commit and send, and the tickets sent. -/
structure System (P σ β : Type) where
  state : σ
  held : P → Option (ℕ × β)
  sent : List (ℕ × β)

/-- A step of one process. -/
inductive Action (P ι : Type)
  | call (p : P) (input : ι)
  | crash (p : P)
  | send (p : P)

/-- No process has started. -/
def start (state : σ) : System P σ β := ⟨state, fun _ => none, []⟩

variable [DecidableEq P] (t : σ → ι → Except ε (σ × Option (ℕ × β)))

/-- One step: a process that holds a ticket must send it or crash before its next call. -/
def act (system : System P σ β) : Action P ι → System P σ β
  | .call p input =>
    match system.held p with
    | some _ => system
    | none =>
      match t system.state input with
      | .ok (state, ticket) => ⟨state, Function.update system.held p ticket, system.sent⟩
      | .error _ => system
  | .crash p => { system with held := Function.update system.held p none }
  | .send p =>
    match system.held p with
    | some ticket => ⟨system.state, Function.update system.held p none, system.sent ++ [ticket]⟩
    | none => system

/-- What the transactions keep. -/
structure Ticketed (good : σ → Prop) (count : σ → ℕ) (stored : σ → ℕ × β → Prop) : Prop where
  preserves : ∀ {s s' input h}, good s → t s input = .ok (s', h) → good s'
  keeps : ∀ {s s' input h ticket}, good s → t s input = .ok (s', h) → stored s ticket → stored s' ticket
  mono : ∀ {s s' input h}, good s → t s input = .ok (s', h) → count s ≤ count s'
  fresh : ∀ {s s' input ticket}, good s → t s input = .ok (s', some ticket) →
    count s < ticket.1 ∧ ticket.1 ≤ count s' ∧ stored s' ticket

/-- Held and sent tickets are stored, and no number is held or sent twice. -/
structure Inv (good : σ → Prop) (count : σ → ℕ) (stored : σ → ℕ × β → Prop) (system : System P σ β) : Prop where
  state_good : good system.state
  held_stored : ∀ p ticket, system.held p = some ticket → stored system.state ticket ∧ ticket.1 ≤ count system.state
  sent_stored : ∀ ticket ∈ system.sent, stored system.state ticket ∧ ticket.1 ≤ count system.state
  held_unsent : ∀ p ticket, system.held p = some ticket → ∀ other ∈ system.sent, other.1 ≠ ticket.1
  held_once : ∀ p q ticket other, system.held p = some ticket → system.held q = some other → ticket.1 = other.1 → p = q
  sent_once : (system.sent.map Prod.fst).Nodup

variable {t} {good : σ → Prop} {count : σ → ℕ} {stored : σ → ℕ × β → Prop} {system : System P σ β}

theorem update_eq_some {held : P → Option (ℕ × β)} {p q : P} {new : Option (ℕ × β)} {ticket : ℕ × β}
    (h : Function.update held p new q = some ticket) :
      (q = p ∧ new = some ticket) ∨ (q ≠ p ∧ held q = some ticket) := by
  by_cases hq : q = p
  · rw [hq, Function.update_self] at h
    exact .inl ⟨hq, h⟩
  · rw [Function.update_of_ne hq] at h
    exact .inr ⟨hq, h⟩

/-- Dropping a ticket keeps the invariant. -/
theorem Inv.crash (h : Inv good count stored system) (p : P) :
    Inv good count stored { system with held := Function.update system.held p none } := by
  have hold : ∀ {q ticket}, Function.update system.held p none q = some ticket → system.held q = some ticket := by
    intro q ticket hq
    rcases update_eq_some hq with ⟨-, hnone⟩ | ⟨-, hq⟩
    · cases hnone
    · exact hq
  exact ⟨h.state_good, fun q ticket hq => h.held_stored q ticket (hold hq), h.sent_stored,
    fun q ticket hq => h.held_unsent q ticket (hold hq),
    fun q r ticket other hq hr => h.held_once q r ticket other (hold hq) (hold hr), h.sent_once⟩

/-- A held ticket can be sent. -/
theorem Inv.send (h : Inv good count stored system) {p : P} {ticket : ℕ × β} (hp : system.held p = some ticket) :
    Inv good count stored ⟨system.state, Function.update system.held p none, system.sent ++ [ticket]⟩ := by
  have hcrash := h.crash p
  refine ⟨h.state_good, hcrash.held_stored, ?_, ?_, hcrash.held_once, ?_⟩
  · intro other hother
    rcases List.mem_append.1 hother with hother | hother
    · exact h.sent_stored other hother
    · rw [List.mem_singleton.1 hother]
      exact h.held_stored p ticket hp
  · intro q held hq other hother
    rcases List.mem_append.1 hother with hother | hother
    · exact hcrash.held_unsent q held hq other hother
    · -- the sender is the only holder of its number
      rw [List.mem_singleton.1 hother]
      rcases update_eq_some hq with ⟨-, hnone⟩ | ⟨hne, hq⟩
      · cases hnone
      · intro hsame
        exact hne (h.held_once q p held ticket hq hp hsame.symm)
  · rw [List.map_append, List.nodup_append]
    refine ⟨h.sent_once, by simp, ?_⟩
    intro a ha b hb hab
    obtain ⟨other, hother, rfl⟩ := List.mem_map.1 ha
    rw [List.map_singleton, List.mem_singleton] at hb
    exact h.held_unsent p ticket hp other hother (hab.trans hb)

/-- A committed transaction keeps the invariant. -/
theorem Inv.call (ht : Ticketed t good count stored) (h : Inv good count stored system) {p : P} {input : ι} {state : σ}
    {new : Option (ℕ × β)} (hcommit : t system.state input = .ok (state, new)) :
    Inv good count stored ⟨state, Function.update system.held p new, system.sent⟩ := by
  have hmono := ht.mono h.state_good hcommit
  have hkeep : ∀ ticket, stored system.state ticket ∧ ticket.1 ≤ count system.state →
      stored state ticket ∧ ticket.1 ≤ count state := by
    rintro ticket ⟨hstored, hle⟩
    exact ⟨ht.keeps h.state_good hcommit hstored, hle.trans hmono⟩
  have hfresh : ∀ ticket, new = some ticket →
      count system.state < ticket.1 ∧ ticket.1 ≤ count state ∧ stored state ticket := by
    rintro ticket rfl
    exact ht.fresh h.state_good hcommit
  refine ⟨ht.preserves h.state_good hcommit, ?_, fun ticket hsent =>
    hkeep ticket (h.sent_stored ticket hsent), ?_, ?_, h.sent_once⟩
  · intro q ticket hq
    rcases update_eq_some hq with ⟨-, hnew⟩ | ⟨-, hq⟩
    · exact ⟨(hfresh ticket hnew).2.2, (hfresh ticket hnew).2.1⟩
    · exact hkeep ticket (h.held_stored q ticket hq)
  · intro q ticket hq other hother
    rcases update_eq_some hq with ⟨-, hnew⟩ | ⟨-, hq⟩
    · have hold := (h.sent_stored other hother).2
      have hnew := (hfresh ticket hnew).1
      omega
    · exact h.held_unsent q ticket hq other hother
  · intro q r ticket other hq hr hsame
    rcases update_eq_some hq with ⟨hqp, hnew⟩ | ⟨-, hq⟩
    · rcases update_eq_some hr with ⟨hrp, -⟩ | ⟨-, hr⟩
      · rw [hqp, hrp]
      · have hold := (h.held_stored r other hr).2
        have hnew := (hfresh ticket hnew).1
        omega
    · rcases update_eq_some hr with ⟨-, hnew⟩ | ⟨-, hr⟩
      · have hold := (h.held_stored q ticket hq).2
        have hnew := (hfresh other hnew).1
        omega
      · exact h.held_once q r ticket other hq hr hsame

/-- Every step keeps the invariant. -/
theorem Inv.act (ht : Ticketed t good count stored) (h : Inv good count stored system) (action : Action P ι) :
    Inv good count stored (act t system action) := by
  cases action with
  | call p input =>
    simp only [Outbox.act]
    split
    · exact h
    · split
      · rename_i state ticket hcommit
        exact h.call ht hcommit
      · exact h
  | crash p => exact h.crash p
  | send p =>
    simp only [Outbox.act]
    split
    · rename_i ticket hp
      exact h.send hp
    · exact h

/-- Every interleaving keeps the invariant. -/
theorem inv_run (ht : Ticketed t good count stored) {state : σ} (hgood : good state) (actions : List (Action P ι)) :
    Inv good count stored (run (act t) (start state) actions) := by
  refine run_inv (fun _ action h => h.act ht action) actions ⟨hgood, ?_, ?_, ?_, ?_, List.nodup_nil⟩
  · intro p ticket hnone
    cases hnone
  · intro ticket hmem
    cases hmem
  · intro p ticket hnone
    cases hnone
  · intro p q ticket other hnone
    cases hnone

end Kit.Outbox

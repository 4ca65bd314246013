import DittoSubnet.Kit.Transaction

/-!
# Append-only chains

A log whose entries are numbered from 1, each with the digest of its body and of the digest before it. `append` adds an
entry and `verify` walks the log; what `append` writes is verified (`verify_append`).

`Everywhere` is a property of every entry against the entries before it; an append has to establish it for the new entry
only (`everywhere_append`).
-/

namespace Kit.Chain

variable {β η ε : Type}

/-- An entry of a chain. -/
structure Link (β η : Type) where
  sequence : ℕ
  body : β
  previousHash : η
  hash : η
  deriving DecidableEq, Repr

section

variable (digest : β → η → η) (genesis : η)

/-- The digest that the next entry refers to. -/
def head (chain : List (Link β η)) : η :=
  match chain.getLast? with
  | some link => link.hash
  | none => genesis

/-- Adds an entry for a body. -/
def append (chain : List (Link β η)) (body : β) : List (Link β η) :=
  chain ++ [⟨chain.length + 1, body, head genesis chain, digest body (head genesis chain)⟩]

/-- Checks one entry against the digest before it and the number of entries before it. -/
def verifyLink [DecidableEq η] (broken : ℕ → ε) (state : η × ℕ) (link : Link β η) : Except ε (η × ℕ) := do
  ensure (link.sequence = state.2 + 1 ∧ link.previousHash = state.1 ∧ link.hash = digest link.body state.1)
    (broken (state.2 + 1))
  return (digest link.body state.1, state.2 + 1)

/-- Walks the chain from the genesis; answers the number of entries. -/
def verify [DecidableEq η] (broken : ℕ → ε) (chain : List (Link β η)) : Except ε ℕ := do
  let (_, count) ← chain.foldlM (verifyLink digest broken) (genesis, 0)
  return count

theorem head_append (chain : List (Link β η)) (body : β) :
    head genesis (append digest genesis chain body) = digest body (head genesis chain) := by
  simp [head, append]

theorem length_append (chain : List (Link β η)) (body : β) :
    (append digest genesis chain body).length = chain.length + 1 := by
  simp [append]

/-- A chain that verifies, with the digest it ends in. -/
def Verified [DecidableEq η] (broken : ℕ → ε) (chain : List (Link β η)) : Prop :=
  chain.foldlM (verifyLink digest broken) (genesis, 0) = .ok (head genesis chain, chain.length)

variable {digest genesis} [DecidableEq η] {broken : ℕ → ε} {chain : List (Link β η)}

theorem verified_nil : Verified digest genesis broken ([] : List (Link β η)) := rfl

theorem Verified.verify (h : Verified digest genesis broken chain) :
    Chain.verify digest genesis broken chain = .ok chain.length := by
  unfold Chain.verify
  rw [h]
  rfl

theorem verified_append (h : Verified digest genesis broken chain) (body : β) :
    Verified digest genesis broken (append digest genesis chain body) := by
  unfold Verified at h ⊢
  rw [head_append, length_append, append, List.foldlM_append, h]
  show List.foldlM (verifyLink digest broken) (head genesis chain, chain.length) _ = _
  rw [List.foldlM_cons, verifyLink, ensure_bind_pos ⟨rfl, rfl, rfl⟩]
  rfl

end

/-! ## Properties of every entry -/

variable {α : Type} {P : List α → α → Prop}

/-- Every element has a property against the elements before it. -/
def Everywhere (P : List α → α → Prop) (l : List α) : Prop := ∀ before a after, l = before ++ a :: after → P before a

theorem everywhere_nil : Everywhere P [] := by
  intro before a after h
  cases before <;> cases h

theorem everywhere_append {l : List α} {a : α} : Everywhere P (l ++ [a]) ↔ Everywhere P l ∧ P l a := by
  constructor
  · intro h
    refine ⟨fun before b after hl => h before b (after ++ [a]) ?_, h l a [] rfl⟩
    rw [hl]
    simp
  · rintro ⟨hl, ha⟩ before b after heq
    induction after using List.reverseRecOn with
    | nil =>
      obtain ⟨rfl, hb⟩ := List.append_inj' heq rfl
      obtain rfl := List.cons.inj hb |>.1
      exact ha
    | append_singleton after c _ =>
      have hassoc : before ++ b :: (after ++ [c]) = (before ++ b :: after) ++ [c] := by simp
      rw [hassoc] at heq
      exact hl before b after (List.append_inj' heq rfl).1

theorem Everywhere.mono {Q : List α → α → Prop} {l : List α} (h : Everywhere P l)
    (hPQ : ∀ before a, P before a → Q before a) :
    Everywhere Q l := fun before a after hl => hPQ before a (h before a after hl)

end Kit.Chain

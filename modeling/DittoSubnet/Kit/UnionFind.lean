import Mathlib.Logic.Function.Basic
import Mathlib.Logic.Relation
import Mathlib.Tactic

/-!
# Union-find with path halving

A forest is a map of parents. `find` walks to the root of a node and hangs every node that it passes from its
grandparent, `unite` hangs the root of one node from the root of another, and `uniteAll` does so for a list of pairs.

A rank shows that every chain of parents ends (`Ranked`). Halving keeps ranks and roots (`halve_under`), so `find` ends
and returns the root (`find_spec`). A union adds one to the ranks at most, and joins two trees (`unite_spec`). So
`uniteAll` ends when there is more fuel than there are pairs, and two nodes have the same root afterwards exactly when
the pairs connect them (`uniteAll_spec`).
-/

namespace Kit.UnionFind

open Relation

variable {α : Type} [DecidableEq α]

/-- `while parent[node] != node: parent[node] = parent[parent[node]]; node = parent[node]`, for `fuel` tests at most. -/
def find : ℕ → (α → α) → α → Option (α × (α → α))
  | 0, _, _ => none
  | fuel + 1, parent, node =>
    if parent node = node then some (node, parent)
    else find fuel (Function.update parent node (parent (parent node))) (parent (parent node))

/-- Both roots are found, and the first is hung from the second where they differ. -/
def unite (fuel : ℕ) (parent : α → α) (a b : α) : Option (α → α) :=
  match find fuel parent a with
  | none => none
  | some (rootA, parent) =>
    match find fuel parent b with
    | none => none
    | some (rootB, parent) => some (if rootA = rootB then parent else Function.update parent rootA rootB)

/-- The unions of a list of pairs. -/
def uniteAll (fuel : ℕ) : (α → α) → List (α × α) → Option (α → α)
  | parent, [] => some parent
  | parent, (a, b) :: pairs =>
    match unite fuel parent a b with
    | none => none
    | some parent => uniteAll fuel parent pairs

/-! ## Roots -/

omit [DecidableEq α] in
/-- The chain of parents of the first node ends at the second. -/
inductive Under (parent : α → α) : α → α → Prop
  | root {r : α} (h : parent r = r) : Under parent r r
  | step {x r : α} (h : parent x ≠ x) (hr : Under parent (parent x) r) : Under parent x r

/-- A rank that falls along every parent and is zero at the roots. -/
structure Ranked (parent : α → α) (rank : α → ℕ) : Prop where
  lt : ∀ x, parent x ≠ x → rank (parent x) < rank x
  root : ∀ x, parent x = x → rank x = 0

/-- Two nodes of one tree. -/
def Same (parent : α → α) (x y : α) : Prop := ∃ r, Under parent x r ∧ Under parent y r

section Roots

omit [DecidableEq α]

variable {parent : α → α} {rank : α → ℕ}

theorem Under.fixed {x r : α} (h : Under parent x r) : parent r = r := by
  induction h with
  | root h => exact h
  | step _ _ ih => exact ih

theorem Under.unique {x r s : α} (hr : Under parent x r) (hs : Under parent x s) : r = s := by
  induction hr with
  | root h =>
    cases hs with
    | root _ => rfl
    | step hne _ => exact absurd h hne
  | step hne _ ih =>
    cases hs with
    | root h => exact absurd h hne
    | step _ hs => exact ih hs

theorem Ranked.exists_under (h : Ranked parent rank) (x : α) : ∃ r, Under parent x r := by
  induction hn : rank x using Nat.strongRecOn generalizing x with
  | ind n ih =>
    by_cases hx : parent x = x
    · exact ⟨x, .root hx⟩
    · obtain ⟨r, hr⟩ := ih (rank (parent x)) (hn ▸ h.lt x hx) (parent x) rfl
      exact ⟨r, .step hx hr⟩

theorem Ranked.id : Ranked (fun x : α => x) fun _ => 0 :=
  ⟨fun _ hx => absurd rfl hx, fun _ _ => rfl⟩

/-- A second forest with the roots of the first has no others. -/
theorem under_iff {parent' : α → α} {rank : α → ℕ} (h : Ranked parent rank)
    (hkeep : ∀ x r, Under parent x r → Under parent' x r) {x r : α} : Under parent' x r ↔ Under parent x r := by
  refine ⟨fun hx => ?_, hkeep x r⟩
  obtain ⟨s, hs⟩ := h.exists_under x
  rwa [hx.unique (hkeep x s hs)]

theorem same_iff {x y r s : α} (hx : Under parent x r) (hy : Under parent y s) : Same parent x y ↔ r = s := by
  constructor
  · rintro ⟨t, htx, hty⟩
    rw [hx.unique htx, hy.unique hty]
  · rintro rfl
    exact ⟨r, hx, hy⟩

theorem same_id {x y : α} : Same (fun x : α => x) x y ↔ x = y := same_iff (.root rfl) (.root rfl)

end Roots

/-! ## Finding -/

variable {parent : α → α} {rank : α → ℕ}

theorem halve_ranked (h : Ranked parent rank) {x : α} (hx : parent x ≠ x) :
    Ranked (Function.update parent x (parent (parent x))) rank := by
  have hgrand : rank (parent (parent x)) < rank x := by
    by_cases hp : parent (parent x) = parent x
    · rw [hp]; exact h.lt x hx
    · exact (h.lt _ hp).trans (h.lt x hx)
  constructor
  · intro y hy
    by_cases hyx : y = x
    · rw [hyx, Function.update_self]; exact hgrand
    · rw [Function.update_of_ne hyx] at hy ⊢; exact h.lt y hy
  · intro y hy
    by_cases hyx : y = x
    · rw [hyx, Function.update_self] at hy
      rw [hy] at hgrand
      exact absurd hgrand (lt_irrefl _)
    · rw [Function.update_of_ne hyx] at hy; exact h.root y hy

/-- Hanging a node from its grandparent keeps the roots. -/
theorem halve_under (h : Ranked parent rank) {x : α} (hx : parent x ≠ x) {y r : α} (hy : Under parent y r) :
    Under (Function.update parent x (parent (parent x))) y r := by
  have hgrand : parent (parent x) ≠ x := by
    intro hback
    by_cases hp : parent (parent x) = parent x
    · exact hx (hp.symm.trans hback)
    · have := (h.lt _ hp).trans (h.lt x hx)
      rw [hback] at this
      exact lt_irrefl _ this
  induction hy with
  | @root y hroot =>
    have hyx : y ≠ x := fun e => hx (e ▸ hroot)
    exact .root (by rw [Function.update_of_ne hyx, hroot])
  | @step y r hne _ ih =>
    by_cases hyx : y = x
    · subst hyx
      refine .step (by rwa [Function.update_self]) ?_
      rw [Function.update_self]
      -- the parent of `y` is skipped: it is the root, or its own parent is next
      by_cases hp : parent (parent y) = parent y
      · rw [hp] at ih ⊢
        exact ih
      · cases ih with
        | root hroot => exact absurd (by rwa [Function.update_of_ne hne] at hroot) hp
        | step _ hr => rwa [Function.update_of_ne hne] at hr
    · refine .step (by rwa [Function.update_of_ne hyx]) ?_
      rwa [Function.update_of_ne hyx]

/-- With more fuel than the rank of the node, `find` returns its root, and keeps the ranks and all roots. -/
theorem find_spec : ∀ {fuel : ℕ} {parent : α → α} {x : α}, Ranked parent rank → rank x < fuel →
    ∃ r parent', find fuel parent x = some (r, parent') ∧ Under parent x r ∧ Ranked parent' rank ∧
      ∀ y s, Under parent y s → Under parent' y s
  | 0, _, _, _, hfuel => absurd hfuel (Nat.not_lt_zero _)
  | fuel + 1, parent, x, h, hfuel => by
    by_cases hx : parent x = x
    · exact ⟨x, parent, by rw [find, if_pos hx], .root hx, h, fun _ _ hy => hy⟩
    · have hranked := halve_ranked h hx
      have hlt := hranked.lt x
      rw [Function.update_self] at hlt
      have hgrand : rank (parent (parent x)) < rank x := by
        refine hlt fun hback => ?_
        have := halve_under h hx (.step hx (h.exists_under (parent x)).choose_spec)
        have hroot := hranked.root x (by rw [Function.update_self, hback])
        have := h.lt x hx
        omega
      obtain ⟨r, parent', hfind, hr, hranked', hkeep⟩ :=
          find_spec hranked (show rank (parent (parent x)) < fuel by omega)
      refine ⟨r, parent', by rw [find, if_neg hx, hfind], ?_, hranked', fun y s hy => hkeep y s (halve_under h hx hy)⟩
      obtain ⟨s, hs⟩ := h.exists_under x
      have hs' := halve_under h hx hs
      cases hs' with
      | root hroot =>
        rw [Function.update_self] at hroot
        exact absurd hroot fun e => by rw [e] at hgrand; exact lt_irrefl _ hgrand
      | step _ hs' =>
        rw [Function.update_self] at hs'
        rwa [hr.unique hs']

/-! ## Uniting -/

/-- A root hung from another root joins their trees and leaves the others alone. -/
theorem link_under {a b : α} (ha : parent a = a) (hb : parent b = b) (hab : a ≠ b) {x r : α} (hx : Under parent x r) :
    Under (Function.update parent a b) x (if r = a then b else r) := by
  have hbroot : Function.update parent a b b = b := by rw [Function.update_of_ne hab.symm, hb]
  induction hx with
  | @root r hroot =>
    by_cases hra : r = a
    · rw [if_pos hra, hra]
      refine .step (by rw [Function.update_self]; exact hab.symm) ?_
      rw [Function.update_self]
      exact .root hbroot
    · rw [if_neg hra]
      exact .root (by rw [Function.update_of_ne hra, hroot])
  | @step x r hne _ ih =>
    have hxa : x ≠ a := fun e => hne (e ▸ ha)
    refine .step (by rwa [Function.update_of_ne hxa]) ?_
    rwa [Function.update_of_ne hxa]

theorem link_ranked (h : Ranked parent rank) {a b : α} (ha : parent a = a) (hb : parent b = b) (hab : a ≠ b) :
    ∃ rank', Ranked (Function.update parent a b) rank' ∧ ∀ x, rank' x ≤ rank x + 1 := by
  classical
  have hnot : ¬ Under parent b a := fun hba => hab (hba.unique (.root hb))
  refine ⟨fun x => rank x + if Under parent x a then 1 else 0, ⟨fun x hx => ?_, fun x hx => ?_⟩, fun x => ?_⟩
  · by_cases hxa : x = a
    · subst hxa
      rw [Function.update_self, if_neg hnot, if_pos (.root ha), h.root b hb]
      omega
    · rw [Function.update_of_ne hxa] at hx ⊢
      have hlt := h.lt x hx
      have hsame : Under parent (parent x) a ↔ Under parent x a := by
        refine ⟨.step hx, fun hxr => ?_⟩
        cases hxr with
        | root hroot => exact absurd hroot hx
        | step _ hr => exact hr
      simp only [hsame]
      omega
  · by_cases hxa : x = a
    · rw [hxa, Function.update_self] at hx
      exact absurd hx.symm hab
    · rw [Function.update_of_ne hxa] at hx
      have hnotx : ¬ Under parent x a := fun hxr => hxa ((Under.root hx).unique hxr)
      rw [h.root x hx, if_neg hnotx]
  · dsimp only
    split <;> omega

/-- A union ends, raises the ranks by one at most, and joins the trees of its two nodes. -/
theorem unite_spec {fuel bound : ℕ} (h : Ranked parent rank) (hbound : ∀ x, rank x ≤ bound) (hfuel : bound < fuel)
    (a b : α) : ∃ parent' rank', unite fuel parent a b = some parent' ∧ Ranked parent' rank' ∧
      (∀ x, rank' x ≤ bound + 1) ∧ ∀ x y, Same parent' x y ↔
        Same parent x y ∨ (Same parent x a ∧ Same parent b y) ∨ (Same parent x b ∧ Same parent a y) := by
  obtain ⟨ra, p₁, hfa, hra, hp₁, hkeep₁⟩ := find_spec h ((hbound a).trans_lt hfuel)
  obtain ⟨rb, p₂, hfb, hrb, hp₂, hkeep₂⟩ := find_spec hp₁ ((hbound b).trans_lt hfuel)
  have hiff : ∀ x r, Under p₂ x r ↔ Under parent x r := fun x r =>
    under_iff h fun y s hy => hkeep₂ y s (hkeep₁ y s hy)
  have hrb' : Under parent b rb := (hiff b rb).1 (hkeep₂ b rb hrb)
  by_cases hab : ra = rb
  · refine ⟨p₂, rank, by simp only [unite, hfa, hfb, if_pos hab], hp₂, fun x => (hbound x).trans (Nat.le_succ _), ?_⟩
    intro x y
    obtain ⟨rx, hx⟩ := h.exists_under x
    obtain ⟨ry, hy⟩ := h.exists_under y
    rw [same_iff ((hiff x rx).2 hx) ((hiff y ry).2 hy), same_iff hx hy, same_iff hx hra, same_iff hrb' hy,
      same_iff hx hrb', same_iff hra hy, hab]
    constructor
    · exact Or.inl
    · rintro (h | ⟨h, h'⟩ | ⟨h, h'⟩)
      · exact h
      · exact h.trans h'
      · exact h.trans h'
  · have hroota : p₂ ra = ra := ((hiff a ra).2 hra).fixed
    have hrootb : p₂ rb = rb := ((hiff b rb).2 hrb').fixed
    obtain ⟨rank', hranked', hle⟩ := link_ranked hp₂ hroota hrootb hab
    refine ⟨Function.update p₂ ra rb, rank', by simp only [unite, hfa, hfb, if_neg hab], hranked', ?_, ?_⟩
    · intro x
      have h₁ := hle x
      have h₂ := hbound x
      omega
    · intro x y
      obtain ⟨rx, hx⟩ := h.exists_under x
      obtain ⟨ry, hy⟩ := h.exists_under y
      rw [same_iff (link_under hroota hrootb hab ((hiff x rx).2 hx)) (link_under hroota hrootb hab ((hiff y ry).2 hy)),
        same_iff hx hy, same_iff hx hra, same_iff hrb' hy, same_iff hx hrb', same_iff hra hy]
      by_cases hxa : rx = ra <;> by_cases hya : ry = ra
      · simp [hxa, hya]
      · rw [if_pos hxa, if_neg hya, hxa]
        simp [hab, Ne.symm hya]
      · rw [if_neg hxa, if_pos hya, hya]
        simp [Ne.symm hab, hxa]
      · rw [if_neg hxa, if_neg hya]
        simp [hxa, Ne.symm hya]

/-! ## Connected components -/

omit [DecidableEq α] in
/-- One more pair joins what it connects. -/
theorem eqvGen_or {R : α → α → Prop} {a b x y : α} :
    EqvGen (fun x y => R x y ∨ (x = a ∧ y = b)) x y ↔
      EqvGen R x y ∨ (EqvGen R x a ∧ EqvGen R b y) ∨ (EqvGen R x b ∧ EqvGen R a y) := by
  have hmono : ∀ {x y}, EqvGen R x y → EqvGen (fun x y => R x y ∨ (x = a ∧ y = b)) x y :=
    fun h => h.mono fun _ _ => Or.inl
  have hab : EqvGen (fun x y => R x y ∨ (x = a ∧ y = b)) a b := .rel _ _ (.inr ⟨rfl, rfl⟩)
  constructor
  · intro h
    induction h with
    | rel x y h =>
      rcases h with h | ⟨rfl, rfl⟩
      · exact .inl (.rel _ _ h)
      · exact .inr (.inl ⟨.refl _, .refl _⟩)
    | refl x => exact .inl (.refl _)
    | symm x y _ ih =>
      rcases ih with h | ⟨h, h'⟩ | ⟨h, h'⟩
      · exact .inl h.symm
      · exact .inr (.inr ⟨h'.symm, h.symm⟩)
      · exact .inr (.inl ⟨h'.symm, h.symm⟩)
    | trans x y z _ _ ih₁ ih₂ =>
      rcases ih₁ with h₁ | ⟨h₁, h₁'⟩ | ⟨h₁, h₁'⟩ <;> rcases ih₂ with h₂ | ⟨h₂, h₂'⟩ | ⟨h₂, h₂'⟩
      · exact .inl (h₁.trans _ _ _ h₂)
      · exact .inr (.inl ⟨h₁.trans _ _ _ h₂, h₂'⟩)
      · exact .inr (.inr ⟨h₁.trans _ _ _ h₂, h₂'⟩)
      · exact .inr (.inl ⟨h₁, h₁'.trans _ _ _ h₂⟩)
      · exact .inr (.inl ⟨h₁, h₂'⟩)
      · exact .inl (h₁.trans _ _ _ h₂')
      · exact .inr (.inr ⟨h₁, h₁'.trans _ _ _ h₂⟩)
      · exact .inl (h₁.trans _ _ _ h₂')
      · exact .inr (.inr ⟨h₁, h₂'⟩)
  · rintro (h | ⟨h, h'⟩ | ⟨h, h'⟩)
    · exact hmono h
    · exact ((hmono h).trans _ _ _ hab).trans _ _ _ (hmono h')
    · exact ((hmono h).trans _ _ _ hab.symm).trans _ _ _ (hmono h')

/-- The unions end when there is fuel for them, and two nodes are in one tree afterwards exactly when the pairs connect
them to what was connected before. -/
theorem uniteAll_from : ∀ {pairs : List (α × α)} {parent : α → α} {rank : α → ℕ} {fuel bound : ℕ} {R : α → α → Prop},
    Ranked parent rank → (∀ x, rank x ≤ bound) → bound + pairs.length ≤ fuel →
    (∀ x y, Same parent x y ↔ EqvGen R x y) →
    ∃ parent' rank', uniteAll fuel parent pairs = some parent' ∧ Ranked parent' rank' ∧
      (∀ x, rank' x ≤ bound + pairs.length) ∧
      ∀ x y, Same parent' x y ↔ EqvGen (fun x y => R x y ∨ (x, y) ∈ pairs) x y
  | [], parent, rank, fuel, bound, R, h, hbound, _, hsame => by
    refine ⟨parent, rank, rfl, h, hbound, fun x y => ?_⟩
    simp [hsame]
  | (a, b) :: pairs, parent, rank, fuel, bound, R, h, hbound, hfuel, hsame => by
    rw [List.length_cons] at hfuel ⊢
    obtain ⟨p₁, rank₁, hunite, h₁, hbound₁, hsame₁⟩ := unite_spec h hbound (show bound < fuel by omega) a b
    have hstep : ∀ x y, Same p₁ x y ↔ EqvGen (fun x y => R x y ∨ (x = a ∧ y = b)) x y := by
      intro x y
      rw [hsame₁, hsame, hsame, hsame, hsame, hsame, eqvGen_or]
    obtain ⟨p₂, rank₂, hall, h₂, hbound₂, hsame₂⟩ := uniteAll_from h₁ hbound₁
      (show bound + 1 + pairs.length ≤ fuel by omega) hstep
    refine ⟨p₂, rank₂, by simp only [uniteAll, hunite, hall], h₂, fun x => (hbound₂ x).trans (by omega), ?_⟩
    intro x y
    rw [hsame₂]
    have hrel : (fun x y => (R x y ∨ (x = a ∧ y = b)) ∨ (x, y) ∈ pairs) = fun x y =>
        R x y ∨ (x, y) ∈ (a, b) :: pairs := by
      funext x y
      simp [or_assoc]
    rw [hrel]

/-- From the forest of single nodes. -/
theorem uniteAll_spec {pairs : List (α × α)} {fuel : ℕ} (hfuel : pairs.length ≤ fuel) :
    ∃ parent rank, uniteAll fuel (fun x => x) pairs = some parent ∧ Ranked parent rank ∧
      (∀ x, rank x ≤ pairs.length) ∧ ∀ x y, Same parent x y ↔ EqvGen (fun x y => (x, y) ∈ pairs) x y := by
  have hid : ∀ x y : α, Same (fun x : α => x) x y ↔ EqvGen (fun _ _ => False) x y := by
    intro x y
    rw [same_id]
    constructor
    · rintro rfl
      exact .refl _
    · intro h
      induction h with
      | rel _ _ h => exact h.elim
      | refl _ => rfl
      | symm _ _ _ ih => exact ih.symm
      | trans _ _ _ _ _ ih₁ ih₂ => exact ih₁.trans ih₂
  obtain ⟨parent, rank, hall, hranked, hbound, hsame⟩ :=
    uniteAll_from Ranked.id (fun _ => le_refl 0) (show 0 + pairs.length ≤ fuel by omega) hid
  exact ⟨parent, rank, hall, hranked, fun x => (hbound x).trans (by omega), by simpa using hsame⟩

end Kit.UnionFind

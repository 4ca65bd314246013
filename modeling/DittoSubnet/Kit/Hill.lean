import DittoSubnet.Kit.Sorting
import DittoSubnet.Kit.Walk

/-!
# King-of-the-hill folds

A `Hill` names what a king-of-the-hill fold needs to know of its rows: who they are, who owns them, how they are ordered
by seniority and by rank, and the pairwise tests. Over it: the opener and the champion of a pool, with an incumbent and
a standing rule, the paid tail, the cohort of a deadlocked crown, and the payout.

* `Agree h h' R`: two hills answer alike on related rows. Related pools then have related champions (`rel_champion`),
  tails (`rel_tail`) and payouts (`rel_payout`).
* `Separates h pool`: name, seniority and rank tell the rows of the pool apart. Champion, tail and payout then do not
  depend on the order of the pool (`champion_perm`, `tail_perm`, `payout_perm`).
* Under a standing rule the champion stands (`champion_mem_standing`) and is reached from its start by wins of standing
  rows (`champion_chain`). Whether a second walk from the champion stays there is `champion_again_iff`: the challengers
  after its accession never beat it, so only the start and the more senior challengers matter.
-/

set_option linter.unusedSectionVars false

namespace Kit

/-- The rows of a king-of-the-hill fold: identity, owner, the two orders and the pairwise tests. -/
structure Hill (α ι τ κ ρ : Type) where
  name : α → ι
  owner : α → τ
  seniority : α → κ
  rank : α → ρ
  /-- The first row dethrones the second. -/
  beats : α → α → Bool
  /-- The first row may inherit the crown of the second. -/
  enough : α → α → Bool
  /-- The first row takes the paid slot of its upper neighbour. -/
  swap : α → α → Bool
  /-- The row takes part in the neighbour order. -/
  adjacent : α → Bool
  tied : α → α → Bool
  deadlocked : α → α → Bool

namespace Hill

variable {α β ι τ κ ρ κ' ρ' K : Type} [LinearOrder κ] [LinearOrder ρ] [LinearOrder κ'] [LinearOrder ρ']

section Defs

variable [DecidableEq ι] [DecidableEq τ] [Field K]

/-- The pool by rank. -/
def ranked (h : Hill α ι τ κ ρ) (pool : List α) : List α := sortOn h.rank pool

/-- The pool by seniority. -/
def ordered (h : Hill α ι τ κ ρ) (pool : List α) : List α := sortOn h.seniority pool

/-- The opener and the challengers: the incumbent if it is in the pool, else the most senior row. -/
def opener (h : Hill α ι τ κ ρ) (incumbent : Option ι) (pool : List α) : Option (α × List α) :=
  match pool.find? fun e => some (h.name e) = incumbent with
  | some c => some (c, (h.ordered pool).filter fun e => h.name e ≠ h.name c)
  | none =>
    match h.ordered pool with
    | [] => none
    | c :: es => some (c, es)

/-- The best `n` rows. -/
def standing (h : Hill α ι τ κ ρ) (n : ℕ) (pool : List α) : List α := (h.ranked pool).take n

/-- The opener after the standing rule. -/
def standingOpener (h : Hill α ι τ κ ρ) (n : ℕ) (pool : List α) (champ : α) : Option α :=
  if h.name champ ∈ (h.standing n pool).map h.name then some champ
  else ((h.standing n pool).find? fun e => h.enough e champ).or (h.standing n pool).head?

/-- The standing challengers, by seniority. -/
def standingChallengers (h : Hill α ι τ κ ρ) (n : ℕ) (pool : List α) (champ : α) : List α :=
  (h.ordered pool).filter fun e => h.name e ∈ (h.standing n pool).map h.name ∧ h.name e ≠ h.name champ

/-- The start of the walk and its challengers, under an optional standing rule. -/
def start (h : Hill α ι τ κ ρ) (incumbent : Option ι) (gate : Option ℕ) (pool : List α) : Option (α × List α) :=
  match h.opener incumbent pool with
  | none => none
  | some (c, es) =>
    match gate with
    | none => some (c, es)
    | some n => (h.standingOpener n pool c).map fun c => (c, h.standingChallengers n pool c)

/-- The champion of a pool. -/
def champion (h : Hill α ι τ κ ρ) (incumbent : Option ι) (gate : Option ℕ) (pool : List α) : Option α :=
  (h.start incumbent gate pool).map fun s => walk h.beats s.1 s.2

/-- The paid slots after the comparison of neighbours. -/
def adjacentOrder (h : Hill α ι τ κ ρ) (l : List α) : List α :=
  if l.any h.adjacent then bubbleLoop h.swap l.length l else l

/-- The next `size` ranked rows of other owners, one each when `distinct`. -/
def tail (h : Hill α ι τ κ ρ) (size : ℕ) (distinct : Bool) (pool : List α) (champ : α) : List α :=
  let rest := (h.ranked pool).filter fun e => h.owner e ≠ h.owner champ
  h.adjacentOrder ((if distinct then distinctOn h.owner [h.owner champ] rest else rest).take size)

/-- The best row of each owner, by rank. -/
def distinctRanked (h : Hill α ι τ κ ρ) (pool : List α) : List α := distinctOn h.owner [] (h.ranked pool)

/-- The rows tied with the best one when the best rival is deadlocked; empty unless there are two. -/
def cohort (h : Hill α ι τ κ ρ) (pool : List α) (champ : α) : List α :=
  match (h.distinctRanked pool).find? fun e => h.owner e ≠ h.owner champ, h.distinctRanked pool with
  | some rival, anchor :: rest =>
    if h.deadlocked rival champ then
      let cohort := anchor :: rest.takeWhile fun e => h.tied e anchor
      if cohort.length > 1 then cohort else []
    else []
  | _, _ => []

/-- The recipients with their shares: the cohort in equal parts if there is one, else champion and tail on the curve,
averaged over ties when `pooling`. -/
def payout (h : Hill α ι τ κ ρ) (pooling openCohort : Bool) (size : ℕ) (curve : List K) (pool : List α) (champ : α) :
    List (α × K) :=
  let cohort := if openCohort then h.cohort pool champ else []
  if cohort.isEmpty then
    let recipients := champ :: h.tail size pooling pool champ
    let shares := curve.take recipients.length
    recipients.zip (if pooling then averageRuns h.tied (recipients.zip shares) else shares)
  else cohort.zip (List.replicate cohort.length (1 / (cohort.length : K)))

end Defs

/-! ## Related hills -/

/-- Two hills answer alike on related rows. -/
structure Agree (h : Hill α ι τ κ ρ) (h' : Hill β ι τ κ' ρ') (R : α → β → Prop) : Prop where
  name : ∀ a b, R a b → h.name a = h'.name b
  owner : ∀ a b, R a b → h.owner a = h'.owner b
  seniority : ∀ a b a' b', R a a' → R b b' → (h.seniority a ≤ h.seniority b ↔ h'.seniority a' ≤ h'.seniority b')
  rank : ∀ a b a' b', R a a' → R b b' → (h.rank a ≤ h.rank b ↔ h'.rank a' ≤ h'.rank b')
  beats : ∀ a b a' b', R a a' → R b b' → h.beats a b = h'.beats a' b'
  enough : ∀ a b a' b', R a a' → R b b' → h.enough a b = h'.enough a' b'
  swap : ∀ a b a' b', R a a' → R b b' → h.swap a b = h'.swap a' b'
  adjacent : ∀ a b, R a b → h.adjacent a = h'.adjacent b
  tied : ∀ a b a' b', R a a' → R b b' → h.tied a b = h'.tied a' b'
  deadlocked : ∀ a b a' b', R a a' → R b b' → h.deadlocked a b = h'.deadlocked a' b'

section Related

variable {h : Hill α ι τ κ ρ} {h' : Hill β ι τ κ' ρ'} {R : α → β → Prop} {l : List α} {m : List β}

theorem rel_ranked (ha : Agree h h' R) (hl : List.Forall₂ R l m) : List.Forall₂ R (h.ranked l) (h'.ranked m) :=
  rel_sortOn ha.rank hl

theorem rel_ordered (ha : Agree h h' R) (hl : List.Forall₂ R l m) : List.Forall₂ R (h.ordered l) (h'.ordered m) :=
  rel_sortOn ha.seniority hl

theorem rel_standing (ha : Agree h h' R) (n : ℕ) (hl : List.Forall₂ R l m) :
    List.Forall₂ R (h.standing n l) (h'.standing n m) := List.forall₂_take n (rel_ranked ha hl)

theorem rel_map_name {h : Hill α ι τ κ ρ} {h' : Hill β ι τ κ' ρ'} (hn : ∀ a b, R a b → h.name a = h'.name b)
    (hl : List.Forall₂ R l m) : l.map h.name = m.map h'.name := by
  induction hl with
  | nil => rfl
  | cons hab _ ih => rw [List.map_cons, List.map_cons, hn _ _ hab, ih]

theorem rel_adjacentOrder (ha : Agree h h' R) (hl : List.Forall₂ R l m) :
    List.Forall₂ R (h.adjacentOrder l) (h'.adjacentOrder m) := by
  have hany : l.any h.adjacent = m.any h'.adjacent := by
    induction hl with
    | nil => rfl
    | cons hab _ ih => rw [List.any_cons, List.any_cons, ha.adjacent _ _ hab, ih]
  unfold adjacentOrder
  rw [hany, hl.length_eq]
  split
  · exact rel_bubbleLoop ha.swap _ hl
  · exact hl

section Names

variable [DecidableEq ι]

theorem rel_opener (ha : Agree h h' R) (incumbent : Option ι) (hl : List.Forall₂ R l m) :
    Option.Rel (fun x y => R x.1 y.1 ∧ List.Forall₂ R x.2 y.2) (h.opener incumbent l) (h'.opener incumbent m) := by
  have hf : Option.Rel R (l.find? fun e => some (h.name e) = incumbent)
      (m.find? fun e => some (h'.name e) = incumbent) :=
    rel_find? (fun a b hab => by rw [ha.name a b hab]) hl
  unfold opener
  generalize (l.find? fun e => decide (some (h.name e) = incumbent)) = x at hf
  generalize (m.find? fun e => decide (some (h'.name e) = incumbent)) = y at hf
  cases hf with
  | some hab =>
    refine .some ⟨hab, ?_⟩
    exact rel_filter (fun a b hR => by rw [ha.name a b hR, ha.name _ _ hab]) (rel_ordered ha hl)
  | none =>
    have ho := rel_ordered ha hl
    generalize h.ordered l = xs at ho
    generalize h'.ordered m = ys at ho
    cases ho with
    | nil => exact .none
    | cons hab hes => exact .some ⟨hab, hes⟩

theorem rel_standingOpener (ha : Agree h h' R) (n : ℕ) (hl : List.Forall₂ R l m) {c : α} {d : β} (hcd : R c d) :
    Option.Rel R (h.standingOpener n l c) (h'.standingOpener n m d) := by
  have hs := rel_standing ha n hl
  unfold standingOpener
  rw [ha.name _ _ hcd, rel_map_name ha.name hs]
  split
  · exact .some hcd
  · have hf : Option.Rel R ((h.standing n l).find? fun e => h.enough e c)
      ((h'.standing n m).find? fun e => h'.enough e d) :=
      rel_find? (fun a b hab => ha.enough _ _ _ _ hab hcd) hs
    generalize ((h.standing n l).find? fun e => h.enough e c) = x at hf
    generalize ((h'.standing n m).find? fun e => h'.enough e d) = y at hf
    cases hf with
    | some hab => exact .some hab
    | none =>
      generalize h.standing n l = xs at hs
      generalize h'.standing n m = ys at hs
      cases hs with
      | nil => exact .none
      | cons hab _ => exact .some hab

theorem rel_standingChallengers (ha : Agree h h' R) (n : ℕ) (hl : List.Forall₂ R l m) {c : α} {d : β} (hcd : R c d) :
    List.Forall₂ R (h.standingChallengers n l c) (h'.standingChallengers n m d) := by
  refine rel_filter (fun a b hR => ?_) (rel_ordered ha hl)
  rw [ha.name a b hR, ha.name _ _ hcd, rel_map_name ha.name (rel_standing ha n hl)]

theorem rel_start (ha : Agree h h' R) (incumbent : Option ι) (gate : Option ℕ) (hl : List.Forall₂ R l m) :
    Option.Rel (fun x y => R x.1 y.1 ∧ List.Forall₂ R x.2 y.2) (h.start incumbent gate l)
      (h'.start incumbent gate m) := by
  have ho := rel_opener ha incumbent hl
  unfold start
  generalize h.opener incumbent l = x at ho
  generalize h'.opener incumbent m = y at ho
  cases ho with
  | none => exact .none
  | @some p q hpq =>
    obtain ⟨hcd, hes⟩ := hpq
    cases gate with
    | none => exact .some ⟨hcd, hes⟩
    | some n =>
      have hso := rel_standingOpener ha n hl hcd
      simp only
      generalize h.standingOpener n l p.1 = x at hso
      generalize h'.standingOpener n m q.1 = y at hso
      cases hso with
      | none => exact .none
      | some hcd => exact .some ⟨hcd, rel_standingChallengers ha n hl hcd⟩

/-- Related pools have related champions. -/
theorem rel_champion (ha : Agree h h' R) (incumbent : Option ι) (gate : Option ℕ) (hl : List.Forall₂ R l m) :
    Option.Rel R (h.champion incumbent gate l) (h'.champion incumbent gate m) := by
  have hs := rel_start ha incumbent gate hl
  unfold champion
  generalize h.start incumbent gate l = x at hs
  generalize h'.start incumbent gate m = y at hs
  cases hs with
  | none => exact .none
  | some hpq => exact .some (rel_walk ha.beats hpq.2 hpq.1)

end Names

section Owners

variable [DecidableEq τ] [Field K]

/-- Related pools have related tails. -/
theorem rel_tail (ha : Agree h h' R) (size : ℕ) (distinct : Bool) (hl : List.Forall₂ R l m) {c : α} {d : β}
    (hcd : R c d) : List.Forall₂ R (h.tail size distinct l c) (h'.tail size distinct m d) := by
  have hrest : List.Forall₂ R ((h.ranked l).filter fun e => h.owner e ≠ h.owner c)
      ((h'.ranked m).filter fun e => h'.owner e ≠ h'.owner d) := by
    exact rel_filter (fun a b hR => by rw [ha.owner a b hR, ha.owner _ _ hcd]) (rel_ranked ha hl)
  refine rel_adjacentOrder ha (List.forall₂_take size ?_)
  split
  · have := rel_distinctOn ha.owner hrest [h.owner c]
    rwa [ha.owner _ _ hcd] at this ⊢
  · exact hrest

theorem rel_cohort (ha : Agree h h' R) (hl : List.Forall₂ R l m) {c : α} {d : β} (hcd : R c d) :
    List.Forall₂ R (h.cohort l c) (h'.cohort m d) := by
  have hdr : List.Forall₂ R (h.distinctRanked l) (h'.distinctRanked m) :=
    rel_distinctOn ha.owner (rel_ranked ha hl) []
  have hf : Option.Rel R ((h.distinctRanked l).find? fun e => h.owner e ≠ h.owner c)
      ((h'.distinctRanked m).find? fun e => h'.owner e ≠ h'.owner d) :=
    rel_find? (fun a b hab => by rw [ha.owner a b hab, ha.owner _ _ hcd]) hdr
  unfold cohort
  generalize ((h.distinctRanked l).find? fun e => decide (h.owner e ≠ h.owner c)) = x at hf
  generalize ((h'.distinctRanked m).find? fun e => decide (h'.owner e ≠ h'.owner d)) = y at hf
  generalize h.distinctRanked l = xs at hdr
  generalize h'.distinctRanked m = ys at hdr
  cases hf with
  | none => exact .nil
  | some hr =>
    cases hdr with
    | nil => exact .nil
    | cons hab hrest =>
      have hc : List.Forall₂ R (_ :: _) (_ :: _) :=
        .cons hab (rel_takeWhile (fun a b hR => ha.tied _ _ _ _ hR hab) hrest)
      simp only [ha.deadlocked _ _ _ _ hr hcd, hc.length_eq]
      split
      · split
        · exact hc
        · exact .nil
      · exact .nil

/-- Related pools pay related recipients the same shares. -/
theorem rel_payout (ha : Agree h h' R) (pooling openCohort : Bool) (size : ℕ) (curve : List K)
    (hl : List.Forall₂ R l m) {c : α} {d : β} (hcd : R c d) :
    List.Forall₂ (fun x y => R x.1 y.1 ∧ x.2 = y.2) (h.payout pooling openCohort size curve l c)
      (h'.payout pooling openCohort size curve m d) := by
  have hco : List.Forall₂ R (if openCohort then h.cohort l c else []) (if openCohort then h'.cohort m d else []) := by
    split
    · exact rel_cohort ha hl hcd
    · exact .nil
  have hre : List.Forall₂ R (c :: h.tail size pooling l c) (d :: h'.tail size pooling m d) :=
    .cons hcd (rel_tail ha size pooling hl hcd)
  unfold payout
  generalize (if openCohort then h.cohort l c else []) = xs at hco
  generalize (if openCohort then h'.cohort m d else []) = ys at hco
  cases hco with
  | nil =>
    simp only [List.isEmpty_nil, if_true, hre.length_eq]
    split
    · rw [rel_averageRuns ha.tied (rel_zip hre _)]
      exact rel_zip hre _
    · exact rel_zip hre _
  | cons hab hco =>
    simp only [List.isEmpty_cons, Bool.false_eq_true, if_false, List.length_cons, hco.length_eq]
    exact rel_zip (.cons hab hco) _

end Owners

end Related

/-! ## The order of the pool -/

/-- Name, seniority and rank tell the rows of the pool apart. -/
structure Separates (h : Hill α ι τ κ ρ) (pool : List α) : Prop where
  names : (pool.map h.name).Nodup
  seniority : ∀ a ∈ pool, ∀ b ∈ pool, h.seniority a = h.seniority b → a = b
  rank : ∀ a ∈ pool, ∀ b ∈ pool, h.rank a = h.rank b → a = b

section Order

variable {h : Hill α ι τ κ ρ} {l m : List α}

theorem Separates.name (hs : Separates h l) : ∀ a ∈ l, ∀ b ∈ l, h.name a = h.name b → a = b := fun _ ha _ hb hab =>
  List.inj_on_of_nodup_map hs.names ha hb hab

theorem ranked_perm (hs : Separates h l) (hp : l.Perm m) : h.ranked l = h.ranked m := sortOn_eq_of_perm hs.rank hp

theorem ordered_perm (hs : Separates h l) (hp : l.Perm m) : h.ordered l = h.ordered m :=
  sortOn_eq_of_perm hs.seniority hp

section Names

variable [DecidableEq ι]

theorem opener_perm (hs : Separates h l) (hp : l.Perm m) (incumbent : Option ι) :
    h.opener incumbent l = h.opener incumbent m := by
  have hf : (l.find? fun e => decide (some (h.name e) = incumbent)) =
      m.find? fun e => decide (some (h.name e) = incumbent) := by
    refine find?_perm (fun a ha b hb hpa hpb => ?_) hp
    simp only [decide_eq_true_eq] at hpa hpb
    exact hs.name a ha b hb (Option.some.inj (hpa.trans hpb.symm))
  unfold opener
  rw [hf, ordered_perm hs hp]

theorem champion_perm (hs : Separates h l) (hp : l.Perm m) (incumbent : Option ι) (gate : Option ℕ) :
    h.champion incumbent gate l = h.champion incumbent gate m := by
  have hst : ∀ n, h.standing n l = h.standing n m := fun n => by rw [standing, ranked_perm hs hp, standing]
  unfold champion start
  rw [opener_perm hs hp incumbent]
  simp only [standingOpener, standingChallengers, hst, ordered_perm hs hp]

end Names

section Owners

variable [DecidableEq τ] [Field K]

theorem tail_perm (hs : Separates h l) (hp : l.Perm m) (size : ℕ) (distinct : Bool) (c : α) :
    h.tail size distinct l c = h.tail size distinct m c := by
  unfold tail
  rw [ranked_perm hs hp]

theorem payout_perm (hs : Separates h l) (hp : l.Perm m) (pooling openCohort : Bool) (size : ℕ) (curve : List K)
    (c : α) : h.payout pooling openCohort size curve l c = h.payout pooling openCohort size curve m c := by
  have hc : h.cohort l c = h.cohort m c := by
    unfold cohort distinctRanked
    rw [ranked_perm hs hp]
  unfold payout
  rw [hc, tail_perm hs hp]

end Owners

end Order

section Tail

variable {h : Hill α ι τ κ ρ} {pool : List α} [DecidableEq τ]

theorem adjacentOrder_perm (h : Hill α ι τ κ ρ) (l : List α) : (h.adjacentOrder l).Perm l := by
  unfold adjacentOrder
  split
  · exact bubbleLoop_perm _ _
  · exact .refl l

/-- The champion and the tail are distinct rows. -/
theorem names_tail_nodup (hs : Separates h pool) (size : ℕ) (distinct : Bool) {c : α} (hc : c ∈ pool) :
    ((c :: h.tail size distinct pool c).map h.name).Nodup := by
  set rest := (h.ranked pool).filter fun e => h.owner e ≠ h.owner c with hrest
  have hsub : ((if distinct then distinctOn h.owner [h.owner c] rest else rest).take size).Sublist rest := by
    refine (List.take_sublist _ _).trans ?_
    split
    · exact distinctOn_sublist _ _ _
    · exact .refl rest
  have hperm : (h.tail size distinct pool c).Perm _ := adjacentOrder_perm h _
  have hmem : ∀ e ∈ h.tail size distinct pool c, e ∈ pool ∧ h.owner e ≠ h.owner c := fun e he => by
    have := hsub.subset (hperm.mem_iff.1 he)
    simpa [hrest, ranked] using this
  rw [List.map_cons, List.nodup_cons]
  constructor
  · intro hm
    obtain ⟨e, he, hec⟩ := List.mem_map.1 hm
    obtain ⟨hep, hown⟩ := hmem e he
    exact hown (by rw [hs.name e hep c hc hec])
  · refine (hperm.map h.name).nodup_iff.2 (((hsub.trans List.filter_sublist).map h.name).nodup ?_)
    exact ((sortOn_perm h.rank pool).map h.name).nodup_iff.2 hs.names

theorem length_tail_le (h : Hill α ι τ κ ρ) (pool : List α) (size : ℕ) (distinct : Bool) (c : α) :
    (h.tail size distinct pool c).length ≤ size := by
  unfold tail
  rw [(adjacentOrder_perm h _).length_eq]
  exact List.length_take_le _ _

end Tail

/-! ## Who can be champion -/

section Champion

variable {h : Hill α ι τ κ ρ} {pool : List α} [DecidableEq ι]

theorem mem_of_mem_standing {n : ℕ} {e : α} (he : e ∈ h.standing n pool) : e ∈ pool :=
  mem_sortOn.1 (List.mem_of_mem_take he)

/-- A row of the pool named like a standing row is that row. -/
theorem mem_standing_of_name (hs : Separates h pool) {n : ℕ} {e : α} (he : e ∈ pool)
    (hn : h.name e ∈ (h.standing n pool).map h.name) : e ∈ h.standing n pool := by
  obtain ⟨f, hf, hfe⟩ := List.mem_map.1 hn
  rwa [← hs.name f (mem_of_mem_standing hf) e he hfe]

theorem opener_mem {incumbent : Option ι} {c : α} {es : List α} (ho : h.opener incumbent pool = some (c, es)) :
    c ∈ pool ∧ ∀ e, e ∈ es → e ∈ pool := by
  unfold opener at ho
  split at ho
  · rename_i c' hf
    cases ho
    exact ⟨List.mem_of_find?_eq_some hf, fun e he => mem_sortOn.1 (List.mem_of_mem_filter he)⟩
  · split at ho
    · cases ho
    · rename_i c' es' hord
      cases ho
      have : ∀ e, e ∈ c :: es → e ∈ pool := fun e he => mem_sortOn.1 (hord ▸ he)
      exact ⟨this c List.mem_cons_self, fun e he => this e (List.mem_cons_of_mem _ he)⟩

theorem opener_isSome (hne : pool ≠ []) (incumbent : Option ι) : ∃ s, h.opener incumbent pool = some s := by
  unfold opener
  split
  · exact ⟨_, rfl⟩
  · split
    · rename_i hord
      exact absurd hord (sortOn_ne_nil hne)
    · exact ⟨_, rfl⟩

theorem standingOpener_isSome (hne : pool ≠ []) {n : ℕ} (hn : 0 < n) (c : α) :
    ∃ d, h.standingOpener n pool c = some d := by
  unfold standingOpener
  split
  · exact ⟨_, rfl⟩
  · cases hst : h.standing n pool with
    | nil =>
      rw [standing, List.take_eq_nil_iff] at hst
      exact hst.elim (fun h0 => absurd h0 (by omega)) (fun h0 => absurd h0 (sortOn_ne_nil hne))
    | cons d ds =>
      cases (d :: ds).find? fun e => h.enough e c with
      | none => exact ⟨d, rfl⟩
      | some f => exact ⟨f, rfl⟩

theorem standingOpener_mem (hs : Separates h pool) {n : ℕ} {c d : α} (hc : c ∈ pool)
    (hd : h.standingOpener n pool c = some d) : d ∈ h.standing n pool := by
  unfold standingOpener at hd
  split at hd
  · rename_i hn
    cases hd
    exact mem_standing_of_name hs hc hn
  · cases hf : (h.standing n pool).find? fun e => h.enough e c with
    | some f =>
      rw [hf] at hd
      cases hd
      exact List.mem_of_find?_eq_some hf
    | none =>
      rw [hf, Option.none_or] at hd
      exact List.mem_of_mem_head? hd

theorem mem_standingChallengers (hs : Separates h pool) {n : ℕ} {c e : α}
    (he : e ∈ h.standingChallengers n pool c) : e ∈ h.standing n pool := by
  obtain ⟨hmem, hname⟩ := List.mem_filter.1 he
  simp only [decide_eq_true_eq] at hname
  exact mem_standing_of_name hs (mem_sortOn.1 hmem) hname.1

/-- Under a standing rule there is a champion and it stands. -/
theorem champion_mem_standing (hs : Separates h pool) (hne : pool ≠ []) (incumbent : Option ι) {n : ℕ} (hn : 0 < n) :
    ∃ c, h.champion incumbent (some n) pool = some c ∧ c ∈ h.standing n pool := by
  obtain ⟨⟨c, es⟩, ho⟩ := opener_isSome (h := h) hne incumbent
  obtain ⟨d, hd⟩ := standingOpener_isSome (h := h) hne hn c
  refine ⟨walk h.beats d (h.standingChallengers n pool d), ?_, ?_⟩
  · simp only [champion, start, ho, hd, Option.map_some]
  · rcases @walk_mem α h.beats d (h.standingChallengers n pool d) with hw | hw
    · rw [hw]
      exact standingOpener_mem hs (opener_mem ho).1 hd
    · exact mem_standingChallengers hs hw

/-- From a standing opener the champion is reached by wins of standing rows. -/
theorem champion_chain (hs : Separates h pool) {incumbent : Option ι} {n : ℕ} {o c : α} {es : List α}
    (ho : h.opener incumbent pool = some (o, es)) (hst : o ∈ h.standing n pool)
    (hc : h.champion incumbent (some n) pool = some c) :
    Relation.ReflTransGen (fun a b => b ∈ h.standing n pool ∧ h.beats b a = true) o c := by
  have hso : h.standingOpener n pool o = some o := by
    rw [standingOpener, if_pos (List.mem_map_of_mem hst)]
  simp only [champion, start, ho, hso, Option.map_some, Option.some.injEq] at hc
  rw [← hc]
  exact (walk_chain o _).lift id fun a b hab => ⟨mem_standingChallengers hs hab.1, hab.2⟩

/-! ## Walking again -/

/-- The rows that may hold or take the crown. -/
def admitted (h : Hill α ι τ κ ρ) (gate : Option ℕ) (pool : List α) (e : α) : Bool :=
  match gate with
  | none => true
  | some n => h.name e ∈ (h.standing n pool).map h.name

/-- The admitted challengers of `c`, by seniority. -/
def challengers (h : Hill α ι τ κ ρ) (gate : Option ℕ) (pool : List α) (c : α) : List α :=
  (h.ordered pool).filter fun e => h.admitted gate pool e ∧ h.name e ≠ h.name c

theorem mem_challengers {gate : Option ℕ} {c e : α} :
    e ∈ h.challengers gate pool c ↔ e ∈ pool ∧ h.admitted gate pool e = true ∧ h.name e ≠ h.name c := by
  simp [challengers, ordered]

/-- The opener walks all other rows of the pool. -/
theorem opener_spec (hs : Separates h pool) {incumbent : Option ι} {o : α} {es : List α}
    (ho : h.opener incumbent pool = some (o, es)) : es = h.challengers none pool o := by
  unfold opener at ho
  split at ho
  · cases ho
    simp only [challengers, admitted, true_and]
  · split at ho
    · cases ho
    · rename_i hord
      cases ho
      have hn : ((o :: es).map h.name).Nodup := by
        rw [← hord]
        exact ((sortOn_perm h.seniority pool).map h.name).nodup_iff.2 hs.names
      rw [List.map_cons, List.nodup_cons] at hn
      simp only [challengers, admitted, true_and, hord]
      rw [List.filter_cons_of_neg (by simp), eq_comm, List.filter_eq_self]
      intro e he
      exact decide_eq_true fun heq => hn.1 (heq ▸ List.mem_map_of_mem he)

/-- A walk starts at an admitted row and its challengers are all other admitted rows. -/
theorem start_spec (hs : Separates h pool) {incumbent : Option ι} {gate : Option ℕ} {o : α} {es : List α}
    (hst : h.start incumbent gate pool = some (o, es)) :
    o ∈ pool ∧ h.admitted gate pool o = true ∧ es = h.challengers gate pool o := by
  unfold start at hst
  split at hst
  · cases hst
  · rename_i c fs ho
    cases gate with
    | none =>
      cases hst
      exact ⟨(opener_mem ho).1, rfl, opener_spec hs ho⟩
    | some n =>
      obtain ⟨d, hd, hde⟩ := Option.map_eq_some_iff.1 hst
      cases hde
      have hmem := standingOpener_mem hs (opener_mem ho).1 hd
      exact ⟨mem_of_mem_standing hmem, decide_eq_true (List.mem_map_of_mem hmem), by
        simp only [standingChallengers, challengers, admitted, decide_eq_true_eq]⟩

/-- The champion is a row of the pool. -/
theorem champion_mem (hs : Separates h pool) {incumbent : Option ι} {gate : Option ℕ} {c : α}
    (hc : h.champion incumbent gate pool = some c) : c ∈ pool := by
  obtain ⟨⟨o, es⟩, hst, hw⟩ := Option.map_eq_some_iff.1 hc
  obtain ⟨hmem, -, hes⟩ := start_spec hs hst
  rcases @walk_mem _ h.beats o es with hwalk | hwalk
  · rw [← hw, hwalk]
    exact hmem
  · rw [hw, hes] at hwalk
    exact (mem_challengers.1 hwalk).1

/-- An admitted incumbent starts the walk. -/
theorem start_of_admitted (hs : Separates h pool) {gate : Option ℕ} {c : α} (hc : c ∈ pool)
    (ha : h.admitted gate pool c = true) :
    h.start (some (h.name c)) gate pool = some (c, h.challengers gate pool c) := by
  have hf : (pool.find? fun e => decide (some (h.name e) = some (h.name c))) = some c := by
    cases hf : pool.find? fun e => decide (some (h.name e) = some (h.name c)) with
    | none =>
      rw [List.find?_eq_none] at hf
      exact absurd (decide_eq_true rfl) (hf c hc)
    | some d =>
      have hd := List.find?_some hf
      simp only [Option.some.injEq, decide_eq_true_eq] at hd
      rw [hs.name d (List.mem_of_find?_eq_some hf) c hc hd]
  unfold start opener
  rw [hf]
  cases gate with
  | none => simp only [challengers, admitted, true_and]
  | some n =>
    have hst : h.standingOpener n pool c = some c := by
      rw [standingOpener, if_pos (of_decide_eq_true ha)]
    simp only [hst, Option.map_some, standingChallengers, challengers, admitted, decide_eq_true_eq]

/-- A second walk from the champion stays there iff neither the start of the first walk nor a challenger senior to the
champion beats it. -/
theorem champion_again_iff (hs : Separates h pool) {incumbent : Option ι} {gate : Option ℕ} {o c : α} {es : List α}
    (hst : h.start incumbent gate pool = some (o, es)) (hc : h.champion incumbent gate pool = some c) :
    h.champion (some (h.name c)) gate pool = some c ↔
      ∀ e, e ≠ c → (e = o ∨ e ∈ es ∧ h.seniority e < h.seniority c) → h.beats e c = false := by
  obtain ⟨ho, hoa, rfl⟩ := start_spec hs hst
  have hw : walk h.beats o (h.challengers gate pool o) = c := by simpa [champion, hst] using hc
  -- the champion is a row of the pool that may hold the crown, so it starts the second walk
  have hcp : c ∈ pool ∧ h.admitted gate pool c = true := by
    rcases @walk_mem α h.beats o (h.challengers gate pool o) with h₁ | h₁
    · rw [← hw, h₁]
      exact ⟨ho, hoa⟩
    · rw [hw, mem_challengers] at h₁
      exact ⟨h₁.1, h₁.2.1⟩
  have hnot : c ∉ h.challengers gate pool c := fun hm => (mem_challengers.1 hm).2.2 rfl
  have hagain : h.champion (some (h.name c)) gate pool = some c ↔
      ∀ e ∈ h.challengers gate pool c, h.beats e c = false := by
    rw [champion, start_of_admitted hs hcp.1 hcp.2, Option.map_some, Option.some.injEq]
    exact walk_eq_self_iff hnot
  rw [hagain]
  constructor
  · rintro hall e hne (rfl | ⟨he, -⟩)
    · exact hall e (mem_challengers.2 ⟨ho, hoa, fun hn => hne (hs.name e ho c hcp.1 hn)⟩)
    · obtain ⟨hep, hea, -⟩ := mem_challengers.1 he
      exact hall e (mem_challengers.2 ⟨hep, hea, fun hn => hne (hs.name e hep c hcp.1 hn)⟩)
  · intro hcond e he
    obtain ⟨hep, hea, hen⟩ := mem_challengers.1 he
    have hne : e ≠ c := fun h₁ => hen (by rw [h₁])
    by_cases heo : e = o
    · exact hcond e hne (.inl heo)
    have hes : e ∈ h.challengers gate pool o := mem_challengers.2 ⟨hep, hea, fun hn => heo (hs.name e hep o ho hn)⟩
    rcases @walk_split α h.beats o (h.challengers gate pool o) with ⟨h₁, hall⟩ | ⟨xs, ys, hsplit, hall⟩
    · rw [hw] at h₁
      exact h₁ ▸ hall e hes
    · rw [hw] at hsplit hall
      have hes' := hes
      rw [hsplit, List.mem_append, List.mem_cons] at hes'
      rcases hes' with hx | hx | hx
      · -- walked before the accession: more senior than the champion
        have hsort : (h.challengers gate pool o).Pairwise (fun a b => h.seniority a ≤ h.seniority b) :=
          (pairwise_sortOn h.seniority pool).filter _
        rw [hsplit, List.pairwise_append] at hsort
        have hle := hsort.2.2 e hx c List.mem_cons_self
        exact hcond e hne (.inr ⟨hes, lt_of_le_of_ne hle fun heq => hne (hs.seniority e hep c hcp.1 heq)⟩)
      · exact absurd hx hne
      · exact hall e hx

end Champion

end Hill

end Kit

import DittoSubnet.Kit.Dict
import DittoSubnet.Kit.UnionFind
import DittoSubnet.Similarity.Sketch
import Mathlib.Data.Prod.Lex

/-!
# Similarity budgets

`same_budget` and `similarity_budgets` of `ditto/db/queries/similarity_grouping.py`: which submissions share a
concurrency budget, and the groups that an operator is shown. A pair is looked at in the order of the list, so the
groups are the components of the relation when it does not depend on the order of a pair.

* `isSome_sameBudget_comm`: two submissions share a budget in both orders when their sketches have level ends.
* `similarityBudgets_classes`: the groups are the components of the relation, whatever the order of the list.
* `symmetricBudgets_iff`: all this holds of a list exactly when its sketches have level ends.
-/

namespace DittoSubnet.Similarity

open Kit

/-! ## The rule -/

/-- One submission's evidence; ids are ordered as their texts. -/
structure SubmissionSketch (Id : Type) where
  agentId : Id
  fingerprint : Option Sketch

/-- The operator's thresholds, within their bounds. -/
structure SimilarityBudgetPolicy where
  jaccardThreshold : ℚ := 90 / 100
  containmentThreshold : ℚ := 95 / 100
  sizeRatioFloor : ℚ := 1 / 2
  minShingles : ℕ := 64
  jaccard_mem : 7 / 10 ≤ jaccardThreshold ∧ jaccardThreshold ≤ 1 := by norm_num
  containment_mem : 7 / 10 ≤ containmentThreshold ∧ containmentThreshold ≤ 1 := by norm_num
  sizeRatio_mem : 1 / 10 ≤ sizeRatioFloor ∧ sizeRatioFloor ≤ 1 := by norm_num
  minShingles_pos : 1 ≤ minShingles := by norm_num

inductive Channel
  | jaccard
  | containment
  deriving DecidableEq

structure SimilarityMatch (Id : Type) where
  agentId : Id
  jaccard : ℚ
  containment : ℚ
  channel : Channel

section Rule

variable {Id : Type} [LinearOrder Id]

/-- Whether the sketch can take part in a comparison. -/
def SubmissionSketch.comparable (s : SubmissionSketch Id) : Prop :=
  ∃ f ∈ s.fingerprint, f.m.getD [] ≠ []

instance (s : SubmissionSketch Id) : Decidable s.comparable :=
  match h : s.fingerprint with
  | none => isFalse fun ⟨_, hf, _⟩ => by simp [h] at hf
  | some f =>
    if hm : f.m.getD [] ≠ [] then isTrue ⟨f, h, hm⟩
    else isFalse fun ⟨g, hg, hne⟩ => hm (by rw [h, Option.mem_some_iff] at hg; exact hg ▸ hne)

def SubmissionSketch.card (s : SubmissionSketch Id) : ℕ := (s.fingerprint.map Sketch.size).getD 0

/-- `same_budget`. -/
def sameBudget (left right : SubmissionSketch Id) (policy : SimilarityBudgetPolicy) : Option (SimilarityMatch Id) :=
  if left.agentId = right.agentId then none
  else if ¬ (left.comparable ∧ right.comparable) then none
  else
    let smaller := min left.card right.card
    let larger := max left.card right.card
    if smaller < policy.minShingles then none
    else if larger = 0 ∨ (smaller : ℚ) / larger < policy.sizeRatioFloor then none
    else
      let scores := contentSimilarity left.fingerprint right.fingerprint
      if policy.jaccardThreshold ≤ scores.1 then
        some { agentId := right.agentId, jaccard := scores.1, containment := scores.2, channel := .jaccard }
      else if policy.containmentThreshold ≤ scores.2 then
        some { agentId := right.agentId, jaccard := scores.1, containment := scores.2, channel := .containment }
      else none

/-- The pairs of a list, in its order. -/
def pairsOf {α : Type} : List α → List (α × α)
  | [] => []
  | a :: l => l.map (fun b => (a, b)) ++ pairsOf l

/-- The ids of the pairs that share a budget. -/
def linkedIds (sketches : List (SubmissionSketch Id)) (policy : SimilarityBudgetPolicy) : List (Id × Id) :=
  ((pairsOf sketches).filter fun p => (sameBudget p.1 p.2 policy).isSome).map fun p => (p.1.agentId, p.2.agentId)

/-- Groups the ids by their roots; `find` halves paths as it goes. -/
def groupByRoot (fuel : ℕ) : (Id → Id) → Dict Id (List Id) → List Id → Option (Dict Id (List Id))
  | _, grouped, [] => some grouped
  | parent, grouped, id :: ids =>
    match UnionFind.find fuel parent id with
    | none => none
    | some (root, parent) => groupByRoot fuel parent (grouped.push root id) ids

/-- The largest group first, then by the first member. -/
def groupOrder (members : List Id) : ℕᵒᵈ ×ₗ WithBot Id := toLex (OrderDual.toDual members.length, members.head?)

/-- `similarity_budgets`, with at most `fuel` tests in a loop of `find`. -/
def similarityBudgets (fuel : ℕ) (sketches : List (SubmissionSketch Id)) (policy : SimilarityBudgetPolicy) :
    Option (List (List Id)) :=
  match UnionFind.uniteAll fuel (fun id => id) (linkedIds sketches policy) with
  | none => none
  | some parent =>
    (groupByRoot fuel parent [] (sketches.map (·.agentId))).map fun grouped =>
      sortOn groupOrder (grouped.map Prod.snd)

/-! ## The order of a pair -/

theorem isSome_sameBudget (left right : SubmissionSketch Id) (policy : SimilarityBudgetPolicy) :
    (sameBudget left right policy).isSome ↔
      left.agentId ≠ right.agentId ∧ (left.comparable ∧ right.comparable) ∧
        policy.minShingles ≤ min left.card right.card ∧
        ¬ (max left.card right.card = 0 ∨
          ((min left.card right.card : ℕ) : ℚ) / (max left.card right.card : ℕ) < policy.sizeRatioFloor) ∧
        (policy.jaccardThreshold ≤ (contentSimilarity left.fingerprint right.fingerprint).1 ∨
          policy.containmentThreshold ≤ (contentSimilarity left.fingerprint right.fingerprint).2) := by
  unfold sameBudget
  dsimp only
  split
  · rename_i h
    simp [h]
  rename_i hid
  split
  · rename_i h
    simp [h]
  rename_i hcomparable
  rw [not_not] at hcomparable
  split
  · rename_i h
    exact iff_of_false (by simp) fun hall => absurd hall.2.2.1 (not_le.2 h)
  rename_i hfloor
  split
  · rename_i h
    exact iff_of_false (by simp) fun hall => hall.2.2.2.1 h
  rename_i hratio
  split
  · rename_i h
    exact iff_of_true rfl ⟨hid, hcomparable, not_lt.1 hfloor, hratio, .inl h⟩
  rename_i hjaccard
  split
  · rename_i h
    exact iff_of_true rfl ⟨hid, hcomparable, not_lt.1 hfloor, hratio, .inr h⟩
  · rename_i h
    exact iff_of_false (by simp) fun hall => hall.2.2.2.2.elim hjaccard h

theorem isSome_sameBudget_comm {left right : SubmissionSketch Id}
    (h : contentSimilarity left.fingerprint right.fingerprint = contentSimilarity right.fingerprint left.fingerprint)
    (policy : SimilarityBudgetPolicy) : (sameBudget left right policy).isSome ↔
      (sameBudget right left policy).isSome := by
  rw [isSome_sameBudget, isSome_sameBudget, h, min_comm, max_comm, ne_comm, and_comm (a := left.comparable)]

/-! ## The groups -/

theorem mem_pairsOf {α : Type} : ∀ {l : List α} {a b : α}, (a, b) ∈ pairsOf l → a ∈ l ∧ b ∈ l
  | c :: l, a, b, h => by
    rcases List.mem_append.1 h with h | h
    · obtain ⟨d, hd, heq⟩ := List.mem_map.1 h
      obtain ⟨rfl, rfl⟩ := Prod.mk.inj heq
      exact ⟨List.mem_cons_self, List.mem_cons_of_mem _ hd⟩
    · obtain ⟨ha, hb⟩ := mem_pairsOf h
      exact ⟨List.mem_cons_of_mem _ ha, List.mem_cons_of_mem _ hb⟩

/-- Two different elements are a pair in one order or the other. -/
theorem pairsOf_total {α : Type} : ∀ {l : List α} {a b : α}, a ∈ l → b ∈ l → a ≠ b →
    (a, b) ∈ pairsOf l ∨ (b, a) ∈ pairsOf l
  | c :: l, a, b, ha, hb, hne => by
    rw [pairsOf, List.mem_append, List.mem_append]
    rcases List.mem_cons.1 ha with hac | ha'
    · rcases List.mem_cons.1 hb with hbc | hb'
      · exact absurd (hac.trans hbc.symm) hne
      · exact .inl (.inl (hac ▸ List.mem_map_of_mem hb'))
    · rcases List.mem_cons.1 hb with hbc | hb'
      · exact .inr (.inl (hbc ▸ List.mem_map_of_mem ha'))
      · exact (pairsOf_total ha' hb' hne).imp .inr .inr

theorem length_pairsOf {α : Type} : ∀ l : List α, (pairsOf l).length ≤ l.length * l.length
  | [] => by simp [pairsOf]
  | a :: l => by
    have ih := length_pairsOf l
    rw [pairsOf, List.length_append, List.length_map, List.length_cons]
    nlinarith

/-- Two ids of the list share a budget. -/
def SharesBudget (sketches : List (SubmissionSketch Id)) (policy : SimilarityBudgetPolicy) (x y : Id) : Prop :=
  ∃ a ∈ sketches, ∃ b ∈ sketches, a.agentId = x ∧ b.agentId = y ∧ (sameBudget a b policy).isSome

/-- The connected components of the relation. -/
def components (sketches : List (SubmissionSketch Id)) (policy : SimilarityBudgetPolicy) : Set (Set Id) :=
  {c | ∃ x ∈ sketches.map (·.agentId),
    c = {y | y ∈ sketches.map (·.agentId) ∧ Relation.EqvGen (SharesBudget sketches policy) x y}}

/-- The groups as sets. -/
def classes (groups : List (List Id)) : Set (Set Id) := {c | ∃ g ∈ groups, c = {y | y ∈ g}}

/-- Under a relation that does not depend on the order of a pair, the pairs looked at link what the relation links. -/
theorem eqvGen_linkedIds {sketches : List (SubmissionSketch Id)} {policy : SimilarityBudgetPolicy}
    (hcomm : ∀ a ∈ sketches, ∀ b ∈ sketches, ((sameBudget a b policy).isSome ↔ (sameBudget b a policy).isSome))
    {x y : Id} :
    Relation.EqvGen (fun x y => (x, y) ∈ linkedIds sketches policy) x y ↔
      Relation.EqvGen (SharesBudget sketches policy) x y := by
  constructor
  · intro h
    refine Relation.EqvGen.mono (fun x y h => ?_) x y h
    obtain ⟨⟨a, b⟩, hp, heq⟩ := List.mem_map.1 h
    obtain ⟨rfl, rfl⟩ := Prod.mk.inj heq
    rw [List.mem_filter] at hp
    obtain ⟨ha, hb⟩ := mem_pairsOf hp.1
    exact ⟨a, ha, b, hb, rfl, rfl, hp.2⟩
  · intro h
    induction h with
    | rel x y h =>
      obtain ⟨a, ha, b, hb, rfl, rfl, hsome⟩ := h
      have hne : a ≠ b := fun heq => ((isSome_sameBudget a b policy).1 hsome).1 (by rw [heq])
      rcases pairsOf_total ha hb hne with hp | hp
      · exact .rel _ _ (List.mem_map.2 ⟨(a, b), List.mem_filter.2 ⟨hp, hsome⟩, rfl⟩)
      · exact .symm _ _ (.rel _ _ (List.mem_map.2 ⟨(b, a), List.mem_filter.2 ⟨hp, (hcomm a ha b hb).1 hsome⟩, rfl⟩))
    | refl x => exact .refl x
    | symm x y _ ih => exact .symm _ _ ih
    | trans x y z _ _ ih₁ ih₂ => exact .trans _ _ _ ih₁ ih₂

/-- Every id is added to the group of its root. -/
theorem groupByRoot_eq {fuel : ℕ} {rank : Id → ℕ} {root : Id → Id} (hfuel : ∀ x, rank x < fuel) :
    ∀ (ids : List Id) {parent : Id → Id} (grouped : Dict Id (List Id)), UnionFind.Ranked parent rank →
      (∀ x, UnionFind.Under parent x (root x)) → groupByRoot fuel parent grouped ids =
        some ((ids.map fun x => (root x, x)).foldl (fun d kv => d.push kv.1 kv.2) grouped)
  | [], _, _, _, _ => rfl
  | id :: ids, parent, grouped, hranked, hroot => by
    obtain ⟨r, parent', hfind, hunder, hranked', hkeep⟩ := UnionFind.find_spec hranked (hfuel id)
    rw [groupByRoot, hfind]
    dsimp only
    rw [groupByRoot_eq hfuel ids _ hranked' fun x => hkeep _ _ (hroot x), hunder.unique (hroot id)]
    rfl

theorem valuesOf_roots (root : Id → Id) (ids : List Id) (r : Id) :
    valuesOf r (ids.map fun x => (root x, x)) = ids.filter fun x => root x = r := by
  simp [valuesOf, List.filter_map, Function.comp_def]

/-- The groups of `similarity_budgets` are the components, each once, and every loop ends. -/
theorem similarityBudgets_classes {sketches : List (SubmissionSketch Id)} {policy : SimilarityBudgetPolicy} {fuel : ℕ}
    (hfuel : sketches.length * sketches.length < fuel) (hnodup : (sketches.map (·.agentId)).Nodup)
    (hcomm : ∀ a ∈ sketches, ∀ b ∈ sketches, ((sameBudget a b policy).isSome ↔ (sameBudget b a policy).isSome)) :
    ∃ groups, similarityBudgets fuel sketches policy = some groups ∧ classes groups = components sketches policy ∧
      (groups.map List.toFinset).Nodup ∧ ∀ g ∈ groups, g.Nodup := by
  have hpairs : (linkedIds sketches policy).length < fuel := by
    refine lt_of_le_of_lt ?_ hfuel
    rw [linkedIds, List.length_map]
    exact (List.length_filter_le _ _).trans (length_pairsOf sketches)
  obtain ⟨parent, rank, hall, hranked, hrank, hsame⟩ := UnionFind.uniteAll_spec hpairs.le
  choose root hroot using hranked.exists_under
  have hgroups : groupByRoot fuel parent [] (sketches.map (·.agentId)) =
      some (groupOn ((sketches.map (·.agentId)).map fun x => (root x, x))) :=
    groupByRoot_eq (fun x => (hrank x).trans_lt hpairs) _ [] hranked hroot
  have hconnected : ∀ x y, root y = root x ↔ Relation.EqvGen (SharesBudget sketches policy) x y := fun x y => by
    rw [← eqvGen_linkedIds hcomm, ← hsame, UnionFind.same_iff (hroot x) (hroot y), eq_comm]
  -- a group holds the ids with one root
  have hmem : ∀ g, g ∈ sortOn groupOrder
      ((groupOn ((sketches.map (·.agentId)).map fun x => (root x, x))).map Prod.snd) ↔ ∃ x ∈ sketches.map (·.agentId),
        g = (sketches.map (·.agentId)).filter fun y => root y = root x := by
    intro g
    rw [mem_sortOn, List.mem_map]
    constructor
    · rintro ⟨⟨r, vs⟩, hvs, rfl⟩
      obtain ⟨rfl, hne⟩ := mem_groupOn.1 hvs
      rw [valuesOf_roots] at hne ⊢
      obtain ⟨x, hx⟩ := List.exists_mem_of_ne_nil _ hne
      rw [List.mem_filter, decide_eq_true_eq] at hx
      exact ⟨x, hx.1, by rw [hx.2]⟩
    · rintro ⟨x, hx, rfl⟩
      refine ⟨(root x, _), mem_groupOn.2 ⟨rfl, ?_⟩, valuesOf_roots root _ (root x)⟩
      rw [valuesOf_roots]
      exact List.ne_nil_of_mem (List.mem_filter.2 ⟨hx, by simp⟩)
  have hrun : similarityBudgets fuel sketches policy =
      some (sortOn groupOrder ((groupOn ((sketches.map (·.agentId)).map fun x => (root x, x))).map Prod.snd)) := by
    unfold similarityBudgets
    rewrite [hall]
    dsimp only
    rw [hgroups, Option.map_some]
  refine ⟨_, hrun, ?_, ?_, ?_⟩
  · ext c
    constructor
    · rintro ⟨g, hg, rfl⟩
      obtain ⟨x, hx, rfl⟩ := (hmem g).1 hg
      refine ⟨x, hx, Set.ext fun y => ?_⟩
      simp only [Set.mem_ofPred_eq, List.mem_filter, decide_eq_true_eq, hconnected]
    · rintro ⟨x, hx, rfl⟩
      refine ⟨_, (hmem _).2 ⟨x, hx, rfl⟩, Set.ext fun y => ?_⟩
      simp only [Set.mem_ofPred_eq, List.mem_filter, decide_eq_true_eq, hconnected]
  · rw [((sortOn_perm groupOrder _).map _).nodup_iff, List.map_map]
    refine List.Nodup.map_on ?_ (List.Nodup.of_map Prod.fst (keys_groupOn_nodup _))
    rintro ⟨r, vs⟩ hvs ⟨r', vs'⟩ hvs' heq
    obtain ⟨rfl, hne⟩ := mem_groupOn.1 hvs
    obtain ⟨rfl, -⟩ := mem_groupOn.1 hvs'
    rw [valuesOf_roots] at hne
    simp only [Function.comp_apply, valuesOf_roots] at heq
    obtain ⟨x, hx⟩ := List.exists_mem_of_ne_nil _ hne
    have hx' := List.mem_toFinset.1 (heq ▸ List.mem_toFinset.2 hx)
    simp only [List.mem_filter, decide_eq_true_eq] at hx hx'
    rw [← hx.2, ← hx'.2]
  · intro g hg
    obtain ⟨x, -, rfl⟩ := (hmem g).1 hg
    exact hnodup.filter _

/-! ## What is promised of a list of submissions -/

/-- The sketches that submissions carry are those that `_sketch` builds. -/
def BuiltSketches (sketches : List (SubmissionSketch Id)) : Prop := ∀ s ∈ sketches, ∀ f ∈ s.fingerprint, f.Built

/-- The comparison and the rule do not depend on the order of a pair, and the groups are the components of the rule,
each once, whatever the order of the list. -/
structure SymmetricBudgets (sketches : List (SubmissionSketch Id)) : Prop where
  scores : ∀ a ∈ sketches, ∀ b ∈ sketches,
    contentSimilarity a.fingerprint b.fingerprint = contentSimilarity b.fingerprint a.fingerprint
  shares : ∀ a ∈ sketches, ∀ b ∈ sketches,
    (0 ≤ (contentSimilarity a.fingerprint b.fingerprint).1 ∧ (contentSimilarity a.fingerprint b.fingerprint).1 ≤ 1) ∧
      (0 ≤ (contentSimilarity a.fingerprint b.fingerprint).2 ∧ (contentSimilarity a.fingerprint b.fingerprint).2 ≤ 1)
  self : ∀ a ∈ sketches, a.comparable → contentSimilarity a.fingerprint a.fingerprint = (1, 1)
  budget : ∀ policy, ∀ a ∈ sketches, ∀ b ∈ sketches,
    ((sameBudget a b policy).isSome ↔ (sameBudget b a policy).isSome)
  groups : ∀ policy fuel, sketches.length * sketches.length < fuel →
    ∃ groups, similarityBudgets fuel sketches policy = some groups ∧ classes groups = components sketches policy ∧
      (groups.map List.toFinset).Nodup ∧ ∀ g ∈ groups, g.Nodup
  order : ∀ policy fuel, sketches.length * sketches.length < fuel → ∀ sketches', sketches.Perm sketches' →
    ∃ groups groups', similarityBudgets fuel sketches policy = some groups ∧
      similarityBudgets fuel sketches' policy = some groups' ∧ classes groups' = classes groups

omit [LinearOrder Id] in
theorem SubmissionSketch.members_ne_empty {s : SubmissionSketch Id} (h : s.comparable) :
    ∃ f ∈ s.fingerprint, f.members ≠ ∅ := by
  obtain ⟨f, hf, hne⟩ := h
  refine ⟨f, hf, fun hempty => hne ?_⟩
  rwa [Sketch.members, List.toFinset_eq_empty_iff] at hempty

theorem components_perm {sketches sketches' : List (SubmissionSketch Id)} (h : sketches.Perm sketches')
    (policy : SimilarityBudgetPolicy) : components sketches' policy = components sketches policy := by
  have hids : ∀ x, x ∈ sketches'.map (·.agentId) ↔ x ∈ sketches.map (·.agentId) := fun x => (h.map _).mem_iff.symm
  have hshares : SharesBudget sketches' policy = SharesBudget sketches policy := by
    funext x y
    simp only [SharesBudget, h.mem_iff]
  simp only [components, hids, hshares]

omit [LinearOrder Id] in
/-- Two submissions are compared alike in both orders exactly when their sketches have level ends. -/
theorem scores_comm_iff {a b : SubmissionSketch Id} (ha : ∀ f ∈ a.fingerprint, f.Built)
    (hb : ∀ f ∈ b.fingerprint, f.Built) :
    contentSimilarity a.fingerprint b.fingerprint = contentSimilarity b.fingerprint a.fingerprint ↔
      ∀ f ∈ a.fingerprint, ∀ g ∈ b.fingerprint, LevelEnds f g := by
  cases hfa : a.fingerprint with
  | none => simp [contentSimilarity]
  | some f =>
    cases hfb : b.fingerprint with
    | none => simp [contentSimilarity]
    | some g =>
      rw [contentSimilarity_comm_iff (ha f hfa) (hb g hfb)]
      simp

/-- Budgets are symmetric on a list of submissions exactly when any two of its sketches have level ends. -/
theorem symmetricBudgets_iff {sketches : List (SubmissionSketch Id)} (hbuilt : BuiltSketches sketches)
    (hnodup : (sketches.map (·.agentId)).Nodup) :
    SymmetricBudgets sketches ↔
      ∀ a ∈ sketches, ∀ b ∈ sketches, ∀ f ∈ a.fingerprint, ∀ g ∈ b.fingerprint, LevelEnds f g := by
  constructor
  · intro h a ha b hb
    exact (scores_comm_iff (hbuilt a ha) (hbuilt b hb)).1 (h.scores a ha b hb)
  · intro h
    have hscores : ∀ a ∈ sketches, ∀ b ∈ sketches,
        contentSimilarity a.fingerprint b.fingerprint = contentSimilarity b.fingerprint a.fingerprint :=
      fun a ha b hb => (scores_comm_iff (hbuilt a ha) (hbuilt b hb)).2 (h a ha b hb)
    have hcomm : ∀ policy, ∀ a ∈ sketches, ∀ b ∈ sketches,
        ((sameBudget a b policy).isSome ↔ (sameBudget b a policy).isSome) :=
      fun policy a ha b hb => isSome_sameBudget_comm (hscores a ha b hb) policy
    have hgroups := fun policy fuel hfuel =>
        @similarityBudgets_classes Id _ sketches policy fuel hfuel hnodup (hcomm policy)
    refine ⟨hscores, fun a _ b _ => contentSimilarity_mem _ _, fun a ha hcomparable => ?_, hcomm, hgroups,
      fun policy fuel hfuel sketches' hperm => ?_⟩
    · obtain ⟨f, hf, hne⟩ := SubmissionSketch.members_ne_empty hcomparable
      rw [Option.mem_def.1 hf]
      exact contentSimilarity_self (hbuilt a ha f hf) hne
    · obtain ⟨groups, hgroups, hclasses, -⟩ := hgroups policy fuel hfuel
      obtain ⟨groups', hgroups', hclasses', -⟩ := @similarityBudgets_classes Id _ sketches' policy fuel
        (by rwa [← hperm.length_eq]) ((hperm.map _).nodup_iff.1 hnodup) fun a ha b hb =>
          hcomm policy a (hperm.mem_iff.2 ha) b (hperm.mem_iff.2 hb)
      exact ⟨groups, groups', hgroups, hgroups', by rw [hclasses, hclasses', components_perm hperm]⟩

end Rule

/-- Two submissions of 257 hashes each that share all but one: the sketch of the second one ends a hash later. -/
def shiftedSketches : List (SubmissionSketch ℕ) :=
  [⟨0, some (sketch "corpus" (.number 1) (Finset.Ico 0 257) 8)⟩,
    ⟨1, some (sketch "corpus" (.number 1) (Finset.Ico 1 258) 8)⟩]

theorem not_symmetricBudgets : ¬ ∀ sketches : List (SubmissionSketch ℕ), BuiltSketches sketches →
    (sketches.map (·.agentId)).Nodup → SymmetricBudgets sketches := by
  intro h
  have hbuilt : BuiltSketches shiftedSketches := by
    simp only [BuiltSketches, shiftedSketches, List.mem_cons, List.not_mem_nil, or_false, forall_eq_or_imp, forall_eq,
      Option.mem_some_iff, forall_eq']
    exact ⟨⟨_, _, _, _, rfl⟩, ⟨_, _, _, _, rfl⟩⟩
  have hcards : (Finset.Ico (0 : ShingleHash) 257).card = 257 ∧ (Finset.Ico (1 : ShingleHash) 258).card = 257 :=
    ⟨Fin.card_Ico _ _, Fin.card_Ico _ _⟩
  have hscores := (h shiftedSketches hbuilt (by decide)).scores _ List.mem_cons_self _
    (List.mem_cons_of_mem _ List.mem_cons_self)
  have hlevel := (contentSimilarity_comm_iff ⟨_, _, _, _, rfl⟩ ⟨_, _, _, _, rfl⟩).1 hscores rfl rfl
    (hcards.1.trans hcards.2.symm) (by rw [budget_sketch, size_sketch, hcards.1]; decide)
  rw [members_of_floor (by omega), members_of_floor (by omega), smallest_Ico (c := 256) (by decide) rfl,
    smallest_Ico (c := 257) (by decide) rfl] at hlevel
  rcases hlevel with hdisjoint | hmax
  · have hcommon : (1 : ShingleHash) ∈ Finset.Ico (0 : ShingleHash) 256 ∩ Finset.Ico 1 257 := by decide
    rw [hdisjoint] at hcommon
    exact absurd hcommon (Finset.notMem_empty _)
  · have hlast : (256 : ShingleHash) ∈ Finset.Ico (1 : ShingleHash) 257 := Finset.mem_Ico.2 ⟨by decide, by decide⟩
    obtain ⟨y, hy⟩ := Finset.max_of_mem
        (show (0 : ShingleHash) ∈ Finset.Ico (0 : ShingleHash) 256 from Finset.mem_Ico.2 ⟨by decide, by decide⟩)
    have hle := Finset.le_max hlast
    rw [← hmax, hy, WithBot.coe_le_coe] at hle
    exact absurd (Finset.mem_Ico.1 (Finset.mem_of_max hy)).2 (not_lt.2 hle)

/-- The sketch of the hashes from one up to another. -/
def runSketch (a b : ShingleHash) : Sketch := sketch "corpus" (.number 1) (Finset.Ico a b) 8

/-- A submission, a copy of it, one of the same size that shares nothing with them, a smaller one that shares some
hashes with each of them, and one that was never fingerprinted. -/
def copiedSketches : List (SubmissionSketch ℕ) :=
  [⟨0, some (runSketch 0 257)⟩, ⟨1, some (runSketch 0 257)⟩, ⟨2, some (runSketch 400 657)⟩,
    ⟨3, some (runSketch 200 450)⟩, ⟨4, none⟩]

theorem levelEnds_runSketch {f g : Sketch} (hf : f = runSketch 0 257 ∨ f = runSketch 400 657 ∨ f = runSketch 200 450)
    (hg : g = runSketch 0 257 ∨ g = runSketch 400 657 ∨ g = runSketch 200 450) : LevelEnds f g := by
  have hlong : (runSketch 0 257).size = 257 := Fin.card_Ico (0 : ShingleHash) 257
  have hother : (runSketch 400 657).size = 257 := Fin.card_Ico (400 : ShingleHash) 657
  have hshort : (runSketch 200 450).size = 250 := Fin.card_Ico (200 : ShingleHash) 450
  have happart : LevelEnds (runSketch 0 257) (runSketch 400 657) := by
    intro _ _ _ _
    left
    rw [runSketch, runSketch, members_of_floor (by rw [Fin.card_Ico]; decide),
      members_of_floor (by rw [Fin.card_Ico]; decide), smallest_Ico (c := 256) (by decide) rfl,
      smallest_Ico (c := 656) (by decide) rfl, ← Finset.disjoint_iff_inter_eq_empty, Finset.disjoint_left]
    intro x hx hx'
    exact absurd ((Finset.mem_Ico.1 hx).2.trans_le (by decide)) (not_lt.2 (Finset.mem_Ico.1 hx').1)
  rcases hf with rfl | rfl | rfl <;> rcases hg with rfl | rfl | rfl
  case inl.inl | inr.inl.inr.inl | inr.inr.inr.inr => exact fun _ _ _ _ => .inr rfl
  case inl.inr.inl => exact happart
  case inr.inl.inl => exact happart.symm ⟨_, _, _, _, rfl⟩ ⟨_, _, _, _, rfl⟩
  all_goals
    intro _ _ hsize
    simp only [hlong, hother, hshort] at hsize
    omega

theorem symmetricBudgets_copied : SymmetricBudgets copiedSketches := by
  refine (symmetricBudgets_iff ?_ (by decide)).2 ?_
  · simp only [BuiltSketches, copiedSketches, List.mem_cons, List.not_mem_nil, or_false, forall_eq_or_imp, forall_eq,
      Option.mem_some_iff, forall_eq', Option.not_mem_none, IsEmpty.forall_iff, implies_true, and_true]
    exact ⟨⟨_, _, _, _, rfl⟩, ⟨_, _, _, _, rfl⟩, ⟨_, _, _, _, rfl⟩, ⟨_, _, _, _, rfl⟩⟩
  · have hrun : ∀ a ∈ copiedSketches, ∀ f ∈ a.fingerprint,
        f = runSketch 0 257 ∨ f = runSketch 400 657 ∨ f = runSketch 200 450 := by
      simp [copiedSketches]
    exact fun a ha b hb f hf g hg => levelEnds_runSketch (hrun a ha f hf) (hrun b hb g hg)

end DittoSubnet.Similarity

import DittoSubnet.Kit.Smallest
import Mathlib.Data.Finset.Max
import Mathlib.Order.Interval.Finset.Fin
import Mathlib.Data.Rat.Defs
import Mathlib.Tactic

/-!
# Sketches of shingle sets

`_sketch` and `content_similarity` of `ditto/api_server/fingerprint.py`. A sketch keeps the `MINHASH_K` smallest hashes
of a set, and two sketches are compared by what they keep: `sample`, the smallest hashes of both, estimates Jaccard, and
`observable`, the hashes of the smaller set in the range that the larger sketch covers, estimates containment.

* `sample_classified`, `observable_classified`: every hash that an estimate counts is counted rightly.
* `contentSimilarity_eq_overlap_iff`: of two sets kept in full the containment is exact, and so is the Jaccard index
  when the union is kept in full as well, or the cut takes the common hashes in proportion.
* `contentSimilarity_comm_iff`: two sets of one size that are cut by their sketches are compared alike in both orders
  exactly when the sketches are disjoint or end at the same hash.
-/

namespace DittoSubnet.Similarity

open Kit

/-! ## Sketches -/

/-- The top 64 bits of a shingle's hash. Their fixed-width hex form is ordered alike. -/
abbrev ShingleHash := Fin (2 ^ 64)

/-- The version of a sketch format: a number, or the name of a channel's own. -/
inductive SketchVersion
  | number (n : ℤ)
  | name (s : String)
  deriving DecidableEq

/-- A stored sketch. A key may be missing. -/
structure Sketch where
  v : Option SketchVersion
  corpus : Option String
  k : Option ℕ
  card : Option ℕ
  m : Option (List ShingleHash)
  deriving DecidableEq

/-- `_MINHASH_K`. -/
def MINHASH_K : ℕ := 256

/-- `_sketch`; `corpusId` is that of the reference corpus. -/
def sketch (corpusId : String) (version : SketchVersion) (residual : Finset ShingleHash) (floor : ℕ) : Sketch where
  v := some version
  corpus := some corpusId
  k := some MINHASH_K
  card := some residual.card
  m := some (if floor ≤ residual.card then (sorted residual).take MINHASH_K else [])

namespace Sketch

def members (a : Sketch) : Finset ShingleHash := (a.m.getD []).toFinset

def budget (a : Sketch) : ℕ := a.k.getD MINHASH_K

def size (a : Sketch) : ℕ := a.card.getD 0

end Sketch

/-! ## The comparison -/

/-- The smallest hashes of both sketches. -/
def sample (a b : Sketch) : Finset ShingleHash := smallest (min a.budget b.budget) (a.members ∪ b.members)

def jaccard (a b : Sketch) : ℚ :=
  ((sample a b).filter fun x => x ∈ a.members ∧ x ∈ b.members).card / (sample a b).card

/-- The sketch of the smaller set and that of the larger one, in their order when the sizes are equal. -/
def bySize (a b : Sketch) : Sketch × Sketch := if a.size ≤ b.size then (a, b) else (b, a)

/-- The hashes of the smaller set in the range that the larger sketch covers. -/
def observable (small large : Sketch) : Finset ShingleHash :=
  if large.size ≤ large.budget then small.members
  else small.members.filter fun x => (x : WithBot ShingleHash) ≤ large.members.max

def containment (small large : Sketch) : ℚ :=
  ((observable small large).filter fun x => x ∈ large.members).card / (observable small large).card

/-- `content_similarity`: the estimates of Jaccard and of containment. -/
def contentSimilarity (a b : Option Sketch) : ℚ × ℚ :=
  match a, b with
  | some a, some b =>
    if a.v = none ∨ a.v ≠ b.v then (0, 0)
    else if a.corpus ≠ b.corpus then (0, 0)
    else if a.members = ∅ ∨ b.members = ∅ then (0, 0)
    else if sample a b = ∅ then (0, 0)
    else if observable (bySize a b).1 (bySize a b).2 = ∅ then (jaccard a b, 0)
    else (jaccard a b, containment (bySize a b).1 (bySize a b).2)
  | _, _ => (0, 0)

/-! ## What a sketch keeps -/

section Built

variable {corpusId : String} {version : SketchVersion} {residual : Finset ShingleHash} {floor : ℕ}

@[simp] theorem v_sketch : (sketch corpusId version residual floor).v = some version := rfl

@[simp] theorem corpus_sketch : (sketch corpusId version residual floor).corpus = some corpusId := rfl

@[simp] theorem budget_sketch : (sketch corpusId version residual floor).budget = MINHASH_K := rfl

@[simp] theorem size_sketch : (sketch corpusId version residual floor).size = residual.card := rfl

theorem members_sketch : (sketch corpusId version residual floor).members =
    if floor ≤ residual.card then smallest MINHASH_K residual else ∅ := by
  by_cases h : floor ≤ residual.card <;> simp [Sketch.members, sketch, h, smallest]

theorem members_of_floor (h : floor ≤ residual.card) :
    (sketch corpusId version residual floor).members = smallest MINHASH_K residual := by
  rw [members_sketch, if_pos h]

end Built

/-- A sketch that `_sketch` has built. -/
def Sketch.Built (a : Sketch) : Prop := ∃ corpusId version residual floor, a = sketch corpusId version residual floor

/-- A sketch with hashes keeps as many as the budget allows. -/
theorem Sketch.Built.card_members {a : Sketch} (h : a.Built) (hne : a.members ≠ ∅) :
    a.members.card = min MINHASH_K a.size := by
  obtain ⟨corpusId, version, residual, floor, rfl⟩ := h
  by_cases hfloor : floor ≤ residual.card
  · rw [members_of_floor hfloor, card_smallest, size_sketch]
  · rw [members_sketch, if_neg hfloor] at hne
    exact absurd rfl hne

theorem Sketch.Built.budget {a : Sketch} (h : a.Built) : a.budget = MINHASH_K := by
  obtain ⟨corpusId, version, residual, floor, rfl⟩ := h
  rfl

theorem Sketch.Built.v {a : Sketch} (h : a.Built) : a.v ≠ none := by
  obtain ⟨corpusId, version, residual, floor, rfl⟩ := h
  simp

/-! ## The estimates -/

theorem jaccard_comm (a b : Sketch) : jaccard a b = jaccard b a := by
  simp only [jaccard, sample, Finset.union_comm, min_comm a.budget, and_comm]

theorem jaccard_mem (a b : Sketch) : 0 ≤ jaccard a b ∧ jaccard a b ≤ 1 := by
  have hle : ((sample a b).filter fun x => x ∈ a.members ∧ x ∈ b.members).card ≤ (sample a b).card :=
    Finset.card_filter_le _ _
  exact ⟨by unfold jaccard; positivity, div_le_one_of_le₀ (Nat.cast_le.2 hle) (Nat.cast_nonneg _)⟩

theorem containment_mem (small large : Sketch) : 0 ≤ containment small large ∧ containment small large ≤ 1 := by
  have hle : ((observable small large).filter fun x => x ∈ large.members).card ≤ (observable small large).card :=
    Finset.card_filter_le _ _
  exact ⟨by unfold containment; positivity, div_le_one_of_le₀ (Nat.cast_le.2 hle) (Nat.cast_nonneg _)⟩

theorem contentSimilarity_mem (a b : Option Sketch) :
    (0 ≤ (contentSimilarity a b).1 ∧ (contentSimilarity a b).1 ≤ 1) ∧
      (0 ≤ (contentSimilarity a b).2 ∧ (contentSimilarity a b).2 ≤ 1) := by
  cases a with
  | none => simp [contentSimilarity]
  | some a =>
    cases b with
    | none => simp [contentSimilarity]
    | some b =>
      simp only [contentSimilarity]
      split
      · simp
      split
      · simp
      split
      · simp
      split
      · simp
      split
      · exact ⟨jaccard_mem a b, by simp⟩
      · exact ⟨jaccard_mem a b, containment_mem _ _⟩

theorem sample_ne_empty {a b : Sketch} (ha : a.Built) (hb : b.Built) (hne : a.members ≠ ∅) : sample a b ≠ ∅ := by
  rw [sample, ha.budget, hb.budget, min_self, Ne, smallest_eq_empty_iff (by decide)]
  intro h
  exact hne (Finset.union_eq_empty.1 h).1

/-- Of two comparable sketches, the comparison is the two estimates. -/
theorem contentSimilarity_eq {a b : Sketch} (ha : a.Built) (hb : b.Built) (hv : a.v = b.v)
    (hcorpus : a.corpus = b.corpus)
    (hane : a.members ≠ ∅) (hbne : b.members ≠ ∅) :
    contentSimilarity (some a) (some b) = (jaccard a b, containment (bySize a b).1 (bySize a b).2) := by
  have hver : ¬ (a.v = none ∨ a.v ≠ b.v) := by
    rintro (h | h)
    · exact ha.v h
    · exact h hv
  simp only [contentSimilarity]
  rw [if_neg hver, if_neg (not_not.2 hcorpus), if_neg (by tauto), if_neg (sample_ne_empty ha hb hane)]
  split
  · rename_i hnone
    rw [containment, hnone]
    simp
  · rfl

theorem contentSimilarity_of_not {a b : Sketch}
    (h : ¬ (a.v = b.v ∧ a.corpus = b.corpus ∧ a.members ≠ ∅ ∧ b.members ≠ ∅)) :
    contentSimilarity (some a) (some b) = (0, 0) := by
  simp only [contentSimilarity]
  split
  · rfl
  rename_i hv
  split
  · rfl
  rename_i hcorpus
  rw [if_pos]
  by_contra hne
  exact h ⟨not_not.1 fun e => hv (.inr e), not_not.1 hcorpus, fun e => hne (.inl e), fun e => hne (.inr e)⟩

/-! ## What an estimate counts -/

section Counted

variable {corpusId corpusId' : String} {version version' : SketchVersion} {A B : Finset ShingleHash} {floor floor' : ℕ}
  {x : ShingleHash}

/-- The sample holds the smallest hashes of the union of the two sets. -/
theorem sample_sketch (hA : floor ≤ A.card) (hB : floor' ≤ B.card) :
    sample (sketch corpusId version A floor) (sketch corpusId' version' B floor') = smallest MINHASH_K (A ∪ B) := by
  rw [sample, members_of_floor hA, members_of_floor hB, budget_sketch, budget_sketch, min_self, smallest_union]

/-- A sampled hash is in both sketches when it is in both sets. -/
theorem sample_classified (hA : floor ≤ A.card) (hB : floor' ≤ B.card)
    (hx : x ∈ sample (sketch corpusId version A floor) (sketch corpusId' version' B floor')) :
    (x ∈ (sketch corpusId version A floor).members ∧ x ∈ (sketch corpusId' version' B floor').members) ↔ x ∈ A ∩ B := by
  rw [sample_sketch hA hB] at hx
  rw [members_of_floor hA, members_of_floor hB, Finset.mem_inter]
  constructor
  · rintro ⟨h, h'⟩
    exact ⟨smallest_subset h, smallest_subset h'⟩
  · rintro ⟨h, h'⟩
    exact ⟨mem_smallest_of_subset Finset.subset_union_left h hx, mem_smallest_of_subset Finset.subset_union_right h' hx⟩

/-- An observable hash is in the larger sketch when it is in the larger set. -/
theorem observable_classified {small : Sketch} (hB : floor ≤ B.card)
    (hx : x ∈ observable small (sketch corpusId version B floor)) :
    x ∈ (sketch corpusId version B floor).members ↔ x ∈ B := by
  rw [observable, size_sketch, budget_sketch] at hx
  rw [members_of_floor hB] at hx ⊢
  split at hx
  · rename_i hfull
    rw [smallest_eq_self hfull]
  · constructor
    · exact fun h => smallest_subset h
    · intro h
      -- the sketch ends at a kept hash, and `x` is not above it
      have hmax := (Finset.mem_filter.1 hx).2
      cases hm : (smallest MINHASH_K B).max with
      | bot =>
        rw [hm, le_bot_iff] at hmax
        cases hmax
      | coe y =>
        rw [hm, WithBot.coe_le_coe] at hmax
        exact mem_smallest_of_le h (Finset.mem_of_max hm) hmax

end Counted

/-! ## Sets kept in full -/

section Exact

variable {corpusId : String} {version : SketchVersion} {A B : Finset ShingleHash} {floor : ℕ}

/-- The Jaccard index and the overlap coefficient of two sets. -/
def overlap (A B : Finset ShingleHash) : ℚ × ℚ :=
  ((A ∩ B).card / (A ∪ B).card, (A ∩ B).card / (min A.card B.card : ℕ))

/-- The union is kept in full, or the cut takes the common hashes in proportion: they are as frequent beyond the
smallest hashes of the union as among them. -/
def CutInProportion (A B : Finset ShingleHash) : Prop :=
  (A ∪ B).card ≤ MINHASH_K ∨
    (((A ∪ B) \ smallest MINHASH_K (A ∪ B)) ∩ (A ∩ B)).card * MINHASH_K =
      (smallest MINHASH_K (A ∪ B) ∩ (A ∩ B)).card * ((A ∪ B) \ smallest MINHASH_K (A ∪ B)).card

theorem jaccard_sketch (hA : floor ≤ A.card) (hB : floor ≤ B.card) :
    jaccard (sketch corpusId version A floor) (sketch corpusId version B floor) =
      (smallest MINHASH_K (A ∪ B) ∩ (A ∩ B)).card / (min MINHASH_K (A ∪ B).card : ℕ) := by
  have hcommon : ((sample (sketch corpusId version A floor) (sketch corpusId version B floor)).filter fun x =>
      x ∈ (sketch corpusId version A floor).members ∧ x ∈ (sketch corpusId version B floor).members) =
        smallest MINHASH_K (A ∪ B) ∩ (A ∩ B) := by
    ext x
    rw [Finset.mem_filter, Finset.mem_inter, ← sample_sketch hA hB]
    exact and_congr_right fun hx => sample_classified hA hB hx
  rw [jaccard, hcommon, sample_sketch hA hB, card_smallest]

/-- The cut estimates the Jaccard index exactly when it takes the common hashes in proportion. -/
theorem jaccard_eq_iff (hne : (A ∪ B).card ≠ 0) :
    ((smallest MINHASH_K (A ∪ B) ∩ (A ∩ B)).card : ℚ) / (min MINHASH_K (A ∪ B).card : ℕ) =
      (A ∩ B).card / (A ∪ B).card ↔ CutInProportion A B := by
  by_cases hle : (A ∪ B).card ≤ MINHASH_K
  · rw [smallest_eq_self hle, min_eq_right hle, Finset.inter_eq_right.2 Finset.inter_subset_union]
    simp [CutInProportion, hle]
  · have hsplit := Finset.card_inter_add_card_sdiff (A ∩ B) (smallest MINHASH_K (A ∪ B))
    have hrest : (A ∩ B) \ smallest MINHASH_K (A ∪ B) = ((A ∪ B) \ smallest MINHASH_K (A ∪ B)) ∩ (A ∩ B) := by
      ext x
      simp only [Finset.mem_sdiff, Finset.mem_inter, Finset.mem_union]
      tauto
    have hunion : (A ∪ B).card = MINHASH_K + ((A ∪ B) \ smallest MINHASH_K (A ∪ B)).card := by
      rw [Finset.card_sdiff_of_subset smallest_subset, card_smallest]
      omega
    rw [hrest, Finset.inter_comm] at hsplit
    rw [CutInProportion, or_iff_right hle, min_eq_left (by omega), div_eq_div_iff (by decide) (Nat.cast_ne_zero.2 hne),
      ← hsplit, hunion]
    constructor
    · intro h
      have h : (smallest MINHASH_K (A ∪ B) ∩ (A ∩ B)).card * (MINHASH_K + ((A ∪ B) \ smallest MINHASH_K (A ∪ B)).card) =
          ((smallest MINHASH_K (A ∪ B) ∩ (A ∩ B)).card + (((A ∪ B) \ smallest MINHASH_K (A ∪ B)) ∩ (A ∩ B)).card) *
            MINHASH_K := by exact_mod_cast h
      linarith
    · intro h
      have h : (smallest MINHASH_K (A ∪ B) ∩ (A ∩ B)).card * (MINHASH_K + ((A ∪ B) \ smallest MINHASH_K (A ∪ B)).card) =
          ((smallest MINHASH_K (A ∪ B) ∩ (A ∩ B)).card + (((A ∪ B) \ smallest MINHASH_K (A ∪ B)) ∩ (A ∩ B)).card) *
            MINHASH_K := by linarith
      exact_mod_cast h

/-- Of sets kept in full every hash of the smaller one is observable. -/
theorem containment_full {small large : Finset ShingleHash} (hs : floor ≤ small.card) (hl : floor ≤ large.card)
    (hsk : small.card ≤ MINHASH_K) (hlk : large.card ≤ MINHASH_K) :
    containment (sketch corpusId version small floor) (sketch corpusId version large floor) =
      (small ∩ large).card / small.card := by
  rw [containment, observable, size_sketch, budget_sketch, if_pos hlk, members_of_floor hs, members_of_floor hl,
    smallest_eq_self hsk, smallest_eq_self hlk, Finset.filter_mem_eq_inter]

theorem containment_bySize (hA : floor ≤ A.card) (hB : floor ≤ B.card) (hAk : A.card ≤ MINHASH_K)
    (hBk : B.card ≤ MINHASH_K) :
    containment (bySize (sketch corpusId version A floor) (sketch corpusId version B floor)).1
      (bySize (sketch corpusId version A floor) (sketch corpusId version B floor)).2 =
        (A ∩ B).card / (min A.card B.card : ℕ) := by
  rw [bySize, size_sketch, size_sketch]
  split
  · rename_i hle
    rw [containment_full hA hB hAk hBk, min_eq_left hle]
  · rename_i hlt
    rw [containment_full hB hA hBk hAk, min_eq_right (by omega), Finset.inter_comm]

/-- Of sets kept in full the comparison is exact exactly when the cut takes the common hashes in proportion. -/
theorem contentSimilarity_eq_overlap_iff (hA : floor ≤ A.card) (hB : floor ≤ B.card) (hAk : A.card ≤ MINHASH_K)
    (hBk : B.card ≤ MINHASH_K) :
    contentSimilarity (some (sketch corpusId version A floor)) (some (sketch corpusId version B floor)) = overlap A B ↔
      CutInProportion A B := by
  by_cases hempty : A = ∅ ∨ B = ∅
  · rw [contentSimilarity_of_not]
    · have hzero : (A ∩ B).card = 0 := by
        rcases hempty with rfl | rfl <;> simp
      have hfull : (A ∪ B).card ≤ MINHASH_K := by
        rcases hempty with rfl | rfl
        · simpa using hBk
        · simpa using hAk
      simp [overlap, hzero, CutInProportion, hfull]
    · rintro ⟨-, -, hane, hbne⟩
      rw [members_of_floor hA, smallest_eq_self hAk] at hane
      rw [members_of_floor hB, smallest_eq_self hBk] at hbne
      exact hempty.elim hane hbne
  · rw [not_or] at hempty
    have hane : (sketch corpusId version A floor).members ≠ ∅ := by
      rw [members_of_floor hA, smallest_eq_self hAk]
      exact hempty.1
    have hbne : (sketch corpusId version B floor).members ≠ ∅ := by
      rw [members_of_floor hB, smallest_eq_self hBk]
      exact hempty.2
    have hne : (A ∪ B).card ≠ 0 := by
      rw [Finset.card_ne_zero]
      exact (Finset.nonempty_iff_ne_empty.2 hempty.1).mono Finset.subset_union_left
    have hestimates := contentSimilarity_eq ⟨_, _, A, _, rfl⟩ ⟨_, _, B, _, rfl⟩ rfl rfl hane hbne
    rw [hestimates, overlap, Prod.mk.injEq, jaccard_sketch hA hB, containment_bySize hA hB hAk hBk, jaccard_eq_iff hne,
      and_iff_left rfl]

/-- What is promised of the comparison of two sketches: it is exact for sets kept in full, and every hash that an
estimate counts is counted rightly. -/
structure ComparesRightly (corpusId : String) (version : SketchVersion) (floor : ℕ) (A B : Finset ShingleHash) :
    Prop where
  exact : A.card ≤ MINHASH_K → B.card ≤ MINHASH_K →
    contentSimilarity (some (sketch corpusId version A floor)) (some (sketch corpusId version B floor)) = overlap A B
  sampled : ∀ x ∈ sample (sketch corpusId version A floor) (sketch corpusId version B floor),
    (x ∈ (sketch corpusId version A floor).members ∧ x ∈ (sketch corpusId version B floor).members ↔ x ∈ A ∩ B)
  observed : ∀ x ∈ observable (bySize (sketch corpusId version A floor) (sketch corpusId version B floor)).1
      (bySize (sketch corpusId version A floor) (sketch corpusId version B floor)).2,
    (x ∈ (bySize (sketch corpusId version A floor) (sketch corpusId version B floor)).2.members ↔
      x ∈ if A.card ≤ B.card then B else A)

/-- Of sets at or above the floor only the exactness is in question: it holds when the cut takes the common hashes in
proportion. -/
theorem comparesRightly_iff (corpusId : String) (version : SketchVersion) (floor : ℕ) (A B : Finset ShingleHash)
    (hA : floor ≤ A.card) (hB : floor ≤ B.card) :
    ComparesRightly corpusId version floor A B ↔ (A.card ≤ MINHASH_K → B.card ≤ MINHASH_K → CutInProportion A B) := by
  constructor
  · intro h hAk hBk
    exact (contentSimilarity_eq_overlap_iff hA hB hAk hBk).1 (h.exact hAk hBk)
  · intro h
    refine ⟨fun hAk hBk => (contentSimilarity_eq_overlap_iff hA hB hAk hBk).2 (h hAk hBk),
      fun x hx => sample_classified hA hB hx, fun x hx => ?_⟩
    rw [bySize, size_sketch, size_sketch] at hx ⊢
    split at hx
    · rename_i hle
      rw [if_pos hle, if_pos hle]
      exact observable_classified hB hx
    · rename_i hlt
      rw [if_neg hlt, if_neg hlt]
      exact observable_classified hA hx

/-- The smallest hashes of an interval. -/
theorem smallest_Ico {a b c : ShingleHash} (hcb : c ≤ b) (hcard : (c : ℕ) - a = MINHASH_K) :
    smallest MINHASH_K (Finset.Ico a b) = Finset.Ico a c := by
  refine smallest_eq_of_lower (Finset.Ico_subset_Ico_right hcb) ((Fin.card_Ico _ _).trans hcard) fun x hx hnot y hy =>
    ?_
  rw [Finset.mem_Ico] at hx hy hnot
  exact hy.2.trans_le (not_lt.1 fun hlt => hnot ⟨hx.1, hlt⟩)

/-- The hashes below 256 and those from 128 to 384: the 256 smallest of their union hold all that they share. -/
theorem cut_out_of_proportion : ¬ CutInProportion (Finset.Ico 0 256) (Finset.Ico 128 384) := by
  have hunion : Finset.Ico (0 : ShingleHash) 256 ∪ Finset.Ico 128 384 = Finset.Ico 0 384 :=
    Finset.Ico_union_Ico' (by decide) (by decide)
  have hcommon : Finset.Ico (0 : ShingleHash) 256 ∩ Finset.Ico 128 384 = Finset.Ico 128 256 := Finset.Ico_inter_Ico
  have hsmallest : smallest MINHASH_K (Finset.Ico (0 : ShingleHash) 384) = Finset.Ico 0 256 :=
    smallest_Ico (by decide) rfl
  have hrest : Finset.Ico (0 : ShingleHash) 384 \ Finset.Ico 0 256 = Finset.Ico 256 384 :=
      Finset.Ico_sdiff_Ico_left _ _ _
  have hfirst : Finset.Ico (0 : ShingleHash) 256 ∩ Finset.Ico 128 256 = Finset.Ico 128 256 := Finset.Ico_inter_Ico
  have hnone : Finset.Ico (256 : ShingleHash) 384 ∩ Finset.Ico 128 256 = ∅ := by
    rw [Finset.inter_comm, Finset.Ico_inter_Ico_consecutive]
  rw [CutInProportion, hunion, hcommon, hsmallest, hrest, hfirst, hnone, Fin.card_Ico, Fin.card_Ico, Fin.card_Ico]
  decide

theorem not_comparesRightly : ¬ ∀ (corpusId : String) (version : SketchVersion) (floor : ℕ) (A B : Finset ShingleHash),
    floor ≤ A.card → floor ≤ B.card → ComparesRightly corpusId version floor A B := by
  intro h
  have hcards : (Finset.Ico (0 : ShingleHash) 256).card = 256 ∧ (Finset.Ico (128 : ShingleHash) 384).card = 256 :=
    ⟨Fin.card_Ico _ _, Fin.card_Ico _ _⟩
  have hfloors : 8 ≤ (Finset.Ico (0 : ShingleHash) 256).card ∧ 8 ≤ (Finset.Ico (128 : ShingleHash) 384).card := by omega
  have hright := h "corpus" (.number 1) 8 _ _ hfloors.1 hfloors.2
  exact cut_out_of_proportion
    ((contentSimilarity_eq_overlap_iff hfloors.1 hfloors.2 hcards.1.le hcards.2.le).1
      (hright.exact hcards.1.le hcards.2.le))

theorem comparesRightly_iff_interval :
    ComparesRightly "corpus" (.number 1) 8 (Finset.Ico 0 200) (Finset.Ico 50 250) := by
  have hcards : (Finset.Ico (0 : ShingleHash) 200).card = 200 ∧ (Finset.Ico (50 : ShingleHash) 250).card = 200 :=
    ⟨Fin.card_Ico _ _, Fin.card_Ico _ _⟩
  refine (comparesRightly_iff "corpus" (.number 1) 8 _ _ (by omega) (by omega)).2 fun _ _ => .inl ?_
  rw [Finset.Ico_union_Ico' (by decide) (by decide)]
  exact (Fin.card_Ico _ _).le.trans (by decide)

end Exact

/-! ## The order of the two sketches -/

section Order

variable {a b : Sketch} {s t : Finset ShingleHash}

theorem card_filter_of_max_lt (h : s.max < t.max) :
    (s.filter fun x : ShingleHash => (x : WithBot ShingleHash) ≤ t.max).card = s.card ∧
      (t.filter fun x : ShingleHash => (x : WithBot ShingleHash) ≤ s.max).card < t.card := by
  constructor
  · rw [Finset.filter_true_of_mem fun x hx => (Finset.le_max hx).trans h.le]
  · obtain ⟨y, hy⟩ := WithBot.ne_bot_iff_exists.1 (ne_bot_of_gt h)
    refine Finset.card_lt_card (Finset.filter_ssubset.2 ⟨y, Finset.mem_of_max hy.symm, ?_⟩)
    rw [hy]
    exact not_le.2 h

/-- Sets of one size have as many elements up to the other's last one exactly when they end alike. -/
theorem card_filter_max_eq_iff (hcard : s.card = t.card) :
    (s.filter fun x : ShingleHash => (x : WithBot ShingleHash) ≤ t.max).card =
      (t.filter fun x : ShingleHash => (x : WithBot ShingleHash) ≤ s.max).card ↔ s.max = t.max := by
  rcases lt_trichotomy s.max t.max with h | h | h
  · obtain ⟨hs, ht⟩ := card_filter_of_max_lt h
    exact iff_of_false (by omega) h.ne
  · rw [Finset.filter_true_of_mem fun x hx => h ▸ Finset.le_max hx, Finset.filter_true_of_mem fun x hx =>
      h ▸ Finset.le_max hx]
    exact iff_of_true hcard h
  · obtain ⟨ht, hs⟩ := card_filter_of_max_lt h
    exact iff_of_false (by omega) h.ne'

/-- Sketches of one size that are cut are disjoint or end at the same hash. -/
def LevelEnds (a b : Sketch) : Prop :=
  a.v = b.v → a.corpus = b.corpus → a.size = b.size → a.budget < a.size →
    a.members ∩ b.members = ∅ ∨ a.members.max = b.members.max

theorem LevelEnds.symm (ha : a.Built) (hb : b.Built) (h : LevelEnds a b) : LevelEnds b a := by
  intro hv hcorpus hsize hcut
  rw [hb.budget] at hcut
  rw [Finset.inter_comm]
  exact (h hv.symm hcorpus.symm hsize.symm (by rw [ha.budget]; omega)).imp_right Eq.symm

/-- The common hashes are observable. -/
theorem observable_inter (small large : Sketch) :
    (observable small large).filter (fun x => x ∈ large.members) = small.members ∩ large.members := by
  rw [observable]
  split
  · exact Finset.filter_mem_eq_inter
  · ext x
    simp only [Finset.mem_filter, Finset.mem_inter]
    constructor
    · rintro ⟨⟨h, -⟩, h'⟩
      exact ⟨h, h'⟩
    · rintro ⟨h, h'⟩
      exact ⟨⟨h, Finset.le_max h'⟩, h'⟩

theorem containment_comm_iff (ha : a.Built) (hb : b.Built) (hane : a.members ≠ ∅) (hbne : b.members ≠ ∅)
    (hsize : a.size = b.size) : containment a b = containment b a ↔
      (a.budget < a.size → a.members ∩ b.members = ∅ ∨ a.members.max = b.members.max) := by
  have hcard : a.members.card = b.members.card := by rw [ha.card_members hane, hb.card_members hbne, hsize]
  rw [containment, containment, observable_inter, observable_inter, Finset.inter_comm b.members]
  by_cases hcut : a.size ≤ a.budget
  · have hcut' : b.size ≤ b.budget := by rwa [hb.budget, ← hsize, ← ha.budget]
    rw [observable, observable, if_pos hcut, if_pos hcut', hcard]
    exact iff_of_true rfl fun h => absurd h (not_lt.2 hcut)
  · have hcut' : ¬ b.size ≤ b.budget := by rwa [hb.budget, ← hsize, ← ha.budget]
    rw [observable, observable, if_neg hcut, if_neg hcut', ← card_filter_max_eq_iff hcard]
    by_cases hcommon : a.members ∩ b.members = ∅
    · simp [hcommon]
    · have hpos : 0 < (a.members ∩ b.members).card := Finset.card_pos.2 (Finset.nonempty_iff_ne_empty.2 hcommon)
      have hposA : 0 < (a.members.filter fun x : ShingleHash => (x : WithBot ShingleHash) ≤ b.members.max).card := by
        refine hpos.trans_le (Finset.card_le_card fun x hx => ?_)
        rw [Finset.mem_inter] at hx
        exact Finset.mem_filter.2 ⟨hx.1, Finset.le_max hx.2⟩
      have hposB : 0 < (b.members.filter fun x : ShingleHash => (x : WithBot ShingleHash) ≤ a.members.max).card := by
        refine hpos.trans_le (Finset.card_le_card fun x hx => ?_)
        rw [Finset.mem_inter] at hx
        exact Finset.mem_filter.2 ⟨hx.2, Finset.le_max hx.1⟩
      rw [div_eq_div_iff (Nat.cast_ne_zero.2 hposA.ne') (Nat.cast_ne_zero.2 hposB.ne'),
        mul_right_inj' (Nat.cast_ne_zero.2 hpos.ne'), Nat.cast_inj]
      constructor
      · exact fun h _ => .inr h.symm
      · exact fun h => ((h (not_le.1 hcut)).resolve_left hcommon).symm

/-- Two sketches are compared alike in both orders exactly when they have level ends. -/
theorem contentSimilarity_comm_iff (ha : a.Built) (hb : b.Built) :
    contentSimilarity (some a) (some b) = contentSimilarity (some b) (some a) ↔ LevelEnds a b := by
  by_cases h : a.v = b.v ∧ a.corpus = b.corpus ∧ a.members ≠ ∅ ∧ b.members ≠ ∅
  · obtain ⟨hv, hcorpus, hane, hbne⟩ := h
    rw [contentSimilarity_eq ha hb hv hcorpus hane hbne, contentSimilarity_eq hb ha hv.symm hcorpus.symm hbne hane,
      jaccard_comm b a, Prod.mk.injEq, eq_self_iff_true, true_and]
    rcases lt_trichotomy a.size b.size with hlt | heq | hlt
    · rw [bySize, bySize, if_pos hlt.le, if_neg (not_le.2 hlt)]
      exact iff_of_true rfl fun _ _ hsize _ => absurd hsize hlt.ne
    · rw [bySize, bySize, if_pos heq.le, if_pos heq.ge, containment_comm_iff ha hb hane hbne heq]
      exact ⟨fun h _ _ _ => h, fun h => h hv hcorpus heq⟩
    · rw [bySize, bySize, if_neg (not_le.2 hlt), if_pos hlt.le]
      exact iff_of_true rfl fun _ _ hsize _ => absurd hsize hlt.ne'
  · have h' : ¬ (b.v = a.v ∧ b.corpus = a.corpus ∧ b.members ≠ ∅ ∧ a.members ≠ ∅) :=
      fun ⟨hv, hcorpus, hbne, hane⟩ => h ⟨hv.symm, hcorpus.symm, hane, hbne⟩
    rw [contentSimilarity_of_not h, contentSimilarity_of_not h']
    refine iff_of_true rfl fun hv hcorpus _ _ => .inl ?_
    by_contra hcommon
    obtain ⟨x, hx⟩ := Finset.nonempty_iff_ne_empty.2 hcommon
    rw [Finset.mem_inter] at hx
    exact h ⟨hv, hcorpus, Finset.ne_empty_of_mem hx.1, Finset.ne_empty_of_mem hx.2⟩

/-- A sketch with hashes is like itself. -/
theorem contentSimilarity_self (ha : a.Built) (hne : a.members ≠ ∅) :
    contentSimilarity (some a) (some a) = (1, 1) := by
  have hsample : sample a a = a.members := by
    rw [sample, Finset.union_self, min_self]
    refine smallest_eq_self ?_
    rw [ha.card_members hne, ha.budget]
    exact min_le_left _ _
  have hobservable : observable a a = a.members := by
    rw [observable]
    split
    · rfl
    · exact Finset.filter_true_of_mem fun x hx => Finset.le_max hx
  have hsize : bySize a a = (a, a) := if_pos (le_refl _)
  have hpos : (a.members.card : ℚ) ≠ 0 :=
      Nat.cast_ne_zero.2 (Finset.card_ne_zero.2 (Finset.nonempty_iff_ne_empty.2 hne))
  rw [contentSimilarity_eq ha ha rfl rfl hne hne, hsize, jaccard, containment, hsample, hobservable,
    Finset.filter_true_of_mem fun x hx => hx, Finset.filter_true_of_mem fun x hx => ⟨hx, hx⟩, div_self hpos]

end Order

end DittoSubnet.Similarity

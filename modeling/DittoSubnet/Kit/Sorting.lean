import DittoSubnet.Kit.Arith

/-!
# Sorting by a key

`sortOn key l` is the stable sort of `l` by a linearly ordered key. When the key is injective on the list the result
depends only on the elements (`sortOn_eq_of_perm`), so it commutes with filters (`filter_sortOn`). Sorting also
transports relations: related lists whose keys compare alike have related sorts (`rel_sortOn`). `sorted` lists a finite
set in order, and tells sets apart (`sorted_inj`).

`distinctOn key seen l` keeps the first element for each key that is not in `seen`, and `median` is the middle of the
sorted sample.
-/

namespace Kit

variable {α β κ κ' : Type}

/-! ## Related lists -/

theorem exists_of_mem_right {R : α → β → Prop} {l : List α} {m : List β} (h : List.Forall₂ R l m) {b : β} (hb : b ∈ m) :
    ∃ a ∈ l, R a b := by
  induction h with
  | nil => cases hb
  | @cons a b' l m hab _ ih =>
    rcases List.mem_cons.1 hb with rfl | hb
    · exact ⟨a, List.mem_cons_self, hab⟩
    · obtain ⟨a', ha', h⟩ := ih hb
      exact ⟨a', List.mem_cons_of_mem _ ha', h⟩

/-- What related elements share, related lists share. -/
theorem map_eq_of_rel {γ : Type} {R : α → β → Prop} {f : α → γ} {g : β → γ} (hR : ∀ a b, R a b → f a = g b) {l : List α}
    {m : List β} (h : List.Forall₂ R l m) : l.map f = m.map g := by
  induction h with
  | nil => rfl
  | cons hab _ ih => rw [List.map_cons, List.map_cons, hR _ _ hab, ih]

/-! ## Sorting -/

/-- The stable sort of `l` by `key`. -/
def sortOn [LinearOrder κ] (key : α → κ) (l : List α) : List α := l.insertionSort (fun a b => key a ≤ key b)

section SortOn

variable [LinearOrder κ] [LinearOrder κ'] {key : α → κ} {key' : β → κ'}

theorem sortOn_perm (key : α → κ) (l : List α) : (sortOn key l).Perm l := List.perm_insertionSort _ l

@[simp] theorem mem_sortOn {a : α} {l : List α} : a ∈ sortOn key l ↔ a ∈ l := (sortOn_perm key l).mem_iff

@[simp] theorem length_sortOn (l : List α) : (sortOn key l).length = l.length := (sortOn_perm key l).length_eq

theorem sortOn_ne_nil {l : List α} (h : l ≠ []) : sortOn key l ≠ [] := by
  rw [← List.length_pos_iff] at h ⊢
  simpa using h

theorem pairwise_sortOn (key : α → κ) (l : List α) : (sortOn key l).Pairwise (fun a b => key a ≤ key b) := by
  have : Std.Total (fun a b : α => key a ≤ key b) := ⟨fun a b => le_total (key a) (key b)⟩
  have : IsTrans α (fun a b : α => key a ≤ key b) := ⟨fun _ _ _ h₁ h₂ => le_trans h₁ h₂⟩
  exact List.pairwise_insertionSort _ l

/-- A sorted list is its own sort, up to elements with equal keys. -/
theorem eq_sortOn_of_perm {l s : List α} (hinj : ∀ a ∈ l, ∀ b ∈ l, key a = key b → a = b) (hp : s.Perm l)
    (hs : s.Pairwise (fun a b => key a ≤ key b)) : s = sortOn key l := by
  refine List.Perm.eq_of_pairwise ?_ hs (pairwise_sortOn key l) (hp.trans (sortOn_perm key l).symm)
  intro a b ha hb h₁ h₂
  exact hinj a (hp.mem_iff.1 ha) b (mem_sortOn.1 hb) (le_antisymm h₁ h₂)

/-- With an injective key the sort depends only on the elements. -/
theorem sortOn_eq_of_perm {l l' : List α} (hinj : ∀ a ∈ l, ∀ b ∈ l, key a = key b → a = b) (hp : l.Perm l') :
    sortOn key l = sortOn key l' := by
  refine eq_sortOn_of_perm ?_ ((sortOn_perm key l).trans hp) (pairwise_sortOn key l)
  intro a ha b hb
  exact hinj a (hp.mem_iff.2 ha) b (hp.mem_iff.2 hb)

/-- The keys of the sort are the sorted keys. -/
theorem map_sortOn (key : α → κ) (l : List α) : (sortOn key l).map key = sortOn id (l.map key) := by
  refine eq_sortOn_of_perm (fun _ _ _ _ h => h) ((sortOn_perm key l).map key) ?_
  rw [List.pairwise_map]
  exact pairwise_sortOn key l

/-- Sorting commutes with a map that keeps the key. -/
theorem sortOn_map (key : α → κ) (key' : β → κ) (g : α → β) (hg : ∀ a, key' (g a) = key a) (l : List α) :
    (sortOn key l).map g = sortOn key' (l.map g) := by
  refine List.map_insertionSort (s := fun a b => key' a ≤ key' b) _ g l fun a _ b _ => ?_
  rw [hg, hg]

/-- With an injective key sorting commutes with filtering. -/
theorem filter_sortOn {l : List α} (hinj : ∀ a ∈ l, ∀ b ∈ l, key a = key b → a = b) (p : α → Bool) :
    (sortOn key l).filter p = sortOn key (l.filter p) := by
  refine eq_sortOn_of_perm ?_ ((sortOn_perm key l).filter p) ((pairwise_sortOn key l).filter p)
  intro a ha b hb
  exact hinj a (List.mem_of_mem_filter ha) b (List.mem_of_mem_filter hb)

/-- Inserting `a` on both sides of an element that is below all that follow it. -/
theorem orderedInsert_split (key : α → κ) (a x : α) (xs : List α) {ys : List α} (h : ∀ y ∈ ys, key x ≤ key y) :
    ∃ xs' ys', (xs ++ x :: ys).orderedInsert (fun b c => key b ≤ key c) a = xs' ++ x :: ys' ∧
      (xs ++ ys).orderedInsert (fun b c => key b ≤ key c) a = xs' ++ ys' := by
  induction xs with
  | nil =>
    by_cases hle : key a ≤ key x
    · refine ⟨[a], ys, by simp [hle], ?_⟩
      cases ys with
      | nil => rfl
      | cons y ys => simp [hle.trans (h y List.mem_cons_self)]
    · exact ⟨[], ys.orderedInsert _ a, by simp [hle], rfl⟩
  | cons b xs ih =>
    by_cases hle : key a ≤ key b
    · exact ⟨a :: b :: xs, ys, by simp [hle], by simp [hle]⟩
    · obtain ⟨xs', ys', h₁, h₂⟩ := ih
      exact ⟨b :: xs', ys', by simp [hle, h₁], by simp [hle, h₂]⟩

/-- A further element stands somewhere in the sorted list, and the others stay in their order. -/
theorem sortOn_insert (key : α → κ) (x : α) (post : List α) : ∀ pre : List α,
    ∃ xs ys, sortOn key (pre ++ x :: post) = xs ++ x :: ys ∧ sortOn key (pre ++ post) = xs ++ ys
  | [] => by
    refine ⟨(sortOn key post).takeWhile fun b => ¬ key x ≤ key b, (sortOn key post).dropWhile fun b =>
      ¬ key x ≤ key b, ?_, (List.takeWhile_append_dropWhile).symm⟩
    exact List.orderedInsert_eq_take_drop _ x (sortOn key post)
  | a :: pre => by
    obtain ⟨xs, ys, h₁, h₂⟩ := sortOn_insert key x post pre
    have hsorted := pairwise_sortOn key (pre ++ x :: post)
    rw [h₁, List.pairwise_append, List.pairwise_cons] at hsorted
    obtain ⟨xs', ys', h₃, h₄⟩ := orderedInsert_split key a x xs hsorted.2.1.1
    exact ⟨xs', ys', by rw [← h₃, ← h₁]; rfl, by rw [← h₄, ← h₂]; rfl⟩

theorem rel_orderedInsert {R : α → β → Prop} {a : α} {b : β} {l : List α} {m : List β}
    (hkey : ∀ x y x' y', R x x' → R y y' → (key x ≤ key y ↔ key' x' ≤ key' y')) (hab : R a b)
    (h : List.Forall₂ R l m) :
    List.Forall₂ R (l.orderedInsert (fun x y => key x ≤ key y) a) (m.orderedInsert (fun x y => key' x ≤ key' y) b) := by
  induction h with
  | nil => exact .cons hab .nil
  | @cons x y l m hxy h ih =>
    simp only [List.orderedInsert]
    by_cases hle : key a ≤ key x
    · rw [if_pos hle, if_pos ((hkey _ _ _ _ hab hxy).1 hle)]
      exact .cons hab (.cons hxy h)
    · rw [if_neg hle, if_neg (fun hc => hle ((hkey _ _ _ _ hab hxy).2 hc))]
      exact .cons hxy ih

/-- Related lists whose keys compare alike have related sorts. -/
theorem rel_sortOn {R : α → β → Prop} {l : List α} {m : List β}
    (hkey : ∀ x y x' y', R x x' → R y y' → (key x ≤ key y ↔ key' x' ≤ key' y')) (h : List.Forall₂ R l m) :
    List.Forall₂ R (sortOn key l) (sortOn key' m) := by
  induction h with
  | nil => exact .nil
  | cons hab _ ih => exact rel_orderedInsert hkey hab ih

/-- Keys that compare alike on the list sort it alike. -/
theorem sortOn_congr {key : α → κ} {key' : α → κ'} {l : List α}
    (h : ∀ a ∈ l, ∀ b ∈ l, (key a ≤ key b ↔ key' a ≤ key' b)) : sortOn key l = sortOn key' l := by
  have hl : List.Forall₂ (fun a b => a = b ∧ a ∈ l) l l := List.forall₂_same.2 fun a ha => ⟨rfl, ha⟩
  have hkey : ∀ x y x' y', (x = x' ∧ x ∈ l) → (y = y' ∧ y ∈ l) → (key x ≤ key y ↔ key' x' ≤ key' y') := by
    rintro x y x' y' ⟨rfl, hx⟩ ⟨rfl, hy⟩
    exact h x hx y hy
  have hs : List.Forall₂ (fun a b => a = b ∧ a ∈ l) (sortOn key l) (sortOn key' l) := rel_sortOn hkey hl
  exact List.forall₂_eq_eq_eq ▸ hs.imp fun a b hab => hab.1

end SortOn

/-- `sorted` of a set. -/
def sorted [LinearOrder κ] (s : Finset κ) : List κ :=
  Quot.liftOn s.val (sortOn id) fun _ _ h => sortOn_eq_of_perm (fun _ _ _ _ e => e) h

theorem mem_sorted [LinearOrder κ] {s : Finset κ} {k : κ} : k ∈ sorted s ↔ k ∈ s := by
  obtain ⟨m, hm⟩ := s
  induction m using Quot.inductionOn with
  | h l => exact mem_sortOn

theorem sorted_inj [LinearOrder κ] {s s' : Finset κ} : sorted s = sorted s' ↔ s = s' := by
  constructor
  · intro h
    ext k
    rw [← mem_sorted, h, mem_sorted]
  · intro h
    rw [h]

theorem sorted_ne_nil [LinearOrder κ] {s : Finset κ} (h : s ≠ ∅) : sorted s ≠ [] := by
  obtain ⟨k, hk⟩ := Finset.nonempty_iff_ne_empty.2 h
  exact List.ne_nil_of_mem (mem_sorted.2 hk)

/-! ## First element for each key -/

/-- The elements of `l`, in order, whose key is neither in `seen` nor the key of an earlier element. -/
def distinctOn [DecidableEq κ] (key : α → κ) : List κ → List α → List α
  | _, [] => []
  | seen, a :: l => if key a ∈ seen then distinctOn key seen l else a :: distinctOn key (key a :: seen) l

section DistinctOn

variable [DecidableEq κ] {key : α → κ}

theorem distinctOn_sublist (key : α → κ) : ∀ (seen : List κ) (l : List α), (distinctOn key seen l).Sublist l
  | _, [] => .slnil
  | seen, a :: l => by
    unfold distinctOn
    split
    · exact (distinctOn_sublist key seen l).cons a
    · exact (distinctOn_sublist key _ l).cons_cons a

theorem rel_distinctOn {R : α → β → Prop} {key' : β → κ} (hkey : ∀ a b, R a b → key a = key' b) :
    ∀ {l : List α} {m : List β}, List.Forall₂ R l m → ∀ seen, List.Forall₂ R (distinctOn key seen l)
      (distinctOn key' seen m)
  | _, _, .nil, _ => .nil
  | _, _, .cons hab h, seen => by
    simp only [distinctOn, hkey _ _ hab]
    split
    · exact rel_distinctOn hkey h seen
    · exact .cons hab (rel_distinctOn hkey h _)

/-- Elements kept for their key have distinct new keys. -/
theorem nodup_map_distinctOn (key : α → κ) : ∀ (seen : List κ) (l : List α),
    ((distinctOn key seen l).map key).Nodup ∧ ∀ a ∈ distinctOn key seen l, key a ∉ seen := by
  intro seen l
  induction l generalizing seen with
  | nil => simp [distinctOn]
  | cons a l ih =>
    rw [distinctOn]
    by_cases ha : key a ∈ seen
    · rw [if_pos ha]
      exact ih seen
    · obtain ⟨hnodup, hnew⟩ := ih (key a :: seen)
      rw [if_neg ha, List.map_cons, List.nodup_cons]
      refine ⟨⟨?_, hnodup⟩, ?_⟩
      · intro hmem
        obtain ⟨b, hb, hkey⟩ := List.mem_map.1 hmem
        exact hnew b hb (hkey ▸ List.mem_cons_self)
      · intro b hb
        rcases List.mem_cons.1 hb with rfl | hb
        · exact ha
        · exact fun hseen => hnew b hb (List.mem_cons_of_mem _ hseen)

/-- Elements with distinct new keys are all kept. -/
theorem distinctOn_eq_self : ∀ {seen : List κ} {l : List α}, (l.map key).Nodup → (∀ a ∈ l, key a ∉ seen) →
    distinctOn key seen l = l
  | _, [], _, _ => rfl
  | seen, a :: l, hn, hs => by
    rw [List.map_cons, List.nodup_cons] at hn
    rw [distinctOn, if_neg (hs a List.mem_cons_self), distinctOn_eq_self hn.2]
    intro b hb hm
    rcases List.mem_cons.1 hm with hm | hm
    · exact hn.1 (hm ▸ List.mem_map_of_mem hb)
    · exact hs b (List.mem_cons_of_mem _ hb) hm

end DistinctOn

/-! ## The median -/

/-- The middle of the sorted sample, or the mean of the two middle values. -/
def median {K : Type} [Field K] [LinearOrder K] (values : List K) : K :=
  let ordered := sortOn id values
  let middle := ordered.length / 2
  if ordered.length % 2 = 1 then ordered.getD middle 0
  else (ordered.getD (middle - 1) 0 + ordered.getD middle 0) / 2

theorem median_perm {K : Type} [Field K] [LinearOrder K] {xs ys : List K} (h : xs.Perm ys) : median xs = median ys := by
  have : sortOn id xs = sortOn id ys := sortOn_eq_of_perm (fun _ _ _ _ h => h) h
  simp only [median, this]

theorem median_singleton {K : Type} [Field K] [LinearOrder K] (x : K) : median [x] = x := by
  simp [median, sortOn]

/-- The median of a sample lies between any bounds of the sample. -/
theorem median_mem {K : Type} [Field K] [LinearOrder K] [IsStrictOrderedRing K] {a b : K} {values : List K}
    (hne : values ≠ []) (h : ∀ x ∈ values, a ≤ x ∧ x ≤ b) : a ≤ median values ∧ median values ≤ b := by
  have hlen : 0 < (sortOn id values).length := List.length_pos_iff.2 (sortOn_ne_nil hne)
  have hget : ∀ i, i < (sortOn id values).length →
      a ≤ (sortOn id values).getD i 0 ∧ (sortOn id values).getD i 0 ≤ b := fun i hi => by
    rw [List.getD_eq_getElem _ _ hi]
    exact h _ (mem_sortOn.1 (List.getElem_mem hi))
  unfold median
  simp only
  split
  · exact hget _ (by omega)
  · have h₁ := hget ((sortOn id values).length / 2 - 1) (by omega)
    have h₂ := hget ((sortOn id values).length / 2) (by omega)
    constructor
    · linarith [h₁.1, h₂.1]
    · linarith [h₁.2, h₂.2]

end Kit

import DittoSubnet.Kit.Rows
import Mathlib.Algebra.BigOperators.Group.Finset.Basic
import Mathlib.Algebra.Order.BigOperators.Group.Finset

/-!
# Directories with unsynced entries

A directory as the running process sees it, with the older versions of its entries that a crash may still bring back. A
rename or an unlink changes an entry at once, but only a sync of the directory makes it final. A crash leaves of each
entry the last version or one of the older ones, whatever it leaves of the others.

`Version d k v` says that `v` is what a crash may leave of `k`. `version_put`, `version_drop` and `version_sync` give
the versions after an operation and `version_crashed` those after a crash: what every version of an entry satisfies
survives them. Entries that lie in directories of their own are lost with these (`CrashedIn`).
-/

/-! ## Tables with the same entries -/

namespace Kit.Dict

variable {κ ν M : Type} [DecidableEq κ]

/-- A sum over the rows as a sum over the keys. -/
theorem sumRows_eq_sum [AddCommMonoid M] (f : κ → ν → M) {d : Dict κ ν} (hd : (keys d).Nodup) :
    sumRows f d = ∑ k ∈ (keys d).toFinset, (get? d k).elim 0 (f k) := by
  rw [List.sum_toFinset _ hd]
  unfold sumRows keys
  rw [List.map_map]
  congr 1
  apply List.map_congr_left
  intro row hrow
  show f row.1 row.2 = (get? d row.1).elim 0 (f row.1)
  rw [get?_of_mem hd hrow]
  rfl

/-- Tables with the same entries have the same sums. -/
theorem sumRows_eq_of_get? [AddCommMonoid M] (f : κ → ν → M) {d d' : Dict κ ν} (hd : (keys d).Nodup)
    (hd' : (keys d').Nodup) (h : ∀ k, get? d k = get? d' k) : sumRows f d = sumRows f d' := by
  have hkeys : (keys d).toFinset = (keys d').toFinset := by
    ext k
    rw [List.mem_toFinset, List.mem_toFinset, mem_keys_iff, mem_keys_iff, h k]
  rw [sumRows_eq_sum f hd, sumRows_eq_sum f hd', hkeys]
  exact Finset.sum_congr rfl fun k _ => by rw [h k]

/-- Some of the rows, with no more on each, have no larger sum. -/
theorem sumRows_le_of_get? {f : κ → ν → ℤ} {d d' : Dict κ ν} (hd : (keys d).Nodup) (hd' : (keys d').Nodup)
    (h : ∀ k v, get? d k = some v → ∃ w, get? d' k = some w ∧ f k v ≤ f k w) (h0 : ∀ row ∈ d', 0 ≤ f row.1 row.2) :
    sumRows f d ≤ sumRows f d' := by
  have hsub : (keys d).toFinset ⊆ (keys d').toFinset := by
    intro k hk
    rw [List.mem_toFinset, mem_keys_iff] at hk ⊢
    obtain ⟨v, hv⟩ := hk
    obtain ⟨w, hw, -⟩ := h k v hv
    exact ⟨w, hw⟩
  rw [sumRows_eq_sum f hd, sumRows_eq_sum f hd']
  calc ∑ k ∈ (keys d).toFinset, (get? d k).elim 0 (f k)
      ≤ ∑ k ∈ (keys d).toFinset, (get? d' k).elim 0 (f k) := by
        apply Finset.sum_le_sum
        intro k hk
        obtain ⟨v, hv⟩ := mem_keys_iff.1 (List.mem_toFinset.1 hk)
        obtain ⟨w, hw, hle⟩ := h k v hv
        rw [hv, hw]
        exact hle
    _ ≤ ∑ k ∈ (keys d').toFinset, (get? d' k).elim 0 (f k) := by
        apply Finset.sum_le_sum_of_subset_of_nonneg hsub
        intro k hk _
        obtain ⟨w, hw⟩ := mem_keys_iff.1 (List.mem_toFinset.1 hk)
        rw [hw]
        exact h0 (k, w) (mem_of_get? hw)

omit [DecidableEq κ] in
/-- A table with fewer keys has no more rows. -/
theorem length_le_of_keys {ν' : Type} {d : Dict κ ν} {d' : Dict κ ν'} (hd : (keys d).Nodup) (h : keys d ⊆ keys d') :
    d.length ≤ d'.length := by
  have hle := (List.subperm_of_subset hd h).length_le
  simpa [keys] using hle

end Kit.Dict

/-! ## Directories -/

namespace Kit

variable {κ ν : Type} [DecidableEq κ]

structure Directory (κ ν : Type) where
  files : Dict κ ν
  older : List (κ × Option ν)
  deriving DecidableEq, Repr

namespace Directory

def empty : Directory κ ν := ⟨[], []⟩

def get? (d : Directory κ ν) (k : κ) : Option ν := Dict.get? d.files k

/-- A rename onto an entry. -/
def put (d : Directory κ ν) (k : κ) (v : ν) : Directory κ ν := ⟨Dict.set d.files k v, d.older ++ [(k, d.get? k)]⟩

/-- An unlink. -/
def drop (d : Directory κ ν) (k : κ) : Directory κ ν :=
  ⟨d.files.filter fun file => file.1 ≠ k, d.older ++ [(k, d.get? k)]⟩

/-- A sync of the entries of a condition. -/
def sync (d : Directory κ ν) (p : κ → Bool) : Directory κ ν :=
  { d with older := d.older.filter fun version => !p version.1 }

/-- What a crash may leave of an entry. -/
def Version (d : Directory κ ν) (k : κ) (v : Option ν) : Prop := v = d.get? k ∨ (k, v) ∈ d.older

/-- What a crash leaves. -/
structure Crashed (d d' : Directory κ ν) : Prop where
  settled : d'.older = []
  nodup : (Dict.keys d'.files).Nodup
  version : ∀ k, d.Version k (d'.get? k)

/-- What a crash leaves of entries whose own directory is kept or lost. -/
structure CrashedIn (kept : κ → Prop) (d d' : Directory κ ν) : Prop where
  settled : d'.older = []
  nodup : (Dict.keys d'.files).Nodup
  version : ∀ k, kept k → d.Version k (d'.get? k)
  lost : ∀ k, ¬ kept k → d'.get? k = none

theorem get?_put (d : Directory κ ν) (k k' : κ) (v : ν) :
    (d.put k v).get? k' = if k = k' then some v else d.get? k' := Dict.get?_set d.files k k' v

theorem get?_drop (d : Directory κ ν) (k k' : κ) : (d.drop k).get? k' = if k = k' then none else d.get? k' := by
  unfold drop get?
  generalize d.files = files
  induction files with
  | nil => simp [Dict.get?]
  | cons file files ih =>
    obtain ⟨a, v⟩ := file
    rw [List.filter_cons]
    by_cases ha : a = k
    · subst ha
      simp only [ne_eq, not_true_eq_false, decide_false, Bool.false_eq_true, if_false, Dict.get?]
      rw [ih]
      split <;> rfl
    · simp only [ne_eq, ha, not_false_eq_true, decide_true, if_true, Dict.get?]
      by_cases hk : a = k'
      · have hne : ¬ k = k' := fun e => ha (hk.trans e.symm)
        simp only [hk, hne, if_true, if_false]
      · simp only [hk, if_false]
        exact ih

@[simp] theorem get?_sync (d : Directory κ ν) (p : κ → Bool) (k : κ) : (d.sync p).get? k = d.get? k := rfl

theorem version_get? (d : Directory κ ν) (k : κ) : d.Version k (d.get? k) := .inl rfl

theorem version_put {d : Directory κ ν} {k k' : κ} {v : ν} {w : Option ν} :
    (d.put k v).Version k' w ↔ (k = k' ∧ w = some v) ∨ d.Version k' w := by
  unfold Version
  rw [get?_put]
  simp only [put, List.mem_append, List.mem_singleton, Prod.mk.injEq]
  constructor
  · rintro (h | h | ⟨rfl, rfl⟩)
    · split at h
      · rename_i hk
        exact .inl ⟨hk, h⟩
      · exact .inr (.inl h)
    · exact .inr (.inr h)
    · exact .inr (.inl rfl)
  · rintro (⟨rfl, rfl⟩ | h | h)
    · simp
    · by_cases hk : k = k'
      · subst hk
        exact .inr (.inr ⟨rfl, h⟩)
      · exact .inl (by rw [if_neg hk]; exact h)
    · exact .inr (.inl h)

theorem version_drop {d : Directory κ ν} {k k' : κ} {w : Option ν} :
    (d.drop k).Version k' w ↔ (k = k' ∧ w = none) ∨ d.Version k' w := by
  unfold Version
  rw [get?_drop]
  simp only [drop, List.mem_append, List.mem_singleton, Prod.mk.injEq]
  constructor
  · rintro (h | h | ⟨rfl, rfl⟩)
    · split at h
      · rename_i hk
        exact .inl ⟨hk, h⟩
      · exact .inr (.inl h)
    · exact .inr (.inr h)
    · exact .inr (.inl rfl)
  · rintro (⟨rfl, rfl⟩ | h | h)
    · simp
    · by_cases hk : k = k'
      · subst hk
        exact .inr (.inr ⟨rfl, h⟩)
      · exact .inl (by rw [if_neg hk]; exact h)
    · exact .inr (.inl h)

/-- A synced entry has one version. -/
theorem version_sync {d : Directory κ ν} {p : κ → Bool} {k : κ} {w : Option ν} :
    (d.sync p).Version k w ↔ w = d.get? k ∨ (p k = false ∧ d.Version k w) := by
  unfold Version
  rw [get?_sync]
  simp only [sync, List.mem_filter, Bool.not_eq_true']
  constructor
  · rintro (h | ⟨h, hp⟩)
    · exact .inl h
    · exact .inr ⟨hp, .inr h⟩
  · rintro (h | ⟨hp, h | h⟩)
    · exact .inl h
    · exact .inl h
    · exact .inr ⟨h, hp⟩

theorem Version.of_sync {d : Directory κ ν} {p : κ → Bool} {k : κ} {w : Option ν} (h : (d.sync p).Version k w) :
    d.Version k w := by
  rcases version_sync.1 h with rfl | ⟨-, h⟩
  · exact version_get? d k
  · exact h

/-- A crash leaves no version that was not there. -/
theorem version_crashed {d d' : Directory κ ν} (h : Crashed d d') {k : κ} {w : Option ν} (hw : d'.Version k w) :
    d.Version k w := by
  rcases hw with rfl | hw
  · exact h.version k
  · rw [h.settled] at hw
    cases hw

/-- A crash leaves no version of a kept entry that was not there. -/
theorem version_crashedIn {kept : κ → Prop} {d d' : Directory κ ν} (h : CrashedIn kept d d') {k : κ} (hk : kept k)
    {w : Option ν} (hw : d'.Version k w) : d.Version k w := by
  rcases hw with rfl | hw
  · exact h.version k hk
  · rw [h.settled] at hw
    cases hw

theorem keys_put_nodup {d : Directory κ ν} (h : (Dict.keys d.files).Nodup) (k : κ) (v : ν) :
    (Dict.keys (d.put k v).files).Nodup := Dict.keys_set_nodup h k v

omit [DecidableEq κ] in
theorem keys_filter_nodup {files : Dict κ ν} (h : (Dict.keys files).Nodup) (p : κ × ν → Bool) :
    (Dict.keys (files.filter p)).Nodup := (List.filter_sublist.map Prod.fst).nodup h

end Directory

end Kit

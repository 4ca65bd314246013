import DittoSubnet.Kit.Sorting

/-!
# Insertion-ordered dictionaries

A dictionary is an association list with distinct keys in insertion order. `Dict.set` overwrites in place or appends,
`Dict.ofList` sets the pairs of a list one after the other, `Dict.collect` collects the values of each key as a set, and
`groupOn` collects them in order.

The value of `Dict.set` at a key is `get?_set`; pairs with distinct keys are the dictionary they build
(`ofList_eq_self`). The groups of a list are described
by `mem_groupOn`, and a permutation of the list permutes the groups, each up to a permutation of its values
(`groupOn_map_perm`): a summary of the groups that ignores the order of the values depends only on the elements.
-/

namespace Kit

variable {κ ν : Type} [DecidableEq κ]

/-- An association list with distinct keys, in insertion order. -/
abbrev Dict (κ ν : Type) := List (κ × ν)

namespace Dict

/-- The keys, in insertion order. -/
def keys {κ ν : Type} (d : Dict κ ν) : List κ := d.map Prod.fst

/-- The value at a key. -/
def get? : Dict κ ν → κ → Option ν
  | [], _ => none
  | (k', v) :: d, k => if k' = k then some v else get? d k

/-- Overwrites the value in place, or appends a new pair. -/
def set : Dict κ ν → κ → ν → Dict κ ν
  | [], k, v => [(k, v)]
  | (k', v') :: d, k, v => if k' = k then (k', v) :: d else (k', v') :: set d k v

/-- Sets the pairs one after the other: the last value of a key wins, its first position stays. -/
def ofList (kvs : List (κ × ν)) : Dict κ ν := kvs.foldl (fun d kv => set d kv.1 kv.2) []

/-- `d.setdefault(k, []).append(v)`. -/
def push : Dict κ (List ν) → κ → ν → Dict κ (List ν)
  | [], k, v => [(k, [v])]
  | (k', vs) :: d, k, v => if k' = k then (k', vs ++ [v]) :: d else (k', vs) :: push d k v

theorem keys_map {κ ν μ : Type} (d : Dict κ ν) (f : κ → ν → μ) :
    keys (d.map fun kv => (kv.1, f kv.1 kv.2)) = keys d := by
  simp [keys, Function.comp_def]

theorem mem_keys_iff {d : Dict κ ν} {k : κ} : k ∈ keys d ↔ ∃ v, get? d k = some v := by
  induction d with
  | nil => simp [keys, get?]
  | cons kv d ih =>
    obtain ⟨k', v⟩ := kv
    by_cases h : k' = k
    · simp [keys, get?, h]
    · have : ¬ k = k' := fun e => h e.symm
      simpa [keys, get?, h, this] using ih

theorem get?_eq_none_iff {d : Dict κ ν} {k : κ} : get? d k = none ↔ k ∉ keys d := by
  rw [mem_keys_iff, ← Option.isSome_iff_exists, Option.not_isSome_iff_eq_none]

theorem get?_of_mem {d : Dict κ ν} (hd : (keys d).Nodup) {k : κ} {v : ν} (h : (k, v) ∈ d) : get? d k = some v := by
  induction d with
  | nil => cases h
  | cons kv d ih =>
    obtain ⟨k', v'⟩ := kv
    simp only [keys, List.map_cons, List.nodup_cons] at hd
    rcases List.mem_cons.1 h with h | h
    · cases h; simp [get?]
    · have hk : k ∈ keys d := List.mem_map.2 ⟨_, h, rfl⟩
      have : k' ≠ k := fun e => hd.1 (e ▸ hk)
      simpa [get?, this] using ih hd.2 h

theorem mem_of_get? {d : Dict κ ν} {k : κ} {v : ν} (h : get? d k = some v) : (k, v) ∈ d := by
  induction d with
  | nil => cases h
  | cons kv d ih =>
    obtain ⟨k', v'⟩ := kv
    by_cases hk : k' = k
    · simp only [get?, hk, if_true, Option.some.injEq] at h
      simp [hk, h]
    · simp only [get?, hk, if_false] at h
      exact List.mem_cons_of_mem _ (ih h)

theorem get?_append_of_not_mem {d d' : Dict κ ν} {k : κ} (h : k ∉ keys d') : get? (d ++ d') k = get? d k := by
  induction d with
  | nil => exact get?_eq_none_iff.2 h
  | cons kv d ih =>
    obtain ⟨k', v⟩ := kv
    rw [List.cons_append, get?, get?, ih]

/-- Lookup depends only on the pairs. -/
theorem get?_perm {d d' : Dict κ ν} (hd : (keys d).Nodup) (h : d.Perm d') (k : κ) : get? d k = get? d' k := by
  have hd' : (keys d').Nodup := (h.map Prod.fst).nodup_iff.1 hd
  cases hg : get? d k with
  | some v => rw [get?_of_mem hd' (h.mem_iff.1 (mem_of_get? hg))]
  | none =>
    rw [get?_eq_none_iff] at hg
    rw [eq_comm, get?_eq_none_iff]
    exact fun hk => hg ((h.map Prod.fst).mem_iff.2 hk)

theorem get?_set (d : Dict κ ν) (k k' : κ) (v : ν) : get? (set d k v) k' = if k = k' then some v else get? d k' := by
  induction d with
  | nil => simp [set, get?]
  | cons kv d ih =>
    obtain ⟨a, w⟩ := kv
    by_cases ha : a = k
    · subst ha
      simp only [set, if_true, get?]
      split <;> rfl
    · simp only [set, ha, if_false, get?, ih]
      by_cases hk : a = k'
      · have : ¬ k = k' := fun e => ha (hk.trans e.symm)
        simp [hk, this]
      · simp [hk]

theorem keys_set_nodup {d : Dict κ ν} (hd : (keys d).Nodup) (k : κ) (v : ν) : (keys (set d k v)).Nodup := by
  induction d with
  | nil => simp [set, keys]
  | cons kv d ih =>
    obtain ⟨a, w⟩ := kv
    simp only [keys, List.map_cons, List.nodup_cons] at hd
    by_cases ha : a = k
    · subst ha
      simp only [set, if_true]
      exact List.nodup_cons.2 hd
    · simp only [set, ha, if_false]
      show (a :: keys (set d k v)).Nodup
      refine List.nodup_cons.2 ⟨?_, ih hd.2⟩
      intro hm
      obtain ⟨u, hu⟩ := mem_keys_iff.1 hm
      rw [get?_set] at hu
      have hka : ¬ k = a := fun e => ha e.symm
      rw [if_neg hka] at hu
      exact hd.1 (mem_keys_iff.2 ⟨u, hu⟩)

theorem keys_foldl_set_nodup (kvs : List (κ × ν)) : ∀ {d : Dict κ ν}, (keys d).Nodup →
    (keys (kvs.foldl (fun d kv => set d kv.1 kv.2) d)).Nodup := by
  induction kvs with
  | nil => intro d hd; exact hd
  | cons kv kvs ih => intro d hd; exact ih (keys_set_nodup hd _ _)

theorem keys_ofList_nodup (kvs : List (κ × ν)) : (keys (ofList kvs)).Nodup :=
  keys_foldl_set_nodup kvs (by simp [keys])

theorem set_of_not_mem {d : Dict κ ν} {k : κ} (hk : k ∉ keys d) (v : ν) : set d k v = d ++ [(k, v)] := by
  induction d with
  | nil => rfl
  | cons kv d ih =>
    obtain ⟨a, w⟩ := kv
    simp only [keys, List.map_cons, List.mem_cons, not_or] at hk
    rw [set, if_neg fun h => hk.1 h.symm, ih hk.2, List.cons_append]

theorem foldl_set_of_nodup : ∀ (kvs : List (κ × ν)) {d : Dict κ ν}, (keys (d ++ kvs)).Nodup →
    kvs.foldl (fun d kv => set d kv.1 kv.2) d = d ++ kvs
  | [], d, _ => by simp
  | (k, v) :: kvs, d, h => by
    have hk : k ∉ keys d := by
      simp only [keys, List.map_append, List.map_cons] at h
      exact fun hm => (List.disjoint_of_nodup_append h) hm List.mem_cons_self
    have hs : d ++ [(k, v)] ++ kvs = d ++ (k, v) :: kvs := by simp
    rw [List.foldl_cons, set_of_not_mem hk, foldl_set_of_nodup kvs (by rwa [hs]), hs]

/-- Pairs with distinct keys are the dictionary they build. -/
theorem ofList_eq_self {kvs : List (κ × ν)} (h : (keys kvs).Nodup) : ofList kvs = kvs := by
  rw [ofList, foldl_set_of_nodup kvs (by simpa using h), List.nil_append]

theorem mem_of_mem_set {d : Dict κ ν} {k : κ} {v : ν} {kv : κ × ν}
    (h : kv ∈ set d k v) : kv = (k, v) ∨ kv ∈ d := by
  induction d with
  | nil => simpa [set] using h
  | cons kv' d ih =>
    obtain ⟨k', v'⟩ := kv'
    rw [set] at h
    split at h
    · rename_i hk
      rcases List.mem_cons.1 h with rfl | h
      · exact .inl (by rw [hk])
      · exact .inr (List.mem_cons_of_mem _ h)
    · rcases List.mem_cons.1 h with rfl | h
      · exact .inr List.mem_cons_self
      · exact (ih h).imp_right (List.mem_cons_of_mem _)

/-- A dictionary holds no pair that was not set. -/
theorem mem_of_mem_ofList {kvs : List (κ × ν)} {kv : κ × ν}
    (h : kv ∈ ofList kvs) : kv ∈ kvs := by
  have hfold : ∀ (kvs : List (κ × ν)) (d : Dict κ ν),
      kv ∈ kvs.foldl (fun d kv => set d kv.1 kv.2) d → kv ∈ d ∨ kv ∈ kvs := by
    intro kvs
    induction kvs with
    | nil => exact fun d hd => .inl hd
    | cons a kvs ih =>
      intro d hd
      rcases ih _ hd with hset | hrest
      · rcases mem_of_mem_set hset with rfl | hset
        · exact .inr List.mem_cons_self
        · exact .inl hset
      · exact .inr (List.mem_cons_of_mem _ hrest)
  exact (hfold kvs [] h).resolve_left List.not_mem_nil

theorem get?_ofList_graph (f : κ → ν) (ks : List κ) (k : κ) :
    get? (ofList (ks.map fun k => (k, f k))) k = if k ∈ ks then some (f k) else none := by
  have hfold : ∀ (ks : List κ) (d : Dict κ ν),
      get? ((ks.map fun k => (k, f k)).foldl (fun d kv => set d kv.1 kv.2) d) k = if k ∈
        ks then some (f k) else get? d k := by
    intro ks
    induction ks with
    | nil => simp
    | cons k' ks ih =>
      intro d
      rw [List.map_cons, List.foldl_cons, ih, get?_set]
      by_cases hk : k' = k
      · simp [hk]
      · have : ¬ k = k' := fun e => hk e.symm
        simp [hk, this]
  exact hfold ks []

theorem mem_ofList_graph {f : κ → ν} {ks : List κ} {kv : κ × ν} :
    kv ∈ ofList (ks.map fun k => (k, f k)) ↔ kv.1 ∈ ks ∧ kv.2 = f kv.1 := by
  constructor
  · intro h
    have hget := get?_of_mem (keys_ofList_nodup _) h
    rw [get?_ofList_graph] at hget
    by_cases hk : kv.1 ∈ ks
    · rw [if_pos hk] at hget
      exact ⟨hk, (Option.some.inj hget).symm⟩
    · rw [if_neg hk] at hget
      cases hget
  · rintro ⟨hk, hv⟩
    apply mem_of_get?
    rw [get?_ofList_graph, if_pos hk, hv]

theorem get?_ofList_of_mem {kvs : List (κ × ν)} (h : (keys kvs).Nodup) {k : κ} {v : ν} (hm : (k, v) ∈ kvs) :
    get? (ofList kvs) k = some v := by
  rw [ofList_eq_self h]
  exact get?_of_mem h hm

/-! ## Dictionaries of sets -/

section Sets

variable [DecidableEq ν]

/-- `d.setdefault(k, set()).add(v)`. -/
def insertInto (d : Dict κ (Finset ν)) (k : κ) (v : ν) : Dict κ (Finset ν) := set d k (insert v ((get? d k).getD ∅))

/-- The dictionary of sets built from pairs one after the other. -/
def collect (kvs : List (κ × ν)) : Dict κ (Finset ν) := kvs.foldl (fun d kv => insertInto d kv.1 kv.2) []

/-- The union of all the sets. -/
def values (d : Dict κ (Finset ν)) : Finset ν := (d.map Prod.snd).foldr (· ∪ ·) ∅

theorem mem_getD_insertInto {d : Dict κ (Finset ν)} {k k' : κ} {v v' : ν} :
    v' ∈ (get? (insertInto d k v) k').getD ∅ ↔ (k = k' ∧ v' = v) ∨ v' ∈ (get? d k').getD ∅ := by
  rw [insertInto, get?_set]
  by_cases hk : k = k'
  · simp [hk]
  · simp [hk]

theorem foldl_insertInto_spec (kvs : List (κ × ν)) {d : Dict κ (Finset ν)} (hd : (keys d).Nodup) :
    (keys (kvs.foldl (fun d kv => insertInto d kv.1 kv.2) d)).Nodup ∧
      ∀ k v, v ∈ (get? (kvs.foldl (fun d kv => insertInto d kv.1 kv.2) d) k).getD ∅ ↔ (k, v) ∈ kvs ∨
        v ∈ (get? d k).getD ∅ := by
  induction kvs generalizing d with
  | nil => simpa using hd
  | cons kv kvs ih =>
    obtain ⟨hn, hm⟩ := ih (keys_set_nodup hd kv.1 (insert kv.2 ((get? d kv.1).getD ∅)))
    refine ⟨hn, fun k v => ?_⟩
    rw [List.foldl_cons, insertInto, hm, ← insertInto, mem_getD_insertInto, List.mem_cons]
    constructor
    · rintro (h | ⟨rfl, rfl⟩ | h)
      · exact .inl (.inr h)
      · exact .inl (.inl rfl)
      · exact .inr h
    · rintro ((h | h) | h)
      · exact .inr (.inl (by rw [← h]; exact ⟨rfl, rfl⟩))
      · exact .inl h
      · exact .inr (.inr h)

/-- What the dictionary holds at a key, the empty set by default, is what was paired with it. -/
@[simp] theorem mem_getD_collect {kvs : List (κ × ν)} {k : κ} {v : ν} :
    v ∈ (get? (collect kvs) k).getD ∅ ↔ (k, v) ∈ kvs := by
  rw [collect, (foldl_insertInto_spec kvs (by simp [keys])).2]
  simp [get?]

omit [DecidableEq κ] in
theorem mem_values {d : Dict κ (Finset ν)} {v : ν} : v ∈ values d ↔ ∃ kvs ∈ d, v ∈ kvs.2 := by
  induction d with
  | nil => simp [values]
  | cons kv d ih =>
    simp only [values, List.map_cons, List.foldr_cons, Finset.mem_union, List.mem_cons, exists_eq_or_imp] at ih ⊢
    rw [ih]

@[simp] theorem mem_values_collect {kvs : List (κ × ν)} {v : ν} : v ∈ values (collect kvs) ↔ ∃ k, (k, v) ∈ kvs := by
  have hn : (keys (collect kvs)).Nodup := (foldl_insertInto_spec kvs (by simp [keys])).1
  rw [mem_values]
  constructor
  · rintro ⟨⟨k, vs⟩, hmem, hv⟩
    exact ⟨k, mem_getD_collect.1 (by simpa [get?_of_mem hn hmem] using hv)⟩
  · rintro ⟨k, hkv⟩
    have hv := mem_getD_collect.2 hkv
    cases hg : get? (collect kvs) k with
    | none => simp [hg] at hv
    | some vs => exact ⟨(k, vs), mem_of_get? hg, by simpa [hg] using hv⟩

end Sets

end Dict

/-! ## Grouping -/

/-- The values of each key, keys in order of first appearance. -/
def groupOn (kvs : List (κ × ν)) : Dict κ (List ν) := kvs.foldl (fun d kv => Dict.push d kv.1 kv.2) []

/-- The values paired with `k`. -/
def valuesOf (k : κ) (kvs : List (κ × ν)) : List ν := (kvs.filter (fun kv => kv.1 = k)).map Prod.snd

section Group

open Dict

theorem mem_push_iff {d : Dict κ (List ν)} (hd : (keys d).Nodup) {k k' : κ} {v : ν} {vs : List ν} :
    (k', vs) ∈ push d k v ↔ if k' = k then vs = (get? d k).getD [] ++ [v] else (k', vs) ∈ d := by
  induction d with
  | nil => by_cases h : k' = k <;> simp [push, get?, h]
  | cons kv d ih =>
    obtain ⟨a, ws⟩ := kv
    simp only [keys, List.map_cons, List.nodup_cons] at hd
    by_cases ha : a = k
    · subst ha
      simp only [push, if_true, get?, Option.getD_some, List.mem_cons, Prod.mk.injEq]
      by_cases hk : k' = a
      · subst hk
        have : ∀ us, (k', us) ∉ d := fun us h => hd.1 (List.mem_map.2 ⟨_, h, rfl⟩)
        simp [this]
      · simp [hk]
    · simp only [push, ha, if_false, get?, List.mem_cons, Prod.mk.injEq, ih hd.2]
      by_cases hk : k' = k
      · have : ¬ k' = a := fun e => ha (e ▸ hk)
        simp [hk, Ne.symm ha]
      · simp [hk]

theorem keys_push_nodup {d : Dict κ (List ν)} (hd : (keys d).Nodup) (k : κ) (v : ν) :
    (keys (push d k v)).Nodup := by
  induction d with
  | nil => simp [push, keys]
  | cons kv d ih =>
    obtain ⟨a, ws⟩ := kv
    simp only [keys, List.map_cons, List.nodup_cons] at hd
    by_cases ha : a = k
    · subst ha
      simp only [push, if_true]
      exact List.nodup_cons.2 hd
    · simp only [push, ha, if_false]
      show (a :: keys (push d k v)).Nodup
      refine List.nodup_cons.2 ⟨fun hm => ?_, ih hd.2⟩
      obtain ⟨⟨a', vs⟩, hvs, rfl⟩ := List.mem_map.1 hm
      rw [mem_push_iff hd.2, if_neg ha] at hvs
      exact hd.1 (List.mem_map.2 ⟨_, hvs, rfl⟩)

/-- Appending pairs to a dictionary of groups: the invariant of `groupOn`'s loop. -/
theorem foldl_push_spec (kvs : List (κ × ν)) : ∀ {d : Dict κ (List ν)}, (keys d).Nodup →
    (keys (kvs.foldl (fun d kv => push d kv.1 kv.2) d)).Nodup ∧
      ∀ k vs, (k, vs) ∈ kvs.foldl (fun d kv => push d kv.1 kv.2) d ↔
        vs = (get? d k).getD [] ++ valuesOf k kvs ∧ (k ∈ keys d ∨ valuesOf k kvs ≠ []) := by
  induction kvs with
  | nil =>
    intro d hd
    refine ⟨hd, fun k vs => ?_⟩
    simp only [List.foldl_nil, valuesOf, List.filter_nil, List.map_nil, List.append_nil, ne_eq, not_true_eq_false,
      or_false]
    constructor
    · intro h; rw [get?_of_mem hd h]; exact ⟨rfl, List.mem_map.2 ⟨_, h, rfl⟩⟩
    · rintro ⟨rfl, hk⟩
      obtain ⟨v, hv⟩ := mem_keys_iff.1 hk
      simpa [hv] using mem_of_get? hv
  | cons kv kvs ih =>
    intro d hd
    obtain ⟨a, v⟩ := kv
    have hd' := keys_push_nodup hd a v
    obtain ⟨hn, hm⟩ := ih hd'
    refine ⟨hn, fun k vs => ?_⟩
    rw [List.foldl_cons, hm]
    by_cases hk : a = k
    · subst hk
      have hget : get? (push d a v) a = some ((get? d a).getD [] ++ [v]) :=
        get?_of_mem hd' ((mem_push_iff hd).2 (by simp))
      have hkey : a ∈ keys (push d a v) := mem_keys_iff.2 ⟨_, hget⟩
      simp [hget, hkey, valuesOf]
    · have hget : get? (push d a v) k = get? d k := by
        have hka : ¬ k = a := fun e => hk e.symm
        cases hg : get? d k with
        | some w => exact get?_of_mem hd' ((mem_push_iff hd).2 (by simpa [hka] using mem_of_get? hg))
        | none =>
          rw [get?_eq_none_iff] at hg ⊢
          intro hm
          obtain ⟨⟨k', ws⟩, hws, rfl⟩ := List.mem_map.1 hm
          rw [mem_push_iff hd, if_neg hka] at hws
          exact hg (List.mem_map.2 ⟨_, hws, rfl⟩)
      have hkeys : k ∈ keys (push d a v) ↔ k ∈ keys d := by rw [mem_keys_iff, mem_keys_iff, hget]
      simp [hget, hkeys, valuesOf, hk]

theorem keys_groupOn_nodup (kvs : List (κ × ν)) : (keys (groupOn kvs)).Nodup :=
  (foldl_push_spec kvs (by simp [keys])).1

/-- A group holds exactly the values of its key, and there is one for each key that has values. -/
theorem mem_groupOn {kvs : List (κ × ν)} {k : κ} {vs : List ν} :
    (k, vs) ∈ groupOn kvs ↔ vs = valuesOf k kvs ∧ valuesOf k kvs ≠ [] := by
  rw [groupOn, (foldl_push_spec kvs (by simp [keys])).2]
  simp [keys, get?]

theorem getD_get?_groupOn (kvs : List (κ × ν)) (k : κ) : (get? (groupOn kvs) k).getD [] = valuesOf k kvs := by
  by_cases hempty : valuesOf k kvs = []
  · have hnone : get? (groupOn kvs) k = none := by
      rw [get?_eq_none_iff]
      intro hkey
      obtain ⟨⟨_, values⟩, hgroup, rfl⟩ := List.mem_map.1 hkey
      exact (mem_groupOn.1 hgroup).2 hempty
    rw [hnone, hempty]
    rfl
  · rw [get?_of_mem (keys_groupOn_nodup kvs) (mem_groupOn.2 ⟨rfl, hempty⟩)]
    rfl

theorem mem_keys_groupOn {kvs : List (κ × ν)} {k : κ} : k ∈ keys (groupOn kvs) ↔ k ∈ kvs.map Prod.fst := by
  have h : k ∈ keys (groupOn kvs) ↔ valuesOf k kvs ≠ [] := by
    constructor
    · intro h
      obtain ⟨⟨_, vs⟩, hm, rfl⟩ := List.mem_map.1 h
      exact (mem_groupOn.1 hm).2
    · intro h
      exact List.mem_map.2 ⟨(k, valuesOf k kvs), mem_groupOn.2 ⟨rfl, h⟩, rfl⟩
  rw [h, valuesOf, Ne, List.map_eq_nil_iff, List.filter_eq_nil_iff, List.mem_map]
  push Not
  constructor
  · rintro ⟨kv, hkv, h⟩; exact ⟨kv, hkv, by simpa using h⟩
  · rintro ⟨kv, hkv, h⟩; exact ⟨kv, hkv, by simpa using h⟩

theorem groupOn_eq_nil_iff {kvs : List (κ × ν)} : groupOn kvs = [] ↔ kvs = [] := by
  constructor
  · intro h
    have : ∀ k, k ∉ kvs.map Prod.fst := fun k hk => by
      have := mem_keys_groupOn.2 hk
      rw [h] at this
      simp [keys] at this
    exact List.map_eq_nil_iff.1 (List.eq_nil_iff_forall_not_mem.2 this)
  · rintro rfl; rfl

theorem valuesOf_perm {kvs kvs' : List (κ × ν)} (h : kvs.Perm kvs') (k : κ) :
    (valuesOf k kvs).Perm (valuesOf k kvs') := (h.filter _).map _

/-- A summary of the groups that ignores the order of the values permutes with the list. -/
theorem groupOn_map_perm {μ : Type} {kvs kvs' : List (κ × ν)} (h : kvs.Perm kvs') {f : List ν → μ}
    (hf : ∀ xs ys, xs.Perm ys → f xs = f ys) :
    ((groupOn kvs).map fun kv => (kv.1, f kv.2)).Perm ((groupOn kvs').map fun kv => (kv.1, f kv.2)) := by
  have hn : ∀ l : List (κ × ν), ((groupOn l).map fun kv => (kv.1, f kv.2)).Nodup := fun l =>
    List.Nodup.of_map Prod.fst (by
      have := keys_groupOn_nodup l
      simpa [keys, Function.comp_def] using this)
  rw [List.perm_ext_iff_of_nodup (hn _) (hn _)]
  have key : ∀ {l l' : List (κ × ν)}, l.Perm l' → ∀ p : κ × μ,
      p ∈ (groupOn l).map (fun kv => (kv.1, f kv.2)) → p ∈ (groupOn l').map (fun kv => (kv.1, f kv.2)) := by
    intro l l' hl p hp
    obtain ⟨⟨k, vs⟩, hm, rfl⟩ := List.mem_map.1 hp
    obtain ⟨rfl, hne⟩ := mem_groupOn.1 hm
    refine List.mem_map.2 ⟨(k, valuesOf k l'), mem_groupOn.2 ⟨rfl, ?_⟩, ?_⟩
    · intro he; exact hne ((valuesOf_perm hl k).trans (he ▸ List.Perm.refl _)).eq_nil
    · rw [hf _ _ (valuesOf_perm hl k)]
  exact fun p => ⟨key h p, key h.symm p⟩

/-- Such a summary, sorted by key, depends only on the elements. -/
theorem sortOn_groupOn_perm {κ ν μ : Type} [LinearOrder κ] {kvs kvs' : List (κ × ν)} (h : kvs.Perm kvs')
    {f : List ν → μ} (hf : ∀ xs ys, xs.Perm ys → f xs = f ys) :
    sortOn Prod.fst ((groupOn kvs).map fun kv => (kv.1, f kv.2)) =
      sortOn Prod.fst ((groupOn kvs').map fun kv => (kv.1, f kv.2)) := by
  refine sortOn_eq_of_perm ?_ (groupOn_map_perm h hf)
  intro x hx y hy hxy
  refine List.inj_on_of_nodup_map (f := Prod.fst) ?_ hx hy hxy
  have hn := keys_groupOn_nodup kvs
  rwa [← keys_map _ fun _ vs => f vs] at hn

theorem isEmpty_groupOn_perm {kvs kvs' : List (κ × ν)} (h : kvs.Perm kvs') :
    (groupOn kvs).isEmpty = (groupOn kvs').isEmpty := by
  have : (groupOn kvs = []) ↔ (groupOn kvs' = []) := by
    rw [groupOn_eq_nil_iff, groupOn_eq_nil_iff, ← List.length_eq_zero_iff, ← List.length_eq_zero_iff, h.length_eq]
  rw [Bool.eq_iff_iff, List.isEmpty_iff, List.isEmpty_iff, this]

end Group

end Kit

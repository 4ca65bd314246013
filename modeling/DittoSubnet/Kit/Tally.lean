import DittoSubnet.Kit.Dict

/-!
# Dictionaries of amounts

`Dict.amount d k` is the amount at a key, 0 where there is none, and `Dict.total d` the sum of all amounts.
`Dict.add d k v` is `d[k] = d.get(k, 0) + v`, and `Dict.addAll` adds the pairs of a list one after the other: it adds to
every amount what the list holds for the key (`amount_addAll`) and to the total what it holds at all (`total_addAll`).

Taking a key out of a dictionary takes its amount out of the total (`total_erase`).
-/

set_option linter.unusedSectionVars false

namespace Kit

namespace Dict

variable {κ K : Type} [DecidableEq κ]

section Amounts

variable [AddCommMonoid K]

/-- The amount at a key. -/
def amount (d : Dict κ K) (k : κ) : K := (get? d k).getD 0

/-- The sum of the amounts. -/
def total {κ : Type} (d : Dict κ K) : K := (d.map Prod.snd).sum

/-- `d[k] = d.get(k, 0) + v`. -/
def add (d : Dict κ K) (k : κ) (v : K) : Dict κ K := set d k (amount d k + v)

/-- Adds the pairs one after the other. -/
def addAll (d : Dict κ K) (kvs : List (κ × K)) : Dict κ K := kvs.foldl (fun d kv => add d kv.1 kv.2) d

@[simp] theorem amount_nil (k : κ) : amount ([] : Dict κ K) k = 0 := rfl

@[simp] theorem total_nil {κ : Type} : total ([] : Dict κ K) = 0 := rfl

@[simp] theorem total_cons {κ : Type} (kv : κ × K) (d : Dict κ K) : total (kv :: d) = kv.2 + total d :=
  List.sum_cons

theorem total_append {κ : Type} (d d' : Dict κ K) : total (d ++ d') = total d + total d' := by
  simp [total]

theorem amount_cons (k k' : κ) (v : K) (d : Dict κ K) :
    amount ((k, v) :: d) k' = if k = k' then v else amount d k' := by
  simp only [amount, get?]
  split <;> rfl

theorem amount_of_not_mem {d : Dict κ K} {k : κ} (h : k ∉ keys d) : amount d k = 0 := by
  rw [amount, get?_eq_none_iff.2 h, Option.getD_none]

theorem amount_of_mem {d : Dict κ K} (hd : (keys d).Nodup) {k : κ} {v : K} (h : (k, v) ∈ d) : amount d k = v := by
  rw [amount, get?_of_mem hd h, Option.getD_some]

theorem amount_append (d d' : Dict κ K) {k : κ} (h : k ∉ keys d') : amount (d ++ d') k = amount d k := by
  rw [amount, get?_append_of_not_mem h, amount]

theorem amount_append_right (d d' : Dict κ K) {k : κ} (h : k ∉ keys d) : amount (d ++ d') k = amount d' k := by
  induction d with
  | nil => rfl
  | cons kv d ih =>
    obtain ⟨k', v⟩ := kv
    simp only [keys, List.map_cons, List.mem_cons, not_or] at h
    rw [List.cons_append, amount_cons, if_neg fun e => h.1 e.symm]
    exact ih h.2

theorem amount_set (d : Dict κ K) (k k' : κ) (v : K) :
    amount (set d k v) k' = if k = k' then v else amount d k' := by
  unfold amount
  rw [get?_set]
  split <;> rfl

theorem amount_add (d : Dict κ K) (k k' : κ) (v : K) :
    amount (add d k v) k' = amount d k' + if k = k' then v else 0 := by
  rw [add, amount_set]
  by_cases h : k = k'
  · rw [if_pos h, if_pos h, h]
  · rw [if_neg h, if_neg h, add_zero]

theorem keys_add_nodup {d : Dict κ K} (hd : (keys d).Nodup) (k : κ) (v : K) : (keys (add d k v)).Nodup :=
  keys_set_nodup hd k _

theorem total_add {d : Dict κ K} (hd : (keys d).Nodup) (k : κ) (v : K) : total (add d k v) = total d + v := by
  induction d with
  | nil => simp [add, set, total]
  | cons kv d ih =>
    obtain ⟨a, w⟩ := kv
    simp only [keys, List.map_cons, List.nodup_cons] at hd
    by_cases ha : a = k
    · simp only [add, set, amount_cons, if_pos ha, total_cons]
      rw [add_right_comm]
    · have ih := ih hd.2
      simp only [add, set, amount_cons, if_neg ha, total_cons] at ih ⊢
      rw [ih, add_assoc]

theorem amount_addAll (kvs : List (κ × K)) : ∀ (d : Dict κ K) (k : κ),
    amount (addAll d kvs) k = amount d k + (kvs.map fun kv => if kv.1 = k then kv.2 else 0).sum := by
  induction kvs with
  | nil => intro d k; simp [addAll]
  | cons kv kvs ih =>
    intro d k
    show amount (addAll (add d kv.1 kv.2) kvs) k = _
    rw [ih, amount_add, List.map_cons, List.sum_cons, add_assoc]

theorem keys_addAll_nodup (kvs : List (κ × K)) : ∀ {d : Dict κ K}, (keys d).Nodup → (keys (addAll d kvs)).Nodup := by
  induction kvs with
  | nil => intro d hd; exact hd
  | cons kv kvs ih => intro d hd; exact ih (keys_add_nodup hd kv.1 kv.2)

theorem mem_keys_addAll (kvs : List (κ × K)) : ∀ {d : Dict κ K} {k : κ},
    k ∈ keys (addAll d kvs) ↔ k ∈ keys d ∨ k ∈ kvs.map Prod.fst := by
  induction kvs with
  | nil => simp [addAll]
  | cons kv kvs ih =>
    intro d k
    have hset : k ∈ keys (add d kv.1 kv.2) ↔ k = kv.1 ∨ k ∈ keys d := by
      rw [add, mem_keys_iff, mem_keys_iff, get?_set]
      by_cases h : kv.1 = k
      · simp [h]
      · have : ¬ k = kv.1 := fun e => h e.symm
        simp [h, this]
    have hstep : addAll d (kv :: kvs) = addAll (add d kv.1 kv.2) kvs := rfl
    rw [hstep, ih, hset, List.map_cons, List.mem_cons]
    tauto

theorem total_addAll (kvs : List (κ × K)) : ∀ {d : Dict κ K}, (keys d).Nodup →
    total (addAll d kvs) = total d + (kvs.map Prod.snd).sum := by
  induction kvs with
  | nil => intro d _; simp [addAll]
  | cons kv kvs ih =>
    intro d hd
    show total (addAll (add d kv.1 kv.2) kvs) = _
    rw [ih (keys_add_nodup hd _ _), total_add hd, List.map_cons, List.sum_cons, add_assoc]

/-- Among pairs with distinct keys one at most has the key. -/
theorem sum_ite_eq_amount {d : Dict κ K} (hd : (keys d).Nodup) (k : κ) :
    (d.map fun kv => if kv.1 = k then kv.2 else 0).sum = amount d k := by
  induction d with
  | nil => rfl
  | cons kv d ih =>
    obtain ⟨a, w⟩ := kv
    simp only [keys, List.map_cons, List.nodup_cons] at hd
    rw [List.map_cons, List.sum_cons, ih hd.2, amount_cons]
    by_cases ha : a = k
    · simp only [if_pos ha]
      rw [amount_of_not_mem (ha ▸ hd.1), add_zero]
    · simp only [if_neg ha, zero_add]

/-- Keys that fail the test are read as 0. -/
theorem amount_filter_key (p : κ → Bool) (d : Dict κ K) (k : κ) :
    amount (d.filter fun kv => p kv.1) k = if p k then amount d k else 0 := by
  induction d with
  | nil => simp
  | cons kv d ih =>
    obtain ⟨a, w⟩ := kv
    by_cases hpa : p a = true
    · rw [List.filter_cons_of_pos (by simpa using hpa), amount_cons, amount_cons, ih]
      by_cases ha : a = k
      · rw [if_pos ha, if_pos ha, if_pos (ha ▸ hpa)]
      · rw [if_neg ha, if_neg ha]
    · rw [List.filter_cons_of_neg (by simpa using hpa), ih, amount_cons]
      by_cases ha : a = k
      · have hpk : ¬ p k = true := ha ▸ hpa
        rw [if_neg hpk, if_neg hpk]
      · rw [if_neg ha]

/-- Taking a key out takes its amount out of the total. -/
theorem total_erase {d : Dict κ K} (hd : (keys d).Nodup) (k : κ) :
    total (d.filter fun kv => decide (kv.1 ≠ k)) + amount d k = total d := by
  induction d with
  | nil => simp
  | cons kv d ih =>
    obtain ⟨a, w⟩ := kv
    simp only [keys, List.map_cons, List.nodup_cons] at hd
    have ih := ih hd.2
    by_cases ha : a = k
    · have h0 : amount d k = 0 := amount_of_not_mem (ha ▸ hd.1)
      rw [List.filter_cons_of_neg (by simpa using ha), amount_cons, if_pos ha, total_cons, ← ih, h0, add_zero,
        add_comm]
    · rw [List.filter_cons_of_pos (by simpa using ha), amount_cons, if_neg ha, total_cons, total_cons, add_assoc, ih]

theorem keys_filter_nodup {ν : Type} {d : Dict κ ν} (hd : (keys d).Nodup) (p : κ × ν → Bool) :
    (keys (d.filter p)).Nodup := (List.filter_sublist.map Prod.fst).nodup hd

/-- A change of the amounts that fixes 0 changes each amount. -/
theorem amount_map_value {L : Type} [AddCommMonoid L] (f : K → L) (hf : f 0 = 0) (d : Dict κ K) (k : κ) :
    amount (d.map fun kv => (kv.1, f kv.2)) k = f (amount d k) := by
  induction d with
  | nil => exact hf.symm
  | cons kv d ih =>
    obtain ⟨a, w⟩ := kv
    rw [List.map_cons, amount_cons, amount_cons, ih]
    split <;> rfl

end Amounts

theorem total_map_mul [Semiring K] (c : K) (d : Dict κ K) : total (d.map fun kv => (kv.1, kv.2 * c)) = total d * c := by
  induction d with
  | nil => simp
  | cons kv d ih => rw [List.map_cons, total_cons, total_cons, ih, add_mul]

/-! ## Non-negative amounts -/

section Ordered

variable [AddCommMonoid K] [LinearOrder K]

/-- The entries with a positive amount. -/
def positives (d : Dict κ K) : Dict κ K := d.filter fun kv => decide (0 < kv.2)

theorem total_positives {d : Dict κ K} (hd : ∀ kv ∈ d, 0 ≤ kv.2) : total (positives d) = total d := by
  induction d with
  | nil => rfl
  | cons kv d ih =>
    have ih := ih fun kv h => hd kv (List.mem_cons_of_mem _ h)
    rcases (hd kv List.mem_cons_self).eq_or_lt with h | h
    · rw [positives, List.filter_cons_of_neg (by simp [← h]), total_cons, ← h, zero_add]
      exact ih
    · rw [positives, List.filter_cons_of_pos (by simpa using h), total_cons, total_cons]
      exact congrArg _ ih

theorem amount_positives {d : Dict κ K} (hd : ∀ kv ∈ d, 0 ≤ kv.2) (hk : (keys d).Nodup) (k : κ) :
    amount (positives d) k = amount d k := by
  cases hg : get? d k with
  | none =>
    rw [amount_of_not_mem (get?_eq_none_iff.1 hg), amount_of_not_mem]
    exact fun hm => get?_eq_none_iff.1 hg ((List.filter_sublist.map Prod.fst).subset hm)
  | some v =>
    have hm := mem_of_get? hg
    rw [amount_of_mem hk hm]
    rcases (show 0 ≤ v from hd _ hm).eq_or_lt with h | h
    · rw [amount_of_not_mem, ← h]
      intro hmem
      obtain ⟨kv, hkv, rfl⟩ := List.mem_map.1 hmem
      have hpos : 0 < kv.2 := by simpa using (List.mem_filter.1 hkv).2
      have := (amount_of_mem hk (List.mem_of_mem_filter hkv)).symm.trans (amount_of_mem hk hm)
      exact absurd hpos (by rw [this, ← h]; exact lt_irrefl _)
    · exact amount_of_mem (keys_filter_nodup hk _) (List.mem_filter.2 ⟨hm, by simpa using h⟩)

variable [IsOrderedAddMonoid K]

theorem total_nonneg {d : Dict κ K} (hd : ∀ kv ∈ d, 0 ≤ kv.2) : 0 ≤ total d := by
  refine List.sum_nonneg fun x hx => ?_
  obtain ⟨kv, hkv, rfl⟩ := List.mem_map.1 hx
  exact hd kv hkv

theorem total_pos {d : Dict κ K} (hne : d ≠ []) (hd : ∀ kv ∈ d, 0 < kv.2) : 0 < total d := by
  refine List.sum_pos _ (fun x hx => ?_) (by simpa using hne)
  obtain ⟨kv, hkv, rfl⟩ := List.mem_map.1 hx
  exact hd kv hkv

theorem amount_nonneg {d : Dict κ K} (hd : ∀ kv ∈ d, 0 ≤ kv.2) (k : κ) : 0 ≤ amount d k := by
  unfold amount
  cases hg : get? d k with
  | none => exact le_refl 0
  | some v => exact hd _ (mem_of_get? hg)

/-- Adding positive amounts to positive ones leaves them positive. -/
theorem addAll_pos (kvs : List (κ × K)) (hkvs : ∀ kv ∈ kvs, 0 < kv.2) : ∀ {d : Dict κ K}, (keys d).Nodup →
    (∀ kv ∈ d, 0 < kv.2) → ∀ kv ∈ addAll d kvs, 0 < kv.2 := by
  induction kvs with
  | nil => intro d _ hd; exact hd
  | cons kv kvs ih =>
    intro d hk hd
    refine ih (fun kv h => hkvs kv (List.mem_cons_of_mem _ h)) (keys_add_nodup hk _ _) ?_
    intro kv' hkv'
    have hget := amount_of_mem (keys_add_nodup hk kv.1 kv.2) hkv'
    rw [amount_add] at hget
    have hv := hkvs kv List.mem_cons_self
    rcases eq_or_ne kv.1 kv'.1 with he | he
    · have hnonneg := amount_nonneg (fun kv h => (hd kv h).le) kv'.1
      rw [if_pos he] at hget
      exact hget ▸ lt_of_lt_of_le hv (le_add_of_nonneg_left hnonneg)
    · rw [if_neg he, add_zero] at hget
      have hm : kv'.1 ∈ keys d := by
        have : kv'.1 ∈ keys (add d kv.1 kv.2) := List.mem_map_of_mem hkv'
        obtain ⟨v, hv⟩ := mem_keys_iff.1 this
        rw [add, get?_set, if_neg he] at hv
        exact mem_keys_iff.2 ⟨v, hv⟩
      obtain ⟨v, hv⟩ := mem_keys_iff.1 hm
      have hmem := mem_of_get? hv
      rw [amount_of_mem hk hmem] at hget
      exact hget ▸ hd _ hmem

end Ordered

end Dict

end Kit

import DittoSubnet.Treasury.Receipts

/-!
# An earning, leg by leg

`plan_service_distribution` splits a finalized earning, and finalized legs pay the parts, each in as many pieces as it
takes; `remaining_distribution` says what is left.

* `getElem?_splitAmounts`: a part is its floor, or one more where its remainder is rounded up.
* `splitService_perm`: the order of the destinations does not matter.
* `remainingDistribution_eq_ok_iff`: which legs are accepted, and what they leave.
* `remainingDistribution_append`: the legs can be counted in pieces, each from what the ones before it left.
* `service_split_exact`: the split is the exact one, and no sequence of partial legs loses or adds anything.
-/

namespace DittoSubnet.Treasury

open Kit

/-! ## The split -/

/-- Which destinations the checked split accepts, and its result. -/
theorem planServiceDistribution_eq_ok_iff {attributed available : ℕ} {collectorColdkey : String}
    {destinations : List ServiceDestination} {parts : List ServiceDistribution} :
    planServiceDistribution attributed available collectorColdkey destinations = .ok parts ↔
      attributed ≤ available ∧ ValidDestinations collectorColdkey destinations ∧
        parts = splitService attributed destinations := by
  unfold planServiceDistribution
  simp only [ensure_bind_eq_ok_iff, pure_eq_ok_iff]
  constructor
  · rintro ⟨hle, hrequired, hbuckets, hwallets, heach, hpool, rfl⟩
    exact ⟨hle, ⟨hrequired, hbuckets, hwallets, heach, hpool⟩, rfl⟩
  · rintro ⟨hle, hvalid, rfl⟩
    exact ⟨hle, hvalid.required, hvalid.buckets, hvalid.wallets, hvalid.each, hvalid.pool, rfl⟩

theorem ValidDestinations.perm {collectorColdkey : String} {destinations destinations' : List ServiceDestination}
    (h : ValidDestinations collectorColdkey destinations) (hp : destinations.Perm destinations') :
    ValidDestinations collectorColdkey destinations' where
  required := ⟨h.required.1, fun he => h.required.2.1 (by rw [he] at hp; exact hp.eq_nil), by
    rw [← hp.length_eq]
    exact h.required.2.2⟩
  buckets := (hp.map _).nodup_iff.1 h.buckets
  wallets := (hp.map _).nodup_iff.1 h.wallets
  each := fun d hd => h.each d (hp.mem_iff.2 hd)
  pool := by
    rw [← (hp.map _).sum_eq]
    exact h.pool

/-- The destinations with a share do not depend on the order they come in. -/
theorem orderedDestinations_perm {destinations destinations' : List ServiceDestination}
    (hbuckets : (destinations.map (·.bucketId)).Nodup) (hp : destinations.Perm destinations') :
    orderedDestinations destinations = orderedDestinations destinations' := by
  refine sortOn_eq_of_perm ?_ (hp.filter _)
  intro d hd d' hd' he
  exact List.inj_on_of_nodup_map hbuckets (List.mem_of_mem_filter hd) (List.mem_of_mem_filter hd') he

theorem splitService_perm {destinations destinations' : List ServiceDestination}
    (hbuckets : (destinations.map (·.bucketId)).Nodup) (hp : destinations.Perm destinations') (amount : ℕ) :
    splitService amount destinations = splitService amount destinations' := by
  have htotal : (destinations.map (·.allocationBps)).sum = (destinations'.map (·.allocationBps)).sum :=
    (hp.map _).sum_eq
  simp only [splitService, htotal, orderedDestinations_perm hbuckets hp]

/-- Distinct indices are rounded up once each. -/
theorem getElem?_foldl_modify (indices : List ℕ) : ∀ (l : List ℕ), indices.Nodup → ∀ i,
    (indices.foldl (fun l i => l.modify i (· + 1)) l)[i]? = l[i]?.map (· + if i ∈ indices then 1 else 0) := by
  induction indices with
  | nil => intro l _ i; simp
  | cons j indices ih =>
    intro l hnodup i
    obtain ⟨hj, hnodup⟩ := List.nodup_cons.1 hnodup
    rw [List.foldl_cons, ih _ hnodup, List.getElem?_modify]
    by_cases hji : j = i
    · subst hji
      simp [hj, Function.comp_def]
    · have hij : i ≠ j := fun h => hji h.symm
      simp [hji, hij]

theorem nodup_remainderOrder (amount total : ℕ) (ordered : List ServiceDestination) :
    (remainderOrder amount total ordered).Nodup := (sortOn_perm _ _).nodup_iff.2 List.nodup_range

/-- The amount of a destination: its floor, and one more where it is rounded up. -/
theorem getElem?_splitAmounts (amount total : ℕ) (ordered : List ServiceDestination) (i : ℕ) :
    (splitAmounts amount total ordered)[i]? = ordered[i]?.map fun d => amount * d.allocationBps / total +
      if i ∈ (remainderOrder amount total ordered).take
        (amount - (ordered.map fun d => amount * d.allocationBps / total).sum) then 1 else 0 := by
  have hnodup := (List.take_sublist (amount - (ordered.map fun d => amount * d.allocationBps / total).sum)
    (remainderOrder amount total ordered)).nodup (nodup_remainderOrder amount total ordered)
  simp only [splitAmounts]
  rw [getElem?_foldl_modify _ _ hnodup, List.getElem?_map, Option.map_map]
  rfl

theorem floor_or_succ_of_mem_zip {amount total : ℕ} {ordered : List ServiceDestination} {d : ServiceDestination}
    {share : ℕ} (h : (d, share) ∈ ordered.zip (splitAmounts amount total ordered)) :
    share = amount * d.allocationBps / total ∨ share = amount * d.allocationBps / total + 1 := by
  obtain ⟨i, hi⟩ := List.mem_iff_getElem?.1 h
  obtain ⟨hd, hshare⟩ := List.getElem?_zip_eq_some.1 hi
  rw [getElem?_splitAmounts, hd, Option.map_some] at hshare
  have hshare := Option.some.inj hshare
  split at hshare
  · exact .inr hshare.symm
  · exact .inl hshare.symm

/-! ## What a bucket is allotted -/

/-- What the parts hold for a bucket. -/
def allotted (parts : List ServiceDistribution) (bucket : String) : ℕ :=
  Dict.amount (parts.map fun part => (part.bucketId, part.alphaRao)) bucket

section Allotted

variable {parts : List ServiceDistribution} {bucket : String}

theorem keys_parts (parts : List ServiceDistribution) :
    Dict.keys (parts.map fun part => (part.bucketId, part.alphaRao)) = parts.map (·.bucketId) := by
  simp [Dict.keys]

theorem allotted_of_mem (hparts : (parts.map (·.bucketId)).Nodup) {part : ServiceDistribution} (h : part ∈ parts) :
    allotted parts part.bucketId = part.alphaRao :=
  Dict.amount_of_mem (by rw [keys_parts]; exact hparts) (List.mem_map.2 ⟨part, h, rfl⟩)

theorem allotted_of_not_mem (h : bucket ∉ parts.map (·.bucketId)) : allotted parts bucket = 0 :=
  Dict.amount_of_not_mem (by rw [keys_parts]; exact h)

end Allotted

section Split

variable {collectorColdkey : String} {destinations : List ServiceDestination}

theorem mem_orderedDestinations {d : ServiceDestination} :
    d ∈ orderedDestinations destinations ↔ d ∈ destinations ∧ d.allocationBps ≠ 0 := by
  simp [orderedDestinations]

/-- Over distinct entries a zip is a function. -/
theorem eq_of_mem_zip {α β : Type} {l : List α} {m : List β} {a : α} {b b' : β} (hl : l.Nodup)
    (h : (a, b) ∈ l.zip m) (h' : (a, b') ∈ l.zip m) : b = b' := by
  obtain ⟨i, hi⟩ := List.mem_iff_getElem?.1 h
  obtain ⟨j, hj⟩ := List.mem_iff_getElem?.1 h'
  obtain ⟨hai, hbi⟩ := List.getElem?_zip_eq_some.1 hi
  obtain ⟨haj, hbj⟩ := List.getElem?_zip_eq_some.1 hj
  obtain ⟨hi, hai⟩ := List.getElem?_eq_some_iff.1 hai
  obtain ⟨hj, haj⟩ := List.getElem?_eq_some_iff.1 haj
  obtain rfl := (hl.getElem_inj_iff).1 (hai.trans haj.symm)
  exact Option.some.inj (hbi.symm.trans hbj)

/-- A destination is allotted its entry of the amounts. -/
theorem allotted_splitService (h : ValidDestinations collectorColdkey destinations) {amount : ℕ}
    {d : ServiceDestination} {share : ℕ}
    (hmem : (d, share) ∈ (orderedDestinations destinations).zip (splitAmounts amount
      (destinations.map (·.allocationBps)).sum (orderedDestinations destinations))) :
    allotted (splitService amount destinations) d.bucketId = share := by
  by_cases hshare : share = 0
  · rw [hshare]
    refine allotted_of_not_mem ?_
    intro hbucket
    obtain ⟨part, hpart, hsame⟩ := List.mem_map.1 hbucket
    obtain ⟨⟨d', share'⟩, hda, rfl⟩ := List.mem_map.1 hpart
    obtain ⟨hzip, hne⟩ := List.mem_filter.1 hda
    -- Distinct buckets: the two entries of the amounts are one.
    have hd : d ∈ destinations := (mem_orderedDestinations.1 (List.of_mem_zip hmem).1).1
    have hd' : d' ∈ destinations := (mem_orderedDestinations.1 (List.of_mem_zip hzip).1).1
    obtain rfl := List.inj_on_of_nodup_map h.buckets hd' hd hsame
    have hnodup : (orderedDestinations destinations).Nodup :=
      (sortOn_perm _ _).nodup_iff.2 (List.filter_sublist.nodup (List.Nodup.of_map _ h.buckets))
    have hzero := eq_of_mem_zip hnodup hmem hzip
    simp [← hzero, hshare] at hne
  · have hpart : (⟨d.bucketId, d.holdingColdkey, share⟩ : ServiceDistribution) ∈ splitService amount destinations :=
      List.mem_map.2 ⟨(d, share), List.mem_filter.2 ⟨hmem, by simpa using hshare⟩, rfl⟩
    exact allotted_of_mem (nodup_splitService h amount) hpart

/-- A destination without a share is not paid. -/
theorem allotted_splitService_zero (h : ValidDestinations collectorColdkey destinations) (amount : ℕ)
    {d : ServiceDestination} (hd : d ∈ destinations) (hbps : d.allocationBps = 0) :
    allotted (splitService amount destinations) d.bucketId = 0 := by
  refine allotted_of_not_mem ?_
  intro hbucket
  obtain ⟨part, hpart, hsame⟩ := List.mem_map.1 hbucket
  obtain ⟨-, d', hd', hbucket', -, hbps'⟩ := mem_splitService hpart
  obtain rfl := List.inj_on_of_nodup_map h.buckets hd' hd (hbucket'.trans hsame)
  omega

/-- Every destination is allotted the floor of its share, or one more. -/
theorem allotted_splitService_floor (h : ValidDestinations collectorColdkey destinations) (amount : ℕ)
    {d : ServiceDestination} (hd : d ∈ destinations) :
    allotted (splitService amount destinations) d.bucketId =
        amount * d.allocationBps / (destinations.map (·.allocationBps)).sum ∨
      allotted (splitService amount destinations) d.bucketId =
        amount * d.allocationBps / (destinations.map (·.allocationBps)).sum + 1 := by
  by_cases hbps : d.allocationBps = 0
  · left
    rw [allotted_splitService_zero h amount hd hbps, hbps, Nat.mul_zero, Nat.zero_div]
  · obtain ⟨i, hi, hdi⟩ := List.getElem_of_mem (mem_orderedDestinations.2 ⟨hd, hbps⟩)
    have hlen := length_splitAmounts amount (destinations.map (·.allocationBps)).sum (orderedDestinations destinations)
    have hshare : i < (splitAmounts amount (destinations.map (·.allocationBps)).sum
        (orderedDestinations destinations)).length := by omega
    have hmem : (d, (splitAmounts amount (destinations.map (·.allocationBps)).sum
        (orderedDestinations destinations))[i]) ∈ (orderedDestinations destinations).zip
          (splitAmounts amount (destinations.map (·.allocationBps)).sum (orderedDestinations destinations)) := by
      refine List.mem_iff_getElem?.2 ⟨i, List.getElem?_zip_eq_some.2 ⟨?_, List.getElem?_eq_getElem hshare⟩⟩
      rw [List.getElem?_eq_getElem hi, hdi]
    rw [allotted_splitService h hmem]
    exact floor_or_succ_of_mem_zip hmem

end Split

/-! ## Partial legs -/

/-- A finalized leg of a part: it pays the wallet of the part a positive amount. -/
structure LegOf (part : ServiceDistribution) (op : Operation) : Prop where
  role : op.role = .transfer
  finalized : op.state = .finalized
  bucket : op.bucket = some part.bucketId
  destination : op.destination = some part.holdingColdkey
  pays : 0 < op.amount

/-- What the legs leave of the parts. -/
def unpaid (parts : List ServiceDistribution) (ops : List Operation) : List ServiceDistribution :=
  parts.filterMap fun part =>
    if paidInto part.bucketId ops < part.alphaRao then
      some { part with alphaRao := part.alphaRao - paidInto part.bucketId ops }
    else none

section Legs

variable {parts remaining : List ServiceDistribution} {ops : List Operation}

theorem paidInto_cons (bucket : String) (op : Operation) (ops : List Operation) :
    paidInto bucket (op :: ops) = (if op.bucket = some bucket then op.amount else 0) + paidInto bucket ops := by
  simp [paidInto]

/-- A leg takes what it pays from its own bucket only. -/
theorem LegOf.paidInto {part : ServiceDistribution} {op : Operation} (h : LegOf part op) (bucket : String)
    (ops : List Operation) :
    paidInto bucket (op :: ops) = (if part.bucketId = bucket then op.amount else 0) + Treasury.paidInto bucket ops := by
  rw [paidInto_cons, h.bucket]
  simp

/-- One leg is accepted when it is one of a part and keeps within it. -/
theorem paidStep_eq_ok_iff (hparts : (parts.map (·.bucketId)).Nodup) {paid paid' : Dict String ℕ} {op : Operation} :
    paidStep parts paid op = .ok paid' ↔ ∃ part ∈ parts, LegOf part op ∧
      paid.amount part.bucketId + op.amount ≤ part.alphaRao ∧ paid' = paid.add part.bucketId op.amount := by
  unfold paidStep
  constructor
  · intro h
    split at h
    · cases h
    · rename_i part hfound
      simp only [ensure_bind_eq_ok_iff, pure_eq_ok_iff, Dict.amount_add, if_pos] at h
      obtain ⟨⟨hrole, hstate, hwallet, hpays⟩, hle, rfl⟩ := h
      have hbucket : some part.bucketId = op.bucket := by simpa using List.find?_some hfound
      exact ⟨part, List.mem_of_find?_eq_some hfound, ⟨hrole, hstate, hbucket.symm, hwallet, hpays⟩, hle, rfl⟩
  · rintro ⟨part, hpart, hleg, hle, rfl⟩
    have hfound : (parts.find? fun p => some p.bucketId = op.bucket) = some part := by
      cases hfind : parts.find? fun p => some p.bucketId = op.bucket with
      | none =>
        have := List.find?_eq_none.1 hfind part hpart
        simp [hleg.bucket] at this
      | some p =>
        have hbucket : some p.bucketId = op.bucket := by simpa using List.find?_some hfind
        rw [hleg.bucket] at hbucket
        exact congrArg some (List.inj_on_of_nodup_map hparts (List.mem_of_find?_eq_some hfind) hpart
          (Option.some.inj hbucket))
    simp only [hfound, ensure_bind_eq_ok_iff, pure_eq_ok_iff, Dict.amount_add, if_pos]
    exact ⟨⟨hleg.role, hleg.finalized, hleg.destination, hleg.pays⟩, hle, trivial⟩

/-- The loop accepts the legs of the parts that keep within them, and adds them up. -/
theorem foldlM_paidStep_eq_ok_iff (hparts : (parts.map (·.bucketId)).Nodup) : ∀ (ops : List Operation)
    {paid paid' : Dict String ℕ}, (∀ part ∈ parts, paid.amount part.bucketId ≤ part.alphaRao) →
    (ops.foldlM (paidStep parts) paid = .ok paid' ↔ (∀ op ∈ ops, ∃ part ∈ parts, LegOf part op) ∧
      (∀ part ∈ parts, paid.amount part.bucketId + paidInto part.bucketId ops ≤ part.alphaRao) ∧
      paid' = paid.addAll (ops.map fun op => (op.bucket.getD "", op.amount))) := by
  intro ops
  induction ops with
  | nil =>
    intro paid paid' hwithin
    simp only [List.foldlM_nil, pure_eq_ok_iff]
    constructor
    · rintro rfl
      exact ⟨fun op hop => absurd hop List.not_mem_nil, hwithin, rfl⟩
    · rintro ⟨-, -, rfl⟩
      rfl
  | cons op ops ih =>
    intro paid paid' hwithin
    -- After a leg of a part that keeps within it, every part is still within its share.
    have hnext : ∀ part ∈ parts, paid.amount part.bucketId + op.amount ≤ part.alphaRao →
        ∀ p ∈ parts, (paid.add part.bucketId op.amount).amount p.bucketId ≤ p.alphaRao := by
      intro part hpart hle p hp
      rw [Dict.amount_add]
      by_cases hsame : part.bucketId = p.bucketId
      · obtain rfl := List.inj_on_of_nodup_map hparts hpart hp hsame
        simpa using hle
      · rw [if_neg hsame, Nat.add_zero]
        exact hwithin p hp
    rw [List.foldlM_cons, bind_eq_ok_iff]
    simp only [paidStep_eq_ok_iff hparts]
    constructor
    · rintro ⟨-, ⟨part, hpart, hleg, hle, rfl⟩, hrest⟩
      obtain ⟨hlegs, hsum, rfl⟩ := (ih (hnext part hpart hle)).1 hrest
      refine ⟨?_, ?_, ?_⟩
      · intro o ho
        rcases List.mem_cons.1 ho with rfl | ho
        · exact ⟨part, hpart, hleg⟩
        · exact hlegs o ho
      · intro p hp
        have := hsum p hp
        rw [Dict.amount_add, Nat.add_assoc] at this
        rw [hleg.paidInto]
        exact this
      · simp [Dict.addAll, hleg.bucket]
    · rintro ⟨hlegs, hsum, rfl⟩
      obtain ⟨part, hpart, hleg⟩ := hlegs op List.mem_cons_self
      have hle : paid.amount part.bucketId + op.amount ≤ part.alphaRao := by
        have := hsum part hpart
        rw [hleg.paidInto, if_pos rfl] at this
        omega
      refine ⟨_, ⟨part, hpart, hleg, hle, rfl⟩, (ih (hnext part hpart hle)).2 ⟨?_, ?_, ?_⟩⟩
      · exact fun o ho => hlegs o (List.mem_cons_of_mem _ ho)
      · intro p hp
        have := hsum p hp
        rw [hleg.paidInto] at this
        rw [Dict.amount_add, Nat.add_assoc]
        exact this
      · simp [Dict.addAll, hleg.bucket]

/-- Which legs are accepted, and what they leave. -/
theorem remainingDistribution_eq_ok_iff (hparts : (parts.map (·.bucketId)).Nodup) :
    remainingDistribution parts ops = .ok remaining ↔ (∀ op ∈ ops, ∃ part ∈ parts, LegOf part op) ∧
      (∀ part ∈ parts, paidInto part.bucketId ops ≤ part.alphaRao) ∧ remaining = unpaid parts ops := by
  have hzero : ∀ part ∈ parts,
      Dict.amount (parts.map fun part => (part.bucketId, 0)) part.bucketId ≤ part.alphaRao := by
    intro part _
    rw [amount_unpaid]
    exact Nat.zero_le _
  constructor
  · intro h
    obtain ⟨-, -, hwithin, hunpaid⟩ := remainingDistribution_spec hparts h
    unfold remainingDistribution at h
    obtain ⟨paid, hloop, -⟩ := bind_eq_ok_iff.1 h
    exact ⟨((foldlM_paidStep_eq_ok_iff hparts ops hzero).1 hloop).1, hwithin, hunpaid⟩
  · rintro ⟨hlegs, hwithin, rfl⟩
    have hloop := (foldlM_paidStep_eq_ok_iff hparts ops hzero).2
      ⟨hlegs, by simpa only [amount_unpaid, Nat.zero_add] using hwithin, rfl⟩
    have hok : ∃ remaining, remainingDistribution parts ops = .ok remaining := by
      unfold remainingDistribution
      rw [hloop]
      exact ⟨_, rfl⟩
    obtain ⟨remaining, hremaining⟩ := hok
    rw [hremaining, (remainingDistribution_spec hparts hremaining).2.2.2]
    rfl

theorem mem_unpaid {part : ServiceDistribution} : part ∈ unpaid parts ops ↔ ∃ p ∈ parts,
    paidInto p.bucketId ops < p.alphaRao ∧ { p with alphaRao := p.alphaRao - paidInto p.bucketId ops } = part := by
  simp [unpaid, List.mem_filterMap]

theorem unpaid_sublist (parts : List ServiceDistribution) (ops : List Operation) :
    ((unpaid parts ops).map (·.bucketId)).Sublist (parts.map (·.bucketId)) := by
  induction parts with
  | nil => exact List.Sublist.refl _
  | cons part parts ih =>
    unfold unpaid at ih ⊢
    rw [List.filterMap_cons]
    split
    · exact ih.cons _
    · rename_i p hp
      split at hp
      · rw [← Option.some.inj hp]
        exact ih.cons_cons _
      · cases hp

/-- What is left of what is left is what all the legs leave. -/
theorem unpaid_unpaid (parts : List ServiceDistribution) (ops more : List Operation) :
    unpaid (unpaid parts ops) more = unpaid parts (ops ++ more) := by
  unfold unpaid
  rw [List.filterMap_filterMap]
  refine List.filterMap_congr ?_
  intro part _
  rw [paidInto_append]
  by_cases hops : paidInto part.bucketId ops < part.alphaRao
  · simp only [if_pos hops, Option.bind_some]
    by_cases hmore : paidInto part.bucketId more < part.alphaRao - paidInto part.bucketId ops
    · rw [if_pos hmore, if_pos (by omega), Nat.sub_sub]
    · rw [if_neg hmore, if_neg (by omega)]
  · rw [if_neg hops, if_neg (by omega)]
    rfl

theorem le_paidInto {op : Operation} {bucket : String} (hop : op ∈ ops) (hbucket : op.bucket = some bucket) :
    op.amount ≤ paidInto bucket ops := by
  refine List.single_le_sum (fun _ _ => Nat.zero_le _) _ (List.mem_map.2 ⟨op, hop, ?_⟩)
  rw [if_pos hbucket]

/-- Legs can be counted in pieces: the later ones from what the earlier ones left. -/
theorem remainingDistribution_append (hparts : (parts.map (·.bucketId)).Nodup)
    (h : remainingDistribution parts ops = .ok remaining) {more : List Operation} {left : List ServiceDistribution} :
    remainingDistribution parts (ops ++ more) = .ok left ↔ remainingDistribution remaining more = .ok left := by
  obtain ⟨hlegs, hwithin, rfl⟩ := (remainingDistribution_eq_ok_iff hparts).1 h
  rw [remainingDistribution_eq_ok_iff hparts,
    remainingDistribution_eq_ok_iff ((unpaid_sublist parts ops).nodup hparts), unpaid_unpaid]
  simp only [paidInto_append]
  constructor
  · rintro ⟨hall, hsum, rfl⟩
    refine ⟨?_, ?_, rfl⟩
    · intro op hop
      obtain ⟨part, hpart, hleg⟩ := hall op (List.mem_append_right _ hop)
      -- The leg pays something, so something was left.
      have hpays := le_paidInto hop hleg.bucket
      have := hsum part hpart
      have := hleg.pays
      exact ⟨_, mem_unpaid.2 ⟨part, hpart, by omega, rfl⟩, ⟨hleg.role, hleg.finalized, hleg.bucket, hleg.destination,
        hleg.pays⟩⟩
    · intro part hpart
      obtain ⟨p, hp, hlt, rfl⟩ := mem_unpaid.1 hpart
      have := hsum p hp
      simp only
      omega
  · rintro ⟨hmore, hsum, rfl⟩
    refine ⟨?_, ?_, rfl⟩
    · intro op hop
      rcases List.mem_append.1 hop with hop | hop
      · exact hlegs op hop
      · obtain ⟨part, hpart, hleg⟩ := hmore op hop
        obtain ⟨p, hp, hlt, rfl⟩ := mem_unpaid.1 hpart
        exact ⟨p, hp, ⟨hleg.role, hleg.finalized, hleg.bucket, hleg.destination, hleg.pays⟩⟩
    · intro part hpart
      by_cases hlt : paidInto part.bucketId ops < part.alphaRao
      · have := hsum _ (mem_unpaid.2 ⟨part, hpart, hlt, rfl⟩)
        simp only at this
        omega
      · -- A part that is paid in full takes no further leg.
        have hnone : paidInto part.bucketId more = 0 := by
          refine List.sum_eq_zero ?_
          intro x hx
          obtain ⟨op, hop, rfl⟩ := List.mem_map.1 hx
          refine if_neg ?_
          intro hbucket
          obtain ⟨part', hpart', hleg⟩ := hmore op hop
          obtain ⟨p, hp, hlt', rfl⟩ := mem_unpaid.1 hpart'
          have hsame : p.bucketId = part.bucketId := Option.some.inj (hleg.bucket.symm.trans hbucket)
          obtain rfl := List.inj_on_of_nodup_map hparts hp hpart hsame
          exact hlt hlt'
        have := hwithin part hpart
        omega

/-- What is left of a bucket. -/
theorem allotted_unpaid (hparts : (parts.map (·.bucketId)).Nodup) (ops : List Operation) (bucket : String) :
    allotted (unpaid parts ops) bucket = allotted parts bucket - paidInto bucket ops := by
  by_cases hbucket : bucket ∈ parts.map (·.bucketId)
  · obtain ⟨part, hpart, rfl⟩ := List.mem_map.1 hbucket
    rw [allotted_of_mem hparts hpart]
    by_cases hlt : paidInto part.bucketId ops < part.alphaRao
    · exact allotted_of_mem ((unpaid_sublist parts ops).nodup hparts) (mem_unpaid.2 ⟨part, hpart, hlt, rfl⟩)
    · rw [allotted_of_not_mem]
      · omega
      · intro hmem
        obtain ⟨p', hp', hsame⟩ := List.mem_map.1 hmem
        obtain ⟨p, hp, hlt', rfl⟩ := mem_unpaid.1 hp'
        obtain rfl := List.inj_on_of_nodup_map hparts hp hpart hsame
        exact hlt hlt'
  · rw [allotted_of_not_mem hbucket, allotted_of_not_mem fun h => hbucket ((unpaid_sublist parts ops).subset h)]
    omega

/-- Finalized legs, each of which pays at most what the ones before it left of its bucket. -/
inductive PartialLegs (parts : List ServiceDistribution) : List Operation → Prop
  | none : PartialLegs parts []
  | leg {ops : List Operation} {op : Operation} {remaining : List ServiceDistribution} {part : ServiceDistribution} :
    PartialLegs parts ops → remainingDistribution parts ops = .ok remaining → part ∈ remaining → LegOf part op →
      op.amount ≤ part.alphaRao → PartialLegs parts (ops ++ [op])

/-- Such a leg is accepted. -/
theorem remainingDistribution_leg (hparts : (parts.map (·.bucketId)).Nodup) {part : ServiceDistribution}
    {op : Operation} (hpart : part ∈ parts) (hleg : LegOf part op) (hle : op.amount ≤ part.alphaRao) :
    remainingDistribution parts [op] = .ok (unpaid parts [op]) := by
  refine (remainingDistribution_eq_ok_iff hparts).2 ⟨?_, ?_, rfl⟩
  · intro o ho
    rw [List.mem_singleton.1 ho]
    exact ⟨part, hpart, hleg⟩
  · intro p hp
    rw [hleg.paidInto]
    by_cases hsame : part.bucketId = p.bucketId
    · obtain rfl := List.inj_on_of_nodup_map hparts hpart hp hsame
      simpa [paidInto] using hle
    · simp [hsame, paidInto]

/-- Every such sequence is accepted, whether its legs are counted at once or one by one from what is left. -/
theorem PartialLegs.accepted (hparts : (parts.map (·.bucketId)).Nodup) (hpos : ∀ part ∈ parts, 0 < part.alphaRao)
    {ops : List Operation} (h : PartialLegs parts ops) : remainingDistribution parts ops = .ok (unpaid parts ops) ∧
      ops.foldlM (fun left op => remainingDistribution left [op]) parts = .ok (unpaid parts ops) := by
  induction h with
  | none =>
    have hnone : remainingDistribution parts [] = .ok (unpaid parts []) :=
      (remainingDistribution_eq_ok_iff hparts).2
        ⟨fun op hop => absurd hop List.not_mem_nil, fun part _ => Nat.zero_le _, rfl⟩
    have hall : unpaid parts [] = parts := by
      have hsome : parts.filterMap some = parts := List.filterMap_some
      conv_rhs => rw [← hsome]
      refine List.filterMap_congr ?_
      intro part hpart
      exact if_pos (hpos part hpart)
    exact ⟨hnone, by rw [hall]; rfl⟩
  | @leg ops op remaining part _ hremaining hpart hleg hle ih =>
    obtain ⟨-, hfold⟩ := ih
    obtain ⟨-, -, rfl⟩ := (remainingDistribution_eq_ok_iff hparts).1 hremaining
    have hone := remainingDistribution_leg ((unpaid_sublist parts ops).nodup hparts) hpart hleg hle
    rw [unpaid_unpaid] at hone
    refine ⟨(remainingDistribution_append hparts hremaining).2 hone, ?_⟩
    rw [List.foldlM_append, hfold]
    refine bind_eq_ok_iff.2 ⟨_, rfl, ?_⟩
    rw [List.foldlM_cons, hone]
    rfl

end Legs

/-- An accepted split is exact, and partial legs neither lose nor add anything: after each of them what is paid and
what is left of a bucket is its part, and nothing is left when every part is paid in full. -/
theorem service_split_exact {attributed available : ℕ} {collectorColdkey : String}
    {destinations : List ServiceDestination} {parts : List ServiceDistribution}
    (h : planServiceDistribution attributed available collectorColdkey destinations = .ok parts) :
    (parts.map (·.alphaRao)).sum = attributed ∧
    (∀ d ∈ destinations,
      allotted parts d.bucketId = attributed * d.allocationBps / (destinations.map (·.allocationBps)).sum ∨
      allotted parts d.bucketId = attributed * d.allocationBps / (destinations.map (·.allocationBps)).sum + 1) ∧
    (∀ part ∈ parts, 0 < part.alphaRao ∧ ∃ d ∈ destinations, d.bucketId = part.bucketId ∧
      d.holdingColdkey = part.holdingColdkey ∧ 0 < d.allocationBps) ∧
    (∀ d ∈ destinations, d.allocationBps = 0 → allotted parts d.bucketId = 0) ∧
    (∀ d ∈ destinations, ∀ d' ∈ destinations, d.allocationBps = d'.allocationBps →
      allotted parts d.bucketId ≤ allotted parts d'.bucketId + 1) ∧
    (∀ destinations', destinations.Perm destinations' →
      planServiceDistribution attributed available collectorColdkey destinations' = .ok parts) ∧
    ∀ ops, PartialLegs parts ops → ∃ remaining, remainingDistribution parts ops = .ok remaining ∧
      ops.foldlM (fun left op => remainingDistribution left [op]) parts = .ok remaining ∧
      (∀ bucket, paidInto bucket ops + allotted remaining bucket = allotted parts bucket) ∧
      (remaining = [] ↔ ∀ part ∈ parts, paidInto part.bucketId ops = part.alphaRao) := by
  obtain ⟨hle, hvalid, rfl⟩ := planServiceDistribution_eq_ok_iff.1 h
  have hnodup := nodup_splitService hvalid attributed
  refine ⟨sum_splitService hvalid attributed, fun d hd => allotted_splitService_floor hvalid attributed hd,
    fun part hpart => mem_splitService hpart, fun d hd hbps => allotted_splitService_zero hvalid attributed hd hbps,
    ?_, ?_, ?_⟩
  · intro d hd d' hd' hsame
    have hfloor := allotted_splitService_floor hvalid attributed hd
    have hfloor' := allotted_splitService_floor hvalid attributed hd'
    rw [hsame] at hfloor
    omega
  · intro destinations' hp
    refine planServiceDistribution_eq_ok_iff.2 ⟨hle, hvalid.perm hp, ?_⟩
    exact splitService_perm hvalid.buckets hp attributed
  · intro ops hops
    obtain ⟨haccepted, hfold⟩ := hops.accepted hnodup fun part hpart => (mem_splitService hpart).1
    obtain ⟨hlegs, hwithin, -⟩ := (remainingDistribution_eq_ok_iff hnodup).1 haccepted
    refine ⟨_, haccepted, hfold, ?_, ?_⟩
    · intro bucket
      rw [allotted_unpaid hnodup]
      by_cases hbucket : bucket ∈ (splitService attributed destinations).map (·.bucketId)
      · obtain ⟨part, hpart, rfl⟩ := List.mem_map.1 hbucket
        have := hwithin part hpart
        rw [allotted_of_mem hnodup hpart]
        omega
      · -- No leg pays a bucket outside the split.
        have hzero : paidInto bucket ops = 0 := by
          refine List.sum_eq_zero ?_
          intro x hx
          obtain ⟨op, hop, rfl⟩ := List.mem_map.1 hx
          refine if_neg ?_
          intro hpaid
          obtain ⟨part, hpart, hleg⟩ := hlegs op hop
          exact hbucket (List.mem_map.2 ⟨part, hpart, Option.some.inj (hleg.bucket.symm.trans hpaid)⟩)
        rw [hzero, allotted_of_not_mem hbucket]
    · rw [unpaid, List.filterMap_eq_nil_iff]
      refine forall₂_congr ?_
      intro part hpart
      have := hwithin part hpart
      rw [ite_eq_right_iff]
      constructor
      · intro hnone
        by_contra hne
        exact absurd (hnone (by omega)) (by simp)
      · intro heq hlt
        omega

/-- A leg that pays 39 of the 40 of its bucket. -/
def sampleLeg : Operation :=
  ⟨1, .finalized, .transfer, 39, some 10, some "bitsec", some "bitsec-wallet",
    .transferStake "bitsec-wallet" "collector-hotkey" 118 118 39, ⟨"", "", 11, 20, 0⟩, 11, none, 12⟩

/-- The two destinations of the sample. -/
def sampleDestinations : List ServiceDestination := [⟨"gm", 6000, "gm-wallet"⟩, ⟨"bitsec", 4000, "bitsec-wallet"⟩]

/-- What it is split into. -/
def sampleParts : List ServiceDistribution := [⟨"bitsec", "bitsec-wallet", 40⟩, ⟨"gm", "gm-wallet", 61⟩]

theorem service_split_exact_sample : (sampleParts.map (·.alphaRao)).sum = 101 ∧
    ∃ remaining, remainingDistribution sampleParts [sampleLeg] = .ok remaining ∧
      paidInto "bitsec" [sampleLeg] + allotted remaining "bitsec" = allotted sampleParts "bitsec" ∧ remaining ≠ [] := by
  have hplan : planServiceDistribution 101 101 "collector" sampleDestinations = .ok sampleParts := by decide +kernel
  obtain ⟨hsum, -, -, -, -, -, hlegs⟩ := service_split_exact hplan
  have hnothing : remainingDistribution sampleParts [] = .ok sampleParts := by decide
  have hleg : LegOf ⟨"bitsec", "bitsec-wallet", 40⟩ sampleLeg := ⟨rfl, rfl, rfl, rfl, by decide⟩
  have hpartial : PartialLegs sampleParts [sampleLeg] := .leg .none hnothing (by simp [sampleParts]) hleg (by decide)
  obtain ⟨remaining, hremaining, -, hbucket, hempty⟩ := hlegs _ hpartial
  refine ⟨hsum, remaining, hremaining, hbucket "bitsec", ?_⟩
  intro hnil
  have hpaid := hempty.1 hnil ⟨"gm", "gm-wallet", 61⟩ (by simp [sampleParts])
  exact absurd hpaid (by decide)

end DittoSubnet.Treasury

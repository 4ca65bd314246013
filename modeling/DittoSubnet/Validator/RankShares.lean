import DittoSubnet.Kit.Pooling
import DittoSubnet.Kit.Tally
import DittoSubnet.Validator.Crown

/-!
# Conservation of the rank shares

With `tie_pooling` on, `compute_weights` pays pairwise distinct hotkeys, pools the rank shares over ties and rewrites
the destination of the unpaid incumbent.

* `recipients_nodup`, `scoreCeilingCohort_nodup`: no hotkey occupies two slots.
* `payout_of_slots`, `payout_of_cohort`: the paid shares are the pooled rank shares, or equal parts of 1.
* `shareKey_injective`: on the ledger's rows the destination keys do not collide.
* `rank_shares_conserved`: what is paid in all, and to whom.
-/

namespace DittoSubnet.Validator

open Kit

variable {K : Type} [ExactArith K] {p : MemoryFoldParams K} {entries : List (LedgerEntry K)} {champ : LedgerEntry K}

/-! ## The occupied slots -/

theorem duelingAdjacentOrder_perm (ranked : List (LedgerEntry K)) : (duelingAdjacentOrder ranked).Perm ranked := by
  unfold duelingAdjacentOrder
  split
  · exact bubbleLoop_perm _ _
  · exact .refl ranked

/-- Before the comparison of neighbours the tail is cut from the distinct ranked rows. -/
theorem tail_perm (champ : LedgerEntry K) (tailSize : ℤ) (entries : List (LedgerEntry K)) :
    ∃ ranked : List (LedgerEntry K), (∀ e ∈ ranked, e ∈ entries) ∧
      (tail entries champ tailSize true).Perm
        ((distinctOn (·.minerHotkey) [champ.minerHotkey] ranked).take tailSize.toNat) := by
  refine ⟨sortOn (rankingKey (qualityPrimaryEfficiencyActive entries))
    (entries.filter fun e => e.minerHotkey ≠ champ.minerHotkey), ?_, ?_⟩
  · exact fun e he => (List.mem_filter.1 (mem_sortOn.1 he)).1
  · unfold tail
    by_cases hsize : tailSize ≤ 0
    · rw [if_pos hsize, Int.toNat_of_nonpos hsize]
      simp
    · rw [if_neg hsize, if_pos rfl]
      exact duelingAdjacentOrder_perm _

/-- The recipients of the slots. -/
def recipients (p : MemoryFoldParams K) (scored : List (LedgerEntry K)) (champ : LedgerEntry K) :
    List (LedgerEntry K) := champ :: tail scored champ p.tailSize true

theorem recipients_nodup (p : MemoryFoldParams K) (entries : List (LedgerEntry K)) (champ : LedgerEntry K) :
    ((recipients p entries champ).map (·.minerHotkey)).Nodup := by
  obtain ⟨ranked, -, hperm⟩ := tail_perm champ p.tailSize entries
  obtain ⟨hnodup, hnew⟩ := nodup_map_distinctOn (·.minerHotkey) [champ.minerHotkey] ranked
  rw [recipients, List.map_cons, List.nodup_cons]
  constructor
  · intro hmem
    obtain ⟨e, he, hkey⟩ := List.mem_map.1 hmem
    exact hnew e (List.mem_of_mem_take (hperm.mem_iff.1 he)) (by simpa using hkey)
  · rw [(hperm.map _).nodup_iff]
    exact ((List.take_sublist _ _).map _).nodup hnodup

theorem length_recipients_le (p : MemoryFoldParams K) (entries : List (LedgerEntry K)) (champ : LedgerEntry K) :
    (recipients p entries champ).length ≤ p.tailSize.toNat + 1 := by
  obtain ⟨ranked, -, hperm⟩ := tail_perm champ p.tailSize entries
  rw [recipients, List.length_cons, hperm.length_eq]
  exact Nat.succ_le_succ (List.length_take_le _ _)

theorem mem_of_mem_recipients (hchamp : champ ∈ entries) : ∀ e ∈ recipients p entries champ, e ∈ entries := by
  obtain ⟨ranked, hranked, hperm⟩ := tail_perm champ p.tailSize entries
  intro e he
  rcases List.mem_cons.1 he with rfl | he
  · exact hchamp
  · exact hranked e ((distinctOn_sublist _ _ _).subset (List.mem_of_mem_take (hperm.mem_iff.1 he)))

/-- The cohort is cut from the distinct ranked rows. -/
theorem scoreCeilingCohort_sublist (p : MemoryFoldParams K) (entries : List (LedgerEntry K)) (champ : LedgerEntry K) :
    (scoreCeilingCohort p entries champ).Sublist (distinctRanked entries) := by
  unfold scoreCeilingCohort
  split
  · exact List.nil_sublist _
  · split
    · rename_i anchor rest _ hranked
      split
      · dsimp only
        split
        · rw [hranked]
          exact (List.takeWhile_sublist _).cons_cons anchor
        · exact List.nil_sublist _
      · exact List.nil_sublist _
    · exact List.nil_sublist _

theorem scoreCeilingCohort_nodup (p : MemoryFoldParams K) (entries : List (LedgerEntry K)) (champ : LedgerEntry K) :
    ((scoreCeilingCohort p entries champ).map (·.minerHotkey)).Nodup :=
  ((scoreCeilingCohort_sublist p entries champ).map _).nodup (nodup_map_distinctOn _ [] (rankedEntries entries)).1

theorem mem_of_mem_cohort : ∀ e ∈ scoreCeilingCohort p entries champ, e ∈ entries := by
  intro e he
  have hdistinct := (scoreCeilingCohort_sublist p entries champ).subset he
  exact mem_sortOn.1 ((distinctOn_sublist _ _ _).subset hdistinct)

/-! ## The paid shares -/

theorem payout_of_slots (hpooling : p.tiePooling = true) (hcohort : scoreCeilingCohort p entries champ = []) :
    payout p entries champ = (recipients p entries champ).zip
      (averageRuns (weightTied p)
        ((recipients p entries champ).zip (p.rankShares.take (recipients p entries champ).length))) := by
  unfold payout poolTiedRankShares recipients
  simp [hpooling, hcohort]

theorem payout_of_cohort (hpooling : p.tiePooling = true) (hcohort : scoreCeilingCohort p entries champ ≠ []) :
    payout p entries champ = (scoreCeilingCohort p entries champ).zip
      (List.replicate (scoreCeilingCohort p entries champ).length
        (1 / ((scoreCeilingCohort p entries champ).length : K))) := by
  unfold payout
  simp [hpooling, hcohort]

/-- The rank shares of the occupied slots. -/
def slotShares (p : MemoryFoldParams K) (entries : List (LedgerEntry K)) (champ : LedgerEntry K) :
    List (LedgerEntry K × K) :=
  (recipients p entries champ).zip (p.rankShares.take (recipients p entries champ).length)

/-- Accepted rank shares. -/
structure AcceptedShares (p : MemoryFoldParams K) : Prop where
  length : (p.rankShares.length : ℤ) = p.tailSize + 1
  positive : ∀ share ∈ p.rankShares, 0 < share
  sum : |p.rankShares.sum - 1| ≤ 1 / 1000000000000

theorem acceptedShares_of_check (h : checkRankShares p = .ok ()) : AcceptedShares p := by
  unfold checkRankShares at h
  split at h
  · cases h
  · rename_i hlength
    split at h
    · cases h
    · rename_i hpositive
      split at h
      · rename_i hsum
        refine ⟨not_not.1 hlength, ?_, hsum⟩
        intro share hshare
        by_contra hle
        exact hpositive (List.any_eq_true.2 ⟨share, hshare, by simpa using hle⟩)
      · cases h

/-- Every recipient has a share. -/
theorem length_recipients_le_shares (h : AcceptedShares p) :
    (recipients p entries champ).length ≤ p.rankShares.length := by
  have hslots := length_recipients_le p entries champ
  have hlength := h.length
  have hne : p.rankShares.length ≠ 0 := by
    -- No shares at all do not sum to 1.
    intro hzero
    have hsum := h.sum
    rw [List.length_eq_zero_iff.1 hzero] at hsum
    norm_num at hsum
  omega

theorem map_fst_slotShares (h : AcceptedShares p) :
    (slotShares p entries champ).map Prod.fst = recipients p entries champ := by
  have hlength := @length_recipients_le_shares K _ p entries champ h
  exact List.map_fst_zip (by rw [List.length_take]; omega)

theorem map_snd_slotShares (p : MemoryFoldParams K) (entries : List (LedgerEntry K)) (champ : LedgerEntry K) :
    (slotShares p entries champ).map Prod.snd = p.rankShares.take (recipients p entries champ).length :=
  List.map_snd_zip (List.length_take_le _ _)

/-- What a fold pays: the recipients with their shares, in emission order. -/
structure PaidShares (p : MemoryFoldParams K) (entries : List (LedgerEntry K)) (champ : LedgerEntry K)
    (paid : List (LedgerEntry K × K)) : Prop where
  /-- No hotkey is paid twice. -/
  recipients : ((paid.map Prod.fst).map (·.minerHotkey)).Nodup
  positive : ∀ r ∈ paid, 0 < r.2
  /-- The shares of as many slots as are occupied, or 1 for the cohort. -/
  sum : (paid.map Prod.snd).sum =
    if scoreCeilingCohort p entries champ = [] then (p.rankShares.take paid.length).sum else 1
  /-- Outside the cohort every maximal run of ties has the mean of its own shares. -/
  pooled : scoreCeilingCohort p entries champ = [] →
    Pooled (weightTied p) ((paid.map Prod.fst).zip (p.rankShares.take paid.length)) (paid.map Prod.snd)
  /-- Shares that do not rise along the slots do not rise along the payout. -/
  antitone : p.rankShares.Pairwise (· ≥ ·) → (paid.map Prod.snd).Pairwise (· ≥ ·)

theorem paidShares_of_slots (h : AcceptedShares p) (hpooling : p.tiePooling = true)
    (hcohort : scoreCeilingCohort p entries champ = []) : PaidShares p entries champ (payout p entries champ) := by
  have hpooled := pooled_averageRuns (weightTied p) (slotShares p entries champ)
  have hfst := @map_fst_slotShares K _ p entries champ h
  have hlength : (averageRuns (weightTied p) (slotShares p entries champ)).length =
      (recipients p entries champ).length := by
    rw [length_averageRuns, ← hfst, List.length_map]
  have hpayout : payout p entries champ =
      (recipients p entries champ).zip (averageRuns (weightTied p) (slotShares p entries champ)) :=
    payout_of_slots hpooling hcohort
  have hmapfst : (payout p entries champ).map Prod.fst = recipients p entries champ := by
    rw [hpayout]
    exact List.map_fst_zip hlength.ge
  have hmapsnd : (payout p entries champ).map Prod.snd = averageRuns (weightTied p) (slotShares p entries champ) := by
    rw [hpayout]
    exact List.map_snd_zip hlength.le
  have hcount : (payout p entries champ).length = (recipients p entries champ).length := by
    rw [← hmapfst, List.length_map]
  have hpositive : ∀ x ∈ (slotShares p entries champ).map Prod.snd, 0 < x := by
    rw [map_snd_slotShares]
    exact fun x hx => h.positive x (List.mem_of_mem_take hx)
  constructor
  · rw [hmapfst]
    exact recipients_nodup p entries champ
  · intro r hr
    refine hpooled.pos hpositive r.2 ?_
    rw [← hmapsnd]
    exact List.mem_map_of_mem hr
  · rw [if_pos hcohort, hmapsnd, hpooled.sum_eq, map_snd_slotShares, hcount]
  · intro _
    rw [hmapfst, hmapsnd, hcount]
    exact hpooled
  · intro hsorted
    rw [hmapsnd]
    refine hpooled.antitone ?_
    rw [map_snd_slotShares]
    exact hsorted.sublist (List.take_sublist _ _)

theorem paidShares_of_cohort (hpooling : p.tiePooling = true) (hcohort : scoreCeilingCohort p entries champ ≠ []) :
    PaidShares p entries champ (payout p entries champ) := by
  set cohort := scoreCeilingCohort p entries champ with hdef
  have hpos : (0 : K) < (cohort.length : K) := Nat.cast_pos.2 (List.length_pos_iff.2 hcohort)
  have hpayout : payout p entries champ = cohort.zip (List.replicate cohort.length (1 / (cohort.length : K))) :=
    payout_of_cohort hpooling hcohort
  have hmapfst : (payout p entries champ).map Prod.fst = cohort := by
    rw [hpayout]
    exact List.map_fst_zip (by simp)
  have hmapsnd : (payout p entries champ).map Prod.snd = List.replicate cohort.length (1 / (cohort.length : K)) := by
    rw [hpayout]
    exact List.map_snd_zip (by simp)
  constructor
  · rw [hmapfst]
    exact scoreCeilingCohort_nodup p entries champ
  · intro r hr
    have hshare : r.2 ∈ (payout p entries champ).map Prod.snd := List.mem_map_of_mem hr
    rw [hmapsnd] at hshare
    rw [(List.mem_replicate.1 hshare).2]
    exact one_div_pos.2 hpos
  · rw [if_neg hcohort, hmapsnd, List.sum_replicate, nsmul_eq_mul]
    exact mul_one_div_cancel hpos.ne'
  · exact fun hnil => absurd hnil hcohort
  · intro _
    rw [hmapsnd]
    exact List.pairwise_replicate.2 (.inr (le_refl _))

theorem paidShares_payout (h : AcceptedShares p) (hpooling : p.tiePooling = true) :
    PaidShares p entries champ (payout p entries champ) := by
  by_cases hcohort : scoreCeilingCohort p entries champ = []
  · exact paidShares_of_slots h hpooling hcohort
  · exact paidShares_of_cohort hpooling hcohort

theorem mem_of_mem_payout (hpooling : p.tiePooling = true) (hchamp : champ ∈ entries) {r : LedgerEntry K × K}
    (hr : r ∈ payout p entries champ) : r.1 ∈ entries := by
  by_cases hcohort : scoreCeilingCohort p entries champ = []
  · rw [payout_of_slots hpooling hcohort] at hr
    exact mem_of_mem_recipients hchamp r.1 (List.of_mem_zip hr).1
  · rw [payout_of_cohort hpooling hcohort] at hr
    exact mem_of_mem_cohort r.1 (List.of_mem_zip hr).1

/-! ## The destinations -/

/-- What the platform's ledger promises: one row for an agent, and hotkeys that are addresses. -/
structure LedgerRows (entries : List (LedgerEntry K)) : Prop where
  ids : (entries.map (·.agentId)).Nodup
  addresses : ∀ e ∈ entries, e.minerHotkey ≠ UNPAID_SHARE_KEY

theorem LedgerRows.scoredPool (h : LedgerRows entries) : LedgerRows (scoredPool entries) where
  ids := ((List.filter_sublist.trans List.filter_sublist).map _).nodup h.ids
  addresses := fun e he => h.addresses e ((List.filter_sublist.trans List.filter_sublist).subset he)

/-- Two recipients with one destination are one recipient. -/
theorem shareKey_injective {rows : List (LedgerEntry K)} (hrows : LedgerRows entries) (hmem : ∀ e ∈ rows, e ∈ entries)
    (hhotkeys : (rows.map (·.minerHotkey)).Nodup) :
    ∀ a ∈ rows, ∀ b ∈ rows, shareKey p a = shareKey p b → a = b := by
  intro a ha b hb hkey
  unfold shareKey at hkey
  by_cases hua : some a.agentId = p.unpaidAgentId
  · by_cases hub : some b.agentId = p.unpaidAgentId
    · exact List.inj_on_of_nodup_map hrows.ids (hmem a ha) (hmem b hb) (Option.some.inj (hua.trans hub.symm))
    · rw [if_pos hua, if_neg hub] at hkey
      exact absurd hkey.symm (hrows.addresses b (hmem b hb))
  · by_cases hub : some b.agentId = p.unpaidAgentId
    · rw [if_neg hua, if_pos hub] at hkey
      exact absurd hkey (hrows.addresses a (hmem a ha))
    · rw [if_neg hua, if_neg hub] at hkey
      exact List.inj_on_of_nodup_map hhotkeys ha hb hkey

/-- The vector of a payout. -/
def destinations (p : MemoryFoldParams K) (paid : List (LedgerEntry K × K)) : Dict String K :=
  paid.map fun r => (shareKey p r.1, r.2)

section Destinations

variable {paid : List (LedgerEntry K × K)}

theorem keys_destinations (p : MemoryFoldParams K) (paid : List (LedgerEntry K × K)) :
    (destinations p paid).keys = (paid.map Prod.fst).map (shareKey p) := by
  simp [destinations, Dict.keys, List.map_map, Function.comp_def]

theorem total_destinations (p : MemoryFoldParams K) (paid : List (LedgerEntry K × K)) :
    (destinations p paid).total = (paid.map Prod.snd).sum := by
  simp [destinations, Dict.total, List.map_map, Function.comp_def]

/-- On the ledger's rows no share is dropped. -/
theorem keys_destinations_nodup (hrows : LedgerRows entries) (hmem : ∀ r ∈ paid, r.1 ∈ entries)
    (h : PaidShares p entries champ paid) : (destinations p paid).keys.Nodup := by
  rw [keys_destinations]
  refine List.Nodup.map_on (shareKey_injective hrows ?_ h.recipients) h.recipients.of_map
  intro e he
  obtain ⟨r, hr, rfl⟩ := List.mem_map.1 he
  exact hmem r hr

/-- The share of the unpaid incumbent stands under its own key, and its hotkey is nobody's destination. -/
theorem unpaid_destination (hrows : LedgerRows entries) (hmem : ∀ r ∈ paid, r.1 ∈ entries)
    (h : PaidShares p entries champ paid) {r : LedgerEntry K × K} (hr : r ∈ paid)
    (hunpaid : some r.1.agentId = p.unpaidAgentId) :
    (destinations p paid).get? UNPAID_SHARE_KEY = some r.2 ∧ r.1.minerHotkey ∉ (destinations p paid).keys := by
  have hkey : shareKey p r.1 = UNPAID_SHARE_KEY := if_pos hunpaid
  constructor
  · refine Dict.get?_of_mem (keys_destinations_nodup hrows hmem h) ?_
    rw [← hkey]
    exact List.mem_map.2 ⟨r, hr, rfl⟩
  · rw [keys_destinations]
    intro hdest
    obtain ⟨e, he, hshare⟩ := List.mem_map.1 hdest
    unfold shareKey at hshare
    split at hshare
    · exact hrows.addresses r.1 (hmem r hr) hshare.symm
    · rename_i hpaid
      have hsame := List.inj_on_of_nodup_map h.recipients he (List.mem_map_of_mem hr) hshare
      exact hpaid (hsame ▸ hunpaid)

/-- Without an unpaid recipient its key is not in the vector. -/
theorem unpaid_key_not_mem (hrows : LedgerRows entries) (hmem : ∀ r ∈ paid, r.1 ∈ entries)
    (hpaid : ∀ r ∈ paid, some r.1.agentId ≠ p.unpaidAgentId) : UNPAID_SHARE_KEY ∉ (destinations p paid).keys := by
  rw [keys_destinations]
  intro hdest
  obtain ⟨e, he, hshare⟩ := List.mem_map.1 hdest
  obtain ⟨r, hr, rfl⟩ := List.mem_map.1 he
  unfold shareKey at hshare
  rw [if_neg (hpaid r hr)] at hshare
  exact hrows.addresses r.1 (hmem r hr) hshare

end Destinations

/-! ## Conservation -/

/-- The vector that holds every paid share: all of them are in it, and the unpaid incumbent's is under its own key. -/
structure HoldsAll (p : MemoryFoldParams K) (entries : List (LedgerEntry K)) (champ : LedgerEntry K)
    (paid : List (LedgerEntry K × K)) (weights : Dict String K) : Prop where
  vector : weights = destinations p paid
  keys : weights.keys.Nodup
  total : weights.total =
    if scoreCeilingCohort p entries champ = [] then (p.rankShares.take weights.length).sum else 1
  unpaid : ∀ r ∈ paid, some r.1.agentId = p.unpaidAgentId →
    weights.get? UNPAID_SHARE_KEY = some r.2 ∧ r.1.minerHotkey ∉ weights.keys
  allPaid : (∀ r ∈ paid, some r.1.agentId ≠ p.unpaidAgentId) → UNPAID_SHARE_KEY ∉ weights.keys

/-- An accepted fold pays distinct hotkeys positive shares that add up to those of the occupied slots or to 1, averaged
over ties. On the ledger's rows the returned vector holds all of them. -/
theorem rank_shares_conserved (p : MemoryFoldParams K) (entries : List (LedgerEntry K)) (weights : Dict String K)
    (hpooling : p.tiePooling = true) (hok : computeWeights p entries = .ok weights) :
    (champion p (scoredPool entries) = none ∧ weights = []) ∨
      ∃ champ paid, champion p (scoredPool entries) = some champ ∧ paid = payout p (scoredPool entries) champ ∧
        PaidShares p (scoredPool entries) champ paid ∧ (∀ w ∈ weights, 0 < w.2) ∧
        (LedgerRows entries → HoldsAll p (scoredPool entries) champ paid weights) := by
  unfold computeWeights at hok
  cases hchampion : champion p (scoredPool entries) with
  | none =>
    rw [hchampion] at hok
    cases hok
    exact .inl ⟨rfl, rfl⟩
  | some champ =>
    rw [hchampion] at hok
    simp only at hok
    cases hcheck : checkRankShares p with
    | error err =>
      rw [hcheck] at hok
      cases hok
    | ok _ =>
      rw [hcheck] at hok
      have hweights : Dict.ofList (destinations p (payout p (scoredPool entries) champ)) = weights :=
        Except.ok.inj hok
      have hpaid : PaidShares p (scoredPool entries) champ (payout p (scoredPool entries) champ) :=
        paidShares_payout (acceptedShares_of_check hcheck) hpooling
      refine .inr ⟨champ, _, rfl, rfl, hpaid, ?_, ?_⟩
      · intro w hw
        rw [← hweights] at hw
        obtain ⟨r, hr, rfl⟩ := List.mem_map.1 (Dict.mem_of_mem_ofList hw)
        exact hpaid.positive r hr
      · intro hrows
        have hscored := hrows.scoredPool
        have hmem : ∀ r ∈ payout p (scoredPool entries) champ, r.1 ∈ scoredPool entries := fun r hr =>
          mem_of_mem_payout hpooling (champion_mem hscored.ids hchampion) hr
        have hnodup := keys_destinations_nodup hscored hmem hpaid
        rw [Dict.ofList_eq_self hnodup] at hweights
        subst hweights
        constructor
        · rfl
        · exact hnodup
        · rw [total_destinations, hpaid.sum, destinations, List.length_map]
        · exact fun r hr => unpaid_destination hscored hmem hpaid hr
        · exact unpaid_key_not_mem hscored hmem

/-- The compiled constants with pooling, and `b` unpaid. -/
def poolingParams : MemoryFoldParams ℚ := { cycleParams none with tiePooling := true, unpaidAgentId := some 2 }

theorem rank_shares_conserved_cycle : ∃ weights champ, computeWeights poolingParams cyclePool = .ok weights ∧
    HoldsAll poolingParams (scoredPool cyclePool) champ (payout poolingParams (scoredPool cyclePool) champ)
      weights := by
  have hok : (computeWeights poolingParams cyclePool).isOk = true := by decide +kernel
  have hchampion : (champion poolingParams (scoredPool cyclePool)).isSome = true := by decide +kernel
  have hrows : LedgerRows cyclePool := ⟨by decide, by decide⟩
  cases hweights : computeWeights poolingParams cyclePool with
  | error err =>
    rw [hweights] at hok
    cases hok
  | ok weights =>
    rcases rank_shares_conserved poolingParams cyclePool weights rfl hweights with
      ⟨hnone, -⟩ | ⟨champ, paid, -, rfl, -, -, hholds⟩
    · rw [hnone] at hchampion
      cases hchampion
    · exact ⟨weights, champ, rfl, hholds hrows⟩

end DittoSubnet.Validator

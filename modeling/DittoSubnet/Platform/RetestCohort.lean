import DittoSubnet.Kit.Shortlist
import DittoSubnet.Platform.FoldAgreement

/-!
# The retest cohort

`retest_cohort` of `koth.py` picks the rows that are rescored: the champion of the projection, the next ranked rows of
other miners up to a size, and under a larger cap the rows that follow as long as the tie band holds them to the last of
these.

* `retestCohort_eq`: the loop computes a short list of the ranked rivals.
* `extendsEmissionSet_iff`: when the cohort extends the emission set. The projection ranks the whole pool and the cohort
  ranks the rivals alone, and the tie band looks at two rows at a time; each decides for itself whether quality comes
  before efficiency. Where they decide differently, rows with an efficiency bonus can change places.
* `retestCohort_extends`: in a pool of one curve they cannot.
-/

namespace DittoSubnet.Platform

open Kit

variable {K : Type} [ExactArith K]

/-! ## The tie band -/

/-- The arithmetic behind one admission decision. -/
structure TieBandComparison (K : Type) where
  gap : K
  tolerance : K
  indistinguishable : Bool

/-- A candidate against the tie band of the cutoff row. -/
def tieBandComparison (candidate cutoff : KothEntry K) (toleranceZ : K) : TieBandComparison K :=
  let qualityPrimary := qualityPrimaryEfficiencyActive [candidate, cutoff]
  let score (entry : KothEntry K) : K := if qualityPrimary then continualComposite entry else effectiveComposite entry
  let scale (entry : KothEntry K) : K := if qualityPrimary then 1 else efficiencyStderrScale entry
  let gap := score cutoff - score candidate
  let candidateStderr := (stderr candidate).getD 0 * scale candidate
  let cutoffStderr := (stderr cutoff).getD 0 * scale cutoff
  let tolerance := toleranceZ * ExactArith.sqrt (candidateStderr ^ 2 + cutoffStderr ^ 2)
  { gap := gap
    tolerance := tolerance
    indistinguishable := gap ≤ 0 ∨ gap ≤ tolerance }

def indistinguishableFrom (candidate cutoff : KothEntry K) (toleranceZ : K) : Bool :=
  (tieBandComparison candidate cutoff toleranceZ).indistinguishable

/-! ## The cohort -/

/-- The loop over the ranked rows. -/
def cohortLoop (baseSize ceiling : ℕ) (toleranceZ : K) :
    List (KothEntry K) → List Uuid → List (KothEntry K) → Option (KothEntry K) → List (KothEntry K)
  | [], _, members, _ => members
  | entry :: ranked, seen, members, cutoff =>
    if entry.agentId ∈ seen then cohortLoop baseSize ceiling toleranceZ ranked seen members cutoff
    else if members.length ≥ ceiling then members
    else if members.length ≥ baseSize ∧ !(cutoff.any fun cutoff => indistinguishableFrom entry cutoff toleranceZ) then
      members
    else
      let members := members ++ [entry]
      cohortLoop baseSize ceiling toleranceZ ranked (entry.agentId :: seen) members
        (if members.length = baseSize then some entry else cutoff)

def cohortBaseSize (size : ℤ) : ℕ := (max 1 size).toNat

def cohortCeiling (size : ℤ) (maxSize : Option ℤ) : ℕ :=
  match maxSize with
  | none => cohortBaseSize size
  | some maxSize => (max (max 1 size) maxSize).toNat

/-- The scored rows of other miners than the champion's. -/
def rivals (entries : List (KothEntry K)) (champion : KothEntry K) : List (KothEntry K) :=
  (foldPool entries).filter fun entry => entry.minerHotkey ≠ champion.minerHotkey

/-- The continual-retest cohort. -/
def retestCohort (entries : List (KothEntry K)) (projection : Option (KothProjection K)) (size : ℤ)
    (maxSize : Option ℤ) (toleranceZ : K) : List (KothEntry K) :=
  match projection with
  | none => []
  | some projection =>
    let champion := projection.champion
    cohortLoop (cohortBaseSize size) (cohortCeiling size maxSize) toleranceZ (rankedEntries (rivals entries champion))
      [champion.agentId] [champion] none

/-- `emission_set` of a projection that may be missing. -/
def emissionMembers (projection : Option (KothProjection K)) : List (KothEntry K) :=
  match projection with
  | none => []
  | some projection => emissionSet projection

section Loop

variable {baseSize ceiling : ℕ} {z : K} {entry cutoff : KothEntry K} {ranked members : List (KothEntry K)}
  {seen : List Uuid}

/-- Rows that the loop has not seen, each with its own agent. -/
def Unseen (ranked : List (KothEntry K)) (seen : List Uuid) : Prop :=
  (ranked.map (·.agentId)).Nodup ∧ ∀ e ∈ ranked, e.agentId ∉ seen

theorem Unseen.head (h : Unseen (entry :: ranked) seen) : entry.agentId ∉ seen := h.2 entry List.mem_cons_self

theorem Unseen.tail (h : Unseen (entry :: ranked) seen) : Unseen ranked (entry.agentId :: seen) := by
  obtain ⟨hnodup, hunseen⟩ := h
  rw [List.map_cons, List.nodup_cons] at hnodup
  refine ⟨hnodup.2, ?_⟩
  intro e he hmem
  rcases List.mem_cons.1 hmem with heq | hseen
  · exact hnodup.1 (heq ▸ List.mem_map_of_mem he)
  · exact hunseen e (List.mem_cons_of_mem _ he) hseen

/-- A row below the fixed size is taken, and the one that fills it becomes the cutoff. -/
theorem cohortLoop_take (h : Unseen (entry :: ranked) seen) (hbase : members.length < baseSize)
    (hle : baseSize ≤ ceiling)
    (last : Option (KothEntry K)) :
    cohortLoop baseSize ceiling z (entry :: ranked) seen members last =
      cohortLoop baseSize ceiling z ranked (entry.agentId :: seen) (members ++ [entry])
        (if members.length + 1 = baseSize then some entry else last) := by
  rw [cohortLoop, if_neg h.head, if_neg (by omega), if_neg (by omega)]
  simp only [List.length_append, List.length_singleton]

/-- Beyond the fixed part a row inside the band is taken and the cutoff stays. -/
theorem cohortLoop_added (h : Unseen (entry :: ranked) seen) (hbase : baseSize ≤ members.length)
    (hroom : members.length < ceiling) (hband : indistinguishableFrom entry cutoff z = true) :
    cohortLoop baseSize ceiling z (entry :: ranked) seen members (some cutoff) =
      cohortLoop baseSize ceiling z ranked (entry.agentId :: seen) (members ++ [entry]) (some cutoff) := by
  have hlen : (members ++ [entry]).length ≠ baseSize := by
    rw [List.length_append, List.length_singleton]
    omega
  rw [cohortLoop, if_neg h.head, if_neg (by omega), if_neg (by simp [hband])]
  simp only [if_neg hlen]

/-- With the fixed part full the loop takes what the band holds to the cutoff, up to the ceiling. -/
theorem cohortLoop_band (h : Unseen ranked seen) (hbase : baseSize ≤ members.length) :
    cohortLoop baseSize ceiling z ranked seen members (some cutoff) =
      members ++ (ranked.takeWhile fun e => indistinguishableFrom e cutoff z).take (ceiling - members.length) := by
  induction ranked generalizing seen members with
  | nil => simp [cohortLoop]
  | cons entry ranked ih =>
    have hlen : (members ++ [entry]).length = members.length + 1 := by simp
    rcases Nat.lt_or_ge members.length ceiling with hroom | hfull
    · rw [List.takeWhile_cons]
      cases hband : indistinguishableFrom entry cutoff z with
      | false =>
        rw [cohortLoop, if_neg h.head, if_neg (by omega), if_pos (by simp [hband, hbase]), if_neg Bool.false_ne_true,
          List.take_nil, List.append_nil]
      | true =>
        have hnext : ceiling - members.length = ceiling - (members.length + 1) + 1 := by omega
        rw [cohortLoop_added h hbase hroom hband, ih h.tail (by omega), if_pos rfl, hnext, List.take_succ_cons, hlen,
          List.append_assoc, List.singleton_append]
    · rw [cohortLoop, if_neg h.head, if_pos hfull, Nat.sub_eq_zero_of_le hfull, List.take_zero, List.append_nil]

/-- From a state with `n` free fixed places the loop appends a short list. -/
theorem cohortLoop_fixed {n : ℕ} (h : Unseen ranked seen) (hbase : members.length + n = baseSize)
    (hle : baseSize ≤ ceiling) :
    cohortLoop baseSize ceiling z ranked seen members none =
      members ++ shortlist (fun a b => indistinguishableFrom a b z) n (ceiling - members.length) ranked := by
  induction ranked generalizing n seen members with
  | nil => simp [cohortLoop, shortlist]
  | cons entry ranked ih =>
    have hlen : (members ++ [entry]).length = members.length + 1 := by simp
    rcases n with _ | _ | k
    · rw [shortlist_zero, List.append_nil, cohortLoop, if_neg h.head]
      by_cases hfull : members.length ≥ ceiling
      · rw [if_pos hfull]
      · rw [if_neg hfull, if_pos ⟨by omega, rfl⟩]
    · have hroom : ceiling - members.length = ceiling - (members.length + 1) + 1 := by omega
      rw [cohortLoop_take h (by omega) hle, if_pos (by omega), cohortLoop_band h.tail (by omega), hroom, shortlist_one,
        hlen, List.append_assoc, List.singleton_append]
    · have hroom : ceiling - members.length = ceiling - (members.length + 1) + 1 := by omega
      rw [cohortLoop_take h (by omega) hle, if_neg (by omega), ih (n := k + 1) h.tail (by omega), hroom, shortlist_cons,
        hlen, List.append_assoc, List.singleton_append]

end Loop

/-! ## The two rankings -/

/-- The rows by quality or by effective composite, ties by effective composite and then by seniority. -/
def rankedBy (qualityPrimary : Bool) (rows : List (KothEntry K)) : List (KothEntry K) :=
  sortOn (fun k => scoreOrderKey (rankableRow k) (some (dethroneComposite k qualityPrimary))
    (some (effectiveComposite k))) rows

section Ranking

variable {rows : List (KothEntry K)}

theorem rankedEntries_rankedBy (hid : (rows.map (·.agentId)).Nodup) :
    rankedEntries rows = rankedBy (qualityPrimaryEfficiencyActive rows) rows :=
  rankedEntries_eq ⟨false, false, false, none, none⟩ hid

theorem mem_rankedBy {qualityPrimary : Bool} {e : KothEntry K} : e ∈ rankedBy qualityPrimary rows ↔ e ∈ rows :=
    mem_sortOn

theorem nodup_rankedBy (qualityPrimary : Bool) (hid : (rows.map (·.agentId)).Nodup) :
    ((rankedBy qualityPrimary rows).map (·.agentId)).Nodup :=
  ((sortOn_perm _ rows).map _).nodup_iff.2 hid

/-- Without some of its rows a ranking keeps the order of the others. -/
theorem filter_rankedBy (hid : (rows.map (·.agentId)).Nodup) (qualityPrimary : Bool) (keep : KothEntry K → Bool) :
    (rankedBy qualityPrimary rows).filter keep = rankedBy qualityPrimary (rows.filter keep) :=
  filter_sortOn (separates_of_nodup ⟨false, false, false, none, none⟩ hid qualityPrimary).rank keep

/-- A higher place has the higher score, and at the same score no lower effective composite. -/
theorem rankedBy_ordered (qualityPrimary : Bool) (rows : List (KothEntry K)) :
    (rankedBy qualityPrimary rows).Pairwise fun a b =>
      dethroneComposite b qualityPrimary < dethroneComposite a qualityPrimary ∨
        dethroneComposite b qualityPrimary = dethroneComposite a qualityPrimary ∧
          effectiveComposite b ≤ effectiveComposite a := by
  refine (pairwise_sortOn _ rows).imp ?_
  intro a b hab
  simp only [scoreOrderKey, Option.getD_some, Prod.Lex.toLex_le_toLex, lt_irrefl, false_or, true_and, neg_lt_neg_iff,
    neg_inj] at hab
  rcases hab with hlt | ⟨heq, hlt | ⟨heff, -⟩⟩
  · exact .inl hlt
  · exact .inr ⟨heq.symm, hlt.le⟩
  · exact .inr ⟨heq.symm, heff.ge⟩

end Ranking

/-! ## The cohort as a short list -/

section Pool

variable (o : KothOptions) {entries : List (KothEntry K)} {p : KothProjection K}

theorem nodup_foldPool (hid : (entries.map (·.agentId)).Nodup) : ((foldPool entries).map (·.agentId)).Nodup :=
  hid.sublist (List.filter_sublist.map _)

theorem nodup_rivals (hid : (entries.map (·.agentId)).Nodup) (champion : KothEntry K) :
    ((rivals entries champion).map (·.agentId)).Nodup :=
  (nodup_foldPool hid).sublist (List.filter_sublist.map _)

theorem mem_rivals {champion e : KothEntry K} :
    e ∈ rivals entries champion ↔ e ∈ foldPool entries ∧ e.minerHotkey ≠ champion.minerHotkey := by
  simp [rivals]

/-- The parts of a projection. -/
theorem projectKoth_spec (hid : (entries.map (·.agentId)).Nodup) (h : projectKoth o entries = some p) :
    p.champion ∈ foldPool entries ∧ p.tail = projectTail o.tiePooling (foldPool entries) p.champion := by
  unfold projectKoth at h
  simp only at h
  split at h
  · rename_i champion rawLeader hchampion _
    cases h
    rw [projectChampion_eq o (nodup_foldPool hid)] at hchampion
    exact ⟨Hill.champion_mem (separates_of_nodup o (nodup_foldPool hid) _) hchampion, rfl⟩
  · cases h

/-- With one row for each slot the emission set is the champion and the first ranked rivals. -/
theorem mem_emissionSet_iff (hd : o.tiePooling = false) (hid : (entries.map (·.agentId)).Nodup)
    (h : projectKoth o entries = some p) (e : KothEntry K) :
    e ∈ emissionSet p ↔ e = p.champion ∨ e ∈ (rankedBy (qualityPrimaryEfficiencyActive (foldPool entries))
      (rivals entries p.champion)).take KOTH_TAIL_SIZE := by
  obtain ⟨hmem, htail⟩ := projectKoth_spec o hid h
  have hpool := nodup_foldPool hid
  have hs := separates_of_nodup o hpool (qualityPrimaryEfficiencyActive (foldPool entries))
  rw [hd, projectTail_eq o hpool] at htail
  have hset : emissionSet p = p.champion :: p.tail := by
    refine emissionSet_eq ?_
    rw [htail]
    exact Hill.names_tail_nodup hs KOTH_TAIL_SIZE false hmem
  have hranked : ((hill o (qualityPrimaryEfficiencyActive (foldPool entries))).ranked (foldPool entries)).filter
      (fun k => k.minerHotkey ≠ p.champion.minerHotkey) =
        rankedBy (qualityPrimaryEfficiencyActive (foldPool entries)) (rivals entries p.champion) :=
    filter_rankedBy hpool _ _
  rw [hset, List.mem_cons, htail, Hill.tail, if_neg Bool.false_ne_true, (Hill.adjacentOrder_perm _ _).mem_iff,
    ← hranked]
  rfl

/-- The rivals in the order of the cohort. -/
def rankedRivals (entries : List (KothEntry K)) (champion : KothEntry K) : List (KothEntry K) :=
  rankedBy (qualityPrimaryEfficiencyActive (rivals entries champion)) (rivals entries champion)

theorem rankedEntries_rivals (hid : (entries.map (·.agentId)).Nodup) (champion : KothEntry K) :
    rankedEntries (rivals entries champion) = rankedRivals entries champion :=
  rankedEntries_rankedBy (nodup_rivals hid champion)

theorem mem_rankedRivals {champion e : KothEntry K} : e ∈ rankedRivals entries champion ↔ e ∈ rivals entries champion :=
  mem_rankedBy

theorem nodup_rankedRivals (hid : (entries.map (·.agentId)).Nodup) (champion : KothEntry K) :
    ((rankedRivals entries champion).map (·.agentId)).Nodup := nodup_rankedBy _ (nodup_rivals hid champion)

theorem champion_not_mem (champion : KothEntry K) : champion ∉ rankedRivals entries champion := by
  intro h
  exact (mem_rivals.1 (mem_rankedRivals.1 h)).2 rfl

theorem baseSize_pos (size : ℤ) : 0 < cohortBaseSize size := by
  unfold cohortBaseSize
  omega

theorem baseSize_le_ceiling (size : ℤ) (maxSize : Option ℤ) : cohortBaseSize size ≤ cohortCeiling size maxSize := by
  unfold cohortCeiling cohortBaseSize
  cases maxSize with
  | none => exact le_rfl
  | some maxSize =>
    simp only
    omega

/-- The cohort is the champion with a short list of the ranked rivals. -/
theorem retestCohort_eq (hid : (entries.map (·.agentId)).Nodup) (hchampion : p.champion ∈ foldPool entries) (size : ℤ)
    (maxSize : Option ℤ) (z : K) :
    retestCohort entries (some p) size maxSize z =
      p.champion :: shortlist (fun a b => indistinguishableFrom a b z) (cohortBaseSize size - 1)
        (cohortCeiling size maxSize - 1) (rankedRivals entries p.champion) := by
  have hunseen : Unseen (rankedRivals entries p.champion) [p.champion.agentId] := by
    refine ⟨nodup_rankedRivals hid p.champion, ?_⟩
    intro e he hmem
    obtain ⟨hpool, hother⟩ := mem_rivals.1 (mem_rankedRivals.1 he)
    have hsame := List.inj_on_of_nodup_map (nodup_foldPool hid) hpool hchampion (List.mem_singleton.1 hmem)
    exact hother (by rw [hsame])
  have hpos := baseSize_pos size
  rw [retestCohort, rankedEntries_rivals hid, cohortLoop_fixed hunseen (n := cohortBaseSize size - 1)
    (by rw [List.length_singleton]; omega) (baseSize_le_ceiling size maxSize)]
  rfl

end Pool

/-! ## Extending the emission set -/

/-- The score that the whole pool is ranked by. -/
def rankingScore (entries : List (KothEntry K)) (entry : KothEntry K) : K :=
  dethroneComposite entry (qualityPrimaryEfficiencyActive (foldPool entries))

/-- What the cohorts of a pool owe to the emission set. -/
structure ExtendsEmissionSet (entries : List (KothEntry K)) (projection : Option (KothProjection K)) : Prop where
  sameMembers : ∀ z : K, 0 ≤ z → ∀ e, e ∈ retestCohort entries projection (KOTH_TAIL_SIZE + 1) none z ↔
    e ∈ emissionMembers projection
  contains : ∀ (size : ℤ) (maxSize : Option ℤ) (z : K), KOTH_TAIL_SIZE + 1 < size → 0 ≤ z →
    ∀ e ∈ emissionMembers projection, e ∈ retestCohort entries projection size maxSize z
  bounded : ∀ (size : ℤ) (maxSize : Option ℤ) (z : K), KOTH_TAIL_SIZE + 1 < size → 0 ≤ z →
    ((retestCohort entries projection size maxSize z).length : ℤ) ≤ max size (maxSize.getD size)
  distinct : ∀ (size : ℤ) (maxSize : Option ℤ) (z : K),
    ((retestCohort entries projection size maxSize z).map (·.agentId)).Nodup
  oneRow : ∀ (size : ℤ) (maxSize : Option ℤ) (z : K), ∀ p ∈ projection,
    ∀ e ∈ retestCohort entries projection size maxSize z, e.minerHotkey = p.champion.minerHotkey → e = p.champion
  grows : ∀ (size : ℤ) (z : K),
    retestCohort entries projection size none z <+: retestCohort entries projection (size + 1) none z
  /-- With a band, ties with the last member of the cohort without one are kept. -/
  keepsTies : ∀ (size maxSize : ℤ) (z : K), KOTH_TAIL_SIZE + 1 ≤ size → size < maxSize → 0 ≤ z →
    ∀ p ∈ projection, ∀ last ∈ (retestCohort entries projection size none z).getLast?, ∀ e ∈ rivals entries p.champion,
      rankingScore entries e = rankingScore entries last →
        e ∈ retestCohort entries projection size (some maxSize) z ∨
          maxSize ≤ (retestCohort entries projection size (some maxSize) z).length

/-- When only the champion's miner carries a factor, quality and effective composite pick the same four rivals. -/
def SameTopFour (entries : List (KothEntry K)) (champion : KothEntry K) : Prop :=
  qualityPrimaryEfficiencyActive (foldPool entries) = true →
    qualityPrimaryEfficiencyActive (rivals entries champion) = false →
      ∀ e, e ∈ (rankedBy true (rivals entries champion)).take KOTH_TAIL_SIZE ↔
        e ∈ (rankedBy false (rivals entries champion)).take KOTH_TAIL_SIZE

/-- When a row carries a factor, rivals from the fourth place on that carry none are not told apart at one quality. -/
def TiesSettled (entries : List (KothEntry K)) (champion : KothEntry K) : Prop :=
  qualityPrimaryEfficiencyActive (foldPool entries) = true →
    ∀ (i j : ℕ) (a b : KothEntry K), KOTH_TAIL_SIZE ≤ i + 1 → i < j →
      (rankedEntries (rivals entries champion))[i]? = some a → (rankedEntries (rivals entries champion))[j]? = some b →
        boundedEfficiencyFactor a = none → boundedEfficiencyFactor b = none →
          continualComposite a = continualComposite b → effectiveComposite a = effectiveComposite b

section Extends

variable {o : KothOptions} {entries : List (KothEntry K)} {p : KothProjection K}

theorem qualityPrimary_pair_eq_false_iff {a b : KothEntry K} : qualityPrimaryEfficiencyActive [a, b] = false ↔
    boundedEfficiencyFactor a = none ∧ boundedEfficiencyFactor b = none := by
  simp [qualityPrimaryEfficiencyActive]

theorem factor_none_of_mem {rows : List (KothEntry K)} {e : KothEntry K}
    (h : qualityPrimaryEfficiencyActive rows = false) (he : e ∈ rows) : boundedEfficiencyFactor e = none := by
  simp only [qualityPrimaryEfficiencyActive, List.any_eq_false] at h
  simpa using h e he

/-- A factor among the rivals is a factor in the pool. -/
theorem qualityPrimary_of_rivals {champion : KothEntry K}
    (h : qualityPrimaryEfficiencyActive (rivals entries champion) = true) :
    qualityPrimaryEfficiencyActive (foldPool entries) = true := by
  obtain ⟨e, he, hfactor⟩ := List.any_eq_true.1 h
  exact List.any_eq_true.2 ⟨e, (mem_rivals.1 he).1, hfactor⟩

/-- Whoever has at least the cutoff's score is not told apart from it. -/
theorem indistinguishable_of_le {a c : KothEntry K} (z : K)
    (h : dethroneComposite c (qualityPrimaryEfficiencyActive [a, c]) ≤
      dethroneComposite a (qualityPrimaryEfficiencyActive [a, c])) : indistinguishableFrom a c z = true := by
  unfold dethroneComposite at h
  exact decide_eq_true (.inl (sub_nonpos.2 h))

/-- Without tolerance only these are. -/
theorem le_of_indistinguishable {a c : KothEntry K} (h : indistinguishableFrom a c 0 = true) :
    dethroneComposite c (qualityPrimaryEfficiencyActive [a, c]) ≤
      dethroneComposite a (qualityPrimaryEfficiencyActive [a, c]) := by
  have hgap := of_decide_eq_true h
  rw [zero_mul, or_self, sub_nonpos] at hgap
  exact hgap

/-- Two places of the order: the lower one has the lower score, or no higher effective composite at the same score. -/
theorem rankedRivals_ordered {champion a b : KothEntry K} {i j : ℕ} (hij : i < j)
    (ha : (rankedRivals entries champion)[i]? = some a) (hb : (rankedRivals entries champion)[j]? = some b) :
    dethroneComposite b (qualityPrimaryEfficiencyActive (rivals entries champion)) <
        dethroneComposite a (qualityPrimaryEfficiencyActive (rivals entries champion)) ∨
      dethroneComposite b (qualityPrimaryEfficiencyActive (rivals entries champion)) =
          dethroneComposite a (qualityPrimaryEfficiencyActive (rivals entries champion)) ∧
        effectiveComposite b ≤ effectiveComposite a := by
  obtain ⟨hi, rfl⟩ := List.getElem?_eq_some_iff.1 ha
  obtain ⟨hj, rfl⟩ := List.getElem?_eq_some_iff.1 hb
  exact List.pairwise_iff_getElem.1 (rankedBy_ordered _ _) i j hi hj hij

/-- The fixed part of a cohort of more than one. -/
theorem cohort_fixed (hid : (entries.map (·.agentId)).Nodup) (hchampion : p.champion ∈ foldPool entries) (size : ℤ)
    (z : K) : retestCohort entries (some p) size none z =
      p.champion :: (rankedRivals entries p.champion).take (cohortBaseSize size - 1) := by
  rw [retestCohort_eq hid hchampion]
  exact congrArg _ (shortlist_of_le le_rfl)

/-- The first five are the emission set iff the two rankings have the same four rivals on top. -/
theorem sameMembers_iff (hd : o.tiePooling = false) (hid : (entries.map (·.agentId)).Nodup)
    (h : projectKoth o entries = some p) (z : K) :
    (∀ e, e ∈ retestCohort entries (some p) (KOTH_TAIL_SIZE + 1) none z ↔ e ∈ emissionSet p) ↔
      SameTopFour entries p.champion := by
  have hchampion := (projectKoth_spec o hid h).1
  have hplaces : cohortBaseSize (KOTH_TAIL_SIZE + 1) - 1 = KOTH_TAIL_SIZE := rfl
  have hrival : ∀ (qualityPrimary : Bool) (e : KothEntry K),
      e ∈ (rankedBy qualityPrimary (rivals entries p.champion)).take KOTH_TAIL_SIZE → e ≠ p.champion := by
    rintro qualityPrimary e he rfl
    exact (mem_rivals.1 (mem_rankedBy.1 (List.mem_of_mem_take he))).2 rfl
  have hmembers : (∀ e, e ∈ retestCohort entries (some p) (KOTH_TAIL_SIZE + 1) none z ↔ e ∈ emissionSet p) ↔
      ∀ e, e ∈ (rankedBy (qualityPrimaryEfficiencyActive (foldPool entries))
          (rivals entries p.champion)).take KOTH_TAIL_SIZE ↔
        e ∈ (rankedRivals entries p.champion).take KOTH_TAIL_SIZE := by
    refine forall_congr' fun e => ?_
    rw [cohort_fixed hid hchampion, hplaces, List.mem_cons, mem_emissionSet_iff o hd hid h]
    have hfull := hrival (qualityPrimaryEfficiencyActive (foldPool entries)) e
    have hpart := hrival (qualityPrimaryEfficiencyActive (rivals entries p.champion)) e
    unfold rankedRivals
    by_cases he : e = p.champion
    · simp only [he, true_or, true_iff]
      exact iff_of_false (fun hmem => hfull (he ▸ hmem) he) (fun hmem => hpart (he ▸ hmem) he)
    · simp only [he, false_or]
      exact Iff.comm
  rw [hmembers]
  unfold SameTopFour rankedRivals
  cases hpool : qualityPrimaryEfficiencyActive (foldPool entries) with
  | false =>
    have hnone : qualityPrimaryEfficiencyActive (rivals entries p.champion) = false := by
      rw [← Bool.not_eq_true]
      intro hactive
      rw [qualityPrimary_of_rivals hactive] at hpool
      cases hpool
    simp [hnone]
  | true =>
    cases qualityPrimaryEfficiencyActive (rivals entries p.champion) <;> simp

/-- The cohort, the champion first, follows the order of the rivals. -/
theorem cohort_initial (hid : (entries.map (·.agentId)).Nodup) (hchampion : p.champion ∈ foldPool entries) (size : ℤ)
    (maxSize : Option ℤ) (z : K) :
    retestCohort entries (some p) size maxSize z <+: p.champion :: rankedRivals entries p.champion := by
  rw [retestCohort_eq hid hchampion, List.prefix_cons_inj]
  exact shortlist_initial _ _ _ _

theorem cohort_distinct (hid : (entries.map (·.agentId)).Nodup) (hchampion : p.champion ∈ foldPool entries) (size : ℤ)
    (maxSize : Option ℤ) (z : K) : ((retestCohort entries (some p) size maxSize z).map (·.agentId)).Nodup := by
  refine List.Nodup.sublist ((cohort_initial hid hchampion size maxSize z).sublist.map _) ?_
  rw [List.map_cons, List.nodup_cons]
  refine ⟨?_, nodup_rankedRivals hid p.champion⟩
  intro hmem
  obtain ⟨e, he, hsame⟩ := List.mem_map.1 hmem
  have hpool := (mem_rivals.1 (mem_rankedRivals.1 he)).1
  rw [List.inj_on_of_nodup_map (nodup_foldPool hid) hpool hchampion hsame] at he
  exact champion_not_mem p.champion he

theorem cohort_oneRow (hid : (entries.map (·.agentId)).Nodup) (hchampion : p.champion ∈ foldPool entries) (size : ℤ)
    (maxSize : Option ℤ) (z : K) {e : KothEntry K} (he : e ∈ retestCohort entries (some p) size maxSize z)
    (hsame : e.minerHotkey = p.champion.minerHotkey) : e = p.champion := by
  rcases List.mem_cons.1 ((cohort_initial hid hchampion size maxSize z).subset he) with rfl | hmem
  · rfl
  · exact absurd hsame (mem_rivals.1 (mem_rankedRivals.1 hmem)).2

theorem cohort_bounded (hid : (entries.map (·.agentId)).Nodup) (hchampion : p.champion ∈ foldPool entries) {size : ℤ}
    (hsize : 0 < size) (maxSize : Option ℤ) (z : K) :
    ((retestCohort entries (some p) size maxSize z).length : ℤ) ≤ max size (maxSize.getD size) := by
  have hpos := baseSize_pos size
  have hle := baseSize_le_ceiling size maxSize
  have hceiling : (cohortCeiling size maxSize : ℤ) = max size (maxSize.getD size) := by
    unfold cohortCeiling cohortBaseSize
    cases maxSize with
    | none =>
      simp only [Option.getD_none]
      omega
    | some maxSize =>
      simp only [Option.getD_some]
      omega
  have hlist := @length_shortlist_le _ (fun a b => indistinguishableFrom a b z) (cohortBaseSize size - 1)
    (cohortCeiling size maxSize - 1) (rankedRivals entries p.champion) (by omega)
  rw [retestCohort_eq hid hchampion, List.length_cons, ← hceiling]
  omega

theorem cohort_grows (hid : (entries.map (·.agentId)).Nodup) (hchampion : p.champion ∈ foldPool entries)
    {size size' : ℤ}
    (hsize : size ≤ size') (maxSize : Option ℤ) (z : K) :
    retestCohort entries (some p) size none z <+: retestCohort entries (some p) size' maxSize z := by
  have hplaces : cohortBaseSize size - 1 ≤ cohortBaseSize size' - 1 := by
    unfold cohortBaseSize
    omega
  rw [cohort_fixed hid hchampion, retestCohort_eq hid hchampion, List.prefix_cons_inj]
  exact (List.take_prefix_take_left hplaces).trans (take_initial_shortlist _ _ _ _)

/-- Between two rivals of one score all have it. -/
theorem score_between {champion a b c : KothEntry K} {i k j : ℕ} (hik : i < k) (hkj : k ≤ j)
    (ha : (rankedRivals entries champion)[i]? = some a) (hb : (rankedRivals entries champion)[k]? = some b)
    (hc : (rankedRivals entries champion)[j]? = some c)
    (hscore : dethroneComposite c (qualityPrimaryEfficiencyActive (rivals entries champion)) =
      dethroneComposite a (qualityPrimaryEfficiencyActive (rivals entries champion))) :
    dethroneComposite b (qualityPrimaryEfficiencyActive (rivals entries champion)) =
      dethroneComposite a (qualityPrimaryEfficiencyActive (rivals entries champion)) := by
  have hupper : dethroneComposite b (qualityPrimaryEfficiencyActive (rivals entries champion)) ≤
      dethroneComposite a (qualityPrimaryEfficiencyActive (rivals entries champion)) := by
    rcases rankedRivals_ordered hik ha hb with hlt | ⟨heq, -⟩
    · exact hlt.le
    · exact heq.le
  refine le_antisymm hupper ?_
  rw [← hscore]
  rcases Nat.eq_or_lt_of_le hkj with rfl | hkj
  · rw [Option.some.inj (hc.symm.trans hb)]
  · rcases rankedRivals_ordered hkj hb hc with hlt | ⟨heq, -⟩
    · exact hlt.le
    · exact heq.le

/-- A rival that ties with the cutoff on the scale of the pool ties with it on the scale of the rivals. -/
theorem rivalScore_of_rankingScore (hid : (entries.map (·.agentId)).Nodup) {champion a b : KothEntry K} {i j : ℕ}
    (hsettled : TiesSettled entries champion) (hi : KOTH_TAIL_SIZE ≤ i + 1) (hij : i < j)
    (ha : (rankedRivals entries champion)[i]? = some a) (hb : (rankedRivals entries champion)[j]? = some b)
    (hscore : rankingScore entries b = rankingScore entries a) :
    dethroneComposite b (qualityPrimaryEfficiencyActive (rivals entries champion)) =
      dethroneComposite a (qualityPrimaryEfficiencyActive (rivals entries champion)) := by
  cases hrivals : qualityPrimaryEfficiencyActive (rivals entries champion) with
  | true =>
    rwa [rankingScore, rankingScore, qualityPrimary_of_rivals hrivals] at hscore
  | false =>
    cases hpool : qualityPrimaryEfficiencyActive (foldPool entries) with
    | false => rwa [rankingScore, rankingScore, hpool] at hscore
    | true =>
      rw [rankingScore, rankingScore, hpool] at hscore
      have hfa := factor_none_of_mem hrivals (mem_rankedRivals.1 (List.mem_of_getElem? ha))
      have hfb := factor_none_of_mem hrivals (mem_rankedRivals.1 (List.mem_of_getElem? hb))
      rw [← rankedEntries_rivals hid] at ha hb
      exact (hsettled hpool i j a b hi hij ha hb hfa hfb hscore.symm).symm

/-- At the score of the cutoff a settled rival is inside its band. -/
theorem indistinguishable_of_settled (hid : (entries.map (·.agentId)).Nodup) {champion a b : KothEntry K} {i k : ℕ}
    (hsettled : TiesSettled entries champion) (hi : KOTH_TAIL_SIZE ≤ i + 1) (hik : i < k)
    (ha : (rankedRivals entries champion)[i]? = some a) (hb : (rankedRivals entries champion)[k]? = some b)
    (hscore : dethroneComposite b (qualityPrimaryEfficiencyActive (rivals entries champion)) =
      dethroneComposite a (qualityPrimaryEfficiencyActive (rivals entries champion))) (z : K) :
    indistinguishableFrom b a z = true := by
  have hma := mem_rankedRivals.1 (List.mem_of_getElem? ha)
  have hmb := mem_rankedRivals.1 (List.mem_of_getElem? hb)
  refine indistinguishable_of_le z ?_
  cases hpair : qualityPrimaryEfficiencyActive [b, a] with
  | true =>
    have hrivals : qualityPrimaryEfficiencyActive (rivals entries champion) = true := by
      rw [← Bool.not_eq_false]
      intro hnone
      rw [qualityPrimary_pair_eq_false_iff.2 ⟨factor_none_of_mem hnone hmb, factor_none_of_mem hnone hma⟩] at hpair
      cases hpair
    rw [hrivals] at hscore
    exact hscore.ge
  | false =>
    cases hrivals : qualityPrimaryEfficiencyActive (rivals entries champion) with
    | false =>
      rw [hrivals] at hscore
      exact hscore.ge
    | true =>
      -- the rivals rank by quality, this pair compares by effective composite
      rw [hrivals] at hscore
      obtain ⟨hfb, hfa⟩ := qualityPrimary_pair_eq_false_iff.1 hpair
      rw [← rankedEntries_rivals hid] at ha hb
      exact (hsettled (qualityPrimary_of_rivals hrivals) i k a b hi hik ha hb hfa hfb hscore.symm).le

/-- Where ties are settled the band keeps them. -/
theorem keepsTies_of_settled (hid : (entries.map (·.agentId)).Nodup) (hchampion : p.champion ∈ foldPool entries)
    (hsettled : TiesSettled entries p.champion) {size maxSize : ℤ} {z : K} (hsize : KOTH_TAIL_SIZE + 1 ≤ size)
    (hmax : size < maxSize) {last e : KothEntry K}
    (hlast : (retestCohort entries (some p) size none z).getLast? = some last) (he : e ∈ rivals entries p.champion)
    (hscore : rankingScore entries e = rankingScore entries last) :
    e ∈ retestCohort entries (some p) size (some maxSize) z ∨
      maxSize ≤ (retestCohort entries (some p) size (some maxSize) z).length := by
  have hplaces : (cohortBaseSize size : ℤ) = size := by
    unfold cohortBaseSize KOTH_TAIL_SIZE at *
    omega
  have hceiling : (cohortCeiling size (some maxSize) : ℤ) = maxSize := by
    unfold cohortCeiling KOTH_TAIL_SIZE at *
    simp only
    omega
  obtain ⟨j, hj⟩ := List.mem_iff_getElem?.1 (mem_rankedRivals.2 he)
  rcases Nat.lt_or_ge j (cohortBaseSize size - 1) with hfixed | hopen
  · left
    refine (cohort_grows hid hchampion le_rfl (some maxSize) z).subset ?_
    rw [cohort_fixed hid hchampion]
    exact List.mem_cons_of_mem _ (List.mem_of_getElem? (by rw [List.getElem?_take_of_lt hfixed, hj]))
  -- the fixed part is full and ends with the cutoff
  have hlen : j < (rankedRivals entries p.champion).length := (List.getElem?_eq_some_iff.1 hj).1
  have hn : KOTH_TAIL_SIZE ≤ cohortBaseSize size - 1 - 1 + 1 := by
    unfold KOTH_TAIL_SIZE at *
    omega
  have hn' : cohortBaseSize size - 1 - 1 + 1 = cohortBaseSize size - 1 := by
    unfold KOTH_TAIL_SIZE at *
    omega
  have hcutoff : (rankedRivals entries p.champion)[cohortBaseSize size - 1 - 1]? = some last := by
    rw [cohort_fixed hid hchampion, List.getLast?_cons, List.getLast?_take,
      if_neg (by unfold KOTH_TAIL_SIZE at *; omega), List.getElem?_eq_getElem (by omega)] at hlast
    rw [List.getElem?_eq_getElem (by omega)]
    exact hlast
  have htake : ((rankedRivals entries p.champion).take (cohortBaseSize size - 1)).getLast? = some last := by
    rw [List.getLast?_take, if_neg (by unfold KOTH_TAIL_SIZE at *; omega), hcutoff]
    rfl
  have htied := rivalScore_of_rankingScore hid hsettled hn (by omega) hcutoff hj hscore
  have hnear : ∀ k b, cohortBaseSize size - 1 ≤ k → k ≤ j → (rankedRivals entries p.champion)[k]? = some b →
      indistinguishableFrom b last z = true := by
    intro k b hk hkj hb
    have hbetween := score_between (by omega) hkj hcutoff hb hj htied
    exact indistinguishable_of_settled hid hsettled hn (by omega) hcutoff hb hbetween z
  rw [retestCohort_eq hid hchampion]
  rcases @mem_shortlist_of_near _ (fun a b => indistinguishableFrom a b z) _
    (cohortCeiling size (some maxSize) - 1) _ _ _ _ htake hj hnear with hmem | hfull
  · exact .inl (List.mem_cons_of_mem _ hmem)
  · right
    rw [List.length_cons]
    omega

/-- Where the band keeps all ties they are settled. -/
theorem settled_of_keepsTies (hid : (entries.map (·.agentId)).Nodup) (hchampion : p.champion ∈ foldPool entries)
    (hkeeps : ∀ (size maxSize : ℤ), KOTH_TAIL_SIZE + 1 ≤ size → size < maxSize →
      ∀ last ∈ (retestCohort entries (some p) size none 0).getLast?, ∀ e ∈ rivals entries p.champion,
        rankingScore entries e = rankingScore entries last →
          e ∈ retestCohort entries (some p) size (some maxSize) 0 ∨
            maxSize ≤ (retestCohort entries (some p) size (some maxSize) 0).length) :
    TiesSettled entries p.champion := by
  intro hpool i j a b hi hij ha hb hfa hfb hquality
  rw [rankedEntries_rivals hid] at ha hb
  have hlen : i < (rankedRivals entries p.champion).length := (List.getElem?_eq_some_iff.1 ha).1
  have hplaces : cohortBaseSize (i + 2) - 1 = i + 1 := by
    unfold cohortBaseSize
    omega
  have htake : ((rankedRivals entries p.champion).take (i + 1)).getLast? = some a := by
    rw [List.getLast?_take, if_neg (Nat.succ_ne_zero i), Nat.add_sub_cancel, ha]
    rfl
  have hlast : (retestCohort entries (some p) (i + 2) none 0).getLast? = some a := by
    rw [cohort_fixed hid hchampion, hplaces, List.getLast?_cons, htake]
    rfl
  have hscore : rankingScore entries b = rankingScore entries a := by
    rw [rankingScore, rankingScore, hpool]
    exact hquality.symm
  have hmb := List.mem_of_getElem? hb
  -- a cap that no cohort of the pool reaches
  have hroom := (cohort_initial hid hchampion (i + 2) (some (i + (rankedRivals entries p.champion).length + 3))
      0).length_le
  rw [List.length_cons] at hroom
  have hmem : b ∈ retestCohort entries (some p) (i + 2) (some (i + (rankedRivals entries p.champion).length + 3))
      0 := by
    rcases hkeeps (i + 2) (i + (rankedRivals entries p.champion).length + 3) (by unfold KOTH_TAIL_SIZE at *; omega)
      (by omega) a hlast b (mem_rankedRivals.1 hmb) hscore with hmem | hfull
    · exact hmem
    · omega
  have hnear : indistinguishableFrom b a 0 = true := by
    rw [retestCohort_eq hid hchampion, hplaces] at hmem
    have hshort := (List.mem_cons.1 hmem).resolve_left fun heq => champion_not_mem p.champion (heq ▸ hmb)
    refine near_of_mem_shortlist hshort ?_ htake
    intro hfixed
    obtain ⟨k, hk⟩ := List.mem_iff_getElem?.1 hfixed
    rw [List.getElem?_take] at hk
    split at hk
    · have hklen := (List.getElem?_eq_some_iff.1 hk).1
      have hsame := (List.getElem?_inj hklen ((nodup_rankedRivals hid p.champion).of_map _)).1 (hk.trans hb.symm)
      omega
    · cases hk
  have hle := le_of_indistinguishable hnear
  rw [qualityPrimary_pair_eq_false_iff.2 ⟨hfb, hfa⟩] at hle
  have hle : effectiveComposite a ≤ effectiveComposite b := hle
  refine le_antisymm hle ?_
  rcases rankedRivals_ordered hij ha hb with hlt | ⟨-, heff⟩
  · cases hrivals : qualityPrimaryEfficiencyActive (rivals entries p.champion) with
    | true =>
      rw [hrivals] at hlt
      have hlt : continualComposite b < continualComposite a := hlt
      exact absurd hquality.symm hlt.ne
    | false =>
      rw [hrivals] at hlt
      exact hlt.le
  · exact heff

/-- Without a projection there is neither a cohort nor an emission set. -/
theorem extendsEmissionSet_none (entries : List (KothEntry K)) : ExtendsEmissionSet entries none where
  sameMembers _ _ _ := Iff.rfl
  contains _ _ _ _ _ _ he := he
  bounded _ _ _ hsize _ := le_max_of_le_left (le_of_lt (lt_of_le_of_lt (Int.natCast_nonneg _) hsize))
  distinct _ _ _ := List.nodup_nil
  oneRow _ _ _ p hp := by cases hp
  grows _ _ := List.prefix_rfl
  keepsTies _ _ _ _ _ _ p hp := by cases hp

end Extends

/-- The cohorts extend the emission set iff quality and effective composite agree where only one of the two rankings
sees a factor. -/
theorem extendsEmissionSet_iff {o : KothOptions} {entries : List (KothEntry K)} (hd : o.tiePooling = false)
    (hid : (entries.map (·.agentId)).Nodup) : ExtendsEmissionSet entries (projectKoth o entries) ↔
      ∀ p ∈ projectKoth o entries, SameTopFour entries p.champion ∧ TiesSettled entries p.champion := by
  cases h : projectKoth o entries with
  | none => exact iff_of_true (extendsEmissionSet_none entries) fun p hp => by cases hp
  | some p =>
    have hchampion := (projectKoth_spec o hid h).1
    simp only [Option.mem_some_iff, forall_eq']
    constructor
    · intro hextends
      refine ⟨(sameMembers_iff hd hid h 0).1 (hextends.sameMembers 0 le_rfl), settled_of_keepsTies hid hchampion ?_⟩
      intro size maxSize hsize hmax last hlast e he hscore
      exact hextends.keepsTies size maxSize 0 hsize hmax le_rfl p rfl last hlast e he hscore
    · rintro ⟨hsame, hsettled⟩
      have hmembers : ∀ (z : K) (e : KothEntry K), e ∈ retestCohort entries (some p) (KOTH_TAIL_SIZE + 1) none z ↔
          e ∈ emissionSet p := fun z => (sameMembers_iff hd hid h z).2 hsame
      exact {
        sameMembers := fun z _ => hmembers z
        contains := fun size maxSize z hsize _ e he =>
          (cohort_grows hid hchampion hsize.le maxSize z).subset ((hmembers z e).2 he)
        bounded := fun size maxSize z hsize _ =>
          cohort_bounded hid hchampion (lt_of_le_of_lt (Int.natCast_nonneg _) hsize) maxSize z
        distinct := cohort_distinct hid hchampion
        oneRow := fun size maxSize z q hq e he heq => by
          cases hq
          exact cohort_oneRow hid hchampion size maxSize z he heq
        grows := fun size z => cohort_grows hid hchampion (by omega) none z
        keepsTies := fun size maxSize z hsize hmax _ q hq last hlast e he hscore => by
          cases hq
          exact keepsTies_of_settled hid hchampion hsettled hsize hmax hlast he hscore }

/-- A pool of one curve: no row carries a factor, or no row carries a bonus. -/
def OneCurve (entries : List (KothEntry K)) : Prop :=
  (∀ e ∈ entries, e.efficiencyFactor = none) ∨ ∀ e ∈ entries, ∀ bonus ∈ e.efficiencyBonus, bonus = 0

instance (entries : List (KothEntry K)) : Decidable (OneCurve entries) := inferInstanceAs (Decidable (_ ∨ _))

section OneCurve

variable {entries : List (KothEntry K)} {champion : KothEntry K}

/-- Without a factor and a bonus a row is worth its quality. -/
theorem effectiveComposite_unadjusted {e : KothEntry K} (hfactor : boundedEfficiencyFactor e = none)
    (hbonus : ∀ bonus ∈ e.efficiencyBonus, bonus = 0) : effectiveComposite e = continualComposite e := by
  have hone : efficiencyMultiplier e = 1 := by
    rw [efficiencyMultiplier, hfactor]
    cases he : e.efficiencyBonus with
    | none => rfl
    | some bonus =>
      rw [hbonus bonus he]
      simp
  simp only [effectiveComposite, efficiencyAdjustedComposite, hfactor, hone, mul_one]

theorem mem_of_rivals {e : KothEntry K} (he : e ∈ rivals entries champion) : e ∈ entries :=
  List.mem_of_mem_filter (mem_rivals.1 he).1

/-- No factor in the pool: there is one ranking. -/
theorem qualityPrimary_of_no_factor (h : ∀ e ∈ entries, e.efficiencyFactor = none) :
    qualityPrimaryEfficiencyActive (foldPool entries) = false := by
  rw [qualityPrimaryEfficiencyActive, List.any_eq_false]
  intro e he
  simp [boundedEfficiencyFactor, h e (List.mem_of_mem_filter he)]

theorem OneCurve.sameTopFour (h : OneCurve entries) : SameTopFour entries champion := by
  intro hpool hrivals e
  rcases h with hfactor | hbonus
  · rw [qualityPrimary_of_no_factor hfactor] at hpool
    cases hpool
  · have hsame : rankedBy true (rivals entries champion) = rankedBy false (rivals entries champion) := by
      have hvalue (a : KothEntry K) (ha : a ∈ rivals entries champion) :
          dethroneComposite a true = dethroneComposite a false :=
        (effectiveComposite_unadjusted (factor_none_of_mem hrivals ha) (hbonus a (mem_of_rivals ha))).symm
      refine sortOn_congr fun a ha b hb => ?_
      rw [hvalue a ha, hvalue b hb]
    rw [hsame]

theorem OneCurve.tiesSettled (h : OneCurve entries) (hid : (entries.map (·.agentId)).Nodup) :
    TiesSettled entries champion := by
  intro hpool i j a b _ _ ha hb hfa hfb hquality
  rw [rankedEntries_rivals hid] at ha hb
  rcases h with hfactor | hbonus
  · rw [qualityPrimary_of_no_factor hfactor] at hpool
    cases hpool
  · have hmem {k : ℕ} {e : KothEntry K} (he : (rankedRivals entries champion)[k]? = some e) : e ∈ entries :=
      mem_of_rivals (mem_rankedRivals.1 (List.mem_of_getElem? he))
    rw [effectiveComposite_unadjusted hfa (hbonus a (hmem ha)), effectiveComposite_unadjusted hfb (hbonus b (hmem hb)),
      hquality]

end OneCurve

/-- The cohorts of a pool of one curve extend the emission set, and those of another pool exactly when the two rankings
agree on the first four rivals and on the ties after them. -/
theorem retestCohort_extends {o : KothOptions} {entries : List (KothEntry K)} (hd : o.tiePooling = false)
    (hid : (entries.map (·.agentId)).Nodup) :
    (OneCurve entries → ExtendsEmissionSet entries (projectKoth o entries)) ∧
    (ExtendsEmissionSet entries (projectKoth o entries) ↔
      ∀ p ∈ projectKoth o entries, SameTopFour entries p.champion ∧ TiesSettled entries p.champion) := by
  refine ⟨fun h => ?_, extendsEmissionSet_iff hd hid⟩
  exact (extendsEmissionSet_iff hd hid).2 fun p _ => ⟨h.sameTopFour, h.tiesSettled hid⟩

/-- A bench-12 row with its quality in hundredths, known by its quorum score only. -/
def cohortRow (hotkey : String) (id : Uuid) (hundredths : ℕ) (bonus factor : Option ℚ) : KothEntry ℚ where
  minerHotkey := hotkey
  agentId := id
  composite := hundredths / 100
  firstSeen := (id : ℕ)
  benchVersion := 12
  compositeStderr := none
  quorumComposites := none
  completedWaveComposites := none
  confirmationComposites := none
  confirmationSeeds := none
  efficiencyBonus := bonus
  efficiencyFactor := factor
  efficiencyCurveVersion := none
  duelingSeasonId := none
  dueling := none
  duelingRecords := none
  duelRecords := none

def plainOptions : KothOptions where
  tiePooling := false
  ceilingBandClamp := false
  statisticalBandCap := false
  incumbentAgentId := none
  crownGate := none

/-- Rows with factors, on both sides of 1, and a row without one. -/
def factorCohortPool : List (KothEntry ℚ) :=
  [cohortRow "king" 1 60 none (some 1), cohortRow "a" 2 50 none (some (9 / 10)), cohortRow "b" 3 49 none none,
   cohortRow "c" 4 48 (some 0) (some (21 / 20)), cohortRow "d" 5 47 none none, cohortRow "e" 6 46 none (some 1)]

theorem retestCohort_extends_factors :
    ExtendsEmissionSet factorCohortPool (projectKoth plainOptions factorCohortPool) :=
  (retestCohort_extends rfl (by decide)).1 (by decide +kernel)

/-- Only the champion carries a factor, and the last rival a bonus. -/
def mixedCohortPool : List (KothEntry ℚ) :=
  [cohortRow "king" 1 60 none (some 1), cohortRow "a" 2 50 none none, cohortRow "b" 3 49 none none,
   cohortRow "c" 4 48 none none, cohortRow "d" 5 47 none none, cohortRow "e" 6 46 (some (1 / 10)) none]

/-- The cohort of five takes the bonus row in the place of the fourth rival. -/
theorem mixed_cohort_not_extends : (mixedCohortPool.map (·.agentId)).Nodup ∧ plainOptions.tiePooling = false ∧
    ¬ ExtendsEmissionSet mixedCohortPool (projectKoth plainOptions mixedCohortPool) := by
  refine ⟨by decide, rfl, ?_⟩
  intro hextends
  have hcohort : (retestCohort mixedCohortPool (projectKoth plainOptions mixedCohortPool) (KOTH_TAIL_SIZE + 1) none
      0).map (·.agentId) = [1, 6, 2, 3, 4] := by decide +kernel
  have hemission : (emissionMembers (projectKoth plainOptions mixedCohortPool)).map (·.agentId) = [1, 2, 3, 4, 5] := by
    decide +kernel
  have hmem : (6 : Uuid) ∈ (retestCohort mixedCohortPool (projectKoth plainOptions mixedCohortPool) (KOTH_TAIL_SIZE + 1)
      none 0).map (·.agentId) := by
    rw [hcohort]
    decide
  obtain ⟨e, he, hid⟩ := List.mem_map.1 hmem
  have hout := List.mem_map_of_mem (f := (·.agentId)) ((hextends.sameMembers 0 le_rfl e).1 he)
  rw [hemission, hid] at hout
  exact absurd hout (by decide)

end DittoSubnet.Platform

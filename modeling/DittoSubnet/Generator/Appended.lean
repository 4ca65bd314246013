import DittoSubnet.Generator.Run

/-!
# A further case

What one further case at the end of a seed's pack does to the scores of the run, when it is judged a duplicate or
unsolved. Its own pack has a case more and no more credit. A duplicate claims nothing new. An unsolved case claims its
fingerprint for the later seeds, where the case that would have claimed it becomes a duplicate: a pack loses the credit
of a discriminating case, but also the unsolved case that it may have been.

* `verdictsValue_le`: a pack is worth no more with more cases, less credit and a higher share of unsolved ones.
* `verdicts_insert`: a further claimed fingerprint makes a duplicate of the case that would have claimed it.
* `scoreRun_appended`: no pack scores more, but a later one of which an unsolved case becomes a duplicate.
-/

namespace DittoSubnet.Generator

open Kit

section Value

variable {params : ScoreParams} {vs vs' : List CaseVerdict}

/-- The share of unsolved cases. -/
def unsolvedShare (vs : List CaseVerdict) : ℚ :=
  (statusCount .unsolved vs : ℚ) / (vs.length - statusCount .duplicate vs : ℕ)

theorem unsolvedShare_le_one (vs : List CaseVerdict) : unsolvedShare vs ≤ 1 := by
  have := statusCount_add_le (show CaseStatus.unsolved ≠ .duplicate by decide) vs
  exact div_le_one_of_le₀ (Nat.cast_le.2 (by omega)) (Nat.cast_nonneg _)

/-- A pack is worth no more with more cases, less credit and a higher share of unsolved ones. -/
theorem verdictsValue_le (hparams : params.Sound) (hlen : vs.length ≤ vs'.length) (hnonneg : 0 ≤ totalCredit vs')
    (hcredit : totalCredit vs' ≤ totalCredit vs) (hshare : unsolvedShare vs ≤ unsolvedShare vs') :
    verdictsValue params vs' ≤ verdictsValue params vs := by
  have hbonus : 0 < 1 + params.championBonus := by linarith [hparams.championBonus.1]
  have htarget : 0 < params.targetCases := lt_of_lt_of_le (by decide) hparams.targetCases.1
  have hmax : ((max vs.length params.targetCases : ℕ) : ℚ) ≤ (max vs'.length params.targetCases : ℕ) :=
    Nat.cast_le.2 (max_le_max_right _ hlen)
  have hpos : (0 : ℚ) < (max vs.length params.targetCases : ℕ) :=
    Nat.cast_pos.2 (lt_of_lt_of_le htarget (le_max_right _ _))
  have hone := unsolvedShare_le_one vs'
  have hsquare : (1 - unsolvedShare vs') ^ 2 ≤ (1 - unsolvedShare vs) ^ 2 :=
    pow_le_pow_left₀ (by linarith) (by linarith) 2
  have hfirst : totalCredit vs' / ((1 + params.championBonus) * (max vs'.length params.targetCases : ℕ)) ≤
      totalCredit vs / ((1 + params.championBonus) * (max vs.length params.targetCases : ℕ)) :=
    div_le_div₀ (hnonneg.trans hcredit) hcredit (mul_pos hbonus hpos) (mul_le_mul_of_nonneg_left hmax hbonus.le)
  exact mul_le_mul hfirst hsquare (sq_nonneg _)
    (div_nonneg (hnonneg.trans hcredit) (mul_pos hbonus hpos).le)

theorem share_le_of_fewer {u k : ℕ} (h : u ≤ k) : (u : ℚ) / (k + 1 : ℕ) ≤ u / k := by
  rcases Nat.eq_zero_or_pos k with rfl | hk
  · rw [Nat.le_zero.1 h]
    simp
  · exact div_le_div_of_nonneg_left (Nat.cast_nonneg _) (Nat.cast_pos.2 hk) (Nat.cast_le.2 (by omega))

theorem share_le_of_unsolved {u k : ℕ} (h : u ≤ k) : (u : ℚ) / k ≤ (u + 1 : ℕ) / (k + 1 : ℕ) := by
  rcases Nat.eq_zero_or_pos k with rfl | hk
  · rw [Nat.cast_zero, div_zero]
    positivity
  · rw [div_le_div_iff₀ (Nat.cast_pos.2 hk) (Nat.cast_pos.2 (by omega))]
    have : u * (k + 1) ≤ (u + 1) * k := by nlinarith
    exact_mod_cast this

/-- A further case that is a duplicate or unsolved. -/
theorem verdictsValue_append (hparams : params.Sound) {v : CaseVerdict} (hcredit : 0 ≤ totalCredit vs)
    (hv : v.status = .duplicate ∨ v.status = .unsolved) :
      verdictsValue params (vs ++ [v]) ≤ verdictsValue params vs := by
  have hsame : totalCredit (vs ++ [v]) = totalCredit vs := by
    rcases hv with h | h <;> simp [totalCredit, h]
  refine verdictsValue_le hparams (by simp) (hsame ▸ hcredit) hsame.le ?_
  have hcount := statusCount_add_le (show CaseStatus.unsolved ≠ .duplicate by decide) vs
  rcases hv with h | h
  · have hunsolved : statusCount .unsolved (vs ++ [v]) = statusCount .unsolved vs := by simp [statusCount, h]
    have hduplicate : statusCount .duplicate (vs ++ [v]) = statusCount .duplicate vs + 1 := by simp [statusCount, h]
    rw [unsolvedShare, unsolvedShare, hunsolved, hduplicate, List.length_append, List.length_singleton,
      Nat.add_sub_add_right]
  · have hunsolved : statusCount .unsolved (vs ++ [v]) = statusCount .unsolved vs + 1 := by simp [statusCount, h]
    have hduplicate : statusCount .duplicate (vs ++ [v]) = statusCount .duplicate vs := by simp [statusCount, h]
    rw [unsolvedShare, unsolvedShare, hunsolved, hduplicate, List.length_append, List.length_singleton,
      show vs.length + 1 - statusCount .duplicate vs = vs.length - statusCount .duplicate vs + 1 by omega]
    exact share_le_of_unsolved (by omega)

/-- A trivial or discriminating case that becomes a duplicate. -/
theorem verdictsValue_duplicate (hparams : params.Sound) {l r : List CaseVerdict} {v v' : CaseVerdict}
    (hcredit : 0 ≤ totalCredit (l ++ v' :: r)) (hnonneg : 0 ≤ v.credit)
    (hv : v.status = .trivial ∨ v.status = .discriminating) (hv' : v'.status = .duplicate) :
    verdictsValue params (l ++ v' :: r) ≤ verdictsValue params (l ++ v :: r) := by
  refine verdictsValue_le hparams (by simp) hcredit ?_ ?_
  · rcases hv with h | h
    · simp [totalCredit, h, hv']
    · simp [totalCredit, h, hv', hnonneg]
  · have hcount := statusCount_add_le (show CaseStatus.unsolved ≠ .duplicate by decide) (l ++ r)
    have hunsolved : statusCount .unsolved (l ++ v :: r) = statusCount .unsolved (l ++ r) := by
      rcases hv with h | h <;> simp [statusCount, h]
    have hunsolved' : statusCount .unsolved (l ++ v' :: r) = statusCount .unsolved (l ++ r) := by
      simp [statusCount, hv']
    have hduplicate : statusCount .duplicate (l ++ v :: r) = statusCount .duplicate (l ++ r) := by
      rcases hv with h | h <;> simp [statusCount, h]
    have hduplicate' : statusCount .duplicate (l ++ v' :: r) = statusCount .duplicate (l ++ r) + 1 := by
      simp [statusCount, hv']
      omega
    have hlen : ∀ w : CaseVerdict, (l ++ w :: r).length = (l ++ r).length + 1 := by
      intro w
      simp
      omega
    rw [unsolvedShare, unsolvedShare, hunsolved, hunsolved', hduplicate, hduplicate', hlen, hlen, Nat.add_sub_add_right,
      show (l ++ r).length + 1 - statusCount .duplicate (l ++ r) =
        (l ++ r).length - statusCount .duplicate (l ++ r) + 1 by omega]
    exact share_le_of_fewer (by omega)

end Value

/-! ## What a further claim changes -/

section Claims

variable {params : ScoreParams} {generatorOwnerKey : String} {f : CaseRef → CaseVerdict}

/-- A further claimed fingerprint makes a duplicate of the case that would have claimed it. -/
theorem verdicts_insert (fp : String) : ∀ (cases : List CaseRef) (claimed : Finset String),
    verdicts f (insert fp claimed) cases = verdicts f claimed cases ∨
      ∃ l c r, c.fingerprint = fp ∧ verdicts f claimed cases = l ++ f c :: r ∧
        verdicts f (insert fp claimed) cases = l ++ duplicateOf c :: r
  | [], _ => .inl rfl
  | c :: cs, claimed => by
    rw [verdicts, verdicts]
    by_cases hdup : c.fingerprint ∈ claimed
    · rw [if_pos hdup, if_pos (Finset.mem_insert_of_mem hdup)]
      rcases verdicts_insert fp cs claimed with h | ⟨l, c', r, hfp, h, h'⟩
      · exact .inl (by rw [h])
      · exact .inr ⟨duplicateOf c :: l, c', r, hfp, by rw [h, List.cons_append], by rw [h', List.cons_append]⟩
    · rw [if_neg hdup]
      by_cases heq : c.fingerprint = fp
      · rw [if_pos (by rw [heq]; exact Finset.mem_insert_self _ _), heq]
        exact .inr ⟨[], c, _, heq, rfl, rfl⟩
      · rw [if_neg (by simp [heq, hdup]), Finset.insert_comm]
        rcases verdicts_insert fp cs (insert c.fingerprint claimed) with h | ⟨l, c', r, hfp, h, h'⟩
        · exact .inl (by rw [h])
        · exact .inr ⟨f c :: l, c', r, hfp, by rw [h, List.cons_append], by rw [h', List.cons_append]⟩

/-- The verdict on a last case. -/
theorem verdicts_append_singleton (c : CaseRef) : ∀ (cases : List CaseRef) (claimed : Finset String),
    verdicts f claimed (cases ++ [c]) = verdicts f claimed cases ++
      [if c.fingerprint ∈ claimed ∨ c.fingerprint ∈ cases.map (·.fingerprint) then duplicateOf c else f c]
  | [], claimed => by
    simp only [List.nil_append, verdicts, List.map_nil, List.not_mem_nil, or_false]
    split <;> rfl
  | d :: ds, claimed => by
    rw [List.cons_append, verdicts, verdicts]
    by_cases hdup : d.fingerprint ∈ claimed
    · have hiff : c.fingerprint ∈ claimed ∨ c.fingerprint ∈ (d :: ds).map (·.fingerprint) ↔
          c.fingerprint ∈ claimed ∨ c.fingerprint ∈ ds.map (·.fingerprint) := by
        rw [List.map_cons, List.mem_cons]
        constructor
        · rintro (h | h | h)
          · exact .inl h
          · exact .inl (h ▸ hdup)
          · exact .inr h
        · rintro (h | h)
          · exact .inl h
          · exact .inr (.inr h)
      simp only [hdup, if_true, verdicts_append_singleton c ds claimed, hiff, List.cons_append]
    · have hiff : c.fingerprint ∈ claimed ∨ c.fingerprint ∈ (d :: ds).map (·.fingerprint) ↔
          c.fingerprint ∈ insert d.fingerprint claimed ∨ c.fingerprint ∈ ds.map (·.fingerprint) := by
        rw [List.map_cons, List.mem_cons, Finset.mem_insert]
        tauto
      simp only [hdup, if_false, verdicts_append_singleton c ds (insert d.fingerprint claimed), hiff, List.cons_append]

/-- The seeds depend on which fingerprints are claimed. -/
theorem scoreSeeds_claimed : ∀ {seeds : List SeedPanel} {claimed claimed' : List String} {packs : List PackScore},
    claimed.toFinset = claimed'.toFinset → scoreSeeds params generatorOwnerKey claimed seeds = .ok packs →
      scoreSeeds params generatorOwnerKey claimed' seeds = .ok packs
  | [], _, _, _, _, h => h
  | seed :: seeds, claimed, claimed', packs, hclaimed, h => by
    rw [scoreSeeds_cons_eq_ok_iff] at h ⊢
    obtain ⟨hparams, hpanel, hrefs, rest, hrest, rfl⟩ := h
    refine ⟨hparams, hpanel, hrefs, rest, scoreSeeds_claimed ?_ hrest, by rw [SeedPanel.pack, SeedPanel.pack, hclaimed]⟩
    rw [List.toFinset_append, List.toFinset_append, hclaimed]

theorem scoreSeeds_append_eq_ok_iff {pre seeds : List SeedPanel} {claimed : List String} {packs : List PackScore} :
    scoreSeeds params generatorOwnerKey claimed (pre ++ seeds) = .ok packs ↔
      ∃ first rest, scoreSeeds params generatorOwnerKey claimed pre = .ok first ∧
        scoreSeeds params generatorOwnerKey (claimed ++ pre.flatMap fun s => s.cases.map (·.fingerprint)) seeds =
        .ok rest ∧ packs = first ++ rest := by
  induction pre generalizing claimed packs with
  | nil => simp [scoreSeeds]
  | cons seed pre ih =>
    simp only [List.cons_append, scoreSeeds_cons_eq_ok_iff, List.flatMap_cons, ← List.append_assoc, ih]
    constructor
    · rintro ⟨hparams, hpanel, hrefs, _, ⟨first, rest, hfirst, hrest, rfl⟩, rfl⟩
      exact ⟨_, rest, ⟨hparams, hpanel, hrefs, first, hfirst, rfl⟩, hrest, rfl⟩
    · rintro ⟨_, rest, ⟨hparams, hpanel, hrefs, first, hfirst, rfl⟩, hrest, rfl⟩
      exact ⟨hparams, hpanel, hrefs, _, ⟨first, rest, hfirst, hrest, rfl⟩, rfl⟩

/-- The pack judged a case with this fingerprint unsolved. -/
def JudgedUnsolved (fp : String) (ps : PackScore) : Prop :=
  ∃ cv ∈ ps.cases, cv.fingerprint = fp ∧ cv.status = .unsolved

/-- A case with this fingerprint that the one pack judged unsolved is a duplicate in the other. -/
def TurnsDuplicate (fp : String) (ps ps' : PackScore) : Prop :=
  ∃ (i : ℕ) (cv cv' : CaseVerdict), ps.cases[i]? = some cv ∧ ps'.cases[i]? = some cv' ∧ cv'.caseId = cv.caseId ∧
    cv.fingerprint = fp ∧ cv.status = .unsolved ∧ cv'.status = .duplicate

theorem TurnsDuplicate.judgedUnsolved {fp : String} {ps ps' : PackScore} (h : TurnsDuplicate fp ps ps') :
    JudgedUnsolved fp ps := by
  obtain ⟨i, cv, cv', hcv, -, -, hfp, hunsolved, -⟩ := h
  exact ⟨cv, List.mem_of_getElem? hcv, hfp, hunsolved⟩

/-- The verdicts of a scored pack, and its score. -/
theorem SeedPanel.pack_scored {seed : SeedPanel} {claimed : List String} (hparams : params.Sound)
    (hpanel : SoundPanel seed.panel) (h : (seed.pack params generatorOwnerKey claimed).status = .scored) :
    let vs := verdicts (judge params generatorOwnerKey (rowsOf seed.panel)) claimed.toFinset seed.cases
    statusCount .insufficientPanel vs = 0 ∧ (seed.pack params generatorOwnerKey claimed).cases = vs ∧
      (seed.pack params generatorOwnerKey claimed).score = verdictsValue params vs ∧ 0 ≤ totalCredit vs := by
  intro vs
  have hzero : statusCount .insufficientPanel vs = 0 := by
    by_contra hne
    rw [SeedPanel.pack, (scorePack_insufficient hne).1] at h
    cases h
  obtain ⟨-, hcases, -, hscore, -⟩ := scorePack_scored hparams (inRange_rowsOf hpanel) hzero
  have hcredit : ∀ v ∈ vs, 0 ≤ v.credit ∧ v.credit ≤ 1 + params.championBonus :=
    credit_verdicts_mem hparams (inRange_rowsOf hpanel)
  exact ⟨hzero, hcases, hscore, (totalCredit_mem (by linarith [hparams.championBonus.1]) hcredit).1⟩

/-- A pack with a further claimed fingerprint scores no more, unless a case that it had judged unsolved is a duplicate
now. -/
theorem pack_claim_le {seed : SeedPanel} {claimed claimed' : List String} {fp : String} (hparams : params.Sound)
    (hpanel : SoundPanel seed.panel) (hclaimed : claimed'.toFinset = insert fp claimed.toFinset)
    (h : (seed.pack params generatorOwnerKey claimed).status = .scored)
    (h' : (seed.pack params generatorOwnerKey claimed').status = .scored) :
    (seed.pack params generatorOwnerKey claimed').score ≤ (seed.pack params generatorOwnerKey claimed).score ∨
      TurnsDuplicate fp (seed.pack params generatorOwnerKey claimed) (seed.pack params generatorOwnerKey claimed') := by
  obtain ⟨hzero, hcases, hscore, -⟩ := SeedPanel.pack_scored hparams hpanel h
  obtain ⟨-, hcases', hscore', hcredit'⟩ := SeedPanel.pack_scored hparams hpanel h'
  rw [hclaimed] at hcases' hscore' hcredit'
  rw [hscore, hscore', TurnsDuplicate, hcases, hcases']
  rcases @verdicts_insert (judge params generatorOwnerKey (rowsOf seed.panel)) fp seed.cases claimed.toFinset with
    hsame | ⟨l, c, r, hfp, hvs, hvs'⟩
  · exact .inl (by rw [hsame])
  · obtain ⟨hprint, hdup, -⟩ := judge_spec params generatorOwnerKey (rowsOf seed.panel) c
    have hmem : judge params generatorOwnerKey (rowsOf seed.panel) c ∈
        verdicts (judge params generatorOwnerKey (rowsOf seed.panel)) claimed.toFinset seed.cases := by
      rw [hvs]
      simp
    have hpanelled : (judge params generatorOwnerKey (rowsOf seed.panel) c).status ≠ .insufficientPanel := by
      intro heq
      have := List.countP_eq_zero.1 hzero _ hmem
      simp [heq] at this
    have hnonneg : 0 ≤ (judge params generatorOwnerKey (rowsOf seed.panel) c).credit :=
      (credit_judge_mem hparams.championBonus.1 (inRange_rowsOf hpanel)).1
    have hat (v : CaseVerdict) : (l ++ v :: r)[l.length]? = some v := by
      rw [List.getElem?_append_right (le_refl _), Nat.sub_self, List.getElem?_cons_zero]
    rw [hvs'] at hcredit' ⊢
    cases hstatus : (judge params generatorOwnerKey (rowsOf seed.panel) c).status with
    | duplicate => exact absurd hstatus hdup
    | insufficientPanel => exact absurd hstatus hpanelled
    | unsolved =>
      rw [hvs]
      exact .inr ⟨l.length, _, duplicateOf c, hat _, hat _, (judge_caseId _ _ _ c).symm, hprint.trans hfp, hstatus, rfl⟩
    | trivial => exact .inl (hvs ▸ verdictsValue_duplicate hparams hcredit' hnonneg (.inl hstatus) rfl)
    | discriminating => exact .inl (hvs ▸ verdictsValue_duplicate hparams hcredit' hnonneg (.inr hstatus) rfl)

/-- Later packs with a further claimed fingerprint. -/
theorem scoreSeeds_claim_le (fp : String) : ∀ {seeds : List SeedPanel} {claimed claimed' : List String}
    {packs packs' : List PackScore}, claimed'.toFinset = insert fp claimed.toFinset →
    scoreSeeds params generatorOwnerKey claimed seeds = .ok packs → (∀ ps ∈ packs, ps.status = .scored) →
    scoreSeeds params generatorOwnerKey claimed' seeds = .ok packs' → (∀ ps ∈ packs', ps.status = .scored) →
      List.Forall₂ (fun ps ps' => ps'.score ≤ ps.score ∨ TurnsDuplicate fp ps ps') packs packs'
  | [], _, _, _, _, _, h, _, h', _ => by
    cases h
    cases h'
    exact .nil
  | seed :: seeds, claimed, claimed', packs, packs', hclaimed, h, hs, h', hs' => by
    obtain ⟨hparams, hpanel, -, rest, hrest, rfl⟩ := scoreSeeds_cons_eq_ok_iff.1 h
    obtain ⟨-, -, -, rest', hrest', rfl⟩ := scoreSeeds_cons_eq_ok_iff.1 h'
    rw [List.forall_mem_cons] at hs hs'
    refine .cons (pack_claim_le hparams hpanel hclaimed hs.1 hs'.1)
      (scoreSeeds_claim_le fp ?_ hrest hs.2 hrest' hs'.2)
    rw [List.toFinset_append, List.toFinset_append, hclaimed, Finset.insert_union]

end Claims

/-! ## The appended case -/

/-- A further case at the end of a seed's pack, with the panel's results for it. -/
structure Appended (c : CaseRef) (seed seed' : SeedPanel) : Prop where
  cases : seed'.cases = seed.cases ++ [c]
  fresh : ∀ d ∈ seed.cases, d.caseId ≠ c.caseId
  panel : List.Forall₂ (fun m m' => ∃ extra : List PanelCaseResult, (∀ r ∈ extra, r.caseId = c.caseId) ∧
    m' = { m with results := m.results ++ extra }) seed.panel seed'.panel

/-- A run, and the run with a further case in the pack of one of its seeds, that are both scored. `verdict` is the one
on the further case. -/
structure AppendedRun (params : ScoreParams) (c : CaseRef) (pre : List SeedPanel) (seed seed' : SeedPanel)
    (post : List SeedPanel) (generatorOwnerKey : String) (claimedFingerprints : List String) (out out' : RunScore)
    (verdict : CaseVerdict) : Prop where
  appended : Appended c seed seed'
  run : scoreRun ⟨generatorOwnerKey, pre ++ seed :: post, claimedFingerprints⟩ params = .ok out
  scored : out.status = .scored
  run' : scoreRun ⟨generatorOwnerKey, pre ++ seed' :: post, claimedFingerprints⟩ params = .ok out'
  scored' : out'.status = .scored
  verdict : (out'.seeds[pre.length]?.bind fun ps => ps.cases.getLast?) = some verdict

section Appending

variable {params : ScoreParams} {generatorOwnerKey : String} {c : CaseRef} {seed seed' : SeedPanel}
  {claimed : List String}

/-- The verdicts on the other cases stay. -/
theorem Appended.judge_eq (h : Appended c seed seed') {d : CaseRef} (hd : d ∈ seed.cases) :
    judge params generatorOwnerKey (rowsOf seed'.panel) d = judge params generatorOwnerKey (rowsOf seed.panel) d := by
  have hsorted := @rel_sortOn _ _ _ _ _ _ (·.agentId) (·.agentId) _ _ _ (fun m n m' n' hm hn => by
    obtain ⟨_, -, rfl⟩ := hm
    obtain ⟨_, -, rfl⟩ := hn
    exact Iff.rfl) h.panel
  refine (judge_congr ?_).symm
  rw [rowsOf, rowsOf, List.forall₂_map_left_iff, List.forall₂_map_right_iff]
  refine hsorted.imp fun m m' hm => ?_
  obtain ⟨extra, hextra, rfl⟩ := hm
  have hnone : d.caseId ∉ Dict.keys (extra.map fun r => (r.caseId, r)) := by
    simp only [Dict.keys, List.map_map, List.mem_map, Function.comp_apply, not_exists, not_and]
    intro r hr heq
    exact h.fresh d hd (heq.symm.trans (hextra r hr))
  refine ⟨cleanResult_congr rfl ?_, rfl, rfl⟩
  simp only [PanelMember.row, List.map_append, Dict.get?_append_of_not_mem hnone]

/-- The pack with the further case: its verdict follows those on the other cases. -/
theorem Appended.verdicts_eq (h : Appended c seed seed') :
    verdicts (judge params generatorOwnerKey (rowsOf seed'.panel)) claimed.toFinset seed'.cases =
      verdicts (judge params generatorOwnerKey (rowsOf seed.panel)) claimed.toFinset seed.cases ++
        [if c.fingerprint ∈ claimed.toFinset ∨ c.fingerprint ∈ seed.cases.map (·.fingerprint) then duplicateOf c
          else judge params generatorOwnerKey (rowsOf seed'.panel) c] := by
  rw [h.cases, verdicts_append_singleton, verdicts_congr fun d hd => h.judge_eq hd]

/-- The pack with the further case scores no more, and a case that is not a duplicate claims a new fingerprint. -/
theorem Appended.pack_le (h : Appended c seed seed') (hparams : params.Sound) (hpanel : SoundPanel seed.panel)
    (hpanel' : SoundPanel seed'.panel) (hs : (seed.pack params generatorOwnerKey claimed).status = .scored)
    (hs' : (seed'.pack params generatorOwnerKey claimed).status = .scored) {v : CaseVerdict}
    (hv : (seed'.pack params generatorOwnerKey claimed).cases.getLast? = some v)
    (hbad : v.status = .duplicate ∨ v.status = .unsolved) :
    (seed'.pack params generatorOwnerKey claimed).score ≤ (seed.pack params generatorOwnerKey claimed).score ∧
      (v.status = .duplicate ∧
          (claimed ++ seed'.cases.map (·.fingerprint)).toFinset = (claimed ++ seed.cases.map (·.fingerprint)).toFinset ∨
        v.status = .unsolved ∧ (claimed ++ seed'.cases.map (·.fingerprint)).toFinset =
          insert c.fingerprint (claimed ++ seed.cases.map (·.fingerprint)).toFinset) := by
  obtain ⟨-, -, hscore, hcredit⟩ := SeedPanel.pack_scored hparams hpanel hs
  obtain ⟨-, hcases', hscore', -⟩ := SeedPanel.pack_scored hparams hpanel' hs'
  rw [h.verdicts_eq] at hcases' hscore'
  rw [hcases', List.getLast?_concat] at hv
  rw [Option.some.inj hv] at hscore'
  rw [hscore, hscore']
  refine ⟨verdictsValue_append hparams hcredit hbad, ?_⟩
  have hclaims : (claimed ++ seed'.cases.map (·.fingerprint)).toFinset =
      insert c.fingerprint (claimed ++ seed.cases.map (·.fingerprint)).toFinset := by
    rw [h.cases, List.map_append, ← List.append_assoc, List.toFinset_append, Finset.union_comm]
    rfl
  rcases hbad with hdup | hunsolved
  · refine .inl ⟨hdup, ?_⟩
    rw [hclaims, Finset.insert_eq_of_mem]
    by_contra hnew
    simp only [List.toFinset_append, Finset.mem_union, List.mem_toFinset] at hnew
    rw [if_neg (by simpa using hnew)] at hv
    rw [← Option.some.inj hv] at hdup
    exact (judge_spec params generatorOwnerKey (rowsOf seed'.panel) c).2.1 hdup
  · exact .inr ⟨hunsolved, hclaims⟩

theorem take_drop_cons {α : Type} (first : List α) (p : α) (later : List α) :
    (first ++ p :: later).take (first.length + 1) = first ++ [p] ∧
      (first ++ p :: later).drop (first.length + 1) = later := by
  simp [List.take_append, List.drop_append]

/-- A further case that is judged a duplicate or unsolved: no pack scores more, but a later one of which a case with its
fingerprint turns from unsolved to duplicate, and without a later pack that had judged it unsolved the run scores no
more. -/
theorem scoreRun_appended {pre post : List SeedPanel} {claimed : List String} {out out' : RunScore} {v : CaseVerdict}
    (h : AppendedRun params c pre seed seed' post generatorOwnerKey claimed out out' v)
    (hbad : v.status = .duplicate ∨ v.status = .unsolved) :
    List.Forall₂ (fun ps ps' => ps'.score ≤ ps.score) (out.seeds.take (pre.length + 1))
        (out'.seeds.take (pre.length + 1)) ∧
      List.Forall₂ (fun ps ps' => ps'.score ≤ ps.score ∨ v.status = .unsolved ∧ TurnsDuplicate c.fingerprint ps ps')
        (out.seeds.drop (pre.length + 1)) (out'.seeds.drop (pre.length + 1)) ∧
      ((v.status = .unsolved → ∀ ps ∈ out.seeds.drop (pre.length + 1), ¬ JudgedUnsolved c.fingerprint ps) →
        out'.score ≤ out.score) := by
  obtain ⟨hseeds, hall, hscore⟩ := scoreRun_scored h.run h.scored
  obtain ⟨hseeds', hall', hscore'⟩ := scoreRun_scored h.run' h.scored'
  have hverdict := h.verdict
  obtain ⟨first, rest, hfirst, hrest, hpacks⟩ := scoreSeeds_append_eq_ok_iff.1 hseeds
  obtain ⟨first', rest', hfirst', hrest', hpacks'⟩ := scoreSeeds_append_eq_ok_iff.1 hseeds'
  -- the packs before the seed are the same
  obtain rfl : first = first' := Except.ok.inj (hfirst.symm.trans hfirst')
  obtain ⟨hparams, hpanel, -, later, hlater, rfl⟩ := scoreSeeds_cons_eq_ok_iff.1 hrest
  obtain ⟨-, hpanel', -, later', hlater', rfl⟩ := scoreSeeds_cons_eq_ok_iff.1 hrest'
  have hlen : pre.length = first.length := (packGuarantee_of_scoreSeeds hfirst).length_eq
  rw [hpacks] at hall
  rw [hpacks'] at hall' hverdict
  rw [hlen, List.getElem?_append_right (le_refl _), Nat.sub_self, List.getElem?_cons_zero, Option.bind_some] at hverdict
  have hs := hall _ (List.mem_append_right _ List.mem_cons_self)
  have hs' := hall' _ (List.mem_append_right _ List.mem_cons_self)
  obtain ⟨hle, hclaims⟩ := h.appended.pack_le hparams hpanel hpanel' hs hs' hverdict hbad
  have hlaters : List.Forall₂ (fun ps ps' => ps'.score ≤ ps.score ∨
      v.status = .unsolved ∧ TurnsDuplicate c.fingerprint ps ps') later later' := by
    rcases hclaims with ⟨-, hsame⟩ | ⟨hunsolved, hinsert⟩
    · obtain rfl : later = later' := Except.ok.inj (hlater.symm.trans (scoreSeeds_claimed hsame hlater'))
      exact List.forall₂_same.2 fun ps _ => .inl (le_refl _)
    · refine (scoreSeeds_claim_le c.fingerprint hinsert hlater (fun ps hps => hall ps ?_) hlater' fun ps hps =>
        hall' ps ?_).imp fun ps ps' hps => hps.imp_right fun hturns => ⟨hunsolved, hturns⟩
      · exact List.mem_append_right _ (List.mem_cons_of_mem _ hps)
      · exact List.mem_append_right _ (List.mem_cons_of_mem _ hps)
  rw [hpacks, hpacks', hlen]
  obtain ⟨htake, hdrop⟩ := take_drop_cons first (seed.pack params generatorOwnerKey _) later
  obtain ⟨htake', hdrop'⟩ := take_drop_cons first (seed'.pack params generatorOwnerKey _) later'
  rw [htake, hdrop, htake', hdrop']
  have hsame : List.Forall₂ (fun ps ps' : PackScore => ps'.score ≤ ps.score) first first :=
    List.forall₂_same.2 fun ps _ => le_refl _
  refine ⟨List.rel_append hsame (.cons hle .nil), hlaters, fun hnone => ?_⟩
  rw [hscore, hscore', hpacks, hpacks']
  have hlast : List.Forall₂ (fun ps ps' : PackScore => ps'.score ≤ ps.score) later later' :=
    ((List.forall₂_and_left later later').2 ⟨fun ps hps hv => hnone hv ps hps, hlaters⟩).imp fun ps ps' h =>
      h.2.resolve_right fun hturns => h.1 hturns.1 hturns.2.judgedUnsolved
  have hsum := (List.forall₂_map_left_iff.2
      (List.forall₂_map_right_iff.2 (List.rel_append hsame (.cons hle hlast)).flip)).sum_le_sum
  simp only [List.length_append, List.length_cons]
  exact div_le_div_of_nonneg_right hsum (Nat.cast_nonneg _)

end Appending

/-! ## Two runs -/

/-- A pack of one case, and the pack with an unsolved case more. -/
def samplePack (third : ℚ) : SeedPanel := ⟨"1", [⟨"t", "T"⟩], samplePanel [("t", 1, 1, third)]⟩

def samplePack' (third : ℚ) : SeedPanel :=
  ⟨"1", [⟨"t", "T"⟩, ⟨"u", "F"⟩], samplePanel [("t", 1, 1, third), ("u", 0, 0, 0)]⟩

/-- A later pack whose first case has the fingerprint of the unsolved one. -/
def sampleLater (solved : ℚ) : SeedPanel :=
  ⟨"2", [⟨"u", "F"⟩, ⟨"d", "D"⟩], samplePanel [("u", solved, solved, 0), ("d", 1, 1, 0)]⟩

theorem sample_appended (third : ℚ) : Appended ⟨"u", "F"⟩ (samplePack third) (samplePack' third) := by
  refine ⟨rfl, fun d hd => ?_, .cons ?_ (.cons ?_ (.cons ?_ .nil))⟩
  · obtain rfl := List.mem_singleton.1 hd
    decide
  all_goals exact ⟨[{ caseId := "u", score := 0 }], by simp, rfl⟩

def sampleUnsolved : CaseVerdict :=
  { caseId := "u", fingerprint := "F", status := .unsolved, panelSize := 3, championFailed := true }

/-- A trivial case, and later an unsolved one. -/
theorem appendedRun_trivial : AppendedRun DefaultScoreParams ⟨"u", "F"⟩ [] (samplePack 1) (samplePack' 1)
    [sampleLater 0] "" [] (sampleScore [samplePack 1, sampleLater 0]) (sampleScore [samplePack' 1, sampleLater 0])
    sampleUnsolved :=
  ⟨sample_appended 1, by decide +kernel, by decide +kernel, by decide +kernel, by decide +kernel, by decide +kernel⟩

/-- Paying cases only. -/
theorem appendedRun_paying : AppendedRun DefaultScoreParams ⟨"u", "F"⟩ [] (samplePack 0) (samplePack' 0)
    [sampleLater 1] "" [] (sampleScore [samplePack 0, sampleLater 1]) (sampleScore [samplePack' 0, sampleLater 1])
    sampleUnsolved :=
  ⟨sample_appended 0, by decide +kernel, by decide +kernel, by decide +kernel, by decide +kernel, by decide +kernel⟩

/-- The second seed's unsolved case is a duplicate of the further case, and its pack scores more. -/
theorem scoreRun_can_rise : ¬ ∀ (params : ScoreParams) (c : CaseRef) (pre : List SeedPanel) (seed seed' : SeedPanel)
    (post : List SeedPanel) (generatorOwnerKey : String) (claimed : List String) (out out' : RunScore)
    (v : CaseVerdict), AppendedRun params c pre seed seed' post generatorOwnerKey claimed out out' v →
      v.status = .duplicate ∨ v.status = .unsolved → out'.score ≤ out.score := by
  intro h
  have hle := h _ _ _ _ _ _ _ _ _ _ _ appendedRun_trivial (.inr rfl)
  exact absurd hle (by decide +kernel)

/-- The second seed's paying case is a duplicate of the further case: both packs score less. -/
theorem scoreRun_appended_sample :
    0 < (sampleScore [samplePack' 0, sampleLater 1]).score ∧
    (sampleScore [samplePack' 0, sampleLater 1]).score ≤ (sampleScore [samplePack 0, sampleLater 1]).score := by
  refine ⟨by decide +kernel, (scoreRun_appended appendedRun_paying (.inr rfl)).2.2 fun _ ps hps => ?_⟩
  have hlater : (sampleScore [samplePack 0, sampleLater 1]).seeds.drop 1 =
      [(sampleLater 1).pack DefaultScoreParams "" ["T"]] := by decide +kernel
  rw [List.length_nil, zero_add, hlater, List.mem_singleton] at hps
  rintro ⟨cv, hcv, -, hunsolved⟩
  have hpaying : ∀ cv ∈ ((sampleLater 1).pack DefaultScoreParams "" ["T"]).cases, cv.status = .discriminating := by
    decide +kernel
  rw [hps] at hcv
  rw [hpaying cv hcv] at hunsolved
  cases hunsolved

end DittoSubnet.Generator

import DittoSubnet.Generator.Score
import DittoSubnet.Kit.Arith

/-!
# Scoring a generator run

`ScoreRun` of `challenge/score.go`: the packs of the seeds are scored in order, each claims its fingerprints for the
seeds after it, and the score of the run is the mean of theirs.

* `scoreSeeds_congr`: the packs depend on the verdicts alone, so on neither the order of a panel (`judge_perm`) nor the
  results of the generator's own agents (`judge_own`).
* `paid_scoreSeeds_le`: over a run a fingerprint earns credit once, and not when it is claimed.
* `verdicts_insert`: a further claimed fingerprint makes a duplicate of the case that would have claimed it.
* `verdictsValue_le`: a pack is worth no more with less credit, more cases and a higher share of unsolved ones.
-/

namespace DittoSubnet.Generator

open Kit

/-! ## The run -/

/-- One seed's pack and its panel. -/
structure SeedPanel where
  seed : String
  cases : List CaseRef
  panel : List PanelMember

structure RunInput where
  generatorOwnerKey : String
  seeds : List SeedPanel
  claimedFingerprints : List String

structure RunScore where
  status : PackStatus := .scored
  score : ℚ := 0
  seeds : List PackScore
  deriving DecidableEq

inductive RunError
  | noSeeds
  | seed (seed : String) (e : ScoreError)
  deriving DecidableEq

/-- The packs of the seeds, in order; `claimed` grows by the fingerprints of every pack. -/
def scoreSeeds (params : ScoreParams) (generatorOwnerKey : String) : List String → List SeedPanel →
    Except RunError (List PackScore)
  | _, [] => .ok []
  | claimed, seed :: seeds => do
    let ps ← (scoreCases seed.cases ⟨generatorOwnerKey, seed.panel, claimed⟩ params).mapError (.seed seed.seed)
    let packs ← scoreSeeds params generatorOwnerKey (claimed ++ seed.cases.map (·.fingerprint)) seeds
    return ps :: packs

/-- `ScoreRun`. -/
def scoreRun (input : RunInput) (params : ScoreParams) : Except RunError RunScore := do
  ensure (input.seeds ≠ []) .noSeeds
  let packs ← scoreSeeds params input.generatorOwnerKey input.claimedFingerprints input.seeds
  if ∃ ps ∈ packs, ps.status ≠ .scored then return { status := .insufficientPanel, seeds := packs }
  return { score := (packs.map (·.score)).sum / input.seeds.length, seeds := packs }

section Seeds

variable {params : ScoreParams} {generatorOwnerKey : String} {claimed : List String} {seed seed' : SeedPanel}
  {seeds seeds' : List SeedPanel} {packs : List PackScore}

/-- The pack of a seed. -/
def SeedPanel.pack (params : ScoreParams) (generatorOwnerKey : String) (claimed : List String) (seed : SeedPanel) :
    PackScore :=
  scorePack params generatorOwnerKey (rowsOf seed.panel) claimed.toFinset seed.cases

theorem scoreSeeds_cons_eq_ok_iff : scoreSeeds params generatorOwnerKey claimed (seed :: seeds) = .ok packs ↔
    params.Sound ∧ SoundPanel seed.panel ∧ checkRefs [] seed.cases = .ok () ∧
      ∃ rest, scoreSeeds params generatorOwnerKey (claimed ++ seed.cases.map (·.fingerprint)) seeds = .ok rest ∧
        packs = seed.pack params generatorOwnerKey claimed :: rest := by
  simp only [scoreSeeds, bind_eq_ok_iff, mapError_eq_ok_iff, scoreCases_eq_ok_iff, pure_eq_ok_iff]
  constructor
  · rintro ⟨ps, ⟨hparams, hpanel, hrefs, rfl⟩, rest, hrest, rfl⟩
    exact ⟨hparams, hpanel, hrefs, rest, hrest, rfl⟩
  · rintro ⟨hparams, hpanel, hrefs, rest, hrest, rfl⟩
    exact ⟨_, ⟨hparams, hpanel, hrefs, rfl⟩, rest, hrest, rfl⟩

theorem scoreRun_eq_ok_iff {input : RunInput} {out : RunScore} : scoreRun input params = .ok out ↔
    input.seeds ≠ [] ∧ ∃ packs,
      scoreSeeds params input.generatorOwnerKey input.claimedFingerprints input.seeds = .ok packs ∧
        out = if ∃ ps ∈ packs, ps.status ≠ .scored then { status := .insufficientPanel, seeds := packs }
          else { score := (packs.map (·.score)).sum / input.seeds.length, seeds := packs } := by
  rw [scoreRun, ensure_bind_eq_ok_iff, bind_eq_ok_iff]
  refine and_congr_right fun _ => exists_congr fun packs => and_congr_right fun _ => ?_
  split
  · rw [pure_eq_ok_iff, eq_comm]
  · rw [pure_eq_ok_iff, eq_comm]

/-- The packs of a scored run, and its score. -/
theorem scoreRun_scored {input : RunInput} {out : RunScore} (h : scoreRun input params = .ok out)
    (hstatus : out.status = .scored) :
    scoreSeeds params input.generatorOwnerKey input.claimedFingerprints input.seeds = .ok out.seeds ∧
      (∀ ps ∈ out.seeds, ps.status = .scored) ∧ out.score = (out.seeds.map (·.score)).sum / input.seeds.length := by
  obtain ⟨-, packs, hpacks, hout⟩ := scoreRun_eq_ok_iff.1 h
  split at hout
  · rw [hout] at hstatus
    cases hstatus
  · rename_i hscored
    subst hout
    push Not at hscored
    exact ⟨hpacks, hscored, rfl⟩

/-! ## What the packs depend on -/

/-- Seeds whose cases are the same and are judged alike, on panels that are accepted alike. -/
structure JudgedAlike (params : ScoreParams) (generatorOwnerKey : String) (seed seed' : SeedPanel) : Prop where
  cases : seed'.cases = seed.cases
  panel : SoundPanel seed.panel → SoundPanel seed'.panel
  judge : SoundPanel seed.panel → ∀ c ∈ seed.cases,
    judge params generatorOwnerKey (rowsOf seed.panel) c = judge params generatorOwnerKey (rowsOf seed'.panel) c

theorem JudgedAlike.pack_eq (h : JudgedAlike params generatorOwnerKey seed seed') (hpanel : SoundPanel seed.panel) :
    seed'.pack params generatorOwnerKey claimed = seed.pack params generatorOwnerKey claimed := by
  rw [SeedPanel.pack, SeedPanel.pack, h.cases, scorePack_eq, scorePack_eq, verdicts_congr (h.judge hpanel)]

/-- The packs depend on the verdicts. -/
theorem scoreSeeds_congr (h : List.Forall₂ (JudgedAlike params generatorOwnerKey) seeds seeds')
    (hscored : scoreSeeds params generatorOwnerKey claimed seeds = .ok packs) :
    scoreSeeds params generatorOwnerKey claimed seeds' = .ok packs := by
  induction h generalizing claimed packs with
  | nil => exact hscored
  | cons hseed _ ih =>
    rw [scoreSeeds_cons_eq_ok_iff] at hscored ⊢
    obtain ⟨hparams, hpanel, hrefs, rest, hrest, rfl⟩ := hscored
    rw [hseed.cases]
    exact ⟨hparams, hseed.panel hpanel, hrefs, rest, ih hrest, by rw [hseed.pack_eq hpanel]⟩

theorem scoreRun_congr {input : RunInput} {out : RunScore}
    (h : List.Forall₂ (JudgedAlike params input.generatorOwnerKey) input.seeds seeds')
    (hscored : scoreRun input params = .ok out) : scoreRun { input with seeds := seeds' } params = .ok out := by
  rw [scoreRun_eq_ok_iff] at hscored ⊢
  obtain ⟨hne, packs, hpacks, rfl⟩ := hscored
  refine ⟨?_, packs, scoreSeeds_congr h hpacks, by rw [h.length_eq]⟩
  rw [← List.length_pos_iff] at hne ⊢
  exact h.length_eq ▸ hne

/-- A panel in another order. -/
structure Permuted (seed seed' : SeedPanel) : Prop where
  cases : seed'.cases = seed.cases
  panel : seed.panel.Perm seed'.panel

theorem Permuted.judgedAlike (h : Permuted seed seed') : JudgedAlike params generatorOwnerKey seed seed' where
  cases := h.cases
  panel hpanel := ⟨fun m hm => hpanel.1 m (h.panel.mem_iff.2 hm), (h.panel.map _).nodup_iff.1 hpanel.2⟩
  judge hpanel c _ := by
    have hinj : ∀ m ∈ seed.panel, ∀ m' ∈ seed.panel, m.agentId = m'.agentId → m = m' := fun m hm m' hm' =>
      List.inj_on_of_nodup_map hpanel.2 hm hm'
    rw [rowsOf, rowsOf, sortOn_eq_of_perm hinj h.panel]

/-- Other results in range for the same cases. -/
def OtherResults (rs rs' : List PanelCaseResult) : Prop :=
  List.Forall₂ (fun r r' => r'.caseId = r.caseId ∧ 0 ≤ r'.score ∧ r'.score ≤ 1) rs rs'

/-- The same member, or an agent of the owner with other results. -/
def OwnChanged (owner : String) (m m' : PanelMember) : Prop :=
  m' = m ∨ m.ownerKey = owner ∧ ∃ rs, OtherResults m.results rs ∧ m' = { m with results := rs }

/-- Panels that differ in the results of the owner's agents. -/
structure OwnResultsChanged (owner : String) (seed seed' : SeedPanel) : Prop where
  cases : seed'.cases = seed.cases
  panel : List.Forall₂ (OwnChanged owner) seed.panel seed'.panel

theorem OtherResults.sound {rs rs' : List PanelCaseResult} (h : OtherResults rs rs') (hrs : SoundResults rs) :
    SoundResults rs' := by
  refine ⟨fun r' hr' => ?_, ?_⟩
  · obtain ⟨r, -, hr⟩ := exists_of_mem_right h hr'
    exact hr.2
  · rw [← map_eq_of_rel (fun r r' hr => hr.1.symm) h]
    exact hrs.2

theorem OwnChanged.sound {owner : String} {m m' : PanelMember} (h : OwnChanged owner m m') (hm : m.Sound) :
    m'.Sound := by
  rcases h with rfl | ⟨-, rs, hrs, rfl⟩
  · exact hm
  · exact ⟨hm.agentId, hm.ownerKey, hrs.sound hm.results⟩

theorem OwnChanged.agentId {owner : String} {m m' : PanelMember} (h : OwnChanged owner m m') :
    m'.agentId = m.agentId := by
  rcases h with rfl | ⟨-, rs, -, rfl⟩ <;> rfl

theorem OwnChanged.sameFor {m m' : PanelMember} (hkey : generatorOwnerKey ≠ "") (h : OwnChanged generatorOwnerKey m m')
    (caseId : String) : SameFor generatorOwnerKey caseId m.row m'.row := by
  rcases h with rfl | ⟨hown, rs, -, rfl⟩
  · exact ⟨rfl, rfl, rfl⟩
  · have hnone : ∀ row : Row, row.1.ownerKey = generatorOwnerKey → cleanResult generatorOwnerKey caseId row = none :=
      fun row hrow => if_pos ⟨hkey, hrow⟩
    exact ⟨(hnone _ hown).trans (hnone _ hown).symm, rfl, rfl⟩

theorem OwnResultsChanged.judgedAlike (hkey : generatorOwnerKey ≠ "")
    (h : OwnResultsChanged generatorOwnerKey seed seed') :
    JudgedAlike params generatorOwnerKey seed seed' where
  cases := h.cases
  panel hpanel := by
    refine ⟨fun m' hm' => ?_, ?_⟩
    · obtain ⟨m, hm, hmm'⟩ := exists_of_mem_right h.panel hm'
      exact hmm'.sound (hpanel.1 m hm)
    · rw [← map_eq_of_rel (fun m m' hm => hm.agentId.symm) h.panel]
      exact hpanel.2
  judge _ c _ := by
    have hsorted : List.Forall₂ (OwnChanged generatorOwnerKey) (sortOn (·.agentId) seed.panel)
        (sortOn (·.agentId) seed'.panel) :=
      rel_sortOn (fun m n m' n' hm hn => by rw [hm.agentId, hn.agentId]) h.panel
    refine judge_congr ?_
    rw [rowsOf, rowsOf, List.forall₂_map_left_iff, List.forall₂_map_right_iff]
    exact hsorted.imp fun m m' hm => hm.sameFor hkey c.caseId

/-! ## One payment -/

theorem inRange_rowsOf {panel : List PanelMember} (h : SoundPanel panel) : InRange (rowsOf panel) := by
  intro row hrow caseId r hr
  obtain ⟨m, hm, rfl⟩ := List.mem_map.1 hrow
  obtain ⟨r', hr', heq⟩ := List.mem_map.1 (Dict.mem_of_get? hr)
  rw [← (Prod.mk.inj heq).2]
  exact (h.1 m (mem_sortOn.1 hm)).results.1 r' hr'

/-- How many verdicts on a fingerprint have credit. -/
def paid (fingerprint : String) (vs : List CaseVerdict) : ℕ := vs.countP fun cv =>
    cv.fingerprint = fingerprint ∧ 0 < cv.credit

/-- A pack pays a fingerprint where it first appears, unless it is claimed. -/
theorem paid_verdicts_le {f : CaseRef → CaseVerdict} (hf : ∀ c, (f c).fingerprint = c.fingerprint) (fp : String) :
    ∀ (cases : List CaseRef) (claimed : Finset String),
      paid fp (verdicts f claimed cases) ≤ if fp ∉ claimed ∧ fp ∈ cases.map (·.fingerprint) then 1 else 0
  | [], claimed => by simp [paid, verdicts]
  | c :: cs, claimed => by
    rw [verdicts]
    split
    · rename_i hdup
      have ih := paid_verdicts_le hf fp cs claimed
      have hne : fp ∉ claimed → fp ≠ c.fingerprint := fun hnot heq => hnot (heq ▸ hdup)
      rw [paid, List.countP_cons_of_neg (by simp [duplicateOf])]
      refine ih.trans ?_
      simp only [List.map_cons, List.mem_cons]
      split
      · rename_i h
        rw [if_pos ⟨h.1, .inr h.2⟩]
      · omega
    · rename_i hnew
      have ih := paid_verdicts_le hf fp cs (insert c.fingerprint claimed)
      rw [paid, List.countP_cons]
      unfold paid at ih
      by_cases heq : c.fingerprint = fp
      · -- the case itself may pay, and no later one does
        rw [if_neg (by simp [heq])] at ih
        rw [if_pos (show fp ∉ claimed ∧ fp ∈ (c :: cs).map (·.fingerprint) from ⟨heq ▸ hnew, by simp [heq]⟩)]
        split <;> omega
      · have hnone : ¬ ((f c).fingerprint = fp ∧ 0 < (f c).credit) := fun h => heq (hf c ▸ h.1)
        rw [if_neg (by simpa using hnone)]
        refine ih.trans (le_of_eq ?_)
        have hne : ¬ fp = c.fingerprint := fun h => heq h.symm
        simp [hne]

theorem paid_pack_le (fp : String) (hpanel : SoundPanel seed.panel) (hparams : params.Sound) :
    paid fp (seed.pack params generatorOwnerKey claimed).cases ≤
      if fp ∉ claimed ∧ fp ∈ seed.cases.map (·.fingerprint) then 1 else 0 := by
  by_cases h : statusCount .insufficientPanel
    (verdicts (judge params generatorOwnerKey (rowsOf seed.panel)) claimed.toFinset seed.cases) = 0
  · rw [SeedPanel.pack, (scorePack_scored hparams (inRange_rowsOf hpanel) h).2.1]
    have := paid_verdicts_le (fun c => (judge_spec params generatorOwnerKey (rowsOf seed.panel) c).1) fp seed.cases
      claimed.toFinset
    simpa using this
  · rw [SeedPanel.pack, (scorePack_insufficient h).2.2, paid, List.countP_map, List.countP_eq_zero.2 (by simp)]
    exact Nat.zero_le _

/-- Over the seeds a fingerprint is paid once, unless it is claimed. -/
theorem paid_scoreSeeds_le (fp : String) : ∀ {seeds : List SeedPanel} {claimed : List String} {packs : List PackScore},
    scoreSeeds params generatorOwnerKey claimed seeds = .ok packs →
      paid fp (packs.flatMap (·.cases)) ≤ if fp ∉ claimed then 1 else 0
  | [], claimed, packs, h => by
    cases h
    simp [paid]
  | seed :: seeds, claimed, packs, h => by
    obtain ⟨hparams, hpanel, -, rest, hrest, rfl⟩ := scoreSeeds_cons_eq_ok_iff.1 h
    have hpack : paid fp (seed.pack params generatorOwnerKey claimed).cases ≤ _ := paid_pack_le fp hpanel hparams
    have ih := paid_scoreSeeds_le fp hrest
    rw [List.flatMap_cons, paid, List.countP_append]
    unfold paid at hpack ih
    simp only [List.mem_append, not_or] at ih
    by_cases hclaimed : fp ∈ claimed
    · simp only [hclaimed, not_true_eq_false, false_and, if_false] at hpack ih ⊢
      omega
    · by_cases hcases : fp ∈ seed.cases.map (·.fingerprint)
      · simp only [hclaimed, hcases, not_true_eq_false, not_false_eq_true, and_false, and_true, if_false,
          if_true] at hpack ih ⊢
        omega
      · simp only [hclaimed, hcases, not_false_eq_true, and_false, and_true, if_false, if_true] at hpack ih ⊢
        omega

/-- The owners other than the generator's whose agents solve a case. -/
def solverOwners (params : ScoreParams) (generatorOwnerKey : String) (panel : List PanelMember) (caseId : String) :
    Finset String :=
  ((panel.filter fun m => (generatorOwnerKey = "" ∨ m.ownerKey ≠ generatorOwnerKey) ∧
    ∃ r ∈ m.results, r.caseId = caseId ∧ r.fault = false ∧ params.solveThreshold ≤ r.score).map (·.ownerKey)).toFinset

/-- The owners that the loop over the panel counts. -/
theorem solverOwners_tally_subset {panel : List PanelMember} (caseId : String) :
    (tally params generatorOwnerKey (rowsOf panel) caseId).solverOwners ⊆
      solverOwners params generatorOwnerKey panel caseId := by
  refine tally_inv (P := fun t => t.solverOwners ⊆ solverOwners params generatorOwnerKey panel caseId) (by simp)
    fun t row hrow ht => ?_
  unfold countRow
  cases hr : cleanResult generatorOwnerKey caseId row with
  | none => exact ht
  | some r =>
    dsimp only
    split
    · rename_i hsolves
      obtain ⟨hown, hget, hfault⟩ := cleanResult_eq_some_iff.1 hr
      obtain ⟨m, hm, rfl⟩ := List.mem_map.1 hrow
      obtain ⟨r', hr', heq⟩ := List.mem_map.1 (Dict.mem_of_get? hget)
      obtain ⟨rfl, rfl⟩ := Prod.mk.inj heq
      refine Finset.insert_subset ?_ ht
      rw [solverOwners, List.mem_toFinset]
      refine List.mem_map_of_mem (List.mem_filter.2 ⟨mem_sortOn.1 hm, ?_⟩)
      exact decide_eq_true ⟨hown, r', hr', rfl, hfault, hsolves⟩
    split
    · exact ht
    · exact ht

/-! ## What a scored run guarantees -/

/-- A pack's score is a share and is not capped, and a case that too few owners have solved earns nothing. -/
structure PackGuarantee (params : ScoreParams) (generatorOwnerKey : String) (seed : SeedPanel) (ps : PackScore) :
    Prop where
  score : 0 ≤ ps.score ∧ ps.score ≤ 1
  uncapped : ps.status = .scored →
    ps.score = ps.uncapped params seed.cases.length ∧ ps.uncapped params seed.cases.length ≤ 1
  owners : ∀ cv ∈ ps.cases,
    (solverOwners params generatorOwnerKey seed.panel cv.caseId).card < params.minSolverOwners → cv.credit = 0

theorem credit_eq_zero_of_owners {f : CaseRef → CaseVerdict} {cases : List CaseRef} {claimed : Finset String}
    {panel : List PanelMember} (hf : f = judge params generatorOwnerKey (rowsOf panel)) :
    ∀ cv ∈ verdicts f claimed cases,
      (solverOwners params generatorOwnerKey panel cv.caseId).card < params.minSolverOwners → cv.credit = 0 := by
  intro cv hcv hfew
  obtain ⟨c, -, rfl | ⟨rfl, -⟩⟩ := mem_verdicts hcv
  · rfl
  · subst hf
    obtain ⟨-, -, hzero | ⟨-, hmany, -⟩⟩ := judge_spec params generatorOwnerKey (rowsOf panel) c
    · exact hzero
    · rw [judge_caseId] at hfew
      exact absurd (hmany.trans (Finset.card_le_card (solverOwners_tally_subset c.caseId))) (not_le.2 hfew)

theorem packGuarantee (hparams : params.Sound) (hpanel : SoundPanel seed.panel) :
    PackGuarantee params generatorOwnerKey seed (seed.pack params generatorOwnerKey claimed) := by
  by_cases h : statusCount .insufficientPanel
    (verdicts (judge params generatorOwnerKey (rowsOf seed.panel)) claimed.toFinset seed.cases) = 0
  · obtain ⟨-, hcases, huncapped, hscore, hmem⟩ := scorePack_scored hparams (inRange_rowsOf hpanel) h
    refine ⟨?_, fun _ => ?_, ?_⟩
    · rw [SeedPanel.pack, hscore]
      exact hmem
    · rw [SeedPanel.pack, hscore, huncapped]
      exact ⟨rfl, hmem.2⟩
    · rw [SeedPanel.pack, hcases]
      exact credit_eq_zero_of_owners rfl
  · obtain ⟨hstatus, hscore, hcases⟩ := scorePack_insufficient h
    refine ⟨?_, fun hscored => ?_, ?_⟩
    · rw [SeedPanel.pack, hscore]
      simp
    · rw [SeedPanel.pack, hstatus] at hscored
      cases hscored
    · rw [SeedPanel.pack, hcases]
      intro cv hcv _
      obtain ⟨cv', -, rfl⟩ := List.mem_map.1 hcv
      rfl

theorem packGuarantee_of_scoreSeeds : ∀ {seeds : List SeedPanel} {claimed : List String} {packs : List PackScore},
    scoreSeeds params generatorOwnerKey claimed seeds = .ok packs →
      List.Forall₂ (PackGuarantee params generatorOwnerKey) seeds packs
  | [], claimed, packs, h => by
    cases h
    exact .nil
  | seed :: seeds, claimed, packs, h => by
    obtain ⟨hparams, hpanel, -, rest, hrest, rfl⟩ := scoreSeeds_cons_eq_ok_iff.1 h
    exact .cons (packGuarantee hparams hpanel) (packGuarantee_of_scoreSeeds hrest)

end Seeds

/-- A scored run: its scores are shares that are never capped, it does not depend on the order of the panels or on the
results of the generator's own agents, and it pays every fingerprint at most once. -/
theorem scoreRun_guarantee {params : ScoreParams} {input : RunInput} {out : RunScore}
    (h : scoreRun input params = .ok out) :
    (0 ≤ out.score ∧ out.score ≤ 1) ∧
      List.Forall₂ (PackGuarantee params input.generatorOwnerKey) input.seeds out.seeds ∧
      (∀ seeds', List.Forall₂ Permuted input.seeds seeds' →
        scoreRun { input with seeds := seeds' } params = .ok out) ∧
      (input.generatorOwnerKey ≠ "" → ∀ seeds',
        List.Forall₂ (OwnResultsChanged input.generatorOwnerKey) input.seeds seeds' →
          scoreRun { input with seeds := seeds' } params = .ok out) ∧
      ∀ fp, paid fp (out.seeds.flatMap (·.cases)) ≤ if fp ∉ input.claimedFingerprints then 1 else 0 := by
  obtain ⟨hne, packs, hpacks, hout⟩ := scoreRun_eq_ok_iff.1 h
  have hseeds : out.seeds = packs := by
    rw [hout]
    split <;> rfl
  have hpack := packGuarantee_of_scoreSeeds hpacks
  refine ⟨?_, hseeds ▸ hpack, fun seeds' hperm => ?_, fun hkey seeds' hown => ?_, fun fp => ?_⟩
  · have hmean : 0 ≤ (packs.map (·.score)).sum / (input.seeds.length : ℚ) ∧
        (packs.map (·.score)).sum / (input.seeds.length : ℚ) ≤ 1 := by
      have hlen : input.seeds.length = (packs.map (·.score)).length := by
        rw [List.length_map]
        exact hpack.length_eq
      have hscores : ∀ x ∈ packs.map (·.score), 0 ≤ x ∧ x ≤ 1 := by
        intro x hx
        obtain ⟨ps, hps, rfl⟩ := List.mem_map.1 hx
        obtain ⟨seed, -, hguarantee⟩ := exists_of_mem_right hpack hps
        exact hguarantee.score
      rw [hlen]
      refine mean_mem (fun hnil => hne ?_) hscores
      rw [← List.length_eq_zero_iff, hlen, hnil, List.length_nil]
    rw [hout]
    split
    · simp
    · exact hmean
  · exact scoreRun_congr (hperm.imp fun seed seed' hseed => hseed.judgedAlike) h
  · exact scoreRun_congr (hown.imp fun seed seed' hseed => hseed.judgedAlike hkey) h
  · rw [hseeds]
    exact paid_scoreSeeds_le fp hpacks

/-- Three agents of three owners with their scores on some cases. -/
def samplePanel (scores : List (String × ℚ × ℚ × ℚ)) : List PanelMember :=
  [{ agentId := "1", ownerKey := "a", results := scores.map fun s => { caseId := s.1, score := s.2.1 } },
    { agentId := "2", ownerKey := "b", results := scores.map fun s => { caseId := s.1, score := s.2.2.1 } },
    { agentId := "3", ownerKey := "c", champion := true,
      results := scores.map fun s => { caseId := s.1, score := s.2.2.2 } }]

def sampleScore (seeds : List SeedPanel) : RunScore :=
  (scoreRun ⟨"", seeds, []⟩ DefaultScoreParams).toOption.getD { seeds := [] }

/-- A paying and an unsolved case, then a seed with a copy of the paying one and a paying case of its own. -/
def sampleSeeds : List SeedPanel :=
  [⟨"s", [⟨"d", "D"⟩, ⟨"u", "U"⟩], samplePanel [("d", 1, 1, 0), ("u", 0, 0, 0)]⟩,
    ⟨"t", [⟨"d", "D"⟩, ⟨"e", "E"⟩], samplePanel [("d", 1, 1, 0), ("e", 1, 1, 0)]⟩]

theorem scoreRun_guarantee_sample :
    0 < (sampleScore sampleSeeds).score ∧ (sampleScore sampleSeeds).score ≤ 1 ∧
    (∀ seeds', List.Forall₂ Permuted sampleSeeds seeds' →
      scoreRun ⟨"", seeds', []⟩ DefaultScoreParams = .ok (sampleScore sampleSeeds)) ∧
    paid "D" ((sampleScore sampleSeeds).seeds.flatMap (·.cases)) ≤ 1 := by
  have hrun : scoreRun ⟨"", sampleSeeds, []⟩ DefaultScoreParams = .ok (sampleScore sampleSeeds) := by decide +kernel
  have h := scoreRun_guarantee hrun
  exact ⟨by decide +kernel, h.1.2, h.2.2.1, h.2.2.2.2 "D"⟩

end DittoSubnet.Generator

import DittoSubnet.Kit.Dict
import DittoSubnet.Kit.Transaction

/-!
# Scoring a pack of generated cases

`ScoreCases` of `challenge/score.go`, in exact arithmetic. The panel is read in the order of its agents, every case is
judged against it, and the verdicts make the score of the pack.

* `scoreCases_ok_iff`: a pack is scored when the parameters, the panel and the cases are sound, and then its score is
  that of its verdicts.
* `judge_congr`: a verdict depends on the clean results of the agents that the generator's owner does not own.
* `verdicts`: the verdicts in closed form. A fingerprint is judged where it first appears, and not when it is claimed.
* `packScore_mem`: the score lies in `[0, 1]`, before it is capped.
-/

namespace DittoSubnet.Generator

open Kit

/-! ## Parameters -/

def MinCases : ℕ := 8

def MaxCases : ℕ := 80

structure ScoreParams where
  minPanel : ℕ
  minSolverOwners : ℕ
  solveThreshold : ℚ
  championBonus : ℚ
  targetCases : ℕ
  deriving DecidableEq

def DefaultScoreParams : ScoreParams where
  minPanel := 3
  minSolverOwners := 2
  solveThreshold := 1 / 2
  championBonus := 1 / 2
  targetCases := 32

/-- What a check reports, with the ids that its text names. -/
inductive ScoreError
  | minPanel
  | minSolverOwners
  | solveThreshold
  | championBonus
  | targetCases
  | emptyAgentId
  | duplicateAgent (agentId : String)
  | emptyOwnerKey (agentId : String)
  | scoreOutOfRange (agentId caseId : String)
  | twoResults (agentId caseId : String)
  | twoFingerprints (caseId : String)
  deriving DecidableEq

/-- `Validate`. -/
def ScoreParams.validate (p : ScoreParams) : Except ScoreError Unit := do
  ensure (¬ (p.minPanel < 2 ∨ 32 < p.minPanel)) .minPanel
  ensure (¬ (p.minSolverOwners < 1 ∨ p.minPanel < p.minSolverOwners)) .minSolverOwners
  ensure (0 < p.solveThreshold ∧ p.solveThreshold ≤ 1) .solveThreshold
  ensure (0 ≤ p.championBonus ∧ p.championBonus ≤ 2) .championBonus
  ensure (¬ (p.targetCases < MinCases ∨ MaxCases < p.targetCases)) .targetCases

/-- Parameters that are accepted. -/
structure ScoreParams.Sound (p : ScoreParams) : Prop where
  minPanel : 2 ≤ p.minPanel ∧ p.minPanel ≤ 32
  minSolverOwners : 1 ≤ p.minSolverOwners ∧ p.minSolverOwners ≤ p.minPanel
  solveThreshold : 0 < p.solveThreshold ∧ p.solveThreshold ≤ 1
  championBonus : 0 ≤ p.championBonus ∧ p.championBonus ≤ 2
  targetCases : MinCases ≤ p.targetCases ∧ p.targetCases ≤ MaxCases

theorem ScoreParams.validate_eq_ok_iff {p : ScoreParams} : p.validate = .ok () ↔ p.Sound := by
  simp only [validate, ensure_bind_eq_ok_iff, ensure_eq_ok_iff, not_or, not_lt]
  constructor
  · rintro ⟨h₁, h₂, h₃, h₄, h₅⟩
    exact ⟨h₁, h₂, h₃, h₄, h₅⟩
  · rintro ⟨h₁, h₂, h₃, h₄, h₅⟩
    exact ⟨h₁, h₂, h₃, h₄, h₅⟩

/-! ## The panel -/

structure PanelCaseResult where
  caseId : String
  score : ℚ
  fault : Bool := false
  deriving DecidableEq

structure PanelMember where
  agentId : String
  ownerKey : String
  champion : Bool := false
  results : List PanelCaseResult
  deriving DecidableEq

/-- The identity of a case. -/
structure CaseRef where
  caseId : String
  fingerprint : String
  deriving DecidableEq

structure ScoreInput where
  generatorOwnerKey : String
  panel : List PanelMember
  claimedFingerprints : List String

/-- A member with its results by case. -/
abbrev Row := PanelMember × Dict String PanelCaseResult

/-- Reads a member's results into `byCase`. -/
def readResults (agentId : String) : Dict String PanelCaseResult → List PanelCaseResult →
    Except ScoreError (Dict String PanelCaseResult)
  | byCase, [] => .ok byCase
  | byCase, r :: rs => do
    ensure (¬ (r.score < 0 ∨ 1 < r.score)) (.scoreOutOfRange agentId r.caseId)
    ensure (byCase.get? r.caseId = none) (.twoResults agentId r.caseId)
    readResults agentId (byCase.set r.caseId r) rs

/-- Reads the members of a sorted panel; `previous` is the agent before them. -/
def readPanel : Option String → List PanelMember → Except ScoreError (List Row)
  | _, [] => .ok []
  | previous, m :: ms => do
    ensure (m.agentId ≠ "") .emptyAgentId
    ensure (previous ≠ some m.agentId) (.duplicateAgent m.agentId)
    ensure (m.ownerKey ≠ "") (.emptyOwnerKey m.agentId)
    let byCase ← readResults m.agentId [] m.results
    let rows ← readPanel (some m.agentId) ms
    return (m, byCase) :: rows

/-- No case id names two fingerprints. -/
def checkRefs : Dict String String → List CaseRef → Except ScoreError Unit
  | _, [] => .ok ()
  | fingerprintOf, c :: cs => do
    ensure (fingerprintOf.get? c.caseId = none ∨ fingerprintOf.get? c.caseId = some c.fingerprint)
      (.twoFingerprints c.caseId)
    checkRefs (fingerprintOf.set c.caseId c.fingerprint) cs

/-- The results are in range and are for different cases. -/
def SoundResults (rs : List PanelCaseResult) : Prop :=
  (∀ r ∈ rs, 0 ≤ r.score ∧ r.score ≤ 1) ∧ (rs.map (·.caseId)).Nodup

/-- A member that is accepted. -/
structure PanelMember.Sound (m : PanelMember) : Prop where
  agentId : m.agentId ≠ ""
  ownerKey : m.ownerKey ≠ ""
  results : SoundResults m.results

/-- The row of a member. -/
def PanelMember.row (m : PanelMember) : Row := (m, m.results.map fun r => (r.caseId, r))

theorem readResults_eq_ok_iff {agentId : String} : ∀ {rs : List PanelCaseResult} {d d' : Dict String PanelCaseResult},
    readResults agentId d rs = .ok d' ↔
      SoundResults rs ∧ (∀ r ∈ rs, r.caseId ∉ d.keys) ∧ d' = d ++ rs.map fun r => (r.caseId, r)
  | [], d, d' => by simp [readResults, SoundResults, eq_comm]
  | r :: rs, d, d' => by
    rw [readResults, ensure_bind_eq_ok_iff, ensure_bind_eq_ok_iff, not_or, not_lt, not_lt, Dict.get?_eq_none_iff]
    constructor
    · rintro ⟨hrange, hnew, h⟩
      rw [Dict.set_of_not_mem hnew] at h
      obtain ⟨⟨hranges, hnodup⟩, hfresh, rfl⟩ := readResults_eq_ok_iff.1 h
      have hne : ∀ s ∈ rs, s.caseId ≠ r.caseId ∧ s.caseId ∉ d.keys := by
        intro s hs
        have := hfresh s hs
        simp only [Dict.keys, List.map_append, List.mem_append, not_or] at this
        exact ⟨by simpa using this.2, this.1⟩
      refine ⟨⟨?_, ?_⟩, ?_, by simp⟩
      · simpa using ⟨hrange, hranges⟩
      · rw [List.map_cons, List.nodup_cons]
        refine ⟨?_, hnodup⟩
        rw [List.mem_map]
        rintro ⟨s, hs, heq⟩
        exact (hne s hs).1 heq
      · simpa using ⟨hnew, fun s hs => (hne s hs).2⟩
    · rintro ⟨⟨hranges, hnodup⟩, hfresh, rfl⟩
      rw [List.map_cons, List.nodup_cons] at hnodup
      have hnew : r.caseId ∉ d.keys := hfresh r List.mem_cons_self
      refine ⟨hranges r List.mem_cons_self, hnew, ?_⟩
      rw [Dict.set_of_not_mem hnew]
      refine readResults_eq_ok_iff.2 ⟨⟨fun s hs => hranges s (List.mem_cons_of_mem _ hs), hnodup.2⟩, ?_, by simp⟩
      intro s hs
      simp only [Dict.keys, List.map_append, List.mem_append, not_or]
      refine ⟨hfresh s (List.mem_cons_of_mem _ hs), ?_⟩
      have hne : s.caseId ≠ r.caseId := fun heq => hnodup.1 (heq ▸ List.mem_map_of_mem hs)
      simpa using hne

/-- In the order of the agents no two members before each other are alike when no neighbours are. -/
theorem readPanel_eq_ok_iff : ∀ {ms : List PanelMember} {previous : Option String} {rows : List Row},
    ms.Pairwise (fun m m' => m.agentId ≤ m'.agentId) → (∀ a ∈ previous, ∀ m ∈ ms, a ≤ m.agentId) →
    (readPanel previous ms = .ok rows ↔
      (∀ m ∈ ms, m.Sound) ∧ (ms.map (·.agentId)).Nodup ∧ (∀ m ∈ ms, previous ≠ some m.agentId) ∧
        rows = ms.map PanelMember.row)
  | [], previous, rows, _, _ => by simp [readPanel, eq_comm]
  | m :: ms, previous, rows, hsorted, hle => by
    rw [List.pairwise_cons] at hsorted
    have ih := fun rows => @readPanel_eq_ok_iff ms (some m.agentId) rows hsorted.2 (by simpa using hsorted.1)
    rw [readPanel, ensure_bind_eq_ok_iff, ensure_bind_eq_ok_iff, ensure_bind_eq_ok_iff]
    simp only [bind_eq_ok_iff, pure_eq_ok_iff, readResults_eq_ok_iff, ih]
    constructor
    · rintro ⟨hagent, hprev, howner, byCase, ⟨hresults, -, rfl⟩, rows', ⟨hsound, hnodup, hne, rfl⟩, rfl⟩
      refine ⟨?_, ?_, ?_, by simp [PanelMember.row]⟩
      · exact List.forall_mem_cons.2 ⟨⟨hagent, howner, hresults⟩, hsound⟩
      · rw [List.map_cons, List.nodup_cons]
        refine ⟨?_, hnodup⟩
        rw [List.mem_map]
        rintro ⟨m', hm', heq⟩
        exact hne m' hm' (by rw [heq])
      · refine List.forall_mem_cons.2 ⟨hprev, fun m' hm' heq => hprev ?_⟩
        -- the agents between `previous` and `m'` are `m'`
        have h₁ : m'.agentId ≤ m.agentId := hle _ heq m List.mem_cons_self
        rw [heq, le_antisymm h₁ (hsorted.1 m' hm')]
    · rintro ⟨hsound, hnodup, hne, rfl⟩
      have hm := hsound m List.mem_cons_self
      rw [List.map_cons, List.nodup_cons] at hnodup
      refine ⟨hm.agentId, hne m List.mem_cons_self, hm.ownerKey, _, ⟨hm.results, by simp [Dict.keys], rfl⟩, _,
        ⟨fun m' hm' => hsound m' (List.mem_cons_of_mem _ hm'), hnodup.2, ?_, rfl⟩, by simp [PanelMember.row]⟩
      intro m' hm' heq
      exact hnodup.1 (Option.some.inj heq ▸ List.mem_map_of_mem hm')

/-- The panel in the order of its agents. -/
def rowsOf (panel : List PanelMember) : List Row := (sortOn (·.agentId) panel).map PanelMember.row

/-- A panel that is accepted. -/
def SoundPanel (panel : List PanelMember) : Prop := (∀ m ∈ panel, m.Sound) ∧ (panel.map (·.agentId)).Nodup

theorem readPanel_sortOn_eq_ok_iff {panel : List PanelMember} {rows : List Row} :
    readPanel none (sortOn (·.agentId) panel) = .ok rows ↔ SoundPanel panel ∧ rows = rowsOf panel := by
  rw [readPanel_eq_ok_iff (pairwise_sortOn _ panel) (by simp), ((sortOn_perm _ panel).map _).nodup_iff]
  simp [SoundPanel, rowsOf, and_assoc]

/-! ## One case -/

inductive CaseStatus
  | discriminating
  | trivial
  | unsolved
  | duplicate
  | insufficientPanel
  deriving DecidableEq

structure CaseVerdict where
  caseId : String
  fingerprint : String
  status : CaseStatus
  panelSize : ℕ := 0
  solvers : ℕ := 0
  solverOwners : ℕ := 0
  meanScore : ℚ := 0
  championFailed : Bool := false
  credit : ℚ := 0
  deriving DecidableEq

/-- What the loop over the panel has counted for a case. -/
structure CaseTally where
  panelSize : ℕ := 0
  sum : ℚ := 0
  solvers : ℕ := 0
  solverOwners : Finset String := ∅
  championFailed : Bool := false

/-- The clean result of an agent that the generator's owner does not own. -/
def cleanResult (generatorOwnerKey caseId : String) (row : Row) : Option PanelCaseResult :=
  if generatorOwnerKey ≠ "" ∧ row.1.ownerKey = generatorOwnerKey then none
  else (row.2.get? caseId).filter fun r => !r.fault

def countRow (params : ScoreParams) (generatorOwnerKey caseId : String) (t : CaseTally) (row : Row) : CaseTally :=
  match cleanResult generatorOwnerKey caseId row with
  | none => t
  | some r =>
    let t := { t with panelSize := t.panelSize + 1, sum := t.sum + r.score }
    if params.solveThreshold ≤ r.score then
      { t with solvers := t.solvers + 1, solverOwners := insert row.1.ownerKey t.solverOwners }
    else if row.1.champion then { t with championFailed := true }
    else t

def tally (params : ScoreParams) (generatorOwnerKey : String) (rows : List Row) (caseId : String) : CaseTally :=
  rows.foldl (countRow params generatorOwnerKey caseId) {}

def CaseTally.meanScore (t : CaseTally) : ℚ := if 0 < t.panelSize then t.sum / t.panelSize else 0

def CaseTally.credit (params : ScoreParams) (t : CaseTally) : ℚ :=
  if t.championFailed then (1 - t.meanScore) * (1 + params.championBonus) else 1 - t.meanScore

/-- The verdict on a case that is not a duplicate. -/
def judge (params : ScoreParams) (generatorOwnerKey : String) (rows : List Row) (c : CaseRef) : CaseVerdict :=
  let t := tally params generatorOwnerKey rows c.caseId
  let cv : CaseVerdict :=
    { caseId := c.caseId, fingerprint := c.fingerprint, status := .insufficientPanel, panelSize := t.panelSize,
      solvers := t.solvers, solverOwners := t.solverOwners.card, meanScore := t.meanScore,
      championFailed := t.championFailed }
  if cv.panelSize < params.minPanel then cv
  else if cv.solverOwners < params.minSolverOwners then { cv with status := .unsolved }
  else if cv.solvers = cv.panelSize then { cv with status := .trivial }
  else { cv with status := .discriminating, credit := t.credit params }

section Judge

variable {params : ScoreParams} {generatorOwnerKey caseId : String} {rows rows' : List Row} {c : CaseRef}

/-- Only a discriminating case has credit, and enough owners have solved it. -/
theorem judge_spec (params : ScoreParams) (generatorOwnerKey : String) (rows : List Row) (c : CaseRef) :
    (judge params generatorOwnerKey rows c).fingerprint = c.fingerprint ∧
      (judge params generatorOwnerKey rows c).status ≠ .duplicate ∧
      ((judge params generatorOwnerKey rows c).credit = 0 ∨
        (judge params generatorOwnerKey rows c).status = .discriminating ∧
          params.minSolverOwners ≤ (tally params generatorOwnerKey rows c.caseId).solverOwners.card ∧
          (judge params generatorOwnerKey rows c).credit =
            (tally params generatorOwnerKey rows c.caseId).credit params) := by
  unfold judge
  dsimp only
  split
  · simp
  split
  · simp
  split
  · simp
  · rename_i howners _
    exact ⟨rfl, by simp, .inr ⟨rfl, not_lt.1 howners, rfl⟩⟩

theorem judge_caseId (params : ScoreParams) (generatorOwnerKey : String) (rows : List Row) (c : CaseRef) :
    (judge params generatorOwnerKey rows c).caseId = c.caseId := by
  unfold judge
  dsimp only
  split
  · rfl
  split
  · rfl
  split
  · rfl
  · rfl

/-- Rows alike for a case: their agents count for it alike. -/
def SameFor (generatorOwnerKey caseId : String) (row row' : Row) : Prop :=
  cleanResult generatorOwnerKey caseId row = cleanResult generatorOwnerKey caseId row' ∧
    row.1.ownerKey = row'.1.ownerKey ∧ row.1.champion = row'.1.champion

theorem cleanResult_congr {row row' : Row} (howner : row.1.ownerKey = row'.1.ownerKey)
    (hget : row.2.get? caseId = row'.2.get? caseId) :
    cleanResult generatorOwnerKey caseId row = cleanResult generatorOwnerKey caseId row' := by
  unfold cleanResult
  rw [howner, hget]

theorem countRow_congr {row row' : Row} (h : SameFor generatorOwnerKey caseId row row') (t : CaseTally) :
    countRow params generatorOwnerKey caseId t row = countRow params generatorOwnerKey caseId t row' := by
  unfold countRow
  rw [h.1, h.2.1, h.2.2]

theorem tally_congr (h : List.Forall₂ (SameFor generatorOwnerKey caseId) rows rows') :
    tally params generatorOwnerKey rows caseId = tally params generatorOwnerKey rows' caseId := by
  unfold tally
  generalize ({} : CaseTally) = t
  induction h generalizing t with
  | nil => rfl
  | cons hrow _ ih =>
    rw [List.foldl_cons, List.foldl_cons, countRow_congr hrow]
    exact ih _

/-- A verdict depends on the clean results that count for its case. -/
theorem judge_congr (h : List.Forall₂ (SameFor generatorOwnerKey c.caseId) rows rows') :
    judge params generatorOwnerKey rows c = judge params generatorOwnerKey rows' c := by
  unfold judge
  rw [tally_congr h]

theorem cleanResult_eq_some_iff {row : Row} {r : PanelCaseResult} : cleanResult generatorOwnerKey caseId row = some r ↔
    (generatorOwnerKey = "" ∨ row.1.ownerKey ≠ generatorOwnerKey) ∧ row.2.get? caseId = some r ∧ r.fault = false := by
  unfold cleanResult
  split
  · rename_i hown
    simp [hown.1, hown.2]
  · rename_i hown
    rw [Option.filter_eq_some_iff]
    simp only [Bool.not_eq_eq_eq_not, Bool.not_true]
    tauto

/-- What the loop over the panel keeps of the tally. -/
theorem tally_inv {P : CaseTally → Prop} (hstart : P {})
    (hstep : ∀ t, ∀ row ∈ rows, P t → P (countRow params generatorOwnerKey caseId t row)) :
    P (tally params generatorOwnerKey rows caseId) := by
  unfold tally
  generalize ({} : CaseTally) = t at hstart
  induction rows generalizing t with
  | nil => exact hstart
  | cons row rows ih =>
    exact ih (fun t row' hrow' => hstep t row' (List.mem_cons_of_mem _ hrow')) _ (hstep t row List.mem_cons_self hstart)

/-- Rows whose results are in range. -/
def InRange (rows : List Row) : Prop :=
  ∀ row ∈ rows, ∀ caseId, ∀ r ∈ row.2.get? caseId, 0 ≤ r.score ∧ r.score ≤ 1

/-- The sum of the scores is at most the number of them. -/
theorem sum_tally_mem (h : InRange rows) :
    0 ≤ (tally params generatorOwnerKey rows caseId).sum ∧
      (tally params generatorOwnerKey rows caseId).sum ≤ (tally params generatorOwnerKey rows caseId).panelSize := by
  refine tally_inv (P := fun t => 0 ≤ t.sum ∧ t.sum ≤ t.panelSize) (by simp) fun t row hrow ht => ?_
  unfold countRow
  cases hr : cleanResult generatorOwnerKey caseId row with
  | none => exact ht
  | some r =>
    have hscore := h row hrow caseId r (cleanResult_eq_some_iff.1 hr).2.1
    have hnew : 0 ≤ t.sum + r.score ∧ t.sum + r.score ≤ ((t.panelSize + 1 : ℕ) : ℚ) := by
      push_cast
      exact ⟨add_nonneg ht.1 hscore.1, add_le_add ht.2 hscore.2⟩
    dsimp only
    split
    · exact hnew
    split
    · exact hnew
    · exact hnew

theorem meanScore_tally_mem (h : InRange rows) :
    0 ≤ (tally params generatorOwnerKey rows caseId).meanScore ∧
      (tally params generatorOwnerKey rows caseId).meanScore ≤ 1 := by
  have hsum : 0 ≤ (tally params generatorOwnerKey rows caseId).sum ∧ _ := sum_tally_mem h
  unfold CaseTally.meanScore
  split
  · rename_i hpos
    have hpos : (0 : ℚ) < (tally params generatorOwnerKey rows caseId).panelSize := Nat.cast_pos.2 hpos
    exact ⟨div_nonneg hsum.1 hpos.le, (div_le_one hpos).2 hsum.2⟩
  · simp

/-- Credit is at most that of a case that the champion alone fails. -/
theorem credit_judge_mem (hbonus : 0 ≤ params.championBonus) (h : InRange rows) :
    0 ≤ (judge params generatorOwnerKey rows c).credit ∧
      (judge params generatorOwnerKey rows c).credit ≤ 1 + params.championBonus := by
  obtain ⟨-, -, hzero | ⟨-, -, hcredit⟩⟩ := judge_spec params generatorOwnerKey rows c
  · rw [hzero]
    exact ⟨le_refl _, by linarith⟩
  · have hmean : 0 ≤ (tally params generatorOwnerKey rows c.caseId).meanScore ∧ _ := meanScore_tally_mem h
    rw [hcredit, CaseTally.credit]
    split
    · constructor
      · nlinarith
      · nlinarith
    · constructor
      · linarith
      · linarith

end Judge

/-! ## A pack -/

inductive PackStatus
  | scored
  | insufficientPanel
  deriving DecidableEq

structure PackScore where
  status : PackStatus := .scored
  score : ℚ := 0
  rawCredit : ℚ := 0
  discriminating : ℕ := 0
  trivial : ℕ := 0
  unsolved : ℕ := 0
  duplicate : ℕ := 0
  unsolvedRate : ℚ := 0
  cases : List CaseVerdict := []
  deriving DecidableEq

/-- Counts a verdict. -/
def PackScore.add (out : PackScore) (cv : CaseVerdict) : PackScore :=
  let out := { out with cases := out.cases ++ [cv] }
  match cv.status with
  | .duplicate => { out with duplicate := out.duplicate + 1 }
  | .insufficientPanel => { out with status := .insufficientPanel }
  | .unsolved => { out with unsolved := out.unsolved + 1 }
  | .trivial => { out with trivial := out.trivial + 1 }
  | .discriminating => { out with discriminating := out.discriminating + 1, rawCredit := out.rawCredit + cv.credit }

def duplicateOf (c : CaseRef) : CaseVerdict :=
  { caseId := c.caseId, fingerprint := c.fingerprint, status := .duplicate }

/-- Judges one case; `st` holds the claimed fingerprints and the verdicts so far. -/
def scoreCase (params : ScoreParams) (generatorOwnerKey : String) (rows : List Row) (st : Finset String × PackScore)
    (c : CaseRef) : Finset String × PackScore :=
  if c.fingerprint ∈ st.1 then (st.1, st.2.add (duplicateOf c))
  else (insert c.fingerprint st.1, st.2.add (judge params generatorOwnerKey rows c))

/-- The score of a pack of `n` cases before it is capped. -/
def PackScore.uncapped (params : ScoreParams) (n : ℕ) (out : PackScore) : ℚ :=
  let denom := if n < params.targetCases then params.targetCases else n
  let solvable := 1 - out.unsolvedRate
  out.rawCredit / ((1 + params.championBonus) * denom) * solvable * solvable

def finish (params : ScoreParams) (n : ℕ) (out : PackScore) : PackScore :=
  if out.status ≠ .scored then
    { out with rawCredit := 0, cases := out.cases.map fun cv => { cv with credit := 0 } }
  else
    let considered := n - out.duplicate
    let out := { out with unsolvedRate := if 0 < considered then out.unsolved / considered else 0 }
    let score := out.uncapped params n
    { out with score := if 1 < score then 1 else score }

def scorePack (params : ScoreParams) (generatorOwnerKey : String) (rows : List Row) (claimed : Finset String)
    (cases : List CaseRef) : PackScore :=
  finish params cases.length (cases.foldl (scoreCase params generatorOwnerKey rows) (claimed, {})).2

/-- `ScoreCases`. -/
def scoreCases (cases : List CaseRef) (input : ScoreInput) (params : ScoreParams) : Except ScoreError PackScore := do
  params.validate
  let rows ← readPanel none (sortOn (·.agentId) input.panel)
  checkRefs [] cases
  return scorePack params input.generatorOwnerKey rows input.claimedFingerprints.toFinset cases

/-- A pack is scored when its inputs are sound. -/
theorem scoreCases_eq_ok_iff {cases : List CaseRef} {input : ScoreInput} {params : ScoreParams} {out : PackScore} :
    scoreCases cases input params = .ok out ↔
      params.Sound ∧ SoundPanel input.panel ∧ checkRefs [] cases = .ok () ∧
        out = scorePack params input.generatorOwnerKey (rowsOf input.panel) input.claimedFingerprints.toFinset
          cases := by
  rw [scoreCases, check_bind_eq_ok_iff, ScoreParams.validate_eq_ok_iff]
  simp only [bind_eq_ok_iff, pure_eq_ok_iff, readPanel_sortOn_eq_ok_iff]
  constructor
  · rintro ⟨hparams, rows, ⟨hpanel, rfl⟩, _, hrefs, rfl⟩
    exact ⟨hparams, hpanel, hrefs, rfl⟩
  · rintro ⟨hparams, hpanel, hrefs, rfl⟩
    exact ⟨hparams, _, ⟨hpanel, rfl⟩, (), hrefs, rfl⟩

/-! ## The verdicts of a pack -/

/-- The verdicts on the cases: those with a claimed fingerprint are duplicates. -/
def verdicts (judge : CaseRef → CaseVerdict) : Finset String → List CaseRef → List CaseVerdict
  | _, [] => []
  | claimed, c :: cs =>
    if c.fingerprint ∈ claimed then duplicateOf c :: verdicts judge claimed cs
    else judge c :: verdicts judge (insert c.fingerprint claimed) cs

/-- How many verdicts have the status. -/
def statusCount (status : CaseStatus) (vs : List CaseVerdict) : ℕ := vs.countP (·.status = status)

/-- The credit of the discriminating cases. -/
def totalCredit (vs : List CaseVerdict) : ℚ := ((vs.filter (·.status = .discriminating)).map (·.credit)).sum

section Verdicts

variable {params : ScoreParams} {generatorOwnerKey : String} {rows : List Row} {claimed : Finset String}
  {cases : List CaseRef} {f g : CaseRef → CaseVerdict}

@[simp] theorem length_verdicts : ∀ {cases : List CaseRef} {claimed : Finset String},
    (verdicts f claimed cases).length = cases.length
  | [], _ => rfl
  | c :: cs, claimed => by
    rw [verdicts]
    split
    · rw [List.length_cons, List.length_cons, length_verdicts]
    · rw [List.length_cons, List.length_cons, length_verdicts]

theorem verdicts_congr : ∀ {cases : List CaseRef} {claimed : Finset String}, (∀ c ∈ cases, f c = g c) →
    verdicts f claimed cases = verdicts g claimed cases
  | [], _, _ => rfl
  | c :: cs, claimed, h => by
    rw [List.forall_mem_cons] at h
    rw [verdicts, verdicts, h.1, verdicts_congr h.2, verdicts_congr h.2]

theorem foldl_scoreCase : ∀ (cases : List CaseRef) (claimed : Finset String) (out : PackScore),
    (cases.foldl (scoreCase params generatorOwnerKey rows) (claimed, out)).2 =
      (verdicts (judge params generatorOwnerKey rows) claimed cases).foldl PackScore.add out
  | [], _, _ => rfl
  | c :: cs, claimed, out => by
    rw [List.foldl_cons, verdicts, scoreCase]
    split
    · exact foldl_scoreCase cs claimed _
    · exact foldl_scoreCase cs _ _

/-- What the verdicts add up to. -/
theorem foldl_add (vs : List CaseVerdict) (out : PackScore) :
    vs.foldl PackScore.add out =
      { status := if out.status = .scored ∧ statusCount .insufficientPanel vs = 0 then .scored else .insufficientPanel
        score := out.score
        rawCredit := out.rawCredit + totalCredit vs
        discriminating := out.discriminating + statusCount .discriminating vs
        trivial := out.trivial + statusCount .trivial vs
        unsolved := out.unsolved + statusCount .unsolved vs
        duplicate := out.duplicate + statusCount .duplicate vs
        unsolvedRate := out.unsolvedRate
        cases := out.cases ++ vs } := by
  induction vs generalizing out with
  | nil =>
    obtain ⟨status, _⟩ := out
    cases status <;> simp [statusCount, totalCredit]
  | cons cv vs ih =>
    rw [List.foldl_cons, ih]
    obtain ⟨caseId, fingerprint, status, _⟩ := cv
    cases status <;> simp [PackScore.add, statusCount, totalCredit, add_assoc, add_comm, add_left_comm]

/-- The score of `n` verdicts before it is capped. -/
def packValue (params : ScoreParams) (n : ℕ) (credit : ℚ) (unsolved considered : ℕ) : ℚ :=
  credit / ((1 + params.championBonus) * max n params.targetCases) * (1 - unsolved / considered) ^ 2

theorem scorePack_eq : scorePack params generatorOwnerKey rows claimed cases =
    let vs := verdicts (judge params generatorOwnerKey rows) claimed cases
    finish params cases.length
      { status := if statusCount .insufficientPanel vs = 0 then .scored else .insufficientPanel
        rawCredit := totalCredit vs
        discriminating := statusCount .discriminating vs
        trivial := statusCount .trivial vs
        unsolved := statusCount .unsolved vs
        duplicate := statusCount .duplicate vs
        cases := vs } := by
  rw [scorePack, foldl_scoreCase, foldl_add]
  simp

/-- A verdict on a case: that of a duplicate when its fingerprint is claimed, by an earlier pack or case. -/
theorem mem_verdicts : ∀ {cases : List CaseRef} {claimed : Finset String} {v : CaseVerdict},
    v ∈ verdicts f claimed cases → ∃ c ∈ cases, v = duplicateOf c ∨ v = f c ∧ c.fingerprint ∉ claimed
  | c :: cs, claimed, v, h => by
    rw [verdicts] at h
    split at h
    · rcases List.mem_cons.1 h with rfl | h
      · exact ⟨c, List.mem_cons_self, .inl rfl⟩
      · obtain ⟨c', hc', hv⟩ := mem_verdicts h
        exact ⟨c', List.mem_cons_of_mem _ hc', hv⟩
    · rename_i hnew
      rcases List.mem_cons.1 h with rfl | h
      · exact ⟨c, List.mem_cons_self, .inr ⟨rfl, hnew⟩⟩
      · obtain ⟨c', hc', hv | ⟨hv, hnot⟩⟩ := mem_verdicts h
        · exact ⟨c', List.mem_cons_of_mem _ hc', .inl hv⟩
        · exact ⟨c', List.mem_cons_of_mem _ hc', .inr ⟨hv, fun hmem => hnot (Finset.mem_insert_of_mem hmem)⟩⟩

theorem statusCount_add_le {s t : CaseStatus} (h : s ≠ t) (vs : List CaseVerdict) :
    statusCount s vs + statusCount t vs ≤ vs.length := by
  induction vs with
  | nil => simp [statusCount]
  | cons cv vs ih =>
    simp only [statusCount, List.countP_cons, List.length_cons, decide_eq_true_eq] at ih ⊢
    split
    · rename_i hs
      rw [if_neg fun ht => h (hs.symm.trans ht)]
      omega
    · split <;> omega

theorem totalCredit_mem {b : ℚ} (hb : 0 ≤ b) {vs : List CaseVerdict} (h : ∀ v ∈ vs, 0 ≤ v.credit ∧ v.credit ≤ b) :
    0 ≤ totalCredit vs ∧ totalCredit vs ≤ b * vs.length := by
  induction vs with
  | nil => simp [totalCredit]
  | cons cv vs ih =>
    rw [List.forall_mem_cons] at h
    obtain ⟨hnonneg, hle⟩ := ih h.2
    unfold totalCredit at hnonneg hle ⊢
    rw [List.filter_cons, List.length_cons]
    push_cast
    split
    · rw [List.map_cons, List.sum_cons]
      constructor
      · linarith [h.1.1]
      · linarith [h.1.2]
    · constructor
      · exact hnonneg
      · linarith

theorem packValue_mem {n unsolved considered : ℕ} {credit : ℚ} (hparams : params.Sound)
    (hcredit : 0 ≤ credit ∧ credit ≤ (1 + params.championBonus) * n) (hle : unsolved ≤ considered) :
    0 ≤ packValue params n credit unsolved considered ∧ packValue params n credit unsolved considered ≤ 1 := by
  have hbonus : 0 < 1 + params.championBonus := by linarith [hparams.championBonus.1]
  have hmax : (n : ℚ) ≤ (max n params.targetCases : ℕ) := Nat.cast_le.2 (le_max_left _ _)
  have htarget : (0 : ℚ) < (max n params.targetCases : ℕ) := by
    have : 0 < params.targetCases := lt_of_lt_of_le (by decide) hparams.targetCases.1
    exact Nat.cast_pos.2 (lt_of_lt_of_le this (le_max_right _ _))
  have hshare : credit / ((1 + params.championBonus) * max n params.targetCases) ≤ 1 := by
    rw [div_le_one (mul_pos hbonus htarget)]
    exact hcredit.2.trans (mul_le_mul_of_nonneg_left hmax hbonus.le)
  have hshare_nonneg : 0 ≤ credit / ((1 + params.championBonus) * max n params.targetCases) :=
    div_nonneg hcredit.1 (mul_pos hbonus htarget).le
  have hrate : (0 : ℚ) ≤ 1 - unsolved / considered ∧ (1 : ℚ) - unsolved / considered ≤ 1 := by
    have : (unsolved : ℚ) / considered ≤ 1 := div_le_one_of_le₀ (Nat.cast_le.2 hle) (Nat.cast_nonneg _)
    have : (0 : ℚ) ≤ unsolved / considered := by positivity
    constructor
    · linarith
    · linarith
  exact ⟨mul_nonneg hshare_nonneg (pow_nonneg hrate.1 2),
    mul_le_one₀ hshare (pow_nonneg hrate.1 2) (pow_le_one₀ hrate.1 hrate.2)⟩

/-- The value of a list of verdicts. -/
def verdictsValue (params : ScoreParams) (vs : List CaseVerdict) : ℚ :=
  packValue params vs.length (totalCredit vs) (statusCount .unsolved vs) (vs.length - statusCount .duplicate vs)

theorem verdictsValue_mem (hparams : params.Sound) {vs : List CaseVerdict}
    (h : ∀ v ∈ vs, 0 ≤ v.credit ∧ v.credit ≤ 1 + params.championBonus) :
    0 ≤ verdictsValue params vs ∧ verdictsValue params vs ≤ 1 := by
  refine packValue_mem hparams (totalCredit_mem (by linarith [hparams.championBonus.1]) h) ?_
  have := statusCount_add_le (show CaseStatus.unsolved ≠ .duplicate by decide) vs
  omega

theorem uncapped_of_verdicts {out : PackScore} {vs : List CaseVerdict} (hraw : out.rawCredit = totalCredit vs)
    (hrate : out.unsolvedRate =
      if 0 < vs.length - statusCount .duplicate vs then
        (statusCount .unsolved vs : ℚ) / (vs.length - statusCount .duplicate vs : ℕ) else 0) :
    out.uncapped params vs.length = verdictsValue params vs := by
  have hdenom : (if vs.length < params.targetCases then params.targetCases else vs.length) =
      max vs.length params.targetCases := by
    split <;> omega
  have hrate' : out.unsolvedRate = (statusCount .unsolved vs : ℚ) / (vs.length - statusCount .duplicate vs : ℕ) := by
    rw [hrate]
    split
    · rfl
    · rename_i hzero
      rw [show vs.length - statusCount .duplicate vs = 0 by omega]
      simp
  unfold PackScore.uncapped verdictsValue packValue
  dsimp only
  rw [hdenom, hraw, hrate']
  ring

theorem credit_verdicts_mem (hparams : params.Sound) (hrange : InRange rows) :
    ∀ v ∈ verdicts (judge params generatorOwnerKey rows) claimed cases,
      0 ≤ v.credit ∧ v.credit ≤ 1 + params.championBonus := by
  intro v hv
  obtain ⟨c, -, rfl | ⟨rfl, -⟩⟩ := mem_verdicts hv
  · exact ⟨le_refl _, by linarith [hparams.championBonus.1, show (duplicateOf c).credit = 0 from rfl]⟩
  · exact credit_judge_mem hparams.championBonus.1 hrange

/-- The score of a pack whose cases all had a panel: its value, never capped. -/
theorem scorePack_scored (hparams : params.Sound) (hrange : InRange rows)
    (hpanel : statusCount .insufficientPanel (verdicts (judge params generatorOwnerKey rows) claimed cases) = 0) :
    let vs := verdicts (judge params generatorOwnerKey rows) claimed cases
    let out := scorePack params generatorOwnerKey rows claimed cases
    out.status = .scored ∧ out.cases = vs ∧ out.uncapped params cases.length = verdictsValue params vs ∧
      out.score = verdictsValue params vs ∧ 0 ≤ verdictsValue params vs ∧ verdictsValue params vs ≤ 1 := by
  intro vs out
  have hmem := verdictsValue_mem hparams
      (@credit_verdicts_mem params generatorOwnerKey rows claimed cases hparams hrange)
  have hlen : cases.length = vs.length := length_verdicts.symm
  have hout : out = finish params vs.length _ := hlen ▸ scorePack_eq
  rw [if_pos hpanel, finish, if_neg (by simp)] at hout
  dsimp only at hout
  rw [uncapped_of_verdicts rfl rfl, if_neg (not_lt.2 hmem.2)] at hout
  rw [hlen, hout]
  exact ⟨rfl, rfl, uncapped_of_verdicts rfl rfl, rfl, hmem⟩

/-- The score of a pack with a case that too few agents have run. -/
theorem scorePack_insufficient
    (hpanel : statusCount .insufficientPanel (verdicts (judge params generatorOwnerKey rows) claimed cases) ≠ 0) :
    (scorePack params generatorOwnerKey rows claimed cases).status = .insufficientPanel ∧
      (scorePack params generatorOwnerKey rows claimed cases).score = 0 ∧
      (scorePack params generatorOwnerKey rows claimed cases).cases =
        (verdicts (judge params generatorOwnerKey rows) claimed cases).map fun cv => { cv with credit := 0 } := by
  rw [scorePack_eq]
  dsimp only
  rw [if_neg hpanel, finish, if_pos (by simp)]
  exact ⟨rfl, rfl, rfl⟩

end Verdicts

end DittoSubnet.Generator

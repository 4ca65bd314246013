import DittoSubnet.Generator.Score

/-!
# Ranking the agents of a round

`ScoreRound` of `challenge/round.go`, in exact arithmetic: the columns of a round are scored against the panel in order,
and the agents are ranked by their comparisons in pairs. Two agents are compared on the counted columns that neither of
their owners owns.

* `playAll_apply`: what the nested loop over the pairs records for an agent is the sum of its comparisons.
* `ranksAbove_iff`: an agent ranks above another when its key comes first.
-/

namespace DittoSubnet.Generator

open Kit

/-! ## The input -/

/-- One generator column as the round is scored. -/
structure RoundColumn where
  columnId : String
  /-- Empty for the public default generator, which nobody owns. -/
  ownerKey : String
  counted : Bool
  cases : List CaseRef
  deriving DecidableEq

/-- One panel agent's results for the whole round. -/
structure RoundAgent where
  agentId : String
  ownerKey : String
  reference : Bool := false
  champion : Bool := false
  results : List PanelCaseResult
  deriving DecidableEq

structure RoundInput where
  columns : List RoundColumn
  agents : List RoundAgent
  claimedFingerprints : List String := []

/-- The owner key that a reference agent solves under. -/
def referenceOwner (agentId : String) : String := "reference:" ++ agentId

/-- The owner key under which an agent is on the panel. -/
def RoundAgent.owner (a : RoundAgent) : String := if a.reference then referenceOwner a.agentId else a.ownerKey

def RoundAgent.member (a : RoundAgent) : PanelMember where
  agentId := a.agentId
  ownerKey := a.owner
  champion := a.champion
  results := a.results

inductive RoundError
  | agentIds (agentId : String)
  | twoResults (agentId caseId : String)
  | columnIds (columnId : String)
  | column (columnId : String) (e : ScoreError)
  deriving DecidableEq

/-! ## Reading -/

/-- An agent's results by case. -/
def indexResults (agentId : String) : Dict String PanelCaseResult → List PanelCaseResult →
    Except RoundError (Dict String PanelCaseResult)
  | byCase, [] => .ok byCase
  | byCase, r :: rs => do
    ensure (byCase.get? r.caseId = none) (.twoResults agentId r.caseId)
    indexResults agentId (byCase.set r.caseId r) rs

/-- The rows of the sorted agents; `previous` is the agent before them. -/
def readAgents : Option String → List RoundAgent → Except RoundError (List Row)
  | _, [] => .ok []
  | previous, a :: as => do
    ensure (a.agentId ≠ "" ∧ previous ≠ some a.agentId) (.agentIds a.agentId)
    let byCase ← indexResults a.agentId [] a.results
    let rows ← readAgents (some a.agentId) as
    return (a.member, byCase) :: rows

/-- The columns have ids, and no two share one. -/
def checkColumns : Finset String → List RoundColumn → Except RoundError Unit
  | _, [] => .ok ()
  | seen, col :: cols => do
    ensure (col.columnId ≠ "" ∧ col.columnId ∉ seen) (.columnIds col.columnId)
    checkColumns (insert col.columnId seen) cols

/-! ## The columns -/

structure ColumnScore where
  columnId : String
  pack : PackScore
  deriving DecidableEq

/-- The columns in order; each claims its fingerprints for the columns after it. -/
def scoreColumns (params : ScoreParams) (panel : List PanelMember) : List String → List RoundColumn →
    Except RoundError (List ColumnScore)
  | _, [] => .ok []
  | claimed, col :: cols => do
    let ps ← (scoreCases col.cases ⟨col.ownerKey, panel, claimed⟩ params).mapError (.column col.columnId)
    let rest ← scoreColumns params panel (claimed ++ col.cases.map (·.fingerprint)) cols
    return ⟨col.columnId, ps⟩ :: rest

/-! ## The agents -/

/-- The clean result of an agent for a case. -/
abbrev answer (row : Row) (caseId : String) : Option PanelCaseResult := cleanResult "" caseId row

/-- The cases of a column that every agent is compared on: it is counted, no panel owner owns it, and all answered. -/
def commonOf (rows : List Row) (col : RoundColumn) : List String :=
  if !col.counted ∨ (col.ownerKey ≠ "" ∧ ∃ row ∈ rows, row.1.ownerKey = col.ownerKey) then []
  else (col.cases.filter fun c => ∀ row ∈ rows, answer row c.caseId ≠ none).map (·.caseId)

def commonCases (columns : List RoundColumn) (rows : List Row) : List String := columns.flatMap (commonOf rows)

/-- The mean score over the common cases. -/
def commonMean (common : List String) (row : Row) : ℚ :=
  if 0 < common.length then (common.map fun id => ((row.2.get? id).map (·.score)).getD 0).sum / common.length else 0

/-- What two agents are compared on in a column: their score differences, if it is counted and neither owner owns it. -/
def columnDifferences (a b : Row) (col : RoundColumn) : List ℚ :=
  if !col.counted ∨ (col.ownerKey ≠ "" ∧ (col.ownerKey = a.1.ownerKey ∨ col.ownerKey = b.1.ownerKey)) then []
  else col.cases.filterMap fun c =>
    match answer a c.caseId, answer b c.caseId with
    | some ra, some rb => some (ra.score - rb.score)
    | _, _ => none

def differences (columns : List RoundColumn) (a b : Row) : List ℚ := columns.flatMap (columnDifferences a b)

/-- What is recorded of an agent's comparisons. -/
structure PairTally where
  wins : ℕ := 0
  ties : ℕ := 0
  losses : ℕ := 0
  opponents : ℕ := 0
  deriving DecidableEq

def PairTally.win (t : PairTally) : PairTally := { t with wins := t.wins + 1, opponents := t.opponents + 1 }
def PairTally.tie (t : PairTally) : PairTally := { t with ties := t.ties + 1, opponents := t.opponents + 1 }
def PairTally.loss (t : PairTally) : PairTally := { t with losses := t.losses + 1, opponents := t.opponents + 1 }

/-- The tally of every agent. -/
abbrev Tallies := String → PairTally

/-- Compares one pair and records the outcome for both. -/
def playPair (columns : List RoundColumn) (a b : Row) (t : Tallies) : Tallies :=
  let diffs := differences columns a b
  let i := a.1.agentId
  let j := b.1.agentId
  if diffs.length = 0 then t
  else if 0 < diffs.sum then Function.update (Function.update t i (t i).win) j (t j).loss
  else if diffs.sum < 0 then Function.update (Function.update t j (t j).win) i (t i).loss
  else Function.update (Function.update t i (t i).tie) j (t j).tie

/-- Compares every agent with the agents after it. -/
def playAll (columns : List RoundColumn) : List Row → Tallies → Tallies
  | [], t => t
  | a :: rows, t => playAll columns rows (rows.foldl (fun t b => playPair columns a b t) t)

/-- `PairwiseScore`. -/
def PairTally.pairwiseScore (t : PairTally) : ℚ :=
  if 0 < t.opponents then (t.wins + t.ties / 2) / t.opponents else 0

structure AgentStanding where
  agentId : String
  rank : ℕ
  pairwiseScore : ℚ
  wins : ℕ
  ties : ℕ
  losses : ℕ
  opponents : ℕ
  commonMean : ℚ
  commonCases : ℕ
  deriving DecidableEq

/-- The order of the standings: the higher pairwise score, then the higher common mean, then the agent id. -/
def standingKey (pairwiseScore commonMean : ℚ) (agentId : String) : ℚ ×ₗ ℚ ×ₗ String :=
  toLex (-pairwiseScore, toLex (-commonMean, agentId))

/-- The standing of an agent before it is ranked. -/
def standing (t : Tallies) (common : List String) (row : Row) : AgentStanding where
  agentId := row.1.agentId
  rank := 0
  pairwiseScore := (t row.1.agentId).pairwiseScore
  wins := (t row.1.agentId).wins
  ties := (t row.1.agentId).ties
  losses := (t row.1.agentId).losses
  opponents := (t row.1.agentId).opponents
  commonMean := commonMean common row
  commonCases := common.length

/-- The standings in order, each with its rank. -/
def rankStandings (standings : List AgentStanding) : List AgentStanding :=
  (sortOn (fun s => standingKey s.pairwiseScore s.commonMean s.agentId) standings).mapIdx fun i s =>
    { s with rank := i + 1 }

structure RoundScore where
  columns : List ColumnScore
  agents : List AgentStanding
  deriving DecidableEq

/-- The standings of the read rows. -/
def rankRows (columns : List RoundColumn) (rows : List Row) : List AgentStanding :=
  rankStandings (rows.map (standing (playAll columns rows fun _ => {}) (commonCases columns rows)))

/-- `ScoreRound`. -/
def scoreRound (input : RoundInput) (params : ScoreParams) : Except RoundError RoundScore := do
  let agents := sortOn (·.agentId) input.agents
  let rows ← readAgents none agents
  checkColumns ∅ input.columns
  let columns ← scoreColumns params (agents.map RoundAgent.member) input.claimedFingerprints input.columns
  return ⟨columns, rankRows input.columns rows⟩

/-! ## Accepted inputs -/

/-- An agent that is accepted. -/
structure RoundAgent.Sound (a : RoundAgent) : Prop where
  agentId : a.agentId ≠ ""
  results : (a.results.map (·.caseId)).Nodup

theorem indexResults_eq_ok_iff {agentId : String} : ∀ {rs : List PanelCaseResult} {d d' : Dict String PanelCaseResult},
    indexResults agentId d rs = .ok d' ↔
      (rs.map (·.caseId)).Nodup ∧ (∀ r ∈ rs, r.caseId ∉ d.keys) ∧ d' = d ++ rs.map fun r => (r.caseId, r)
  | [], d, d' => by simp [indexResults, eq_comm]
  | r :: rs, d, d' => by
    rw [indexResults, ensure_bind_eq_ok_iff, Dict.get?_eq_none_iff]
    have hkeys (s : PanelCaseResult) : s.caseId ∉ Dict.keys (d ++ [(r.caseId, r)]) ↔
        s.caseId ∉ d.keys ∧ s.caseId ≠ r.caseId := by
      simp [Dict.keys, not_or]
    constructor
    · rintro ⟨hnew, h⟩
      rw [Dict.set_of_not_mem hnew, indexResults_eq_ok_iff] at h
      obtain ⟨hnodup, hfresh, rfl⟩ := h
      refine ⟨List.nodup_cons.2 ⟨?_, hnodup⟩, ?_, by simp⟩
      · rw [List.mem_map]
        rintro ⟨s, hs, heq⟩
        exact ((hkeys s).1 (hfresh s hs)).2 heq
      · exact List.forall_mem_cons.2 ⟨hnew, fun s hs => ((hkeys s).1 (hfresh s hs)).1⟩
    · rintro ⟨hnodup, hfresh, rfl⟩
      rw [List.map_cons, List.nodup_cons] at hnodup
      rw [List.forall_mem_cons] at hfresh
      refine ⟨hfresh.1, ?_⟩
      rw [Dict.set_of_not_mem hfresh.1, indexResults_eq_ok_iff]
      refine ⟨hnodup.2, fun s hs => (hkeys s).2 ⟨hfresh.2 s hs, fun heq => hnodup.1 ?_⟩, by simp⟩
      exact heq ▸ List.mem_map_of_mem hs

/-- The row of an agent. -/
def RoundAgent.row (a : RoundAgent) : Row := a.member.row

theorem readAgents_eq_ok_iff : ∀ {as : List RoundAgent} {previous : Option String} {rows : List Row},
    as.Pairwise (fun a b => a.agentId ≤ b.agentId) → (∀ id ∈ previous, ∀ a ∈ as, id ≤ a.agentId) →
    (readAgents previous as = .ok rows ↔
      (∀ a ∈ as, a.Sound) ∧ (as.map (·.agentId)).Nodup ∧ (∀ a ∈ as, previous ≠ some a.agentId) ∧
        rows = as.map RoundAgent.row)
  | [], previous, rows, _, _ => by simp [readAgents, eq_comm]
  | a :: as, previous, rows, hsorted, hle => by
    rw [List.pairwise_cons] at hsorted
    have ih := fun rows => @readAgents_eq_ok_iff as (some a.agentId) rows hsorted.2 (by simpa using hsorted.1)
    rw [readAgents, ensure_bind_eq_ok_iff]
    simp only [bind_eq_ok_iff, pure_eq_ok_iff, indexResults_eq_ok_iff, ih]
    constructor
    · rintro ⟨⟨hagent, hprev⟩, byCase, ⟨hresults, -, rfl⟩, rows', ⟨hsound, hnodup, hne, rfl⟩, rfl⟩
      refine ⟨List.forall_mem_cons.2 ⟨⟨hagent, hresults⟩, hsound⟩, ?_, ?_, by
        simp [RoundAgent.row, PanelMember.row, RoundAgent.member]⟩
      · rw [List.map_cons, List.nodup_cons, List.mem_map]
        refine ⟨?_, hnodup⟩
        rintro ⟨b, hb, heq⟩
        exact hne b hb (by rw [heq])
      · refine List.forall_mem_cons.2 ⟨hprev, fun b hb heq => hprev ?_⟩
        -- the agents between `previous` and `b` are `b`
        have h₁ : b.agentId ≤ a.agentId := hle _ heq a List.mem_cons_self
        rw [heq, le_antisymm h₁ (hsorted.1 b hb)]
    · rintro ⟨hsound, hnodup, hne, rfl⟩
      have ha := hsound a List.mem_cons_self
      rw [List.map_cons, List.nodup_cons] at hnodup
      refine ⟨⟨ha.agentId, hne a List.mem_cons_self⟩, _, ⟨ha.results, by simp [Dict.keys], rfl⟩, _,
        ⟨fun b hb => hsound b (List.mem_cons_of_mem _ hb), hnodup.2, ?_, rfl⟩, by
          simp [RoundAgent.row, PanelMember.row, RoundAgent.member]⟩
      intro b hb heq
      exact hnodup.1 (Option.some.inj heq ▸ List.mem_map_of_mem hb)

theorem checkColumns_eq_ok_iff : ∀ {cols : List RoundColumn} {seen : Finset String} {u : Unit},
    checkColumns seen cols = .ok u ↔
      (∀ col ∈ cols, col.columnId ≠ "" ∧ col.columnId ∉ seen) ∧ (cols.map (·.columnId)).Nodup
  | [], seen, _ => by simp [checkColumns]
  | col :: cols, seen, _ => by
    rw [checkColumns, ensure_bind_eq_ok_iff, checkColumns_eq_ok_iff, List.map_cons, List.nodup_cons, List.mem_map,
      List.forall_mem_cons]
    constructor
    · rintro ⟨hcol, hcols, hnodup⟩
      refine ⟨⟨hcol, fun c hc => ⟨(hcols c hc).1, fun h => (hcols c hc).2 (Finset.mem_insert_of_mem h)⟩⟩, ?_, hnodup⟩
      rintro ⟨c, hc, heq⟩
      exact (hcols c hc).2 (heq ▸ Finset.mem_insert_self _ _)
    · rintro ⟨⟨hcol, hcols⟩, hnew, hnodup⟩
      refine ⟨hcol, fun c hc => ⟨(hcols c hc).1, ?_⟩, hnodup⟩
      rw [Finset.mem_insert, not_or]
      exact ⟨fun heq => hnew ⟨c, hc, heq⟩, (hcols c hc).2⟩

/-- The columns are scored when there are none, or when the parameters, the panel and the cases are sound. -/
theorem scoreColumns_isOk_iff {params : ScoreParams} {panel : List PanelMember} {cols : List RoundColumn} :
    ∀ {claimed : List String}, (∃ out, scoreColumns params panel claimed cols = .ok out) ↔
      (cols ≠ [] → params.Sound ∧ SoundPanel panel) ∧ ∀ col ∈ cols, checkRefs [] col.cases = .ok () := by
  induction cols with
  | nil => simp [scoreColumns]
  | cons col cols ih =>
    intro claimed
    simp only [scoreColumns, bind_eq_ok_iff, pure_eq_ok_iff, mapError_eq_ok_iff, scoreCases_eq_ok_iff]
    constructor
    · rintro ⟨out, ps, ⟨hparams, hpanel, hrefs, -⟩, rest, hrest, -⟩
      refine ⟨fun _ => ⟨hparams, hpanel⟩, List.forall_mem_cons.2 ⟨hrefs, (ih.1 ⟨rest, hrest⟩).2⟩⟩
    · rintro ⟨hsound, hrefs⟩
      rw [List.forall_mem_cons] at hrefs
      obtain ⟨hparams, hpanel⟩ := hsound (List.cons_ne_nil _ _)
      obtain ⟨rest, hrest⟩ := (@ih (claimed ++ col.cases.map (·.fingerprint))).2 ⟨fun _ => ⟨hparams, hpanel⟩, hrefs.2⟩
      exact ⟨_, _, ⟨hparams, hpanel, hrefs.1, rfl⟩, rest, hrest, rfl⟩

/-- The rows of a round, in the order of the agents. -/
def roundRows (agents : List RoundAgent) : List Row := (sortOn (·.agentId) agents).map RoundAgent.row

/-- What `ScoreRound` accepts. -/
structure RoundInput.Sound (input : RoundInput) (params : ScoreParams) : Prop where
  agents : ∀ a ∈ input.agents, a.Sound
  agentIds : (input.agents.map (·.agentId)).Nodup
  columnIds : (∀ col ∈ input.columns, col.columnId ≠ "") ∧ (input.columns.map (·.columnId)).Nodup
  panel : input.columns ≠ [] → params.Sound ∧ ∀ a ∈ input.agents, a.member.Sound
  refs : ∀ col ∈ input.columns, checkRefs [] col.cases = .ok ()

theorem soundPanel_sortOn_iff {agents : List RoundAgent} (hids : (agents.map (·.agentId)).Nodup) :
    SoundPanel ((sortOn (·.agentId) agents).map RoundAgent.member) ↔ ∀ a ∈ agents, a.member.Sound := by
  have hperm := (sortOn_perm (·.agentId) agents).map (·.agentId)
  rw [SoundPanel, List.map_map, show PanelMember.agentId ∘ RoundAgent.member = (·.agentId) from rfl, hperm.nodup_iff]
  simp [hids]

/-- An accepted round: its agents are ranked by the rows alone. -/
theorem scoreRound_eq_ok_iff {input : RoundInput} {params : ScoreParams} {out : RoundScore} :
    scoreRound input params = .ok out ↔ input.Sound params ∧
      scoreColumns params ((sortOn (·.agentId) input.agents).map RoundAgent.member) input.claimedFingerprints
        input.columns = .ok out.columns ∧ out.agents = rankRows input.columns (roundRows input.agents) := by
  have hperm := sortOn_perm (·.agentId) input.agents
  have hread (rows : List Row) : readAgents none (sortOn (·.agentId) input.agents) = .ok rows ↔
      (∀ a ∈ input.agents, a.Sound) ∧ (input.agents.map (·.agentId)).Nodup ∧ rows = roundRows input.agents := by
    rw [readAgents_eq_ok_iff (pairwise_sortOn _ _) (by simp), (hperm.map _).nodup_iff]
    simp [roundRows]
  simp only [scoreRound, bind_eq_ok_iff, pure_eq_ok_iff, hread, checkColumns_eq_ok_iff]
  constructor
  · rintro ⟨rows, ⟨hagents, hids, rfl⟩, _, ⟨hcols, hnodup⟩, columns, hcolumns, rfl⟩
    obtain ⟨hpanel, hrefs⟩ := scoreColumns_isOk_iff.1 ⟨columns, hcolumns⟩
    refine ⟨⟨hagents, hids, ⟨fun col hcol => (hcols col hcol).1, hnodup⟩, fun hne => ?_, hrefs⟩, hcolumns, rfl⟩
    exact (hpanel hne).imp_right (soundPanel_sortOn_iff hids).1
  · rintro ⟨hsound, hcolumns, hranks⟩
    refine ⟨_, ⟨hsound.agents, hsound.agentIds, rfl⟩, (), ⟨fun col hcol => ⟨hsound.columnIds.1 col hcol, by simp⟩,
      hsound.columnIds.2⟩, out.columns, hcolumns, ?_⟩
    rw [← hranks]

theorem scoreRound_isOk_iff {input : RoundInput} {params : ScoreParams} :
    (∃ out, scoreRound input params = .ok out) ↔ input.Sound params := by
  constructor
  · rintro ⟨out, h⟩
    exact (scoreRound_eq_ok_iff.1 h).1
  · intro h
    obtain ⟨columns, hcolumns⟩ := (@scoreColumns_isOk_iff params
      ((sortOn (·.agentId) input.agents).map RoundAgent.member) input.columns input.claimedFingerprints).2
        ⟨fun hne => (h.panel hne).imp_right (soundPanel_sortOn_iff h.agentIds).2, h.refs⟩
    exact ⟨⟨columns, _⟩, scoreRound_eq_ok_iff.2 ⟨h, hcolumns, rfl⟩⟩

/-! ## The comparisons -/

section Pairs

variable {columns : List RoundColumn} {a b c : Row} {rows : List Row}

/-- What a comparison with `b` records for `a`. -/
def meet (columns : List RoundColumn) (a b : Row) (t : PairTally) : PairTally :=
  let diffs := differences columns a b
  if diffs.length = 0 then t else if 0 < diffs.sum then t.win else if diffs.sum < 0 then t.loss else t.tie

theorem columnDifferences_swap (a b : Row) (col : RoundColumn) :
    columnDifferences b a col = (columnDifferences a b col).map (-·) := by
  have howner : (!col.counted ∨ (col.ownerKey ≠ "" ∧ (col.ownerKey = b.1.ownerKey ∨ col.ownerKey = a.1.ownerKey))) ↔
      (!col.counted ∨ (col.ownerKey ≠ "" ∧ (col.ownerKey = a.1.ownerKey ∨ col.ownerKey = b.1.ownerKey))) := by tauto
  unfold columnDifferences
  simp only [howner]
  split
  · rfl
  · rw [List.map_filterMap]
    refine congrArg (fun f => List.filterMap f col.cases) (funext fun c => ?_)
    cases answer a c.caseId with
    | none => cases answer b c.caseId <;> rfl
    | some ra =>
      cases answer b c.caseId with
      | none => rfl
      | some rb => simp

/-- The differences of a pair change their signs with the order of the pair. -/
theorem differences_swap (columns : List RoundColumn) (a b : Row) :
    differences columns b a = (differences columns a b).map (-·) := by
  rw [differences, differences, List.map_flatMap]
  exact congrArg (fun f => List.flatMap f columns) (funext (columnDifferences_swap a b))

theorem sum_differences_swap (columns : List RoundColumn) (a b : Row) :
    (differences columns b a).sum = -(differences columns a b).sum := by
  rw [differences_swap, List.sum_neg]

/-- A comparison is recorded for both agents, and for nobody else. -/
theorem playPair_apply (hab : a.1.agentId ≠ b.1.agentId) (t : Tallies) (id : String) :
    playPair columns a b t id = if id = a.1.agentId then meet columns a b (t id)
      else if id = b.1.agentId then meet columns b a (t id) else t id := by
  have hlen : (differences columns b a).length = (differences columns a b).length := by
    rw [differences_swap, List.length_map]
  have hsum := sum_differences_swap columns a b
  unfold playPair meet
  simp only [hlen, hsum]
  generalize (differences columns a b).length = n
  generalize (differences columns a b).sum = s
  by_cases hn : n = 0
  · simp [hn]
  simp only [hn, if_false]
  by_cases hida : id = a.1.agentId
  · subst hida
    rcases lt_trichotomy s 0 with hs | hs | hs
    · simp [hs, hs.not_gt]
    · simp [hs, hab]
    · simp [hs, hab]
  · by_cases hidb : id = b.1.agentId
    · subst hidb
      rcases lt_trichotomy s 0 with hs | hs | hs
      · simp [hs, hs.not_gt, hida]
      · simp [hs]
      · simp [hs, hs.not_gt, hida]
    · rcases lt_trichotomy s 0 with hs | hs | hs
      · simp [hs, hs.not_gt, hida, hidb]
      · simp [hs, hida, hidb]
      · simp [hs, hida, hidb]

/-- The inner loop: `a` meets every later agent, and each of them meets `a`. -/
theorem foldl_playPair_apply (t : Tallies) (id : String) (ha : ∀ b ∈ rows, b.1.agentId ≠ a.1.agentId)
    (hn : (rows.map (·.1.agentId)).Nodup) :
    rows.foldl (fun t b => playPair columns a b t) t id =
      if id = a.1.agentId then rows.foldl (fun pt b => meet columns a b pt) (t id)
      else match rows.find? fun b => b.1.agentId = id with
        | some b => meet columns b a (t id)
        | none => t id := by
  induction rows generalizing t with
  | nil => simp
  | cons b rows ih =>
    rw [List.forall_mem_cons] at ha
    rw [List.map_cons, List.nodup_cons] at hn
    rw [List.foldl_cons, ih _ ha.2 hn.2, playPair_apply ha.1.symm]
    by_cases hid : id = a.1.agentId
    · simp [hid]
    · by_cases hb : b.1.agentId = id
      · have hnone : (rows.find? fun c => c.1.agentId = id) = none := by
          rw [List.find?_eq_none]
          intro c hc
          have hne : c.1.agentId ≠ id := fun heq => hn.1 (List.mem_map.2 ⟨c, hc, heq.trans hb.symm⟩)
          simpa using hne
        simp [hid, hb, hnone]
      · simp [hid, hb, Ne.symm hb]

/-- The other agents of the panel. -/
def others (a : Row) (rows : List Row) : List Row := rows.filter fun b => b.1.agentId ≠ a.1.agentId

theorem others_eq_self (ha : ∀ b ∈ rows, b.1.agentId ≠ a.1.agentId) : others a rows = rows := by
  simpa [others] using ha

theorem playAll_of_ne {id : String} (hid : ∀ b ∈ rows, b.1.agentId ≠ id) (hn : (rows.map (·.1.agentId)).Nodup)
    (t : Tallies) : playAll columns rows t id = t id := by
  induction rows generalizing t with
  | nil => rfl
  | cons b rows ih =>
    rw [List.forall_mem_cons] at hid
    rw [List.map_cons, List.nodup_cons] at hn
    have hb : ∀ c ∈ rows, c.1.agentId ≠ b.1.agentId := fun c hc heq => hn.1 (List.mem_map.2 ⟨c, hc, heq⟩)
    have hnone : (rows.find? fun c => c.1.agentId = id) = none := by
      rw [List.find?_eq_none]
      intro c hc
      simpa using hid.2 c hc
    rw [playAll, ih hid.2 hn.2, foldl_playPair_apply _ _ hb hn.2, if_neg hid.1.symm]
    simp only [hnone]

/-- The nested loop records for an agent its comparisons with all the others. -/
theorem playAll_apply (hn : (rows.map (·.1.agentId)).Nodup) (hc : c ∈ rows) (t : Tallies) :
    playAll columns rows t c.1.agentId = (others c rows).foldl (fun pt b => meet columns c b pt) (t c.1.agentId) := by
  induction rows generalizing t with
  | nil => cases hc
  | cons a rows ih =>
    rw [List.map_cons, List.nodup_cons] at hn
    have ha : ∀ b ∈ rows, b.1.agentId ≠ a.1.agentId := fun b hb heq => hn.1 (List.mem_map.2 ⟨b, hb, heq⟩)
    rw [playAll]
    rcases List.mem_cons.1 hc with rfl | hc
    · have hothers : others c (c :: rows) = rows := by
        rw [others, List.filter_cons_of_neg (by simp)]
        exact others_eq_self ha
      rw [playAll_of_ne ha hn.2, foldl_playPair_apply _ _ ha hn.2, if_pos rfl, hothers]
    · have hne : c.1.agentId ≠ a.1.agentId := ha c hc
      have hfind : (rows.find? fun b => b.1.agentId = c.1.agentId) = some c := by
        cases hf : rows.find? fun b => b.1.agentId = c.1.agentId with
        | none =>
          rw [List.find?_eq_none] at hf
          exact absurd (decide_eq_true rfl) (hf c hc)
        | some b =>
          have hid : b.1.agentId = c.1.agentId := by simpa using List.find?_some hf
          rw [List.inj_on_of_nodup_map hn.2 (List.mem_of_find?_eq_some hf) hc hid]
      have hothers : others c (a :: rows) = a :: others c rows := by
        rw [others, List.filter_cons_of_pos (by simpa using hne.symm), others]
      rw [ih hn.2 hc, foldl_playPair_apply _ _ ha hn.2, if_neg hne, hothers, List.foldl_cons]
      simp only [hfind]

/-- One point for a win and half a point for a tie. -/
def points (columns : List RoundColumn) (a b : Row) : ℚ :=
  let diffs := differences columns a b
  if diffs.length = 0 then 0 else if 0 < diffs.sum then 1 else if diffs.sum < 0 then 0 else 1 / 2

/-- Whether two agents are compared at all. -/
def meets (columns : List RoundColumn) (a b : Row) : ℕ := if (differences columns a b).length = 0 then 0 else 1

theorem points_mem (columns : List RoundColumn) (a b : Row) :
    0 ≤ points columns a b ∧ points columns a b ≤ meets columns a b ∧ meets columns a b ≤ 1 := by
  unfold points meets
  dsimp only
  split
  · simp
  split
  · simp
  split
  · simp
  · norm_num

/-- The pairwise score from points and opponents. -/
def ratio (points : ℚ) (opponents : ℕ) : ℚ := if 0 < opponents then points / opponents else 0

theorem foldl_meet (pt : PairTally) (bs : List Row) :
    (bs.foldl (fun pt b => meet columns a b pt) pt).opponents = pt.opponents + (bs.map (meets columns a)).sum ∧
      ((bs.foldl (fun pt b => meet columns a b pt) pt).wins : ℚ) +
          (bs.foldl (fun pt b => meet columns a b pt) pt).ties / 2 =
        pt.wins + pt.ties / 2 + (bs.map (points columns a)).sum := by
  induction bs generalizing pt with
  | nil => simp
  | cons b bs ih =>
    obtain ⟨ho, hp⟩ := ih (meet columns a b pt)
    have hstep : (meet columns a b pt).opponents = pt.opponents + meets columns a b ∧
        ((meet columns a b pt).wins : ℚ) + (meet columns a b pt).ties / 2 =
          pt.wins + pt.ties / 2 + points columns a b := by
      unfold meet meets points
      dsimp only
      split
      · simp
      split
      · refine ⟨rfl, ?_⟩
        simp only [PairTally.win]
        push_cast
        ring
      split
      · exact ⟨rfl, by simp [PairTally.loss]⟩
      · refine ⟨rfl, ?_⟩
        simp only [PairTally.tie]
        push_cast
        ring
    rw [List.foldl_cons, List.map_cons, List.map_cons, List.sum_cons, List.sum_cons]
    refine ⟨?_, ?_⟩
    · rw [ho, hstep.1]
      omega
    · rw [hp, hstep.2]
      ring

/-- The pairwise score of an agent on the panel. -/
def pairwise (columns : List RoundColumn) (rows : List Row) (a : Row) : ℚ :=
  ratio ((others a rows).map (points columns a)).sum ((others a rows).map (meets columns a)).sum

theorem pairwiseScore_playAll (hn : (rows.map (·.1.agentId)).Nodup) (ha : a ∈ rows) :
    (playAll columns rows (fun _ => {}) a.1.agentId).pairwiseScore = pairwise columns rows a := by
  obtain ⟨ho, hp⟩ := @foldl_meet columns a {} (others a rows)
  rw [playAll_apply hn ha, PairTally.pairwiseScore, ho, hp, pairwise, ratio]
  simp

end Pairs

/-! ## The ranking -/

section Ranks

variable {columns : List RoundColumn} {a b : Row} {rows : List Row}

/-- Where an agent stands on the panel. -/
def rowKey (columns : List RoundColumn) (rows : List Row) (a : Row) : ℚ ×ₗ ℚ ×ₗ String :=
  standingKey (pairwise columns rows a) (commonMean (commonCases columns rows) a) a.1.agentId

/-- One agent ranks above another. -/
def RanksAbove (standings : List AgentStanding) (a b : String) : Prop :=
  ∃ s ∈ standings, ∃ s' ∈ standings, s.agentId = a ∧ s'.agentId = b ∧ s.rank < s'.rank

instance (standings : List AgentStanding) (a b : String) : Decidable (RanksAbove standings a b) :=
  inferInstanceAs (Decidable (∃ s ∈ standings, ∃ s' ∈ standings, _))

theorem standingKey_agentId {p p' m m' : ℚ} {id id' : String} (h : standingKey p m id = standingKey p' m' id') :
    id = id' := by
  simp only [standingKey, EmbeddingLike.apply_eq_iff_eq, Prod.mk.injEq] at h
  exact h.2.2

/-- The standings of a sorted list: the ranks are in the order of the keys. -/
theorem ranksAbove_rankStandings_iff {standings : List AgentStanding} (hn : (standings.map (·.agentId)).Nodup)
    {s s' : AgentStanding} (hs : s ∈ standings) (hs' : s' ∈ standings) :
    RanksAbove (rankStandings standings) s.agentId s'.agentId ↔
      standingKey s.pairwiseScore s.commonMean s.agentId < standingKey s'.pairwiseScore s'.commonMean s'.agentId := by
  set key := fun s : AgentStanding => standingKey s.pairwiseScore s.commonMean s.agentId with hkey
  have hperm := sortOn_perm key standings
  have hsorted := pairwise_sortOn key standings
  have hinj : ∀ u ∈ sortOn key standings, ∀ v ∈ sortOn key standings, u.agentId = v.agentId → u = v := fun u hu v hv =>
    List.inj_on_of_nodup_map ((hperm.map _).nodup_iff.2 hn) hu hv
  have hnodup : (sortOn key standings).Nodup := List.Nodup.of_map _ ((hperm.map (·.agentId)).nodup_iff.2 hn)
  have hrank (u : AgentStanding) : u ∈ rankStandings standings ↔
      ∃ i, ∃ h : i < (sortOn key standings).length, { (sortOn key standings)[i] with rank := i + 1 } = u :=
    List.mem_mapIdx
  constructor
  · rintro ⟨u, hu, u', hu', hid, hid', hlt⟩
    obtain ⟨i, hi, rfl⟩ := (hrank u).1 hu
    obtain ⟨j, hj, rfl⟩ := (hrank u').1 hu'
    have hij : i < j := by simpa using hlt
    have hsi : (sortOn key standings)[i] = s := hinj _ (List.getElem_mem hi) _ (mem_sortOn.2 hs) hid
    have hsj : (sortOn key standings)[j] = s' := hinj _ (List.getElem_mem hj) _ (mem_sortOn.2 hs') hid'
    have hle : key s ≤ key s' := hsi ▸ hsj ▸ List.pairwise_iff_getElem.1 hsorted i j hi hj hij
    refine lt_of_le_of_ne hle fun heq => ?_
    have hss : s = s' := hinj _ (mem_sortOn.2 hs) _ (mem_sortOn.2 hs') (standingKey_agentId heq)
    rw [← hsi, ← hsj, hnodup.getElem_inj_iff] at hss
    omega
  · intro hlt
    obtain ⟨i, hi, hsi⟩ := List.mem_iff_getElem.1 ((sortOn_perm key _).mem_iff.2 hs)
    obtain ⟨j, hj, hsj⟩ := List.mem_iff_getElem.1 ((sortOn_perm key _).mem_iff.2 hs')
    refine ⟨_, (hrank _).2 ⟨i, hi, rfl⟩, _, (hrank _).2 ⟨j, hj, rfl⟩, by rw [hsi], by rw [hsj], ?_⟩
    have hij : i < j := by
      by_contra hji
      rcases Nat.lt_or_eq_of_le (Nat.not_lt.1 hji) with hji | rfl
      · have hle := List.pairwise_iff_getElem.1 hsorted j i hj hi hji
        rw [hsi, hsj] at hle
        exact absurd hlt hle.not_gt
      · rw [hsi] at hsj
        rw [hsj] at hlt
        exact lt_irrefl _ hlt
    simpa using hij

/-- An agent ranks above another when its key comes first. -/
theorem ranksAbove_iff (hn : (rows.map (·.1.agentId)).Nodup) (ha : a ∈ rows) (hb : b ∈ rows) :
    RanksAbove (rankRows columns rows) a.1.agentId b.1.agentId ↔ rowKey columns rows a < rowKey columns rows b := by
  set f := standing (playAll columns rows fun _ => {}) (commonCases columns rows) with hf
  have hids : ((rows.map f).map (·.agentId)).Nodup := by rwa [List.map_map]
  have := ranksAbove_rankStandings_iff hids (List.mem_map_of_mem ha) (List.mem_map_of_mem hb)
  rw [rowKey, rowKey, ← pairwiseScore_playAll hn ha, ← pairwiseScore_playAll hn hb]
  exact this

end Ranks

end DittoSubnet.Generator

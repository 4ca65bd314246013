import DittoSubnet.Generator.Round
import DittoSubnet.Kit.Walk

/-!
# A miner's own column

What the cases of the columns that an owner `K` owns, and the results on them, can do to the ranks of the agents of `K`.
Such a column enters no comparison that an agent of `K` takes part in, and no common case (`differences_alike`,
`commonCases_alike`), so the key of an agent of `K` stays. But it enters the comparisons of the other agents with each
other, and with enough cases it decides all of them (`flooded_points`). So a counted column moves an agent of `K`
against another agent unless that one stays on its side with all these comparisons won, or with all of them lost
(`cannotMove_iff`).
-/

namespace DittoSubnet.Generator

open Kit

/-! ## Inputs that differ in what the owner controls -/

/-- The result of an agent for a case. -/
def RoundAgent.resultOf (a : RoundAgent) (caseId : String) : Option PanelCaseResult :=
  a.results.find? fun r => r.caseId = caseId

/-- The cases of the columns that `K` owns. -/
def ownCases (K : String) (input : RoundInput) : List String :=
  (input.columns.filter (·.ownerKey = K)).flatMap fun col => col.cases.map (·.caseId)

/-- The cases of the columns that `K` does not own. -/
def otherCases (K : String) (input : RoundInput) : List String :=
  (input.columns.filter (·.ownerKey ≠ K)).flatMap fun col => col.cases.map (·.caseId)

/-- The same column, up to its cases if `K` owns it. -/
structure ColumnDiffers (K : String) (col col' : RoundColumn) : Prop where
  columnId : col'.columnId = col.columnId
  ownerKey : col'.ownerKey = col.ownerKey
  counted : col'.counted = col.counted
  cases : col.ownerKey ≠ K → col'.cases = col.cases

/-- The same agent, up to its results on the cases of `K`. -/
structure AgentDiffers (K : String) (input input' : RoundInput) (a a' : RoundAgent) : Prop where
  agentId : a'.agentId = a.agentId
  ownerKey : a'.ownerKey = a.ownerKey
  reference : a'.reference = a.reference
  champion : a'.champion = a.champion
  results : ∀ caseId, caseId ∈ otherCases K input ∨ (caseId ∉ ownCases K input ∧ caseId ∉ ownCases K input') →
    a'.resultOf caseId = a.resultOf caseId

/-- Inputs that differ only in the cases of the columns that `K` owns, and in the results on these cases. -/
structure DiffersInOwn (K : String) (input input' : RoundInput) : Prop where
  columns : List.Forall₂ (ColumnDiffers K) input.columns input'.columns
  agents : List.Forall₂ (AgentDiffers K input input') input.agents input'.agents
  claimedFingerprints : input'.claimedFingerprints = input.claimedFingerprints

/-- No accepted input that differs only in what `K` controls ranks an agent of `K` differently against another agent. -/
def CannotMove (K : String) (params : ScoreParams) (input : RoundInput) : Prop :=
  ∀ input' out out', DiffersInOwn K input input' → scoreRound input params = .ok out →
    scoreRound input' params = .ok out' → ∀ a ∈ input.agents, ∀ b ∈ input.agents, a.owner = K → b.agentId ≠ a.agentId →
      (RanksAbove out.agents a.agentId b.agentId ↔ RanksAbove out'.agents a.agentId b.agentId)

/-! ## What stays -/

/-- Rows of one agent whose results agree on the cases `ids`. -/
structure RowAlike (ids : List String) (row row' : Row) : Prop where
  agentId : row'.1.agentId = row.1.agentId
  ownerKey : row'.1.ownerKey = row.1.ownerKey
  get? : ∀ caseId ∈ ids, row'.2.get? caseId = row.2.get? caseId

/-- The same column, with cases among `ids` that stay if `K` does not own it. -/
structure ColumnAlike (K : String) (ids : List String) (col col' : RoundColumn) :
    Prop extends ColumnDiffers K col col' where
  mem : col.ownerKey ≠ K → ∀ c ∈ col.cases, c.caseId ∈ ids

section Alike

variable {K : String} {ids : List String} {columns columns' : List RoundColumn} {col col' : RoundColumn}
  {a a' b b' row row' : Row} {rows rows' : List Row}

theorem answer_alike (h : RowAlike ids row row') {caseId : String} (hid : caseId ∈ ids) :
    answer row' caseId = answer row caseId := cleanResult_congr h.ownerKey (h.get? caseId hid)

/-- A column gives a pair the same differences, unless `K` owns it and neither agent. -/
theorem columnDifferences_alike (hK : K ≠ "") (hcol : ColumnAlike K ids col col') (ha : RowAlike ids a a')
    (hb : RowAlike ids b b')
    (hout : col.ownerKey ≠ K ∨ col.counted = false ∨ a.1.ownerKey = K ∨ b.1.ownerKey = K) :
    columnDifferences a b col = columnDifferences a' b' col' := by
  unfold columnDifferences
  rw [hcol.counted, hcol.ownerKey, ha.ownerKey, hb.ownerKey]
  by_cases hown : col.ownerKey = K
  · have hskip : !col.counted ∨ (col.ownerKey ≠ "" ∧ (col.ownerKey = a.1.ownerKey ∨ col.ownerKey = b.1.ownerKey)) := by
      subst hown
      rcases hout with hout | hout | hout | hout
      · exact absurd rfl hout
      · simp [hout]
      · simp [hout, hK]
      · simp [hout, hK]
    rw [if_pos hskip, if_pos hskip]
  · rw [hcol.cases hown]
    split
    · rfl
    · refine List.filterMap_congr fun c hc => ?_
      rw [answer_alike ha (hcol.mem hown c hc), answer_alike hb (hcol.mem hown c hc)]

theorem differences_alike (hK : K ≠ "") (hcols : List.Forall₂ (ColumnAlike K ids) columns columns')
    (ha : RowAlike ids a a') (hb : RowAlike ids b b')
    (hout : ∀ col ∈ columns, col.ownerKey ≠ K ∨ col.counted = false ∨ a.1.ownerKey = K ∨ b.1.ownerKey = K) :
    differences columns a b = differences columns' a' b' := by
  have hcols' := (List.forall₂_and_left _ _).2 ⟨hout, hcols⟩
  rw [differences, differences, List.flatMap_def, List.flatMap_def]
  exact congrArg List.flatten (map_eq_of_rel (fun col col' h => columnDifferences_alike hK h.2 ha hb h.1) hcols')

/-- The common cases are on columns that `K` does not own, when an agent of `K` is on the panel. -/
theorem commonOf_alike (hK : K ≠ "") (hcol : ColumnAlike K ids col col')
    (hrows : List.Forall₂ (RowAlike ids) rows rows')
    (ha : a ∈ rows) (hown : a.1.ownerKey = K) :
    commonOf rows col = commonOf rows' col' ∧ ∀ id ∈ commonOf rows col, id ∈ ids := by
  have howners : (∃ row ∈ rows', row.1.ownerKey = col.ownerKey) ↔ ∃ row ∈ rows, row.1.ownerKey = col.ownerKey := by
    constructor
    · rintro ⟨row', hrow', hkey⟩
      obtain ⟨row, hrow, h⟩ := exists_of_mem_right hrows hrow'
      exact ⟨row, hrow, h.ownerKey ▸ hkey⟩
    · rintro ⟨row, hrow, hkey⟩
      obtain ⟨row', hrow', h⟩ := exists_of_mem_right hrows.flip hrow
      exact ⟨row', hrow', h.ownerKey.trans hkey⟩
  simp only [commonOf, hcol.counted, hcol.ownerKey, howners]
  by_cases hcolown : col.ownerKey = K
  · have hskip : !col.counted ∨ (col.ownerKey ≠ "" ∧ ∃ row ∈ rows, row.1.ownerKey = col.ownerKey) :=
      .inr ⟨hcolown ▸ hK, a, ha, hown.trans hcolown.symm⟩
    rw [if_pos hskip, if_pos hskip]
    simp
  · rw [hcol.cases hcolown]
    split
    · simp
    · refine ⟨congrArg _ (List.filter_congr fun c hc => decide_eq_decide.2 ?_), fun id hid => ?_⟩
      · have hid := hcol.mem hcolown c hc
        constructor
        · intro h row' hrow'
          obtain ⟨row, hrow, hr⟩ := exists_of_mem_right hrows hrow'
          rw [answer_alike hr hid]
          exact h row hrow
        · intro h row hrow
          obtain ⟨row', hrow', hr⟩ := exists_of_mem_right hrows.flip hrow
          rw [← answer_alike hr hid]
          exact h row' hrow'
      · obtain ⟨c, hc, rfl⟩ := List.mem_map.1 hid
        exact hcol.mem hcolown c (List.mem_of_mem_filter hc)

theorem commonCases_alike (hK : K ≠ "") (hcols : List.Forall₂ (ColumnAlike K ids) columns columns')
    (hrows : List.Forall₂ (RowAlike ids) rows rows') (ha : a ∈ rows) (hown : a.1.ownerKey = K) :
    commonCases columns rows = commonCases columns' rows' ∧ ∀ id ∈ commonCases columns rows, id ∈ ids := by
  constructor
  · rw [commonCases, commonCases, List.flatMap_def, List.flatMap_def]
    exact congrArg List.flatten
      (map_eq_of_rel (f := commonOf rows) (g := commonOf rows') (fun _ _ h => (commonOf_alike hK h hrows ha hown).1)
        hcols)
  · intro id hid
    obtain ⟨col, hcol, hid⟩ := List.mem_flatMap.1 hid
    obtain ⟨col', -, h⟩ := exists_of_mem_right hcols.flip hcol
    exact (commonOf_alike hK h hrows ha hown).2 id hid

theorem commonMean_alike {common : List String} (hcommon : ∀ id ∈ common, id ∈ ids) (h : RowAlike ids row row') :
    commonMean common row = commonMean common row' := by
  unfold commonMean
  refine congrArg (fun l : List ℚ => if 0 < common.length then l.sum / (common.length : ℚ) else 0) ?_
  exact List.map_congr_left fun id hid => by rw [h.get? id (hcommon id hid)]

theorem others_alike (hrows : List.Forall₂ (RowAlike ids) rows rows') (ha : RowAlike ids a a') :
    List.Forall₂ (RowAlike ids) (others a rows) (others a' rows') :=
  rel_filter (fun b b' hb => by rw [hb.agentId, ha.agentId]) hrows

theorem points_alike (h : differences columns a b = differences columns' a' b') :
    points columns a b = points columns' a' b' ∧ meets columns a b = meets columns' a' b' := by
  rw [points, points, meets, meets, h]
  exact ⟨rfl, rfl⟩

/-- The pairwise score of an agent whose comparisons stay. -/
theorem pairwise_alike (hK : K ≠ "") (hcols : List.Forall₂ (ColumnAlike K ids) columns columns')
    (hrows : List.Forall₂ (RowAlike ids) rows rows') (ha : RowAlike ids a a')
    (hout : ∀ col ∈ columns, col.ownerKey ≠ K ∨ col.counted = false ∨ a.1.ownerKey = K) :
    pairwise columns rows a = pairwise columns' rows' a' := by
  have hsame (b b' : Row) (hb : RowAlike ids b b') := points_alike (differences_alike hK hcols ha hb
    fun col hcol => (hout col hcol).imp_right fun h => h.imp_right .inl)
  rw [pairwise, pairwise, map_eq_of_rel (fun b b' hb => (hsame b b' hb).1) (others_alike hrows ha),
    map_eq_of_rel (fun b b' hb => (hsame b b' hb).2) (others_alike hrows ha)]

end Alike

/-! ## How far the others' comparisons reach -/

section Extremes

variable {columns columns' : List RoundColumn} {rows rows' : List Row} {K : String} {a b : Row}

/-- The other agents of `K`. -/
def ownOthers (K : String) (b : Row) (rows : List Row) : List Row := (others b rows).filter (·.1.ownerKey = K)

/-- The other agents outside `K`. -/
def thirds (K : String) (b : Row) (rows : List Row) : List Row := (others b rows).filter (·.1.ownerKey ≠ K)

/-- The pairwise score of `b` with every comparison outside `K` won. -/
def best (columns : List RoundColumn) (rows : List Row) (K : String) (b : Row) : ℚ :=
  ratio (((ownOthers K b rows).map (points columns b)).sum + (thirds K b rows).length)
    (((ownOthers K b rows).map (meets columns b)).sum + (thirds K b rows).length)

/-- The pairwise score of `b` with every comparison outside `K` lost. -/
def worst (columns : List RoundColumn) (rows : List Row) (K : String) (b : Row) : ℚ :=
  ratio ((ownOthers K b rows).map (points columns b)).sum
    (((ownOthers K b rows).map (meets columns b)).sum + (thirds K b rows).length)

section Alike

variable {ids : List String} {b' : Row}

theorem ownOthers_alike (hrows : List.Forall₂ (RowAlike ids) rows rows') (hb : RowAlike ids b b') :
    List.Forall₂ (RowAlike ids) (ownOthers K b rows) (ownOthers K b' rows') :=
  rel_filter (fun c c' hc => by rw [hc.ownerKey]) (others_alike hrows hb)

theorem thirds_alike (hrows : List.Forall₂ (RowAlike ids) rows rows') (hb : RowAlike ids b b') :
    List.Forall₂ (RowAlike ids) (thirds K b rows) (thirds K b' rows') :=
  rel_filter (fun c c' hc => by rw [hc.ownerKey]) (others_alike hrows hb)

/-- The comparisons with agents of `K` stay. -/
theorem ownOthers_sums_alike (hK : K ≠ "") (hcols : List.Forall₂ (ColumnAlike K ids) columns columns')
    (hrows : List.Forall₂ (RowAlike ids) rows rows') (hb : RowAlike ids b b') :
    ((ownOthers K b rows).map (points columns b)).sum = ((ownOthers K b' rows').map (points columns' b')).sum ∧
      ((ownOthers K b rows).map (meets columns b)).sum = ((ownOthers K b' rows').map (meets columns' b')).sum := by
  have hown : ∀ c ∈ ownOthers K b rows, c.1.ownerKey = K := fun c hc => by simpa using (List.mem_filter.1 hc).2
  have hrel := (List.forall₂_and_left _ _).2 ⟨hown, ownOthers_alike (K := K) hrows hb⟩
  have hsame (c c' : Row) (hc : c.1.ownerKey = K ∧ RowAlike ids c c') :=
    points_alike (differences_alike hK hcols hb hc.2 fun col _ => .inr (.inr (.inr hc.1)))
  rw [map_eq_of_rel (fun c c' hc => (hsame c c' hc).1) hrel, map_eq_of_rel (fun c c' hc => (hsame c c' hc).2) hrel]
  exact ⟨rfl, rfl⟩

theorem best_alike (hK : K ≠ "") (hcols : List.Forall₂ (ColumnAlike K ids) columns columns')
    (hrows : List.Forall₂ (RowAlike ids) rows rows') (hb : RowAlike ids b b') :
    best columns rows K b = best columns' rows' K b' := by
  obtain ⟨hpoints, hmeets⟩ := ownOthers_sums_alike hK hcols hrows hb
  rw [best, best, hpoints, hmeets, (thirds_alike (K := K) hrows hb).length_eq]

theorem worst_alike (hK : K ≠ "") (hcols : List.Forall₂ (ColumnAlike K ids) columns columns')
    (hrows : List.Forall₂ (RowAlike ids) rows rows') (hb : RowAlike ids b b') :
    worst columns rows K b = worst columns' rows' K b' := by
  obtain ⟨hpoints, hmeets⟩ := ownOthers_sums_alike hK hcols hrows hb
  rw [worst, worst, hpoints, hmeets, (thirds_alike (K := K) hrows hb).length_eq]

end Alike

theorem sum_filter_add {α M : Type} [AddCommMonoid M] (l : List α) (p : α → Prop) [DecidablePred p] (f : α → M) :
    ((l.filter fun x => p x).map f).sum + ((l.filter fun x => ¬ p x).map f).sum = (l.map f).sum := by
  induction l with
  | nil => simp
  | cons x l ih =>
    by_cases hx : p x
    · simp [hx, ← ih, add_assoc]
    · simp [hx, ← ih, add_left_comm]

/-- The comparisons with agents of `K`, and those with the others. -/
theorem pairwise_eq (columns : List RoundColumn) (rows : List Row) (K : String) (b : Row) : pairwise columns rows b =
    ratio (((ownOthers K b rows).map (points columns b)).sum + ((thirds K b rows).map (points columns b)).sum)
      (((ownOthers K b rows).map (meets columns b)).sum + ((thirds K b rows).map (meets columns b)).sum) := by
  rw [pairwise, ← sum_filter_add (others b rows) (·.1.ownerKey = K),
    ← sum_filter_add (others b rows) (·.1.ownerKey = K)]
  rfl

theorem sum_points_mem (columns : List RoundColumn) (a : Row) (bs : List Row) :
    0 ≤ (bs.map (points columns a)).sum ∧ (bs.map (points columns a)).sum ≤ ((bs.map (meets columns a)).sum : ℕ) ∧
      (bs.map (meets columns a)).sum ≤ bs.length := by
  induction bs with
  | nil => simp
  | cons b bs ih =>
    obtain ⟨h₁, h₂, h₃⟩ := points_mem columns a b
    simp only [List.map_cons, List.sum_cons, List.length_cons, Nat.cast_add]
    refine ⟨by linarith [ih.1], by linarith [ih.2.1], by omega⟩

/-- Winning every further comparison is best. -/
theorem ratio_le_best {P p : ℚ} {O o m : ℕ} (hP : 0 ≤ P) (hPO : P ≤ O) (hp : p ≤ o) (hom : o ≤ m) :
    ratio (P + p) (O + o) ≤ ratio (P + m) (O + m) := by
  have hom' : (o : ℚ) ≤ m := Nat.cast_le.2 hom
  unfold ratio
  rcases Nat.eq_zero_or_pos (O + o) with hz | hpos
  · rw [if_neg (by omega)]
    split
    · positivity
    · exact le_refl _
  · rw [if_pos hpos, if_pos (by omega)]
    have hpos' : (0 : ℚ) < ((O + o : ℕ) : ℚ) := Nat.cast_pos.2 hpos
    rw [div_le_div_iff₀ hpos' (Nat.cast_pos.2 (by omega))]
    push_cast
    have hO : (0 : ℚ) ≤ O := Nat.cast_nonneg O
    have ho : (0 : ℚ) ≤ o := Nat.cast_nonneg o
    calc (P + p) * (O + m) ≤ (P + o) * (O + m) := by gcongr
      _ = (P + m) * (O + o) - (m - o) * (O - P) := by ring
      _ ≤ (P + m) * (O + o) := sub_le_self _ (mul_nonneg (by linarith) (by linarith))

/-- Losing every further comparison is worst. -/
theorem worst_le_ratio {P p : ℚ} {O o m : ℕ} (hP : 0 ≤ P) (hPO : P ≤ O) (hp : 0 ≤ p) (hom : o ≤ m) :
    ratio P (O + m) ≤ ratio (P + p) (O + o) := by
  have hom' : (o : ℚ) ≤ m := Nat.cast_le.2 hom
  unfold ratio
  rcases Nat.eq_zero_or_pos (O + m) with hz | hpos
  · rw [if_neg (by omega), if_neg (by omega)]
  · rw [if_pos hpos]
    rcases Nat.eq_zero_or_pos (O + o) with hz | hpos'
    · have hO : O = 0 := by omega
      have hzero : P = 0 := le_antisymm (by simpa [hO] using hPO) hP
      rw [hzero, if_neg (by omega), zero_div]
    · rw [if_pos hpos', div_le_div_iff₀ (Nat.cast_pos.2 hpos) (Nat.cast_pos.2 hpos')]
      push_cast
      have hO : (0 : ℚ) ≤ O := Nat.cast_nonneg O
      nlinarith

/-- The pairwise score lies between the two. -/
theorem pairwise_mem (columns : List RoundColumn) (rows : List Row) (K : String) (b : Row) :
    worst columns rows K b ≤ pairwise columns rows b ∧ pairwise columns rows b ≤ best columns rows K b := by
  obtain ⟨hP, hPO, -⟩ := sum_points_mem columns b (ownOthers K b rows)
  obtain ⟨hp, hpo, hom⟩ := sum_points_mem columns b (thirds K b rows)
  rw [pairwise_eq columns rows K b]
  exact ⟨worst_le_ratio hP hPO hp hom, ratio_le_best hP hPO hpo hom⟩

end Extremes

/-! ## The rows of the two inputs -/

section Rows

variable {K : String} {input input' : RoundInput} {a a' : RoundAgent}

theorem get?_row (a : RoundAgent) (caseId : String) : a.row.2.get? caseId = a.resultOf caseId := by
  show Dict.get? (a.results.map fun r => (r.caseId, r)) caseId = _
  unfold RoundAgent.resultOf
  induction a.results with
  | nil => rfl
  | cons r rs ih =>
    by_cases h : r.caseId = caseId
    · simp [Dict.get?, h]
    · simpa [Dict.get?, h] using ih

theorem row_alike (h : AgentDiffers K input input' a a') : RowAlike (otherCases K input) a.row a'.row where
  agentId := h.agentId
  ownerKey := by
    show a'.owner = a.owner
    unfold RoundAgent.owner
    rw [h.reference, h.agentId, h.ownerKey]
  get? caseId hid := by
    rw [get?_row, get?_row]
    exact h.results caseId (.inl hid)

theorem roundRows_alike (h : DiffersInOwn K input input') :
    List.Forall₂ (RowAlike (otherCases K input)) (roundRows input.agents) (roundRows input'.agents) := by
  have hkey (a b a' b' : RoundAgent) (ha : AgentDiffers K input input' a a') (hb : AgentDiffers K input input' b b') :
      a.agentId ≤ b.agentId ↔ a'.agentId ≤ b'.agentId := by rw [ha.agentId, hb.agentId]
  have hsort : List.Forall₂ (AgentDiffers K input input') (sortOn (·.agentId) input.agents)
      (sortOn (·.agentId) input'.agents) := rel_sortOn hkey h.agents
  exact List.forall₂_map_left_iff.2 (List.forall₂_map_right_iff.2 (hsort.imp fun a a' ha => row_alike ha))

theorem columns_alike (h : DiffersInOwn K input input') :
    List.Forall₂ (ColumnAlike K (otherCases K input)) input.columns input'.columns := by
  have hmem : ∀ col ∈ input.columns, col.ownerKey ≠ K → ∀ c ∈ col.cases, c.caseId ∈ otherCases K input := by
    intro col hcol hown c hc
    exact List.mem_flatMap.2 ⟨col, List.mem_filter.2 ⟨hcol, decide_eq_true hown⟩, List.mem_map_of_mem hc⟩
  exact ((List.forall₂_and_left _ _).2 ⟨hmem, h.columns⟩).imp fun col col' hcol => ⟨hcol.2, hcol.1⟩

theorem mem_roundRows {agents : List RoundAgent} {row : Row} : row ∈ roundRows agents ↔ ∃ a ∈ agents, a.row = row := by
  simp [roundRows]

theorem agentIds_roundRows_nodup {agents : List RoundAgent} (h : (agents.map (·.agentId)).Nodup) :
    ((roundRows agents).map (·.1.agentId)).Nodup := by
  rw [roundRows, List.map_map]
  exact ((sortOn_perm (·.agentId) agents).map (·.agentId)).nodup_iff.2 h

end Rows

/-! ## Flooding a column -/

/-- The score of an agent on the cases of a flooded column: `b` alone solves them, or alone fails them. -/
def floodScore (b : String) (win : Bool) (agentId : String) : ℚ := if (agentId == b) = win then 1 else 0

def floodedColumn (K : String) (fresh : List String) (col : RoundColumn) : RoundColumn :=
  if col.ownerKey = K then { col with cases := fresh.map fun id => ⟨id, ""⟩ } else col

def floodedAgent (b : String) (win : Bool) (fresh : List String) (a : RoundAgent) : RoundAgent :=
  { a with results := a.results ++ fresh.map fun id => { caseId := id, score := floodScore b win a.agentId } }

/-- The columns of `K` are given the cases `fresh`, which `b` wins or loses against everybody. -/
def flooded (K b : String) (win : Bool) (fresh : List String) (input : RoundInput) : RoundInput where
  columns := input.columns.map (floodedColumn K fresh)
  agents := input.agents.map (floodedAgent b win fresh)
  claimedFingerprints := input.claimedFingerprints

/-- The number of cases of a round. -/
def caseCount (input : RoundInput) : ℕ := (input.columns.map (·.cases.length)).sum

/-- Case ids that a round does not use, more than it has cases. -/
structure Fresh (input : RoundInput) (fresh : List String) : Prop where
  nodup : fresh.Nodup
  cases : ∀ id ∈ fresh, ∀ col ∈ input.columns, ∀ c ∈ col.cases, c.caseId ≠ id
  results : ∀ id ∈ fresh, ∀ a ∈ input.agents, ∀ r ∈ a.results, r.caseId ≠ id
  count : caseCount input < fresh.length

theorem exists_fresh (input : RoundInput) : ∃ fresh, Fresh input fresh := by
  set used : Finset String := (input.columns.flatMap fun col => col.cases.map (·.caseId)).toFinset ∪
    (input.agents.flatMap fun a => a.results.map (·.caseId)).toFinset with hused
  obtain ⟨s, hs, hcard⟩ := (used.finite_toSet.infinite_compl).exists_subset_card_eq (caseCount input + 1)
  refine ⟨s.toList, s.nodup_toList, fun id hid col hcol c hc heq => ?_, fun id hid a ha r hr heq => ?_, ?_⟩
  · refine hs (Finset.mem_coe.2 (Finset.mem_toList.1 hid)) (Finset.mem_coe.2 ?_)
    rw [hused, Finset.mem_union, List.mem_toFinset, List.mem_flatMap]
    exact .inl ⟨col, hcol, heq ▸ List.mem_map_of_mem hc⟩
  · refine hs (Finset.mem_coe.2 (Finset.mem_toList.1 hid)) (Finset.mem_coe.2 ?_)
    rw [hused, Finset.mem_union, List.mem_toFinset, List.mem_toFinset, List.mem_flatMap]
    exact .inr (List.mem_flatMap.2 ⟨a, ha, heq ▸ List.mem_map_of_mem hr⟩)
  · rw [Finset.length_toList, hcard]
    omega

section Flood

variable {K b : String} {win : Bool} {fresh : List String} {input : RoundInput} {params : ScoreParams}

theorem floodScore_mem (b : String) (win : Bool) (agentId : String) :
    0 ≤ floodScore b win agentId ∧ floodScore b win agentId ≤ 1 := by
  unfold floodScore
  split <;> simp

/-- Cases of one fingerprint name no id twice. -/
theorem checkRefs_of_const : ∀ {cases : List CaseRef} {d : Dict String String}, (∀ c ∈ cases, c.fingerprint = "") →
    (∀ id v, d.get? id = some v → v = "") → checkRefs d cases = .ok ()
  | [], _, _, _ => rfl
  | c :: cs, d, hcases, hd => by
    rw [List.forall_mem_cons] at hcases
    have hget : d.get? c.caseId = none ∨ d.get? c.caseId = some c.fingerprint := by
      cases hg : d.get? c.caseId with
      | none => exact .inl rfl
      | some v => exact .inr (by rw [hcases.1, hd _ v hg])
    rw [checkRefs, ensure_bind_pos hget]
    refine checkRefs_of_const hcases.2 fun id v hv => ?_
    rw [Dict.get?_set] at hv
    split at hv
    · exact (Option.some.inj hv).symm.trans hcases.1
    · exact hd id v hv

theorem resultOf_floodedAgent_of_not_mem {a : RoundAgent} {caseId : String} (h : caseId ∉ fresh) :
    (floodedAgent b win fresh a).resultOf caseId = a.resultOf caseId := by
  have hnone : ((fresh.map fun id => ({ caseId := id, score := floodScore b win a.agentId } : PanelCaseResult)).find?
      fun r => r.caseId = caseId) = none := by
    rw [List.find?_eq_none]
    intro r hr
    obtain ⟨id, hid, rfl⟩ := List.mem_map.1 hr
    have hne : id ≠ caseId := fun heq => h (heq ▸ hid)
    simpa using hne
  simp [RoundAgent.resultOf, floodedAgent, List.find?_append, hnone]

theorem resultOf_floodedAgent_of_mem (hfresh : Fresh input fresh) {a : RoundAgent} (ha : a ∈ input.agents)
    {caseId : String} (h : caseId ∈ fresh) :
    (floodedAgent b win fresh a).resultOf caseId = some { caseId := caseId, score := floodScore b win a.agentId } := by
  have hnone : (a.results.find? fun r => r.caseId = caseId) = none := by
    rw [List.find?_eq_none]
    intro r hr
    simpa using hfresh.results caseId h a ha r hr
  simp only [RoundAgent.resultOf, floodedAgent, List.find?_append, hnone, Option.none_or, List.find?_map]
  have hsome : fresh.find? (fun id => decide (id = caseId)) = some caseId := by
    cases hf : fresh.find? (fun id => decide (id = caseId)) with
    | none =>
      rw [List.find?_eq_none] at hf
      exact absurd (decide_eq_true rfl) (hf caseId h)
    | some id =>
      have hid : id = caseId := by simpa using List.find?_some hf
      rw [hid]
  show Option.map _ (fresh.find? fun id => decide (id = caseId)) = _
  rw [hsome]
  rfl

theorem differsInOwn_flooded (hfresh : Fresh input fresh) (hcol : ∃ col ∈ input.columns, col.ownerKey = K) :
    DiffersInOwn K input (flooded K b win fresh input) where
  columns := by
    refine List.forall₂_map_right_iff.2 (List.forall₂_same.2 fun col _ => ?_)
    unfold floodedColumn
    split
    · rename_i hown
      exact ⟨rfl, rfl, rfl, fun h => absurd hown h⟩
    · exact ⟨rfl, rfl, rfl, fun _ => rfl⟩
  agents := by
    refine List.forall₂_map_right_iff.2 (List.forall₂_same.2 fun a _ => ⟨rfl, rfl, rfl, rfl, fun caseId hid => ?_⟩)
    refine resultOf_floodedAgent_of_not_mem fun hmem => ?_
    rcases hid with hother | ⟨-, hown⟩
    · obtain ⟨col, hcol, hid⟩ := List.mem_flatMap.1 hother
      obtain ⟨c, hc, heq⟩ := List.mem_map.1 hid
      exact hfresh.cases caseId hmem col (List.mem_of_mem_filter hcol) c hc heq
    · obtain ⟨col, hcol, hkey⟩ := hcol
      refine hown (List.mem_flatMap.2 ⟨floodedColumn K fresh col, List.mem_filter.2 ⟨List.mem_map_of_mem hcol, ?_⟩, ?_⟩)
      · simp [floodedColumn, hkey]
      · simpa [floodedColumn, hkey] using hmem
  claimedFingerprints := rfl

theorem sound_flooded (hfresh : Fresh input fresh) (h : input.Sound params) :
    (flooded K b win fresh input).Sound params := by
  have hresults : ∀ a ∈ input.agents, ((floodedAgent b win fresh a).results.map (·.caseId)).Nodup := by
    intro a ha
    have hmap : (floodedAgent b win fresh a).results.map (·.caseId) = a.results.map (·.caseId) ++ fresh := by
      simp [floodedAgent, Function.comp_def]
    rw [hmap, List.nodup_append]
    refine ⟨(h.agents a ha).results, hfresh.nodup, ?_⟩
    rintro id hid id' hid' rfl
    obtain ⟨r, hr, heq⟩ := List.mem_map.1 hid
    exact hfresh.results id hid' a ha r hr heq
  refine ⟨?_, ?_, ⟨?_, ?_⟩, fun hne => ?_, ?_⟩
  · intro a' ha'
    obtain ⟨a, ha, rfl⟩ := List.mem_map.1 ha'
    exact ⟨(h.agents a ha).agentId, hresults a ha⟩
  · show ((input.agents.map (floodedAgent b win fresh)).map (·.agentId)).Nodup
    rw [List.map_map]
    exact h.agentIds
  · intro col' hcol'
    obtain ⟨col, hcol, rfl⟩ := List.mem_map.1 hcol'
    have hid : (floodedColumn K fresh col).columnId = col.columnId := by unfold floodedColumn; split <;> rfl
    rw [hid]
    exact h.columnIds.1 col hcol
  · show ((input.columns.map (floodedColumn K fresh)).map (·.columnId)).Nodup
    have hids : (input.columns.map (floodedColumn K fresh)).map (·.columnId) = input.columns.map (·.columnId) := by
      rw [List.map_map]
      refine List.map_congr_left fun col _ => ?_
      show (floodedColumn K fresh col).columnId = _
      unfold floodedColumn
      split <;> rfl
    rw [hids]
    exact h.columnIds.2
  · have hcolumns : input.columns ≠ [] := fun hnil => hne (by simp [flooded, hnil])
    refine ⟨(h.panel hcolumns).1, fun a' ha' => ?_⟩
    obtain ⟨a, ha, rfl⟩ := List.mem_map.1 ha'
    have hmember := (h.panel hcolumns).2 a ha
    refine ⟨hmember.agentId, hmember.ownerKey, fun r hr => ?_, hresults a ha⟩
    rcases List.mem_append.1 hr with hr | hr
    · exact hmember.results.1 r hr
    · obtain ⟨id, -, rfl⟩ := List.mem_map.1 hr
      exact floodScore_mem b win a.agentId
  · intro col' hcol'
    obtain ⟨col, hcol, rfl⟩ := List.mem_map.1 hcol'
    unfold floodedColumn
    split
    · refine checkRefs_of_const (fun c hc => ?_) (by simp [Dict.get?])
      obtain ⟨id, -, rfl⟩ := List.mem_map.1 hc
      rfl
    · exact h.refs col hcol

/-! ## The comparisons of a flooded round -/

/-- The sign of the differences in a flooded column. -/
def floodSign (win : Bool) : ℚ := if win then 1 else -1

theorem floodSign_mul_self (win : Bool) : floodSign win * floodSign win = 1 := by cases win <;> norm_num [floodSign]

theorem sum_differences (columns : List RoundColumn) (a b : Row) :
    (differences columns a b).sum = (columns.map fun col => (columnDifferences a b col).sum).sum := by
  induction columns with
  | nil => rfl
  | cons col cols ih =>
    simp only [differences, List.flatMap_cons, List.sum_append, List.map_cons, List.sum_cons] at ih ⊢
    rw [ih]

theorem floodScore_sub {b' c' : String} (hb : b' = b) (hc : c' ≠ b) :
    floodScore b win b' - floodScore b win c' = floodSign win := by
  subst hb
  cases win <;> simp [floodScore, floodSign, hc]

/-- An answer of a sound agent is in range. -/
theorem answer_mem {a : RoundAgent} (ha : a.member.Sound) {caseId : String} {r : PanelCaseResult}
    (h : answer a.row caseId = some r) : 0 ≤ r.score ∧ r.score ≤ 1 := by
  have hget := (cleanResult_eq_some_iff.1 h).2.1
  rw [get?_row] at hget
  exact ha.results.1 r (List.mem_of_find?_eq_some hget)

theorem abs_sum_le_length {l : List ℚ} (h : ∀ x ∈ l, |x| ≤ 1) : |l.sum| ≤ l.length := by
  induction l with
  | nil => simp
  | cons x l ih =>
    rw [List.forall_mem_cons] at h
    rw [List.sum_cons, List.length_cons]
    push_cast
    calc |x + l.sum| ≤ |x| + |l.sum| := abs_add_le _ _
      _ ≤ l.length + 1 := by linarith [h.1, ih h.2]

/-- A column contributes at most one for each of its cases. -/
theorem abs_sum_columnDifferences_le {a c : RoundAgent} (ha : a.member.Sound) (hc : c.member.Sound)
    (col : RoundColumn) :
    |(columnDifferences a.row c.row col).sum| ≤ col.cases.length := by
  unfold columnDifferences
  split
  · simp
  · refine (abs_sum_le_length fun x hx => ?_).trans (Nat.cast_le.2 (List.length_filterMap_le _ _))
    obtain ⟨cs, -, hx⟩ := List.mem_filterMap.1 hx
    cases hra : answer a.row cs.caseId with
    | none => simp [hra] at hx
    | some ra =>
      cases hrc : answer c.row cs.caseId with
      | none => simp [hra, hrc] at hx
      | some rc =>
        simp only [hra, hrc, Option.some.injEq] at hx
        have h₁ := answer_mem ha hra
        have h₂ := answer_mem hc hrc
        rw [← hx, abs_le]
        constructor <;> linarith

theorem answer_floodedAgent (hfresh : Fresh input fresh) {a : RoundAgent} (ha : a ∈ input.agents) {caseId : String}
    (h : caseId ∈ fresh) : answer (floodedAgent b win fresh a).row caseId =
      some { caseId := caseId, score := floodScore b win a.agentId } := by
  refine cleanResult_eq_some_iff.2 ⟨.inl rfl, ?_, rfl⟩
  rw [get?_row, resultOf_floodedAgent_of_mem hfresh ha h]

section Pair

variable {a c : RoundAgent}

theorem sum_filterMap_of_some {f : String → Option ℚ} {v : ℚ} {ids : List String} (hf : ∀ id ∈ ids, f id = some v) :
    (ids.filterMap f).sum = v * ids.length := by
  induction ids with
  | nil => simp
  | cons id ids ih =>
    rw [List.filterMap_cons_some (hf id List.mem_cons_self), List.sum_cons,
      ih fun x hx => hf x (List.mem_cons_of_mem _ hx), List.length_cons]
    push_cast
    ring

/-- A flooded counted column gives `b` the same difference for every case. -/
theorem sum_columnDifferences_flooded (hfresh : Fresh input fresh) (ha : a ∈ input.agents)
    (hc : c ∈ input.agents) (hab : a.agentId = b) (hcb : c.agentId ≠ b) (haK : a.owner ≠ K) (hcK : c.owner ≠ K)
    {col : RoundColumn} (hcol : col.ownerKey = K) (hcounted : col.counted = true) :
    (columnDifferences (floodedAgent b win fresh a).row (floodedAgent b win fresh c).row
      (floodedColumn K fresh col)).sum = floodSign win * fresh.length := by
  have hplay : ¬ (!(floodedColumn K fresh col).counted ∨ ((floodedColumn K fresh col).ownerKey ≠ "" ∧
      ((floodedColumn K fresh col).ownerKey = (floodedAgent b win fresh a).row.1.ownerKey ∨
        (floodedColumn K fresh col).ownerKey = (floodedAgent b win fresh c).row.1.ownerKey))) := by
    simp only [floodedColumn, hcol, if_true, hcounted]
    rintro (h | ⟨-, h | h⟩)
    · exact absurd h (by decide)
    · exact haK h.symm
    · exact hcK h.symm
  have hcases : (floodedColumn K fresh col).cases = fresh.map fun id => ⟨id, ""⟩ := by simp [floodedColumn, hcol]
  rw [columnDifferences, if_neg hplay, hcases, List.filterMap_map]
  apply sum_filterMap_of_some
  intro id hid
  simp only [Function.comp_apply, answer_floodedAgent hfresh ha hid, answer_floodedAgent hfresh hc hid,
    floodScore_sub hab hcb]

/-- What a flooded column adds is at least what its old cases could cost. -/
theorem floodSign_mul_sum_nonneg (hfresh : Fresh input fresh) (haS : (floodedAgent b win fresh a).member.Sound)
    (hcS : (floodedAgent b win fresh c).member.Sound) (ha : a ∈ input.agents) (hc : c ∈ input.agents)
    (hab : a.agentId = b) (hcb : c.agentId ≠ b) (haK : a.owner ≠ K) (hcK : c.owner ≠ K) (col : RoundColumn) :
    0 ≤ floodSign win * (columnDifferences (floodedAgent b win fresh a).row (floodedAgent b win fresh c).row
      (floodedColumn K fresh col)).sum + (col.cases.length : ℚ) := by
  by_cases hown : col.ownerKey = K
  · cases hcnt : col.counted with
    | true =>
      rw [sum_columnDifferences_flooded hfresh ha hc hab hcb haK hcK hown hcnt, ← mul_assoc, floodSign_mul_self,
        one_mul]
      positivity
    | false =>
      have hnil : columnDifferences (floodedAgent b win fresh a).row (floodedAgent b win fresh c).row
          (floodedColumn K fresh col) = [] := if_pos (.inl (by simp [floodedColumn, hown, hcnt]))
      rw [hnil]
      simp
  · have hbound := abs_le.1 (abs_sum_columnDifferences_le haS hcS col)
    rw [show floodedColumn K fresh col = col from if_neg hown]
    cases win with
    | true =>
      simp only [floodSign, if_true]
      linarith
    | false =>
      simp only [floodSign, Bool.false_eq_true, if_false]
      linarith

/-- In a flooded round `b` wins, or loses, every comparison outside `K`. -/
theorem flooded_points (hfresh : Fresh input fresh) (h : input.Sound params)
    (hcounted : ∃ col ∈ input.columns, col.counted = true ∧ col.ownerKey = K) (ha : a ∈ input.agents)
    (hc : c ∈ input.agents) (hab : a.agentId = b) (hcb : c.agentId ≠ b) (haK : a.owner ≠ K) (hcK : c.owner ≠ K) :
    points (flooded K b win fresh input).columns (floodedAgent b win fresh a).row (floodedAgent b win fresh c).row =
        (if win then 1 else 0) ∧
      meets (flooded K b win fresh input).columns (floodedAgent b win fresh a).row (floodedAgent b win fresh c).row =
        1 := by
  obtain ⟨col₀, hcol₀, hcounted₀, hown₀⟩ := hcounted
  have hcolumns : (flooded K b win fresh input).columns ≠ [] := by
    simpa [flooded] using List.ne_nil_of_mem hcol₀
  have hflooded : (flooded K b win fresh input).Sound params := sound_flooded hfresh h
  have hsound := hflooded.panel hcolumns
  have haS := hsound.2 _ (List.mem_map_of_mem ha)
  have hcS := hsound.2 _ (List.mem_map_of_mem hc)
  set d := fun col => (columnDifferences (floodedAgent b win fresh a).row (floodedAgent b win fresh c).row
    (floodedColumn K fresh col)).sum with hd
  have hdiff : (differences (flooded K b win fresh input).columns (floodedAgent b win fresh a).row
      (floodedAgent b win fresh c).row).sum = (input.columns.map d).sum := by
    rw [sum_differences, flooded, List.map_map]
    rfl
  have hterm : (fresh.length : ℚ) ≤ floodSign win * d col₀ + (col₀.cases.length : ℚ) := by
    rw [hd]
    dsimp only
    rw [sum_columnDifferences_flooded hfresh ha hc hab hcb haK hcK hown₀ hcounted₀, ← mul_assoc, floodSign_mul_self,
      one_mul]
    exact le_add_of_nonneg_right (Nat.cast_nonneg _)
  have hall : floodSign win * d col₀ + (col₀.cases.length : ℚ) ≤
      (input.columns.map fun col => floodSign win * d col + (col.cases.length : ℚ)).sum := by
    refine List.single_le_sum (fun x hx => ?_) _ (List.mem_map.2 ⟨col₀, hcol₀, rfl⟩)
    obtain ⟨col, -, rfl⟩ := List.mem_map.1 hx
    exact floodSign_mul_sum_nonneg hfresh haS hcS ha hc hab hcb haK hcK col
  rw [List.sum_map_add, List.sum_map_mul_left] at hall
  have hcount : (input.columns.map fun col => (col.cases.length : ℚ)).sum < fresh.length := by
    have := hfresh.count
    rw [caseCount] at this
    have hcast : (((input.columns.map (·.cases.length)).sum : ℕ) : ℚ) =
        (input.columns.map fun col => (col.cases.length : ℚ)).sum := by
      rw [Nat.cast_list_sum, List.map_map]
      rfl
    rw [← hcast]
    exact Nat.cast_lt.2 this
  have hpos : 0 < floodSign win * (input.columns.map d).sum := by linarith
  have hne : (input.columns.map d).sum ≠ 0 := fun hz => by simp [hz] at hpos
  have hlen : (differences (flooded K b win fresh input).columns (floodedAgent b win fresh a).row
      (floodedAgent b win fresh c).row).length ≠ 0 := fun hz => by
    rw [List.length_eq_zero_iff] at hz
    rw [hz] at hdiff
    exact hne hdiff.symm
  refine ⟨?_, if_neg hlen⟩
  simp only [points, if_neg hlen, hdiff]
  cases win with
  | true =>
    rw [floodSign, if_pos rfl, one_mul] at hpos
    simp [hpos]
  | false =>
    have hneg : (input.columns.map d).sum < 0 := by
      simp only [floodSign, Bool.false_eq_true, if_false] at hpos
      linarith
    simp [hneg, hneg.not_gt]

end Pair

/-- The pairwise score of `a` in a flooded round. -/
theorem pairwise_flooded (hK : K ≠ "") (hfresh : Fresh input fresh) (h : input.Sound params)
    (hcounted : ∃ col ∈ input.columns, col.counted = true ∧ col.ownerKey = K) {a : RoundAgent} (ha : a ∈ input.agents)
    (haK : a.owner ≠ K) :
    pairwise (flooded K a.agentId win fresh input).columns (roundRows (flooded K a.agentId win fresh input).agents)
        (floodedAgent a.agentId win fresh a).row =
      if win then best input.columns (roundRows input.agents) K a.row
      else worst input.columns (roundRows input.agents) K a.row := by
  have hcol : ∃ col ∈ input.columns, col.ownerKey = K := hcounted.imp fun col hcol => ⟨hcol.1, hcol.2.2⟩
  have hdiffers : DiffersInOwn K input (flooded K a.agentId win fresh input) := differsInOwn_flooded hfresh hcol
  have hrow : RowAlike (otherCases K input) a.row (floodedAgent a.agentId win fresh a).row :=
    row_alike (List.forall₂_same.1 (List.forall₂_map_right_iff.1 hdiffers.agents) a ha)
  have hthirds : ∀ c' ∈ thirds K (floodedAgent a.agentId win fresh a).row
      (roundRows (flooded K a.agentId win fresh input).agents),
      points (flooded K a.agentId win fresh input).columns (floodedAgent a.agentId win fresh a).row c' =
          (if win then 1 else 0) ∧
        meets (flooded K a.agentId win fresh input).columns (floodedAgent a.agentId win fresh a).row c' = 1 := by
    intro c' hc'
    obtain ⟨hc', hcK⟩ := List.mem_filter.1 hc'
    obtain ⟨hc', hcid⟩ := List.mem_filter.1 hc'
    obtain ⟨c'', hc'', rfl⟩ := mem_roundRows.1 hc'
    obtain ⟨c, hc, rfl⟩ := List.mem_map.1 hc''
    exact flooded_points hfresh h hcounted ha hc rfl (of_decide_eq_true hcid) haK (of_decide_eq_true hcK)
  obtain ⟨hpoints, hmeets⟩ := ownOthers_sums_alike hK (columns_alike hdiffers) (roundRows_alike hdiffers) hrow
  rw [pairwise_eq _ _ K, ← hpoints, ← hmeets, List.map_congr_left fun c' hc' => (hthirds c' hc').1,
    List.map_congr_left fun c' hc' => (hthirds c' hc').2, List.map_const', List.map_const', List.sum_replicate,
    List.sum_replicate, ← (thirds_alike (K := K) (roundRows_alike hdiffers) hrow).length_eq]
  cases win with
  | true => simp [best]
  | false => simp [worst]

end Flood

/-! ## When the own column cannot move an own agent -/

section Main

variable {K : String} {input input' : RoundInput} {params : ScoreParams} {a b : Row}

theorem standingKey_anti {p p' m : ℚ} {id : String} (h : p ≤ p') : standingKey p' m id ≤ standingKey p m id := by
  rcases h.lt_or_eq with h | rfl
  · exact (Prod.Lex.toLex_lt_toLex.2 (.inl (neg_lt_neg h))).le
  · exact le_refl _

/-- The key of `b` with pairwise score `p`. -/
def keyWith (columns : List RoundColumn) (rows : List Row) (b : Row) (p : ℚ) : ℚ ×ₗ ℚ ×ₗ String :=
  standingKey p (commonMean (commonCases columns rows) b) b.1.agentId

/-- `b` stays on one side of `a`: behind it with every comparison outside `K` won, or before it with all of them
lost. -/
def StaysPut (K : String) (columns : List RoundColumn) (rows : List Row) (a b : Row) : Prop :=
  rowKey columns rows a < keyWith columns rows b (best columns rows K b) ∨
    keyWith columns rows b (worst columns rows K b) < rowKey columns rows a

/-- `K` owns no counted column, or every other agent stays on one side of every agent of `K`. -/
def CannotReach (K : String) (input : RoundInput) : Prop :=
  (∀ col ∈ input.columns, col.counted = true → col.ownerKey ≠ K) ∨
    ∀ a ∈ roundRows input.agents, ∀ b ∈ roundRows input.agents, a.1.ownerKey = K → b.1.ownerKey ≠ K →
      StaysPut K input.columns (roundRows input.agents) a b

/-- The key of any agent but for its pairwise score stays when an agent of `K` is on the panel. -/
theorem keyWith_alike (hK : K ≠ "") (h : DiffersInOwn K input input') (ha : a ∈ roundRows input.agents)
    (hown : a.1.ownerKey = K) {b' : Row} (hb : RowAlike (otherCases K input) b b') (p : ℚ) :
    keyWith input.columns (roundRows input.agents) b p = keyWith input'.columns (roundRows input'.agents) b' p := by
  obtain ⟨hcommon, hids⟩ := commonCases_alike hK (columns_alike h) (roundRows_alike h) ha hown
  rw [keyWith, keyWith, ← hcommon, hb.agentId, commonMean_alike hids hb]

/-- The key of an agent whose comparisons stay. -/
theorem rowKey_alike (hK : K ≠ "") (h : DiffersInOwn K input input') (ha : a ∈ roundRows input.agents)
    (hown : a.1.ownerKey = K) {b' : Row} (hb : RowAlike (otherCases K input) b b')
    (hout : (∀ col ∈ input.columns, col.counted = true → col.ownerKey ≠ K) ∨ b.1.ownerKey = K) :
    rowKey input.columns (roundRows input.agents) b = rowKey input'.columns (roundRows input'.agents) b' := by
  have hpair : pairwise input.columns (roundRows input.agents) b =
      pairwise input'.columns (roundRows input'.agents) b' := by
    refine pairwise_alike hK (columns_alike h) (roundRows_alike h) hb fun col hcol => ?_
    rcases hout with hout | hout
    · cases hcnt : col.counted with
      | true => exact .inl (hout col hcol hcnt)
      | false => exact .inr (.inl rfl)
    · exact .inr (.inr hout)
  show keyWith _ _ _ _ = keyWith _ _ _ _
  rw [hpair]
  exact keyWith_alike hK h ha hown hb _

/-- The key of `b` lies between the one with every comparison outside `K` won and the one with all of them lost. -/
theorem rowKey_mem (columns : List RoundColumn) (rows : List Row) (K : String) (b : Row) :
    keyWith columns rows b (best columns rows K b) ≤ rowKey columns rows b ∧
      rowKey columns rows b ≤ keyWith columns rows b (worst columns rows K b) := by
  obtain ⟨hworst, hbest⟩ := pairwise_mem columns rows K b
  exact ⟨standingKey_anti hbest, standingKey_anti hworst⟩

/-- What can be reached decides: an agent that stays on its side stays there in every input that `K` can make. -/
theorem cannotMove_of_cannotReach (hK : K ≠ "") (h : CannotReach K input) : CannotMove K params input := by
  intro input' out out' hdiffers hout hout' a ha b hb haK hne
  obtain ⟨hsound, -, hranks⟩ := scoreRound_eq_ok_iff.1 hout
  obtain ⟨hsound', -, hranks'⟩ := scoreRound_eq_ok_iff.1 hout'
  have hrows := roundRows_alike hdiffers
  have haR : a.row ∈ roundRows input.agents := mem_roundRows.2 ⟨a, ha, rfl⟩
  have hbR : b.row ∈ roundRows input.agents := mem_roundRows.2 ⟨b, hb, rfl⟩
  obtain ⟨a', haR', haa⟩ := exists_of_mem_right hrows.flip haR
  obtain ⟨b', hbR', hbb⟩ := exists_of_mem_right hrows.flip hbR
  have habove : RanksAbove out.agents a.agentId b.agentId ↔
      rowKey input.columns (roundRows input.agents) a.row < rowKey input.columns (roundRows input.agents) b.row := by
    rw [hranks]
    exact ranksAbove_iff (agentIds_roundRows_nodup hsound.agentIds) haR hbR
  have habove' : RanksAbove out'.agents a.agentId b.agentId ↔
      rowKey input'.columns (roundRows input'.agents) a' < rowKey input'.columns (roundRows input'.agents) b' := by
    rw [hranks', ← ranksAbove_iff (agentIds_roundRows_nodup hsound'.agentIds) haR' hbR', haa.agentId, hbb.agentId]
    rfl
  rw [habove, habove', ← rowKey_alike hK hdiffers haR haK haa (.inr haK)]
  by_cases hbK : b.row.1.ownerKey = K
  · rw [← rowKey_alike hK hdiffers haR haK hbb (.inr hbK)]
  rcases h with hnone | hall
  · rw [← rowKey_alike hK hdiffers haR haK hbb (.inl hnone)]
  -- `b` may move, but not past `a`
  obtain ⟨hbest, hworst⟩ := rowKey_mem input.columns (roundRows input.agents) K b.row
  obtain ⟨hbest', hworst'⟩ := rowKey_mem input'.columns (roundRows input'.agents) K b'
  rw [← keyWith_alike hK hdiffers haR haK hbb, ← best_alike hK (columns_alike hdiffers) hrows hbb] at hbest'
  rw [← keyWith_alike hK hdiffers haR haK hbb, ← worst_alike hK (columns_alike hdiffers) hrows hbb] at hworst'
  rcases hall a.row haR b.row hbR haK hbK with hlt | hlt
  · exact iff_of_true (hlt.trans_le hbest) (hlt.trans_le hbest')
  · exact iff_of_false (hworst.trans_lt hlt).not_gt (hworst'.trans_lt hlt).not_gt

/-- The key of an agent in a flooded round. -/
theorem rowKey_flooded (hK : K ≠ "") {fresh : List String} (hfresh : Fresh input fresh) (h : input.Sound params)
    (hcounted : ∃ col ∈ input.columns, col.counted = true ∧ col.ownerKey = K) (ha : a ∈ roundRows input.agents)
    (hown : a.1.ownerKey = K) {b : RoundAgent} (hb : b ∈ input.agents) (hbK : b.owner ≠ K) (win : Bool) :
    rowKey (flooded K b.agentId win fresh input).columns (roundRows (flooded K b.agentId win fresh input).agents)
        (floodedAgent b.agentId win fresh b).row =
      keyWith input.columns (roundRows input.agents) b.row
        (if win then best input.columns (roundRows input.agents) K b.row
          else worst input.columns (roundRows input.agents) K b.row) := by
  have hcol : ∃ col ∈ input.columns, col.ownerKey = K := hcounted.imp fun col hcol => ⟨hcol.1, hcol.2.2⟩
  have hdiffers : DiffersInOwn K input (flooded K b.agentId win fresh input) := differsInOwn_flooded hfresh hcol
  have hrow : RowAlike (otherCases K input) b.row (floodedAgent b.agentId win fresh b).row :=
    row_alike (List.forall₂_same.1 (List.forall₂_map_right_iff.1 hdiffers.agents) b hb)
  rw [keyWith_alike hK hdiffers ha hown hrow, ← pairwise_flooded hK hfresh h hcounted hb hbK]
  rfl

/-- Flooding takes `b` to either end of its reach. -/
theorem ranksAbove_flooded_iff (hK : K ≠ "") {fresh : List String} (hfresh : Fresh input fresh) (h : input.Sound params)
    (hcounted : ∃ col ∈ input.columns, col.counted = true ∧ col.ownerKey = K) {a b : RoundAgent} (ha : a ∈ input.agents)
    (haK : a.owner = K) (hb : b ∈ input.agents) (hbK : b.owner ≠ K) (win : Bool) {out : RoundScore}
    (hout : scoreRound (flooded K b.agentId win fresh input) params = .ok out) :
    RanksAbove out.agents a.agentId b.agentId ↔
      rowKey input.columns (roundRows input.agents) a.row < keyWith input.columns (roundRows input.agents) b.row
        (if win then best input.columns (roundRows input.agents) K b.row
          else worst input.columns (roundRows input.agents) K b.row) := by
  have hcol : ∃ col ∈ input.columns, col.ownerKey = K := hcounted.imp fun col hcol => ⟨hcol.1, hcol.2.2⟩
  have hdiffers : DiffersInOwn K input (flooded K b.agentId win fresh input) := differsInOwn_flooded hfresh hcol
  have haR : a.row ∈ roundRows input.agents := mem_roundRows.2 ⟨a, ha, rfl⟩
  have harow : RowAlike (otherCases K input) a.row (floodedAgent b.agentId win fresh a).row :=
    row_alike (List.forall₂_same.1 (List.forall₂_map_right_iff.1 hdiffers.agents) a ha)
  have hids := (scoreRound_eq_ok_iff.1 hout).1.agentIds
  have hmem {c : RoundAgent} (hc : c ∈ input.agents) : (floodedAgent b.agentId win fresh c).row ∈
      roundRows (flooded K b.agentId win fresh input).agents := mem_roundRows.2 ⟨_, List.mem_map_of_mem hc, rfl⟩
  rw [(scoreRound_eq_ok_iff.1 hout).2.2, rowKey_alike hK hdiffers haR haK harow (.inr haK),
    ← rowKey_flooded hK hfresh h hcounted haR haK hb hbK win]
  exact ranksAbove_iff (agentIds_roundRows_nodup hids) (hmem ha) (hmem hb)

/-- The cases of `K` and the results on them cannot move an agent of `K` exactly when they cannot reach past it. -/
theorem cannotMove_iff (K : String) (hK : K ≠ "") (params : ScoreParams) (input : RoundInput)
    (h : ∃ out, scoreRound input params = .ok out) : CannotMove K params input ↔ CannotReach K input := by
  refine ⟨fun hmove => ?_, cannotMove_of_cannotReach hK⟩
  obtain ⟨out, hout⟩ := h
  have hsound := (scoreRound_eq_ok_iff.1 hout).1
  by_cases hcounted : ∃ col ∈ input.columns, col.counted = true ∧ col.ownerKey = K
  · refine .inr fun a' ha' b' hb' haK hbK => ?_
    obtain ⟨a, ha, rfl⟩ := mem_roundRows.1 ha'
    obtain ⟨b, hb, rfl⟩ := mem_roundRows.1 hb'
    obtain ⟨fresh, hfresh⟩ := exists_fresh input
    have hne : b.agentId ≠ a.agentId := by
      intro heq
      have hba : b = a := List.inj_on_of_nodup_map hsound.agentIds hb ha heq
      exact hbK (hba ▸ haK)
    have hcol : ∃ col ∈ input.columns, col.ownerKey = K := hcounted.imp fun col hcol => ⟨hcol.1, hcol.2.2⟩
    -- the same order in the round that `b` wins and in the one that it loses
    have hflood (win : Bool) : RanksAbove out.agents a.agentId b.agentId ↔
        rowKey input.columns (roundRows input.agents) a.row < keyWith input.columns (roundRows input.agents) b.row
          (if win then best input.columns (roundRows input.agents) K b.row
            else worst input.columns (roundRows input.agents) K b.row) := by
      have hflooded : (flooded K b.agentId win fresh input).Sound params := sound_flooded hfresh hsound
      obtain ⟨out', hout'⟩ := scoreRound_isOk_iff.2 hflooded
      rw [hmove _ out out' (differsInOwn_flooded hfresh hcol) hout hout' a ha b hb haK hne]
      exact ranksAbove_flooded_iff hK hfresh hsound hcounted ha haK hb hbK win hout'
    by_cases hbest : rowKey input.columns (roundRows input.agents) a.row <
        keyWith input.columns (roundRows input.agents) b.row (best input.columns (roundRows input.agents) K b.row)
    · exact .inl hbest
    · refine .inr (lt_of_le_of_ne (not_lt.1 fun hworst => hbest ?_) fun heq => hne (standingKey_agentId heq))
      exact (hflood true).1 ((hflood false).2 hworst)
  · push Not at hcounted
    exact .inl hcounted

end Main

/-- An agent's half point on the default column, with its results on the column of `ka`. -/
def sampleAgent (agentId ownerKey : String) (own : List PanelCaseResult) : RoundAgent where
  agentId := agentId
  ownerKey := ownerKey
  results := ⟨"c0/x", 1 / 2, false⟩ :: own

/-- A round with the default column and the column of `ka`. -/
def sampleRound (own : List CaseRef) (results : ℚ → List PanelCaseResult) : RoundInput where
  columns := [⟨"c0", "", true, [⟨"c0/x", "f0"⟩]⟩, ⟨"c1", "ka", true, own⟩]
  agents := [sampleAgent "a" "ka" (results 0), sampleAgent "b" "kb" (results 1), sampleAgent "c" "kc" (results 0)]

/-- The column of `ka` is empty. -/
def emptyColumn : RoundInput := sampleRound [] fun _ => []

/-- The column of `ka` has a case that `b` solves and `c` fails. -/
def splitColumn : RoundInput := sampleRound [⟨"c1/y", "f1"⟩] fun score => [⟨"c1/y", score, false⟩]

theorem exists_ok_of_map {ε α β : Type} {x : Except ε α} {f : α → β} {y : β} (h : x.toOption.map f = some y) :
    ∃ out, x = .ok out ∧ f out = y := by
  cases x with
  | error e => cases h
  | ok out => exact ⟨out, rfl, Option.some.inj h⟩

/-- Without the case everybody ties, and `a` ranks above `b` by its id. -/
theorem scoreRound_emptyColumn :
    ∃ out, scoreRound emptyColumn DefaultScoreParams = .ok out ∧ decide (RanksAbove out.agents "a" "b") = true :=
  exists_ok_of_map (by decide +kernel)

/-- With the case `b` beats `c` and ranks above `a`. -/
theorem scoreRound_splitColumn :
    ∃ out, scoreRound splitColumn DefaultScoreParams = .ok out ∧ decide (RanksAbove out.agents "a" "b") = false :=
  exists_ok_of_map (by decide +kernel)

theorem cannotMove_iff_emptyColumn :
    CannotMove "ka" DefaultScoreParams emptyColumn ↔ CannotReach "ka" emptyColumn :=
  cannotMove_iff "ka" (by decide) DefaultScoreParams emptyColumn (scoreRound_emptyColumn.imp fun _ h => h.1)

theorem differsInOwn_sample : DiffersInOwn "ka" emptyColumn splitColumn where
  columns := .cons ⟨rfl, rfl, rfl, fun _ => rfl⟩ (.cons ⟨rfl, rfl, rfl, fun h => absurd rfl h⟩ .nil)
  agents := by
    have hresults (agentId ownerKey : String) (score : ℚ) (caseId : String)
        (h : caseId ∈ otherCases "ka" emptyColumn ∨
          (caseId ∉ ownCases "ka" emptyColumn ∧ caseId ∉ ownCases "ka" splitColumn)) :
        (sampleAgent agentId ownerKey [⟨"c1/y", score, false⟩]).resultOf caseId =
          (sampleAgent agentId ownerKey []).resultOf caseId := by
      have hne : caseId ≠ "c1/y" := by
        rintro rfl
        revert h
        decide
      simp [RoundAgent.resultOf, sampleAgent, List.find?_cons, hne.symm]
    exact .cons ⟨rfl, rfl, rfl, rfl, hresults _ _ _⟩ (.cons ⟨rfl, rfl, rfl, rfl, hresults _ _ _⟩
      (.cons ⟨rfl, rfl, rfl, rfl, hresults _ _ _⟩ .nil))
  claimedFingerprints := rfl

/-- The case on the column of `ka` moves the agent of `ka` down. -/
theorem own_column_moves : ¬ ∀ (K : String) (params : ScoreParams) (input : RoundInput), K ≠ "" →
    CannotMove K params input := by
  intro h
  obtain ⟨out, hout, habove⟩ := scoreRound_emptyColumn
  obtain ⟨out', hout', hbelow⟩ := scoreRound_splitColumn
  have hsame := h "ka" DefaultScoreParams emptyColumn (by decide) splitColumn out out' differsInOwn_sample hout hout'
    (sampleAgent "a" "ka" []) (by simp [emptyColumn, sampleRound]) (sampleAgent "b" "kb" [])
    (by simp [emptyColumn, sampleRound]) rfl (by decide)
  exact of_decide_eq_false hbelow (hsame.1 (of_decide_eq_true habove))

end DittoSubnet.Generator

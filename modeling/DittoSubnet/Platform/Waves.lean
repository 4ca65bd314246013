import DittoSubnet.Kit.Digits
import DittoSubnet.Kit.Lines
import DittoSubnet.Kit.Tally

/-!
# Continual retest waves

A reign retests its cohort on shared seeds. The planner sends a member to the target seeds that another cohort member
holds (catch-up) and to the first target seed that the wave has not finished (growth). The target is re-sorted by
coverage and resized by sample variance at every poll, while old leases are still running.

Float operations are a parameter (`FloatOps`) and the hash is a parameter, so nothing depends on rounding or on
collisions.

* `mem_target_uncovered`, `next_seed_uncovered`: what a target seed without coverage says about the anchor family.
* `wave_opens_one_seed`: in every run, apart from the seeds that cohort members outside the wave already held, at most
  one seed is held by some but not all members of the wave; the seeds of the wave stay bounded; a plan never repeats a
  seed; and there is work until every target seed is held by all.
* `outside_coverage_opens_two_seeds`: catch-up from outside the wave opens several seeds at once.
-/

namespace DittoSubnet.Platform

open Kit Kit.Dict

/-! ## The anchor family -/

def TOP5_MIN_CONFIRMATION_SEEDS : ℕ := 8
def TOP5_MAX_CONFIRMATION_SEEDS : ℕ := 10

/-- A pinned block hash in its canonical form, which is not empty. -/
structure BlockHash where
  normalized : Bytes
  nonempty : normalized ≠ []

/-- The number of some bytes, least significant first. -/
def littleEndian (bytes : Bytes) : ℕ := bytes.foldr (fun b n => b.toNat + 256 * n) 0

/-- The `k`-th shared seed of a comparison. -/
def crnSeed (sha256 : Bytes → Bytes) (agentIds : List String) (version k : ℕ) (blockHash : Option BlockHash) : ℤ :=
  let h := (sortOn id agentIds).flatMap (fun aid => text aid ++ [0]) ++ text (toString version) ++
    (if 0 < k then [0] ++ text "k" ++ text (toString k) else []) ++
    (match blockHash with
      | none => []
      | some hash => [0] ++ text "block" ++ hash.normalized)
  (littleEndian ((sha256 h).take 8) % 2 ^ 63 : ℕ)

def confirmationSeeds (sha256 : Bytes → Bytes) (agentIds : List String) (version count : ℕ)
    (blockHash : Option BlockHash) : List ℤ :=
  (List.range (max 1 count)).map fun k => crnSeed sha256 agentIds version k blockHash

def championAnchoredSeeds (sha256 : Bytes → Bytes) (championAgentId : String) (version maxSeeds : ℕ)
    (blockHash : Option BlockHash) : List ℤ :=
  confirmationSeeds sha256 [championAgentId] version maxSeeds blockHash

/-! ## The elastic target -/

/-- The float operations of the planner. -/
structure FloatOps (F : Type) where
  KOTH_MARGIN : F
  KOTH_DETHRONE_Z : F
  zero : F
  /-- Finite and between zero and one. -/
  isUnit : F → Bool
  isPositive : F → Bool
  sum : List F → F
  sub : F → F → F
  mul : F → F → F
  square : F → F
  div : F → F → F
  divNat : F → ℕ → F
  max : F → F → F
  ceil : F → ℤ
  median : List F → F

variable {F : Type} (ops : FloatOps F)

/-- The sample variance. -/
def sampleVariance (values : List F) : F :=
  let mean := ops.divNat (ops.sum values) values.length
  ops.divNat (ops.sum (values.map fun value => ops.square (ops.sub value mean))) (values.length - 1)

/-- The variance-sized number of shared seeds, clamped to the work budget. -/
def elasticConfirmationSeedCeiling (compositesByAgent : Dict String (Dict ℤ F)) : ℕ :=
  let floor := max 2 TOP5_MIN_CONFIRMATION_SEEDS
  let cap := max floor TOP5_MAX_CONFIRMATION_SEEDS
  if ops.isPositive ops.KOTH_MARGIN = false ∨ ops.isPositive ops.KOTH_DETHRONE_Z = false then cap
  else
    let measured := (compositesByAgent.map fun agent => (agent.2.map Prod.snd).filter ops.isUnit).filter
      fun values => 2 ≤ values.length
    if measured = [] then floor
    else
      let maxVariance := measured.foldl (fun most values => ops.max most (sampleVariance ops values)) ops.zero
      let required := ops.ceil (ops.mul maxVariance (ops.square (ops.div ops.KOTH_DETHRONE_Z ops.KOTH_MARGIN)))
      min cap (max floor required.toNat)

/-- How many members hold each seed. -/
def coverageOf (compositesByAgent : Dict String (Dict ℤ F)) : Dict ℤ ℕ :=
  addAll [] ((compositesByAgent.flatMap fun agent => keys agent.2).map fun seed => (seed, 1))

/-- Appends the anchor seeds that are not selected yet, until the target is full. -/
def fillTargets (ceiling : ℕ) : List ℤ → List ℤ → List ℤ
  | targets, [] => targets
  | targets, seed :: anchor =>
    if seed ∈ targets then fillTargets ceiling targets anchor
    else if (targets ++ [seed]).length = ceiling then targets ++ [seed]
    else fillTargets ceiling (targets ++ [seed]) anchor

/-- The reign whose seeds are planned: the champion, its pin, the wave and the wider retest cohort. -/
structure Reign where
  championAgentId : String
  version : ℕ
  blockHash : Option BlockHash
  allowFreshSeeds : Bool
  waveMemberIds : List String
  cohortMemberIds : List String

/-- The most shared seeds, then fresh seeds of the champion. -/
def boundedContinualSeedSet (sha256 : Bytes → Bytes) (reign : Reign) (compositesByAgent : Dict String (Dict ℤ F)) :
    List ℤ :=
  let ceiling := elasticConfirmationSeedCeiling ops compositesByAgent
  let anchor := if reign.allowFreshSeeds = true then
    championAnchoredSeeds sha256 reign.championAgentId reign.version ceiling reign.blockHash else []
  let anchorOrder := Dict.ofList (anchor.zip (List.range anchor.length))
  let coverage := coverageOf compositesByAgent
  let targets := (sortOn (fun seed => toLex (-((amount coverage seed : ℕ) : ℤ),
    toLex ((get? anchorOrder seed).getD ceiling, seed))) (keys coverage)).take ceiling
  if targets.length < ceiling then fillTargets ceiling targets anchor else targets

/-! ## Issuing seeds -/

/-- An accepted confirmation result inside the planning scope. -/
structure ConfirmationRow (F : Type) where
  agentId : String
  validatorHotkey : String
  seed : ℤ
  composite : F

/-- The median composite of every seed of every listed agent. -/
def confirmationCompositesBySeed (rows : List (ConfirmationRow F)) (agentIds : List String) :
    Dict String (Dict ℤ F) :=
  (groupOn ((rows.filter fun row => row.agentId ∈ agentIds).map
    fun row => (row.agentId, (row.seed, row.composite)))).map
      fun agent => (agent.1, (groupOn agent.2).map fun seed => (seed.1, ops.median seed.2))

/-- The entry of an agent, empty when there is none. -/
def historyOf (history : Dict String (Dict ℤ F)) (agentId : String) : Dict ℤ F := (get? history agentId).getD []

/-- The seeds that every member holds. -/
def completedConfirmationWaveSeeds (memberIds : List String) (seedsByAgent : String → List ℤ) : List ℤ :=
  match memberIds.eraseDups with
  | [] => []
  | member :: members => (seedsByAgent member).filter fun seed => members.all fun other => seed ∈ seedsByAgent other

/-- The target seeds that some peer holds and the member does not. -/
def confirmationCatchupSeeds (memberId : String) (peerIds : List String) (anchoredSeeds : List ℤ)
    (seedsByAgent : String → List ℤ) : List ℤ :=
  let peers := peerIds.eraseDups.filter (· ≠ memberId)
  anchoredSeeds.filter fun seed => (peers.any fun peer => seed ∈ seedsByAgent peer) && seed ∉ seedsByAgent memberId

/-- A tempo-aligned window, with the times at which seeds entered the lane. -/
structure WaveWindow where
  cadenceTempos : ℤ
  seedsPerWindow : ℤ
  windowStart : Option ℤ
  /-- What `first_retest_issue_by_seed` answers for a candidate seed. -/
  firstIssue : ℤ → Dict ℤ ℤ

def WaveWindow.paced (window : WaveWindow) : Bool := decide (0 < window.cadenceTempos) && window.windowStart.isSome

def seedsOpenedInWindow (window : WaveWindow) (firstIssue : Dict ℤ ℤ) : List ℤ :=
  match window.windowStart with
  | none => []
  | some start => keys (firstIssue.filter fun issue => decide (start ≤ issue.2))

/-- Whether the lane may lease a seed as growth now. -/
def growthOpen (window : WaveWindow) (nextSeed : ℤ) (firstIssue : Dict ℤ ℤ) : Bool :=
  if window.paced = false ∨ nextSeed ∈ keys firstIssue then true
  else decide (((seedsOpenedInWindow window firstIssue).length : ℤ) < window.seedsPerWindow)

/-- The season's duel, which replaces catch-up and growth. -/
structure SeasonDuel where
  seedCount : ℕ
  pendingRotation : List String
  /-- What `season_duel_entrant_excluded` answers. -/
  entrantExcluded : String → Bool

def seasonDuelSeeds (sha256 : Bytes → Bytes) (reign : Reign) (count : ℕ) : List ℤ :=
  if reign.allowFreshSeeds = true then
    championAnchoredSeeds sha256 reign.championAgentId reign.version count reign.blockHash
  else []

def seasonDuelOwed (duelSeeds memberSeeds : List ℤ) : List ℤ := duelSeeds.filter (· ∉ memberSeeds)

variable (sha256 : Bytes → Bytes) (reign : Reign)

/-- The whole retest cohort, the wave included. -/
def Reign.cohortIds : List String := (reign.cohortMemberIds ++ reign.waveMemberIds).eraseDups

/-- The history that a poll for one member reads. -/
def plannedHistory (rows : List (ConfirmationRow F)) (memberAgentId : String) : Dict String (Dict ℤ F) :=
  confirmationCompositesBySeed ops rows (reign.cohortIds ++ [memberAgentId]).eraseDups

/-- The target of a poll, from the coverage of the wave. -/
def targetSeeds (history : Dict String (Dict ℤ F)) : List ℤ :=
  boundedContinualSeedSet ops sha256 reign
    (Dict.ofList (reign.waveMemberIds.map fun agentId => (agentId, historyOf history agentId)))

/-- Every seed that a member still owes: its backlog first, then wave growth. -/
def top5ConfirmationSeedPlan (rows : List (ConfirmationRow F)) (memberAgentId : String)
    (waveWindow : Option WaveWindow) (duel : Option SeasonDuel) : List ℤ :=
  match duel with
  | some duel =>
    if memberAgentId ∈ duel.pendingRotation ∨ duel.entrantExcluded memberAgentId = true then []
    else seasonDuelOwed (seasonDuelSeeds sha256 reign duel.seedCount)
      (keys (historyOf (confirmationCompositesBySeed ops rows [memberAgentId]) memberAgentId))
  | none =>
    let history := plannedHistory ops reign rows memberAgentId
    let targets := targetSeeds ops sha256 reign history
    let seedsByAgent := fun agentId => keys (historyOf history agentId)
    let catchup := confirmationCatchupSeeds memberAgentId reign.cohortIds targets seedsByAgent
    let completed := completedConfirmationWaveSeeds reign.waveMemberIds seedsByAgent
    match targets.find? fun seed => decide (seed ∉ completed) with
    | none => catchup
    | some nextSeed =>
      if nextSeed ∈ seedsByAgent memberAgentId ∨ nextSeed ∈ catchup then catchup
      else match waveWindow with
        | some window =>
          if window.paced = true ∧ growthOpen window nextSeed (window.firstIssue nextSeed) = false then catchup
          else catchup ++ [nextSeed]
        | none => catchup ++ [nextSeed]

/-! ## What the planner reads -/

/-- Whether an agent has an accepted result on a seed. -/
def Held (rows : List (ConfirmationRow F)) (agentId : String) (seed : ℤ) : Prop :=
  ∃ row ∈ rows, row.agentId = agentId ∧ row.seed = seed

variable {ops sha256 reign} {rows : List (ConfirmationRow F)}

variable (ops rows) in
/-- The median composite of every seed of an agent. -/
def agentHistory (agentId : String) : Dict ℤ F :=
  (groupOn ((rows.filter fun row => row.agentId = agentId).map fun row => (row.seed, row.composite))).map
    fun seed => (seed.1, ops.median seed.2)

theorem mem_keys_agentHistory {agentId : String} {seed : ℤ} :
    seed ∈ keys (agentHistory ops rows agentId) ↔ Held rows agentId seed := by
  rw [agentHistory, keys_map (groupOn _) fun _ => ops.median, mem_keys_groupOn]
  simp only [List.map_map, List.mem_map, List.mem_filter, decide_eq_true_eq, Held, Function.comp_apply, and_assoc]

theorem historyOf_confirmationComposites {agentIds : List String} {agentId : String} (h : agentId ∈ agentIds) :
    historyOf (confirmationCompositesBySeed ops rows agentIds) agentId = agentHistory ops rows agentId := by
  set kvs := (rows.filter fun row => row.agentId ∈ agentIds).map fun row => (row.agentId, (row.seed, row.composite))
    with hkvs
  have hvalues : valuesOf agentId kvs = (rows.filter fun row => row.agentId = agentId).map
      fun row => (row.seed, row.composite) := by
    rw [valuesOf, hkvs, List.filter_map, List.filter_filter, List.map_map]
    refine congrArg (List.map _) (List.filter_congr fun row _ => ?_)
    by_cases hrow : row.agentId = agentId
    · simp [hrow, h]
    · simp [hrow]
  have hget : historyOf (confirmationCompositesBySeed ops rows agentIds) agentId =
      (groupOn ((get? (groupOn kvs) agentId).getD [])).map fun seed => (seed.1, ops.median seed.2) := by
    rw [historyOf, confirmationCompositesBySeed, ← hkvs]
    generalize groupOn kvs = groups
    induction groups with
    | nil => rfl
    | cons group groups ih =>
      by_cases h : group.1 = agentId
      · simp [get?, h]
      · simpa [get?, h] using ih
  rw [hget, getD_get?_groupOn, hvalues, agentHistory]

/-- A poll sees the results of the cohort and of its member. -/
theorem historyOf_plannedHistory {member agentId : String} (h : agentId ∈ reign.cohortIds ∨ agentId = member) :
    historyOf (plannedHistory ops reign rows member) agentId = agentHistory ops rows agentId := by
  apply historyOf_confirmationComposites
  rw [List.mem_eraseDups, List.mem_append, List.mem_singleton]
  exact h

theorem mem_cohortIds {agentId : String} :
    agentId ∈ reign.cohortIds ↔ agentId ∈ reign.cohortMemberIds ∨ agentId ∈ reign.waveMemberIds := by
  rw [Reign.cohortIds, List.mem_eraseDups, List.mem_append]

/-- The seeds of the wave, and the seeds that all its members hold. -/
def Covered (reign : Reign) (rows : List (ConfirmationRow F)) (seed : ℤ) : Prop :=
  ∃ agentId ∈ reign.waveMemberIds, Held rows agentId seed

def Complete (reign : Reign) (rows : List (ConfirmationRow F)) (seed : ℤ) : Prop :=
  ∀ agentId ∈ reign.waveMemberIds, Held rows agentId seed

theorem Complete.covered {seed : ℤ} (h : Complete reign rows seed) (hwave : reign.waveMemberIds ≠ []) :
    Covered reign rows seed := by
  obtain ⟨agentId, hmem⟩ := List.exists_mem_of_ne_nil _ hwave
  exact ⟨agentId, hmem, h agentId hmem⟩

theorem mem_completed {seed : ℤ} :
    seed ∈ completedConfirmationWaveSeeds reign.waveMemberIds (fun agentId => keys (agentHistory ops rows agentId)) ↔
      Complete reign rows seed ∧ Covered reign rows seed := by
  rw [completedConfirmationWaveSeeds]
  split
  · next h =>
    have hnone : ∀ agentId, agentId ∉ reign.waveMemberIds := by
      intro agentId hmem
      rw [← List.mem_eraseDups, h] at hmem
      cases hmem
    constructor
    · intro hmem
      cases hmem
    · rintro ⟨-, agentId, hmem, -⟩
      exact absurd hmem (hnone agentId)
  · next first others h =>
    have hmem : ∀ agentId, agentId ∈ reign.waveMemberIds ↔ agentId = first ∨ agentId ∈ others := by
      intro agentId
      rw [← List.mem_eraseDups, h, List.mem_cons]
    simp only [List.mem_filter, List.all_eq_true, decide_eq_true_eq, mem_keys_agentHistory]
    constructor
    · rintro ⟨hfirst, hothers⟩
      have hcomplete : Complete reign rows seed := by
        intro agentId hagent
        rcases (hmem agentId).1 hagent with rfl | hother
        · exact hfirst
        · exact hothers _ hother
      exact ⟨hcomplete, hcomplete.covered (List.ne_nil_of_mem ((hmem first).2 (.inl rfl)))⟩
    · rintro ⟨hall, -⟩
      exact ⟨hall _ ((hmem _).2 (.inl rfl)), fun other hother => hall _ ((hmem _).2 (.inr hother))⟩

/-! ## The target -/

/-- What filling adds: the selected seeds stay in front, and an added seed has few distinct seeds before it. -/
theorem fillTargets_spec {ceiling : ℕ} : ∀ (anchor targets : List ℤ), targets.Nodup → targets.length < ceiling →
    ∃ added, fillTargets ceiling targets anchor = targets ++ added ∧ (targets ++ added).Nodup ∧
      (∀ seed ∈ added, ∃ before after, anchor = before ++ seed :: after ∧
        (targets ++ before).toFinset.card < ceiling) ∧
      (∀ seed rest, added = seed :: rest → ∃ before after, anchor = before ++ seed :: after ∧
        ∀ earlier ∈ before, earlier ∈ targets) := by
  intro anchor
  induction anchor with
  | nil =>
    intro targets hnodup _
    exact ⟨[], by simp [fillTargets], by simpa using hnodup, by simp, by simp⟩
  | cons seed anchor ih =>
    intro targets hnodup hroom
    by_cases hmem : seed ∈ targets
    · obtain ⟨added, heq, hnd, hbefore, hfirst⟩ := ih targets hnodup hroom
      refine ⟨added, by rw [fillTargets, if_pos hmem, heq], hnd, ?_, ?_⟩
      · intro s hs
        obtain ⟨before, after, rfl, hcard⟩ := hbefore s hs
        refine ⟨seed :: before, after, rfl, ?_⟩
        have hset : (targets ++ seed :: before).toFinset = (targets ++ before).toFinset := by
          ext x
          simp only [List.mem_toFinset, List.mem_append, List.mem_cons]
          constructor
          · rintro (h | rfl | h)
            exacts [.inl h, .inl hmem, .inr h]
          · rintro (h | h)
            exacts [.inl h, .inr (.inr h)]
        rw [hset]
        exact hcard
      · intro s rest hadded
        obtain ⟨before, after, rfl, hall⟩ := hfirst s rest hadded
        refine ⟨seed :: before, after, rfl, ?_⟩
        intro earlier hearlier
        rcases List.mem_cons.1 hearlier with rfl | h
        exacts [hmem, hall _ h]
    · have hnodup' : (targets ++ [seed]).Nodup := by
        rw [List.nodup_append_comm]
        exact List.nodup_cons.2 ⟨hmem, hnodup⟩
      have hcard : targets.toFinset.card < ceiling := lt_of_le_of_lt (List.toFinset_card_le targets) hroom
      have hnew : ∃ before after, seed :: anchor = before ++ seed :: after ∧
          (targets ++ before).toFinset.card < ceiling := ⟨[], anchor, rfl, by simpa using hcard⟩
      have hhead : ∃ before after, seed :: anchor = before ++ seed :: after ∧
          ∀ earlier ∈ before, earlier ∈ targets := ⟨[], anchor, rfl, by simp⟩
      by_cases hfull : (targets ++ [seed]).length = ceiling
      · refine ⟨[seed], by rw [fillTargets, if_neg hmem, if_pos hfull], hnodup', ?_, ?_⟩
        · intro s hs
          rw [List.mem_singleton.1 hs]
          exact hnew
        · intro s rest hadded
          rw [← (List.cons.inj hadded).1]
          exact hhead
      · have hroom' : (targets ++ [seed]).length < ceiling := by
          rw [List.length_append, List.length_singleton] at hfull ⊢
          omega
        obtain ⟨added, heq, hnd, hbefore, -⟩ := ih (targets ++ [seed]) hnodup' hroom'
        refine ⟨seed :: added, ?_, by simpa using hnd, ?_, ?_⟩
        · rw [fillTargets, if_neg hmem, if_neg hfull, heq, List.append_assoc, List.singleton_append]
        · intro s hs
          rcases List.mem_cons.1 hs with rfl | hs
          · exact hnew
          · obtain ⟨before, after, rfl, hc⟩ := hbefore s hs
            refine ⟨seed :: before, after, rfl, ?_⟩
            rwa [List.append_assoc, List.singleton_append] at hc
        · intro s rest hadded
          rw [← (List.cons.inj hadded).1]
          exact hhead

/-- The seeds of the anchor family, in replicate order. -/
def anchorSeed (sha256 : Bytes → Bytes) (reign : Reign) (k : ℕ) : ℤ :=
  crnSeed sha256 [reign.championAgentId] reign.version k reign.blockHash

/-- The anchor seeds before the `k`-th. -/
def anchorsBefore (sha256 : Bytes → Bytes) (reign : Reign) (k : ℕ) : List ℤ :=
  (List.range k).map (anchorSeed sha256 reign)

theorem eq_anchorsBefore_of_split {count : ℕ} {before after : List ℤ} {seed : ℤ}
    (h : anchorsBefore sha256 reign count = before ++ seed :: after) :
    before.length < count ∧ anchorSeed sha256 reign before.length = seed ∧
      before = anchorsBefore sha256 reign before.length := by
  have hlen : count = before.length + (after.length + 1) := by
    have := congrArg List.length h
    simpa [anchorsBefore] using this
  have hsplit : anchorsBefore sha256 reign count = anchorsBefore sha256 reign before.length ++
      (List.range (after.length + 1)).map fun k => anchorSeed sha256 reign (before.length + k) := by
    rw [hlen, anchorsBefore, List.range_add, List.map_append, anchorsBefore, List.map_map]
    rfl
  rw [hsplit] at h
  obtain ⟨hbefore, hrest⟩ := List.append_inj h (by simp [anchorsBefore])
  rw [List.range_succ_eq_map, List.map_cons, List.cons.injEq] at hrest
  exact ⟨by omega, hrest.1, hbefore.symm⟩

variable (ops) in
/-- The ceiling of a poll stays within the work budget. -/
theorem elasticConfirmationSeedCeiling_bounds (compositesByAgent : Dict String (Dict ℤ F)) :
    TOP5_MIN_CONFIRMATION_SEEDS ≤ elasticConfirmationSeedCeiling ops compositesByAgent ∧
      elasticConfirmationSeedCeiling ops compositesByAgent ≤ TOP5_MAX_CONFIRMATION_SEEDS := by
  simp only [elasticConfirmationSeedCeiling, TOP5_MIN_CONFIRMATION_SEEDS, TOP5_MAX_CONFIRMATION_SEEDS]
  split
  · omega
  · split <;> omega

theorem mem_coverage {history : String → Dict ℤ F} {seed : ℤ} :
    seed ∈ keys (coverageOf (Dict.ofList (reign.waveMemberIds.map fun agentId => (agentId, history agentId))))
      ↔ ∃ agentId ∈ reign.waveMemberIds, seed ∈ keys (history agentId) := by
  rw [coverageOf, mem_keys_addAll, List.map_map]
  constructor
  · rintro (h | h)
    · cases h
    · obtain ⟨seed', hseed, rfl⟩ := List.mem_map.1 h
      obtain ⟨agent, hagent, hkey⟩ := List.mem_flatMap.1 hseed
      obtain ⟨hwave, hvalue⟩ := mem_ofList_graph.1 hagent
      exact ⟨agent.1, hwave, hvalue ▸ hkey⟩
  · rintro ⟨agentId, hwave, hkey⟩
    refine .inr (List.mem_map.2 ⟨seed, List.mem_flatMap.2 ⟨(agentId, history agentId), ?_, hkey⟩, rfl⟩)
    exact mem_ofList_graph.2 ⟨hwave, rfl⟩

/-- The target of a poll: covered seeds, and then, once these are all there, fresh anchor seeds. -/
theorem boundedContinualSeedSet_spec (ops : FloatOps F) (sha256 : Bytes → Bytes) (reign : Reign)
    (history : String → Dict ℤ F) :
    ∃ selected added ceiling, boundedContinualSeedSet ops sha256 reign
        (Dict.ofList (reign.waveMemberIds.map fun agentId => (agentId, history agentId))) = selected ++ added ∧
          (selected ++ added).Nodup ∧
      ceiling ≤ TOP5_MAX_CONFIRMATION_SEEDS ∧
      (∀ seed ∈ selected, ∃ agentId ∈ reign.waveMemberIds, seed ∈ keys (history agentId)) ∧
      (added ≠ [] → ∀ seed, (∃ agentId ∈ reign.waveMemberIds, seed ∈ keys (history agentId)) →
        seed ∈ selected) ∧
      (∀ seed ∈ added, ∃ k, anchorSeed sha256 reign k = seed ∧
        (selected ++ anchorsBefore sha256 reign k).toFinset.card < ceiling) ∧
      (∀ seed rest, added = seed :: rest → ∃ k, anchorSeed sha256 reign k = seed ∧
        ∀ earlier ∈ anchorsBefore sha256 reign k, earlier ∈ selected) := by
  set composites := Dict.ofList (reign.waveMemberIds.map fun agentId => (agentId, history agentId)) with hcomp
  set ceiling := elasticConfirmationSeedCeiling ops composites with hceiling
  have hbounds := elasticConfirmationSeedCeiling_bounds ops composites
  rw [← hceiling] at hbounds
  set anchor := if reign.allowFreshSeeds = true then
    championAnchoredSeeds sha256 reign.championAgentId reign.version ceiling reign.blockHash else [] with hanchors
  set coverage := coverageOf composites
  obtain ⟨key, hkey⟩ : ∃ key : ℤ → ℤ ×ₗ ℕ ×ₗ ℤ, boundedContinualSeedSet ops sha256 reign
        (Dict.ofList (reign.waveMemberIds.map fun agentId => (agentId, history agentId))) =
      if ((sortOn key (keys coverage)).take ceiling).length < ceiling
      then fillTargets ceiling ((sortOn key (keys coverage)).take ceiling) anchor
      else (sortOn key (keys coverage)).take ceiling := ⟨_, rfl⟩
  rw [hkey]
  set targets := (sortOn key (keys coverage)).take ceiling with htake
  have hcovered : ∀ seed, seed ∈ keys coverage ↔ ∃ agentId ∈ reign.waveMemberIds,
      seed ∈ keys (history agentId) := fun seed => mem_coverage
  have hnodupKeys : (keys coverage).Nodup := keys_addAll_nodup _ (by simp [keys])
  have htargets : ∀ seed ∈ targets, ∃ agentId ∈ reign.waveMemberIds, seed ∈ keys (history agentId) := by
    intro seed hseed
    exact (hcovered seed).1 (mem_sortOn.1 (List.mem_of_mem_take hseed))
  have hnodup : targets.Nodup := ((sortOn_perm _ _).nodup_iff.2 hnodupKeys).sublist (List.take_sublist _ _)
  by_cases hroom : targets.length < ceiling
  · rw [if_pos hroom]
    have hall : ∀ seed ∈ keys coverage, seed ∈ targets := by
      intro seed hseed
      rw [htake, List.length_take] at hroom
      rw [htake, List.take_of_length_le (by omega), mem_sortOn]
      exact hseed
    obtain ⟨added, heq, hnd, hbefore, hfirst⟩ := fillTargets_spec anchor targets hnodup hroom
    have hanchor : ∀ before after seed, anchor = before ++ seed :: after →
        anchorSeed sha256 reign before.length = seed ∧ before = anchorsBefore sha256 reign before.length := by
      intro before after seed hsplit
      by_cases hfresh : reign.allowFreshSeeds = true
      · rw [hanchors, if_pos hfresh] at hsplit
        have hfamily : anchorsBefore sha256 reign (max 1 ceiling) = before ++ seed :: after := hsplit
        exact (eq_anchorsBefore_of_split hfamily).2
      · rw [hanchors, if_neg hfresh] at hsplit
        exact absurd hsplit.symm (by simp)
    refine ⟨targets, added, ceiling, heq, hnd, hbounds.2, htargets, ?_, ?_, ?_⟩
    · intro _ seed hseed
      exact hall seed ((hcovered seed).2 hseed)
    · intro seed hseed
      obtain ⟨before, after, hsplit, hcard⟩ := hbefore seed hseed
      obtain ⟨hk, hlist⟩ := hanchor before after seed hsplit
      exact ⟨before.length, hk, hlist ▸ hcard⟩
    · intro seed rest hadded
      obtain ⟨before, after, hsplit, hearlier⟩ := hfirst seed rest hadded
      obtain ⟨hk, hlist⟩ := hanchor before after seed hsplit
      exact ⟨before.length, hk, hlist ▸ hearlier⟩
  · rw [if_neg hroom]
    exact ⟨targets, [], ceiling, by simp, by simpa using hnodup, hbounds.2, htargets, by simp, by simp, by simp⟩

/-! ## The plan -/

/-- The target of the wave. -/
def Target (ops : FloatOps F) (sha256 : Bytes → Bytes) (reign : Reign) (rows : List (ConfirmationRow F)) : List ℤ :=
  boundedContinualSeedSet ops sha256 reign
    (Dict.ofList (reign.waveMemberIds.map fun agentId => (agentId, agentHistory ops rows agentId)))

/-- Every poll reads the same target. -/
theorem targetSeeds_plannedHistory (member : String) :
    targetSeeds ops sha256 reign (plannedHistory ops reign rows member) = Target ops sha256 reign rows := by
  rw [targetSeeds, Target]
  refine congrArg (fun waves => boundedContinualSeedSet ops sha256 reign (Dict.ofList waves)) ?_
  refine List.map_congr_left fun agentId hwave => ?_
  rw [historyOf_plannedHistory (.inl (mem_cohortIds.2 (.inr hwave)))]

theorem completed_plannedHistory (member : String) :
    completedConfirmationWaveSeeds reign.waveMemberIds
      (fun agentId => keys (historyOf (plannedHistory ops reign rows member) agentId)) =
    completedConfirmationWaveSeeds reign.waveMemberIds (fun agentId => keys (agentHistory ops rows agentId)) := by
  have hread : ∀ agentId ∈ reign.waveMemberIds.eraseDups,
      keys (historyOf (plannedHistory ops reign rows member) agentId) = keys (agentHistory ops rows agentId) := by
    intro agentId hwave
    rw [historyOf_plannedHistory (.inl (mem_cohortIds.2 (.inr (List.mem_eraseDups.1 hwave))))]
  rw [completedConfirmationWaveSeeds, completedConfirmationWaveSeeds]
  cases hdups : reign.waveMemberIds.eraseDups with
  | nil => rfl
  | cons first others =>
    rw [hdups] at hread
    dsimp only
    rw [hread first List.mem_cons_self]
    refine List.filter_congr fun seed _ => ?_
    rw [Bool.eq_iff_iff, List.all_eq_true, List.all_eq_true]
    refine forall₂_congr fun other hother => ?_
    rw [hread other (List.mem_cons_of_mem _ hother)]

/-- The backlog of a member. -/
def backlog (ops : FloatOps F) (sha256 : Bytes → Bytes) (reign : Reign) (rows : List (ConfirmationRow F))
    (member : String) : List ℤ :=
  confirmationCatchupSeeds member reign.cohortIds (Target ops sha256 reign rows)
    fun agentId => keys (agentHistory ops rows agentId)

theorem backlog_plannedHistory (member : String) :
    confirmationCatchupSeeds member reign.cohortIds (Target ops sha256 reign rows)
      (fun agentId => keys (historyOf (plannedHistory ops reign rows member) agentId)) =
    backlog ops sha256 reign rows member := by
  rw [backlog, confirmationCatchupSeeds, confirmationCatchupSeeds]
  refine List.filter_congr fun seed _ => ?_
  rw [historyOf_plannedHistory (.inr rfl)]
  refine congrArg (· && _) ?_
  rw [Bool.eq_iff_iff, List.any_eq_true, List.any_eq_true]
  refine exists_congr fun peer => and_congr_right fun hpeer => ?_
  rw [historyOf_plannedHistory (.inl (List.mem_eraseDups.1 (List.mem_of_mem_filter hpeer)))]

/-- The first unfinished target seed. -/
def nextSeed (ops : FloatOps F) (sha256 : Bytes → Bytes) (reign : Reign) (rows : List (ConfirmationRow F)) :
    Option ℤ :=
  (Target ops sha256 reign rows).find? fun seed => decide (seed ∉
    completedConfirmationWaveSeeds reign.waveMemberIds fun agentId => keys (agentHistory ops rows agentId))

theorem plan_eq (member : String) (window : Option WaveWindow) :
    top5ConfirmationSeedPlan ops sha256 reign rows member window none =
      match nextSeed ops sha256 reign rows with
      | none => backlog ops sha256 reign rows member
      | some seed =>
        if seed ∈ keys (agentHistory ops rows member) ∨ seed ∈ backlog ops sha256 reign rows member then
          backlog ops sha256 reign rows member
        else match window with
          | some window =>
            if window.paced = true ∧ growthOpen window seed (window.firstIssue seed) = false then
              backlog ops sha256 reign rows member
            else backlog ops sha256 reign rows member ++ [seed]
          | none => backlog ops sha256 reign rows member ++ [seed] := by
  simp only [top5ConfirmationSeedPlan, targetSeeds_plannedHistory, completed_plannedHistory, backlog_plannedHistory,
    historyOf_plannedHistory (Or.inr rfl)]
  rfl

theorem target_spec (ops : FloatOps F) (sha256 : Bytes → Bytes) (reign : Reign) (rows : List (ConfirmationRow F)) :
    ∃ selected added ceiling, Target ops sha256 reign rows = selected ++ added ∧ (selected ++ added).Nodup ∧
      ceiling ≤ TOP5_MAX_CONFIRMATION_SEEDS ∧ (∀ seed ∈ selected, Covered reign rows seed) ∧
      (added ≠ [] → ∀ seed, Covered reign rows seed → seed ∈ selected) ∧
      (∀ seed ∈ added, ∃ k, anchorSeed sha256 reign k = seed ∧
        (selected ++ anchorsBefore sha256 reign k).toFinset.card < ceiling) ∧
      (∀ seed rest, added = seed :: rest → ∃ k, anchorSeed sha256 reign k = seed ∧
        ∀ earlier ∈ anchorsBefore sha256 reign k, earlier ∈ selected) := by
  have hspec := boundedContinualSeedSet_spec ops sha256 reign (agentHistory ops rows)
  simp only [mem_keys_agentHistory] at hspec
  exact hspec

theorem target_nodup : (Target ops sha256 reign rows).Nodup := by
  obtain ⟨selected, added, _, heq, hnodup, -⟩ :=
    target_spec ops sha256 reign rows
  rw [heq]
  exact hnodup

/-- The seeds that some member of the wave holds. -/
def waveSeeds (reign : Reign) (rows : List (ConfirmationRow F)) : Finset ℤ :=
  ((rows.filter fun row => row.agentId ∈ reign.waveMemberIds).map ConfirmationRow.seed).toFinset

@[simp] theorem mem_waveSeeds {seed : ℤ} : seed ∈ waveSeeds reign rows ↔ Covered reign rows seed := by
  simp only [waveSeeds, List.mem_toFinset, List.mem_map, List.mem_filter, decide_eq_true_eq, Covered, Held]
  constructor
  · rintro ⟨row, ⟨hrow, hwave⟩, rfl⟩
    exact ⟨row.agentId, hwave, row, hrow, rfl, rfl⟩
  · rintro ⟨_, hwave, row, hrow, rfl, rfl⟩
    exact ⟨row, ⟨hrow, hwave⟩, rfl⟩

/-- A target seed without coverage is an anchor seed, and together with the coverage there are few seeds before it. -/
theorem mem_target_uncovered {seed : ℤ} (h : seed ∈ Target ops sha256 reign rows)
    (hnot : ¬ Covered reign rows seed) : ∃ k, anchorSeed sha256 reign k = seed ∧
      (waveSeeds reign rows ∪ (anchorsBefore sha256 reign k).toFinset).card < TOP5_MAX_CONFIRMATION_SEEDS := by
  obtain ⟨selected, added, ceiling, heq, -, hceiling, hselected, hall, hadded, -⟩ :=
    target_spec ops sha256 reign rows
  rw [heq, List.mem_append] at h
  rcases h with h | h
  · exact absurd (hselected seed h) hnot
  · obtain ⟨k, hk, hcard⟩ := hadded seed h
    refine ⟨k, hk, lt_of_le_of_lt (Finset.card_le_card ?_) (lt_of_lt_of_le hcard hceiling)⟩
    intro s hs
    rw [List.toFinset_append]
    rcases Finset.mem_union.1 hs with hs | hs
    · have hmem := hall (List.ne_nil_of_mem h) s (mem_waveSeeds.1 hs)
      exact Finset.mem_union_left _ (List.mem_toFinset.2 hmem)
    · exact Finset.mem_union_right _ hs

/-- A next seed without coverage is the first anchor seed without coverage, and no covered seed is unfinished. -/
theorem next_seed_uncovered {seed : ℤ} (h : nextSeed ops sha256 reign rows = some seed)
    (hnot : ¬ Covered reign rows seed) : (∀ s, Covered reign rows s → Complete reign rows s) ∧
      ∃ k, anchorSeed sha256 reign k = seed ∧ ∀ earlier ∈ anchorsBefore sha256 reign k, Covered reign rows earlier := by
  obtain ⟨selected, added, ceiling, heq, hnodup, -, hselected, hall, -, hfirst⟩ :=
    target_spec ops sha256 reign rows
  rw [nextSeed, heq, List.find?_append] at h
  set unfinished : ℤ → Bool := fun s => decide (s ∉ completedConfirmationWaveSeeds reign.waveMemberIds
    fun agentId => keys (agentHistory ops rows agentId)) with hunfinished
  cases hfind : selected.find? unfinished with
  | some s =>
    rw [hfind, Option.some_or] at h
    obtain rfl := Option.some.inj h
    exact absurd (hselected s (List.mem_of_find?_eq_some hfind)) hnot
  | none =>
    rw [hfind, Option.none_or] at h
    have hdone : ∀ s ∈ selected, Complete reign rows s := by
      intro s hs
      have hcompleted := List.find?_eq_none.1 hfind s hs
      rw [hunfinished, decide_eq_true_eq, not_not, mem_completed] at hcompleted
      exact hcompleted.1
    cases added with
    | nil => cases h
    | cons first rest =>
      have huncovered : ¬ Covered reign rows first := by
        intro hcov
        have hmem := hall (List.cons_ne_nil _ _) first hcov
        exact List.disjoint_of_nodup_append hnodup hmem List.mem_cons_self
      have hnext : first = seed := by
        have htrue : unfinished first = true := by
          rw [hunfinished, decide_eq_true_eq, mem_completed]
          exact fun hboth => huncovered hboth.2
        rw [List.find?_cons_of_pos htrue] at h
        exact Option.some.inj h
      obtain ⟨k, hk, hearlier⟩ := hfirst first rest rfl
      refine ⟨?_, k, hnext ▸ hk, fun earlier he => hselected earlier (hearlier earlier he)⟩
      intro s hs
      exact hdone s (hall (List.cons_ne_nil _ _) s hs)

theorem mem_backlog {member : String} {seed : ℤ} : seed ∈ backlog ops sha256 reign rows member ↔
    seed ∈ Target ops sha256 reign rows ∧ ¬ Held rows member seed ∧
      ∃ peer ∈ reign.cohortIds, Held rows peer seed := by
  simp only [backlog, confirmationCatchupSeeds, List.mem_filter, Bool.and_eq_true, List.any_eq_true,
    decide_eq_true_eq, List.mem_eraseDups, mem_keys_agentHistory]
  constructor
  · rintro ⟨htarget, ⟨peer, ⟨hpeer, -⟩, hread⟩, hnot⟩
    exact ⟨htarget, hnot, peer, hpeer, hread⟩
  · rintro ⟨htarget, hnot, peer, hpeer, hheld⟩
    refine ⟨htarget, ⟨peer, ⟨hpeer, ?_⟩, hheld⟩, hnot⟩
    rintro rfl
    exact hnot hheld

/-- A plan is the backlog, with the next seed behind it when the member lacks it and the window is open. -/
theorem plan_cases (ops : FloatOps F) (sha256 : Bytes → Bytes) (reign : Reign) (rows : List (ConfirmationRow F))
    (member : String) (window : Option WaveWindow) :
    top5ConfirmationSeedPlan ops sha256 reign rows member window none = backlog ops sha256 reign rows member ∨
      ∃ seed, nextSeed ops sha256 reign rows = some seed ∧ ¬ Held rows member seed ∧
        seed ∉ backlog ops sha256 reign rows member ∧
        top5ConfirmationSeedPlan ops sha256 reign rows member window none =
          backlog ops sha256 reign rows member ++ [seed] := by
  rw [plan_eq]
  cases hnext : nextSeed ops sha256 reign rows with
  | none => exact .inl rfl
  | some seed =>
    dsimp only
    split
    · exact .inl rfl
    · next hneither =>
      rw [mem_keys_agentHistory, not_or] at hneither
      cases window with
      | none => exact .inr ⟨seed, rfl, hneither.1, hneither.2, rfl⟩
      | some window =>
        dsimp only
        split
        · exact .inl rfl
        · exact .inr ⟨seed, rfl, hneither.1, hneither.2, rfl⟩

/-- Without pacing, the plan holds every unfinished next seed that the member lacks. -/
theorem next_seed_mem_plan {member : String} {window : Option WaveWindow} {seed : ℤ}
    (hwindow : ∀ w, window = some w → w.paced = false) (hnext : nextSeed ops sha256 reign rows = some seed)
    (hlacks : ¬ Held rows member seed) : seed ∈ top5ConfirmationSeedPlan ops sha256 reign rows member window none := by
  have hplan : top5ConfirmationSeedPlan ops sha256 reign rows member window none =
      if seed ∈ keys (agentHistory ops rows member) ∨
        seed ∈ backlog ops sha256 reign rows member then backlog ops sha256 reign rows member
      else backlog ops sha256 reign rows member ++ [seed] := by
    rw [plan_eq, hnext]
    dsimp only
    cases window with
    | none => rfl
    | some window =>
      have hpaced := hwindow window rfl
      simp only [hpaced, Bool.false_eq_true, false_and, if_false]
  have hread : seed ∉ keys (agentHistory ops rows member) := mt mem_keys_agentHistory.1 hlacks
  rw [hplan]
  by_cases hback : seed ∈ backlog ops sha256 reign rows member
  · rw [if_pos (.inr hback)]
    exact hback
  · rw [if_neg (not_or.2 ⟨hread, hback⟩)]
    exact List.mem_append_right _ List.mem_cons_self

theorem backlog_nodup (member : String) : (backlog ops sha256 reign rows member).Nodup :=
  target_nodup.filter _

/-- A planned seed is a target seed that the member lacks, and either a cohort member holds it or it is the next. -/
theorem mem_plan {member : String} {window : Option WaveWindow} {seed : ℤ}
    (h : seed ∈ top5ConfirmationSeedPlan ops sha256 reign rows member window none) :
    seed ∈ Target ops sha256 reign rows ∧ ¬ Held rows member seed ∧
      ((∃ peer ∈ reign.cohortIds, Held rows peer seed) ∨ nextSeed ops sha256 reign rows = some seed) := by
  rcases plan_cases ops sha256 reign rows member window with
    hplan | ⟨next, hnext, hlacks, -, hplan⟩
  · rw [hplan, mem_backlog] at h
    exact ⟨h.1, h.2.1, .inl h.2.2⟩
  · rw [hplan, List.mem_append, List.mem_singleton] at h
    rcases h with h | rfl
    · rw [mem_backlog] at h
      exact ⟨h.1, h.2.1, .inl h.2.2⟩
    · exact ⟨List.mem_of_find?_eq_some hnext, hlacks, .inr hnext⟩

theorem plan_nodup (member : String) (window : Option WaveWindow) :
    (top5ConfirmationSeedPlan ops sha256 reign rows member window none).Nodup := by
  rcases plan_cases ops sha256 reign rows member window with
    hplan | ⟨next, -, -, hnot, hplan⟩
  · rw [hplan]
    exact backlog_nodup member
  · rw [hplan, List.nodup_append_comm]
    exact List.nodup_cons.2 ⟨hnot, backlog_nodup member⟩

/-- While a target seed is unfinished, some member of the wave has work. -/
theorem complete_of_no_plan {window : Option WaveWindow} (hwindow : ∀ w, window = some w → w.paced = false)
    (hempty : ∀ agentId ∈ reign.waveMemberIds,
      top5ConfirmationSeedPlan ops sha256 reign rows agentId window none = []) :
    ∀ seed ∈ Target ops sha256 reign rows, Complete reign rows seed := by
  cases hnext : nextSeed ops sha256 reign rows with
  | none =>
    intro seed hseed
    have hcompleted := List.find?_eq_none.1 hnext seed hseed
    rw [decide_eq_true_eq, not_not, mem_completed] at hcompleted
    exact hcompleted.1
  | some next =>
    have hunfinished := List.find?_some hnext
    rw [decide_eq_true_eq, mem_completed, not_and_or] at hunfinished
    by_cases hcomplete : Complete reign rows next
    · -- A complete seed without coverage: the wave is empty.
      have hwave : reign.waveMemberIds = [] := by
        by_contra hne
        exact hunfinished.elim (fun h => h hcomplete) (fun h => h (hcomplete.covered hne))
      intro seed _ agentId hagent
      rw [hwave] at hagent
      cases hagent
    · simp only [Complete, not_forall] at hcomplete
      obtain ⟨agentId, hagent, hlacks⟩ := hcomplete
      have hmem := next_seed_mem_plan hwindow hnext hlacks
      rw [hempty agentId hagent] at hmem
      cases hmem

/-! ## Runs -/

/-- A retest lease: one validator runs one member on one seed. -/
structure RetestLease where
  validatorHotkey : String
  memberAgentId : String
  seed : ℤ

/-- The recorded results and every lease that was issued. -/
structure RetestLane (F : Type) where
  rows : List (ConfirmationRow F)
  leases : List RetestLease

/-- Records the result of a lease; a second result of one validator on one seed is dropped. -/
def RetestLane.record (lane : RetestLane F) (lease : RetestLease) (composite : F) : RetestLane F :=
  if lane.rows.any (fun row => row.agentId = lease.memberAgentId && row.validatorHotkey = lease.validatorHotkey &&
      row.seed = lease.seed) then lane
  else { lane with rows := lane.rows ++ [⟨lease.memberAgentId, lease.validatorHotkey, lease.seed, composite⟩] }

/-- One step: a poll without pacing issues a planned seed to a cohort member, or some issued lease is recorded. -/
inductive RetestLane.Step (ops : FloatOps F) (sha256 : Bytes → Bytes) (reign : Reign) :
  RetestLane F → RetestLane F → Prop
  | plan (lane : RetestLane F) (lease : RetestLease) (window : Option WaveWindow) :
      lease.memberAgentId ∈ reign.cohortIds → (∀ w, window = some w → w.paced = false) →
      lease.seed ∈ top5ConfirmationSeedPlan ops sha256 reign lane.rows lease.memberAgentId window none →
      RetestLane.Step ops sha256 reign lane { lane with leases := lane.leases ++ [lease] }
  | complete (lane : RetestLane F) (lease : RetestLease) (composite : F) :
      lease ∈ lane.leases → RetestLane.Step ops sha256 reign lane (lane.record lease composite)

variable {start lane lane' : RetestLane F}

@[simp] theorem RetestLane.record_leases (lane : RetestLane F) (lease : RetestLease) (composite : F) :
    (lane.record lease composite).leases = lane.leases := by
  rw [RetestLane.record]
  split <;> rfl

theorem RetestLane.held_record {lease : RetestLease} {composite : F} {agentId : String} {seed : ℤ} :
    Held (lane.record lease composite).rows agentId seed ↔
      Held lane.rows agentId seed ∨ (agentId = lease.memberAgentId ∧ seed = lease.seed) := by
  rw [RetestLane.record]
  split
  · next hdrop =>
    constructor
    · exact .inl
    · rintro (h | ⟨rfl, rfl⟩)
      · exact h
      · obtain ⟨row, hrow, hkey⟩ := List.any_eq_true.1 hdrop
        simp only [Bool.and_eq_true, decide_eq_true_eq] at hkey
        exact ⟨row, hrow, hkey.1.1, hkey.2⟩
  · simp only [Held, List.mem_append, List.mem_singleton]
    constructor
    · rintro ⟨row, hrow | rfl, rfl, rfl⟩
      exacts [.inl ⟨row, hrow, rfl, rfl⟩, .inr ⟨rfl, rfl⟩]
    · rintro (⟨row, hrow, hagent, hseed⟩ | ⟨rfl, rfl⟩)
      exacts [⟨row, .inl hrow, hagent, hseed⟩, ⟨_, .inr rfl, rfl, rfl⟩]

/-- A seed that a cohort member outside the wave holds. -/
def HeldOutside (reign : Reign) (rows : List (ConfirmationRow F)) (seed : ℤ) : Prop :=
  ∃ agentId ∈ reign.cohortIds, agentId ∉ reign.waveMemberIds ∧ Held rows agentId seed

/-- A seed that was leased or is held in the cohort, and that the wave has not finished. -/
structure Pending (reign : Reign) (lane : RetestLane F) (seed : ℤ) : Prop where
  known : (∃ lease ∈ lane.leases, lease.seed = seed) ∨ ∃ agentId ∈ reign.cohortIds, Held lane.rows agentId seed
  unfinished : ¬ Complete reign lane.rows seed

/-- What every run keeps: at most one seed is pending, and before it has coverage it is the first anchor seed without
coverage; the seeds of the wave are its first seeds and an initial part of the anchor family. -/
structure WaveInv (sha256 : Bytes → Bytes) (reign : Reign) (start lane : RetestLane F) : Prop where
  unique : ∀ {seed seed'}, Pending reign lane seed → ¬ HeldOutside reign start.rows seed →
    Pending reign lane seed' → ¬ HeldOutside reign start.rows seed' → seed = seed'
  frontier : ∀ {seed}, Pending reign lane seed → ¬ HeldOutside reign start.rows seed → Covered reign lane.rows seed ∨
    ∃ k, anchorSeed sha256 reign k = seed ∧ ∀ earlier ∈ anchorsBefore sha256 reign k, Covered reign lane.rows earlier
  grows : ∀ {agentId seed}, Held start.rows agentId seed → Held lane.rows agentId seed
  bounded : ∃ k, (waveSeeds reign start.rows ∪ (anchorsBefore sha256 reign k).toFinset).card ≤
      max (waveSeeds reign start.rows).card TOP5_MAX_CONFIRMATION_SEEDS ∧
    ∀ seed, Covered reign lane.rows seed ∨ (∃ lease ∈ lane.leases, lease.seed = seed) →
      seed ∈ waveSeeds reign start.rows ∪ (anchorsBefore sha256 reign k).toFinset

theorem waveInv_initial (hleases : start.leases = [])
    (hshared : ∀ seed, Covered reign start.rows seed → Complete reign start.rows seed) :
    WaveInv sha256 reign start start := by
  have hnone : ∀ {seed}, Pending reign start seed → ¬ HeldOutside reign start.rows seed → False := by
    intro seed hpending houtside
    rcases hpending.known with ⟨lease, hlease, -⟩ | ⟨agentId, hcohort, hheld⟩
    · rw [hleases] at hlease
      cases hlease
    · by_cases hwave : agentId ∈ reign.waveMemberIds
      · exact hpending.unfinished (hshared seed ⟨agentId, hwave, hheld⟩)
      · exact houtside ⟨agentId, hcohort, hwave, hheld⟩
  refine ⟨fun h ho _ _ => (hnone h ho).elim, fun h ho => (hnone h ho).elim, fun h => h, 0, ?_, ?_⟩
  · simp [anchorsBefore]
  · rintro seed (hcovered | ⟨lease, hlease, -⟩)
    · exact Finset.mem_union_left _ (mem_waveSeeds.2 hcovered)
    · rw [hleases] at hlease
      cases hlease

theorem covered_mono {rows rows' : List (ConfirmationRow F)} (h : ∀ {agentId seed}, Held rows agentId seed →
    Held rows' agentId seed) {seed : ℤ} (hcovered : Covered reign rows seed) : Covered reign rows' seed := by
  obtain ⟨agentId, hwave, hheld⟩ := hcovered
  exact ⟨agentId, hwave, h hheld⟩

/-- Recording an issued lease makes no seed pending. -/
theorem WaveInv.complete (h : WaveInv sha256 reign start lane) {lease : RetestLease} {composite : F}
    (hlease : lease ∈ lane.leases) : WaveInv sha256 reign start (lane.record lease composite) := by
  have hgrow : ∀ {agentId seed}, Held lane.rows agentId seed →
      Held (lane.record lease composite).rows agentId seed := fun hheld => RetestLane.held_record.2 (.inl hheld)
  have hpending : ∀ {seed}, Pending reign (lane.record lease composite) seed → Pending reign lane seed := by
    intro seed hp
    refine ⟨?_, fun hcomplete => hp.unfinished fun agentId hwave => hgrow (hcomplete agentId hwave)⟩
    rcases hp.known with hknown | ⟨agentId, hcohort, hheld⟩
    · rw [RetestLane.record_leases] at hknown
      exact .inl hknown
    · rcases RetestLane.held_record.1 hheld with hheld | ⟨-, rfl⟩
      exacts [.inr ⟨agentId, hcohort, hheld⟩, .inl ⟨lease, hlease, rfl⟩]
  obtain ⟨k, hcard, hinside⟩ := h.bounded
  refine ⟨fun hp ho hp' ho' => h.unique (hpending hp) ho (hpending hp') ho', ?_, fun hs => hgrow (h.grows hs),
    k, hcard, ?_⟩
  · intro seed hp ho
    rcases h.frontier (hpending hp) ho with hcovered | ⟨j, hj, hearlier⟩
    · exact .inl (covered_mono hgrow hcovered)
    · exact .inr ⟨j, hj, fun earlier he => covered_mono hgrow (hearlier earlier he)⟩
  · intro seed hseed
    rw [RetestLane.record_leases] at hseed
    rcases hseed with ⟨agentId, hwave, hheld⟩ | hleased
    · rcases RetestLane.held_record.1 hheld with hheld | ⟨-, rfl⟩
      · exact hinside _ (.inl ⟨agentId, hwave, hheld⟩)
      · exact hinside _ (.inr ⟨lease, hlease, rfl⟩)
    · exact hinside _ (.inr hleased)

theorem anchorsBefore_mono {j k : ℕ} (h : j ≤ k) {seed : ℤ} (hseed : seed ∈ anchorsBefore sha256 reign j) :
    seed ∈ anchorsBefore sha256 reign k := by
  obtain ⟨i, hi, rfl⟩ := List.mem_map.1 hseed
  rw [List.mem_range] at hi
  exact List.mem_map.2 ⟨i, List.mem_range.2 (by omega), rfl⟩

theorem anchorSeed_mem {j k : ℕ} (h : j < k) : anchorSeed sha256 reign j ∈ anchorsBefore sha256 reign k :=
  List.mem_map.2 ⟨j, List.mem_range.2 h, rfl⟩

theorem anchorsBefore_succ (k : ℕ) :
    anchorsBefore sha256 reign (k + 1) = anchorsBefore sha256 reign k ++ [anchorSeed sha256 reign k] := by
  rw [anchorsBefore, List.range_succ, List.map_append]
  rfl

/-- Issuing a planned seed keeps the bound: a fresh seed comes early in the anchor family. -/
theorem WaveInv.bounded_plan (h : WaveInv sha256 reign start lane) {seed : ℤ}
    (htarget : seed ∈ Target ops sha256 reign lane.rows) :
    ∃ k, (waveSeeds reign start.rows ∪ (anchorsBefore sha256 reign k).toFinset).card ≤
        max (waveSeeds reign start.rows).card TOP5_MAX_CONFIRMATION_SEEDS ∧
      (∀ s, Covered reign lane.rows s ∨ (∃ lease ∈ lane.leases, lease.seed = s) →
        s ∈ waveSeeds reign start.rows ∪ (anchorsBefore sha256 reign k).toFinset) ∧
      seed ∈ waveSeeds reign start.rows ∪ (anchorsBefore sha256 reign k).toFinset := by
  obtain ⟨k, hcard, hinside⟩ := h.bounded
  by_cases hcovered : Covered reign lane.rows seed
  · exact ⟨k, hcard, hinside, hinside seed (.inl hcovered)⟩
  obtain ⟨j, rfl, hfew⟩ := mem_target_uncovered htarget hcovered
  by_cases hjk : j < k
  · exact ⟨k, hcard, hinside, Finset.mem_union_right _ (List.mem_toFinset.2 (anchorSeed_mem hjk))⟩
  refine ⟨j + 1, le_trans ?_ (le_max_right _ _), ?_, ?_⟩
  · have hsub : waveSeeds reign start.rows ∪ (anchorsBefore sha256 reign (j + 1)).toFinset ⊆
        insert (anchorSeed sha256 reign j) (waveSeeds reign lane.rows ∪ (anchorsBefore sha256 reign j).toFinset) := by
      intro s hs
      rw [anchorsBefore_succ, List.toFinset_append, Finset.mem_union, Finset.mem_union] at hs
      rw [Finset.mem_insert, Finset.mem_union]
      rcases hs with hs | hs | hs
      · exact .inr (.inl (mem_waveSeeds.2 (covered_mono h.grows (mem_waveSeeds.1 hs))))
      · exact .inr (.inr hs)
      · exact .inl (by simpa using hs)
    have hle := (Finset.card_le_card hsub).trans (Finset.card_insert_le _ _)
    omega
  · intro s hs
    rcases Finset.mem_union.1 (hinside s hs) with hmem | hmem
    · exact Finset.mem_union_left _ hmem
    · refine Finset.mem_union_right _ (List.mem_toFinset.2 ?_)
      exact anchorsBefore_mono (by omega) (List.mem_toFinset.1 hmem)
  · exact Finset.mem_union_right _ (List.mem_toFinset.2 (anchorSeed_mem (by omega)))

/-- Two anchor seeds without coverage, before which everything is covered, are equal. -/
theorem frontier_unique {rows : List (ConfirmationRow F)} {j k : ℕ}
    (hj : ∀ earlier ∈ anchorsBefore sha256 reign j, Covered reign rows earlier)
    (hk : ∀ earlier ∈ anchorsBefore sha256 reign k, Covered reign rows earlier)
    (hnotj : ¬ Covered reign rows (anchorSeed sha256 reign j))
    (hnotk : ¬ Covered reign rows (anchorSeed sha256 reign k)) : j = k := by
  rcases lt_trichotomy j k with hlt | heq | hgt
  · exact absurd (hk _ (anchorSeed_mem hlt)) hnotj
  · exact heq
  · exact absurd (hj _ (anchorSeed_mem hgt)) hnotk

/-- Issuing a planned seed makes at most the next seed pending. -/
theorem WaveInv.plan (h : WaveInv sha256 reign start lane) {lease : RetestLease} {window : Option WaveWindow}
    (hplan : lease.seed ∈ top5ConfirmationSeedPlan ops sha256 reign lane.rows lease.memberAgentId window none) :
    WaveInv sha256 reign start { lane with leases := lane.leases ++ [lease] } := by
  obtain ⟨htarget, -, hkind⟩ := mem_plan hplan
  obtain ⟨k, hcard, hinside, hseed⟩ := h.bounded_plan htarget
  have hpending : ∀ {seed}, Pending reign { lane with leases := lane.leases ++ [lease] } seed →
      Pending reign lane seed ∨ (seed = lease.seed ∧ ¬ Covered reign lane.rows seed ∧
        nextSeed ops sha256 reign lane.rows = some seed) := by
    intro seed hp
    by_cases hheld : ∃ agentId ∈ reign.cohortIds, Held lane.rows agentId seed
    · exact .inl ⟨.inr hheld, hp.unfinished⟩
    · rcases hp.known with ⟨lease', hlease', rfl⟩ | hheld'
      · rcases List.mem_append.1 hlease' with hold | hnew
        · exact .inl ⟨.inl ⟨lease', hold, rfl⟩, hp.unfinished⟩
        · obtain rfl := List.mem_singleton.1 hnew
          refine .inr ⟨rfl, ?_, hkind.resolve_left hheld⟩
          rintro ⟨agentId, hwave, hheld'⟩
          exact hheld ⟨agentId, mem_cohortIds.2 (.inr hwave), hheld'⟩
      · exact absurd hheld' hheld
  -- A seed that was pending before is the new one: nothing covered is unfinished, so both are at the frontier.
  have hsame : ∀ {seed}, Pending reign lane seed → ¬ HeldOutside reign start.rows seed →
      ¬ Covered reign lane.rows lease.seed → nextSeed ops sha256 reign lane.rows = some lease.seed →
      seed = lease.seed := by
    intro seed hp ho hnot hnext
    obtain ⟨hfinished, j, hj, hearlier⟩ := next_seed_uncovered hnext hnot
    have hnot' : ¬ Covered reign lane.rows seed := fun hcovered => hp.unfinished (hfinished seed hcovered)
    obtain ⟨i, rfl, hearlier'⟩ := (h.frontier hp ho).resolve_left hnot'
    rw [← hj] at hnot ⊢
    rw [frontier_unique hearlier' hearlier hnot' hnot]
  refine ⟨?_, ?_, h.grows, k, hcard, ?_⟩
  · intro seed seed' hp ho hp' ho'
    rcases hpending hp with hp | ⟨rfl, hnot, hnext⟩ <;> rcases hpending hp' with hp' | ⟨rfl, hnot', hnext'⟩
    · exact h.unique hp ho hp' ho'
    · exact hsame hp ho hnot' hnext'
    · exact (hsame hp' ho' hnot hnext).symm
    · rfl
  · intro seed hp ho
    rcases hpending hp with hp | ⟨-, hnot, hnext⟩
    · exact h.frontier hp ho
    · exact .inr (next_seed_uncovered hnext hnot).2
  · rintro seed (hcovered | ⟨lease', hlease', rfl⟩)
    · exact hinside seed (.inl hcovered)
    · rcases List.mem_append.1 hlease' with hold | hnew
      · exact hinside _ (.inr ⟨lease', hold, rfl⟩)
      · obtain rfl := List.mem_singleton.1 hnew
        exact hseed

theorem WaveInv.run (h : WaveInv sha256 reign start start)
    (hrun : Relation.ReflTransGen (RetestLane.Step ops sha256 reign) start lane) : WaveInv sha256 reign start lane := by
  induction hrun with
  | refl => exact h
  | tail _ hstep ih =>
    cases hstep with
    | plan _ _ _ _ hplan => exact ih.plan hplan
    | complete _ _ hlease => exact ih.complete hlease

/-- A seed that some but not all members of the wave hold. -/
def Open (reign : Reign) (rows : List (ConfirmationRow F)) (seed : ℤ) : Prop :=
  Covered reign rows seed ∧ ¬ Complete reign rows seed

/-- In every run, apart from the seeds that cohort members outside the wave already held, at most one seed is open; the
wave holds no more seeds than at the start or than the work budget; plans hold no seed twice and none that the member
holds; and while a target seed is unfinished some member of the wave has work. -/
theorem wave_opens_one_seed (ops : FloatOps F) (sha256 : Bytes → Bytes) (reign : Reign) (start lane : RetestLane F)
    (hleases : start.leases = []) (hshared : ∀ seed, Covered reign start.rows seed → Complete reign start.rows seed)
    (hrun : Relation.ReflTransGen (RetestLane.Step ops sha256 reign) start lane) :
    (∀ seed seed', Open reign lane.rows seed → ¬ HeldOutside reign start.rows seed →
      Open reign lane.rows seed' → ¬ HeldOutside reign start.rows seed' → seed = seed') ∧
    (waveSeeds reign lane.rows).card ≤ max (waveSeeds reign start.rows).card TOP5_MAX_CONFIRMATION_SEEDS ∧
    (∀ window member, member ∈ reign.cohortIds →
      (top5ConfirmationSeedPlan ops sha256 reign lane.rows member window none).Nodup ∧
      ∀ seed ∈ top5ConfirmationSeedPlan ops sha256 reign lane.rows member window none, ¬ Held lane.rows member seed) ∧
    (∀ window : Option WaveWindow, (∀ w, window = some w → w.paced = false) →
      (∀ member ∈ reign.waveMemberIds, top5ConfirmationSeedPlan ops sha256 reign lane.rows member window none = []) →
      ∀ member ∈ reign.cohortIds, ∀ seed ∈ targetSeeds ops sha256 reign (plannedHistory ops reign lane.rows member),
        Complete reign lane.rows seed) := by
  have hinv := (waveInv_initial hleases hshared).run hrun
  have hpending : ∀ {seed}, Open reign lane.rows seed → Pending reign lane seed := by
    rintro seed ⟨⟨agentId, hwave, hheld⟩, hunfinished⟩
    exact ⟨.inr ⟨agentId, mem_cohortIds.2 (.inr hwave), hheld⟩, hunfinished⟩
  refine ⟨fun seed seed' hopen ho hopen' ho' => hinv.unique (hpending hopen) ho (hpending hopen') ho', ?_, ?_, ?_⟩
  · obtain ⟨k, hcard, hinside⟩ := hinv.bounded
    refine (Finset.card_le_card fun seed hseed => ?_).trans hcard
    exact hinside seed (.inl (mem_waveSeeds.1 hseed))
  · intro window member _
    exact ⟨plan_nodup member window, fun seed hseed => (mem_plan hseed).2.1⟩
  · intro window hwindow hempty member _ seed hseed
    rw [targetSeeds_plannedHistory] at hseed
    exact complete_of_no_plan hwindow hempty seed hseed

/-! ## A cohort wider than the wave -/

/-- Rational arithmetic. -/
def exactOps : FloatOps ℚ where
  KOTH_MARGIN := 7 / 1000
  KOTH_DETHRONE_Z := 164 / 100
  zero := 0
  isUnit x := decide (0 ≤ x ∧ x ≤ 1)
  isPositive x := decide (0 < x)
  sum := List.sum
  sub := (· - ·)
  mul := (· * ·)
  square x := x * x
  div := (· / ·)
  divNat x n := x / n
  max := max
  ceil x := ⌈x⌉
  median := median

/-- A wave of two in a cohort of three. -/
def sampleReign : Reign where
  championAgentId := "3f1c0a52-7c1e-4d0e-9a54-0d8f1f6f2b11"
  version := 12
  blockHash := none
  allowFreshSeeds := true
  waveMemberIds := ["a", "b"]
  cohortMemberIds := ["a", "b", "c"]

/-- The SHA-256 digests of the first replicates of the sample family. -/
def sampleDigests : List (Bytes × ℕ) :=
  let base := text sampleReign.championAgentId ++ [0] ++ text "12"
  [(base, 0xce44c8ce6e7207423c8a99863570f48b6a14fa5af1dae5b11ca601e8e8f958ff),
   (base ++ [0] ++ text "k1", 0xa01e16b82b527fd614ecd9e91c486a9592251cb1c58656c47324a586de257063),
   (base ++ [0] ++ text "k2", 0xbeaba41ae430a27d785c60709b8d5ac4842594d41c70ad24479ccfd4ec0068f3),
   (base ++ [0] ++ text "k3", 0xbb60eb6ebf2099093d59979e811ad3b0d320686cd4f8dcddbf3ae4ded2ac3c49),
   (base ++ [0] ++ text "k4", 0x35540524ef3d175145fd6fb3e1c978d4052ebd21705920fe35872e2f14caf572),
   (base ++ [0] ++ text "k5", 0xcc50c484b85e84050f2464b394d318ba615c09580adc7965ebd5f88755024069),
   (base ++ [0] ++ text "k6", 0x5aa07cf81db7199e22b28f83ffa75dd51acf853034c684cc979da20a29b66d89),
   (base ++ [0] ++ text "k7", 0xd9a627fcc34909b7b5ac5a6eb5cf568156ce61ed2ac2c53140d8fa649ed0d158)]

def sampleSha256 (bytes : Bytes) : Bytes :=
  match sampleDigests.find? (fun entry => entry.1 = bytes) with
  | some entry => digits UInt8.ofNat 256 32 entry.2
  | none => []

/-- The member outside the wave holds the first two seeds of the family, the wave holds nothing. -/
def outsideStart : RetestLane ℚ where
  rows := [⟨"c", "v", 4757897351581418702, 1 / 2⟩, ⟨"c", "v", 6232790757029584544, 1 / 2⟩]
  leases := []

def outsideLeases : List RetestLease := [⟨"v", "a", 4757897351581418702⟩, ⟨"v", "a", 6232790757029584544⟩]

def outsideEnd : RetestLane ℚ where
  rows := outsideStart.rows ++ [⟨"a", "v", 4757897351581418702, 1 / 2⟩, ⟨"a", "v", 6232790757029584544, 1 / 2⟩]
  leases := outsideLeases

theorem outside_plan : top5ConfirmationSeedPlan exactOps sampleSha256 sampleReign outsideStart.rows "a" none none =
    [4757897351581418702, 6232790757029584544] := by
  decide +kernel

theorem outside_run : Relation.ReflTransGen
    (RetestLane.Step exactOps sampleSha256 sampleReign) outsideStart outsideEnd := by
  have hmember : "a" ∈ sampleReign.cohortIds := by decide
  have hfirst : (4757897351581418702 : ℤ) ∈
      top5ConfirmationSeedPlan exactOps sampleSha256 sampleReign outsideStart.rows "a" none none := by
    rw [outside_plan]
    exact List.mem_cons_self
  have hsecond : (6232790757029584544 : ℤ) ∈
      top5ConfirmationSeedPlan exactOps sampleSha256 sampleReign outsideStart.rows "a" none none := by
    rw [outside_plan]
    exact List.mem_cons_of_mem _ List.mem_cons_self
  refine .head (.plan _ ⟨"v", "a", 4757897351581418702⟩ none hmember (fun _ h => nomatch h) hfirst) ?_
  refine .head (.plan _ ⟨"v", "a", 6232790757029584544⟩ none hmember (fun _ h => nomatch h) hsecond) ?_
  refine .head (.complete _ ⟨"v", "a", 4757897351581418702⟩ (1 / 2) List.mem_cons_self) ?_
  exact .single (.complete _ ⟨"v", "a", 6232790757029584544⟩ (1 / 2) (List.mem_cons_of_mem _ List.mem_cons_self))

theorem outside_start_shared (seed : ℤ) (h : Covered sampleReign outsideStart.rows seed) :
    Complete sampleReign outsideStart.rows seed := by
  simp [Covered, Held, sampleReign, outsideStart] at h

/-- Catch-up from a cohort member outside the wave opens two seeds at once. -/
theorem outside_coverage_opens_two_seeds : outsideStart.leases = [] ∧
    (∀ seed, Covered sampleReign outsideStart.rows seed → Complete sampleReign outsideStart.rows seed) ∧
    Relation.ReflTransGen (RetestLane.Step exactOps sampleSha256 sampleReign) outsideStart outsideEnd ∧
    Open sampleReign outsideEnd.rows 4757897351581418702 ∧ Open sampleReign outsideEnd.rows 6232790757029584544 := by
  refine ⟨rfl, outside_start_shared, outside_run, ?_, ?_⟩ <;>
    simp [Open, Covered, Complete, Held, sampleReign, outsideStart, outsideEnd]

theorem wave_opens_one_seed_outside : (waveSeeds sampleReign outsideEnd.rows).card ≤ 10 ∧
    ∀ seed ∈ top5ConfirmationSeedPlan exactOps sampleSha256 sampleReign outsideEnd.rows "a" none none,
      ¬ Held outsideEnd.rows "a" seed := by
  have hwave := wave_opens_one_seed exactOps sampleSha256 sampleReign outsideStart outsideEnd rfl outside_start_shared
    outside_run
  have hmember : "a" ∈ sampleReign.cohortIds := by decide
  have hempty : (waveSeeds sampleReign outsideStart.rows).card = 0 := by decide
  refine ⟨?_, (hwave.2.2.1 none "a" hmember).2⟩
  have hbound := hwave.2.1
  rw [hempty] at hbound
  exact hbound

end DittoSubnet.Platform

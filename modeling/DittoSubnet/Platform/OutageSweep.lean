import DittoSubnet.Kit.Keyset
import DittoSubnet.Platform.Voids

/-!
# The outage sweep

`outage_sweep.py`: after a provider outage the sweep examines the confirmation samples of a version and voids those
whose serving grant shows the outage. A run reads at most `batchLimit` samples behind the watermark of the previous run
and up to its horizon (`now - settleLag`); the watermark is a time, and after a full batch also the key of the last
sample.

* `sweepOutageVoids`: one run over the tables it reads.
* `SweepHistory`: the runs of one version, each over a later state of an append-only table.
* `outage_sweep_exactly_once`: over every history the watermark never moves back, a drained run has covered every sample
  up to its horizon, no sample is examined twice, and the canonical windows follow one another.

Times are integers in microseconds. The watermark of a run is a cursor of `Kit.Keyset`: a time without a key is behind
every sample of that time.
-/

namespace DittoSubnet.Platform

open Kit Kit.Keyset

variable {F : Type}

/-! ## Rows -/

def SWEEP_BATCH_LIMIT : ℕ := 200
def SWEEP_FIRST_LOOKBACK : ℤ := 6 * 3600 * 1000000
def SWEEP_SETTLE_LAG : ℤ := 2 * 60 * 1000000

/-- A stored sample with its key. -/
abbrev SampleRow (F : Type) := RowKey × Sample F

/-- `_sample_key`. -/
structure WatermarkKey where
  agentId : String
  validatorHotkey : String
  seed : ℤ
  voidGeneration : ℕ
  deriving DecidableEq

def sampleKeyOf (row : SampleRow F) : WatermarkKey :=
  ⟨row.1.key.agentId, row.1.key.validatorHotkey, row.1.key.seed, row.1.voidGeneration⟩

/-- The columns of a key in the sweep order. -/
abbrev KeyTuple := String ×ₗ String ×ₗ ℤ ×ₗ ℕ

def WatermarkKey.tuple (key : WatermarkKey) : KeyTuple :=
  toLex (key.agentId, toLex (key.validatorHotkey, toLex (key.seed, key.voidGeneration)))

/-- The sweep order of the samples. -/
def order (row : SampleRow F) : ℤ ×ₗ KeyTuple := toLex (row.2.createdAt, (sampleKeyOf row).tuple)

/-- The samples of a version that no void sets aside. -/
def liveSamples (samples : Samples F) (benchVersion : ℕ) : List (SampleRow F) :=
  samples.filter fun row => row.1.table = .score ∧ row.1.key.benchVersion = benchVersion ∧
    (Dict.get? samples ⟨.void, row.1.key, row.1.voidGeneration⟩).isNone = true

structure OutageWindow where
  startedAt : ℤ
  endedAt : ℤ

/-- What `retest_sample_inference` pairs with a sample. -/
structure ServedSample where
  grantId : Option String
  inference : RetestSampleInference

/-- A canonical `scores` row. -/
structure CanonicalScore (F : Type) where
  agentId : String
  validatorHotkey : String
  benchVersion : ℕ
  runId : String
  composite : F
  updatedAt : ℤ

/-- The chat calls of a grant. -/
structure GrantOutage where
  chatRequests : ℕ
  failedRequests : ℕ
  outageFailed : ℕ
  failureCodes : Dict String ℕ

/-- A void that a run wrote. -/
structure SweptVoid (F : Type) where
  key : WatermarkKey
  runId : String
  composite : F
  acceptedAt : ℤ
  grantId : String
  chatRequests : ℕ
  outageFailedRequests : ℕ
  window : Option OutageWindow

/-- A canonical score that a run flagged. -/
structure FlaggedScore (F : Type) where
  score : CanonicalScore F
  grantId : String
  outage : GrantOutage
  window : Option OutageWindow

/-- `outage_sweep_runs`. -/
structure OutageSweepRun (F : Type) where
  benchVersion : ℕ
  startedAt : ℤ
  watermarkFrom : ℤ
  watermarkTo : ℤ
  watermarkToKey : Option WatermarkKey
  examinedCount : ℕ
  voidedCount : ℕ
  errorCount : ℕ
  voids : List (SweptVoid F)
  outageWindows : Dict String OutageWindow
  canonicalFlagged : List (FlaggedScore F)
  errors : List (Option WatermarkKey × String)

/-! ## One run -/

structure SweepSettings where
  firstLookback : ℤ := SWEEP_FIRST_LOOKBACK
  settleLag : ℤ := SWEEP_SETTLE_LAG
  firstRunFullHistory : Bool := true

/-- A call with the tables it reads; a function that raises answers with the type of the exception. -/
structure SweepCall (F : Type) where
  now : ℤ
  batchLimit : ℕ := SWEEP_BATCH_LIMIT
  samples : Samples F
  scores : List (CanonicalScore F)
  /-- `retest_sample_inference` of a sample. -/
  served : RowKey → Except String (Option ServedSample)
  /-- `grant_outage_window`. -/
  grantWindow : String → Option OutageWindow
  /-- `void_confirmation_samples` for a sample. -/
  voided : RowKey → Except String VoidDisposition
  /-- The newest grant of a canonical score, `_grant_outage` of it. -/
  servingGrant : CanonicalScore F → Option (String × GrantOutage)
  /-- The exception of `_canonical_flags`, if it raises. -/
  canonicalError : Option String

/-- `latest_sweep_run`. -/
def latestSweepRun (runs : List (OutageSweepRun F)) (benchVersion : ℕ) : Option (OutageSweepRun F) :=
  (sortOn (fun run => toLex (-run.startedAt, -run.watermarkTo))
    (runs.filter fun run => run.benchVersion = benchVersion)).head?

/-- Where the first run of a version starts. -/
def firstWatermark (settings : SweepSettings) (benchVersion : ℕ) (call : SweepCall F) : ℤ :=
  let watermarkFrom := call.now - settings.firstLookback
  if settings.firstRunFullHistory then
    match ((call.samples.filter fun row => row.1.table = .score ∧ row.1.key.benchVersion = benchVersion).map
      fun row => row.2.createdAt).min? with
    | some earliest => min watermarkFrom (earliest - 1)
    | none => watermarkFrom
  else watermarkFrom

/-- The samples behind a watermark. -/
def resume (watermarkFrom : ℤ) (fromKey : Option WatermarkKey) (row : SampleRow F) : Prop :=
  match fromKey with
  | none => watermarkFrom < row.2.createdAt
  | some key => toLex (watermarkFrom, key.tuple) < order row

instance (watermarkFrom : ℤ) (fromKey : Option WatermarkKey) (row : SampleRow F) :
    Decidable (resume watermarkFrom fromKey row) := by
  unfold resume
  cases fromKey with
  | none => exact inferInstance
  | some key => exact inferInstance

/-- The samples that a run examines. -/
def sweepRows (settings : SweepSettings) (benchVersion : ℕ) (call : SweepCall F) (watermarkFrom : ℤ)
    (fromKey : Option WatermarkKey) : List (SampleRow F) :=
  (sortOn order ((liveSamples call.samples benchVersion).filter fun row =>
    row.2.createdAt ≤ call.now - settings.settleLag ∧ resume watermarkFrom fromKey row)).take call.batchLimit

/-- The watermark behind the samples of a run. -/
def watermarkAfter (horizon : ℤ) (batchLimit : ℕ) (watermarkFrom : ℤ) (fromKey : Option WatermarkKey)
    (rows : List (SampleRow F)) : ℤ × Option WatermarkKey :=
  match rows.getLast? with
  | some last =>
    if batchLimit ≤ rows.length then (last.2.createdAt, some (sampleKeyOf last))
    else (max horizon watermarkFrom, if watermarkFrom ≤ horizon then none else fromKey)
  | none => (max horizon watermarkFrom, if watermarkFrom ≤ horizon then none else fromKey)

/-- The lists that a run collects. -/
structure SweepFindings (F : Type) where
  voids : List (SweptVoid F)
  windows : Dict String OutageWindow
  errors : List (Option WatermarkKey × String)

/-- `observe`: the first window of a grant stays. -/
def observe (windows : Dict String OutageWindow) (grantId : String) : Option OutageWindow → Dict String OutageWindow
  | none => windows
  | some window => if (Dict.get? windows grantId).isSome then windows else Dict.set windows grantId window

/-- The body of the loop, inside the savepoint of one sample. -/
def examineRow (call : SweepCall F) (row : SampleRow F) (found : SweepFindings F) :
    Except String (SweepFindings F) := do
  match ← call.served row.1 with
  | none => return found
  | some served =>
    match served.grantId with
    | none => return found
    | some grantId =>
      let failed := outageFailed (some served.inference)
      if ¬ outageEvidenceQualifies served.inference.chatRequests failed then return found
      let window := call.grantWindow grantId
      let disposition ← call.voided row.1
      let windows := observe found.windows grantId window
      if disposition = .applied then
        return { found with
          windows
          voids := found.voids ++ [⟨sampleKeyOf row, row.2.runId, row.2.composite, row.2.createdAt, grantId,
            served.inference.chatRequests, failed, window⟩] }
      return { found with windows }

/-- The loop: an exception is recorded and the next sample is examined. -/
def examineRows (call : SweepCall F) (rows : List (SampleRow F)) (found : SweepFindings F) : SweepFindings F :=
  rows.foldl (fun found row =>
    match examineRow call row found with
    | .ok found => found
    | .error error => { found with errors := found.errors ++ [(some (sampleKeyOf row), error)] }) found

/-- `_canonical_flags`: the canonical scores accepted in `(after, through]` whose grant qualifies. -/
def canonicalFlags (call : SweepCall F) (benchVersion : ℕ) (after through : ℤ) : List (FlaggedScore F) :=
  if through ≤ after then []
  else
    (sortOn (fun score => toLex (score.updatedAt, toLex (score.agentId, score.validatorHotkey)))
      (call.scores.filter fun score => score.benchVersion = benchVersion ∧ after < score.updatedAt ∧
        score.updatedAt ≤ through)).filterMap fun score =>
      match call.servingGrant score with
      | none => none
      | some (grantId, outage) =>
        if outageEvidenceQualifies outage.chatRequests outage.outageFailed then
          some ⟨score, grantId, outage, call.grantWindow grantId⟩
        else none

/-- A run with the samples it examined. -/
structure Swept (F : Type) where
  rows : List (SampleRow F)
  run : OutageSweepRun F

/-- `sweep_outage_voids`, while no other sweep holds the lock. -/
def sweepOutageVoids (settings : SweepSettings) (runs : List (OutageSweepRun F)) (benchVersion : ℕ)
    (call : SweepCall F) : Swept F :=
  let previous := latestSweepRun runs benchVersion
  let horizon := call.now - settings.settleLag
  let watermarkFrom := previous.elim (firstWatermark settings benchVersion call) (·.watermarkTo)
  let fromKey := previous.bind (·.watermarkToKey)
  let rows := sweepRows settings benchVersion call watermarkFrom fromKey
  let watermark := watermarkAfter horizon call.batchLimit watermarkFrom fromKey rows
  let found := examineRows call rows ⟨[], [], []⟩
  let flagged := canonicalFlags call benchVersion watermarkFrom watermark.1
  let canonical := if call.canonicalError.isSome then [] else flagged
  { rows
    run :=
      { benchVersion
        startedAt := call.now
        watermarkFrom
        watermarkTo := watermark.1
        watermarkToKey := watermark.2
        examinedCount := rows.length
        voidedCount := found.voids.length
        errorCount := found.errors.length
        voids := found.voids
        outageWindows := canonical.foldl (fun windows flag => observe windows flag.grantId flag.window) found.windows
        canonicalFlagged := canonical
        errors := found.errors ++ (call.canonicalError.toList.map fun error => (none, error)) } }

/-! ## The watermark as a cursor -/

/-- A position in the sweep order; a time without a key is behind every sample of that time. -/
abbrev Position := ℤ ×ₗ WithTop KeyTuple

def position (row : SampleRow F) : Position := toLex (row.2.createdAt, ((sampleKeyOf row).tuple : WithTop KeyTuple))

/-- The cursor of a watermark. -/
def cursorOf (time : ℤ) (key : Option WatermarkKey) : Position :=
  toLex (time, key.elim ⊤ fun key => (key.tuple : WithTop KeyTuple))

def OutageSweepRun.cursor (run : OutageSweepRun F) : Position := cursorOf run.watermarkTo run.watermarkToKey

theorem WatermarkKey.tuple_injective : Function.Injective WatermarkKey.tuple := by
  intro key key' h
  cases key
  cases key'
  simpa [WatermarkKey.tuple] using h

theorem position_le_iff {row row' : SampleRow F} : position row ≤ position row' ↔ order row ≤ order row' := by
  simp only [position, order, Prod.Lex.toLex_le_toLex, WithTop.coe_le_coe]

theorem resume_iff {time : ℤ} {key : Option WatermarkKey} {row : SampleRow F} :
    resume time key row ↔ cursorOf time key < position row := by
  cases key with
  | none => simp [resume, cursorOf, position, Prod.Lex.toLex_lt_toLex]
  | some key => simp [resume, cursorOf, position, order, Prod.Lex.toLex_lt_toLex]

theorem position_le_horizon_iff {time : ℤ} {row : SampleRow F} :
    position row ≤ cursorOf time none ↔ row.2.createdAt ≤ time := by
  rw [cursorOf, position, Prod.Lex.toLex_le_toLex]
  simp only [Option.elim_none, le_top, and_true]
  exact le_iff_lt_or_eq.symm

/-- The key of a sample determines its row key within a version. -/
theorem rowKey_eq {samples : Samples F} {benchVersion : ℕ} {row row' : SampleRow F}
    (hrow : row ∈ liveSamples samples benchVersion) (hrow' : row' ∈ liveSamples samples benchVersion)
    (h : sampleKeyOf row = sampleKeyOf row') : row.1 = row'.1 := by
  rw [liveSamples, List.mem_filter, decide_eq_true_eq] at hrow hrow'
  obtain ⟨⟨table, ⟨agent, version, hotkey, seed⟩, generation⟩, sample⟩ := row
  obtain ⟨⟨table', ⟨agent', version', hotkey', seed'⟩, generation'⟩, sample'⟩ := row'
  obtain ⟨-, htable, hversion, -⟩ := hrow
  obtain ⟨-, htable', hversion', -⟩ := hrow'
  simp only [sampleKeyOf, WatermarkKey.mk.injEq] at h
  simp only at htable hversion htable' hversion'
  simp only [htable, htable', hversion, hversion', h]

/-- The live samples of a table have different positions. -/
theorem position_injective {samples : Samples F} (hkeys : (Dict.keys samples).Nodup) {benchVersion : ℕ} :
    ∀ row ∈ liveSamples samples benchVersion, ∀ row' ∈ liveSamples samples benchVersion,
      position row = position row' → row = row' := by
  intro row hrow row' hrow' h
  have htuple : (sampleKeyOf row).tuple = (sampleKeyOf row').tuple :=
    WithTop.coe_injective (congrArg (fun p : Position => (ofLex p).2) h)
  have hkey := rowKey_eq hrow hrow' (WatermarkKey.tuple_injective htuple)
  have hget := Dict.get?_of_mem hkeys (List.mem_of_mem_filter hrow)
  rw [hkey, Dict.get?_of_mem hkeys (List.mem_of_mem_filter hrow'), Option.some.injEq] at hget
  exact Prod.ext hkey hget.symm

/-! ## A run as a page -/

variable {settings : SweepSettings} {benchVersion : ℕ}

/-- What a call reads as a page of the sweep. -/
def SweepCall.toPage (settings : SweepSettings) (benchVersion : ℕ) (call : SweepCall F) :
    Page (SampleRow F) Position where
  items := liveSamples call.samples benchVersion
  bound := cursorOf (call.now - settings.settleLag) none
  limit := call.batchLimit

theorem sweepRows_eq (call : SweepCall F) (time : ℤ) (key : Option WatermarkKey) :
    sweepRows settings benchVersion call time key =
      (call.toPage settings benchVersion).page position (cursorOf time key) := by
  have hsort (l : List (SampleRow F)) : sortOn order l = sortOn position l :=
    sortOn_congr fun _ _ _ _ => position_le_iff.symm
  rw [sweepRows, Page.page, hsort]
  congr 3
  funext row
  rw [SweepCall.toPage, decide_eq_decide, position_le_horizon_iff, resume_iff, and_comm]

/-- The watermark of a run is the cursor behind its page. -/
theorem cursorOf_watermarkAfter (call : SweepCall F) (time : ℤ) (key : Option WatermarkKey) :
    let watermark := watermarkAfter (call.now - settings.settleLag) call.batchLimit time key
      (sweepRows settings benchVersion call time key)
    cursorOf watermark.1 watermark.2 = (call.toPage settings benchVersion).next position (cursorOf time key) := by
  intro watermark
  have hdrained : cursorOf (max (call.now - settings.settleLag) time)
      (if time ≤ call.now - settings.settleLag then none else key) =
        max (call.toPage settings benchVersion).bound (cursorOf time key) := by
    by_cases h : time ≤ call.now - settings.settleLag
    · rw [if_pos h, max_eq_left h, SweepCall.toPage, max_eq_left]
      rw [cursorOf, cursorOf, Prod.Lex.toLex_le_toLex]
      rcases h.lt_or_eq with h | h
      · exact Or.inl h
      · exact Or.inr ⟨h, le_top⟩
    · rw [if_neg h, max_eq_right (not_le.1 h).le, SweepCall.toPage, max_eq_right]
      rw [cursorOf, cursorOf, Prod.Lex.toLex_le_toLex]
      exact Or.inl (not_le.1 h)
  rw [Page.next, ← sweepRows_eq]
  unfold watermark watermarkAfter
  cases (sweepRows settings benchVersion call time key).getLast? with
  | none => exact hdrained
  | some last =>
    dsimp only
    by_cases hfull : call.batchLimit ≤ (sweepRows settings benchVersion call time key).length
    · rw [if_pos hfull, if_pos (show (call.toPage settings benchVersion).limit ≤ _ from hfull)]
      rfl
    · rw [if_neg hfull, if_neg (show ¬ (call.toPage settings benchVersion).limit ≤ _ from hfull)]
      exact hdrained

/-! ## Histories -/

/-- The tables of a later call: rows stay, and a score row that was accepted up to the horizon of the earlier call was
visible to it. -/
structure GrowsTo (settleLag : ℤ) (call later : SweepCall F) : Prop where
  kept : ∀ key sample, Dict.get? call.samples key = some sample → Dict.get? later.samples key = some sample
  settled : ∀ key sample, key.table = .score → Dict.get? later.samples key = some sample →
    sample.createdAt ≤ call.now - settleLag → Dict.get? call.samples key = some sample

/-- The calls that sweep one version, in the order of their commits. -/
structure SweepHistory (F : Type) where
  settings : SweepSettings
  fullHistory : settings.firstRunFullHistory = true
  benchVersion : ℕ
  /-- The runs of other versions. -/
  others : List (OutageSweepRun F)
  others_version : ∀ run ∈ others, run.benchVersion ≠ benchVersion
  calls : List (SweepCall F)
  now_increasing : calls.Pairwise fun call later => call.now < later.now
  batchLimit_pos : ∀ call ∈ calls, 1 ≤ call.batchLimit
  keys_nodup : ∀ call ∈ calls, (Dict.keys call.samples).Nodup
  append_only : calls.Pairwise (GrowsTo settings.settleLag)

/-- The runs of a list of calls, each with its call. -/
def sweeps (settings : SweepSettings) (benchVersion : ℕ) (runs : List (OutageSweepRun F)) :
    List (SweepCall F) → List (SweepCall F × Swept F)
  | [] => []
  | call :: calls =>
    let swept := sweepOutageVoids settings runs benchVersion call
    (call, swept) :: sweeps settings benchVersion (runs ++ [swept.run]) calls

/-- A call that reads the samples at the given times; the generation tells them apart, and no grant shows an outage. -/
def quietCall (now : ℤ) (batchLimit : ℕ) (times : List ℤ) : SweepCall Unit where
  now
  batchLimit
  samples := times.zipIdx.map fun (time, n) => (⟨.score, ⟨"agent", 16, "alice", 1⟩, n⟩, ⟨"run", (), time⟩)
  scores := []
  served := fun _ => .ok none
  grantWindow := fun _ => none
  voided := fun _ => .ok .notFound
  servingGrant := fun _ => none
  canonicalError := none

/-- Three samples of one time, two to a batch: the second run resumes inside the time. -/
example : ((sweeps ⟨100, 2, true⟩ 16 [] [quietCall 50 2 [10, 10, 10], quietCall 51 2 [10, 10, 10, 60]]).map fun entry =>
    (entry.2.rows.map (·.1.voidGeneration), entry.2.run.watermarkTo)) = [([0, 1], 10), ([2], 49)] := by
  decide +kernel

/-- The runs of a history. -/
def SweepHistory.sweeps (h : SweepHistory F) : List (SweepCall F × Swept F) :=
  Platform.sweeps h.settings h.benchVersion h.others h.calls

/-- A run whose start is later than those of the other runs of its version is the latest. -/
theorem latestSweepRun_append {runs : List (OutageSweepRun F)} {run : OutageSweepRun F}
    (h : ∀ earlier ∈ runs, earlier.benchVersion = run.benchVersion → earlier.startedAt < run.startedAt) :
    latestSweepRun (runs ++ [run]) run.benchVersion = some run := by
  rw [latestSweepRun]
  set candidates := (runs ++ [run]).filter fun other => other.benchVersion = run.benchVersion with hcandidates
  have hrun : run ∈ candidates :=
    List.mem_filter.2 ⟨List.mem_append_right _ (List.mem_singleton_self _), decide_eq_true rfl⟩
  have hsorted := pairwise_sortOn (fun run : OutageSweepRun F => toLex (-run.startedAt, -run.watermarkTo)) candidates
  cases hl : sortOn (fun run : OutageSweepRun F => toLex (-run.startedAt, -run.watermarkTo)) candidates with
  | nil => exact absurd hl (sortOn_ne_nil (List.ne_nil_of_mem hrun))
  | cons first rest =>
    rw [hl] at hsorted
    have hmem : run ∈ first :: rest := hl ▸ mem_sortOn.2 hrun
    rcases List.mem_cons.1 hmem with rfl | hrest
    · rfl
    · -- the head of the sort starts no earlier than `run`, so it is `run`
      have hle := List.rel_of_pairwise_cons hsorted hrest
      rw [Prod.Lex.toLex_le_toLex] at hle
      have hfirst : first ∈ candidates := mem_sortOn.1 (hl ▸ List.mem_cons_self)
      rw [hcandidates, List.mem_filter, decide_eq_true_eq] at hfirst
      obtain ⟨hin, hversion⟩ := hfirst
      rcases List.mem_append.1 hin with hin | hin
      · have hlt := h first hin hversion
        omega
      · rw [List.mem_singleton.1 hin]
        rfl

/-- Where the next run of a table starts. -/
def startOf (settings : SweepSettings) (benchVersion : ℕ) (runs : List (OutageSweepRun F)) (call : SweepCall F) :
    Position :=
  (latestSweepRun runs benchVersion).elim (cursorOf (firstWatermark settings benchVersion call) none)
    OutageSweepRun.cursor

variable (settings benchVersion) in
/-- A run reads the page behind the latest watermark and leaves its own behind the page. -/
theorem sweepOutageVoids_spec (runs : List (OutageSweepRun F)) (call : SweepCall F) :
    let swept := sweepOutageVoids settings runs benchVersion call
    swept.rows = (call.toPage settings benchVersion).page position (startOf settings benchVersion runs call) ∧
      swept.run.cursor =
        (call.toPage settings benchVersion).next position (startOf settings benchVersion runs call) ∧
      cursorOf swept.run.watermarkFrom ((latestSweepRun runs benchVersion).bind (·.watermarkToKey)) =
        startOf settings benchVersion runs call := by
  intro swept
  have hstart : startOf settings benchVersion runs call = cursorOf
      ((latestSweepRun runs benchVersion).elim (firstWatermark settings benchVersion call) (·.watermarkTo))
      ((latestSweepRun runs benchVersion).bind (·.watermarkToKey)) := by
    rw [startOf]
    cases latestSweepRun runs benchVersion with
    | none => rfl
    | some run => rfl
  rw [hstart, ← sweepRows_eq, ← cursorOf_watermarkAfter]
  exact ⟨rfl, rfl, rfl⟩

/-- The table before a list of calls: every run of the version started before the calls. -/
structure Before (benchVersion : ℕ) (runs : List (OutageSweepRun F)) (calls : List (SweepCall F)) : Prop where
  now_increasing : calls.Pairwise fun call later => call.now < later.now
  startedAt_lt : ∀ run ∈ runs, run.benchVersion = benchVersion → ∀ call ∈ calls, run.startedAt < call.now

/-- After a run it is the latest, and it started before the calls that follow. -/
theorem Before.after {runs : List (OutageSweepRun F)} {call : SweepCall F} {calls : List (SweepCall F)}
    (h : Before benchVersion runs (call :: calls)) (settings : SweepSettings) :
    let run := (sweepOutageVoids settings runs benchVersion call).run
    Before benchVersion (runs ++ [run]) calls ∧ latestSweepRun (runs ++ [run]) benchVersion = some run := by
  obtain ⟨hnow, hlater⟩ := List.pairwise_cons.1 h.now_increasing
  refine ⟨⟨hlater, ?_⟩, latestSweepRun_append fun earlier hearlier hversion =>
    h.startedAt_lt earlier hearlier hversion call List.mem_cons_self⟩
  intro run hrun hversion later hmem
  rcases List.mem_append.1 hrun with hrun | hrun
  · exact h.startedAt_lt run hrun hversion later (List.mem_cons_of_mem _ hmem)
  · rw [List.mem_singleton.1 hrun]
    exact hnow later hmem

variable (settings) in
/-- The samples of a list of calls are the pages of a sweep. -/
theorem sweeps_rows {runs : List (OutageSweepRun F)} {calls : List (SweepCall F)}
    (h : Before benchVersion runs calls) (start : Position)
    (hstart : ∀ call, calls.head? = some call → startOf settings benchVersion runs call = start) :
    (sweeps settings benchVersion runs calls).map (·.2.rows) =
      sweep position start (calls.map (SweepCall.toPage settings benchVersion)) := by
  induction calls generalizing runs start with
  | nil => rfl
  | cons call calls ih =>
    obtain ⟨hrows, hcursor, -⟩ := sweepOutageVoids_spec settings benchVersion runs call
    obtain ⟨hbefore, hlatest⟩ := h.after settings
    rw [hstart call rfl] at hrows hcursor
    rw [sweeps, List.map_cons, List.map_cons, sweep, ih hbefore _, hrows]
    intro later _
    rw [startOf, hlatest]
    exact hcursor

/-- The window of a run is in order. -/
theorem watermarkFrom_le (settings : SweepSettings) (benchVersion : ℕ) (runs : List (OutageSweepRun F))
    (call : SweepCall F) :
    (sweepOutageVoids settings runs benchVersion call).run.watermarkFrom ≤
      (sweepOutageVoids settings runs benchVersion call).run.watermarkTo := by
  obtain ⟨-, hcursor, hfrom⟩ := sweepOutageVoids_spec settings benchVersion runs call
  have hle : startOf settings benchVersion runs call ≤ Page.next position _ _ :=
    le_next (call.toPage settings benchVersion) _
  rw [← hcursor, ← hfrom, OutageSweepRun.cursor, cursorOf, cursorOf, Prod.Lex.toLex_le_toLex] at hle
  rcases hle with hlt | ⟨heq, -⟩
  · exact le_of_lt hlt
  · exact le_of_eq heq

/-- A run starts at the watermark of the run before it and does not move it back. -/
structure Follows (run next : OutageSweepRun F) : Prop where
  from_eq : next.watermarkFrom = run.watermarkTo
  cursor_le : run.cursor ≤ next.cursor
  from_le : next.watermarkFrom ≤ next.watermarkTo

theorem sweeps_chain {runs : List (OutageSweepRun F)} {previous : OutageSweepRun F} {calls : List (SweepCall F)}
    (h : Before benchVersion runs calls) (hlatest : latestSweepRun runs benchVersion = some previous) :
    List.IsChain Follows (previous :: (sweeps settings benchVersion runs calls).map (·.2.run)) := by
  induction calls generalizing runs previous with
  | nil => exact List.isChain_singleton _
  | cons call calls ih =>
    obtain ⟨-, hcursor, -⟩ := sweepOutageVoids_spec settings benchVersion runs call
    obtain ⟨hbefore, hlatest'⟩ := h.after settings
    have hstart : startOf settings benchVersion runs call = previous.cursor := by
      rw [startOf, hlatest]
      rfl
    rw [sweeps, List.map_cons, List.isChain_cons_cons]
    refine ⟨⟨?_, ?_, watermarkFrom_le settings benchVersion runs call⟩, ih hbefore hlatest'⟩
    · rw [sweepOutageVoids, hlatest]
      rfl
    · rw [hcursor, hstart]
      exact le_next _ _

theorem mem_sweeps {runs : List (OutageSweepRun F)} {calls : List (SweepCall F)} {entry : SweepCall F × Swept F}
    (h : entry ∈ sweeps settings benchVersion runs calls) :
    entry.1 ∈ calls ∧ ∃ table, entry.2 = sweepOutageVoids settings table benchVersion entry.1 := by
  induction calls generalizing runs with
  | nil => cases h
  | cons call calls ih =>
    rcases List.mem_cons.1 h with rfl | h
    · exact ⟨List.mem_cons_self, runs, rfl⟩
    · obtain ⟨hmem, table⟩ := ih h
      exact ⟨List.mem_cons_of_mem _ hmem, table⟩

variable (settings benchVersion) in
theorem map_fst_sweeps (runs : List (OutageSweepRun F)) (calls : List (SweepCall F)) :
    (sweeps settings benchVersion runs calls).map Prod.fst = calls := by
  induction calls generalizing runs with
  | nil => rfl
  | cons call calls ih => rw [sweeps, List.map_cons, ih]

/-! ## Coverage -/

variable (benchVersion) in
/-- The first run starts before every sample it can see, and no later than `firstLookback` before its time. -/
theorem firstWatermark_le (hfull : settings.firstRunFullHistory = true) (call : SweepCall F) :
    firstWatermark settings benchVersion call ≤ call.now - settings.firstLookback ∧
      ∀ row ∈ liveSamples call.samples benchVersion,
        firstWatermark settings benchVersion call < row.2.createdAt := by
  rw [firstWatermark, if_pos hfull]
  cases hmin : ((call.samples.filter fun row => row.1.table = .score ∧ row.1.key.benchVersion = benchVersion).map
      fun row => row.2.createdAt).min? with
  | none =>
    refine ⟨le_refl _, fun row hrow => ?_⟩
    rw [List.min?_eq_none_iff, List.map_eq_nil_iff, List.filter_eq_nil_iff] at hmin
    rw [liveSamples, List.mem_filter, decide_eq_true_eq] at hrow
    exact absurd (decide_eq_true ⟨hrow.2.1, hrow.2.2.1⟩) (hmin row hrow.1)
  | some earliest =>
    refine ⟨min_le_left _ _, fun row hrow => ?_⟩
    rw [liveSamples, List.mem_filter, decide_eq_true_eq] at hrow
    have hle : earliest ≤ row.2.createdAt := (List.min?_eq_some_iff.1 hmin).2 _
      (List.mem_map.2 ⟨row, List.mem_filter.2 ⟨hrow.1, decide_eq_true ⟨hrow.2.1, hrow.2.2.1⟩⟩, rfl⟩)
    have hmin' := min_le_right (call.now - settings.firstLookback) (earliest - 1)
    change min (call.now - settings.firstLookback) (earliest - 1) < row.2.createdAt
    omega

variable (settings benchVersion) in
theorem sweeps_take (runs : List (OutageSweepRun F)) (calls : List (SweepCall F)) (n : ℕ) :
    (sweeps settings benchVersion runs calls).take n = sweeps settings benchVersion runs (calls.take n) := by
  induction calls generalizing runs n with
  | nil => rw [List.take_nil, sweeps, List.take_nil]
  | cons call calls ih =>
    cases n with
    | zero => rfl
    | succ n => rw [sweeps, List.take_succ_cons, List.take_succ_cons, sweeps, ih]

/-- A live sample of a call was live for an earlier call that could see it. -/
theorem GrowsTo.live {call later : SweepCall F} (h : GrowsTo settings.settleLag call later) {row : SampleRow F}
    (hrow : row ∈ liveSamples later.samples benchVersion) (hmem : row ∈ call.samples) :
    row ∈ liveSamples call.samples benchVersion := by
  rw [liveSamples, List.mem_filter, decide_eq_true_eq] at hrow ⊢
  obtain ⟨-, htable, hversion, hvoid⟩ := hrow
  refine ⟨hmem, htable, hversion, ?_⟩
  rw [Option.isNone_iff_eq_none] at hvoid ⊢
  cases hget : Dict.get? call.samples ⟨.void, row.1.key, row.1.voidGeneration⟩ with
  | none => rfl
  | some void =>
    rw [h.kept _ _ hget] at hvoid
    cases hvoid

/-- A live sample up to the horizon of an earlier call was live for it. -/
theorem GrowsTo.live_of_le {call later : SweepCall F} (h : GrowsTo settings.settleLag call later)
    (hkeys : (Dict.keys later.samples).Nodup) {row : SampleRow F}
    (hrow : row ∈ liveSamples later.samples benchVersion) (hle : row.2.createdAt ≤ call.now - settings.settleLag) :
    row ∈ liveSamples call.samples benchVersion := by
  refine h.live hrow (Dict.mem_of_get? ?_)
  rw [liveSamples, List.mem_filter, decide_eq_true_eq] at hrow
  exact h.settled row.1 row.2 hrow.2.1 (Dict.get?_of_mem hkeys hrow.1) hle

theorem SweepHistory.before (h : SweepHistory F) : Before h.benchVersion h.others h.calls :=
  ⟨h.now_increasing, fun run hrun hversion => absurd hversion (h.others_version run hrun)⟩

/-- The first run of a history starts at its first watermark. -/
theorem SweepHistory.startOf_eq (h : SweepHistory F) (call : SweepCall F) :
    startOf h.settings h.benchVersion h.others call =
      cursorOf (firstWatermark h.settings h.benchVersion call) none := by
  have hnone : h.others.filter (fun run => run.benchVersion = h.benchVersion) = [] := by
    rw [List.filter_eq_nil_iff]
    intro run hrun
    rw [decide_eq_true_eq]
    exact h.others_version run hrun
  rw [startOf, latestSweepRun, hnone]
  rfl

/-- A drained run and the runs before it have examined every live sample up to its horizon. -/
theorem SweepHistory.covers (h : SweepHistory F) {before after : List (SweepCall F × Swept F)}
    {entry : SweepCall F × Swept F} (hsplit : h.sweeps = before ++ entry :: after)
    (hdrained : entry.2.rows.length < entry.1.batchLimit) {row : SampleRow F}
    (hrow : row ∈ liveSamples entry.1.samples h.benchVersion)
    (hle : row.2.createdAt ≤ entry.1.now - h.settings.settleLag)
    (hpresent : h.settings.settleLag ≤ h.settings.firstLookback ∨
      ∀ first, h.calls.head? = some first → row ∈ first.samples) :
    ∃ examined ∈ before ++ [entry], row ∈ examined.2.rows := by
  -- the calls up to the drained run
  have hcalls : h.calls = before.map Prod.fst ++ entry.1 :: after.map Prod.fst := by
    rw [← map_fst_sweeps h.settings h.benchVersion h.others h.calls]
    change h.sweeps.map Prod.fst = _
    rw [hsplit, List.map_append, List.map_cons]
  have htaken : Platform.sweeps h.settings h.benchVersion h.others (before.map Prod.fst ++ [entry.1]) =
      before ++ [entry] := by
    have htake := sweeps_take h.settings h.benchVersion h.others h.calls (before.length + 1)
    change h.sweeps.take _ = _ at htake
    rw [hsplit, hcalls, List.append_cons before, List.append_cons (before.map Prod.fst),
      List.take_left' (by simp), List.take_left' (by simp)] at htake
    exact htake.symm
  have hsub : (before.map Prod.fst ++ [entry.1]).Sublist h.calls := by
    rw [hcalls]
    exact (List.Sublist.refl _).append (List.singleton_sublist.2 List.mem_cons_self)
  have hbefore : Before h.benchVersion h.others (before.map Prod.fst ++ [entry.1]) :=
    ⟨h.before.now_increasing.sublist hsub, fun run hrun hv call hcall =>
      h.before.startedAt_lt run hrun hv call (hsub.subset hcall)⟩
  have hkeys := h.keys_nodup entry.1 (hsub.subset (List.mem_append_right _ (List.mem_singleton_self _)))
  -- an earlier call could see the sample from the time its horizon passed it
  have hseen : ∀ call ∈ before.map Prod.fst ++ [entry.1], row.2.createdAt ≤ call.now - h.settings.settleLag →
      row ∈ liveSamples call.samples h.benchVersion := by
    intro call hcall hcallLe
    rcases List.mem_append.1 hcall with hcall | hcall
    · have hext := (List.pairwise_append.1 (h.append_only.sublist hsub)).2.2 call hcall entry.1
        (List.mem_singleton_self _)
      exact hext.live_of_le hkeys hrow hcallLe
    · rw [List.mem_singleton.1 hcall]
      exact hrow
  obtain ⟨first, hfirst⟩ : ∃ first, (before.map Prod.fst ++ [entry.1]).head? = some first := by
    cases before with
    | nil => exact ⟨_, rfl⟩
    | cons other before => exact ⟨_, rfl⟩
  have hstart : firstWatermark h.settings h.benchVersion first < row.2.createdAt := by
    have hmem : first ∈ before.map Prod.fst ++ [entry.1] := List.mem_of_head? hfirst
    obtain ⟨hlookback, hlive⟩ := firstWatermark_le h.benchVersion h.fullHistory first
    by_cases hvisible : row.2.createdAt ≤ first.now - h.settings.settleLag
    · exact hlive row (hseen first hmem hvisible)
    · rcases hpresent with hlag | hpresent
      · omega
      · have hhead : h.calls.head? = some first := by
          rw [hcalls, ← List.singleton_append, ← List.append_assoc, List.head?_append, hfirst]
          rfl
        refine hlive row ?_
        rcases List.mem_append.1 hmem with hmem | hmem
        · have hext := (List.pairwise_append.1 (h.append_only.sublist hsub)).2.2 first hmem entry.1
            (List.mem_singleton_self _)
          exact hext.live hrow (hpresent first hhead)
        · rw [List.mem_singleton.1 hmem]
          exact hrow
  have hrows := sweeps_rows h.settings hbefore
    (cursorOf (firstWatermark h.settings h.benchVersion first) none) (by
      intro call hcall
      rw [hfirst, Option.some.injEq] at hcall
      rw [← hcall]
      exact h.startOf_eq first)
  rw [htaken, List.map_append, List.map_append, sweep_append] at hrows
  obtain ⟨-, hlast⟩ := List.append_inj' hrows rfl
  have hpage : entry.2.rows = (entry.1.toPage h.settings h.benchVersion).page position _ :=
    List.head_eq_of_cons_eq hlast
  have hbound : position row ≤ (entry.1.toPage h.settings h.benchVersion).next position _ :=
    (position_le_horizon_iff.2 hle).trans (bound_le_next (hpage ▸ hdrained))
  rw [← sweep_append, ← List.map_append, ← List.map_append] at hrows
  obtain ⟨batch, hbatch, hmem⟩ : ∃ batch ∈ sweep position
      (cursorOf (firstWatermark h.settings h.benchVersion first) none)
      ((before.map Prod.fst ++ [entry.1]).map (SweepCall.toPage h.settings h.benchVersion)), row ∈ batch := by
    refine mem_sweep ?_ ?_ ?_ (resume_iff.1 hstart) ?_
    · rintro page hpage row hrow row' hrow'
      obtain ⟨call, hcall, rfl⟩ := List.mem_map.1 hpage
      exact position_injective (h.keys_nodup call (hsub.subset hcall)) row hrow row' hrow'
    · intro page hpage
      obtain ⟨call, hcall, rfl⟩ := List.mem_map.1 hpage
      exact h.batchLimit_pos call (hsub.subset hcall)
    · intro page hpage hpos
      obtain ⟨call, hcall, rfl⟩ := List.mem_map.1 hpage
      exact hseen call hcall (position_le_horizon_iff.1 hpos)
    · rw [List.map_append, final_append]
      exact hbound
  rw [← hrows] at hbatch
  obtain ⟨examined, hexamined, rfl⟩ := List.mem_map.1 hbatch
  exact ⟨examined, hexamined, hmem⟩

/-! ## Exactly once -/

/-- The samples of two runs of a history have different keys. -/
theorem SweepHistory.rows_disjoint (h : SweepHistory F) :
    h.sweeps.Pairwise fun entry later => ∀ row ∈ entry.2.rows, ∀ row' ∈ later.2.rows, row.1 ≠ row'.1 := by
  have hpositions : (h.sweeps.map (·.2.rows)).Pairwise fun batch later =>
      ∀ row ∈ batch, ∀ row' ∈ later, position row < position row' := by
    cases hcalls : h.calls with
    | nil =>
      rw [SweepHistory.sweeps, hcalls]
      exact List.Pairwise.nil
    | cons first calls =>
      have hrows := sweeps_rows h.settings h.before (startOf h.settings h.benchVersion h.others first) (by
        intro call hcall
        rw [hcalls] at hcall
        cases hcall
        rfl)
      change h.sweeps.map _ = _ at hrows
      rw [hrows]
      refine sweep_pairwise ?_ ?_
      · rintro page hpage row hrow row' hrow'
        obtain ⟨call, hcall, rfl⟩ := List.mem_map.1 hpage
        exact position_injective (h.keys_nodup call hcall) row hrow row' hrow'
      · intro page hpage
        obtain ⟨call, hcall, rfl⟩ := List.mem_map.1 hpage
        exact h.batchLimit_pos call hcall
  -- a row that both calls saw under one key is one row, at one position
  have hextends : h.sweeps.Pairwise fun entry later => GrowsTo h.settings.settleLag entry.1 later.1 := by
    have hcalls := h.append_only
    rw [← map_fst_sweeps h.settings h.benchVersion h.others h.calls] at hcalls
    exact List.pairwise_map.1 hcalls
  refine ((List.pairwise_map.1 hpositions).and hextends).imp_of_mem ?_
  rintro entry later hentry hlater ⟨hpos, hext⟩ row hrow row' hrow' heq
  have hlt := hpos row hrow row' hrow'
  obtain ⟨hcall, table, hswept⟩ := mem_sweeps hentry
  obtain ⟨hcall', table', hswept'⟩ := mem_sweeps hlater
  rw [hswept, (sweepOutageVoids_spec h.settings h.benchVersion table entry.1).1] at hrow
  rw [hswept', (sweepOutageVoids_spec h.settings h.benchVersion table' later.1).1] at hrow'
  have hmem : row ∈ entry.1.samples := List.mem_of_mem_filter (mem_page hrow).1
  have hmem' : row' ∈ later.1.samples := List.mem_of_mem_filter (mem_page hrow').1
  have hget := hext.kept _ _ (Dict.get?_of_mem (h.keys_nodup entry.1 hcall) hmem)
  rw [heq, Dict.get?_of_mem (h.keys_nodup later.1 hcall') hmem', Option.some.injEq] at hget
  have hrows : row = row' := Prod.ext heq hget.symm
  rw [hrows] at hlt
  exact lt_irrefl _ hlt

theorem SweepHistory.rows_nodup (h : SweepHistory F) {entry : SweepCall F × Swept F} (hentry : entry ∈ h.sweeps) :
    (entry.2.rows.map Prod.fst).Nodup := by
  obtain ⟨hcall, table, hswept⟩ := mem_sweeps hentry
  rw [hswept, (sweepOutageVoids_spec h.settings h.benchVersion table entry.1).1, Page.page]
  refine List.Nodup.sublist ((List.take_sublist _ _).map Prod.fst) ?_
  refine (((sortOn_perm position _).map Prod.fst).nodup_iff).2 ?_
  exact List.Nodup.sublist ((List.filter_sublist.trans List.filter_sublist).map Prod.fst) (h.keys_nodup entry.1 hcall)

/-- Every run starts at the watermark of the run before it and moves it forward. -/
theorem SweepHistory.chain (h : SweepHistory F) : (h.sweeps.map (·.2.run)).IsChain Follows := by
  cases hcalls : h.calls with
  | nil =>
    rw [SweepHistory.sweeps, hcalls]
    exact List.isChain_nil
  | cons first calls =>
    have hbefore := h.before
    rw [hcalls] at hbefore
    obtain ⟨hafter, hlatest⟩ := hbefore.after h.settings
    rw [SweepHistory.sweeps, hcalls]
    exact sweeps_chain hafter hlatest

/-- A later run: its watermark and its window are ahead. -/
structure Ahead (run later : OutageSweepRun F) : Prop where
  cursor_le : run.cursor ≤ later.cursor
  to_le : run.watermarkTo ≤ later.watermarkFrom
  from_le : later.watermarkFrom ≤ later.watermarkTo

instance : Trans (Ahead (F := F)) Ahead Ahead where
  trans h h' := ⟨h.cursor_le.trans h'.cursor_le, (h.to_le.trans h.from_le).trans h'.to_le, h'.from_le⟩

/-- The watermark of a history never moves back, and no two canonical windows overlap. -/
theorem SweepHistory.ahead (h : SweepHistory F) :
    h.sweeps.Pairwise fun entry later => Ahead entry.2.run later.2.run := by
  have hchain : (h.sweeps.map (·.2.run)).IsChain Ahead :=
    h.chain.imp fun _ _ hf => ⟨hf.cursor_le, hf.from_eq.ge, hf.from_le⟩
  exact List.pairwise_map.1 hchain.pairwise

/-- The outage sweep covers every sample exactly once: over every history of one version the watermark never moves back
in the sweep order; a drained run and the runs before it have examined every live sample up to its horizon; no sample is
examined twice; and each canonical window `(watermarkFrom, watermarkTo]` starts where the one before it ends. -/
theorem outage_sweep_exactly_once (h : SweepHistory F) :
    (h.sweeps.Pairwise fun entry later => entry.2.run.cursor ≤ later.2.run.cursor) ∧
    (∀ before entry after, h.sweeps = before ++ entry :: after →
      entry.2.run.examinedCount < entry.1.batchLimit →
        ∀ row ∈ liveSamples entry.1.samples h.benchVersion,
          row.2.createdAt ≤ entry.1.now - h.settings.settleLag →
          (h.settings.settleLag ≤ h.settings.firstLookback ∨
            ∀ first, h.calls.head? = some first → row ∈ first.samples) →
          ∃ examined ∈ before ++ [entry], row ∈ examined.2.rows) ∧
    (h.sweeps.Pairwise fun entry later => ∀ row ∈ entry.2.rows, ∀ row' ∈ later.2.rows, row.1 ≠ row'.1) ∧
    (∀ entry ∈ h.sweeps, (entry.2.rows.map Prod.fst).Nodup) ∧
    ((h.sweeps.map (·.2.run)).IsChain fun run next => next.watermarkFrom = run.watermarkTo) ∧
    (h.sweeps.Pairwise fun entry later => entry.2.run.watermarkTo ≤ later.2.run.watermarkFrom) ∧
    (∀ entry ∈ h.sweeps, entry.2.run.watermarkFrom ≤ entry.2.run.watermarkTo) := by
  refine ⟨h.ahead.imp Ahead.cursor_le, ?_, h.rows_disjoint, fun entry => h.rows_nodup, ?_, h.ahead.imp Ahead.to_le, ?_⟩
  · intro before entry after hsplit hdrained row hrow hle hpresent
    have hmem : entry ∈ h.sweeps := hsplit ▸ List.mem_append_right _ List.mem_cons_self
    obtain ⟨-, table, hswept⟩ := mem_sweeps hmem
    have hcount : entry.2.run.examinedCount = entry.2.rows.length := by
      rw [hswept]
      rfl
    exact h.covers hsplit (hcount ▸ hdrained) hrow hle hpresent
  · exact h.chain.imp fun _ _ hfollows => hfollows.from_eq
  · intro entry hentry
    obtain ⟨-, table, hswept⟩ := mem_sweeps hentry
    rw [hswept]
    exact watermarkFrom_le h.settings h.benchVersion table entry.1

/-! ## A history -/

/-- The table of the second call only grew since the first. -/
theorem quietCall_growsTo :
    GrowsTo 2 (quietCall 50 2 [10, 10, 10]) (quietCall 51 2 [10, 10, 10, 60]) := by
  have hrows : (quietCall 51 2 [10, 10, 10, 60]).samples = (quietCall 50 2 [10, 10, 10]).samples ++
      [(⟨.score, ⟨"agent", 16, "alice", 1⟩, 3⟩, ⟨"run", (), 60⟩)] := rfl
  constructor
  · intro key sample hget
    rw [hrows]
    refine Dict.get?_of_mem (by decide) (List.mem_append_left _ (Dict.mem_of_get? hget))
  · rintro key sample - hget hle
    have hmem := Dict.mem_of_get? hget
    rw [hrows, List.mem_append, List.mem_singleton] at hmem
    rcases hmem with hmem | hmem
    · exact Dict.get?_of_mem (by decide) hmem
    · obtain ⟨rfl, rfl⟩ := Prod.mk.inj hmem
      exact absurd hle (by decide)

/-- Two runs over three samples of one time and a later one, two to a batch. -/
def sampleHistory : SweepHistory Unit where
  settings := ⟨100, 2, true⟩
  fullHistory := rfl
  benchVersion := 16
  others := []
  others_version := by simp
  calls := [quietCall 50 2 [10, 10, 10], quietCall 51 2 [10, 10, 10, 60]]
  now_increasing := by simp [quietCall]
  batchLimit_pos := by simp [quietCall]
  keys_nodup := by simp only [List.mem_cons, List.not_mem_nil, or_false, forall_eq_or_imp, forall_eq]; decide
  append_only := by simpa using quietCall_growsTo

/-- The second run is drained: every sample up to its horizon was examined by one of the two, and none by both. -/
theorem outage_sweep_exactly_once_sample :
    (∀ row ∈ liveSamples (quietCall 51 2 [10, 10, 10, 60]).samples 16, row.2.createdAt ≤ 49 →
      ∃ examined ∈ sampleHistory.sweeps, row ∈ examined.2.rows) ∧
    sampleHistory.sweeps.Pairwise fun entry later => ∀ row ∈ entry.2.rows, ∀ row' ∈ later.2.rows, row.1 ≠ row'.1 := by
  obtain ⟨-, hcovers, hdisjoint, -⟩ := outage_sweep_exactly_once sampleHistory
  refine ⟨fun row hrow hle => ?_, hdisjoint⟩
  have hsplit : sampleHistory.sweeps = sampleHistory.sweeps.take 1 ++
      sampleHistory.sweeps.get ⟨1, by decide⟩ :: [] := rfl
  have hdrained : (sampleHistory.sweeps.get ⟨1, by decide⟩).2.run.examinedCount < 2 := by decide +kernel
  obtain ⟨examined, hexamined, hmem⟩ := hcovers _ _ _ hsplit hdrained row hrow hle (.inl (by decide))
  rw [← hsplit] at hexamined
  exact ⟨examined, hexamined, hmem⟩

end DittoSubnet.Platform

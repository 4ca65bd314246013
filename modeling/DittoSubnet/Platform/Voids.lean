import DittoSubnet.Kit.ReadCommitted

/-!
# Confirmation samples and voids

Confirmation scores are append-only. A void sets one stored sample aside and reopens its key: the re-run is stored at
the next generation, which is the number of voids on the key. Appends count the voids without a lock, voids lock a score
row that they do not change, and an insert that meets a stored key is dropped (a score) or aborts its transaction (a
void).

* `Code`, `program`: `append_confirmation_scores` and `void_confirmation_samples`, statement by statement.
* `outstandingVoidRerunDebts`: the replacement samples that a voided seed is still owed.
-/

namespace DittoSubnet.Platform

open Kit Kit.ReadCommitted

variable {F : Type}

/-! ## Tables -/

/-- `confirmation_scores` and `confirmation_score_voids`. -/
inductive SampleTable
  | score
  | void
  deriving DecidableEq

/-- One validator's result for one agent on one seed. -/
structure SampleKey where
  agentId : String
  benchVersion : ℕ
  validatorHotkey : String
  seed : ℤ
  deriving DecidableEq

/-- The unique key of both tables. -/
structure RowKey where
  table : SampleTable
  key : SampleKey
  voidGeneration : ℕ
  deriving DecidableEq

/-- What both tables record of a sample. -/
structure Sample (F : Type) where
  runId : String
  composite : F
  createdAt : ℤ

/-- The rows of both tables. -/
abbrev Samples (F : Type) := Dict RowKey (Sample F)

/-- The voids of a key, with their generations. -/
def voidsOn (samples : Samples F) (key : SampleKey) : List (ℕ × Sample F) :=
  (samples.filter fun row => row.1.table = .void ∧ row.1.key = key).map fun row => (row.1.voidGeneration, row.2)

/-- The score rows of a key that no void sets aside. -/
def notVoided (samples : Samples F) (key : SampleKey) : List (ℕ × Sample F) :=
  (samples.filter fun row => row.1.table = .score ∧ row.1.key = key ∧
    (Dict.get? samples ⟨.void, key, row.1.voidGeneration⟩).isNone = true).map fun row => (row.1.voidGeneration, row.2)

/-! ## Appending scores -/

structure ConfirmationSeedScore (F : Type) where
  agentId : String
  validatorHotkey : String
  seed : ℤ
  composite : F
  runId : String

structure AppendCall (F : Type) where
  rows : List (ConfirmationSeedScore F)
  benchVersion : ℕ
  createdAt : ℤ
  rerunSeeds : List ℤ

def ConfirmationSeedScore.key (row : ConfirmationSeedScore F) (benchVersion : ℕ) : SampleKey :=
  ⟨row.agentId, benchVersion, row.validatorHotkey, row.seed⟩

/-- A voided run, or a seed that is not re-run, is not stored on a voided key. -/
def AppendCall.refuses (call : AppendCall F) (samples : Samples F) (row : ConfirmationSeedScore F) : Prop :=
  (voidsOn samples (row.key call.benchVersion)).length ≠ 0 ∧
    (row.runId ∈ (voidsOn samples (row.key call.benchVersion)).map (fun void => void.2.runId) ∨
      row.seed ∉ call.rerunSeeds)

instance (call : AppendCall F) (samples : Samples F) (row : ConfirmationSeedScore F) :
    Decidable (call.refuses samples row) := inferInstanceAs (Decidable (_ ∧ (_ ∨ _)))

/-- The row that a result is stored as: its generation is the number of voids on the key. -/
def AppendCall.value (call : AppendCall F) (samples : Samples F) (row : ConfirmationSeedScore F) : RowKey × Sample F :=
  (⟨.score, row.key call.benchVersion, (voidsOn samples (row.key call.benchVersion)).length⟩,
    ⟨row.runId, row.composite, call.createdAt⟩)

/-- The rows that an append stores, given the voids it read. -/
def AppendCall.values (call : AppendCall F) (samples : Samples F) : List (RowKey × Sample F) :=
  (call.rows.filter fun row => ¬ call.refuses samples row).map (call.value samples)

/-! ## Voiding samples -/

def OUTAGE_FAILURE_CODES : List String := ["upstream_http_402", "upstream_http_429", "upstream_http_503"]
def MIN_OUTAGE_FAILED_CALLS : ℕ := 5
def OUTAGE_FAILED_CALLS : ℕ := 20

/-- Enough outage-class failures: twenty calls, or five that are a twentieth of the chat calls. -/
def outageEvidenceQualifies (chatRequests outageFailed : ℕ) : Bool :=
  if outageFailed < MIN_OUTAGE_FAILED_CALLS then false
  else if OUTAGE_FAILED_CALLS ≤ outageFailed then true
  else decide (0 < chatRequests ∧ chatRequests ≤ 20 * outageFailed)

/-- What the grant of a run shows. -/
structure RetestSampleInference where
  chatRequests : ℕ
  failureCodes : Dict String ℕ

def outageFailed (sample : Option RetestSampleInference) : ℕ :=
  match sample with
  | none => 0
  | some sample => ((sample.failureCodes.filter fun code => code.1 ∈ OUTAGE_FAILURE_CODES).map Prod.snd).sum

structure VoidRequest (F : Type) where
  agentId : String
  validatorHotkey : String
  seed : ℤ
  expectedRunId : String
  expectedComposite : F

inductive VoidDisposition
  | ready
  | applied
  | alreadyVoided
  | notFound
  | staleGuard
  | insufficientEvidence
  deriving DecidableEq

structure VoidOutcome (F : Type) where
  request : VoidRequest F
  disposition : VoidDisposition
  voidGeneration : Option ℕ

structure VoidCall (F : Type) where
  requests : List (VoidRequest F)
  benchVersion : ℕ
  now : ℤ
  apply : Bool

def VoidRequest.key (request : VoidRequest F) (benchVersion : ℕ) : SampleKey :=
  ⟨request.agentId, benchVersion, request.validatorHotkey, request.seed⟩

/-- The newest sample of a key that is not voided. -/
def voidTarget (samples : Samples F) (key : SampleKey) : Option (ℕ × Sample F) :=
  (sortOn (fun row => -(row.1 : ℤ)) (notVoided samples key)).head?

/-! ## Replacements owed -/

/-- When a validator's generation was stored or voided. -/
structure Stamp where
  validator : String
  generation : ℕ
  createdAt : ℤ
  deriving DecidableEq

/-- Replacement samples that a seed is still owed. -/
structure VoidRerunDebt where
  agentId : String
  benchVersion : ℕ
  seed : ℤ
  outstanding : ℤ
  rerunValidators : List String
  scoredValidators : List String
  oldestVoidAt : ℤ
  newestVoidAt : ℤ

/-- The rows of one table, by agent and seed. -/
def stampsBySeed (samples : Samples F) (table : SampleTable) (wanted : SampleKey → Bool) :
    Dict (String × ℤ) (List Stamp) :=
  groupOn ((samples.filter fun row => row.1.table = table ∧ wanted row.1.key = true).map fun row =>
    ((row.1.key.agentId, row.1.key.seed), ⟨row.1.key.validatorHotkey, row.1.voidGeneration, row.2.createdAt⟩))

/-- The voids whose next generation was not stored. -/
def unpaidVoids (group seedRows : List Stamp) : List Stamp :=
  group.filter fun void => ¬ ∃ row ∈ seedRows, row.validator = void.validator ∧ row.generation = void.generation + 1

/-- The first results that validators without a void stored since a time. -/
def freshReplacements (group seedRows : List Stamp) (oldest : ℤ) : List Stamp :=
  seedRows.filter fun row => row.validator ∉ group.map Stamp.validator ∧ row.generation = 0 ∧ oldest ≤ row.createdAt

/-- The debt of one agent and seed. -/
def seedDebt (benchVersion : ℕ) (agentSeed : String × ℤ) (group seedRows : List Stamp) : Option VoidRerunDebt :=
  match (unpaidVoids group seedRows).map Stamp.createdAt with
  | [] => none
  | first :: others =>
    let oldest := others.foldl min first
    let outstanding : ℤ := (unpaidVoids group seedRows).length - (freshReplacements group seedRows oldest).length
    if outstanding ≤ 0 then none
    else some {
      agentId := agentSeed.1, benchVersion, seed := agentSeed.2, outstanding
      rerunValidators := (unpaidVoids group seedRows).map Stamp.validator
      scoredValidators := seedRows.map Stamp.validator
      oldestVoidAt := oldest, newestVoidAt := others.foldl max first }

/-- Every voided seed of a scored or live agent whose replacement has not landed, oldest first. -/
def outstandingVoidRerunDebts (samples : Samples F) (scoredOrLive : String → Bool) (benchVersion : ℕ)
    (agentIds : Option (List String)) : List VoidRerunDebt :=
  let voids := stampsBySeed samples .void fun key => decide (key.benchVersion = benchVersion) &&
    scoredOrLive key.agentId && agentIds.all fun ids => decide (key.agentId ∈ ids)
  let rows := stampsBySeed samples .score fun key => decide (key.benchVersion = benchVersion) &&
    decide ((key.agentId, key.seed) ∈ Dict.keys voids)
  sortOn (fun debt => toLex (debt.oldestVoidAt, toLex (debt.agentId, debt.seed)))
    (voids.filterMap fun group => seedDebt benchVersion group.1 group.2 ((Dict.get? rows group.1).getD []))

/-! ## Statements -/

/-- Where a call is. -/
inductive Sampling (F : Type)
  | append (call : AppendCall F)
  | insert (call : AppendCall F) (values rest : List (RowKey × Sample F)) (inserted : ℕ)
  | void (call : VoidCall F) (requests : List (VoidRequest F)) (outcomes : List (VoidOutcome F))
  | missed (call : VoidCall F) (request : VoidRequest F) (requests : List (VoidRequest F))
      (outcomes : List (VoidOutcome F))
  | lockTarget (call : VoidCall F) (request : VoidRequest F) (requests : List (VoidRequest F))
      (outcomes : List (VoidOutcome F)) (generation : ℕ) (target : Sample F)
  | gate (call : VoidCall F) (request : VoidRequest F) (requests : List (VoidRequest F))
      (outcomes : List (VoidOutcome F)) (generation : ℕ) (target : Sample F)
  | flush (call : VoidCall F) (request : VoidRequest F) (requests : List (VoidRequest F))
      (outcomes : List (VoidOutcome F)) (generation : ℕ) (target : Sample F)

/-- A call at its first statement. -/
def Sampling.Fresh : Sampling F → Prop
  | .append _ => True
  | .void call requests outcomes => requests = call.requests ∧ outcomes = []
  | _ => False

variable [DecidableEq F]

/-- The next statement of a call; the input is what `retest_sample_inference` found. -/
def sampling (samples : Samples F) : Sampling F → Option RetestSampleInference →
    Effect RowKey RowKey (Sample F) (Sampling F)
  | .append call, _ => .read (.insert call (call.values samples) (call.values samples) 0)
  | .insert _ _ [] _, _ => .commit
  | .insert call values ((key, sample) :: rest) inserted, _ =>
    -- `ON CONFLICT DO NOTHING`
    if (Dict.get? samples key).isSome then .read (.insert call values rest inserted)
    else .insert key sample (.insert call values rest (inserted + 1))
  | .void _ [] _, _ => .commit
  | .void call (request :: requests) outcomes, _ =>
    match voidTarget samples (request.key call.benchVersion) with
    | none => .read (.missed call request requests outcomes)
    | some (generation, target) => .read (.lockTarget call request requests outcomes generation target)
  | .missed call request requests outcomes, _ =>
    let already := (voidsOn samples (request.key call.benchVersion)).any
      fun void => void.2.runId = request.expectedRunId
    .read (.void call requests
      (outcomes ++ [⟨request, if already then .alreadyVoided else .notFound, none⟩]))
  | .lockTarget call request requests outcomes generation target, _ =>
    -- the row may have been voided while its lock was awaited; it is not read again
    .lock ⟨.score, request.key call.benchVersion, generation⟩ (.gate call request requests outcomes generation target)
  | .gate call request requests outcomes generation target, sample =>
    if target.runId ≠ request.expectedRunId ∨ target.composite ≠ request.expectedComposite then
      .read (.void call requests (outcomes ++ [⟨request, .staleGuard, none⟩]))
    else if outageEvidenceQualifies (sample.elim 0 (·.chatRequests)) (outageFailed sample) = false then
      .read (.void call requests (outcomes ++ [⟨request, .insufficientEvidence, none⟩]))
    else if call.apply = false then
      .read (.void call requests (outcomes ++ [⟨request, .ready, some generation⟩]))
    else .read (.flush call request requests outcomes generation target)
  | .flush call request requests outcomes generation target, _ =>
    .insert ⟨.void, request.key call.benchVersion, generation⟩ ⟨target.runId, target.composite, call.now⟩
      (.void call requests (outcomes ++ [⟨request, .applied, some generation⟩]))

end DittoSubnet.Platform

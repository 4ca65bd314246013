import DittoSubnet.CodingOutbox.Store

/-!
# Sweeping, opening and runs of the outbox

A sweep, the recovery of a store from its files, and the outbox as a system: calls, sweeps, restarts of the process and
crashes of the machine in any order.
-/

namespace DittoSubnet.CodingOutbox

open Kit
open Coding (validSHA256)

/-- How an unlink of a record goes: done, failed, or done without a sync of the directory. -/
inductive Unlink where
  | done
  | failed
  | unsynced
  deriving DecidableEq, Repr

/-- How the steps of a sweep go. -/
structure SweepFaults where
  /-- The root is still the one that was opened. -/
  root : Bool
  /-- The attempts, staging files and objects at which the sweep finds itself cancelled. -/
  cancelled : String → Bool
  persist : String → Io
  unlink : String → Unlink
  /-- The staging files and objects whose unlink fails. -/
  stuck : String → Bool
  /-- The shards whose sync succeeds, and whether that of the staging directory does. -/
  shard : List Char → Bool
  staging : Bool
  /-- Whether the files can be counted. -/
  scan : Bool

/-- How the steps of `Open` go. -/
structure OpenFaults where
  /-- The attempts whose files can be read. -/
  read : String → Bool
  persist : String → Io
  scan : Bool

section System

variable (codec : Codec) (config : Config)

/-! ## References -/

def publicationReferences (publication : Option PublicationRecord) : List String :=
  match publication with
  | none => []
  | some publication =>
    publication.request.sha256 :: (publication.acknowledgement.map PublicationArtifact.sha256).toList

/-- The objects that a record refers to. -/
def Record.references (record : Record) : List String :=
  (record.transcript.map TranscriptArtifact.sha256).toList ++
    (record.frozen.map (·.artifact.frozenPatchSHA256)).toList ++
    publicationReferences record.authoringPublication ++ publicationReferences record.terminalPublication

def Store.references (store : Store) : List String := store.records.flatMap fun row => row.2.references

/-- The staging files that are being written. -/
def Store.activeStaging (store : Store) : List String :=
  store.records.filterMap fun row =>
    if row.2.writerNonce ≠ "" ∧ row.2.stagingName ≠ "" then some row.2.stagingName else none

/-! ## What is on the disk -/

def physicalLimit : Nat := config.maxAttempts * 8 + 1024

def boundedPhysicalSum (maximum current : Int) (size : Nat) : Int :=
  if maximum < current ∨ maximum - current < size then maximum + 1 else current + size

/-- The sizes of the files that no record accounts for. -/
def Store.orphans (store : Store) : List Nat :=
  ((store.files.staging.filter fun file => file.1 ∉ store.activeStaging).map fun file => file.2.size) ++
    (store.files.objects.files.filter fun file => file.1 ∉ store.references).map fun file => file.2.body.length

def Store.reconcilePhysical (store : Store) (scan : Bool) : Store × Except OutboxError Unit :=
  if !scan then (store, .error .corrupt)
  else if physicalLimit config < store.files.staging.length + store.files.objects.files.length then
    (store, .error .capacity)
  else
    ({ store with
        orphanBytes := store.orphans.foldl (boundedPhysicalSum config.maxTotalBytes) 0
        physicalKnown := true }, .ok ())

/-! ## Sweeping -/

/-- An attempt whose deadline has passed. -/
def Record.overdue (record : Record) (now : Int) : Prop :=
  (record.state = .reserved ∧ record.binding.deadline ≤ now) ∨
    (record.state = .collecting ∧ record.binding.deadline + config.finalizationGrace ≤ now)

instance (record : Record) (now : Int) : Decidable (record.overdue config now) := by
  unfold Record.overdue
  infer_instance

/-- A released or expired attempt that has been kept long enough. -/
def Record.retired (record : Record) (now : Int) : Prop :=
  (record.state = .released ∧ config.releasedRetention ≤ now - (ofUnix record.releasedAtUnix + second)) ∨
    (record.state = .expired ∧ config.expiredRetention ≤ now - (ofUnix record.expiredAtUnix + second))

instance (record : Record) (now : Int) : Decidable (record.retired config now) := by
  unfold Record.retired
  infer_instance

def Store.removeRecordFile (store : Store) (id : String) (unlink : Unlink) : Store × Except OutboxError Unit :=
  match store.files.records.get? id with
  | none => (store, .error .corrupt)
  | some _ =>
    let dropped := store.files.records.drop id
    match unlink with
    | .failed => (store, .error .io)
    | .unsynced => ({ store with files := { store.files with records := dropped } }, .error .io)
    | .done => ({ store with files := { store.files with records := dropped.sync fun _ => true } }, .ok ())

def Store.expireOverdue (store : Store) (id : String) (now : Int) (io : Io) : Store × Except OutboxError Unit :=
  match Dict.get? store.records id with
  | none => (store, .ok ())
  | some record =>
    if record.overdue config now then store.persistRecord codec (record.expire now) io else (store, .ok ())

def Store.deleteRetired (store : Store) (id : String) (now : Int) (unlink : Unlink) :
    Store × Except OutboxError Unit :=
  match Dict.get? store.records id with
  | none => (store, .ok ())
  | some record =>
    if record.retired config now then
      match store.removeRecordFile id unlink with
      | (next, .error e) => (next, .error e)
      | (next, .ok ()) =>
        ({ next with
            records := next.records.filter fun row => row.1 ≠ id
            reserved := next.reserved - record.reservedBytes }, .ok ())
    else (store, .ok ())

def Store.sweepRecords (now : Int) (faults : SweepFaults) : List String → Store → Store × Except OutboxError Unit
  | [], store => (store, .ok ())
  | id :: ids, store =>
    if faults.cancelled id then (store, .error .cancelled)
    else
      match store.expireOverdue codec config id now (faults.persist id) with
      | (next, .error e) => (next, .error e)
      | (next, .ok ()) =>
        match next.deleteRetired config id now (faults.unlink id) with
        | (last, .error e) => (last, .error e)
        | (last, .ok ()) => last.sweepRecords now faults ids

/-- What is left of the staging files, and whether the sweep got through them; `seen` files came before. -/
def sweepStagingFiles (active : List String) (now : Int) (faults : SweepFaults) :
    Nat → Dict String Staged → Dict String Staged × Except OutboxError Unit
  | _, [] => ([], .ok ())
  | seen, file :: files =>
    if physicalLimit config ≤ seen then (file :: files, .error .capacity)
    else if faults.cancelled file.1 then (file :: files, .error .cancelled)
    else if file.1 ∈ active ∨ now - file.2.modified < config.orphanGrace then
      let rest := sweepStagingFiles active now faults (seen + 1) files
      (file :: rest.1, rest.2)
    else if faults.stuck file.1 then (file :: files, .error .io)
    else sweepStagingFiles active now faults (seen + 1) files

def Store.sweepStaging (store : Store) (now : Int) (faults : SweepFaults) : Store × Except OutboxError Unit :=
  let swept := sweepStagingFiles config store.activeStaging now faults 0 store.files.staging
  ({ store with files := { store.files with staging := swept.1 } },
    if swept.2 = .ok () ∧ swept.1 ≠ store.files.staging ∧ faults.staging = false then .error .io else swept.2)

/-- One shard: how many files have been seen, whether it lost an object, the store, and whether the sweep got
through. -/
def Store.sweepShard (references : List String) (now : Int) (faults : SweepFaults) :
    Nat → Bool → List (String × Object) → Store → Nat × Bool × Store × Except OutboxError Unit
  | seen, deleted, [], store => (seen, deleted, store, .ok ())
  | seen, deleted, (digest, object) :: files, store =>
    if physicalLimit config ≤ seen then (seen, deleted, store, .error .capacity)
    else if faults.cancelled digest then (seen, deleted, store, .error .cancelled)
    else if digest ∈ references ∨ now - object.modified < config.orphanGrace then
      store.sweepShard references now faults (seen + 1) deleted files
    else if faults.stuck digest then (seen, deleted, store, .error .io)
    else
      Store.sweepShard references now faults (seen + 1) true files
        { store with files := { store.files with objects := store.files.objects.drop digest } }

/-- The objects of a shard. -/
def Files.shard (files : Files) (shard : List Char) : List (String × Object) :=
  files.objects.files.filter fun file => shardOf file.1 == shard

def Store.syncShard (store : Store) (shard : List Char) : Store :=
  { store with files := { store.files with objects := store.files.objects.sync fun digest => shardOf digest == shard } }

def Store.sweepShards (references : List String) (now : Int) (faults : SweepFaults) :
    Nat → List (List Char) → Store → Store × Except OutboxError Unit
  | _, [], store => (store, .ok ())
  | seen, shard :: shards, store =>
    match store.sweepShard config references now faults seen false (store.files.shard shard) with
    | (_, _, next, .error e) => (next, .error e)
    | (seen, false, next, .ok ()) => next.sweepShards references now faults seen shards
    | (seen, true, next, .ok ()) =>
      if faults.shard shard then (next.syncShard shard).sweepShards references now faults seen shards
      else (next, .error .io)

def Store.sweepObjects (store : Store) (now : Int) (faults : SweepFaults) : Store × Except OutboxError Unit :=
  store.sweepShards config store.references now faults 0 ((Dict.keys store.files.objects.files).map shardOf).dedup

/-- The files that no record accounts for, after the records themselves. -/
def Store.sweepFiles (store : Store) (now : Int) (faults : SweepFaults) : Store × Except OutboxError Unit :=
  match store.sweepStaging config now faults with
  | (next, .error e) => (next, .error e)
  | (next, .ok ()) =>
    match next.sweepObjects config now faults with
    | (last, .error e) => (last, .error e)
    | (last, .ok ()) => last.reconcilePhysical config faults.scan

def Store.Sweep (store : Store) (now : Int) (faults : SweepFaults) : Store × Except OutboxError Unit :=
  match store.checkOpenAndClock now faults.root with
  | (ticked, .error e) => (ticked, .error e)
  | (ticked, .ok ()) =>
    match Store.sweepRecords codec config now faults ((Dict.keys ticked.records).mergeSort (· ≤ ·))
        { ticked with physicalKnown := false } with
    | (next, .error e) => (next, .error e)
    | (next, .ok ()) => next.sweepFiles config now faults

/-! ## Opening -/

def Store.readPublicationArtifact (store : Store) (artifact : PublicationArtifact) (maximum : Nat) :
    Except OutboxError Bytes := do
  ensure (validatePublicationArtifactShape artifact maximum) .corrupt
  store.openObject codec artifact.sha256 artifact.sizeBytes

/-- Any disagreement of a stored publication is corruption. -/
def Store.verifyPublicationReference (store : Store) (record : Record) (publication : PublicationRecord) :
    Except OutboxError Unit := do
  let request ← store.readPublicationArtifact codec publication.request maximumPublicationRequestBytes
  ensure (validatePublicationRequest codec publication.stage record publication.authority request = .ok ()) .corrupt
  match publication.acknowledgement with
  | none => pure ()
  | some artifact => do
    let acknowledgement ← store.readPublicationArtifact codec artifact maximumPublicationAckBytes
    ensure (validatePublicationAcknowledgement codec publication.stage record publication.authority acknowledgement =
      .ok publication.remoteAuthorityID) .corrupt

def verifyOptional {α : Type} (value : Option α) (verify : α → Except OutboxError Unit) : Except OutboxError Unit :=
  match value with
  | none => .ok ()
  | some value => verify value

/-- The objects that a loaded record refers to. -/
def Store.verifyReferences (store : Store) (record : Record) : Except OutboxError Unit := do
  verifyOptional record.transcript fun transcript =>
    store.verifyReference codec transcript.objectKey transcript.sha256 transcript.sizeBytes
  verifyOptional record.frozen fun frozen =>
    store.verifyReference codec frozen.artifact.objectKey frozen.artifact.frozenPatchSHA256 frozen.artifact.sizeBytes
  verifyOptional record.authoringPublication (store.verifyPublicationReference codec record)
  verifyOptional record.terminalPublication (store.verifyPublicationReference codec record)

/-- A record whose attempt cannot be continued after a restart. -/
def Record.abandoned (record : Record) (now : Int) : Prop :=
  (record.state = .collecting ∧ record.transcript = none) ∨ record.overdue config now

instance (record : Record) (now : Int) : Decidable (record.abandoned config now) := by
  unfold Record.abandoned
  infer_instance

/-- The record as it is kept after a restart. -/
def Store.restored (store : Store) (record : Record) (now : Int) : Record :=
  if record.abandoned config now then store.stamp codec (record.expire now) else record

def Store.expireAbandoned (store : Store) (record : Record) (now : Int) (io : Io) : Store × Except OutboxError Unit :=
  if record.abandoned config now then store.persistRecord codec (record.expire now) io else (store, .ok ())

/-- A loaded record enters the store. -/
def Store.admitted (store : Store) (record : Record) : Store × Except OutboxError Unit :=
  if (store.records.any fun row => row.1 ≠ record.id && row.2.binding.purpose == record.binding.purpose &&
      row.2.binding.executionID == record.binding.executionID) = true then (store, .error .corrupt)
  else
    let next := { store with records := Dict.set store.records record.id record }
    if config.maxTotalBytes - next.reserved < record.reservedBytes then (next, .error .capacity)
    else ({ next with reserved := next.reserved + record.reservedBytes }, .ok ())

/-- What the loader demands of a record file before it looks at the objects. -/
def readRecord (id : String) (record : Record) (now : Int) (read : Bool) : Except OutboxError Unit := do
  ensure (validSHA256 id) .corrupt
  ensure (read = true ∧ codec.length record ≤ maximumRecordBytes) .corrupt
  validateRecord codec record id
  ensure (record.createdAtUnixNano ≤ now + 5 * minute ∧ record.updatedAtUnixNano ≤ now + 5 * minute ∧
    record.createdAtUnixNano ≤ now ∧ record.updatedAtUnixNano ≤ now) .clock

def Store.loadRecord (store : Store) (id : String) (record : Record) (now : Int) (faults : OpenFaults) :
    Store × Except OutboxError Unit :=
  match readRecord codec id record now (faults.read id) with
  | .error e => (store, .error e)
  | .ok () =>
    match store.expireAbandoned codec config record now (faults.persist id) with
    | (next, .error e) => (next, .error e)
    | (next, .ok ()) =>
      match next.verifyReferences codec (store.restored codec config record now) with
      | .error e => (next, .error e)
      | .ok () => next.admitted config (store.restored codec config record now)

def Store.loadRecords (now : Int) (faults : OpenFaults) :
    List (String × Record) → Store → Store × Except OutboxError Unit
  | [], store => (store, .ok ())
  | (id, record) :: files, store =>
    match store.loadRecord codec config id record now faults with
    | (next, .error e) => (next, .error e)
    | (next, .ok ()) => next.loadRecords now faults files

/-- A store that has loaded nothing yet. -/
def Files.fresh (files : Files) (now : Int) : Store := ⟨files, [], 0, 0, false, now, false, []⟩

def Files.Open (files : Files) (now : Int) (faults : OpenFaults) : Store × Except OutboxError Unit :=
  if ¬ config.Valid then (files.fresh now, .error .invalid)
  else if now = zeroTime then (files.fresh now, .error .clock)
  else if config.maxAttempts < files.records.files.length then (files.fresh now, .error .capacity)
  else
    match Store.loadRecords codec config now faults files.records.files (files.fresh now) with
    | (next, .error e) => (next, .error e)
    | (next, .ok ()) => next.reconcilePhysical config faults.scan

/-! ## Runs -/

/-- The outbox: its files, and the store of the process that has it open. -/
inductive System where
  | down (files : Files)
  | up (store : Store)
  deriving DecidableEq, Repr

def System.files : System → Files
  | .down files => files
  | .up store => store.files

/-- `stop` ends the process, whether it has closed the store or not; `crash` is of the machine. -/
inductive Event where
  | call (request : Request) (now : Int) (faults : Faults)
  | sweep (now : Int) (faults : SweepFaults)
  | close
  | stop
  | crash (files : Files)
  | open (now : Int) (faults : OpenFaults)

/-- Only one process has the outbox open. -/
def System.step (system : System) (event : Event) : System :=
  match system, event with
  | .up store, .call request now faults => .up (store.call codec config request now faults).1
  | .up store, .sweep now faults => .up (store.Sweep codec config now faults).1
  | .up store, .close => .up { store with closed := true }
  | .up store, .stop => .down store.files
  | _, .crash files => .down files
  | .up store, .open _ _ => .up store
  | .down files, .open now faults =>
    match files.Open codec config now faults with
    | (store, .ok ()) => .up store
    | (store, .error _) => .down store.files
  | .down files, .call _ _ _ | .down files, .sweep _ _ | .down files, .close | .down files, .stop => .down files

/-- A crash leaves of each file one of its versions. -/
def Event.possible (system : System) : Event → Prop
  | .crash files => system.files.Crashed files
  | .call _ _ _ | .sweep _ _ | .close | .stop | .open _ _ => True

/-- The outbox after a run. -/
def System.after (system : System) (events : List Event) : System := events.foldl (System.step codec config) system

/-- A run in which every event is possible and meets a condition where it happens. -/
def System.Runs (P : System → Event → Prop) : System → List Event → Prop
  | _, [] => True
  | system, event :: events =>
    event.possible system ∧ P system event ∧ (system.step codec config event).Runs P events

end System

end DittoSubnet.CodingOutbox

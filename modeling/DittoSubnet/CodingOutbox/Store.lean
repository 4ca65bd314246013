import DittoSubnet.CodingOutbox.Records
import DittoSubnet.Kit.Directory

/-!
# The evidence outbox

The store keeps a copy of every record file in memory. A call that changes an attempt first installs the object it
refers to, if there is one, and then renames the next version of the record over the last. What a call would do is
decided on the store as it is (`plan`); `perform` does it, and any of its file-system steps may fail. `Sweep` expires
overdue attempts, deletes records that are past their retention and then whatever no record refers to. `Open` reads the
record files back and checks each of them and the objects it names.

An object lies in a shard, a directory that the first install into it makes. The parent of the shards is synced in that
install only, so an object is lost in a crash with a shard whose own entry was never synced. The directories above the
shards are in place from the start.

What failed steps leave behind in staging enters as `debris`.
-/

namespace DittoSubnet.CodingOutbox

open Kit
open Coding (validSHA256 validIdentifier)

/-! ## Files -/

structure Object where
  body : Bytes
  modified : Int
  deriving DecidableEq, Repr

structure Staged where
  size : Nat
  modified : Int
  deriving DecidableEq, Repr

/-- A record file is named by its attempt and an object by its digest. -/
structure Files where
  records : Directory String Record
  shards : Directory (List Char) Unit
  objects : Directory String Object
  staging : Dict String Staged
  deriving DecidableEq, Repr

def Files.empty : Files := ⟨.empty, .empty, .empty, []⟩

/-- The directory that an object lies in. -/
def shardOf (digest : String) : List Char := digest.toList.take 2

/-- What a crash leaves: nothing is known of the staging files, and an object is lost with its shard. -/
structure Files.Crashed (files files' : Files) : Prop where
  records : files.records.Crashed files'.records
  shards : files.shards.Crashed files'.shards
  objects : files.objects.CrashedIn (fun digest => files'.shards.get? (shardOf digest) ≠ none) files'.objects

/-- How a rename into place goes. -/
inductive Io where
  | done
  /-- It fails before the rename. -/
  | failed
  /-- Renamed, but the check of the renamed file fails. -/
  | unverified
  /-- Renamed, but its directory is not synced. -/
  | unsynced
  /-- Renamed and synced, but the staging directory is not synced. -/
  | loose
  /-- All is synced, but the last check of the root fails. -/
  | late
  deriving DecidableEq, Repr

namespace Io

def moves : Io → Bool
  | failed => false
  | done | unverified | unsynced | loose | late => true

def syncs : Io → Bool
  | done | loose | late => true
  | failed | unverified | unsynced => false

/-- A directory is not synced: the store does not trust what it knows of the disk any more. -/
def forgets : Io → Bool
  | unsynced | loose => true
  | done | failed | unverified | late => false

def result : Io → Except OutboxError Unit
  | done => .ok ()
  | failed | unsynced | loose => .error .io
  | unverified | late => .error .corrupt

end Io

/-- How a directory is opened, and made where it is missing: done, failed, or made without a sync of its parent. -/
inductive Mkdir where
  | done
  | failed
  | unsynced
  deriving DecidableEq, Repr

/-- How an install goes: the opening of the shard, then the rename. -/
structure Install where
  shard : Mkdir
  rename : Io
  deriving DecidableEq, Repr

/-- The hex of sixteen random bytes. -/
structure Leaf where
  text : String
  hex : text.toList.length = 32 ∧ hexLeaf text = true

/-! ## The store -/

structure Config where
  maxTotalBytes : Int
  maxAttempts : Nat
  finalizationGrace : Int
  orphanGrace : Int
  releasedRetention : Int
  expiredRetention : Int
  deriving DecidableEq, Repr

def Config.Valid (config : Config) : Prop :=
  0 < config.maxTotalBytes ∧ config.maxTotalBytes ≤ maximumRootBytes ∧ 0 < config.maxAttempts ∧
    config.maxAttempts ≤ maximumAttempts ∧ minute ≤ config.finalizationGrace ∧
    config.finalizationGrace ≤ 15 * minute ∧ minute ≤ config.orphanGrace ∧ config.orphanGrace ≤ 7 * day ∧
    minute ≤ config.releasedRetention ∧ config.releasedRetention ≤ 365 * day ∧
    minute ≤ config.expiredRetention ∧ config.expiredRetention ≤ 365 * day ∧
    config.orphanGrace ≤ config.releasedRetention ∧ config.orphanGrace ≤ config.expiredRetention

instance (config : Config) : Decidable config.Valid := by
  unfold Config.Valid
  infer_instance

structure TranscriptIdentity where
  sha256 : String
  sizeBytes : Int
  events : Nat
  deriving DecidableEq, Repr

/-- A transcript writer. Its hash is the hash of the bytes it has written. -/
structure Writer where
  recordID : String
  nonce : String
  name : String
  body : Bytes
  events : Nat
  lineBytes : Nat
  invalid : Bool
  sealed : Bool
  installed : Bool
  committed : Option TranscriptArtifact
  abortDone : Bool
  abortErr : Option OutboxError
  closed : Bool
  deriving DecidableEq, Repr

structure Store where
  files : Files
  records : Dict String Record
  reserved : Int
  orphanBytes : Int
  physicalKnown : Bool
  lastNow : Int
  closed : Bool
  writers : List Writer
  deriving DecidableEq, Repr

inductive Answer where
  | attempt (id : String)
  | writer (index : Nat)
  | written (count : Nat)
  | transcript (artifact : TranscriptArtifact)
  | frozen (artifact : FrozenArtifact)
  | publication (artifact : PublicationArtifact)
  /-- The attempt's record, as the store then holds it. -/
  | record (id : String)
  | body (body : Bytes)
  | done
  deriving DecidableEq, Repr

inductive Request where
  | reserve (binding : Binding) (limits : Limits)
  | lookup (purpose : Purpose) (executionID : String)
  | beginTranscript (id : String)
  | write (writer : Nat) (body : Bytes)
  | commit (writer : Nat) (identity : TranscriptIdentity)
  | abort (writer : Nat)
  | storeFrozen (id : String) (submission : FrozenSubmission)
  | seal (id : String) (result : FreezeResult)
  | preparePublication (id : String) (stage : PublicationStage) (authority : PublicationAuthority) (body : Bytes)
  | acknowledgePublication (id : String) (stage : PublicationStage) (requestSHA256 : String) (body : Bytes)
  | openTranscript (id : String)
  | openPublicationPart (id : String) (stage : PublicationStage) (acknowledgement : Bool)
  | release (id : String) (terminalEvidenceSHA256 : String)
  deriving DecidableEq, Repr

/-- How the steps of one call go. -/
structure Faults where
  /-- The root is still the one that was opened. -/
  root : Bool
  leaf : Leaf
  nonce : Leaf
  /-- How many bytes of a write are accepted, when not all are. -/
  accepted : Option Nat
  /-- Whether a transcript file can be synced and sealed. -/
  sealing : Bool
  install : Install
  persist : Io
  debris : Dict String Staged

section Calls

variable (codec : Codec) (config : Config)

/-! ### Renames -/

/-- A record as it is written: its time and its checksum are set last. -/
def Store.stamp (store : Store) (record : Record) : Record :=
  let timed := { record with updatedAtUnixNano := store.lastNow }
  { timed with checksumSHA256 := recordChecksum codec timed }

def Store.persistRecord (store : Store) (record : Record) (io : Io) : Store × Except OutboxError Unit :=
  let stamped := store.stamp codec record
  if maximumRecordBytes < codec.length stamped then (store, .error .invalid)
  else if io.moves then
    let renamed := store.files.records.put record.id stamped
    ({ store with
        files := { store.files with records := if io.syncs then renamed.sync fun _ => true else renamed }
        records := Dict.set store.records record.id stamped
        physicalKnown := store.physicalKnown && !io.forgets }, io.result)
  else (store, io.result)

/-- The bytes of an object are those of its digest. -/
def verifyObject (object : Object) (digest : String) (size : Nat) : Bool :=
  object.body.length == size && codec.sha256 object.body == digest

def Files.syncShard (files : Files) (digest : String) : Files :=
  { files with objects := files.objects.sync fun other => shardOf other == shardOf digest }

/-- A staged file that was renamed or unlinked. -/
def Files.unstage (files : Files) (name : Option String) : Files :=
  { files with staging := files.staging.filter fun file => some file.1 ≠ name }

/-- Opens a shard. Its parent is synced by the call that makes it, and not by a later one that finds it there. -/
def Files.openOrCreateDirectory (files : Files) (shard : List Char) (mkdir : Mkdir) : Files × Except OutboxError Unit :=
  match files.shards.get? shard, mkdir with
  | some (), .done => (files, .ok ())
  | some (), .failed | some (), .unsynced | none, .failed => (files, .error .io)
  | none, .done => ({ files with shards := (files.shards.put shard ()).sync fun _ => true }, .ok ())
  | none, .unsynced => ({ files with shards := files.shards.put shard () }, .error .io)

/-- Renames staged bytes into the shard of their digest. An object that is already there must have the same bytes, and
is not replaced. -/
def Store.renameObject (store : Store) (stage : Option String) (object : Object) (digest : String) (io : Io) :
    Store × Except OutboxError Unit :=
  if io.moves then
    let files := match store.files.objects.get? digest with
      | some _ => store.files
      | none => { store.files with objects := store.files.objects.put digest object }
    if ((files.objects.get? digest).any fun present => verifyObject codec present digest object.body.length) = true then
      let synced := if io.syncs then files.syncShard digest else files
      ({ store with files := synced.unstage stage }, io.result)
    else ({ store with files := files }, .error .corrupt)
  else (store, io.result)

/-- Installs staged bytes under their digest. -/
def Store.installObject (store : Store) (stage : Option String) (object : Object) (digest : String)
    (install : Install) : Store × Except OutboxError Unit :=
  match store.files.openOrCreateDirectory (shardOf digest) install.shard with
  | (opened, .error e) => ({ store with files := opened }, .error e)
  | (opened, .ok ()) => Store.renameObject codec { store with files := opened } stage object digest install.rename

/-! ### Checks -/

def Store.checkOpenAndClock (store : Store) (now : Int) (root : Bool) : Store × Except OutboxError Unit :=
  if store.closed then (store, .error .closed)
  else if now = zeroTime ∨ now < store.lastNow then (store, .error .clock)
  else ({ store with lastNow := now }, if root then .ok () else .error .corrupt)

def Store.recordForAttempt (store : Store) (id : String) : Except OutboxError Record :=
  match Dict.get? store.records id with
  | none => .error .invalid
  | some record => .ok record

def Store.capacityHealthy (store : Store) : Prop :=
  store.physicalKnown = true ∧ store.reserved ≤ config.maxTotalBytes ∧
    store.orphanBytes ≤ config.maxTotalBytes - store.reserved

instance (store : Store) : Decidable (store.capacityHealthy config) := by
  unfold Store.capacityHealthy
  infer_instance

def Store.openObject (store : Store) (digest : String) (size : Nat) : Except OutboxError Bytes :=
  match store.files.objects.get? digest with
  | none => .error .corrupt
  | some object => do
    ensure (verifyObject codec object digest size = true) .corrupt
    pure object.body

def Store.verifyReference (store : Store) (key digest : String) (size : Nat) : Except OutboxError Unit := do
  ensure (key = objectKeyOf digest ∧ validSHA256 digest) .corrupt
  let _ ← store.openObject codec digest size

def Store.verifyPublicationArtifact (store : Store) (artifact : PublicationArtifact) (maximum : Nat) :
    Except OutboxError Unit := do
  ensure (validatePublicationArtifactShape artifact maximum) .corrupt
  store.verifyReference codec artifact.objectKey artifact.sha256 artifact.sizeBytes

/-! ### What a call would do -/

/-- An object to install, the next version of a record, what that reserves, and the answer once all is done. A plan that
`forgets` makes a failed rename of the record one after which the disk is not known. -/
structure Plan where
  object : Option (String × Object)
  record : Option Record
  reserved : Int
  forgets : Bool
  answer : Answer
  deriving DecidableEq, Repr

/-- A call that changes nothing. -/
def Plan.answered (answer : Answer) : Plan := ⟨none, none, 0, false, answer⟩

/-- A call that writes the next version of a record. -/
def Plan.persist (record : Record) (answer : Answer) : Plan := ⟨none, some record, 0, false, answer⟩

/-- The record of a new attempt. -/
def newRecord (binding : Binding) (limits : Limits) (now : Int) : Record where
  schema := recordSchema
  generation := 1
  id := bindingID codec binding
  binding := binding
  bindingSHA256 := codec.digest (.binding binding)
  limits := limits
  reservedBytes := reservationForPurpose binding.purpose limits
  state := .reserved
  writerNonce := ""
  stagingName := ""
  transcript := none
  frozen := none
  failure := none
  outcomeSHA256 := ""
  authoringPublication := none
  terminalPublication := none
  releaseEvidenceSHA256 := ""
  createdAtUnixNano := now
  updatedAtUnixNano := 0
  sealedAtUnix := 0
  releasedAtUnix := 0
  expiredAtUnix := 0
  checksumSHA256 := ""

/-- Reserved bytes and orphans, but at most the whole root. -/
def Store.used (store : Store) : Int :=
  if config.maxTotalBytes - store.reserved < store.orphanBytes then config.maxTotalBytes
  else store.reserved + store.orphanBytes

def Store.Reserve (store : Store) (binding : Binding) (limits : Limits) (now : Int) : Except OutboxError Plan :=
  let record := newRecord codec binding limits now
  match Dict.get? store.records record.id with
  | some existing => do
    ensure (existing.binding = binding ∧ existing.limits = limits ∧
      existing.reservedBytes = record.reservedBytes) .conflict
    pure (.answered (.attempt record.id))
  | none => do
    ensure (∀ row ∈ store.records, ¬ (row.2.binding.purpose = binding.purpose ∧
      row.2.binding.executionID = binding.executionID)) .conflict
    ensure (validateBindingFresh binding now) .invalid
    ensure (store.physicalKnown = true ∧ store.records.length < config.maxAttempts ∧
      record.reservedBytes ≤ config.maxTotalBytes - store.used config) .capacity
    pure { Plan.persist record (.attempt record.id) with reserved := record.reservedBytes }

def Store.Lookup (store : Store) (purpose : Purpose) (executionID : String) : Except OutboxError Plan :=
  match store.records.filter fun row =>
      row.2.binding.purpose = purpose ∧ row.2.binding.executionID = executionID with
  | [] => .error .invalid
  | [row] => .ok (.answered (.record row.1))
  | _ => .error .corrupt

/-- The record of an attempt whose transcript is being written. -/
def Record.collect (record : Record) (nonce name : String) : Record :=
  { record with generation := record.generation + 1, state := .collecting, writerNonce := nonce, stagingName := name }

def Store.beginRecord (store : Store) (id : String) (nonce name : String) (now : Int) : Except OutboxError Record := do
  let record ← store.recordForAttempt id
  ensure (record.state = .reserved ∧ record.transcript = none ∧ record.writerNonce = "" ∧
    now < record.binding.deadline) .state
  ensure (store.capacityHealthy config) .capacity
  pure (record.collect nonce name)

/-- The record of an attempt whose transcript is installed. -/
def Record.transcribed (record : Record) (artifact : TranscriptArtifact) : Record :=
  { record with generation := record.generation + 1, writerNonce := "", stagingName := "", transcript := some artifact }

def Store.commitRecord (store : Store) (writer : Writer) (artifact : TranscriptArtifact) (now : Int) :
    Except OutboxError Record :=
  match Dict.get? store.records writer.recordID with
  | none => .error .state
  | some record => do
    ensure (record.state = .collecting ∧ record.writerNonce = writer.nonce ∧ record.transcript = none) .state
    ensure (now < record.binding.deadline + config.finalizationGrace) .state
    pure (record.transcribed artifact)

/-- The record of an attempt whose frozen patch is stored. -/
def Record.freeze (record : Record) (submission : FrozenSubmission) (now : Int) : Record :=
  { record with
    generation := record.generation + 1
    frozen := some ⟨frozenArtifact submission, metadataFromSubmission submission⟩
    outcomeSHA256 := codec.digest (.outcome (.submission submission))
    state := .ready
    sealedAtUnix := unix now }

/-- What `StoreFrozen` and `Seal` demand of an attempt that is not sealed yet. -/
def Record.open (record : Record) (now : Int) : Except OutboxError Unit := do
  ensure (now < record.binding.deadline + config.finalizationGrace) .state
  ensure (record.state = .collecting ∧ record.writerNonce = "" ∧ record.transcript.isSome) .state

def Store.StoreFrozen (store : Store) (id : String) (submission : FrozenSubmission) (now : Int) :
    Except OutboxError Plan := do
  let record ← store.recordForAttempt id
  validateSubmissionForRecord codec submission record
  let artifact := frozenArtifact submission
  match record.frozen with
  | some frozen => do
    ensure (frozen.artifact = artifact ∧ frozen.metadata = metadataFromSubmission submission) .conflict
    store.verifyReference codec artifact.objectKey artifact.frozenPatchSHA256 artifact.sizeBytes
    pure (.answered (.frozen artifact))
  | none => do
    record.open config now
    ensure (store.capacityHealthy config) .capacity
    pure ⟨some (artifact.frozenPatchSHA256, ⟨submission.patch, now⟩), some (record.freeze codec submission now), 0,
      true, .frozen artifact⟩

/-- The record of an attempt that ends without a patch. -/
def Record.fail (record : Record) (failure : FreezeFailure) (now : Int) : Record :=
  { record with
    generation := record.generation + 1
    failure := some failure
    outcomeSHA256 := codec.digest (.outcome (.failure failure))
    state := .terminalWithoutPatch
    sealedAtUnix := unix now }

def Store.Seal (store : Store) (id : String) (result : FreezeResult) (now : Int) : Except OutboxError Plan := do
  let record ← store.recordForAttempt id
  if record.Sealed then do
    ensure (record.outcomeSHA256 = codec.digest (.outcome result)) .conflict
    pure (.answered (.record id))
  else do
    record.open config now
    match result with
    | .submission submission =>
      match record.frozen with
      | none => .error .conflict
      | some frozen => do
        ensure (validateSubmissionForRecord codec submission record = .ok () ∧
          frozen.artifact.frozenPatchSHA256 = submission.frozenPatchSHA256 ∧
          frozen.metadata = metadataFromSubmission submission) .conflict
        pure (.persist { record with
          generation := record.generation + 1
          outcomeSHA256 := codec.digest (.outcome result)
          state := .ready
          sealedAtUnix := unix now } (.record id))
    | .failure failure => do
      ensure (record.frozen = none ∧ validFailure failure ∧
        ∀ transcript ∈ record.transcript, failure.authoringTranscriptSHA256 = transcript.sha256 ∧
          failure.authoringTranscriptBytes = transcript.sizeBytes) .conflict
      pure (.persist (record.fail codec failure now) (.record id))

/-- A record with another publication at a stage. -/
def Record.withPublication (record : Record) (stage : PublicationStage) (publication : PublicationRecord) : Record :=
  match stage with
  | .authoringFreeze =>
    { record with generation := record.generation + 1, authoringPublication := some publication }
  | .terminalResult =>
    { record with generation := record.generation + 1, terminalPublication := some publication }

/-- Whether an attempt may prepare a publication at a stage. -/
def mayPrepare (record : Record) (stage : PublicationStage) (authority : PublicationAuthority) :
    Except OutboxError Unit :=
  match stage with
  | .authoringFreeze =>
    ensure (record.state = .ready ∧ record.frozen.isSome ∧ record.authoringPublication = none ∧
      record.terminalPublication = none) .state
  | .terminalResult => do
    ensure (record.terminalPublication = none ∧ (record.state = .ready ∨ record.state = .terminalWithoutPatch) ∧
      (record.state = .ready → acknowledged record.authoringPublication) ∧
      (record.state = .terminalWithoutPatch → record.authoringPublication = none)) .state
    ensure (∀ publication ∈ record.authoringPublication,
      samePublicationRunAuthority publication.authority authority) .conflict

def Store.preparePublication (store : Store) (id : String) (stage : PublicationStage)
    (authority : PublicationAuthority) (body : Bytes) (now : Int) : Except OutboxError Plan := do
  let record ← store.recordForAttempt id
  ensure (record.binding.purpose = .shadowAttempt ∧ validatePublicationAuthority authority) .invalid
  ensure (authority.runManifestSHA256 = record.binding.authoritySHA256) .conflict
  validatePublicationRequest codec stage record authority body
  let artifact := publicationArtifact codec body
  match publicationForStage record stage with
  | some existing => do
    ensure (existing.authority = authority ∧ existing.request = artifact) .conflict
    store.verifyPublicationArtifact codec existing.request maximumPublicationRequestBytes
    pure (.answered (.publication existing.request))
  | none => do
    ensure (now < record.binding.deadline) .state
    ensure (store.capacityHealthy config) .capacity
    mayPrepare record stage authority
    pure ⟨some (artifact.sha256, ⟨body, now⟩),
      some (record.withPublication stage ⟨stage, authority, artifact, none, "", "", unix now, 0⟩), 0, true,
      .publication artifact⟩

/-- A publication with its acknowledgement. -/
def PublicationRecord.acknowledge (publication : PublicationRecord) (artifact : PublicationArtifact)
    (requestSHA256 remoteID : String) (now : Int) : PublicationRecord :=
  { publication with
    acknowledgement := some artifact
    acknowledgedRequestSHA256 := requestSHA256
    remoteAuthorityID := remoteID
    acknowledgedAtUnix := unix now }

def Store.acknowledgePublication (store : Store) (id : String) (stage : PublicationStage) (requestSHA256 : String)
    (body : Bytes) (now : Int) : Except OutboxError Plan := do
  let record ← store.recordForAttempt id
  match publicationForStage record stage with
  | none => .error .state
  | some publication => do
    ensure (validSHA256 requestSHA256 ∧ requestSHA256 = publication.request.sha256) .conflict
    let remoteID ← validatePublicationAcknowledgement codec stage record publication.authority body
    let artifact := publicationArtifact codec body
    match publication.acknowledgement with
    | some existing => do
      ensure (existing = artifact ∧ publication.remoteAuthorityID = remoteID ∧
        publication.acknowledgedRequestSHA256 = requestSHA256) .conflict
      store.verifyPublicationArtifact codec artifact maximumPublicationAckBytes
      pure (.answered (.publication artifact))
    | none => do
      ensure (store.capacityHealthy config) .capacity
      pure ⟨some (artifact.sha256, ⟨body, now⟩),
        some (record.withPublication stage (publication.acknowledge artifact requestSHA256 remoteID now)), 0, true,
        .publication artifact⟩

def Store.OpenTranscript (store : Store) (id : String) : Except OutboxError Plan :=
  match (Dict.get? store.records id).bind Record.transcript with
  | none => .error .state
  | some transcript => do
    let body ← store.openObject codec transcript.sha256 transcript.sizeBytes
    pure (.answered (.body body))

/-- The stored request or acknowledgement of a publication. -/
def publicationPart (publication : PublicationRecord) (acknowledgement : Bool) : Option PublicationArtifact :=
  if acknowledgement then publication.acknowledgement else some publication.request

def Store.openPublicationPart (store : Store) (id : String) (stage : PublicationStage) (acknowledgement : Bool) :
    Except OutboxError Plan :=
  match ((Dict.get? store.records id).bind (publicationForStage · stage)).bind (publicationPart · acknowledgement) with
  | none => .error .state
  | some artifact => do
    let body ← store.openObject codec artifact.sha256 artifact.sizeBytes
    pure (.answered (.body body))

/-- The record of an attempt whose evidence need not be kept any more. -/
def Record.release (record : Record) (terminalEvidenceSHA256 : String) (now : Int) : Record :=
  { record with
    generation := record.generation + 1
    state := .released
    releaseEvidenceSHA256 := terminalEvidenceSHA256
    releasedAtUnix := unix now }

def Store.Release (store : Store) (id terminalEvidenceSHA256 : String) (now : Int) : Except OutboxError Plan := do
  let record ← store.recordForAttempt id
  if record.state = .released then do
    ensure (record.releaseEvidenceSHA256 = terminalEvidenceSHA256) .conflict
    pure (.answered .done)
  else do
    ensure (record.state = .ready ∨ record.state = .terminalWithoutPatch) .state
    ensure (record.binding.purpose = .shadowAttempt → acknowledged record.terminalPublication) .state
    ensure (record.binding.purpose = .shadowAttempt → ∀ publication ∈ record.terminalPublication,
      publication.authority.evidenceSHA256 = terminalEvidenceSHA256) .conflict
    pure (.persist (record.release terminalEvidenceSHA256 now) .done)

/-- What a call checks of its arguments before it looks at the store. -/
def Request.check : Request → Except OutboxError Unit
  | .reserve binding limits => do
    ensure (limits.Validate ∧ validateBindingShape binding) .invalid
    ensure (0 < reservationForPurpose binding.purpose limits ∧
      reservationForPurpose binding.purpose limits ≤ config.maxTotalBytes) .capacity
  | .lookup _ executionID => ensure (validIdentifier executionID 256) .invalid
  | .storeFrozen _ submission => ensure (submission.patch ≠ []) .invalid
  | .preparePublication _ _ _ body => ensure (body ≠ [] ∧ body.length ≤ maximumPublicationRequestBytes) .invalid
  | .acknowledgePublication _ _ _ body => ensure (body ≠ [] ∧ body.length ≤ maximumPublicationAckBytes) .invalid
  | .openTranscript id | .openPublicationPart id _ _ => ensure (validSHA256 id) .invalid
  | .release id evidence => ensure (validSHA256 id ∧ validSHA256 evidence) .invalid
  | .seal _ _ | .beginTranscript _ | .write _ _ | .commit _ _ | .abort _ => .ok ()

/-- What a call on the open store would do; the calls of writers and `BeginTranscript` are not planned. -/
def Store.plan (store : Store) (request : Request) (now : Int) : Except OutboxError Plan :=
  match request with
  | .reserve binding limits => store.Reserve codec config binding limits now
  | .lookup purpose executionID => store.Lookup purpose executionID
  | .storeFrozen id submission => store.StoreFrozen codec config id submission now
  | .seal id result => store.Seal codec config id result now
  | .preparePublication id stage authority body => store.preparePublication codec config id stage authority body now
  | .acknowledgePublication id stage requestSHA256 body =>
    store.acknowledgePublication codec config id stage requestSHA256 body now
  | .openTranscript id => store.OpenTranscript codec id
  | .openPublicationPart id stage acknowledgement => store.openPublicationPart codec id stage acknowledgement
  | .release id evidence => store.Release id evidence now
  | .beginTranscript _ | .write _ _ | .commit _ _ | .abort _ => .error .invalid

/-! ### Doing it -/

def Store.installPlanned (store : Store) (object : Option (String × Object)) (install : Install) :
    Store × Except OutboxError Unit :=
  match object with
  | none => (store, .ok ())
  | some (digest, object) => store.installObject codec none object digest install

/-- The rename of a planned record. -/
def Store.persistPlanned (store : Store) (plan : Plan) (io : Io) : Store × Except OutboxError Answer :=
  match plan.record with
  | none => (store, .ok plan.answer)
  | some record =>
    match store.persistRecord codec record io with
    | (next, .error e) => ({ next with physicalKnown := next.physicalKnown && !plan.forgets }, .error e)
    | (next, .ok ()) => ({ next with reserved := next.reserved + plan.reserved }, .ok plan.answer)

def Store.perform (store : Store) (plan : Plan) (faults : Faults) : Store × Except OutboxError Answer :=
  match store.installPlanned codec plan.object faults.install with
  | (next, .error e) => (next, .error e)
  | (next, .ok ()) => next.persistPlanned codec plan faults.persist

/-! ### Transcripts -/

/-- A new writer for an attempt. -/
def newWriter (id nonce name : String) : Writer :=
  ⟨id, nonce, name, [], 0, 0, false, false, false, none, false, none, false⟩

def Store.BeginTranscript (store : Store) (id : String) (now : Int) (faults : Faults) :
    Store × Except OutboxError Answer :=
  let name := transcriptPrefix ++ faults.leaf.text
  match store.beginRecord config id faults.nonce.text name now with
  | .error e => (store, .error e)
  | .ok record =>
    if name ∈ Dict.keys store.files.staging then (store, .error .io)
    else
      match store.persistRecord codec record faults.persist with
      | (next, .error e) => (next, .error e)
      | (next, .ok ()) =>
        ({ next with
            files := { next.files with staging := Dict.set next.files.staging name ⟨0, now⟩ }
            writers := next.writers ++ [newWriter id faults.nonce.text name] }, .ok (.writer next.writers.length))

/-- One written byte: a line feed ends an event. -/
def Writer.accept (writer : Writer) (byte : UInt8) : Writer :=
  if byte = 10 then
    { writer with
      body := writer.body ++ [byte]
      invalid := writer.invalid || writer.lineBytes == 0
      events := writer.events + 1
      lineBytes := 0 }
  else { writer with body := writer.body ++ [byte], lineBytes := writer.lineBytes + 1 }

/-- A staging file that was written to. -/
def Files.restage (files : Files) (name : String) (written : Staged) : Files :=
  { files with staging := Dict.mapRows (fun other file => if other = name then written else file) files.staging }

def Store.setWriter (store : Store) (index : Nat) (writer : Writer) : Store :=
  { store with writers := store.writers.set index writer }

def Store.Write (store : Store) (index : Nat) (body : Bytes) (now : Int) (faults : Faults) :
    Store × Except OutboxError Answer :=
  match store.writers[index]? with
  | none => (store, .error .invalid)
  | some writer =>
    if writer.closed ∨ writer.committed.isSome ∨ store.closed then (store, .error .state)
    else
      match Dict.get? store.records writer.recordID with
      | none => (store, .error .state)
      | some record =>
        if record.writerNonce ≠ writer.nonce then (store, .error .state)
        else if record.limits.maxTranscriptBytes - writer.body.length < body.length then (store, .error .capacity)
        else
          let accepted := body.take (faults.accepted.getD body.length)
          let next := accepted.foldl Writer.accept writer
          ({ store.setWriter index next with files := store.files.restage writer.name ⟨next.body.length, now⟩ },
            if faults.accepted.isSome then .error .io
            else if next.invalid then .error .invalid
            else .ok (.written accepted.length))

/-- Syncs and seals the staged transcript and installs it, or checks that it is still installed. -/
def Store.placeTranscript (store : Store) (index : Nat) (writer : Writer) (digest : String) (faults : Faults) :
    Store × Except OutboxError Unit :=
  if writer.installed then
    match store.openObject codec digest writer.body.length with
    | .error e => (store, .error e)
    | .ok _ => (store, .ok ())
  else if !writer.sealed && !faults.sealing then (store, .error .io)
  else
    let sealed := { writer with sealed := true, closed := true }
    let store := store.setWriter index sealed
    match Dict.get? store.files.staging writer.name with
    | none => (store, .error .corrupt)
    | some staged =>
      match store.installObject codec (some writer.name) ⟨writer.body, staged.modified⟩ digest faults.install with
      | (next, .error e) => (next, .error e)
      | (next, .ok ()) => (next.setWriter index { sealed with installed := true }, .ok ())

/-- The checks of `Commit` on the writer. -/
def Writer.identified (writer : Writer) (identity : TranscriptIdentity) : Prop :=
  writer.abortDone = false ∧ writer.invalid = false ∧ writer.lineBytes = 0 ∧ validSHA256 identity.sha256 ∧
    identity.sizeBytes = writer.body.length ∧ identity.events = writer.events ∧
    codec.sha256 writer.body = identity.sha256 ∧ (writer.body ≠ [] → writer.events ≠ 0)

instance (writer : Writer) (identity : TranscriptIdentity) : Decidable (writer.identified codec identity) := by
  unfold Writer.identified
  infer_instance

def Writer.artifact (writer : Writer) (identity : TranscriptIdentity) : TranscriptArtifact :=
  ⟨objectKeyOf identity.sha256, identity.sha256, writer.body.length, identity.events⟩

def Store.commitOpen (store : Store) (index : Nat) (writer : Writer) (identity : TranscriptIdentity) (now : Int)
    (faults : Faults) : Store × Except OutboxError Answer :=
  match store.commitRecord config writer (writer.artifact identity) now with
  | .error e => (store, .error e)
  | .ok record =>
    match store.placeTranscript codec index writer identity.sha256 faults with
    | (next, .error e) => (next, .error e)
    | (next, .ok ()) =>
      match next.persistRecord codec record faults.persist with
      | (last, .error e) => (last, .error e)
      | (last, .ok ()) =>
        ({ last with writers := last.writers.modify index fun writer =>
            { writer with committed := some (writer.artifact identity) } },
          .ok (.transcript (writer.artifact identity)))

def Store.Commit (store : Store) (index : Nat) (identity : TranscriptIdentity) (now : Int) (faults : Faults) :
    Store × Except OutboxError Answer :=
  match store.writers[index]? with
  | none => (store, .error .invalid)
  | some writer =>
    match writer.committed with
    | some artifact => (store, .ok (.transcript artifact))
    | none =>
      if writer.identified codec identity then
        match store.checkOpenAndClock now faults.root with
        | (ticked, .error e) => (ticked, .error e)
        | (ticked, .ok ()) => ticked.commitOpen codec config index writer identity now faults
      else (store, .error .invalid)

/-- The record of an attempt that is given up. -/
def Record.expire (record : Record) (now : Int) : Record :=
  { record with
    generation := record.generation + 1
    state := .expired
    writerNonce := ""
    stagingName := ""
    expiredAtUnix := unix now }

/-- `Abort` after the writer's file is closed. -/
def Store.abandon (store : Store) (index : Nat) (writer : Writer) (faults : Faults) :
    Store × Except OutboxError Answer :=
  let finished := { writer with abortDone := true }
  match Dict.get? store.records writer.recordID with
  | none => (store.setWriter index finished, .ok .done)
  | some record =>
    if record.writerNonce ≠ writer.nonce then (store.setWriter index finished, .ok .done)
    else
      match store.persistRecord codec (record.expire store.lastNow) faults.persist with
      | (next, .error e) => (next, .error e)
      | (next, .ok ()) => (next.setWriter index finished, .ok .done)

def Store.Abort (store : Store) (index : Nat) (faults : Faults) : Store × Except OutboxError Answer :=
  match store.writers[index]? with
  | none => (store, .error .invalid)
  | some writer =>
    if writer.committed.isSome then (store, .ok .done)
    else if writer.abortDone then (store, match writer.abortErr with | none => .ok .done | some e => .error e)
    else
      let writer := { writer with closed := true }
      if store.closed then
        (store.setWriter index { writer with abortDone := true, abortErr := some .closed }, .error .closed)
      else
        let files := if writer.installed then store.files else store.files.unstage (some writer.name)
        ({ store with files := files }.setWriter index writer).abandon codec index writer faults

/-! ### Calls -/

/-- What failed steps leave behind. -/
def Files.litter (files : Files) (debris : Dict String Staged) : Files :=
  { files with staging := debris.foldl (fun staging file => Dict.set staging file.1 file.2) files.staging }

/-- A call that is planned, on the open store. -/
def Store.planned (store : Store) (request : Request) (now : Int) (faults : Faults) :
    Store × Except OutboxError Answer :=
  match request.check config with
  | .error e => (store, .error e)
  | .ok () =>
    match store.checkOpenAndClock now faults.root with
    | (ticked, .error e) => (ticked, .error e)
    | (ticked, .ok ()) =>
      match ticked.plan codec config request now with
      | .error e => (ticked, .error e)
      | .ok plan => ticked.perform codec plan faults

def Store.BeginTranscriptChecked (store : Store) (id : String) (now : Int) (faults : Faults) :
    Store × Except OutboxError Answer :=
  match store.checkOpenAndClock now faults.root with
  | (ticked, .error e) => (ticked, .error e)
  | (ticked, .ok ()) => ticked.BeginTranscript codec config id now faults

def Store.answer (store : Store) (request : Request) (now : Int) (faults : Faults) :
    Store × Except OutboxError Answer :=
  match request with
  | .beginTranscript id => store.BeginTranscriptChecked codec config id now faults
  | .write writer body => store.Write writer body now faults
  | .commit writer identity => store.Commit codec config writer identity now faults
  | .abort writer => store.Abort codec writer faults
  | request => store.planned codec config request now faults

/-- One call. -/
def Store.call (store : Store) (request : Request) (now : Int) (faults : Faults) :
    Store × Except OutboxError Answer :=
  let result := store.answer codec config request now faults
  ({ result.1 with files := result.1.files.litter faults.debris }, result.2)

end Calls

end DittoSubnet.CodingOutbox

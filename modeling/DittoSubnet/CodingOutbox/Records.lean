import DittoSubnet.Coding.Receipts
import DittoSubnet.Kit.Utf8

/-!
# The records of the evidence outbox

An attempt has one record file. It names the attempt's signed binding and limits, the bytes reserved for it, its state,
and the stored objects that belong to it: the transcript, the frozen patch and the exact requests and acknowledgements
of its two publications. `validateRecord` is what the loader demands of a record before it is believed.

Instants count nanoseconds from the Unix epoch. The JSON of documents, its length and its digests enter as a `Codec`.
-/

namespace DittoSubnet.CodingOutbox

open Kit
open Coding (validSHA256 validIdentifier canonicalUUID isControl ModelEvidence)

abbrev Bytes := List UInt8

inductive OutboxError where
  | invalid
  | capacity
  | conflict
  | corrupt
  | state
  | closed
  | clock
  | io
  | cancelled
  deriving DecidableEq, Repr

def recordSchema : String := "dittobench-coding-evidence-outbox-v2"
def maximumRecordBytes : Nat := 4 * 2 ^ 20
def recordReserveBytes : Int := 2 * 4 * 2 ^ 20
def maximumPublicationRequestBytes : Nat := 4 * 2 ^ 20
def maximumPublicationAckBytes : Nat := 2 ^ 20
def publicationReserveBytes : Int := 2 * (4 * 2 ^ 20 + 2 ^ 20)
def maximumRootBytes : Int := 2 ^ 40
def maximumAttempts : Nat := 100000

/-! ## Clocks -/

def second : Int := 10 ^ 9
def minute : Int := 60 * second
def hour : Int := 60 * minute
def day : Int := 24 * hour

/-- `time.Time{}`. -/
def zeroTime : Int := -62135596800 * second

/-- `Time.Unix`. -/
def unix (instant : Int) : Int := instant / second

/-- `time.Unix`. -/
def ofUnix (seconds : Int) : Int := seconds * second

/-! ## Records -/

inductive Purpose where
  | certification
  | shadowAttempt
  deriving DecidableEq, Repr

inductive RecordState where
  | reserved
  | collecting
  | ready
  | terminalWithoutPatch
  | released
  | expired
  deriving DecidableEq, Repr

inductive PublicationStage where
  | authoringFreeze
  | terminalResult
  deriving DecidableEq, Repr

structure Binding where
  purpose : Purpose
  executionID : String
  agentArtifactSHA256 : String
  harnessInstanceID : String
  authoritySHA256 : String
  harnessAuthoritySHA256 : String
  screenedImageSHA256 : String
  ticketID : String
  caseID : String
  profileCapabilityID : String
  deadline : Int
  deriving DecidableEq, Repr

/-- `SignedLimits`, which are the runner's limits under JSON names. -/
structure Limits where
  maxBundleBytes : Int
  maxWorkspaceBytes : Int
  maxFileBytes : Int
  maxPatchBytes : Int
  maxEntries : Int
  maxToolCalls : Nat
  maxReadBytes : Int
  maxResponseBytes : Int
  maxSearchResults : Int
  maxReplayCacheBytes : Int
  maxTranscriptBytes : Int
  deriving DecidableEq, Repr

structure TranscriptArtifact where
  objectKey : String
  sha256 : String
  sizeBytes : Nat
  events : Nat
  deriving DecidableEq, Repr

structure FrozenArtifact where
  objectKey : String
  frozenPatchSHA256 : String
  sizeBytes : Nat
  finalTreeSHA256 : String
  changedPathRoot : String
  deriving DecidableEq, Repr

structure FrozenMetadata where
  codingContractVersion : Int
  caseID : String
  baseTreeSHA256 : String
  visibleBundleSHA256 : String
  finalTreeSHA256 : String
  frozenPatchSHA256 : String
  changedPathRoot : String
  authoringEventRoot : String
  authoringTranscriptSHA256 : String
  authoringTranscriptBytes : Int
  protectedPathsIntact : Bool
  deriving DecidableEq, Repr

structure FrozenRecord where
  artifact : FrozenArtifact
  metadata : FrozenMetadata
  deriving DecidableEq, Repr

structure FreezeFailure where
  kind : String
  code : String
  baseTreeSHA256 : String
  visibleBundleSHA256 : String
  finalTreeSHA256 : String
  changedPathRoot : String
  authoringEventRoot : String
  authoringTranscriptSHA256 : String
  authoringTranscriptBytes : Int
  protectedPathsIntact : Bool
  deriving DecidableEq, Repr

structure PublicationAuthority where
  agentID : String
  benchVersion : Int
  runRowID : String
  codingRunID : String
  screenedImageSHA256 : String
  runManifestSHA256 : String
  taskSetManifestSHA256 : String
  evidenceSHA256 : String
  deriving DecidableEq, Repr

structure PublicationArtifact where
  objectKey : String
  sha256 : String
  sizeBytes : Nat
  deriving DecidableEq, Repr

structure PublicationRecord where
  stage : PublicationStage
  authority : PublicationAuthority
  request : PublicationArtifact
  acknowledgement : Option PublicationArtifact
  acknowledgedRequestSHA256 : String
  remoteAuthorityID : String
  preparedAtUnix : Int
  acknowledgedAtUnix : Int
  deriving DecidableEq, Repr

structure Record where
  schema : String
  generation : Nat
  id : String
  binding : Binding
  bindingSHA256 : String
  limits : Limits
  reservedBytes : Int
  state : RecordState
  writerNonce : String
  stagingName : String
  transcript : Option TranscriptArtifact
  frozen : Option FrozenRecord
  failure : Option FreezeFailure
  outcomeSHA256 : String
  authoringPublication : Option PublicationRecord
  terminalPublication : Option PublicationRecord
  releaseEvidenceSHA256 : String
  createdAtUnixNano : Int
  updatedAtUnixNano : Int
  sealedAtUnix : Int
  releasedAtUnix : Int
  expiredAtUnix : Int
  checksumSHA256 : String
  deriving DecidableEq, Repr

structure FrozenChange where
  path : String
  kind : String
  mode : Nat
  beforeSHA256 : Option String
  afterSHA256 : Option String
  afterContent : Option Bytes
  deriving DecidableEq, Repr

structure FrozenSubmission where
  codingContractVersion : Int
  caseID : String
  baseTreeSHA256 : String
  visibleBundleSHA256 : String
  finalTreeSHA256 : String
  frozenPatchSHA256 : String
  changedPathRoot : String
  authoringEventRoot : String
  authoringTranscriptSHA256 : String
  authoringTranscriptBytes : Int
  changedPaths : Option (List String)
  changes : Option (List FrozenChange)
  patch : Bytes
  protectedPathsIntact : Bool
  deriving DecidableEq, Repr

/-- A `FreezeResult` with exactly one side. -/
inductive FreezeResult where
  | submission (submission : FrozenSubmission)
  | failure (failure : FreezeFailure)
  deriving DecidableEq, Repr

structure AuthoringEvidence where
  model : ModelEvidence
  authoringEventRoot : String
  authoringTranscriptSHA256 : String
  frozenPatchSHA256 : String
  changedPathRoot : String
  finalTreeSHA256 : String
  changedPathCount : Nat
  changedBytes : Nat
  deriving DecidableEq, Repr

/-- `evidence` is the decoded evidence document, when it decodes. -/
structure AuthoringFreezeRequest where
  validatorHotkey : String
  agentID : String
  benchVersion : Int
  runRowID : String
  ticketID : String
  ticketDeadline : Int
  codingRunID : String
  agentArtifactSHA256 : String
  screenedImageSHA256 : String
  runManifestSHA256 : String
  taskSetManifestSHA256 : String
  authoringEvidenceSHA256 : String
  authoringTranscriptObjectKey : String
  authoringTranscriptBytes : Int
  authoringEventCount : Nat
  frozenSubmissionObjectKey : String
  signature : String
  evidence : Option AuthoringEvidence
  deriving DecidableEq, Repr

structure TerminalResultRequest where
  validatorHotkey : String
  benchVersion : Int
  runRowID : String
  ticketID : String
  ticketDeadline : Int
  agentArtifactSHA256 : String
  screenedImageSHA256 : String
  runEvidenceSHA256 : String
  signature : String
  evidenceCodingRunID : String
  evidenceValidatorTicketID : String
  evidenceRunManifestSHA256 : String
  evidenceTaskSetManifestSHA256 : String
  deriving DecidableEq, Repr

structure AuthoringFreezeAcknowledgement where
  freezeID : String
  agentID : String
  runRowID : String
  ticketID : String
  codingRunID : String
  authoringEvidenceSHA256 : String
  frozenAt : Int
  accepted : Option Bool
  idempotent : Option Bool
  weightEligible : Option Bool
  deriving DecidableEq, Repr

structure TerminalResultAcknowledgement where
  agentID : String
  runRowID : String
  ticketID : String
  codingRunID : String
  accepted : Option Bool
  idempotent : Option Bool
  weightEligible : Option Bool
  deriving DecidableEq, Repr

/-- The documents whose JSON is hashed. A record is hashed without its checksum. -/
inductive Document where
  | bindingID (purpose : Purpose) (executionID ticketID caseID profileCapabilityID : String)
  | binding (binding : Binding)
  | record (record : Record)
  | outcome (result : FreezeResult)
  | paths (paths : List String)
  deriving DecidableEq, Repr

structure Codec where
  /-- SHA-256 in lower-case hex. -/
  sha256 : Bytes → String
  digest : Document → String
  sha256_valid : ∀ bytes, validSHA256 (sha256 bytes) = true
  digest_valid : ∀ document, validSHA256 (digest document) = true
  /-- The length of a record's JSON and its newline. -/
  length : Record → Nat
  length_pos : ∀ record, 0 < length record
  /-- The canonical JSON of a patch document. -/
  patch : String → Int → String → String → String → List FrozenChange → Bytes
  /-- `ValidateJSONDocument`. -/
  documentOk : Bytes → Nat → Bool
  /-- The decoders of `decodeRequiredPublication`: every required field is there and has its type. -/
  authoringRequest : Bytes → Option AuthoringFreezeRequest
  terminalRequest : Bytes → Option TerminalResultRequest
  authoringAcknowledgement : Bytes → Option AuthoringFreezeAcknowledgement
  terminalAcknowledgement : Bytes → Option TerminalResultAcknowledgement

/-! ## Limits and bindings -/

namespace Limits

def hardMaxBundleBytes : Int := 2 * 2 ^ 30
def hardMaxWorkspaceBytes : Int := 4 * 2 ^ 30
def hardMaxFileBytes : Int := 128 * 2 ^ 20
def hardMaxPatchBytes : Int := 128 * 2 ^ 20
def hardMaxEntries : Int := 200000
def hardMaxToolCalls : Nat := 1000
def hardMaxReadBytes : Int := 256 * 2 ^ 10
def hardMaxResponseBytes : Int := 2 * 2 ^ 20
def hardMaxSearchResults : Int := 1000
def hardMaxReplayCacheBytes : Int := 512 * 2 ^ 20
def hardMaxTranscriptBytes : Int := 512 * 2 ^ 20
def toolResponseEnvelopeBytes : Int := 2 * 2 ^ 10
def MaxToolRequestBytes : Int := 64 * 2 ^ 10

def Validate (limits : Limits) : Prop :=
  (0 < limits.maxBundleBytes ∧ limits.maxBundleBytes ≤ hardMaxBundleBytes ∧
    0 < limits.maxWorkspaceBytes ∧ limits.maxWorkspaceBytes ≤ hardMaxWorkspaceBytes ∧
    0 < limits.maxFileBytes ∧ limits.maxFileBytes ≤ hardMaxFileBytes ∧
    0 < limits.maxPatchBytes ∧ limits.maxPatchBytes ≤ hardMaxPatchBytes ∧
    0 < limits.maxEntries ∧ limits.maxEntries ≤ hardMaxEntries ∧
    0 < limits.maxToolCalls ∧ limits.maxToolCalls ≤ hardMaxToolCalls ∧
    0 < limits.maxReadBytes ∧ limits.maxReadBytes ≤ hardMaxReadBytes ∧
    4096 ≤ limits.maxResponseBytes ∧ limits.maxResponseBytes ≤ hardMaxResponseBytes ∧
    0 < limits.maxSearchResults ∧ limits.maxSearchResults ≤ hardMaxSearchResults ∧
    0 < limits.maxReplayCacheBytes ∧ limits.maxReplayCacheBytes ≤ hardMaxReplayCacheBytes ∧
    0 < limits.maxTranscriptBytes ∧ limits.maxTranscriptBytes ≤ hardMaxTranscriptBytes) ∧
  limits.maxFileBytes ≤ limits.maxWorkspaceBytes ∧ limits.maxPatchBytes ≤ limits.maxWorkspaceBytes ∧
  limits.maxReadBytes ≤ limits.maxResponseBytes - toolResponseEnvelopeBytes ∧
  (limits.maxToolCalls : Int) ≤ limits.maxReplayCacheBytes / limits.maxResponseBytes ∧
  (limits.maxToolCalls : Int) ≤
    limits.maxTranscriptBytes / (2 * MaxToolRequestBytes + limits.maxResponseBytes + 8192)

instance (limits : Limits) : Decidable limits.Validate := by
  unfold Validate
  infer_instance

end Limits

def reservationForLimits (limits : Limits) : Int :=
  limits.maxTranscriptBytes + limits.maxPatchBytes + recordReserveBytes

def reservationForPurpose (purpose : Purpose) (limits : Limits) : Int :=
  match purpose with
  | .shadowAttempt => reservationForLimits limits + publicationReserveBytes
  | .certification => reservationForLimits limits

def validateBindingShape (binding : Binding) : Prop :=
  (canonicalUUID binding.ticketID ∧ validIdentifier binding.executionID 256 ∧
    validSHA256 binding.agentArtifactSHA256 ∧ validIdentifier binding.harnessInstanceID 256 ∧
    validSHA256 binding.authoritySHA256 ∧ validIdentifier binding.caseID 256 ∧
    validIdentifier binding.profileCapabilityID 256 ∧ binding.deadline ≠ zeroTime) ∧
  match binding.purpose with
  | .shadowAttempt =>
    (binding.harnessAuthoritySHA256 = "" ∧ binding.screenedImageSHA256 = "") ∨
      (validSHA256 binding.harnessAuthoritySHA256 ∧ validSHA256 binding.screenedImageSHA256)
  | .certification => binding.harnessAuthoritySHA256 = "" ∧ binding.screenedImageSHA256 = ""

instance (binding : Binding) : Decidable (validateBindingShape binding) := by
  unfold validateBindingShape
  cases binding.purpose <;> infer_instance

def maximumBindingLifetime : Int := 2 * hour

def validateBindingFresh (binding : Binding) (now : Int) : Prop :=
  now < binding.deadline ∧ binding.deadline ≤ now + maximumBindingLifetime ∧
    (binding.purpose = .shadowAttempt →
      validSHA256 binding.harnessAuthoritySHA256 ∧ validSHA256 binding.screenedImageSHA256)

instance (binding : Binding) (now : Int) : Decidable (validateBindingFresh binding now) := by
  unfold validateBindingFresh
  infer_instance

def objectKeyOf (sha256 : String) : String := "sha256/" ++ sha256

/-! ## Submissions and failures -/

def validFailure (failure : FreezeFailure) : Prop :=
  failure.kind ∈ ["repair_failure", "candidate_integrity", "validator_infrastructure"] ∧
    validIdentifier failure.code 128 ∧ validSHA256 failure.baseTreeSHA256 ∧
    validSHA256 failure.visibleBundleSHA256 ∧ validSHA256 failure.finalTreeSHA256 ∧
    validSHA256 failure.changedPathRoot ∧ validSHA256 failure.authoringEventRoot ∧
    validSHA256 failure.authoringTranscriptSHA256 ∧ 0 ≤ failure.authoringTranscriptBytes

instance (failure : FreezeFailure) : Decidable (validFailure failure) := by
  unfold validFailure
  infer_instance

/-- A path is clean when no segment of it is one that `path.Clean` drops. -/
def safePath (path : String) : Bool :=
  path.utf8ByteSize ≤ 256 && path.toList.all (fun c => c != '\\' && !isControl c) &&
    (path.toList.splitOn '/').all fun part => !([[], ['.'], ['.', '.'], ['.', 'g', 'i', 't']].contains part)

/-- No bits outside the permissions, readable by its owner, and writable by nobody else. -/
def safeMode (mode : Nat) : Bool := mode < 512 && mode.testBit 8 && !mode.testBit 4 && !mode.testBit 1

section Checks

variable (codec : Codec)

def changeContent (change : FrozenChange) : Bytes := change.afterContent.getD []

def frozenTransitionOk (limits : Limits) (change : FrozenChange) : Bool :=
  safePath change.path && safeMode change.mode &&
  (if change.kind = "added" then
      change.beforeSHA256.isNone && change.afterSHA256.any validSHA256 &&
      decide ((changeContent change).length ≤ limits.maxFileBytes) && change.mode == 420 &&
      Utf8.valid (changeContent change)
    else if change.kind = "modified" then
      change.beforeSHA256.any validSHA256 && change.afterSHA256.any validSHA256 &&
      decide ((changeContent change).length ≤ limits.maxFileBytes) && Utf8.valid (changeContent change)
    else if change.kind = "deleted" then
      change.beforeSHA256.any validSHA256 && change.afterSHA256.isNone && change.afterContent.isNone
    else false) &&
  change.afterSHA256.all fun after => codec.sha256 (changeContent change) == after

/-- `validateFrozenSubmission`. The size of the contents is bounded as a whole. -/
def ValidateFrozenSubmission (submission : FrozenSubmission) (limits : Limits) : Prop :=
  (submission.codingContractVersion = 1 ∧ validIdentifier submission.caseID 256 ∧
    validSHA256 submission.visibleBundleSHA256 ∧ validSHA256 submission.baseTreeSHA256 ∧
    validSHA256 submission.finalTreeSHA256 ∧ validSHA256 submission.frozenPatchSHA256 ∧
    validSHA256 submission.changedPathRoot ∧ validSHA256 submission.authoringEventRoot ∧
    validSHA256 submission.authoringTranscriptSHA256 ∧ 0 ≤ submission.authoringTranscriptBytes ∧
    submission.authoringTranscriptBytes ≤ limits.maxTranscriptBytes ∧
    (submission.patch.length : Int) ≤ limits.maxPatchBytes ∧ submission.protectedPathsIntact = true) ∧
  match submission.changedPaths, submission.changes with
  | some paths, some changes =>
    paths.Pairwise (· ≤ ·) ∧ paths.Nodup ∧ (paths.length : Int) ≤ limits.maxEntries ∧
      changes.map FrozenChange.path = paths ∧ (∀ change ∈ changes, frozenTransitionOk codec limits change) ∧
      ((changes.map fun change => (changeContent change).length).sum : Int) ≤ limits.maxPatchBytes ∧
      codec.digest (.paths paths) = submission.changedPathRoot ∧
      let patch := codec.patch "dittobench-coding-frozen-patch-v1" 1 submission.caseID submission.baseTreeSHA256
        submission.visibleBundleSHA256 changes
      (patch.length : Int) ≤ limits.maxPatchBytes ∧ codec.sha256 patch = submission.frozenPatchSHA256 ∧
        (submission.patch = [] ∨ submission.patch = patch)
  | _, _ => False

instance (submission : FrozenSubmission) (limits : Limits) :
    Decidable (ValidateFrozenSubmission codec submission limits) := by
  unfold ValidateFrozenSubmission
  cases submission.changedPaths <;> cases submission.changes <;> infer_instance

/-- `validateSubmissionForRecord`. -/
def validateSubmissionForRecord (submission : FrozenSubmission) (record : Record) : Except OutboxError Unit :=
  match record.transcript with
  | none => .error .conflict
  | some transcript => do
    ensure (submission.caseID = record.binding.caseID ∧
      submission.authoringTranscriptSHA256 = transcript.sha256 ∧
      submission.authoringTranscriptBytes = transcript.sizeBytes) .conflict
    ensure (ValidateFrozenSubmission codec submission record.limits) .invalid

def metadataFromSubmission (submission : FrozenSubmission) : FrozenMetadata where
  codingContractVersion := submission.codingContractVersion
  caseID := submission.caseID
  baseTreeSHA256 := submission.baseTreeSHA256
  visibleBundleSHA256 := submission.visibleBundleSHA256
  finalTreeSHA256 := submission.finalTreeSHA256
  frozenPatchSHA256 := submission.frozenPatchSHA256
  changedPathRoot := submission.changedPathRoot
  authoringEventRoot := submission.authoringEventRoot
  authoringTranscriptSHA256 := submission.authoringTranscriptSHA256
  authoringTranscriptBytes := submission.authoringTranscriptBytes
  protectedPathsIntact := submission.protectedPathsIntact

/-- The artifact of a submission in `StoreFrozen`. -/
def frozenArtifact (submission : FrozenSubmission) : FrozenArtifact where
  objectKey := objectKeyOf submission.frozenPatchSHA256
  frozenPatchSHA256 := submission.frozenPatchSHA256
  sizeBytes := submission.patch.length
  finalTreeSHA256 := submission.finalTreeSHA256
  changedPathRoot := submission.changedPathRoot

/-! ## Publications -/

def publicationArtifact (body : Bytes) : PublicationArtifact :=
  ⟨objectKeyOf (codec.sha256 body), codec.sha256 body, body.length⟩

def validValidatorHotkey (value : String) : Bool :=
  (value.utf8ByteSize == 47 || value.utf8ByteSize == 48) &&
    value.toList.all fun c => c.isAlphanum && c.toNat < 128 && c != '0' && c != 'O' && c != 'I' && c != 'l'

def validSignature (value : String) : Bool :=
  value.toList.length == 128 && value.toList.all fun c =>
    ('0' ≤ c && c ≤ '9') || ('a' ≤ c && c ≤ 'f') || ('A' ≤ c && c ≤ 'F')

def validatePublicationAuthority (authority : PublicationAuthority) : Prop :=
  canonicalUUID authority.agentID ∧ canonicalUUID authority.runRowID ∧ 7 ≤ authority.benchVersion ∧
    authority.benchVersion ≤ 1000000 ∧ validIdentifier authority.codingRunID 256 ∧
    validSHA256 authority.screenedImageSHA256 ∧ validSHA256 authority.runManifestSHA256 ∧
    validSHA256 authority.taskSetManifestSHA256 ∧ validSHA256 authority.evidenceSHA256

instance (authority : PublicationAuthority) : Decidable (validatePublicationAuthority authority) := by
  unfold validatePublicationAuthority
  infer_instance

def AuthoringEvidence.Validate (evidence : AuthoringEvidence) : Prop :=
  evidence.model.Validate = .ok () ∧ validSHA256 evidence.authoringEventRoot ∧
    validSHA256 evidence.authoringTranscriptSHA256 ∧ validSHA256 evidence.frozenPatchSHA256 ∧
    validSHA256 evidence.changedPathRoot ∧ validSHA256 evidence.finalTreeSHA256 ∧
    evidence.changedPathCount ≤ 10000 ∧ evidence.changedBytes ≤ 2 ^ 30

instance (evidence : AuthoringEvidence) : Decidable evidence.Validate := by
  unfold AuthoringEvidence.Validate
  infer_instance

/-- The comparisons of an authoring-freeze request with the record and the authority. -/
def AuthoringFreezeRequest.Agrees (request : AuthoringFreezeRequest) (binding : Binding)
    (transcript : TranscriptArtifact) (frozen : FrozenRecord) (authority : PublicationAuthority)
    (evidence : AuthoringEvidence) : Prop :=
  validValidatorHotkey request.validatorHotkey ∧ validSignature request.signature ∧
    request.agentID = authority.agentID ∧ request.benchVersion = authority.benchVersion ∧
    request.runRowID = authority.runRowID ∧ request.ticketID = binding.ticketID ∧
    request.ticketDeadline = binding.deadline ∧ request.codingRunID = authority.codingRunID ∧
    request.agentArtifactSHA256 = binding.agentArtifactSHA256 ∧
    request.screenedImageSHA256 = authority.screenedImageSHA256 ∧
    request.runManifestSHA256 = authority.runManifestSHA256 ∧
    request.taskSetManifestSHA256 = authority.taskSetManifestSHA256 ∧
    request.authoringEvidenceSHA256 = authority.evidenceSHA256 ∧
    request.authoringTranscriptObjectKey = transcript.objectKey ∧
    request.authoringTranscriptBytes = transcript.sizeBytes ∧ request.authoringEventCount = transcript.events ∧
    request.frozenSubmissionObjectKey = frozen.artifact.objectKey ∧
    evidence.authoringTranscriptSHA256 = transcript.sha256 ∧
    evidence.frozenPatchSHA256 = frozen.artifact.frozenPatchSHA256

instance (request : AuthoringFreezeRequest) (binding : Binding) (transcript : TranscriptArtifact)
    (frozen : FrozenRecord) (authority : PublicationAuthority) (evidence : AuthoringEvidence) :
    Decidable (request.Agrees binding transcript frozen authority evidence) := by
  unfold AuthoringFreezeRequest.Agrees
  infer_instance

def TerminalResultRequest.Agrees (request : TerminalResultRequest) (binding : Binding)
    (authority : PublicationAuthority) : Prop :=
  validValidatorHotkey request.validatorHotkey ∧ validSignature request.signature ∧
    request.benchVersion = authority.benchVersion ∧ request.runRowID = authority.runRowID ∧
    request.ticketID = binding.ticketID ∧ request.ticketDeadline = binding.deadline ∧
    request.agentArtifactSHA256 = binding.agentArtifactSHA256 ∧
    request.screenedImageSHA256 = authority.screenedImageSHA256 ∧
    request.runEvidenceSHA256 = authority.evidenceSHA256 ∧
    request.evidenceCodingRunID = authority.codingRunID ∧
    request.evidenceValidatorTicketID = binding.ticketID ∧
    request.evidenceRunManifestSHA256 = authority.runManifestSHA256 ∧
    request.evidenceTaskSetManifestSHA256 = authority.taskSetManifestSHA256

instance (request : TerminalResultRequest) (binding : Binding) (authority : PublicationAuthority) :
    Decidable (request.Agrees binding authority) := by
  unfold TerminalResultRequest.Agrees
  infer_instance

def validatePublicationDocument (body : Bytes) (maximum : Nat) : Prop :=
  body ≠ [] ∧ body.length ≤ maximum ∧ codec.documentOk body maximum = true

instance (body : Bytes) (maximum : Nat) : Decidable (validatePublicationDocument codec body maximum) := by
  unfold validatePublicationDocument
  infer_instance

def validatePublicationRequest (stage : PublicationStage) (record : Record) (authority : PublicationAuthority)
    (body : Bytes) : Except OutboxError Unit := do
  ensure (validatePublicationDocument codec body maximumPublicationRequestBytes) .invalid
  match stage with
  | .authoringFreeze =>
    match record.transcript, record.frozen with
    | some transcript, some frozen =>
      match codec.authoringRequest body with
      | none => .error .invalid
      | some request =>
        match request.evidence with
        | none => .error .invalid
        | some evidence => do
          ensure evidence.Validate .invalid
          ensure (request.Agrees record.binding transcript frozen authority evidence) .conflict
    | _, _ => .error .state
  | .terminalResult =>
    match codec.terminalRequest body with
    | none => .error .invalid
    | some request => ensure (request.Agrees record.binding authority) .conflict

def acceptedShadowAcknowledgement (accepted idempotent weightEligible : Option Bool) : Bool :=
  accepted == some true && idempotent.isSome && weightEligible == some false

def AuthoringFreezeAcknowledgement.Agrees (acknowledgement : AuthoringFreezeAcknowledgement) (binding : Binding)
    (authority : PublicationAuthority) : Prop :=
  canonicalUUID acknowledgement.freezeID ∧ acknowledgement.agentID = authority.agentID ∧
    acknowledgement.runRowID = authority.runRowID ∧ acknowledgement.ticketID = binding.ticketID ∧
    acknowledgement.codingRunID = authority.codingRunID ∧
    acknowledgement.authoringEvidenceSHA256 = authority.evidenceSHA256 ∧
    acknowledgement.frozenAt ≠ zeroTime ∧ binding.deadline - maximumBindingLifetime ≤ acknowledgement.frozenAt ∧
    acknowledgement.frozenAt ≤ binding.deadline ∧
    acceptedShadowAcknowledgement acknowledgement.accepted acknowledgement.idempotent acknowledgement.weightEligible

instance (acknowledgement : AuthoringFreezeAcknowledgement) (binding : Binding) (authority : PublicationAuthority) :
    Decidable (acknowledgement.Agrees binding authority) := by
  unfold AuthoringFreezeAcknowledgement.Agrees
  infer_instance

def TerminalResultAcknowledgement.Agrees (acknowledgement : TerminalResultAcknowledgement) (binding : Binding)
    (authority : PublicationAuthority) : Prop :=
  acknowledgement.agentID = authority.agentID ∧ acknowledgement.runRowID = authority.runRowID ∧
    acknowledgement.ticketID = binding.ticketID ∧ acknowledgement.codingRunID = authority.codingRunID ∧
    acceptedShadowAcknowledgement acknowledgement.accepted acknowledgement.idempotent acknowledgement.weightEligible

instance (acknowledgement : TerminalResultAcknowledgement) (binding : Binding) (authority : PublicationAuthority) :
    Decidable (acknowledgement.Agrees binding authority) := by
  unfold TerminalResultAcknowledgement.Agrees
  infer_instance

/-- The remote authority that a stored or received acknowledgement names. -/
def validatePublicationAcknowledgement (stage : PublicationStage) (record : Record)
    (authority : PublicationAuthority) (body : Bytes) : Except OutboxError String := do
  ensure (validatePublicationDocument codec body maximumPublicationAckBytes) .invalid
  match stage with
  | .authoringFreeze =>
    match codec.authoringAcknowledgement body with
    | none => .error .invalid
    | some acknowledgement => do
      ensure (acknowledgement.Agrees record.binding authority) .conflict
      pure acknowledgement.freezeID
  | .terminalResult =>
    match codec.terminalAcknowledgement body with
    | none => .error .invalid
    | some acknowledgement => do
      ensure (acknowledgement.Agrees record.binding authority) .conflict
      pure acknowledgement.codingRunID

def publicationForStage (record : Record) : PublicationStage → Option PublicationRecord
  | .authoringFreeze => record.authoringPublication
  | .terminalResult => record.terminalPublication

def samePublicationRunAuthority (left right : PublicationAuthority) : Prop :=
  { left with evidenceSHA256 := "" } = { right with evidenceSHA256 := "" }

instance (left right : PublicationAuthority) : Decidable (samePublicationRunAuthority left right) := by
  unfold samePublicationRunAuthority
  infer_instance

def validatePublicationArtifactShape (artifact : PublicationArtifact) (maximum : Nat) : Prop :=
  artifact.objectKey = objectKeyOf artifact.sha256 ∧ validSHA256 artifact.sha256 ∧ 0 < artifact.sizeBytes ∧
    artifact.sizeBytes ≤ maximum

instance (artifact : PublicationArtifact) (maximum : Nat) :
    Decidable (validatePublicationArtifactShape artifact maximum) := by
  unfold validatePublicationArtifactShape
  infer_instance

def validAcknowledgementShape (publication : PublicationRecord) (requireRemoteUUID : Bool) : Prop :=
  match publication.acknowledgement with
  | none =>
    publication.acknowledgedRequestSHA256 = "" ∧ publication.remoteAuthorityID = "" ∧
      publication.acknowledgedAtUnix = 0
  | some acknowledgement =>
    validatePublicationArtifactShape acknowledgement maximumPublicationAckBytes ∧
      publication.preparedAtUnix ≤ publication.acknowledgedAtUnix ∧
      publication.acknowledgedRequestSHA256 = publication.request.sha256 ∧
      validIdentifier publication.remoteAuthorityID 256 ∧
      (requireRemoteUUID = true → canonicalUUID publication.remoteAuthorityID)

instance (publication : PublicationRecord) (requireRemoteUUID : Bool) :
    Decidable (validAcknowledgementShape publication requireRemoteUUID) := by
  unfold validAcknowledgementShape
  cases publication.acknowledgement <;> infer_instance

/-- What `validatePublicationRecords` checks of either publication. -/
def publicationShape (record : Record) (stage : PublicationStage) (publication : PublicationRecord) : Prop :=
  publication.stage = stage ∧ validatePublicationAuthority publication.authority ∧
    publication.authority.runManifestSHA256 = record.binding.authoritySHA256 ∧
    record.sealedAtUnix ≤ publication.preparedAtUnix ∧
    publication.preparedAtUnix ≤ unix record.updatedAtUnixNano ∧
    ofUnix publication.preparedAtUnix < record.binding.deadline ∧
    publication.acknowledgedAtUnix ≤ unix record.updatedAtUnixNano ∧
    validatePublicationArtifactShape publication.request maximumPublicationRequestBytes ∧
    validAcknowledgementShape publication (stage = .authoringFreeze)

instance (record : Record) (stage : PublicationStage) (publication : PublicationRecord) :
    Decidable (publicationShape record stage publication) := by
  unfold publicationShape
  infer_instance

def acknowledged (publication : Option PublicationRecord) : Prop :=
  ∃ p ∈ publication, p.acknowledgement.isSome

instance (publication : Option PublicationRecord) : Decidable (acknowledged publication) := by
  unfold acknowledged
  cases publication <;> simp only [Option.mem_def, reduceCtorEq, false_and, exists_false, Option.some.injEq,
    exists_eq_left'] <;> infer_instance

def validatePublicationRecords (record : Record) : Prop :=
  if record.state = .reserved ∨ record.state = .collecting ∨ record.state = .expired then
    record.authoringPublication = none ∧ record.terminalPublication = none
  else
    (record.binding.purpose = .certification →
      record.authoringPublication = none ∧ record.terminalPublication = none) ∧
    (∀ publication ∈ record.authoringPublication, record.frozen.isSome ∧ record.failure = none ∧
      publicationShape record .authoringFreeze publication) ∧
    (∀ publication ∈ record.terminalPublication, publicationShape record .terminalResult publication ∧
      (record.frozen.isSome → acknowledged record.authoringPublication) ∧
      (record.failure.isSome → record.authoringPublication = none)) ∧
    (∀ left ∈ record.authoringPublication, ∀ right ∈ record.terminalPublication,
      samePublicationRunAuthority left.authority right.authority) ∧
    (record.state = .released ∧ record.binding.purpose = .shadowAttempt →
      ∃ publication ∈ record.terminalPublication, publication.acknowledgement.isSome ∧
        record.releaseEvidenceSHA256 = publication.authority.evidenceSHA256 ∧
        publication.acknowledgedAtUnix ≤ record.releasedAtUnix)

instance (record : Record) : Decidable (validatePublicationRecords record) := by
  unfold validatePublicationRecords
  cases record.authoringPublication <;> cases record.terminalPublication <;>
    simp only [Option.mem_def, reduceCtorEq, false_and, exists_false, Option.some.injEq, exists_eq_left',
      forall_eq', IsEmpty.forall_iff, implies_true, and_true, true_and] <;> infer_instance

/-! ## What the loader demands -/

def bindingID (binding : Binding) : String :=
  codec.digest (.bindingID binding.purpose binding.executionID binding.ticketID binding.caseID
    binding.profileCapabilityID)

/-- The digest of a record without its checksum. -/
def recordChecksum (record : Record) : String := codec.digest (.record { record with checksumSHA256 := "" })

def knownFields (record : Record) (expectedID : String) : Prop :=
  record.schema = recordSchema ∧ record.generation ≠ 0 ∧ record.id = expectedID ∧
    validSHA256 record.bindingSHA256 ∧ validSHA256 record.checksumSHA256 ∧
    record.reservedBytes = reservationForPurpose record.binding.purpose record.limits ∧ 0 < record.reservedBytes ∧
    0 < record.createdAtUnixNano ∧ record.createdAtUnixNano ≤ record.updatedAtUnixNano

instance (record : Record) (expectedID : String) : Decidable (knownFields record expectedID) := by
  unfold knownFields
  infer_instance

def bindingAgrees (record : Record) (expectedID : String) : Prop :=
  bindingID codec record.binding = expectedID ∧
    codec.digest (.binding record.binding) = record.bindingSHA256 ∧ validateBindingShape record.binding ∧
    validateBindingFresh record.binding record.createdAtUnixNano

instance (record : Record) (expectedID : String) : Decidable (bindingAgrees codec record expectedID) := by
  unfold bindingAgrees
  infer_instance

def hexLeaf (value : String) : Bool := value.toList.all fun c => ('0' ≤ c && c ≤ '9') || ('a' ≤ c && c ≤ 'f')

def transcriptPrefix : String := "transcript-"

def validStagingName (value : String) : Bool :=
  transcriptPrefix.toList.isPrefixOf value.toList && value.toList.length == 11 + 32 &&
    (value.toList.drop 11).all fun c => ('0' ≤ c && c ≤ '9') || ('a' ≤ c && c ≤ 'f')

/-- Nobody writes the transcript. -/
def Record.noWriter (record : Record) : Prop := record.writerNonce = "" ∧ record.stagingName = ""

instance (record : Record) : Decidable record.noWriter := by
  unfold Record.noWriter
  infer_instance

/-- Which fields a record carries in each state. -/
def stateShape (record : Record) : Prop :=
  (record.writerNonce = "" → record.stagingName = "") ∧
  (match record.state with
    | .reserved =>
      record.noWriter ∧ record.transcript = none ∧ record.frozen = none ∧ record.failure = none ∧
        record.outcomeSHA256 = "" ∧ record.sealedAtUnix = 0
    | .collecting =>
      (record.writerNonce ≠ "" → validStagingName record.stagingName ∧ record.transcript = none) ∧
        (record.writerNonce = "" → record.transcript.isSome) ∧ record.frozen = none ∧ record.failure = none ∧
        record.outcomeSHA256 = "" ∧ record.sealedAtUnix = 0
    | .ready =>
      record.transcript.isSome ∧ record.frozen.isSome ∧ record.failure = none ∧ record.outcomeSHA256 ≠ "" ∧
        record.noWriter
    | .terminalWithoutPatch =>
      record.transcript.isSome ∧ record.frozen = none ∧ record.failure.isSome ∧ record.outcomeSHA256 ≠ "" ∧
        record.noWriter
    | .released =>
      validSHA256 record.releaseEvidenceSHA256 ∧ record.releasedAtUnix ≠ 0 ∧ record.transcript.isSome ∧
        record.outcomeSHA256 ≠ "" ∧ record.frozen.isNone = record.failure.isSome ∧ record.noWriter
    | .expired =>
      record.outcomeSHA256 = "" ∧ record.sealedAtUnix = 0 ∧ record.frozen = none ∧ record.failure = none ∧
        record.noWriter) ∧
  (record.state ≠ .released → record.releaseEvidenceSHA256 = "" ∧ record.releasedAtUnix = 0) ∧
  (record.state ≠ .expired → record.expiredAtUnix = 0)

instance (record : Record) : Decidable (stateShape record) := by
  unfold stateShape
  cases record.state <;> infer_instance

/-- A record whose outcome is fixed. -/
def Record.Sealed (record : Record) : Prop :=
  record.state = .ready ∨ record.state = .terminalWithoutPatch ∨ record.state = .released

instance (record : Record) : Decidable record.Sealed := by
  unfold Record.Sealed
  infer_instance

def timesAgree (record : Record) : Prop :=
  (record.Sealed → validSHA256 record.outcomeSHA256 ∧ unix record.createdAtUnixNano ≤ record.sealedAtUnix) ∧
    (record.state = .released → record.sealedAtUnix ≤ record.releasedAtUnix) ∧
    (record.state = .expired → unix record.createdAtUnixNano ≤ record.expiredAtUnix)

instance (record : Record) : Decidable (timesAgree record) := by
  unfold timesAgree
  infer_instance

def transcriptAgrees (record : Record) : Prop :=
  ∀ transcript ∈ record.transcript, transcript.objectKey = objectKeyOf transcript.sha256 ∧
    validSHA256 transcript.sha256 ∧ (transcript.sizeBytes : Int) ≤ record.limits.maxTranscriptBytes

instance (record : Record) : Decidable (transcriptAgrees record) := by
  unfold transcriptAgrees
  infer_instance

def frozenAgrees (record : Record) : Prop :=
  ∀ frozen ∈ record.frozen,
    frozen.artifact.objectKey = objectKeyOf frozen.artifact.frozenPatchSHA256 ∧
    validSHA256 frozen.artifact.frozenPatchSHA256 ∧ 0 < frozen.artifact.sizeBytes ∧
    (frozen.artifact.sizeBytes : Int) ≤ record.limits.maxPatchBytes ∧
    frozen.artifact.frozenPatchSHA256 = frozen.metadata.frozenPatchSHA256 ∧
    frozen.artifact.finalTreeSHA256 = frozen.metadata.finalTreeSHA256 ∧
    frozen.artifact.changedPathRoot = frozen.metadata.changedPathRoot ∧
    frozen.metadata.caseID = record.binding.caseID ∧ frozen.metadata.codingContractVersion = 1 ∧
    validSHA256 frozen.metadata.baseTreeSHA256 ∧ validSHA256 frozen.metadata.visibleBundleSHA256 ∧
    validSHA256 frozen.metadata.authoringEventRoot ∧ validSHA256 frozen.metadata.authoringTranscriptSHA256 ∧
    0 ≤ frozen.metadata.authoringTranscriptBytes ∧
    ∀ transcript ∈ record.transcript, frozen.metadata.authoringTranscriptSHA256 = transcript.sha256 ∧
      frozen.metadata.authoringTranscriptBytes = transcript.sizeBytes

instance (record : Record) : Decidable (frozenAgrees record) := by
  unfold frozenAgrees
  infer_instance

def failureAgrees (record : Record) : Prop :=
  ∀ failure ∈ record.failure, validFailure failure ∧ record.transcript.isSome ∧
    ∀ transcript ∈ record.transcript, failure.authoringTranscriptSHA256 = transcript.sha256 ∧
      failure.authoringTranscriptBytes = transcript.sizeBytes

instance (record : Record) : Decidable (failureAgrees record) := by
  unfold failureAgrees
  infer_instance

/-- `validateRecord`: every disagreement is corruption. -/
def validateRecord (record : Record) (expectedID : String) : Except OutboxError Unit := do
  ensure (knownFields record expectedID) .corrupt
  ensure record.limits.Validate .corrupt
  ensure (bindingAgrees codec record expectedID) .corrupt
  ensure (recordChecksum codec record = record.checksumSHA256) .corrupt
  ensure (stateShape record) .corrupt
  ensure (timesAgree record) .corrupt
  ensure (transcriptAgrees record) .corrupt
  ensure (frozenAgrees record) .corrupt
  ensure (failureAgrees record) .corrupt
  ensure (validatePublicationRecords record) .corrupt

end Checks

end DittoSubnet.CodingOutbox

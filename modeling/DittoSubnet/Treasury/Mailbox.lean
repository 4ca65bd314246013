import DittoSubnet.Treasury.Collector

/-!
# The manual mailbox

`ditto/treasury/manual_worker.py`: the consumer of the manual mailbox over one collector journal. A delivery is a
program whose statements (`Stage`) each read or write the journal, publish a report or acknowledge the message; between
any two of them other processes may call the collector, and the worker may crash (`act`). One message is delivered at a
time and any message may be delivered again.

The `manual_mailbox_refused` rows of the event table are kept in a list of their own (`Mailroom.refused`): no function
of the collector reads them. `Mailroom.log` records what leaves the worker, and which envelope bound its request id by
the commit of an arming or of a refusal.
-/

namespace DittoSubnet.Treasury

open Kit

/-! ## Messages -/

/-- A parsed message. The request of a batch carries its cold approval. -/
structure Envelope where
  collectorPolicyDigest : String
  destination : String
  request : ManualTransfer
  wire : (∀ v ∈ [request.afterOperation, request.sourceBlock, request.amountRao, request.retainedAlphaRao,
    request.expiresBlock], v ≤ 2 ^ 53 - 1) ∧ BucketPattern request.bucketId ∧ strip request.reason = request.reason
  deriving DecidableEq

/-- The request id of an envelope. -/
def Envelope.id (envelope : Envelope) : String := envelope.request.requestId

/-- The bytes of a message, as `parse_manual_envelope` reads them. -/
inductive Message
  | invalid
  | envelope (envelope : Envelope)
  deriving DecidableEq

/-- The payload of `manual_mailbox_refused`. -/
structure Refusal where
  requestId : String
  requestDigest : String
  policy : String
  deriving DecidableEq, Repr

/-! ## Reports -/

inductive ReportStatus
  | pending
  | finalized
  | failed
  | refused
  deriving DecidableEq, Repr

inductive FailureCode
  | signingWindowElapsed
  | expiredUnsigned
  deriving DecidableEq, Repr

/-- The epoch of one source of a batch. -/
structure ManualSourceEpoch where
  sourceBlock : ℕ
  epochIndex : ℕ
  deriving DecidableEq, Repr

structure ManualSettlement where
  epochIndex : ℕ
  block : ℕ
  blockHash : String
  extrinsicIndex : ℕ
  extrinsicHash : String
  sourceEpochs : List ManualSourceEpoch
  deriving DecidableEq, Repr

structure Report where
  collectorPolicyDigest : String
  observedAt : ℕ
  requestId : String
  requestDigest : String
  status : ReportStatus
  settlement : Option ManualSettlement
  failureCode : Option FailureCode
  deriving DecidableEq, Repr

/-- A report that ends its request. -/
def Report.Terminal (report : Report) : Prop := report.status ≠ .pending

instance (report : Report) : Decidable report.Terminal := inferInstanceAs (Decidable (_ ≠ _))

/-- `^0x[0-9a-f]{64}$`. -/
def HashPattern (value : String) : Prop :=
  value.toList.take 2 = "0x".toList ∧ (value.toList.drop 2).length = 64 ∧
    ∀ c ∈ value.toList.drop 2, c ∈ "0123456789abcdef".toList

instance (value : String) : Decidable (HashPattern value) := inferInstanceAs (Decidable (_ ∧ _))

/-- Why a query of the chain raises: an error that the export catches, or another one. -/
inductive QueryError
  | caught
  | other
  deriving DecidableEq, Repr

/-- The answers that a delivery gets during one statement. -/
structure MailboxChain where
  collector : CollectorChain
  blockHash : ℕ → Except QueryError (Option String)
  epochIndex : String → Except QueryError (Option ℕ)
  clock : ℕ

/-- The epoch of a source, which a settlement must name. -/
def sourceEpoch (chain : MailboxChain) (block : ℕ) : Except QueryError ManualSourceEpoch := do
  match ← chain.blockHash block with
  | none => throw .caught
  | some hash =>
    match ← chain.epochIndex hash with
    | none => throw .caught
    | some epoch => do
      ensure (epoch ≤ 2 ^ 53 - 1) .caught
      return ⟨block, epoch⟩

/-- The coordinates that the journal has saved, with the epochs of the sources. -/
def savedSettlement (chain : MailboxChain) (request : ManualTransfer) (saved : Option Settlement) (epoch : ℕ) :
    Except QueryError ManualSettlement := do
  let epochs ← ((request.batch.map (·.sources)).getD []).mapM fun claim => sourceEpoch chain claim.sourceBlock
  match saved with
  | some ⟨_, some block, some blockHash, _, _, some extrinsicIndex, some extrinsicHash⟩ => do
    ensure (epoch ≤ 2 ^ 53 - 1 ∧ 0 < block ∧ block ≤ 2 ^ 53 - 1 ∧ HashPattern blockHash ∧ HashPattern extrinsicHash)
      .caught
    return ⟨epoch, block, blockHash, extrinsicIndex, extrinsicHash, epochs⟩
  | _ => throw .caught

/-- The settlement of a finalized claim; none while it cannot be proved. -/
def exportSettlement (chain : MailboxChain) (request : ManualTransfer) (saved : Option Settlement) :
    Except QueryError (Option ManualSettlement) := do
  match ← chain.blockHash request.sourceBlock with
  | none => return none
  | some hash =>
    match ← chain.epochIndex hash with
    | none => return none
    | some epoch =>
      match savedSettlement chain request saved epoch with
      | .ok settlement => return some settlement
      | .error .caught => return none
      | .error .other => throw .other

/-! ## The worker -/

/-- The statement that a delivery is at. -/
inductive Stage
  | cached
  | pinned
  | expiry
  | expired (requestDigest : String)
  | arming
  | refusedIntent
  | recording
  | row
  | ticking
  | rearming
  | oldRow
  | rowAgain (result : Option TickStatus)
  | exporting (row : Option Operation) (result : Option TickStatus)
  | bound
  | refusing
  | publishing (report : Report) (acknowledge : Bool)

inductive Pc
  | idle
  | working (stage : Stage) (envelope : Envelope)
  | acking (message : Message)

/-- What leaves the worker, and the commits that bind a request id. -/
inductive LogEntry
  | bound (envelope : Envelope)
  | published (report : Report)
  | acked (message : Message)

structure Mailroom where
  journal : Journal
  refused : List Refusal
  pc : Pc
  log : List LogEntry

namespace Mailroom

/-- Goes on to another statement. -/
def goTo (room : Mailroom) (stage : Stage) (envelope : Envelope) : Mailroom :=
    { room with pc := .working stage envelope }

/-- An exception that nothing catches ends the delivery. -/
def raise (room : Mailroom) : Mailroom := { room with pc := .idle }

end Mailroom

/-- The messages of `ManualIntentRefused`. -/
def permanentRefusals : List String :=
  ["manual request requires enabled signed policy", "expired unsigned request cannot be rearmed",
    "manual idempotency key changed", "manual request requires current exact operation",
    "manual request expiry must be within one bounded day", "manual request bucket is not allocated",
    "manual request would consume retained stake", "manual amount exceeds remaining exact bucket entitlement",
    "manual approval differs from deployed exact pin", "manual amount exceeds cold-approved range",
    "manual bucket must have one signed destination", "aggregate source is immature or unapproved",
    "aggregate source receipt absent", "aggregate source entitlement exceeded"]

/-- The requests that are armed. -/
def armedIds (events : List Event) : List String := (events.filterMap Event.armed?).map (·.requestId)

/-- The first operation after a number; operations are numbered in insertion order. -/
def nextOperation (journal : Journal) (after : ℕ) : Option Operation :=
  journal.operations.find? fun op => after < op.id

section

variable (custody : Custody) (digest : Envelope → String)

/-- The envelope matches the signed custody pin. -/
def MatchesPin (envelope : Envelope) : Prop :=
  envelope.collectorPolicyDigest = custody.policy.digest ∧
    ∃ d ∈ custody.policy.destinations, d.bucketId = envelope.request.bucketId ∧ 0 < d.allocationBps ∧
      d.holdingColdkey = envelope.destination

instance (envelope : Envelope) : Decidable (MatchesPin custody envelope) := inferInstanceAs (Decidable (_ ∧ _))

/-- The cold approval of a batch verifies. -/
def Approved (envelope : Envelope) : Prop :=
  ∀ batch ∈ envelope.request.batch, (verifyApproval custody batch.manualApproval).isOk = true

instance (envelope : Envelope) : Decidable (Approved custody envelope) :=
  inferInstanceAs (Decidable (∀ batch ∈ envelope.request.batch, _))

/-- A report on the request of an envelope. -/
def reportOn (policyDigest : String) (envelope : Envelope) (observedAt : ℕ) (status : ReportStatus)
    (settlement : Option ManualSettlement) (failureCode : Option FailureCode) : Report :=
  ⟨policyDigest, observedAt, envelope.id, digest envelope, status, settlement, failureCode⟩

/-- Commits a refusal, and goes on to publish it under a policy digest. -/
def recordRefusal (room : Mailroom) (policyDigest : String) (envelope : Envelope) (clock : ℕ) : Mailroom :=
  { room with
    refused := room.refused ++ [⟨envelope.id, digest envelope, custody.policy.digest⟩]
    log := room.log ++ [.bound envelope]
    pc := .working (.publishing (reportOn digest policyDigest envelope clock .refused none none) true) envelope }

/-- The transaction of `arm_manual_transfer`, and the statement after it. -/
def arm (room : Mailroom) (chain : MailboxChain) (envelope : Envelope) (next : Stage) (failed : String → Mailroom) :
    Mailroom :=
  match armManualTransfer custody chain.collector envelope.request true room.journal with
  | .ok (journal, status) =>
    { room with
      journal := journal
      log := if status = .armed then room.log ++ [.bound envelope] else room.log
      pc := .working next envelope }
  | .error message => failed message

/-- The report of a claim that is armed. -/
def claimReport (chain : MailboxChain) (envelope : Envelope) (row : Option Operation) (result : Option TickStatus) :
    Except QueryError Report := do
  let finalized := (row.map (·.state)) = some .finalized
  let settlement ← if finalized then
      exportSettlement chain envelope.request (row.bind (·.settlement))
    else pure none
  let lost := row.map (·.state) = some .failed ∨ row.map (·.state) = some .expired ∨ result = some .manualExpired
  let status := if finalized ∧ settlement.isSome then .finalized else if lost then .failed else .pending
  return reportOn digest custody.policy.digest envelope chain.clock status settlement
    (if row = none ∧ result = some .manualExpired then some .signingWindowElapsed else none)

/-- One statement of a delivery. -/
def advance (chain : MailboxChain) (room : Mailroom) (stage : Stage) (envelope : Envelope) : Mailroom :=
  match stage with
  | .cached =>
    match room.refused.find? fun refusal => refusal.requestId = envelope.id with
    | some refusal =>
      if refusal.requestDigest ≠ digest envelope then room.goTo .bound envelope
      else room.goTo (.publishing (reportOn digest envelope.collectorPolicyDigest envelope chain.clock .refused none
        none)
        true) envelope
    | none => room.goTo .pinned envelope
  | .pinned =>
    if envelope.collectorPolicyDigest ≠ custody.policy.digest ∧
      envelope.id ∈ armedIds room.journal.events then room.raise
    else if ¬ MatchesPin custody envelope then room.goTo .bound envelope
    else if ¬ Approved custody envelope then room.goTo .bound envelope
    else room.goTo .expiry envelope
  | .expiry =>
    match (room.journal.events.filterMap Event.expiry?).find? fun expiry => expiry.requestId = envelope.id with
    | some expiry => room.goTo (.expired expiry.requestDigest) envelope
    | none => room.goTo .arming envelope
  | .expired requestDigest =>
    match manualTransferHistory custody room.journal with
    | .error _ => room.raise
    | .ok _ =>
      if requestDigest ≠ custody.requestDigest envelope.request then room.goTo .bound envelope
      else room.goTo (.publishing (reportOn digest custody.policy.digest envelope chain.clock .failed none
        (some .expiredUnsigned)) true) envelope
  | .arming =>
    arm custody room chain envelope .row fun message =>
      if message ∈ permanentRefusals then room.goTo .refusedIntent envelope else room.raise
  | .refusedIntent =>
    match armedEvent room.journal.events envelope.id with
    | some ((policy, saved), _) =>
      if ¬ (policy = custody.policy.digest ∧ saved = envelope.request) then room.goTo .bound envelope
      else room.goTo (.publishing (reportOn digest custody.policy.digest envelope chain.clock .pending none none) false)
        envelope
    | none => room.goTo .recording envelope
  | .recording => recordRefusal custody digest room custody.policy.digest envelope chain.clock
  | .row =>
    match nextOperation room.journal envelope.request.afterOperation with
    | none => room.goTo .ticking envelope
    | some row =>
      if row.state = .dispatching then room.goTo .ticking envelope else room.goTo (.exporting (some row) none) envelope
  | .ticking =>
    match tick custody chain.collector ⟨.transfer, none, some envelope.id⟩ room.journal with
    | .ok (journal, status, _) => { room with journal := journal, pc := .working (.rowAgain (some status)) envelope }
    | .error message =>
      if message = "manual execute request differs from current exact intent" then room.goTo .rearming envelope
      else room.raise
  | .rearming => arm custody room chain envelope .oldRow fun _ => room.raise
  | .oldRow =>
    if (nextOperation room.journal envelope.request.afterOperation).map (·.state) = some .finalized then
      room.goTo (.rowAgain none) envelope
    else room.raise
  | .rowAgain result =>
    room.goTo (.exporting (nextOperation room.journal envelope.request.afterOperation) result) envelope
  | .exporting row result =>
    match claimReport custody digest chain envelope row result with
    | .ok report => room.goTo (.publishing report (decide report.Terminal)) envelope
    | .error _ => room.raise
  | .bound =>
    if envelope.id ∈ armedIds room.journal.events ∨ ∃ refusal ∈ room.refused, refusal.requestId = envelope.id then
      { room with pc := .acking (.envelope envelope) }
    else room.goTo .refusing envelope
  | .refusing => recordRefusal custody digest room envelope.collectorPolicyDigest envelope chain.clock
  | .publishing report acknowledge =>
    { room with
      log := room.log ++ [.published report]
      pc := if acknowledge then .acking (.envelope envelope) else .idle }

/-! ## Runs -/

/-- A step of the worker, or of another process. -/
inductive Action
  | deliver (message : Message)
  | advance (chain : MailboxChain)
  | crash
  | call (chain : CollectorChain) (call : CollectorCall)

/-- A call that records a new intent. -/
def CollectorCall.isArming : CollectorCall → Bool
  | .armManualTransfer _ record => record
  | _ => false

/-- One step. The other processes call the collector, but arm nothing. -/
def act (room : Mailroom) : Action → Mailroom
  | .deliver message =>
    match room.pc with
    | .idle =>
      match message with
      | .invalid => { room with pc := .acking .invalid }
      | .envelope envelope => room.goTo .cached envelope
    | _ => room
  | .advance chain =>
    match room.pc with
    | .idle => room
    | .working stage envelope => advance custody digest chain room stage envelope
    | .acking message => { room with log := room.log ++ [.acked message], pc := .idle }
  | .crash => room.raise
  | .call chain call =>
    if call.isArming = true then room else { room with journal := step custody room.journal (chain, call) }

/-- A new journal and an idle worker. -/
def openMailroom : Mailroom := ⟨initialJournal custody .transfer, [], .idle, []⟩

/-- The mailroom after some steps. -/
def mailroomAfter (actions : List Action) : Mailroom := run (act custody digest) (openMailroom custody) actions

end

end DittoSubnet.Treasury

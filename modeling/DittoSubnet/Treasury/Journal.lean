import DittoSubnet.Treasury.Allocation

/-!
# The collector journal

The durable state of `ditto/treasury/collector.py`: one signer's operations, proved earnings, cursor and append-only
events, and what the collector reads out of them: the armed intents (`manualTransferHistory`), the transfer bound in
force (`transferCanary`), the transfers that draw on a receipt (`sourceOperations`) and what is left of it
(`remainingDistribution`).

An event is its kind with the fields of its payload. Digests and signatures are parameters of the custody
(`Custody`). The journal of a runtime migration is another journal: an intent of another policy is refused.
-/

namespace DittoSubnet.Treasury

open Kit

/-! ## Policy and requests -/

inductive Role
  | registration
  | transfer
  deriving DecidableEq, Repr

/-- The signed policy of a collector. -/
structure CollectorPolicy where
  digest : String
  collectorColdkey : String
  collectorHotkey : String
  startBlock : ℕ
  destinations : List ServiceDestination
  maxRegistrationBurnRao : ℕ
  registrationBudgetRao : ℕ
  maxFeeRao : ℕ
  feeReserveRao : ℕ
  recoveryCooldownBlocks : ℕ
  distributionIntervalBlocks : ℕ
  maxDistributionRao : ℕ
  enabled : Bool
  bounded : ∀ v ∈ [startBlock, maxRegistrationBurnRao, registrationBudgetRao, maxFeeRao, feeReserveRao,
    recoveryCooldownBlocks, distributionIntervalBlocks, maxDistributionRao], 0 < v ∧ v < 2 ^ 63
  reserve : maxFeeRao ≤ feeReserveRao
  destinations_valid : ValidDestinations collectorColdkey destinations

/-- A one-claim ceiling above a baseline of the journal. -/
structure TransferCanary where
  maxAlphaRao : ℕ
  afterOperation : ℕ
  maxAlphaRao_mem : 0 < maxAlphaRao ∧ maxAlphaRao < 2 ^ 63
  afterOperation_lt : afterOperation < 2 ^ 63
  deriving DecidableEq

/-- What a batch takes from one receipt. -/
structure ManualSourceClaim where
  sourceBlock : ℕ
  amountRao : ℕ
  deriving DecidableEq, Repr

/-- A cold approval of larger manual amounts. -/
structure ManualLimitApproval where
  collectorPolicyDigest : String
  collectorColdkey : String
  revision : ℕ
  maxAmountRao : ℕ
  signature : String
  revision_mem : 0 < revision ∧ revision ≤ 2 ^ 53 - 1
  maxAmountRao_mem : 0 < maxAmountRao ∧ maxAmountRao ≤ 2500000000000
  deriving DecidableEq

/-- The part of a batch intent that a single-source intent does not have. -/
structure ManualBatch where
  sources : List ManualSourceClaim
  manualApproval : ManualLimitApproval
  deriving DecidableEq

/-- The characters that `str.strip` drops. -/
def isSpace (c : Char) : Bool :=
  c.toNat ∈ [0x9, 0xa, 0xb, 0xc, 0xd, 0x1c, 0x1d, 0x1e, 0x1f, 0x20, 0x85, 0xa0, 0x1680, 0x2028, 0x2029, 0x202f, 0x205f,
    0x3000] || (0x2000 ≤ c.toNat && c.toNat ≤ 0x200a)

/-- `str.strip`. -/
def strip (s : String) : String :=
  String.ofList ((((s.toList.dropWhile isSpace).reverse.dropWhile isSpace)).reverse)

/-- The length of an operator's reason. -/
def BoundedReason (reason : String) : Prop := 8 ≤ (strip reason).length ∧ (strip reason).length ≤ 240

instance (reason : String) : Decidable (BoundedReason reason) := inferInstanceAs (Decidable (_ ∧ _))

/-- `str(UUID(value)) == value`. -/
def CanonicalUuid (value : String) : Prop :=
  value.toList.length = 36 ∧ ∀ ci ∈ value.toList.zipIdx,
    if ci.2 ∈ [8, 13, 18, 23] then ci.1 = '-' else ci.1 ∈ "0123456789abcdef".toList

instance (value : String) : Decidable (CanonicalUuid value) := inferInstanceAs (Decidable (_ ∧ _))

/-- `^[a-z][a-z0-9_]{1,47}$`. -/
def BucketPattern (bucketId : String) : Prop :=
  2 ≤ bucketId.toList.length ∧ bucketId.toList.length ≤ 48 ∧ (∀ c ∈ bucketId.toList.head?, 'a' ≤ c ∧ c ≤ 'z') ∧
    ∀ c ∈ bucketId.toList, ('a' ≤ c ∧ c ≤ 'z') ∨ ('0' ≤ c ∧ c ≤ '9') ∨ c = '_'

instance (bucketId : String) : Decidable (BucketPattern bucketId) := inferInstanceAs (Decidable (_ ∧ _))

/-- The sources of a batch are bounded, ordered, unique and conserve the amount. -/
structure ExactSources (sources : List ManualSourceClaim) (sourceBlock amountRao : ℕ) : Prop where
  count : sources.length ≤ 512
  positive : ∀ s ∈ sources, (0 < s.sourceBlock ∧ s.sourceBlock ≤ 2 ^ 53 - 1) ∧ 0 < s.amountRao ∧
    s.amountRao ≤ 2 ^ 53 - 1
  ordered : (sources.map (·.sourceBlock)).Pairwise (· < ·)
  first : (sources.map (·.sourceBlock)).head? = some sourceBlock
  conserved : (sources.map (·.amountRao)).sum = amountRao

/-- One operator intent; with a batch it is a `ManualBatchTransfer`, whose fields also pass the wire contract. -/
structure ManualTransfer where
  requestId : String
  afterOperation : ℕ
  sourceBlock : ℕ
  bucketId : String
  amountRao : ℕ
  retainedAlphaRao : ℕ
  expiresBlock : ℕ
  reason : String
  batch : Option ManualBatch
  canonical_uuid : CanonicalUuid requestId
  bounded : ∀ v ∈ [afterOperation, sourceBlock, amountRao, retainedAlphaRao, expiresBlock], 0 < v ∧ v < 2 ^ 63
  bucket_required : bucketId ≠ ""
  reason_bounded : BoundedReason reason
  wire : batch.isSome → (∀ v ∈ [afterOperation, sourceBlock, amountRao, retainedAlphaRao, expiresBlock],
    v ≤ 2 ^ 53 - 1) ∧ BucketPattern bucketId ∧ strip reason = reason
  exact_sources : ∀ b ∈ batch, ExactSources b.sources sourceBlock amountRao
  deriving DecidableEq

/-! ## Chain evidence -/

structure Observation where
  block : ℕ
  blockHash : String
  uid : Option ℕ
  burnRao : ℕ
  collectorFreeRao : ℕ
  delegateFreeRao : ℕ
  alphaRao : ℕ
  deriving DecidableEq, Repr

/-- The bytes of a signed transaction and its mortality. -/
structure SignedOperation where
  encoded : String
  extrinsicHash : String
  startBlock : ℕ
  expiresBlock : ℕ
  feeRao : ℕ
  deriving DecidableEq, Repr

structure FinalizedEarnings where
  amountRao : ℕ
  blockHash : String
  eventDigest : String
  deriving DecidableEq, Repr

inductive SettlementStatus
  | finalized
  | failed
  | expired
  | pending
  deriving DecidableEq, Repr

structure Settlement where
  status : SettlementStatus
  block : Option ℕ
  blockHash : Option String
  uid : Option ℕ
  scannedThrough : Option ℕ
  extrinsicIndex : Option ℕ
  extrinsicHash : Option String
  deriving DecidableEq, Repr

/-- The runtime call that an operation signs. -/
inductive Call
  | registerLimit (netuid : ℕ) (hotkey : String) (limitPrice : ℕ)
  | transferStake (destinationColdkey hotkey : String) (originNetuid destinationNetuid alphaAmount : ℕ)
  deriving DecidableEq, Repr

/-! ## Tables -/

inductive OperationState
  | dispatching
  | finalized
  | failed
  | expired
  deriving DecidableEq, Repr

structure Operation where
  id : ℕ
  state : OperationState
  role : Role
  amount : ℕ
  sourceBlock : Option ℕ
  bucket : Option String
  destination : Option String
  call : Call
  signed : SignedOperation
  atBlock : ℕ
  settlement : Option Settlement
  reconciledThrough : ℕ
  deriving DecidableEq, Repr

structure EarningsRow where
  block : ℕ
  amount : ℕ
  blockHash : String
  eventDigest : String
  completed : Bool
  deriving DecidableEq, Repr

/-- The receipt a row stores. -/
def EarningsRow.receipt (row : EarningsRow) : FinalizedEarnings := ⟨row.amount, row.blockHash, row.eventDigest⟩

/-- The replacement of a failed canary. -/
structure CanaryReplacement where
  policy : String
  canary : TransferCanary
  sourceBlock : ℕ
  proof : Settlement
  reason : String
  deriving DecidableEq

/-- The retirement of an intent that never reserved signed bytes. -/
structure UnsignedExpiry where
  policy : String
  requestId : String
  requestDigest : String
  afterOperation : ℕ
  finalizedBlock : ℕ
  finalizedBlockHash : String
  reason : String
  deriving DecidableEq, Repr

/-- What a canary claim reserved of a receipt. -/
structure CanaryReceipt where
  sourceBlock : ℕ
  sourceHash : String
  sourceEventDigest : String
  sourceAmount : ℕ
  bucket : String
  bucketRemainingBefore : ℕ
  canaryAmount : ℕ
  receiptRemainingAfter : ℕ
  deriving DecidableEq, Repr

inductive Event
  | transferCanaryArmed (policy : String) (canary : TransferCanary)
  | transferCanaryReplaced (replacement : CanaryReplacement)
  | manualTransferArmed (policy : String) (request : ManualTransfer)
  | manualUnsignedExpired (expiry : UnsignedExpiry)
  | dispatchReserved (hash policy : String) (role : Role)
  | settlement (operation : ℕ) (result : Settlement)
  | collectorUidRebound (result : Settlement)
  | emissionAttributed (block : ℕ) (policy : String) (earned : FinalizedEarnings)
  | distributionComplete (sourceBlock amount : ℕ)
  | canaryReceiptReserved (receipt : CanaryReceipt)
  | manualSourceProbed (policy : String) (block : ℕ)
  deriving DecidableEq

/-- The tables of one signer's database. Events are numbered from 1 in insertion order. -/
structure Journal where
  pin : String × Role
  cursor : ℕ
  earnings : List EarningsRow
  operations : List Operation
  events : List Event
  deriving DecidableEq

/-- The policy, the digest of an intent and the check of a cold signature. -/
structure Custody where
  policy : CollectorPolicy
  requestDigest : ManualTransfer → String
  verifySignature : ManualLimitApproval → Bool

/-- A new journal. -/
def initialJournal (custody : Custody) (role : Role) : Journal where
  pin := (custody.policy.digest, role)
  cursor := custody.policy.startBlock - 1
  earnings := []
  operations := []
  events := []

namespace Journal

/-- `journal.event`. -/
def event (journal : Journal) (e : Event) : Journal := { journal with events := journal.events ++ [e] }

/-- `COALESCE(MAX(id), 0)` of the operations. -/
def maximum (journal : Journal) : ℕ := (journal.operations.map (·.id)).foldl max 0

/-- The operation with an id. -/
def operation? (journal : Journal) (id : ℕ) : Option Operation := journal.operations.find? fun op => op.id = id

/-- The unresolved operation. -/
def dispatching? (journal : Journal) : Option Operation :=
  journal.operations.find? fun op => op.state = .dispatching

/-- The receipt of a block. -/
def earning? (journal : Journal) (block : ℕ) : Option EarningsRow := journal.earnings.find? fun row => row.block = block

/-- The open receipt of a block. -/
def openEarning? (journal : Journal) (block : ℕ) : Option EarningsRow :=
  journal.earnings.find? fun row => row.block = block ∧ row.completed = false

@[simp] theorem event_pin (journal : Journal) (e : Event) : (journal.event e).pin = journal.pin := rfl
@[simp] theorem event_cursor (journal : Journal) (e : Event) : (journal.event e).cursor = journal.cursor := rfl
@[simp] theorem event_earnings (journal : Journal) (e : Event) : (journal.event e).earnings = journal.earnings := rfl
@[simp] theorem event_operations (journal : Journal) (e : Event) :
    (journal.event e).operations = journal.operations := rfl
@[simp] theorem event_events (journal : Journal) (e : Event) : (journal.event e).events = journal.events ++ [e] := rfl

end Journal

/-! ## Events read back -/

def Event.replacement? : Event → Option CanaryReplacement
  | .transferCanaryReplaced replacement => some replacement
  | _ => none

def Event.armed? : Event → Option ManualTransfer
  | .manualTransferArmed _ request => some request
  | _ => none

def Event.expiry? : Event → Option UnsignedExpiry
  | .manualUnsignedExpired expiry => some expiry
  | _ => none

def Event.isDispatchReserved : Event → Bool
  | .dispatchReserved _ _ _ => true
  | _ => false

/-- The requests retired without a signature. -/
def expiredIds (events : List Event) : List String := (events.filterMap Event.expiry?).map (·.requestId)

/-- The armed intents that are not retired, in order. -/
def liveIntents (events : List Event) : List ManualTransfer :=
  (events.filterMap Event.armed?).filter fun r => r.requestId ∉ expiredIds events

/-! ## The manual history -/

/-- `ManualLimitApproval.verify`. -/
def verifyApproval (custody : Custody) (approval : ManualLimitApproval) : Except String Unit :=
  ensure (approval.collectorPolicyDigest = custody.policy.digest ∧
    approval.collectorColdkey = custody.policy.collectorColdkey ∧ custody.verifySignature approval = true)
    "manual limit lacks exact collector cold approval"

/-- The largest amount of an intent. -/
def manualMaximum (custody : Custody) (request : ManualTransfer) : Except String ℕ :=
  match request.batch with
  | some batch => do
    verifyApproval custody batch.manualApproval
    pure batch.manualApproval.maxAmountRao
  | none => pure custody.policy.maxDistributionRao

/-- The loop of `manual_transfer_history`. -/
structure HistoryState where
  requests : List ManualTransfer
  expired : List (UnsignedExpiry × ℕ)
  ids : List String
  previous : ℕ
  previousExpired : Bool
  closedBefore : ℕ

/-- One armed intent, with the number of its event. -/
def historyStep (custody : Custody) (events : List (Event × ℕ)) (state : HistoryState)
    (record : (String × ManualTransfer) × ℕ) : Except String HistoryState := do
  let ((digest, request), eventId) := record
  ensure (state.closedBefore < eventId) "manual intent advanced before unsigned expiry"
  ensure (digest = custody.policy.digest) "manual transfer policy changed"
  ensure (request.requestId ∉ state.ids ∧ state.previous ≤ request.afterOperation ∧
    (request.afterOperation = state.previous → state.previousExpired = true)) "manual transfer history reset or reused"
  let maximum ← manualMaximum custody request
  ensure (request.amountRao ≤ maximum ∧
    (∃ d ∈ custody.policy.destinations, d.bucketId = request.bucketId ∧ 0 < d.allocationBps) ∧
    custody.policy.startBlock ≤ request.sourceBlock) "manual intent exceeds signed policy"
  match state.expired.find? fun closure => closure.1.requestId = request.requestId with
  | none =>
    pure { state with
      requests := state.requests ++ [request], ids := request.requestId :: state.ids
      previous := request.afterOperation, previousExpired := false }
  | some (closure, closedAt) => do
    ensure (closure.policy = digest ∧ closure.requestDigest = custody.requestDigest request ∧
      closure.afterOperation = request.afterOperation ∧ request.expiresBlock ≤ closure.finalizedBlock ∧
      eventId < closedAt ∧ ¬ ∃ e ∈ events, e.1.isDispatchReserved = true ∧ eventId < e.2 ∧ e.2 < closedAt)
      "unsigned expiry differs from unspent exact intent"
    pure { state with
      expired := state.expired.filter fun c => c.1.requestId ≠ request.requestId
      ids := request.requestId :: state.ids, previous := request.afterOperation, previousExpired := true
      closedBefore := closedAt }

/-- The wallet of a bucket. -/
def bucketWallet (custody : Custody) (bucketId : String) : Option String :=
  (custody.policy.destinations.find? fun d => d.bucketId = bucketId).map (·.holdingColdkey)

/-- A claim under an intent is exactly the intent. -/
def exactClaim (custody : Custody) (request : ManualTransfer) (op : Operation) : Prop :=
  op.role = .transfer ∧ op.amount = request.amountRao ∧ op.sourceBlock = some request.sourceBlock ∧
    op.bucket = some request.bucketId ∧ op.destination = bucketWallet custody request.bucketId

instance (custody : Custody) (request : ManualTransfer) (op : Operation) : Decidable (exactClaim custody request op) :=
  inferInstanceAs (Decidable (_ ∧ _))

/-- The claims between each intent and the next one. -/
def checkClaims (custody : Custody) (operations : List Operation) : List ManualTransfer → Except String Unit
  | [] => pure ()
  | request :: rest => do
    let claims := operations.filter fun op => request.afterOperation < op.id ∧
      (∀ next ∈ rest.head?, op.id ≤ next.afterOperation)
    ensure (claims.length ≤ 1 ∧ ∀ op ∈ claims, exactClaim custody request op)
      "manual transfer claim differs from exact request"
    ensure (rest ≠ [] → claims.length = 1 ∧ ∀ op ∈ claims, op.state = .finalized)
      "manual history advanced without finalized claim"
    checkClaims custody operations rest

/-- The armed intents with their policies and the numbers of their events. -/
def armedRecords (events : List (Event × ℕ)) : List ((String × ManualTransfer) × ℕ) :=
  events.filterMap fun e =>
    match e.1 with
    | .manualTransferArmed policy request => some ((policy, request), e.2)
    | _ => none

/-- The retirements with the numbers of their events. -/
def expiryRecords (events : List (Event × ℕ)) : List (UnsignedExpiry × ℕ) :=
  events.filterMap fun e => e.1.expiry?.map fun expiry => (expiry, e.2)

/-- The armed intents that are not retired, after checking the whole history. -/
def manualTransferHistory (custody : Custody) (journal : Journal) : Except String (List ManualTransfer) := do
  let events := journal.events.zipIdx 1
  let records := armedRecords events
  ensure (records.length ≤ 100000) "manual history exceeds explicit bound"
  let expired := expiryRecords events
  ensure ((expired.map fun c => c.1.requestId).Nodup) "duplicate unsigned expiry"
  let state ← records.foldlM (historyStep custody events) ⟨[], expired, [], 0, false, 0⟩
  ensure (state.expired = []) "unsigned expiry lacks its original manual intent"
  checkClaims custody journal.operations state.requests
  pure state.requests

/-! ## The bound in force -/

/-- The single replacement of a failed canary. -/
def canaryReplacement (custody : Custody) (journal : Journal) : Except String (Option CanaryReplacement) :=
  match journal.events.filterMap Event.replacement? with
  | [] => pure none
  | [replacement] => do
    ensure (replacement.policy = custody.policy.digest ∧ replacement.proof.status = .failed ∧
      replacement.proof.extrinsicIndex.isSome ∧ replacement.proof.extrinsicHash.isSome ∧
      custody.policy.startBlock ≤ replacement.sourceBlock ∧ BoundedReason replacement.reason)
        "invalid canary replacement history"
    pure (some replacement)
  | _ => throw "only one explicit canary replacement is supported"

/-- The recorded canary, or its replacement when that answers for its failed claim. -/
def boundCanary (journal : Journal) (canary : TransferCanary) (replacement : Option CanaryReplacement) :
    Except String TransferCanary :=
  match replacement with
  | none => pure canary
  | some replacement =>
    match journal.operation? replacement.canary.afterOperation with
    | none => throw "replacement history differs from failed claim"
    | some old => do
      ensure (old.state = .failed ∧ old.role = .transfer ∧ old.sourceBlock = some replacement.sourceBlock ∧
        replacement.canary.afterOperation = canary.afterOperation + 1 ∧ 0 < old.amount ∧
        old.amount ≤ canary.maxAlphaRao ∧ (∃ s ∈ old.settlement, replacement.proof.block = s.block ∧
          replacement.proof.blockHash = s.blockHash) ∧
        replacement.proof.extrinsicHash = some old.signed.extrinsicHash)
        "replacement history differs from failed claim"
      pure replacement.canary

/-- The recorded canaries with their policies. -/
def canaryRecords (events : List Event) : List (String × TransferCanary) :=
  events.filterMap fun e =>
    match e with
    | .transferCanaryArmed policy canary => some (policy, canary)
    | _ => none

/-- The canary that a call requests, or the recorded one. A first request is recorded. -/
def requestedCanary (custody : Custody) (journal : Journal) (role : Role) (requested : Option TransferCanary) :
    Except String (Journal × Option TransferCanary) :=
  match canaryRecords journal.events with
  | [] => do
    let replacement ← canaryReplacement custody journal
    ensure (replacement = none) "replacement lacks original canary history"
    match requested with
    | none => pure (journal, none)
    | some requested => do
      ensure (role = .transfer ∧ requested.maxAlphaRao ≤ custody.policy.maxDistributionRao)
        "canary requires transfer role within signed ceiling"
      ensure (journal.maximum = requested.afterOperation ∧ journal.dispatching? = none)
        "canary baseline must equal quiesced current journal"
      pure (journal.event (.transferCanaryArmed custody.policy.digest requested), some requested)
  | [(policy, canary)] => do
    ensure (policy = custody.policy.digest) "transfer canary policy changed"
    let replacement ← canaryReplacement custody journal
    let existing ← boundCanary journal canary replacement
    ensure (∀ r ∈ requested, r = existing) "transfer canary cannot be reset or widened"
    ensure (role = .transfer ∧ existing.maxAlphaRao ≤ custody.policy.maxDistributionRao)
      "canary requires transfer role within signed ceiling"
    pure (journal, some existing)
  | _ => throw "ambiguous transfer canary history"

/-- An intent as a bound. -/
def ManualTransfer.bound (request : ManualTransfer) : TransferCanary where
  maxAlphaRao := request.amountRao
  afterOperation := request.afterOperation
  maxAlphaRao_mem := request.bounded _ (by simp)
  afterOperation_lt := (request.bounded request.afterOperation (by simp)).2

/-- The bound in force: none before a canary, else the last intent's, the replacement's or the canary's. -/
def transferCanary (custody : Custody) (journal : Journal) (role : Role) (requested : Option TransferCanary) :
    Except String (Journal × Option TransferCanary) := do
  let (journal, canary) ← requestedCanary custody journal role requested
  match canary with
  | none => pure (journal, none)
  | some canary => do
    let manual ← manualTransferHistory custody journal
    let claimed := journal.operations.filter fun op => canary.afterOperation < op.id ∧
      (∀ first ∈ manual.head?, op.id ≤ first.afterOperation)
    ensure (claimed.length ≤ 1 ∧ ∀ op ∈ claimed, op.role = .transfer ∧ 0 < op.amount ∧
      op.amount ≤ canary.maxAlphaRao) "transfer canary claim exceeds approved bound"
    pure (journal, some (match manual.getLast? with | some last => last.bound | none => canary))

/-! ## What a receipt still owes -/

/-- The operations that armed batches are bound to. -/
def batchClaims (journal : Journal) : Except String (Dict ℕ ManualTransfer) :=
  ((liveIntents journal.events).filter fun r => r.batch.isSome).foldlM (fun claims request => do
    ensure (request.afterOperation + 1 ∉ claims.keys) "ambiguous aggregate operation attribution"
    pure (claims.set (request.afterOperation + 1) request)) []

/-- What one operation takes from the receipt of a block. -/
def sourceOperation (claims : Dict ℕ ManualTransfer) (block : ℕ) (op : Operation) : Except String (List Operation) :=
  match claims.get? op.id with
  | some request => do
    ensure (op.role = .transfer ∧ op.amount = request.amountRao ∧ op.bucket = some request.bucketId ∧
      op.sourceBlock = some request.sourceBlock) "aggregate operation differs from durable intent"
    pure (((request.batch.map (·.sources)).getD []).filterMap fun claim =>
      if claim.sourceBlock = block then some { op with amount := claim.amountRao } else none)
  | none => pure (if op.sourceBlock = some block then [op] else [])

/-- The operations that draw on the receipt of a block, a batch with its part for the block. -/
def sourceOperations (journal : Journal) (block : ℕ) (exclude : Option ℕ) : Except String (List Operation) := do
  let claims ← batchClaims journal
  (journal.operations.filter fun op => some op.id ≠ exclude).foldlM (fun result op => do
    let taken ← sourceOperation claims block op
    pure (result ++ taken)) []

/-- One paid leg. -/
def paidStep (parts : List ServiceDistribution) (paid : Dict String ℕ) (op : Operation) :
    Except String (Dict String ℕ) :=
  match parts.find? fun part => some part.bucketId = op.bucket with
  | none => throw "invalid finalized receipt distribution history"
  | some part => do
    ensure (op.role = .transfer ∧ op.state = .finalized ∧ op.destination = some part.holdingColdkey ∧ 0 < op.amount)
      "invalid finalized receipt distribution history"
    let paid := paid.add part.bucketId op.amount
    ensure (paid.amount part.bucketId ≤ part.alphaRao) "finalized distribution exceeds receipt bucket"
    pure paid

/-- The parts of a receipt that are not paid yet. -/
def remainingDistribution (parts : List ServiceDistribution) (operations : List Operation) :
    Except String (List ServiceDistribution) := do
  let paid ← operations.foldlM (paidStep parts) (parts.map fun part => (part.bucketId, 0))
  pure (parts.filterMap fun part =>
    if paid.amount part.bucketId < part.alphaRao then
      some { part with alphaRao := part.alphaRao - paid.amount part.bucketId }
    else none)

/-- The parts of a row that are not paid yet. -/
def remainingSource (custody : Custody) (journal : Journal) (row : EarningsRow) :
    Except String (List ServiceDistribution) := do
  let parts ← planServiceDistribution row.amount row.amount custody.policy.collectorColdkey custody.policy.destinations
  let replacement ← canaryReplacement custody journal
  let operations ← sourceOperations journal row.block (replacement.map (·.canary.afterOperation))
  remainingDistribution parts operations

end DittoSubnet.Treasury

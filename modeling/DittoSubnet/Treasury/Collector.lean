import DittoSubnet.Treasury.Journal

/-!
# The calls of the collector

The transactions of `ditto/treasury/collector.py`, `manual_batch.py` and `manual_expiry.py` on one journal: `tick`,
`armManualTransfer`, `replaceFailedCanary`, `expireUnsignedManual`, `observeEarnings` and `observeEarningSource`. A
transaction ends in a new journal or in an error, and then nothing of it is kept (`step`).

`CollectorChain` is what the chain adapter answers during one call; any answer may be an error. A tick first plans
(`tickPlan`): it is done with its journal, or it reserves a claim, and then `prepare` is asked for signed bytes.
-/

namespace DittoSubnet.Treasury

open Kit

/-- The answers of the chain adapter during one call. `observe` also takes the number of the observation. -/
structure CollectorChain where
  observe : Role → ℕ → Except String Observation
  earnings : ℕ → Except String (Option FinalizedEarnings)
  prepare : Role → Call → Observation → Except String SignedOperation
  prepareManual : Call → Observation → ManualTransfer → Except String SignedOperation
  reconcile : Operation → Observation → Except String Settlement
  retryableTransferFailure : Operation → Except String Settlement
  manualApproval : Option ManualLimitApproval

/-! ## Earnings -/

/-- `_record_earning`. -/
def recordEarning (custody : Custody) (journal : Journal) (block : ℕ) (earned : Option FinalizedEarnings) :
    Except String Journal :=
  match journal.earning? block with
  | some previous => do
    ensure (earned = some previous.receipt) "previously proved earning changed"
    pure journal
  | none =>
    match earned with
    | none => pure journal
    | some earned => do
      ensure (0 < earned.amountRao ∧ earned.amountRao < 2 ^ 63) "invalid finalized emission"
      let row : EarningsRow := ⟨block, earned.amountRao, earned.blockHash, earned.eventDigest, false⟩
      pure (({ journal with earnings := journal.earnings ++ [row] }).event
        (.emissionAttributed block custody.policy.digest earned))

/-- One block of the scan. -/
def scanBlock (custody : Custody) (chain : CollectorChain) (journal : Journal) (block : ℕ) : Except String Journal := do
  let earned ← chain.earnings block
  let journal ← recordEarning custody journal block earned
  pure { journal with cursor := block }

/-- `_scan_finalized_earnings`. -/
def scanFinalizedEarnings (custody : Custody) (chain : CollectorChain) (journal : Journal) (finalized maxBlocks : ℕ) :
    Except String Journal :=
  (List.range' (journal.cursor + 1) (min finalized (journal.cursor + maxBlocks) - journal.cursor)).foldlM
    (scanBlock custody chain) journal

/-! ## Batches -/

/-- One source of a batch. -/
def validateSource (custody : Custody) (chain : CollectorChain) (journal : Journal) (request : ManualTransfer)
    (observed : Observation) (destination : String) (claim : ManualSourceClaim) : Except String Unit := do
  ensure (custody.policy.startBlock ≤ claim.sourceBlock ∧
    claim.sourceBlock + custody.policy.distributionIntervalBlocks ≤ observed.block)
    "aggregate source is immature or unapproved"
  match journal.openEarning? claim.sourceBlock with
  | none => throw "aggregate source receipt absent"
  | some row => do
    let earned ← chain.earnings claim.sourceBlock
    ensure (earned = some row.receipt) "aggregate source proof changed or unavailable"
    let remaining ← remainingSource custody journal row
    ensure (∃ p ∈ remaining, p.bucketId = request.bucketId ∧ p.holdingColdkey = destination ∧
      claim.amountRao ≤ p.alphaRao) "aggregate source entitlement exceeded"

/-- `validate_batch`: the destination of a batch whose every source is open and still owes its part. -/
def validateBatch (custody : Custody) (chain : CollectorChain) (journal : Journal) (request : ManualTransfer)
    (batch : ManualBatch) (observed : Observation) : Except String String := do
  verifyApproval custody batch.manualApproval
  ensure (chain.manualApproval = some batch.manualApproval) "manual approval differs from deployed exact pin"
  ensure (request.amountRao ≤ batch.manualApproval.maxAmountRao) "manual amount exceeds cold-approved range"
  ensure (request.amountRao + request.retainedAlphaRao ≤ observed.alphaRao)
    "manual request would consume retained stake"
  match custody.policy.destinations.filter fun d => d.bucketId = request.bucketId ∧ 0 < d.allocationBps with
  | [d] => do
    batch.sources.forM (validateSource custody chain journal request observed d.holdingColdkey)
    pure d.holdingColdkey
  | _ => throw "manual bucket must have one signed destination"

/-! ## Tick -/

structure TickInput where
  role : Role
  canary : Option TransferCanary
  manualRequestId : Option String
  deriving DecidableEq

inductive TickStatus
  | disabled
  | canarySpent
  | settled (status : SettlementStatus)
  | registered
  | cooldown
  | manualReady
  | manualExpired
  | observing
  | interval
  | distributed
  | dispatching
  deriving DecidableEq, Repr

/-- A claim that is ready to be signed. -/
structure Claim where
  amount : ℕ
  sourceBlock : Option ℕ
  bucket : Option String
  destination : Option String
  call : Call
  observed : Observation
  deriving DecidableEq, Repr

/-- What a tick has decided before it signs. -/
inductive TickPlan
  | done (journal : Journal) (status : TickStatus)
  | reserve (journal : Journal) (claim : Claim) (intent : Option ManualTransfer)

/-- The state of a settled operation. -/
def SettlementStatus.state? : SettlementStatus → Option OperationState
  | .finalized => some .finalized
  | .failed => some .failed
  | .expired => some .expired
  | .pending => none

/-- `UPDATE operations … WHERE id=?`. -/
def Journal.updateOperation (journal : Journal) (id : ℕ) (f : Operation → Operation) : Journal :=
  { journal with operations := journal.operations.map fun op => if op.id = id then f op else op }

/-- The unresolved operation is settled, or its scan advances. -/
def settlePending (chain : CollectorChain) (journal : Journal) (observed : Observation) (pending : Operation) :
    Except String TickPlan := do
  let result ← chain.reconcile pending observed
  match result.status.state? with
  | none =>
    match result.scannedThrough with
    | none => pure (.done journal (.settled .pending))
    | some through => do
      ensure (pending.reconciledThrough ≤ through ∧ through ≤ observed.block) "invalid reconciliation progress"
      pure (.done (journal.updateOperation pending.id fun op => { op with reconciledThrough := through })
        (.settled .pending))
  | some state =>
    let journal := (journal.updateOperation pending.id fun op =>
      { op with state := state, settlement := some result }).event (.settlement pending.id result)
    if pending.role = .registration ∧ result.status = .finalized then do
      ensure (result.uid.isSome = true) "registration receipt lacks finalized UID binding"
      pure (.done (journal.event (.collectorUidRebound result)) (.settled result.status))
    else pure (.done journal (.settled result.status))

/-- The fee reserve of the delegate, checked before every signature. -/
def reserveClaim (custody : Custody) (journal : Journal) (claim : Claim) (intent : Option ManualTransfer) :
    Except String TickPlan := do
  ensure (custody.policy.maxFeeRao + custody.policy.feeReserveRao ≤ claim.observed.delegateFreeRao)
    "delegate fee reserve insufficient"
  pure (.reserve journal claim intent)

/-- The registration branch. -/
def planRegistration (custody : Custody) (journal : Journal) (manual : List ManualTransfer) (observed : Observation) :
    Except String TickPlan :=
  if observed.uid.isSome then pure (.done journal .registered)
  else if ∃ last ∈ (journal.operations.map (·.atBlock)).max?,
      observed.block < last + custody.policy.recoveryCooldownBlocks then pure (.done journal .cooldown)
  else do
    let spent := (journal.operations.map (·.amount)).sum
    let amount := custody.policy.maxRegistrationBurnRao
    ensure (observed.burnRao ≤ amount ∧
      amount + custody.policy.maxFeeRao + spent ≤ custody.policy.registrationBudgetRao)
      "registration burn or lifetime budget exceeded"
    ensure (amount + custody.policy.feeReserveRao ≤ observed.collectorFreeRao)
      "collector registration reserve insufficient"
    reserveClaim custody journal
      ⟨amount + custody.policy.maxFeeRao, none, none, none,
        .registerLimit 118 custody.policy.collectorHotkey amount, observed⟩
      (manual.getLast?.filter fun last => last.batch.isSome)

/-- The call of a transfer. -/
def transferCall (custody : Custody) (destination : String) (amount : ℕ) : Call :=
  .transferStake destination custody.policy.collectorHotkey 118 118 amount

/-- The batch branch. -/
def planBatch (custody : Custody) (chain : CollectorChain) (journal : Journal) (intent : ManualTransfer)
    (batch : ManualBatch) (manualRequestId : Option String) (observed : Observation) : Except String TickPlan :=
  if manualRequestId = none then pure (.done journal .manualReady)
  else if intent.expiresBlock < observed.block + 128 then pure (.done journal .manualExpired)
  else do
    let destination ← validateBatch custody chain journal intent batch observed
    -- the proofs of many sources can span blocks: the claim is signed on a fresh observation
    let observed ← chain.observe .transfer 1
    ensure (observed.uid.isSome = true) "collector absent after source verification"
    if intent.expiresBlock < observed.block + 128 then pure (.done journal .manualExpired)
    else do
      ensure (intent.amountRao + intent.retainedAlphaRao ≤ observed.alphaRao)
        "manual retained stake changed during source proof"
      reserveClaim custody journal
        ⟨intent.amountRao, some intent.sourceBlock, some intent.bucketId, some destination,
          transferCall custody destination intent.amountRao, observed⟩ (some intent)

/-- The first mature open receipt without an unresolved or lost leg. -/
def matureRow (custody : Custody) (journal : Journal) (observed : Observation) : Option EarningsRow :=
  (sortOn (·.block) (journal.earnings.filter fun e =>
    (¬ ∃ op ∈ journal.operations, op.sourceBlock = some e.block ∧ op.state ≠ .finalized) ∧
      e.completed = false ∧ e.block + custody.policy.distributionIntervalBlocks ≤ observed.block)).head?

/-- The mature open receipt of a block. -/
def matureRowAt (custody : Custody) (journal : Journal) (observed : Observation) (block : ℕ) : Option EarningsRow :=
  journal.earnings.find? fun e =>
    e.block = block ∧ e.completed = false ∧ e.block + custody.policy.distributionIntervalBlocks ≤ observed.block

/-- The receipt that a leg is paid from: an intent's, the replaced claim's, or the first mature one. -/
def selectRow (custody : Custody) (journal : Journal) (observed : Observation) (intent : Option ManualTransfer)
    (replacement : Option CanaryReplacement) : Except String (Option EarningsRow) :=
  match (intent.map (·.sourceBlock)).or (replacement.map (·.sourceBlock)) with
  | none => pure (matureRow custody journal observed)
  | some selected =>
    match matureRowAt custody journal observed selected with
    | none => throw "replacement same-source receipt unavailable"
    | some row => pure (some row)

/-- The amount of a leg: an intent's, else the part under the canary's ceiling. -/
def legAmount (canary : Option TransferCanary) (intent : Option ManualTransfer) (part : ServiceDistribution) : ℕ :=
  match intent with
  | some intent => intent.amountRao
  | none =>
    match canary with
    | some canary => min part.alphaRao canary.maxAlphaRao
    | none => part.alphaRao

/-- What a bounded leg reserves of its receipt. -/
def canaryReceipt (row : EarningsRow) (remaining : List ServiceDistribution) (part : ServiceDistribution)
    (amount : ℕ) : CanaryReceipt where
  sourceBlock := row.block
  sourceHash := row.blockHash
  sourceEventDigest := row.eventDigest
  sourceAmount := row.amount
  bucket := part.bucketId
  bucketRemainingBefore := part.alphaRao
  canaryAmount := amount
  receiptRemainingAfter := (remaining.map (·.alphaRao)).sum - amount

/-- `UPDATE earnings SET completed=1 WHERE block=?`. -/
def Journal.complete (journal : Journal) (block : ℕ) : Journal :=
  { journal with
    earnings := journal.earnings.map fun row => if row.block = block then { row with completed := true } else row }

/-- The next leg of a receipt. -/
def planLeg (custody : Custody) (journal : Journal) (canary : Option TransferCanary) (intent : Option ManualTransfer)
    (replacement : Option CanaryReplacement) (observed : Observation) (row : EarningsRow) : Except String TickPlan := do
  ensure (row.amount ≤ custody.policy.maxDistributionRao) "distribution ceiling exceeded; no partial unreviewed split"
  let parts ← planServiceDistribution row.amount row.amount custody.policy.collectorColdkey custody.policy.destinations
  let operations ← sourceOperations journal row.block (replacement.map (·.canary.afterOperation))
  let remaining ← remainingDistribution parts operations
  ensure ((remaining.map (·.alphaRao)).sum ≤ observed.alphaRao) "remaining attributed earnings exceed finalized stake"
  let part := remaining.find? fun part => ∀ i ∈ intent, part.bucketId = i.bucketId
  ensure (∀ i ∈ intent, ∃ p ∈ part, i.amountRao ≤ p.alphaRao) "manual amount exceeds exact remaining bucket entitlement"
  match part with
  | none =>
    pure (.done ((journal.complete row.block).event (.distributionComplete row.block row.amount)) .distributed)
  | some part => do
    let amount := legAmount canary intent part
    ensure (∀ i ∈ intent, i.retainedAlphaRao + amount ≤ observed.alphaRao) "manual retained stake floor changed"
    let journal := if canary.isSome then journal.event
      (.canaryReceiptReserved (canaryReceipt row remaining part amount))
      else journal
    reserveClaim custody journal
      ⟨amount, some row.block, some part.bucketId, some part.holdingColdkey,
        transferCall custody part.holdingColdkey amount, observed⟩ none

/-- The last block at which another receipt was drawn on. -/
def previousBatch (journal : Journal) (block : ℕ) : Option ℕ :=
  ((journal.operations.filter fun op => ∃ b ∈ op.sourceBlock, b ≠ block).map (·.atBlock)).max?

/-- The branch of one receipt. -/
def planReceipt (custody : Custody) (chain : CollectorChain) (journal : Journal) (canary : Option TransferCanary)
    (intent : Option ManualTransfer) (manualRequestId : Option String) (observed : Observation) :
    Except String TickPlan := do
  let replacement ← canaryReplacement custody journal
  if intent.isSome ∧ manualRequestId = none then pure (.done journal .manualReady)
  else if ∃ i ∈ intent, i.expiresBlock < observed.block + 128 then pure (.done journal .manualExpired)
  else
    let row ← selectRow custody journal observed intent replacement
    match row with
    | none => do
      let journal ← scanFinalizedEarnings custody chain journal observed.block 32
      pure (.done journal .observing)
    | some row =>
      if ∃ previous ∈ previousBatch journal row.block,
          observed.block < previous + custody.policy.distributionIntervalBlocks then pure (.done journal .interval)
      else planLeg custody journal canary intent replacement observed row

/-- The transfer branch. -/
def planTransfer (custody : Custody) (chain : CollectorChain) (journal : Journal) (canary : Option TransferCanary)
    (manual : List ManualTransfer) (manualRequestId : Option String) (observed : Observation) :
    Except String TickPlan := do
  ensure (observed.uid.isSome = true) "collector absent; service transfers halted"
  match manual.getLast? with
  | none => planReceipt custody chain journal canary none manualRequestId observed
  | some intent =>
    match intent.batch with
    | some batch => planBatch custody chain journal intent batch manualRequestId observed
    | none => planReceipt custody chain journal canary (some intent) manualRequestId observed

/-- Everything of a tick before the signature. -/
def tickPlan (custody : Custody) (chain : CollectorChain) (input : TickInput) (journal : Journal) :
    Except String TickPlan := do
  ensure (journal.pin = (custody.policy.digest, input.role)) "policy or role changed"
  let (journal, canary) ← transferCanary custody journal input.role input.canary
  let manual ← manualTransferHistory custody journal
  ensure (∀ id ∈ input.manualRequestId, ∃ last ∈ manual.getLast?, last.requestId = id)
    "manual execute request differs from current exact intent"
  if ∃ c ∈ canary, ∃ op ∈ journal.operations, c.afterOperation < op.id ∧ op.state ≠ .dispatching then
    pure (.done journal .canarySpent)
  else
    let observed ← chain.observe input.role 0
    match journal.dispatching? with
    | some pending => settlePending chain journal observed pending
    | none =>
      match input.role with
      | .registration => planRegistration custody journal manual observed
      | .transfer => planTransfer custody chain journal canary manual input.manualRequestId observed

/-- The row of a signed claim. -/
def Claim.operation (claim : Claim) (id : ℕ) (role : Role) (signed : SignedOperation) : Operation where
  id := id
  state := .dispatching
  role := role
  amount := claim.amount
  sourceBlock := claim.sourceBlock
  bucket := claim.bucket
  destination := claim.destination
  call := claim.call
  signed := signed
  atBlock := claim.observed.block
  settlement := none
  reconciledThrough := 0

/-- `INSERT INTO operations`. -/
def Journal.insertOperation (journal : Journal) (claim : Claim) (role : Role) (signed : SignedOperation) : Journal :=
  { journal with operations := journal.operations ++ [claim.operation (journal.maximum + 1) role signed] }

/-- The signature of a claim: `prepare_manual` for a batch, else `prepare`. -/
def signClaim (chain : CollectorChain) (role : Role) (claim : Claim) (intent : Option ManualTransfer) :
    Except String SignedOperation :=
  match intent with
  | some intent => chain.prepareManual claim.call claim.observed intent
  | none => chain.prepare role claim.call claim.observed

/-- The signature of a claim and its row. -/
def reserveSigned (custody : Custody) (chain : CollectorChain) (role : Role) (journal : Journal) (claim : Claim)
    (intent : Option ManualTransfer) : Except String (Journal × SignedOperation) := do
  let signed ← signClaim chain role claim intent
  ensure (signed.feeRao ≤ custody.policy.maxFeeRao) "quoted fee exceeds ceiling"
  ensure (signed.startBlock = claim.observed.block ∧ claim.observed.block < signed.expiresBlock ∧
    signed.expiresBlock ≤ claim.observed.block + 128) "invalid transaction mortality"
  pure ((journal.insertOperation claim role signed).event
    (.dispatchReserved signed.extrinsicHash custody.policy.digest role), signed)

/-- The transaction of a tick, with the bytes that are broadcast after it. -/
def tick (custody : Custody) (chain : CollectorChain) (input : TickInput) (journal : Journal) :
    Except String (Journal × TickStatus × Option SignedOperation) :=
  if custody.policy.enabled = false then pure (journal, .disabled, none)
  else do
    match ← tickPlan custody chain input journal with
    | .done journal status => pure (journal, status, none)
    | .reserve journal claim intent => do
      let (journal, signed) ← reserveSigned custody chain input.role journal claim intent
      pure (journal, .dispatching, some signed)

/-! ## Intents -/

inductive ArmStatus
  | alreadyArmed
  | armed
  | readyNotArmed
  deriving DecidableEq, Repr

/-- The independent proof that the prior claim is finalized. -/
def ExactFinality (operation : Operation) (proof : Settlement) : Prop :=
  proof.status = .finalized ∧ proof.extrinsicIndex.isSome = true ∧
    (∃ saved ∈ operation.settlement, proof.block = saved.block ∧ proof.blockHash = saved.blockHash ∧
      proof.extrinsicIndex = saved.extrinsicIndex ∧ proof.extrinsicHash = saved.extrinsicHash) ∧
    proof.extrinsicHash = some operation.signed.extrinsicHash

instance (operation : Operation) (proof : Settlement) : Decidable (ExactFinality operation proof) :=
  inferInstanceAs (Decidable (_ ∧ _))

/-- The checks of a single-source intent. -/
def validateSingle (custody : Custody) (chain : CollectorChain) (journal : Journal) (requested : ManualTransfer)
    (observed : Observation) : Except String Unit := do
  ensure (custody.policy.startBlock ≤ requested.sourceBlock ∧
    requested.sourceBlock + custody.policy.distributionIntervalBlocks ≤ observed.block)
    "manual source is not mature approved earnings"
  ensure (requested.amountRao + requested.retainedAlphaRao ≤ observed.alphaRao)
    "manual request would consume retained stake"
  match journal.openEarning? requested.sourceBlock with
  | none => throw "manual source receipt absent or exceeds signed batch"
  | some row => do
    ensure (row.amount ≤ custody.policy.maxDistributionRao) "manual source receipt absent or exceeds signed batch"
    let earned ← chain.earnings requested.sourceBlock
    ensure (earned = some row.receipt) "manual source receipt changed"
    let remaining ← remainingSource custody journal row
    ensure (∃ part ∈ remaining, part.bucketId = requested.bucketId ∧ requested.amountRao ≤ part.alphaRao)
      "manual amount exceeds remaining exact bucket entitlement"

/-- The checks of a new intent against the journal and the chain. -/
def validateIntent (custody : Custody) (chain : CollectorChain) (journal : Journal) (requested : ManualTransfer)
    (existing : Option TransferCanary) : Except String Unit := do
  match existing with
  | none => throw "manual request requires a reconciled canary"
  | some existing => do
    ensure (journal.maximum = requested.afterOperation) "manual request requires current exact operation"
    ensure (journal.maximum = existing.afterOperation + 1) "manual request requires exact spent canary/current claim"
    match journal.operation? journal.maximum with
    | none => throw "prior claim must be finalized, not unknown/failed/expired"
    | some operation => do
      ensure (operation.state = .finalized ∧ operation.role = .transfer)
        "prior claim must be finalized, not unknown/failed/expired"
      let observed ← chain.observe .transfer 0
      let proof ← chain.reconcile operation observed
      ensure (ExactFinality operation proof) "prior claim lacks exact independently finalized proof"
      ensure (observed.block < requested.expiresBlock ∧ requested.expiresBlock ≤ observed.block + 7200)
        "manual request expiry must be within one bounded day"
      ensure (∃ d ∈ custody.policy.destinations, d.bucketId = requested.bucketId ∧ 0 < d.allocationBps)
        "manual request bucket is not allocated"
      match requested.batch with
      | some batch => do
        let _ ← validateBatch custody chain journal requested batch observed
        pure ()
      | none => validateSingle custody chain journal requested observed

/-- `arm_manual_transfer`. -/
def armManualTransfer (custody : Custody) (chain : CollectorChain) (requested : ManualTransfer) (record : Bool)
    (journal : Journal) : Except String (Journal × ArmStatus) := do
  ensure (custody.policy.enabled = true) "manual request requires enabled signed policy"
  let maximum ← manualMaximum custody requested
  ensure (requested.amountRao ≤ maximum) "manual request requires enabled signed policy"
  ensure (requested.requestId ∉ expiredIds journal.events) "expired unsigned request cannot be rearmed"
  ensure (journal.pin = (custody.policy.digest, .transfer)) "manual request requires pinned transfer journal"
  let history ← manualTransferHistory custody journal
  match history.find? fun request => request.requestId = requested.requestId with
  | some request => do
    ensure (request = requested) "manual idempotency key changed"
    pure (journal, .alreadyArmed)
  | none => do
    let (journal, existing) ← transferCanary custody journal .transfer none
    validateIntent custody chain journal requested existing
    if record then
      pure (journal.event (.manualTransferArmed custody.policy.digest requested), .armed)
    else pure (journal, .readyNotArmed)

/-! ## Recovery -/

/-- The proof that the failed claim was finalized as a failure. -/
def ExactFailure (operation : Operation) (proof : Settlement) : Prop :=
  proof.status = .failed ∧ (∃ saved ∈ operation.settlement, proof.block = saved.block ∧
    proof.blockHash = saved.blockHash) ∧ proof.extrinsicHash = some operation.signed.extrinsicHash ∧
    proof.extrinsicIndex.isSome = true

instance (operation : Operation) (proof : Settlement) : Decidable (ExactFailure operation proof) :=
  inferInstanceAs (Decidable (_ ∧ _))

/-- The untouched receipt of a failed claim. -/
def failedReceipt (journal : Journal) (operation : Operation) : Except String EarningsRow :=
  match operation.sourceBlock.bind journal.earning? with
  | none => throw "replacement requires untouched same-source receipt"
  | some row => do
    ensure (row.completed = false ∧ (journal.operations.filter fun op => op.sourceBlock = some row.block).length = 1)
      "replacement requires untouched same-source receipt"
    pure row

/-- `replace_failed_canary`. -/
def replaceFailedCanary (custody : Custody) (chain : CollectorChain) (requested : TransferCanary) (reason : String)
    (journal : Journal) : Except String (Journal × Unit) := do
  ensure (custody.policy.enabled = true ∧ BoundedReason reason) "enabled policy and bounded operator reason required"
  ensure (journal.pin = (custody.policy.digest, .transfer)) "replacement requires pinned transfer journal"
  let replacement ← canaryReplacement custody journal
  ensure (replacement = none) "canary already replaced"
  let (journal, existing) ← transferCanary custody journal .transfer none
  ensure (∃ e ∈ existing, requested.afterOperation = journal.maximum ∧ journal.maximum = e.afterOperation + 1 ∧
    requested.maxAlphaRao ≤ custody.policy.maxDistributionRao)
    "replacement requires exactly one spent canary within signed ceiling"
  match journal.operation? journal.maximum with
  | none => throw "replacement requires failed transfer, not unknown or paid"
  | some operation => do
    ensure (operation.state = .failed ∧ operation.role = .transfer)
      "replacement requires failed transfer, not unknown or paid"
    let proof ← chain.retryableTransferFailure operation
    ensure (ExactFailure operation proof) "replacement lacks exact finalized failure proof"
    let row ← failedReceipt journal operation
    let earned ← chain.earnings row.block
    ensure (earned = some row.receipt) "replacement earnings changed or unavailable"
    pure (journal.event (.transferCanaryReplaced ⟨custody.policy.digest, requested, row.block, proof, strip reason⟩),
      ())

/-- The first event that armed a request. -/
def armedEvent (events : List Event) (requestId : String) : Option ((String × ManualTransfer) × ℕ) :=
  (armedRecords (events.zipIdx 1)).find? fun record => record.1.2.requestId = requestId

/-- `expire_unsigned_manual`. -/
def expireUnsignedManual (custody : Custody) (chain : CollectorChain) (requestId reason : String) (journal : Journal) :
    Except String (Journal × UnsignedExpiry) := do
  ensure (BoundedReason reason) "bounded operator recovery reason required"
  ensure (journal.pin = (custody.policy.digest, .transfer)) "recovery requires current pinned transfer journal"
  let history ← manualTransferHistory custody journal
  match history.getLast? with
  | none => throw "recovery requires exact latest armed request"
  | some request => do
    ensure (request.requestId = requestId) "recovery requires exact latest armed request"
    match armedEvent journal.events requestId with
    | none => throw "recovery cannot cross a policy migration"
    | some ((policy, _), armedId) => do
      ensure (policy = custody.policy.digest) "recovery cannot cross a policy migration"
      ensure (journal.maximum = request.afterOperation ∧
        (∃ prior ∈ journal.operation? journal.maximum, prior.role = .transfer ∧ prior.state = .finalized) ∧
        ¬ ∃ e ∈ journal.events.zipIdx 1, e.1.isDispatchReserved = true ∧ armedId < e.2)
        "signed or unresolved claim requires chain reconciliation"
      let observed ← chain.observe .transfer 0
      ensure (request.expiresBlock ≤ observed.block) "request has not reached finalized expiry"
      let proof : UnsignedExpiry := ⟨custody.policy.digest, requestId, custody.requestDigest request, journal.maximum,
        observed.block, observed.blockHash, strip reason⟩
      let journal := journal.event (.manualUnsignedExpired proof)
      let _ ← manualTransferHistory custody journal
      pure (journal, proof)

/-! ## Observation -/

/-- `observe_earnings`. -/
def observeEarnings (custody : Custody) (chain : CollectorChain) (maxBlocks : ℕ) (journal : Journal) :
    Except String (Journal × Bool) := do
  ensure (1 ≤ maxBlocks ∧ maxBlocks ≤ 32) "receipt chunk must be between one and 32 blocks"
  if custody.policy.enabled = false then pure (journal, false)
  else do
    ensure (journal.pin = (custody.policy.digest, .transfer)) "earnings scan requires pinned transfer journal"
    let observed ← chain.observe .transfer 0
    let journal ← scanFinalizedEarnings custody chain journal observed.block maxBlocks
    pure (journal, true)

/-- `observe_earning_source`. -/
def observeEarningSource (custody : Custody) (chain : CollectorChain) (block : ℕ) (journal : Journal) :
    Except String (Journal × Unit) := do
  ensure (journal.pin = (custody.policy.digest, .transfer)) "source proof requires pinned transfer journal"
  match chain.manualApproval with
  | none => throw "recent source proof requires active manual approval"
  | some approval => do
    ensure (custody.policy.enabled = true) "recent source proof requires active manual approval"
    verifyApproval custody approval
    let observed ← chain.observe .transfer 0
    ensure (custody.policy.startBlock ≤ block ∧ block + custody.policy.distributionIntervalBlocks ≤ observed.block)
      "candidate source is not mature"
    let earned ← chain.earnings block
    let journal ← recordEarning custody journal block earned
    pure (journal.event (.manualSourceProbed custody.policy.digest block), ())

/-! ## Runs -/

/-- A call with its arguments. -/
inductive CollectorCall
  | tick (input : TickInput)
  | armManualTransfer (requested : ManualTransfer) (record : Bool)
  | replaceFailedCanary (requested : TransferCanary) (reason : String)
  | expireUnsignedManual (requestId reason : String)
  | observeEarnings (maxBlocks : ℕ)
  | observeEarningSource (block : ℕ)

/-- One serialized call; an aborted one leaves the journal as it was. -/
def step (custody : Custody) (journal : Journal) (input : CollectorChain × CollectorCall) : Journal :=
  match input.2 with
  | .tick tickInput => commit (tick custody input.1 tickInput) journal
  | .armManualTransfer requested record => commit (armManualTransfer custody input.1 requested record) journal
  | .replaceFailedCanary requested reason => commit (replaceFailedCanary custody input.1 requested reason) journal
  | .expireUnsignedManual requestId reason => commit (expireUnsignedManual custody input.1 requestId reason) journal
  | .observeEarnings maxBlocks => commit (observeEarnings custody input.1 maxBlocks) journal
  | .observeEarningSource block => commit (observeEarningSource custody input.1 block) journal

/-- The journal after a sequence of calls on a new journal, each with its own answers of the chain. -/
def reachable (custody : Custody) (role : Role) (calls : List (CollectorChain × CollectorCall)) : Journal :=
  run (step custody) (initialJournal custody role) calls

/-! ## A small instance -/

/-- A policy with one bucket. -/
def samplePolicy : CollectorPolicy where
  digest := "policy"
  collectorColdkey := "collector"
  collectorHotkey := "hotkey"
  startBlock := 10
  destinations := [⟨"operations", 10000, "wallet"⟩]
  maxRegistrationBurnRao := 5
  registrationBudgetRao := 100
  maxFeeRao := 1
  feeReserveRao := 2
  recoveryCooldownBlocks := 1
  distributionIntervalBlocks := 1
  maxDistributionRao := 1000
  enabled := true
  bounded := by decide
  reserve := by decide
  destinations_valid := ⟨by decide, by decide, by decide, by decide, by decide⟩

/-- The policy with a digest and a signature check that accept everything. -/
def sampleCustody : Custody := ⟨samplePolicy, fun _ => "digest", fun _ => true⟩

/-- The chain at a head: block 10 earned 100, and what was signed is in the next block. -/
def sampleChain (head : ℕ) : CollectorChain where
  observe _ _ := .ok ⟨head, "block", some 7, 0, 100, 100, 1000⟩
  earnings block := .ok (if block = 10 then some ⟨100, "hash", "digest"⟩ else none)
  prepare _ _ observed := .ok ⟨"bytes", "extrinsic", observed.block, observed.block + 64, 1⟩
  prepareManual _ observed _ := .ok ⟨"bytes", "extrinsic", observed.block, observed.block + 64, 1⟩
  reconcile op _ := .ok ⟨.finalized, some (op.signed.startBlock + 1), some "block", some 7, none, some 0,
    some op.signed.extrinsicHash⟩
  retryableTransferFailure _ := .error "not a failure"
  manualApproval := none

/-- A cold approval of amounts up to 1000 under a policy. -/
def sampleLimit (digest coldkey : String) : ManualLimitApproval :=
  ⟨digest, coldkey, 1, 1000, "limit", by decide, by decide⟩

def sampleSources : List ManualSourceClaim := [⟨10, 30⟩]

theorem sampleSources_exact : ExactSources sampleSources 10 30 :=
  ⟨by decide, by decide, by decide, by decide, by decide⟩

theorem sampleBucket_pattern : BucketPattern "operations" :=
  ⟨by decide +kernel, by decide +kernel, by simp [Char.le_def], by simp [Char.le_def]⟩

/-- A batch of 30 from block 10, after the first operation. -/
def sampleIntent (limit : ManualLimitApproval) : ManualTransfer where
  requestId := "11111111-1111-4111-8111-111111111111"
  afterOperation := 1
  sourceBlock := 10
  bucketId := "operations"
  amountRao := 30
  retainedAlphaRao := 5
  expiresBlock := 500
  reason := "monthly payout"
  batch := some ⟨sampleSources, limit⟩
  canonical_uuid := by decide +kernel
  bounded := by decide
  bucket_required := by decide
  reason_bounded := by decide +kernel
  wire := fun _ => ⟨by decide, sampleBucket_pattern, by decide +kernel⟩
  exact_sources := by
    intro batch hbatch
    cases hbatch
    exact sampleSources_exact

/-- The chain at a head, with the approval that is deployed for the policy. -/
def approvedChain (head : ℕ) : CollectorChain :=
  { sampleChain head with manualApproval := some (sampleLimit "policy" "collector") }

end DittoSubnet.Treasury

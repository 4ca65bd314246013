import DittoSubnet.Coding.JournalCrash
import DittoSubnet.Coding.Receipts

/-!
# The coding relay

`codingrelay.Relay` admits one miner request at a time, journals each provider attempt before it makes it, journals the
settlement before it answers, and closes admission before it persists a revocation. Its methods hold the lock only in
parts, so a call is several inputs here (`Input`), between which other calls, the clock and a crash may come
(`System.step`). A live relay works on an open root; a crash closes the root on the files that are left, and `New`
restores a relay from them.

A flight is the one admitted request, with the point its goroutine has reached (`FlightStage`). How a call to the
journal goes is part of the input (`Operation`), and so is what the provider answers.
-/

namespace DittoSubnet.Coding

open Kit

/-! ## Entries in memory -/

inductive RelayError where
  | invalidConfig
  | invalidRequest
  | capabilityRevoked
  | capabilityExpired
  | concurrentRequest
  | budgetExhausted
  | providerFailure
  | upstreamUnsettled
  | journalUnavailable
  | ambiguousDispatch
  | evidenceUnavailable
  | notRevoked
  | evidenceBinding
  | clockRollback
  | deadlineExceeded
  | contract (message : String)
  deriving DecidableEq, Repr

/-- The zero values of the two requests. -/
def InferenceMinerRequest.zero : InferenceMinerRequest := ⟨"", [], [], "", "", 0, false⟩

def InferenceLockedRequest.zero : InferenceLockedRequest :=
  ⟨"", [], [], "", "", false, 0, false, 0, false, false, false, ⟨[], [], false, false, "", false⟩⟩

/-- What the relay keeps of an entry: no request, no provider response, and the miner's response on demand. -/
def compactEntry (entry : JournalEntry) (keepMinerResponse : Bool) : JournalEntry where
  dispatch := { entry.dispatch with minerRequest := .zero, lockedRequest := .zero }
  completion := entry.completion.map fun completion =>
    { completion with normalizedResponse := [], failureResponseProjection := []
                      minerResponse := if keepMinerResponse then completion.minerResponse else [] }

/-- An entry without its miner response. -/
def JournalEntry.silenced (entry : JournalEntry) : JournalEntry :=
  { entry with completion := entry.completion.map fun completion => { completion with minerResponse := [] } }

/-- `relay.entries` after one more entry: only the last keeps its response. -/
def keepEntry (entries : List JournalEntry) (entry : JournalEntry) : List JournalEntry :=
  entries.modifyLast JournalEntry.silenced ++ [compactEntry entry true]

/-! ## Accounting -/

structure RelayAccounting where
  requests : Nat
  prompt : Nat
  completion : Nat
  cost : Nat
  previousRequest : Nat
  deriving DecidableEq, Repr

def RelayAccounting.entry (account : RelayAccounting) (entry : JournalEntry) : Option RelayAccounting :=
  let fresh := entry.dispatch.requestSequence ≠ account.previousRequest
  if account.prompt > maxUint64 - entry.promptTokens ∨ account.completion > maxUint64 - entry.completionTokens ∨
      account.cost > maxUint64 - entry.costUSDMicros then none
  else some
    { requests := if fresh then account.requests + 1 else account.requests
      prompt := account.prompt + entry.promptTokens
      completion := account.completion + entry.completionTokens
      cost := account.cost + entry.costUSDMicros
      previousRequest := if fresh then entry.dispatch.requestSequence else account.previousRequest }

/-- None when a total overflows. -/
def accountingFor (entries : List JournalEntry) : Option RelayAccounting :=
  entries.foldlM RelayAccounting.entry ⟨0, 0, 0, 0, 0⟩

section Relay

variable (codec : Codec) (policy : InferencePolicy) (binding : Binding)

def costBudget : Nat := if binding.costBudgetUSDMicros = 0 then policy.maxCostUSDMicros else binding.costBudgetUSDMicros

def withinBudgets (entries : List JournalEntry) : Bool :=
  match accountingFor entries with
  | none => false
  | some account =>
    account.requests ≤ binding.requestBudget && account.prompt ≤ binding.promptTokenBudget &&
    account.completion ≤ binding.completionTokenBudget && account.cost ≤ costBudget policy binding

/-! ## Evidence -/

def receiptBinding : InferenceReceiptBinding where
  ticketID := binding.ticketID
  caseID := binding.caseID
  profileCapabilityID := binding.profileCapabilityID
  grantID := binding.grantID
  generation := binding.generation
  inferenceGrantSHA256 := binding.inferenceGrantSHA256
  requestBudget := binding.requestBudget
  promptTokenBudget := binding.promptTokenBudget
  completionTokenBudget := binding.completionTokenBudget

def receiptSet (receipts : List InferenceReceipt) : InferenceReceiptSet where
  schema := InferenceReceiptSetSchema
  codingContractVersion := ContractVersion
  ticketID := binding.ticketID
  caseID := binding.caseID
  profileCapabilityID := binding.profileCapabilityID
  grantID := binding.grantID
  generation := binding.generation
  inferenceGrantSHA256 := binding.inferenceGrantSHA256
  requestBudget := binding.requestBudget
  promptTokenBudget := binding.promptTokenBudget
  completionTokenBudget := binding.completionTokenBudget
  receipts := receipts

/-- The completions of the entries, unless one of them is open. -/
def completionsOf (entries : List JournalEntry) : Option (List Completion) := entries.mapM JournalEntry.completion

/-- The evidence of the entries. A relay that was never used has evidence of its own. -/
def evidence (entries : List JournalEntry) : Except RelayError ModelEvidence :=
  if entries.isEmpty then
    (NotInvokedInferenceModelEvidence codec policy (receiptBinding binding)).mapError .contract
  else if withinBudgets policy binding entries then
    match completionsOf entries with
    | none => .error .ambiguousDispatch
    | some completions =>
      (DeriveInferenceModelEvidence codec policy (receiptBinding binding)
        (receiptSet binding (completions.map Completion.receipt)) (completions.map Completion.settlement)).mapError
          fun _ => .evidenceUnavailable
  else .error .budgetExhausted

/-! ## Settlements -/

structure UpstreamRequest where
  sequence : Nat
  requestSequence : Nat
  attempt : Nat
  requestID : String
  lockedRequestSHA256 : String
  lockedRequest : InferenceLockedRequest
  deadline : Int
  deriving DecidableEq, Repr

structure UpstreamResult where
  settlement : InferenceProviderSettlement
  normalizedResponse : List UInt8
  failureResponseProjection : List UInt8
  deriving DecidableEq, Repr

def upstreamRequest (dispatch : DispatchRecord) : UpstreamRequest where
  sequence := dispatch.sequence
  requestSequence := dispatch.requestSequence
  attempt := dispatch.attempt
  requestID := dispatch.requestID
  lockedRequestSHA256 := dispatch.lockedRequestSHA256
  lockedRequest := dispatch.lockedRequest
  deadline := binding.deadline

def minerResponse (body : List UInt8) (settlement : InferenceProviderSettlement) : Except RelayError (List UInt8) := do
  ensure (body ≠ []) .upstreamUnsettled
  match ParseInferenceNormalizedResponse codec policy body with
  | none => .error .upstreamUnsettled
  | some normalized => do
    ensure (InferenceNormalizedResponseSHA256 codec policy normalized = settlement.responseSHA256 ∧
      settlement.responseSHA256.isSome ∧ settlement.providerGenerationID = some normalized.id ∧
      normalized.usage.promptTokens = settlement.promptTokens ∧
      normalized.usage.completionTokens = settlement.completionTokens ∧
      normalized.usage.totalTokens = settlement.totalTokens ∧ normalized.costUSDMicros = settlement.costUSDMicros)
      .upstreamUnsettled
    let encoded := codec.encodeMiner normalized.miner
    ensure ((ParseInferenceMinerResponse codec policy encoded).isSome ∧ encoded.length ≤ policy.maxResponseBytes)
      .upstreamUnsettled
    pure encoded

/-- The response of a completed settlement; a failure has none. -/
def settledResponse (result : UpstreamResult) : Except RelayError (List UInt8) :=
  if result.settlement.outcome = .complete then do
    ensure (result.failureResponseProjection = []) .upstreamUnsettled
    minerResponse codec policy result.normalizedResponse result.settlement
  else do
    ensure (result.normalizedResponse = []) .upstreamUnsettled
    match result.settlement.responseSHA256 with
    | none => ensure (result.failureResponseProjection = []) .upstreamUnsettled
    | some digest =>
      ensure (InferenceCanonicalResponseProjectionSHA256 codec policy result.failureResponseProjection = some digest)
        .upstreamUnsettled
    pure []

/-- The receipt of a settled attempt. -/
def receiptOf (dispatch : DispatchRecord) (settlement : InferenceProviderSettlement) (settlementSHA256 : String) :
    InferenceReceipt where
  schema := InferenceReceiptSchema
  sequence := dispatch.sequence
  requestSequence := dispatch.requestSequence
  attempt := dispatch.attempt
  requestID := dispatch.requestID
  lockedRequestSHA256 := dispatch.lockedRequestSHA256
  promptSHA256 := policy.promptSHA256
  toolSchemaSHA256 := policy.toolSchemaSHA256
  outcome := settlement.outcome
  failureCode := settlement.terminalErrorCode
  httpStatus := settlement.httpStatus
  responseSHA256 := settlement.responseSHA256
  responseDigestKind := settlement.responseDigestKind
  providerGenerationID := settlement.providerGenerationID
  providerSettlementSHA256 := settlementSHA256
  model := policy.model
  providerRoute := policy.providerRoute
  providerRouteProfile := policy.providerRouteProfile
  providerSelected := settlement.selected
  receiptProvider := settlement.receiptProvider
  fallbackUsed := settlement.fallbackUsed
  promptTokens := settlement.promptTokens
  completionTokens := settlement.completionTokens
  totalTokens := settlement.totalTokens
  costUSDMicros := settlement.costUSDMicros
  timedOut := settlement.timedOut

def entryForResult (dispatch : DispatchRecord) (result : UpstreamResult) : Except RelayError JournalEntry := do
  let settlement := result.settlement
  ensure (settlement.Validate codec policy = true ∧ settlement.ticketID = binding.ticketID ∧
    settlement.caseID = binding.caseID ∧ settlement.profileCapabilityID = binding.profileCapabilityID ∧
    settlement.inferenceGrantSHA256 = binding.inferenceGrantSHA256 ∧ settlement.grantID = binding.grantID ∧
    settlement.generation = binding.generation ∧ settlement.requestID = dispatch.requestID ∧
    settlement.requestSequence = dispatch.requestSequence ∧ settlement.attempt = dispatch.attempt ∧
    settlement.lockedRequestSHA256 = dispatch.lockedRequestSHA256 ∧
    settlement.completionTokens ≤ dispatch.lockedRequest.maxCompletionTokens) .upstreamUnsettled
  match InferenceProviderSettlementSHA256 codec policy settlement with
  | none => .error .upstreamUnsettled
  | some settlementSHA256 => do
    let response ← settledResponse codec policy result
    let receipt := receiptOf policy dispatch settlement settlementSHA256
    ensure (settlement.ValidateAgainstReceipt codec policy receipt = true) .upstreamUnsettled
    pure ⟨dispatch, some ⟨settlement, receipt, result.normalizedResponse, result.failureResponseProjection, response⟩⟩

/-! ## The live relay -/

/-- How far the goroutine of the admitted request is: the dispatch is to be journaled, the provider is to be called, it
was called, its settlement is to be journaled, it was journaled. -/
inductive FlightStage where
  | begin
  | call
  | called
  | settle (entry : JournalEntry)
  | settled (entry : JournalEntry)
  deriving DecidableEq, Repr

structure Flight where
  dispatch : DispatchRecord
  stage : FlightStage
  deriving DecidableEq, Repr

/-- `revoking` is a revocation that has closed admission; the flag says that it waits for a flight. -/
structure Relay where
  lastNow : Int
  entries : List JournalEntry
  revoked : Bool
  revocationDurable : Bool
  active : Option Flight
  fatal : Option RelayError
  revoking : Option Bool
  deriving DecidableEq, Repr

/-- The clock may not go back. -/
def Relay.trustedNow (relay : Relay) (now : Int) : Except RelayError Relay :=
  if now = 0 ∨ now < relay.lastNow then .error .clockRollback else .ok { relay with lastNow := now }

def Relay.finishFlight (relay : Relay) (fatal : Option RelayError) : Relay :=
  { relay with fatal := relay.fatal.or fatal, active := none }

inductive Admission where
  | refused (reason : RelayError)
  | replayed (requestSequence : Nat) (response : List UInt8)
  | waits
  | admitted
  deriving DecidableEq, Repr

/-- The last entry as the answer to a request: a failure of the provider, or the response when the request is its
own. -/
def lastAnswer (last : JournalEntry) (minerSHA256 : String) : Option Admission :=
  match last.completion with
  | none => none
  | some completion =>
    if completion.receipt.outcome = .providerFailed then some (.refused .providerFailure)
    else if completion.receipt.outcome = .complete ∧ last.dispatch.minerRequestSHA256 = minerSHA256 ∧
        completion.minerResponse ≠ [] then
      some (.replayed last.dispatch.requestSequence completion.minerResponse)
    else none

/-- The flight of a new request, when the budgets leave room for it. -/
def Relay.launch (relay : Relay) (request : InferenceMinerRequest) (minerSHA256 requestID : String) :
    Relay × Admission :=
  match accountingFor relay.entries with
  | none => (relay, .refused .budgetExhausted)
  | some account =>
    if account.requests ≥ binding.requestBudget ∨ account.prompt ≥ binding.promptTokenBudget ∨
        account.completion ≥ binding.completionTokenBudget ∨ account.cost ≥ costBudget policy binding then
      (relay, .refused .budgetExhausted)
    else
      match LockInferenceRequest codec policy (request.clamp (binding.completionTokenBudget - account.completion)) with
      | none => (relay, .refused .invalidRequest)
      | some locked =>
        match InferenceLockedRequestSHA256 codec policy locked with
        | none => (relay, .refused .invalidRequest)
        | some lockedSHA256 =>
          if canonicalUUID requestID = true ∧ ∀ entry ∈ relay.entries, entry.dispatch.requestID ≠ requestID then
            let dispatch : DispatchRecord :=
              ⟨relay.entries.length + 1, account.requests + 1, 1, requestID, minerSHA256, request, lockedSHA256, locked⟩
            ({ relay with active := some ⟨dispatch, .begin⟩ }, .admitted)
          else ({ relay with fatal := some .invalidConfig }, .refused .invalidConfig)

def Relay.admit (relay : Relay) (request : InferenceMinerRequest) (minerSHA256 : String) (now : Int)
    (requestID : String) : Relay × Admission :=
  match relay.fatal with
  | some reason => (relay, .refused reason)
  | none =>
    if relay.revoked then (relay, .refused .capabilityRevoked)
    else
      match relay.trustedNow now with
      | .error reason => ({ relay with fatal := some reason }, .refused reason)
      | .ok ticked =>
        if binding.deadline ≤ now then (ticked, .refused .capabilityExpired)
        else
          match ticked.active with
          | some flight =>
            if flight.dispatch.minerRequestSHA256 = minerSHA256 then (ticked, .waits)
            else (ticked, .refused .concurrentRequest)
          | none =>
            match ticked.entries.getLast?.bind (lastAnswer · minerSHA256) with
            | some answer => (ticked, answer)
            | none => ticked.launch codec policy binding request minerSHA256 requestID

/-- `callUpstream` after the provider answered, and `entryForResult`. -/
def Relay.receive (relay : Relay) (dispatch : DispatchRecord) (result : Option UpstreamResult) (now : Int)
    (late : Bool) : Relay × Except RelayError JournalEntry :=
  match relay.trustedNow now with
  | .error _ => (relay, .error .upstreamUnsettled)
  | .ok ticked =>
    match result with
    | none => (ticked, .error .upstreamUnsettled)
    | some result =>
      if late = true ∨ binding.deadline ≤ now ∨ result.normalizedResponse.length > policy.maxResponseBytes ∨
          result.failureResponseProjection.length > policy.maxResponseBytes then
        (ticked, .error .upstreamUnsettled)
      else (ticked, entryForResult codec policy binding dispatch result)

/-- What the evidence is asked for. -/
structure EvidenceBinding where
  attemptID : String
  agentArtifactSHA256 : String
  harnessInstanceID : String
  ticketID : String
  caseID : String
  profileCapabilityID : String
  inferenceGrantSHA256 : String
  deadline : Int
  requestBudget : Nat
  promptTokenBudget : Nat
  completionTokenBudget : Nat
  costBudgetUSDMicros : Nat
  deriving DecidableEq, Repr

def evidenceBindingMatches (observed : EvidenceBinding) : Prop :=
  observed = ⟨binding.attemptID, binding.agentArtifactSHA256, binding.harnessInstanceID, binding.ticketID,
    binding.caseID, binding.profileCapabilityID, binding.inferenceGrantSHA256, binding.deadline, binding.requestBudget,
    binding.promptTokenBudget, binding.completionTokenBudget, binding.costBudgetUSDMicros⟩

instance (observed : EvidenceBinding) : Decidable (evidenceBindingMatches binding observed) := by
  unfold evidenceBindingMatches
  infer_instance

/-- The evidence of a revoked relay. -/
def Relay.Evidence (relay : Relay) (observed : EvidenceBinding) : Except RelayError ModelEvidence := do
  ensure (evidenceBindingMatches binding observed) .evidenceBinding
  ensure (relay.revoked = true ∧ relay.revocationDurable = true) .notRevoked
  ensure (relay.active = none ∧ relay.fatal = none) (relay.fatal.getD .evidenceUnavailable)
  evidence codec policy binding relay.entries

/-- The next attempt of a request that may be retried. -/
def nextAttempt (dispatch : DispatchRecord) : DispatchRecord :=
  { dispatch with sequence := dispatch.sequence + 1, attempt := dispatch.attempt + 1 }

/-! ## Restoring -/

/-- What `restore` checks of one entry, with the completion tokens used before it. -/
def restoreEntry (index priorCompletion : Nat) (entry : JournalEntry) : Except RelayError Nat :=
  match entry.completion with
  | none => .error .ambiguousDispatch
  | some completion => do
    ensure (entry.dispatch.sequence = index + 1 ∧ completion.receipt.sequence = entry.dispatch.sequence ∧
      completion.receipt.requestSequence = entry.dispatch.requestSequence ∧
      completion.receipt.attempt = entry.dispatch.attempt ∧ completion.receipt.requestID = entry.dispatch.requestID ∧
      completion.receipt.lockedRequestSHA256 = entry.dispatch.lockedRequestSHA256 ∧
      canonicalUUID entry.dispatch.requestID = true) .evidenceUnavailable
    ensure (InferenceMinerRequestSHA256 codec policy entry.dispatch.minerRequest =
      some entry.dispatch.minerRequestSHA256 ∧ priorCompletion < binding.completionTokenBudget) .evidenceUnavailable
    ensure (LockInferenceRequest codec policy
      (entry.dispatch.minerRequest.clamp (binding.completionTokenBudget - priorCompletion)) =
      some entry.dispatch.lockedRequest) .evidenceUnavailable
    ensure (InferenceLockedRequestSHA256 codec policy entry.dispatch.lockedRequest =
      some entry.dispatch.lockedRequestSHA256) .evidenceUnavailable
    ensure (entryForResult codec policy binding entry.dispatch ⟨completion.settlement, completion.normalizedResponse,
      completion.failureResponseProjection⟩ = .ok entry) .evidenceUnavailable
    ensure (priorCompletion ≤ maxUint64 - completion.receipt.completionTokens) .evidenceUnavailable
    pure (priorCompletion + completion.receipt.completionTokens)

/-- The entries of a journal as the relay keeps them. -/
def keptEntries (entries : List JournalEntry) : List JournalEntry :=
  entries.zipIdx.map fun indexed => compactEntry indexed.1 (indexed.2 + 1 == entries.length)

/-- The relay that starts from a journal's entries. -/
def restored (entries : List JournalEntry) (revoked : Bool) (now : Int) : Relay :=
  ⟨now, keptEntries entries, revoked, revoked, none, none, none⟩

def restore (store : Store) (now : Int) : Except RelayError Relay := do
  let entries := store.entries.map EntryRecord.entry
  let revoked := (store.state.map StateRecord.revoked).getD false
  ensure (∀ state ∈ store.state, state.binding = binding) .evidenceBinding
  ensure (store.state = none → entries = []) .evidenceBinding
  let _ ← entries.zipIdx.foldlM (fun prior indexed => restoreEntry codec policy binding indexed.2 prior indexed.1) 0
  match entries.getLast? with
  | none => .ok (restored entries revoked now)
  | some last => do
    ensure (∀ completion ∈ last.completion, completion.receipt.outcome ≠ .freeRetry) .ambiguousDispatch
    let _ ← evidence codec policy binding entries
    .ok (restored entries revoked now)

end Relay

/-! ## The relay over its journal -/

/-- How a call to the journal goes: the clock its context is made with, whether it reaches the store before the context
ends, how the store's file-system steps go, and whether the context has ended when it returns. -/
structure Operation where
  now : Int
  reached : Bool
  syncs : Bool
  io : List Io
  late : Bool
  deriving DecidableEq, Repr

inductive Root where
  | opened (journal : Journal)
  | closed (disk : Disk)
  deriving DecidableEq, Repr

/-- What can be seen from outside: a provider call, a response to the miner, a revocation that returned success. -/
inductive Event where
  | called (request : UpstreamRequest)
  | responded (requestSequence : Nat) (minerSHA256 : String) (response : List UInt8)
  | revoked
  deriving DecidableEq, Repr

/-- A live relay has its root open. -/
structure System where
  root : Root
  relay : Option Relay
  events : List Event
  deriving DecidableEq, Repr

inductive Input where
  | complete (request : InferenceMinerRequest) (now : Int) (requestID : String)
  | begin (operation : Operation)
  | call (now : Int)
  | answer (result : Option UpstreamResult) (now : Int) (late : Bool)
  | settle (operation : Operation)
  | finish (now : Int)
  | revoke
  | persist (operation : Operation)
  | abandon
  | gateway (request : Call) (operation : Operation)
  | crash (kept : Bool)
  | start (now : Int) (operation : Operation)
  deriving DecidableEq, Repr

section System

variable (codec : Codec) (layout : Layout) (config : JournalConfig) (binding : Binding)

/-- A journal call of the relay; the flag says that it succeeded in time. -/
def Operation.run (operation : Operation) (journal : Journal) (request : Call) : Journal × Bool :=
  if operation.reached then
    let called := journal.call codec layout config request operation.syncs operation.io
    (called.1, called.2 = .ok () && !operation.late)
  else (journal, false)

/-- The context of a call for an admitted request ends at the deadline of the binding. -/
def Operation.runCapped (operation : Operation) (journal : Journal) (request : Call) : Journal × Bool :=
  if binding.deadline ≤ operation.now then (journal, false) else operation.run codec layout config journal request

/-- `Complete` up to the admission. A replayed response is returned at once. -/
def System.complete (system : System) (relay : Relay) (request : InferenceMinerRequest) (now : Int)
    (requestID : String) :
    System :=
  match InferenceMinerRequestSHA256 codec config.policy request with
  | none => system
  | some minerSHA256 =>
    let admitted := relay.admit codec config.policy binding request minerSHA256 now requestID
    match admitted.2 with
    | .replayed requestSequence response =>
      { system with relay := some admitted.1
                    events := system.events ++ [.responded requestSequence minerSHA256 response] }
    | _ => { system with relay := some admitted.1 }

/-- Why such a call failed. -/
def Operation.failure (operation : Operation) : RelayError :=
  if binding.deadline ≤ operation.now then .deadlineExceeded else .journalUnavailable

/-- `execute` up to the dispatch record. -/
def System.begin (system : System) (journal : Journal) (relay : Relay) (dispatch : DispatchRecord)
    (operation : Operation) : System :=
  match operation.runCapped codec layout config binding journal (.begin binding dispatch) with
  | (next, true) => { system with root := .opened next, relay := some { relay with active := some ⟨dispatch, .call⟩ } }
  | (next, false) =>
    { system with root := .opened next, relay := some (relay.finishFlight (some (operation.failure binding))) }

/-- The provider is called unless the deadline has passed. -/
def System.call (system : System) (relay : Relay) (dispatch : DispatchRecord) (now : Int) : System :=
  match relay.trustedNow now with
  | .error reason => { system with relay := some (relay.finishFlight (some reason)) }
  | .ok ticked =>
    if binding.deadline ≤ now then { system with relay := some (ticked.finishFlight (some .capabilityExpired)) }
    else { system with relay := some { ticked with active := some ⟨dispatch, .called⟩ }
                       events := system.events ++ [.called (upstreamRequest binding dispatch)] }

def System.answer (system : System) (relay : Relay) (dispatch : DispatchRecord) (result : Option UpstreamResult)
    (now : Int) (late : Bool) : System :=
  match relay.receive codec config.policy binding dispatch result now late with
  | (ticked, .ok entry) => { system with relay := some { ticked with active := some ⟨dispatch, .settle entry⟩ } }
  | (ticked, .error reason) => { system with relay := some (ticked.finishFlight (some reason)) }

/-- The settlement is journaled, then kept. -/
def System.settle (system : System) (journal : Journal) (relay : Relay) (dispatch : DispatchRecord)
    (entry : JournalEntry) (operation : Operation) : System :=
  match operation.runCapped codec layout config binding journal (.complete binding entry) with
  | (next, true) =>
    { system with root := .opened next
                  relay := some { relay with entries := keepEntry relay.entries entry
                                             active := some ⟨dispatch, .settled entry⟩ } }
  | (next, false) =>
    { system with root := .opened next, relay := some (relay.finishFlight (some (operation.failure binding))) }

/-- After the settlement is journaled: the next attempt, or the answer. -/
def System.finish (system : System) (relay : Relay) (dispatch : DispatchRecord) (completion : Completion) (now : Int) :
    System :=
  if completion.receipt.outcome = .freeRetry then
    match relay.trustedNow now with
    | .error reason => { system with relay := some (relay.finishFlight (some reason)) }
    | .ok ticked =>
      if dispatch.attempt ≥ config.policy.maxAttemptsPerRequest ∨ binding.deadline ≤ now then
        { system with relay := some (ticked.finishFlight (some .evidenceUnavailable)) }
      else { system with relay := some { ticked with active := some ⟨nextAttempt dispatch, .begin⟩ } }
  else
    match evidence codec config.policy binding relay.entries with
    | .error reason => { system with relay := some (relay.finishFlight (some reason)) }
    | .ok _ =>
      let finished := { system with relay := some (relay.finishFlight none) }
      if completion.receipt.outcome = .providerFailed then finished
      else { finished with events := system.events ++
        [.responded dispatch.requestSequence dispatch.minerRequestSHA256 completion.minerResponse] }

/-- `Revoke` closes admission and looks for a flight; it returns at once when the revocation is durable. -/
def System.revoke (system : System) (relay : Relay) : System :=
  if relay.revocationDurable then
    { system with relay := some { relay with revoked := true }, events := system.events ++ [.revoked] }
  else { system with relay := some { relay with revoked := true, revoking := some relay.active.isSome } }

/-- `Revoke` after its wait. -/
def System.persist (system : System) (journal : Journal) (relay : Relay) (operation : Operation) : System :=
  match operation.run codec layout config journal (.revoke binding) with
  | (next, true) =>
    { root := .opened next, relay := some { relay with revocationDurable := true, revoking := none }
      events := system.events ++ [.revoked] }
  | (next, false) => { system with root := .opened next, relay := some { relay with revoking := none } }

/-- `validateConfig`: the binding, against the clock. -/
def relayConfigOk (now : Int) : Prop :=
  config.policy.Validate ∧ validateBinding codec config.policy binding ∧ now ≠ 0 ∧ binding.issuedAt ≤ now

instance (now : Int) : Decidable (relayConfigOk codec config binding now) := by
  unfold relayConfigOk
  infer_instance

/-- `New` over an open root. -/
def System.start (system : System) (journal : Journal) (now : Int) (operation : Operation) : System :=
  if relayConfigOk codec config binding now then
    match operation.run codec layout config journal (.load binding) with
    | (next, true) =>
      if config.policy.maxRequests + config.policy.maxRetries < next.store.entries.length then
        { system with root := .opened next }
      else
        match restore codec config.policy binding next.store now with
        | .ok relay => { system with root := .opened next, relay := some relay }
        | .error _ => { system with root := .opened next }
    | (next, false) => { system with root := .opened next }
  else system

/-- What the gateway itself asks of a journal. -/
def Call.ofGateway : Call → Bool
  | .load _ | .bind _ | .revoke _ => true
  | _ => false

/-- One input of a live relay; an input that its state does not expect changes nothing. -/
def System.live (system : System) (journal : Journal) (relay : Relay) : Input → System
  | .complete request now requestID => system.complete codec config binding relay request now requestID
  | .begin operation =>
    match relay.active with
    | some ⟨dispatch, .begin⟩ => system.begin codec layout config binding journal relay dispatch operation
    | _ => system
  | .call now =>
    match relay.active with
    | some ⟨dispatch, .call⟩ => system.call binding relay dispatch now
    | _ => system
  | .answer result now late =>
    match relay.active with
    | some ⟨dispatch, .called⟩ => system.answer codec config binding relay dispatch result now late
    | _ => system
  | .settle operation =>
    match relay.active with
    | some ⟨dispatch, .settle entry⟩ => system.settle codec layout config binding journal relay dispatch entry operation
    | _ => system
  | .finish now =>
    match relay.active with
    | some ⟨dispatch, .settled ⟨_, some completion⟩⟩ => system.finish codec config binding relay dispatch completion now
    | _ => system
  | .revoke => if relay.revoking.isSome then system else system.revoke relay
  | .persist operation =>
    match relay.revoking, relay.active with
    | some false, _ | some true, none => system.persist codec layout config binding journal relay operation
    | _, _ => system
  | .abandon => { system with relay := some { relay with revoking := none } }
  | .gateway _ _ | .start _ _ => system
  | .crash kept => { system with root := .closed (if kept then journal.visible else journal.durable), relay := none }

/-- One input of an open root without a relay. -/
def System.idle (system : System) (journal : Journal) : Input → System
  | .gateway request operation =>
    if request.ofGateway then
      { system with root := .opened (operation.run codec layout config journal request).1 }
    else system
  | .start now operation => system.start codec layout config binding journal now operation
  | .crash kept => { system with root := .closed (if kept then journal.visible else journal.durable) }
  | _ => system

/-- `Open` of a closed root, when it succeeds. -/
def System.reopen (system : System) (disk : Disk) : System :=
  match disk.recover codec layout config with
  | .ok store => { system with root := .opened ⟨disk, disk, store⟩ }
  | .error _ => system

def System.step (system : System) (input : Input) : System :=
  match system.root, system.relay with
  | .opened journal, some relay => system.live codec layout config binding journal relay input
  | .opened journal, none => system.idle codec layout config binding journal input
  | .closed disk, _ =>
    match input with
    | .start _ _ => system.reopen codec layout config disk
    | _ => system

/-- No relay and an empty root. -/
def System.initial : System := ⟨.opened Journal.fresh, none, []⟩

end System

end DittoSubnet.Coding

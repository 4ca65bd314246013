import DittoSubnet.Coding.Contract
import DittoSubnet.Kit.Transaction

/-!
# The relay journal

The journal keeps one state record and a numbered list of entry records, each installed by a staged rename. A call
first checks its arguments against the whole journal and then names the records to install, in order; `perform` installs
them one by one and stops at the first that fails. `recover` reads the records back and checks each of them against the
ones before it.

The lengths and the nesting of the JSON the records are written as enter as a `Layout`.
-/

namespace DittoSubnet.Coding

open Kit

/-! ## Records -/

/-- Instants count nanoseconds from the zero time. -/
structure Binding where
  attemptID : String
  agentArtifactSHA256 : String
  harnessInstanceID : String
  ticketID : String
  caseID : String
  profileCapabilityID : String
  grantID : String
  generation : Nat
  inferenceGrantSHA256 : String
  issuedAt : Int
  deadline : Int
  requestBudget : Nat
  promptTokenBudget : Nat
  completionTokenBudget : Nat
  costBudgetUSDMicros : Nat
  deriving DecidableEq, Repr

structure DispatchRecord where
  sequence : Nat
  requestSequence : Nat
  attempt : Nat
  requestID : String
  minerRequestSHA256 : String
  minerRequest : InferenceMinerRequest
  lockedRequestSHA256 : String
  lockedRequest : InferenceLockedRequest
  deriving DecidableEq, Repr

/-- What completion adds to a dispatch. -/
structure Completion where
  settlement : InferenceProviderSettlement
  receipt : InferenceReceipt
  normalizedResponse : List UInt8
  failureResponseProjection : List UInt8
  minerResponse : List UInt8
  deriving DecidableEq, Repr

/-- A dispatch without its completion is an open entry: its completion fields are the zero values. -/
structure JournalEntry where
  dispatch : DispatchRecord
  completion : Option Completion
  deriving DecidableEq, Repr

namespace JournalEntry

def completed (entry : JournalEntry) : Bool := entry.completion.isSome

def promptTokens (entry : JournalEntry) : Nat := (entry.completion.map (·.receipt.promptTokens)).getD 0

def completionTokens (entry : JournalEntry) : Nat := (entry.completion.map (·.receipt.completionTokens)).getD 0

def costUSDMicros (entry : JournalEntry) : Nat := (entry.completion.map (·.receipt.costUSDMicros)).getD 0

end JournalEntry

structure StateRecord where
  generation : Nat
  binding : Binding
  revoked : Bool
  deriving DecidableEq, Repr

structure EntryRecord where
  generation : Nat
  sequence : Nat
  entry : JournalEntry
  deriving DecidableEq, Repr

/-- The values the journal writes as JSON. -/
inductive JournalDocument where
  | binding (binding : Binding)
  | dispatch (dispatch : DispatchRecord)
  | entry (entry : JournalEntry)
  | state (record : StateRecord)
  | record (record : EntryRecord)
  deriving DecidableEq, Repr

/-- The length of the JSON of a document, a record's newline included, and its nesting. A field's JSON is part of its
object's, and lies one level deeper. -/
structure Layout where
  length : JournalDocument → Nat
  depth : JournalDocument → Nat
  length_pos : ∀ document, 0 < length document
  dispatch_length : ∀ entry, length (.dispatch entry.dispatch) ≤ length (.entry entry)
  dispatch_depth : ∀ entry, depth (.dispatch entry.dispatch) + 1 ≤ depth (.entry entry)
  record_depth : ∀ record, depth (.record record) = depth (.entry record.entry) + 1
  binding_length : ∀ record, length (.binding record.binding) ≤ length (.state record)
  binding_depth : ∀ binding, depth (.binding binding) = 1
  state_depth : ∀ record, depth (.state record) = depth (.binding record.binding) + 1

def maximumStateBytes : Nat := 64 * 2 ^ 10
def maximumEntryBytes : Nat := 48 * 2 ^ 20
def maximumRootBytes : Nat := 2 ^ 40
def maximumEntries : Nat := 4096

inductive JournalError where
  | invalid
  | capacity
  | conflict
  | corrupt
  | state
  | closed
  | io
  deriving DecidableEq, Repr

structure JournalConfig where
  policy : InferencePolicy
  maxTotalBytes : Nat
  maxEntries : Nat
  deriving DecidableEq, Repr

/-- The checks of `Open` before it touches the root. -/
def JournalConfig.Valid (config : JournalConfig) : Prop :=
  0 < config.maxTotalBytes ∧ config.maxTotalBytes ≤ maximumRootBytes ∧ 0 < config.maxEntries ∧
    config.maxEntries ≤ maximumEntries ∧ config.policy.Validate ∧
    config.maxEntries ≤ config.policy.maxRequests + config.policy.maxRetries

instance (config : JournalConfig) : Decidable config.Valid := by
  unfold JournalConfig.Valid
  infer_instance

/-! ## Checks on records -/

section Checks

variable (codec : Codec) (layout : Layout)

/-- `ValidateJSONDocument`: a bounded document nested at most 32 levels. -/
def ValidateJSONDocument (document : JournalDocument) (maximum : Nat) : Prop :=
  0 < layout.length document ∧ layout.length document ≤ maximum ∧ layout.depth document ≤ 32

instance (document : JournalDocument) (maximum : Nat) : Decidable (ValidateJSONDocument layout document maximum) := by
  unfold ValidateJSONDocument
  infer_instance

def validateBinding (policy : InferencePolicy) (binding : Binding) : Prop :=
  validIdentifier binding.attemptID 256 ∧ validSHA256 binding.agentArtifactSHA256 ∧
    validIdentifier binding.harnessInstanceID 256 ∧ canonicalUUID binding.ticketID ∧
    validIdentifier binding.caseID 256 ∧ validIdentifier binding.profileCapabilityID 256 ∧
    canonicalUUID binding.grantID ∧ 0 < binding.generation ∧ binding.generation ≤ 2 ^ 31 - 1 ∧
    InferencePolicySHA256 codec policy = some binding.inferenceGrantSHA256 ∧ binding.issuedAt ≠ 0 ∧
    binding.deadline ≠ 0 ∧ binding.issuedAt < binding.deadline ∧
    binding.deadline ≤ binding.issuedAt + 7200 * 10 ^ 9 ∧ 0 < binding.requestBudget ∧
    binding.requestBudget ≤ policy.maxRequests ∧ 0 < binding.promptTokenBudget ∧
    binding.promptTokenBudget ≤ policy.maxPromptTokens ∧ 0 < binding.completionTokenBudget ∧
    binding.completionTokenBudget ≤ policy.maxCompletionTokens ∧ 0 < binding.costBudgetUSDMicros ∧
    binding.costBudgetUSDMicros ≤ policy.maxCostUSDMicros

instance (policy : InferencePolicy) (binding : Binding) : Decidable (validateBinding codec policy binding) := by
  unfold validateBinding
  infer_instance

def validateDispatch (policy : InferencePolicy) (dispatch : DispatchRecord) : Prop :=
  0 < dispatch.sequence ∧ 0 < dispatch.requestSequence ∧ 0 < dispatch.attempt ∧
    dispatch.sequence ≤ policy.maxRequests + policy.maxRetries ∧ dispatch.requestSequence ≤ policy.maxRequests ∧
    dispatch.attempt ≤ policy.maxAttemptsPerRequest ∧ canonicalUUID dispatch.requestID ∧
    validSHA256 dispatch.minerRequestSHA256 ∧ validSHA256 dispatch.lockedRequestSHA256 ∧
    InferenceMinerRequestSHA256 codec policy dispatch.minerRequest = some dispatch.minerRequestSHA256 ∧
    InferenceLockedRequestSHA256 codec policy dispatch.lockedRequest = some dispatch.lockedRequestSHA256

instance (policy : InferencePolicy) (dispatch : DispatchRecord) :
    Decidable (validateDispatch codec policy dispatch) := by
  unfold validateDispatch
  infer_instance

/-- Tokens and cost used so far. -/
structure Used where
  prompt : Nat
  completion : Nat
  cost : Nat
  deriving DecidableEq, Repr

/-- One entry's usage on top of what is used, unless a counter overflows. -/
def Used.add (used : Used) (entry : JournalEntry) (overflow : JournalError) : Except JournalError Used :=
  if used.prompt > maxUint64 - entry.promptTokens ∨ used.completion > maxUint64 - entry.completionTokens ∨
      used.cost > maxUint64 - entry.costUSDMicros then .error overflow
  else .ok ⟨used.prompt + entry.promptTokens, used.completion + entry.completionTokens,
    used.cost + entry.costUSDMicros⟩

def usage (entries : List JournalEntry) (overflow : JournalError) : Except JournalError Used :=
  entries.foldlM (fun used entry => used.add entry overflow) ⟨0, 0, 0⟩

def validateDispatchAuthority (policy : InferencePolicy) (binding : Binding) (entries : List EntryRecord)
    (dispatch : DispatchRecord) : Except JournalError Unit := do
  ensure (validateBinding codec policy binding ∧ validateDispatch codec policy dispatch ∧
    dispatch.requestSequence ≤ binding.requestBudget) .invalid
  let used ← usage (entries.map EntryRecord.entry) .invalid
  ensure (used.prompt < binding.promptTokenBudget ∧ used.completion < binding.completionTokenBudget ∧
    used.cost < policy.maxCostUSDMicros) .capacity
  let remaining := binding.completionTokenBudget - used.completion
  ensure (LockInferenceRequest codec policy (dispatch.minerRequest.clamp remaining) = some dispatch.lockedRequest)
    .conflict

/-- The usage of every completed entry, `next` in place of the one of its sequence. -/
def validateCompletedUsage (policy : InferencePolicy) (binding : Binding) (entries : List EntryRecord)
    (next : JournalEntry) : Except JournalError Unit := do
  let others := entries.filter (fun record => record.sequence ≠ next.dispatch.sequence)
  let completed := (others.map EntryRecord.entry ++ [next]).filter JournalEntry.completed
  let used ← usage completed .capacity
  ensure (used.prompt ≤ binding.promptTokenBudget ∧ used.completion ≤ binding.completionTokenBudget ∧
    used.cost ≤ policy.maxCostUSDMicros) .capacity

/-- How a dispatch may follow the last entry. -/
def followsLast (previous : JournalEntry) (dispatch : DispatchRecord) : Except JournalError Unit :=
  match previous.completion with
  | none => .error .state
  | some completion =>
    if completion.receipt.outcome = .freeRetry then
      ensure (dispatch.requestSequence = previous.dispatch.requestSequence ∧
        dispatch.attempt = previous.dispatch.attempt + 1 ∧ dispatch.requestID = previous.dispatch.requestID ∧
        dispatch.minerRequestSHA256 = previous.dispatch.minerRequestSHA256 ∧
        dispatch.lockedRequestSHA256 = previous.dispatch.lockedRequestSHA256 ∧
        dispatch.minerRequest = previous.dispatch.minerRequest ∧
        dispatch.lockedRequest = previous.dispatch.lockedRequest) .conflict
    else
      ensure (completion.receipt.outcome = .complete ∧
        dispatch.requestSequence = previous.dispatch.requestSequence + 1 ∧ dispatch.attempt = 1) .state

def validateDispatchTransition (entries : List EntryRecord) (dispatch : DispatchRecord) :
    Except JournalError Unit := do
  ensure (dispatch.sequence = entries.length + 1) .state
  ensure (∀ record ∈ entries, record.entry.dispatch.requestID = dispatch.requestID →
    record.entry.dispatch.requestSequence = dispatch.requestSequence) .conflict
  match entries.getLast? with
  | none => ensure (dispatch.requestSequence = 1 ∧ dispatch.attempt = 1) .state
  | some previous => followsLast previous.entry dispatch

/-- The response bodies a completion may carry, by its outcome. -/
def responsesOk (policy : InferencePolicy) (completion : Completion) : Bool :=
  match completion.receipt.outcome with
  | .complete =>
    !completion.normalizedResponse.isEmpty && !completion.minerResponse.isEmpty &&
    completion.failureResponseProjection.isEmpty &&
    match ParseInferenceNormalizedResponse codec policy completion.normalizedResponse with
    | none => false
    | some normalized =>
      InferenceNormalizedResponseSHA256 codec policy normalized == completion.receipt.responseSHA256 &&
      completion.receipt.responseSHA256.isSome &&
      completion.receipt.providerGenerationID == some normalized.id &&
      normalized.usage.promptTokens == completion.receipt.promptTokens &&
      normalized.usage.completionTokens == completion.receipt.completionTokens &&
      normalized.usage.totalTokens == completion.receipt.totalTokens &&
      normalized.costUSDMicros == completion.receipt.costUSDMicros &&
      ParseInferenceMinerResponse codec policy completion.minerResponse == some normalized.miner
  | .freeRetry | .providerFailed =>
    completion.minerResponse.isEmpty && completion.normalizedResponse.isEmpty &&
    if completion.receipt.responseDigestKind = .canonicalJSON then
      !completion.failureResponseProjection.isEmpty && completion.receipt.responseSHA256.isSome &&
      InferenceCanonicalResponseProjectionSHA256 codec policy completion.failureResponseProjection ==
        completion.receipt.responseSHA256
    else completion.failureResponseProjection.isEmpty
  | .other => false

/-- `validateCompletedEntry` of a dispatch and its completion. -/
def validateCompletion (policy : InferencePolicy) (binding : Binding) (dispatch : DispatchRecord)
    (completion : Completion) : Prop :=
  validateDispatch codec policy dispatch ∧ validateBinding codec policy binding ∧
    completion.receipt.sequence = dispatch.sequence ∧
    completion.receipt.requestSequence = dispatch.requestSequence ∧
    completion.receipt.attempt = dispatch.attempt ∧ completion.receipt.requestID = dispatch.requestID ∧
    completion.receipt.lockedRequestSHA256 = dispatch.lockedRequestSHA256 ∧
    completion.receipt.schema = InferenceReceiptSchema ∧ completion.receipt.promptSHA256 = policy.promptSHA256 ∧
    completion.receipt.toolSchemaSHA256 = policy.toolSchemaSHA256 ∧ completion.receipt.model = policy.model ∧
    completion.receipt.providerRoute = policy.providerRoute ∧
    completion.receipt.providerRouteProfile = policy.providerRouteProfile ∧
    completion.receipt.fallbackUsed = false ∧ completion.settlement.Validate codec policy ∧
    completion.settlement.ValidateAgainstReceipt codec policy completion.receipt ∧
    completion.settlement.ticketID = binding.ticketID ∧ completion.settlement.caseID = binding.caseID ∧
    completion.settlement.profileCapabilityID = binding.profileCapabilityID ∧
    completion.settlement.inferenceGrantSHA256 = binding.inferenceGrantSHA256 ∧
    completion.settlement.grantID = binding.grantID ∧ completion.settlement.generation = binding.generation ∧
    completion.settlement.completionTokens ≤ dispatch.lockedRequest.maxCompletionTokens ∧
    responsesOk codec policy completion

instance (policy : InferencePolicy) (binding : Binding) (dispatch : DispatchRecord) (completion : Completion) :
    Decidable (validateCompletion codec policy binding dispatch completion) := by
  unfold validateCompletion
  infer_instance

def validateCompletedEntry (policy : InferencePolicy) (binding : Binding) (entry : JournalEntry) : Prop :=
  match entry.completion with
  | none => False
  | some completion => validateCompletion codec policy binding entry.dispatch completion

instance (policy : InferencePolicy) (binding : Binding) (entry : JournalEntry) :
    Decidable (validateCompletedEntry codec policy binding entry) := by
  unfold validateCompletedEntry
  split <;> infer_instance

end Checks

/-! ## The store and its calls -/

structure Store where
  state : Option StateRecord
  entries : List EntryRecord
  stateBytes : Nat
  entryBytes : List Nat
  physicalBytes : Nat
  syncPending : Bool
  deriving DecidableEq, Repr

/-- A record to install, with its length; `replace` allows an existing file. -/
inductive Install where
  | state (record : StateRecord) (bytes : Nat) (replace : Bool)
  | entry (record : EntryRecord) (bytes : Nat) (replace : Bool)
  deriving DecidableEq, Repr

/-- What the caller asks of the journal. -/
inductive Call where
  | load (binding : Binding)
  | bind (binding : Binding)
  | begin (binding : Binding) (dispatch : DispatchRecord)
  | complete (binding : Binding) (entry : JournalEntry)
  | revoke (binding : Binding)
  deriving DecidableEq, Repr

def Call.binding : Call → Binding
  | .load binding | .bind binding | .begin binding _ | .complete binding _ | .revoke binding => binding

/-- Only a completed entry may be passed to `Complete`. -/
def Call.completes : Call → Bool
  | .complete _ entry => entry.completed
  | _ => true

section Calls

variable (codec : Codec) (layout : Layout) (config : JournalConfig)

def Store.hasCapacity (store : Store) (stagingBytes : Nat) : Prop :=
  store.physicalBytes ≤ config.maxTotalBytes ∧ stagingBytes ≤ config.maxTotalBytes - store.physicalBytes

instance (store : Store) (stagingBytes : Nat) : Decidable (store.hasCapacity config stagingBytes) := by
  unfold Store.hasCapacity
  infer_instance

def replacementDelta (existing next : Nat) : Nat := if next ≤ existing then 0 else next - existing

def Store.stateGrowthHeadroom (store : Store) (pendingState : Option Nat) : Nat :=
  let current := pendingState.getD store.stateBytes
  if maximumStateBytes ≤ current then 0 else maximumStateBytes - current

/-- The length of an encoded state record, when it is within its bound. -/
def stateRecordBytes (record : StateRecord) : Except JournalError Nat :=
  if layout.length (.state record) ≤ maximumStateBytes then .ok (layout.length (.state record)) else .error .invalid

/-- The length of an encoded entry record. The entry is cloned first, and a clone that fails is reported as it is. -/
def entryRecordBytes (record : EntryRecord) : Except JournalError Nat := do
  ensure (ValidateJSONDocument layout (.entry record.entry) maximumEntryBytes) .invalid
  if layout.length (.record record) ≤ maximumEntryBytes then .ok (layout.length (.record record))
  else .error .capacity

/-- `bindingsEqual`: equal after both were cloned. -/
def bindingsEqual (left right : Binding) : Prop :=
  ValidateJSONDocument layout (.binding left) maximumStateBytes ∧ left = right

instance (left right : Binding) : Decidable (bindingsEqual layout left right) := by
  unfold bindingsEqual
  infer_instance

def Store.Load (store : Store) (binding : Binding) : Except JournalError (List Install) :=
  match store.state with
  | none => .ok []
  | some state => do
    ensure (bindingsEqual layout state.binding binding) .conflict
    ensure (∀ record ∈ store.entries, ValidateJSONDocument layout (.entry record.entry) maximumEntryBytes) .corrupt
    pure []

def Store.Bind (store : Store) (binding : Binding) : Except JournalError (List Install) :=
  match store.state with
  | some state => do
    ensure (bindingsEqual layout state.binding binding) .conflict
    ensure (state.revoked = false) .state
    pure []
  | none => do
    ensure (ValidateJSONDocument layout (.binding binding) maximumStateBytes) .invalid
    let state : StateRecord := ⟨1, binding, false⟩
    let body ← stateRecordBytes layout state
    ensure (store.hasCapacity config (body + 2 * maximumEntryBytes)) .capacity
    pure [.state state body false]

/-- The state record that the first dispatch installs when no call has bound the journal. -/
def Store.firstState (store : Store) (binding : Binding) : Except JournalError (Option (StateRecord × Nat)) :=
  match store.state with
  | some _ => .ok none
  | none => do
    ensure (ValidateJSONDocument layout (.binding binding) maximumStateBytes) .invalid
    let state : StateRecord := ⟨1, binding, false⟩
    let body ← stateRecordBytes layout state
    pure (some (state, body))

/-- A dispatch that extends the journal: its marker, after the state record if there is none yet. -/
def Store.appendDispatch (store : Store) (binding : Binding) (dispatch : DispatchRecord) :
    Except JournalError (List Install) := do
  ensure (∀ state ∈ store.state, state.revoked = false) .state
  ensure (dispatch.sequence = store.entries.length + 1 ∧ store.entries.length < config.maxEntries ∧
    validateDispatchTransition store.entries dispatch = .ok ()) .state
  let record : EntryRecord := ⟨1, dispatch.sequence, ⟨dispatch, none⟩⟩
  let entryBody ← entryRecordBytes layout record
  let pending ← store.firstState layout binding
  let stateBody := (pending.map Prod.snd).getD 0
  let required := entryBody + maximumEntryBytes + store.stateGrowthHeadroom (pending.map Prod.snd) + stateBody
  ensure (store.hasCapacity config required) .capacity
  pure ((pending.map fun p => Install.state p.1 p.2 false).toList ++ [.entry record entryBody false])

def Store.Begin (store : Store) (binding : Binding) (dispatch : DispatchRecord) :
    Except JournalError (List Install) := do
  ensure (ValidateJSONDocument layout (.dispatch dispatch) maximumEntryBytes) .invalid
  validateDispatchAuthority codec config.policy binding store.entries dispatch
  ensure (∀ state ∈ store.state, bindingsEqual layout state.binding binding) .conflict
  match store.entries[dispatch.sequence - 1]? with
  | some existing =>
    ensure (existing.entry.dispatch = dispatch) .conflict
    pure []
  | none => store.appendDispatch layout config binding dispatch

/-- The completion of the open dispatch: its record in place of the marker. -/
def Store.replaceMarker (store : Store) (binding : Binding) (state : StateRecord) (current : EntryRecord)
    (entry : JournalEntry) : Except JournalError (List Install) := do
  ensure (state.revoked = false) .state
  ensure (entry.dispatch.sequence = store.entries.length ∧ current.entry.dispatch = entry.dispatch) .conflict
  let replacement : EntryRecord := ⟨current.generation + 1, entry.dispatch.sequence, entry⟩
  let body ← entryRecordBytes layout replacement
  validateCompletedUsage config.policy binding store.entries entry
  let old := (store.entryBytes[entry.dispatch.sequence - 1]?).getD 0
  ensure (store.hasCapacity config (replacementDelta old body)) .capacity
  pure [.entry replacement body true]

def Store.Complete (store : Store) (binding : Binding) (entry : JournalEntry) :
    Except JournalError (List Install) :=
  match store.state with
  | none => .error .state
  | some state => do
    ensure (ValidateJSONDocument layout (.entry entry) maximumEntryBytes ∧
      validateCompletedEntry codec config.policy state.binding entry) .invalid
    ensure (bindingsEqual layout state.binding binding) .conflict
    ensure (entry.dispatch.sequence ≠ 0) .state
    match store.entries[entry.dispatch.sequence - 1]? with
    | none => .error .state
    | some current =>
      if current.entry.completed then do
        ensure (current.entry = entry) .conflict
        pure []
      else store.replaceMarker layout config binding state current entry

def Store.Revoke (store : Store) (binding : Binding) : Except JournalError (List Install) :=
  match store.state with
  | some state => do
    ensure (bindingsEqual layout state.binding binding) .conflict
    if state.revoked then pure []
    else do
      let next : StateRecord := ⟨state.generation + 1, state.binding, true⟩
      let body ← stateRecordBytes layout next
      ensure (store.hasCapacity config (replacementDelta store.stateBytes body)) .capacity
      pure [.state next body true]
  | none => do
    ensure (ValidateJSONDocument layout (.binding binding) maximumStateBytes) .invalid
    let next : StateRecord := ⟨1, binding, true⟩
    let body ← stateRecordBytes layout next
    ensure (store.hasCapacity config (replacementDelta store.stateBytes body)) .capacity
    pure [.state next body false]

/-- The records a call installs on an open store. -/
def Store.plan (store : Store) : Call → Except JournalError (List Install)
  | .load binding => store.Load layout binding
  | .bind binding => store.Bind layout config binding
  | .begin binding dispatch => store.Begin codec layout config binding dispatch
  | .complete binding entry => store.Complete codec layout config binding entry
  | .revoke binding => store.Revoke layout config binding

/-- What every call checks before it looks at the store. -/
def Call.admissible (call : Call) : Prop := call.completes ∧ validateBinding codec config.policy call.binding

instance (call : Call) : Decidable (call.admissible codec config) := by
  unfold Call.admissible
  infer_instance

/-- What a committed install changes in memory. -/
def Store.install (store : Store) : Install → Store
  | .state record bytes _ =>
    { store with state := some record, stateBytes := bytes,
                 physicalBytes := store.physicalBytes + bytes - store.stateBytes }
  | .entry record bytes false =>
    { store with entries := store.entries ++ [record], entryBytes := store.entryBytes ++ [bytes],
                 physicalBytes := store.physicalBytes + bytes }
  | .entry record bytes true =>
    let index := record.sequence - 1
    { store with entries := store.entries.set index record, entryBytes := store.entryBytes.set index bytes,
                 physicalBytes := store.physicalBytes + bytes - (store.entryBytes[index]?).getD 0 }

/-! ## Files -/

/-- The record files under the root. An entry file is named by its number. -/
structure Disk where
  state : Option StateRecord
  entries : List (Nat × EntryRecord)
  deriving DecidableEq, Repr

/-- The rename of an install: it fails when the target is there and may not be, or is not and must be. -/
def Disk.install (disk : Disk) : Install → Except JournalError Disk
  | .state record _ replace =>
    if replace && disk.state.isNone then .error .corrupt
    else if !replace && disk.state.isSome then .error .conflict
    else .ok { disk with state := some record }
  | .entry record _ replace =>
    let present := record.sequence ∈ disk.entries.map Prod.fst
    if replace then
      if present then
        .ok { disk with entries := disk.entries.map fun file =>
          if file.1 = record.sequence then (file.1, record) else file }
      else .error .corrupt
    else if present then .error .conflict
    else .ok { disk with entries := disk.entries ++ [(record.sequence, record)] }

/-- How an install ends: done, failed before the rename, or renamed and then failed before the directories were
known to be synced. -/
inductive Io where
  | done
  | failed
  | unsynced
  deriving DecidableEq, Repr

/-- An open store over its root: what the file system shows, what a crash cannot take back, and the store. -/
structure Journal where
  visible : Disk
  durable : Disk
  store : Store
  deriving DecidableEq, Repr

/-- One install. -/
def Journal.installRecord (journal : Journal) (install : Install) (io : Io) : Journal × Except JournalError Unit :=
  match io with
  | .failed => (journal, .error .io)
  | .unsynced =>
    match journal.visible.install install with
    | .error e => (journal, .error e)
    | .ok disk =>
      ({ journal with visible := disk, store := { journal.store.install install with syncPending := true } },
        .error .io)
  | .done =>
    match journal.visible.install install with
    | .error e => (journal, .error e)
    | .ok disk => (⟨disk, disk, { journal.store.install install with syncPending := false }⟩, .ok ())

/-- The installs of a plan, up to the first that fails. -/
def Journal.perform (journal : Journal) : List Install → List Io → Journal × Except JournalError Unit
  | [], _ => (journal, .ok ())
  | install :: rest, io =>
    match journal.installRecord install (io.head?.getD .done) with
    | (next, .error e) => (next, .error e)
    | (next, .ok ()) => next.perform rest io.tail

/-- `checkOpen`: a pending directory sync is made up for first. -/
def Journal.checkOpen (journal : Journal) (syncs : Bool) : Except JournalError Journal :=
  if journal.store.syncPending then
    if syncs then .ok { journal with durable := journal.visible, store := { journal.store with syncPending := false } }
    else .error .io
  else .ok journal

/-- One call on the open store; `syncs` and `io` are how its file-system steps go. -/
def Journal.call (journal : Journal) (request : Call) (syncs : Bool) (io : List Io) :
    Journal × Except JournalError Unit :=
  if request.admissible codec config then
    match journal.checkOpen syncs with
    | .error e => (journal, .error e)
    | .ok opened =>
      match opened.store.plan codec layout config request with
      | .error e => (opened, .error e)
      | .ok installs => opened.perform installs io
  else (journal, .error .invalid)

/-! ## Recovery -/

def Store.empty : Store := ⟨none, [], 0, [], 0, false⟩

/-- A binding without a cost budget gets the policy's. -/
def Binding.withCostBudget (binding : Binding) : Binding :=
  if binding.costBudgetUSDMicros = 0 then { binding with costBudgetUSDMicros := config.policy.maxCostUSDMicros }
  else binding

def decodeStateRecord (record : StateRecord) : Except JournalError StateRecord := do
  ensure (ValidateJSONDocument layout (.state record) maximumStateBytes ∧ record.generation ≠ 0 ∧
    record.generation ≤ 2 ∧ (record.generation = 2 → record.revoked = true)) .corrupt
  pure record

def decodeEntryRecord (binding : Binding) (record : EntryRecord) : Except JournalError Unit := do
  ensure (ValidateJSONDocument layout (.record record) maximumEntryBytes ∧ record.generation ≠ 0 ∧
    record.generation ≤ 2 ∧ (record.entry.completed → record.generation = 2) ∧
    (¬ record.entry.completed → record.generation = 1) ∧ record.sequence ≠ 0 ∧
    record.entry.dispatch.sequence = record.sequence) .corrupt
  ensure (ValidateJSONDocument layout (.entry record.entry) maximumEntryBytes) .corrupt
  if record.entry.completed then ensure (validateCompletedEntry codec config.policy binding record.entry) .corrupt
  else ensure (validateDispatch codec config.policy record.entry.dispatch) .corrupt

/-- A failed check of the loader is corruption. -/
def orCorrupt (check : Except JournalError Unit) : Except JournalError Unit :=
  match check with
  | .ok () => .ok ()
  | .error _ => .error .corrupt

/-- The checks of the loader on one record, against the records loaded before it. -/
def loadCheck (binding : Binding) (loaded : List EntryRecord) (record : EntryRecord) : Except JournalError Unit := do
  decodeEntryRecord codec layout config binding record
  ensure (record.sequence = loaded.length + 1) .corrupt
  orCorrupt (validateDispatchAuthority codec config.policy binding loaded record.entry.dispatch)
  orCorrupt (validateDispatchTransition loaded record.entry.dispatch)
  if record.entry.completed then orCorrupt (validateCompletedUsage config.policy binding loaded record.entry)
  else pure ()

/-- What loading a record of `size` bytes changes in memory. -/
def Store.loaded (store : Store) (record : EntryRecord) (size : Nat) : Store :=
  { store with
    entries := store.entries ++ [record]
    entryBytes := store.entryBytes ++ [size]
    physicalBytes :=
      if size > config.maxTotalBytes - store.physicalBytes then config.maxTotalBytes + 1
      else store.physicalBytes + size }

/-- The binding the loader reads entries under; without a state record it is the zero binding. -/
def Store.loadBinding (store : Store) : Binding :=
  match store.state with
  | some state => state.binding
  | none => ⟨"", "", "", "", "", "", "", 0, "", 0, 0, 0, 0, 0, 0⟩

/-- The files in the order of their numbers. -/
def Store.loadEntries (store : Store) : List (Nat × EntryRecord) → Except JournalError Store
  | [] => .ok store
  | (number, record) :: rest => do
    ensure (number = store.entries.length + 1 ∧ record.sequence = number) .corrupt
    loadCheck codec layout config store.loadBinding store.entries record
    ensure (record.entry.completed ∨ rest = []) .corrupt
    (store.loaded config record (layout.length (.record record))).loadEntries rest

def Disk.sorted (disk : Disk) : List (Nat × EntryRecord) :=
  disk.entries.mergeSort (fun a b => decide (a.1 ≤ b.1))

/-- The store that `Open` recovers from the record files. -/
def Disk.recover (disk : Disk) : Except JournalError Store := do
  let state ← match disk.state with
    | none => pure none
    | some record => do
      let decoded ← decodeStateRecord layout record
      let binding := decoded.binding.withCostBudget config
      ensure (validateBinding codec config.policy binding) .corrupt
      pure (some { decoded with binding := binding })
  let size := (disk.state.map fun record => layout.length (.state record)).getD 0
  let store : Store := ⟨state, [], size, [], size, false⟩
  ensure (disk.entries.length ≤ config.maxEntries) .capacity
  let recovered ← store.loadEntries codec layout config disk.sorted
  ensure (recovered.state.isSome ∨ recovered.entries = []) .corrupt
  pure recovered

end Calls

end DittoSubnet.Coding

import DittoSubnet.Coding.Contract
import DittoSubnet.Kit.Scan

/-!
# Receipt sets and model evidence

`validateInferenceReceiptSet` of `codingcontract/inference.go` reads the receipts of a run in one pass, and
`DeriveInferenceModelEvidence` turns them into the evidence that is signed. The pass keeps what it has seen in a
`ReceiptScan`.

* `validateInferenceReceiptSet_iff`: the pass accepts a set when its identity is sound and every receipt is sound
  against the ones before it (`ReceiptOk`): the receipts are runs of free retries, each ended by its request's one
  terminal receipt, and nothing follows a provider failure.
* Its totals are those of the receipts (`aggregateOf`).
-/

namespace DittoSubnet.Coding

open Kit

/-! ## The pass -/

structure InferenceReceiptAggregate where
  requests : Nat
  retries : Nat
  promptTokens : Nat
  completionTokens : Nat
  costUSDMicros : Nat
  providerFailure : Bool
  deriving DecidableEq, Repr

/-- The state of the pass between two receipts. -/
structure ReceiptScan where
  aggregate : InferenceReceiptAggregate
  seenRequests : List String
  seenSettlements : List String
  seenGenerations : List String
  current : Option InferenceReceipt
  terminal : Bool
  deriving DecidableEq, Repr

def ReceiptScan.start : ReceiptScan := ⟨⟨0, 0, 0, 0, 0, false⟩, [], [], [], none, true⟩

section Pass

variable (policy : InferencePolicy) (set : InferenceReceiptSet)

/-- A receipt of a request that the pass has not seen. -/
def ReceiptScan.openRequest (scan : ReceiptScan) (receipt : InferenceReceipt) : Except String ReceiptScan := do
  ensure (scan.terminal = true ∧ (∀ current ∈ scan.current, current.outcome = .complete) ∧
    receipt.requestSequence = scan.aggregate.requests + 1 ∧ receipt.attempt = 1)
    "coding inference request sequence is invalid"
  ensure (receipt.requestID ∉ scan.seenRequests) "coding inference request ID was reused"
  pure { scan with seenRequests := scan.seenRequests ++ [receipt.requestID]
                   aggregate := { scan.aggregate with requests := scan.aggregate.requests + 1 }
                   terminal := false }

/-- The receipt of the next attempt of one request. -/
def RetryOf (current receipt : InferenceReceipt) : Prop :=
  receipt.attempt = current.attempt + 1 ∧ receipt.requestID = current.requestID ∧
    receipt.lockedRequestSHA256 = current.lockedRequestSHA256 ∧ receipt.promptSHA256 = current.promptSHA256 ∧
    receipt.toolSchemaSHA256 = current.toolSchemaSHA256

instance (current receipt : InferenceReceipt) : Decidable (RetryOf current receipt) := by
  unfold RetryOf
  infer_instance

def ReceiptScan.enter (scan : ReceiptScan) (receipt : InferenceReceipt) : Except String ReceiptScan :=
  match scan.current with
  | none => scan.openRequest receipt
  | some current =>
    if receipt.requestSequence ≠ current.requestSequence then scan.openRequest receipt
    else do
      ensure (scan.terminal = false ∧ RetryOf current receipt) "coding inference retry identity is invalid"
      pure scan

def receiptIdentityOk (receipt : InferenceReceipt) : Bool :=
  receipt.attempt ≤ policy.maxAttemptsPerRequest && receipt.promptSHA256 == policy.promptSHA256 &&
  receipt.toolSchemaSHA256 == policy.toolSchemaSHA256 && receipt.model == policy.model &&
  receipt.providerRoute == policy.providerRoute && receipt.providerRouteProfile == policy.providerRouteProfile &&
  !receipt.fallbackUsed && canonicalUUID receipt.requestID && validSHA256 receipt.lockedRequestSHA256 &&
  receipt.promptTokens ≤ maxUint64 - receipt.completionTokens &&
  receipt.totalTokens == receipt.promptTokens + receipt.completionTokens &&
  receipt.completionTokens ≤ policy.maxCompletionTokensPerRequest && 0 ≤ receipt.httpStatus &&
  receipt.httpStatus ≤ 599 &&
  validInferenceResponseDigestKind receipt.responseSHA256 receipt.responseDigestKind receipt.outcome &&
  validSHA256 receipt.providerSettlementSHA256

def ReceiptScan.settlement (scan : ReceiptScan) (receipt : InferenceReceipt) : Except String ReceiptScan := do
  ensure (receipt.providerSettlementSHA256 ∉ scan.seenSettlements) "coding inference provider settlement was reused"
  pure { scan with seenSettlements := scan.seenSettlements ++ [receipt.providerSettlementSHA256] }

def ReceiptScan.generation (scan : ReceiptScan) (receipt : InferenceReceipt) : Except String ReceiptScan :=
  match receipt.providerGenerationID with
  | none => .ok scan
  | some generation => do
    ensure (validIdentifier generation 256) "coding inference provider generation is invalid"
    ensure (generation ∉ scan.seenGenerations) "coding inference provider generation was reused"
    pure { scan with seenGenerations := scan.seenGenerations ++ [generation] }

def freeRetryOk (receipt : InferenceReceipt) : Bool :=
  receipt.failureCode == some "pre_provider_unavailable" && retryablePreProviderStatus receipt.httpStatus &&
  receipt.responseSHA256.isNone && !receipt.providerSelected && receipt.receiptProvider.isNone &&
  receipt.promptTokens == 0 && receipt.completionTokens == 0 && receipt.costUSDMicros == 0 && !receipt.timedOut &&
  receipt.providerGenerationID.isNone

def completeOk (receipt : InferenceReceipt) : Bool :=
  receipt.failureCode.isNone && 200 ≤ receipt.httpStatus && receipt.httpStatus < 300 &&
  receipt.responseSHA256.any validSHA256 && receipt.providerSelected &&
  receipt.receiptProvider == some policy.receiptProvider && receipt.providerGenerationID.isSome && !receipt.timedOut

def providerFailedOk (receipt : InferenceReceipt) : Bool :=
  receipt.failureCode.any (inferenceFailureCodes.contains ·) &&
  validProviderFailureShape receipt.failureCode receipt.httpStatus receipt.responseSHA256 receipt.providerSelected
    receipt.timedOut &&
  receipt.responseSHA256.all validSHA256 &&
  (!receipt.providerSelected || receipt.receiptProvider == some policy.receiptProvider) &&
  (receipt.providerSelected || (receipt.receiptProvider.isNone && receipt.providerGenerationID.isNone &&
    receipt.promptTokens == 0 && receipt.completionTokens == 0 && receipt.costUSDMicros == 0))

def ReceiptScan.outcome (scan : ReceiptScan) (receipt : InferenceReceipt) : Except String ReceiptScan :=
  match receipt.outcome with
  | .freeRetry => do
    ensure (freeRetryOk receipt) "coding inference receipt-free retry is invalid"
    ensure (scan.aggregate.retries ≠ 2 ^ 32 - 1) "coding inference retry count overflowed"
    pure { scan with aggregate := { scan.aggregate with retries := scan.aggregate.retries + 1 }, terminal := false }
  | .complete => do
    ensure (completeOk policy receipt) "coding inference completed receipt is invalid"
    pure { scan with terminal := true }
  | .providerFailed => do
    ensure (providerFailedOk policy receipt) "coding inference provider-failure receipt is invalid"
    pure { scan with aggregate := { scan.aggregate with providerFailure := true }, terminal := true }
  | .other => .error "coding inference receipt outcome is invalid"

/-- The totals with the receipt, when none of them overflows or passes its bound. -/
def ReceiptScan.charge (scan : ReceiptScan) (receipt : InferenceReceipt) : Except String ReceiptScan := do
  let prompt := scan.aggregate.promptTokens + receipt.promptTokens
  let completion := scan.aggregate.completionTokens + receipt.completionTokens
  let cost := scan.aggregate.costUSDMicros + receipt.costUSDMicros
  ensure (scan.aggregate.retries ≤ policy.maxRetries ∧ scan.aggregate.requests ≤ set.requestBudget ∧
    scan.aggregate.promptTokens ≤ maxUint64 - receipt.promptTokens ∧
    scan.aggregate.completionTokens ≤ maxUint64 - receipt.completionTokens ∧
    scan.aggregate.costUSDMicros ≤ maxUint64 - receipt.costUSDMicros ∧
    prompt ≤ set.promptTokenBudget ∧ completion ≤ set.completionTokenBudget ∧ prompt ≤ maxUint64 - completion ∧
    prompt + completion ≤ policy.maxTotalTokens ∧ cost ≤ policy.maxCostUSDMicros)
    "coding inference receipt-set budget is invalid"
  pure { scan with aggregate := { scan.aggregate with promptTokens := prompt, completionTokens := completion
                                                      costUSDMicros := cost }
                   current := some receipt }

/-- One turn of the loop; the number of settlements seen is the index. -/
def ReceiptScan.receipt (scan : ReceiptScan) (receipt : InferenceReceipt) : Except String ReceiptScan := do
  ensure (receipt.schema = InferenceReceiptSchema ∧ receipt.sequence = scan.seenSettlements.length + 1)
    "coding inference receipt sequence is invalid"
  let entered ← scan.enter receipt
  ensure (receiptIdentityOk policy receipt) "coding inference receipt identity is invalid"
  let settled ← entered.settlement receipt
  let generated ← settled.generation receipt
  let ended ← generated.outcome policy receipt
  ended.charge policy set receipt

variable (codec : Codec)

def receiptSetIdentityOk : Prop :=
  set.schema = InferenceReceiptSetSchema ∧ set.codingContractVersion = ContractVersion ∧
    canonicalUUID set.ticketID ∧ validIdentifier set.caseID 256 ∧ validIdentifier set.profileCapabilityID 256 ∧
    canonicalUUID set.grantID ∧ 0 < set.generation ∧ set.generation ≤ 2 ^ 31 - 1 ∧
    InferencePolicySHA256 codec policy = some set.inferenceGrantSHA256 ∧ 0 < set.requestBudget ∧
    set.requestBudget ≤ policy.maxRequests ∧ 0 < set.promptTokenBudget ∧
    set.promptTokenBudget ≤ policy.maxPromptTokens ∧ 0 < set.completionTokenBudget ∧
    set.completionTokenBudget ≤ policy.maxCompletionTokens ∧ set.receipts ≠ [] ∧
    set.receipts.length ≤ policy.maxRequests + policy.maxRetries

instance : Decidable (receiptSetIdentityOk policy set codec) := by
  unfold receiptSetIdentityOk
  infer_instance

def validateInferenceReceiptSet : Except String InferenceReceiptAggregate := do
  ensure policy.identityOk "coding inference policy identity or lock is invalid"
  ensure policy.BudgetOk "coding inference policy budget is invalid"
  ensure (InferencePolicySHA256 codec policy).isSome "canonical coding inference JSON exceeds its bound"
  ensure (receiptSetIdentityOk policy set codec) "coding inference receipt-set identity is invalid"
  let scan ← set.receipts.foldlM (fun scan receipt => scan.receipt policy set receipt) ReceiptScan.start
  ensure (scan.terminal = true ∧ scan.aggregate.requests ≠ 0)
    "coding inference receipt set has an unterminated request"
  pure scan.aggregate

end Pass

/-! ## What the pass accepts -/

section Accepts

variable (policy : InferencePolicy) (set : InferenceReceiptSet)

/-- The first attempt of a request. -/
def InferenceReceipt.first (receipt : InferenceReceipt) : Bool := receipt.attempt == 1

/-- The totals of a list of receipts. -/
def aggregateOf (receipts : List InferenceReceipt) : InferenceReceiptAggregate where
  requests := (receipts.filter InferenceReceipt.first).length
  retries := (receipts.filter fun receipt => receipt.outcome = .freeRetry).length
  promptTokens := (receipts.map InferenceReceipt.promptTokens).sum
  completionTokens := (receipts.map InferenceReceipt.completionTokens).sum
  costUSDMicros := (receipts.map InferenceReceipt.costUSDMicros).sum
  providerFailure := receipts.any fun receipt => receipt.outcome = .providerFailed

/-- How a receipt follows the one before it: as the next attempt after a free retry, as the first attempt of the next
request after a completion. -/
def FollowsReceipt (before : List InferenceReceipt) (receipt : InferenceReceipt) : Prop :=
  match before.getLast? with
  | none => receipt.requestSequence = 1 ∧ receipt.attempt = 1
  | some previous =>
    if previous.outcome = .freeRetry then
      receipt.requestSequence = previous.requestSequence ∧ RetryOf previous receipt
    else previous.outcome = .complete ∧ receipt.requestSequence = previous.requestSequence + 1 ∧ receipt.attempt = 1

def receiptOutcomeOk (receipt : InferenceReceipt) : Bool :=
  match receipt.outcome with
  | .freeRetry => freeRetryOk receipt
  | .complete => completeOk policy receipt
  | .providerFailed => providerFailedOk policy receipt
  | .other => false

/-- Totals within the budgets of the set and the bounds of the policy. -/
structure WithinSet (total : InferenceReceiptAggregate) : Prop where
  retries : total.retries ≤ policy.maxRetries
  requests : total.requests ≤ set.requestBudget
  prompt : total.promptTokens ≤ set.promptTokenBudget
  completion : total.completionTokens ≤ set.completionTokenBudget
  tokens : total.promptTokens + total.completionTokens ≤ policy.maxTotalTokens
  cost : total.costUSDMicros ≤ policy.maxCostUSDMicros

/-- A receipt is sound against the ones before it. -/
structure ReceiptOk (before : List InferenceReceipt) (receipt : InferenceReceipt) : Prop where
  schema : receipt.schema = InferenceReceiptSchema
  sequence : receipt.sequence = before.length + 1
  follows : FollowsReceipt before receipt
  fresh : receipt.first = true → ∀ other ∈ before, other.first = true → other.requestID ≠ receipt.requestID
  identity : receiptIdentityOk policy receipt = true
  settlement : receipt.providerSettlementSHA256 ∉ before.map InferenceReceipt.providerSettlementSHA256
  generation : ∀ generation ∈ receipt.providerGenerationID,
    validIdentifier generation 256 = true ∧ generation ∉ before.filterMap InferenceReceipt.providerGenerationID
  outcome : receiptOutcomeOk policy receipt = true
  within : WithinSet policy set (aggregateOf (before ++ [receipt]))

/-- The pass after a list of receipts. -/
def scanned (receipts : List InferenceReceipt) : ReceiptScan where
  aggregate := aggregateOf receipts
  seenRequests := (receipts.filter InferenceReceipt.first).map InferenceReceipt.requestID
  seenSettlements := receipts.map InferenceReceipt.providerSettlementSHA256
  seenGenerations := receipts.filterMap InferenceReceipt.providerGenerationID
  current := receipts.getLast?
  terminal := (receipts.getLast?.map fun receipt => decide (receipt.outcome ≠ .freeRetry)).getD true

variable {policy set} {before : List InferenceReceipt} {receipt : InferenceReceipt}

theorem aggregateOf_snoc : aggregateOf (before ++ [receipt]) =
    { requests := (aggregateOf before).requests + (if receipt.first then 1 else 0)
      retries := (aggregateOf before).retries + (if receipt.outcome = .freeRetry then 1 else 0)
      promptTokens := (aggregateOf before).promptTokens + receipt.promptTokens
      completionTokens := (aggregateOf before).completionTokens + receipt.completionTokens
      costUSDMicros := (aggregateOf before).costUSDMicros + receipt.costUSDMicros
      providerFailure := (aggregateOf before).providerFailure || decide (receipt.outcome = .providerFailed) } := by
  unfold aggregateOf
  simp only [List.filter_append, List.length_append, List.map_append, List.sum_append, List.any_append,
    List.filter_cons, List.filter_nil, List.map_cons, List.map_nil, List.sum_singleton, List.any_cons, List.any_nil,
    Bool.or_false, InferenceReceiptAggregate.mk.injEq, and_true, decide_eq_true_eq]
  constructor <;> split <;> rfl

/-- A receipt is a first one, or the next attempt after a free retry. -/
theorem FollowsReceipt.cases (h : FollowsReceipt before receipt) :
    (before = [] ∧ receipt.requestSequence = 1 ∧ receipt.attempt = 1) ∨
      ∃ front previous, before = front ++ [previous] ∧
        ((previous.outcome = .freeRetry ∧ receipt.requestSequence = previous.requestSequence ∧
            RetryOf previous receipt) ∨
          (previous.outcome = .complete ∧ receipt.requestSequence = previous.requestSequence + 1 ∧
            receipt.attempt = 1)) := by
  unfold FollowsReceipt at h
  rcases List.eq_nil_or_concat before with rfl | ⟨front, previous, rfl⟩
  · exact .inl ⟨rfl, h⟩
  · rw [List.concat_eq_append] at h ⊢
    simp only [List.getLast?_concat] at h
    split at h
    · rename_i hretry
      exact .inr ⟨front, previous, rfl, .inl ⟨hretry, h⟩⟩
    · exact .inr ⟨front, previous, rfl, .inr h⟩

/-- Attempts count from one, and the last receipt's request is the last one opened. -/
theorem last_request (hbefore : Chain.Everywhere (ReceiptOk policy set) before) :
    ∀ last ∈ before.getLast?, 0 < last.attempt ∧ last.requestSequence = (aggregateOf before).requests := by
  induction before using List.reverseRecOn with
  | nil =>
    intro last hlast
    cases hlast
  | append_singleton front current ih =>
    obtain ⟨hfront, hcurrent⟩ := Chain.everywhere_append.1 hbefore
    intro last hlast
    rw [List.getLast?_concat, Option.mem_some_iff] at hlast
    subst hlast
    rw [aggregateOf_snoc]
    rcases hcurrent.follows.cases with ⟨rfl, hrequest, hattempt⟩ | ⟨early, previous, rfl, hprevious⟩
    · simp [InferenceReceipt.first, hattempt, hrequest, aggregateOf]
    · obtain ⟨hpos, hsequence⟩ := ih hfront previous (by simp)
      rcases hprevious with ⟨-, hsame, hretry⟩ | ⟨-, hnext, hattempt⟩
      · have hlater : current.first = false := by
          simp only [InferenceReceipt.first, beq_eq_false_iff_ne]
          have := hretry.1
          omega
        simp only [hlater, Bool.false_eq_true, if_false, Nat.add_zero]
        exact ⟨by have := hretry.1; omega, by rw [hsame, hsequence]⟩
      · simp [InferenceReceipt.first, hattempt, hnext, hsequence]

/-- The pass after it has entered the request of a receipt. -/
def entered (before : List InferenceReceipt) (receipt : InferenceReceipt) : ReceiptScan :=
  { scanned before with
    seenRequests := ((before ++ [receipt]).filter InferenceReceipt.first).map InferenceReceipt.requestID
    aggregate := { aggregateOf before with requests := (aggregateOf (before ++ [receipt])).requests }
    terminal := false }

theorem openRequest_iff {scan s : ReceiptScan} : scan.openRequest receipt = .ok s ↔
    ((scan.terminal = true ∧ (∀ current ∈ scan.current, current.outcome = .complete) ∧
      receipt.requestSequence = scan.aggregate.requests + 1 ∧ receipt.attempt = 1) ∧
      receipt.requestID ∉ scan.seenRequests) ∧
    s = { scan with seenRequests := scan.seenRequests ++ [receipt.requestID]
                    aggregate := { scan.aggregate with requests := scan.aggregate.requests + 1 }
                    terminal := false } := by
  unfold ReceiptScan.openRequest
  rw [ensure_bind_eq_ok_iff, ensure_bind_eq_ok_iff, pure_eq_ok_iff, ← and_assoc, eq_comm (b := s)]

/-- A first attempt is entered as a new request. -/
theorem entered_first (hfirst : receipt.first = true) : entered before receipt =
    { scanned before with
      seenRequests := (scanned before).seenRequests ++ [receipt.requestID]
      aggregate := { (scanned before).aggregate with requests := (scanned before).aggregate.requests + 1 }
      terminal := false } := by
  simp [entered, scanned, aggregateOf_snoc, hfirst]

/-- A later attempt leaves the pass as it is. -/
theorem entered_retry (hfirst : receipt.first = false) (hopen : (scanned before).terminal = false) :
    entered before receipt = scanned before := by
  have hterminal : (scanned before).terminal = false := hopen
  simp only [entered, aggregateOf_snoc, List.filter_append, List.filter_cons, hfirst, Bool.false_eq_true, if_false,
    List.filter_nil, List.append_nil, Nat.add_zero]
  cases hscan : scanned before
  simp only [hscan] at hterminal
  subst hterminal
  simp [scanned] at hscan
  simp [← hscan]

theorem fresh_iff : receipt.requestID ∉ (scanned before).seenRequests ↔
    ∀ other ∈ before, other.first = true → other.requestID ≠ receipt.requestID := by
  simp [scanned]

theorem opened_iff {s : ReceiptScan} : (scanned before).openRequest receipt = .ok s ↔
    (((scanned before).terminal = true ∧ (∀ current ∈ before.getLast?, current.outcome = .complete) ∧
      receipt.requestSequence = (aggregateOf before).requests + 1 ∧ receipt.attempt = 1) ∧
      ∀ other ∈ before, other.first = true → other.requestID ≠ receipt.requestID) ∧ s = entered before receipt := by
  rw [openRequest_iff, fresh_iff]
  constructor
  · rintro ⟨⟨hopen, hfresh⟩, rfl⟩
    refine ⟨⟨hopen, hfresh⟩, ?_⟩
    rw [entered_first (by simp [InferenceReceipt.first, hopen.2.2.2])]
  · rintro ⟨⟨hopen, hfresh⟩, rfl⟩
    refine ⟨⟨hopen, hfresh⟩, ?_⟩
    rw [entered_first (by simp [InferenceReceipt.first, hopen.2.2.2])]

theorem enter_iff (hbefore : Chain.Everywhere (ReceiptOk policy set) before) {s : ReceiptScan} :
    (scanned before).enter receipt = .ok s ↔
      (FollowsReceipt before receipt ∧ (receipt.first = true →
        ∀ other ∈ before, other.first = true → other.requestID ≠ receipt.requestID)) ∧ s = entered before receipt := by
  have hlast := last_request hbefore
  unfold ReceiptScan.enter
  rcases List.eq_nil_or_concat before with rfl | ⟨front, previous, rfl⟩
  · -- The first receipt of the set.
    have hcurrent : (scanned []).current = none := rfl
    rw [hcurrent]
    dsimp only
    rw [opened_iff]
    simp [scanned, FollowsReceipt, aggregateOf]
  · rw [List.concat_eq_append] at hlast ⊢
    obtain ⟨hpos, hsequence⟩ := hlast previous (by simp)
    have hcurrent : (scanned (front ++ [previous])).current = some previous := by simp [scanned]
    have hterminal : (scanned (front ++ [previous])).terminal = decide (previous.outcome ≠ .freeRetry) := by
      simp [scanned]
    have hfollows : FollowsReceipt (front ++ [previous]) receipt ↔
        if previous.outcome = .freeRetry then
          receipt.requestSequence = previous.requestSequence ∧ RetryOf previous receipt
        else previous.outcome = .complete ∧ receipt.requestSequence = previous.requestSequence + 1 ∧
          receipt.attempt = 1 := by
      simp [FollowsReceipt]
    rw [hcurrent, hfollows]
    dsimp only
    split
    · -- Another request: the one before must have completed.
      rename_i hother
      rw [opened_iff, hterminal, ← hsequence, List.getLast?_concat]
      constructor
      · rintro ⟨⟨⟨-, hcomplete, hnext, hattempt⟩, hfresh⟩, rfl⟩
        have hcompleted : previous.outcome = .complete := hcomplete previous rfl
        refine ⟨⟨?_, fun _ => hfresh⟩, rfl⟩
        rw [if_neg (by rw [hcompleted]; decide)]
        exact ⟨hcompleted, hnext, hattempt⟩
      · rintro ⟨⟨hfollow, hfresh⟩, rfl⟩
        split at hfollow
        · exact absurd hfollow.1 hother
        · rename_i hretry
          obtain ⟨hcompleted, hnext, hattempt⟩ := hfollow
          refine ⟨⟨⟨decide_eq_true hretry, ?_, hnext, hattempt⟩, ?_⟩, rfl⟩
          · intro current hmem
            rw [← Option.mem_some_iff.1 hmem]
            exact hcompleted
          · exact hfresh (by simp [InferenceReceipt.first, hattempt])
    · -- The same request: the one before must have been a free retry.
      rename_i hsame
      rw [not_not] at hsame
      rw [ensure_bind_eq_ok_iff, pure_eq_ok_iff, hterminal]
      have hlater : RetryOf previous receipt → receipt.first = false := by
        intro hretry
        have := hretry.1
        simp only [InferenceReceipt.first, beq_eq_false_iff_ne]
        omega
      constructor
      · rintro ⟨⟨hopen, hretry⟩, rfl⟩
        have houtcome : previous.outcome = .freeRetry := by simpa using hopen
        rw [if_pos houtcome]
        refine ⟨⟨⟨hsame, hretry⟩, fun hfirst => ?_⟩, ?_⟩
        · rw [hlater hretry] at hfirst
          cases hfirst
        · rw [entered_retry (hlater hretry) (by rw [hterminal]; exact hopen)]
      · rintro ⟨⟨hfollow, -⟩, rfl⟩
        split at hfollow
        · rename_i houtcome
          have hopen : decide (previous.outcome ≠ .freeRetry) = false := by simp [houtcome]
          exact ⟨⟨hopen, hfollow.2⟩, (entered_retry (hlater hfollow.2) (by rw [hterminal]; exact hopen)).symm⟩
        · exact absurd hfollow.2.1 (by omega)

theorem settlement_iff {scan s : ReceiptScan} : scan.settlement receipt = .ok s ↔
    receipt.providerSettlementSHA256 ∉ scan.seenSettlements ∧
      s = { scan with seenSettlements := scan.seenSettlements ++ [receipt.providerSettlementSHA256] } := by
  unfold ReceiptScan.settlement
  rw [ensure_bind_eq_ok_iff, pure_eq_ok_iff, eq_comm (b := s)]

theorem generation_iff {scan s : ReceiptScan} : scan.generation receipt = .ok s ↔
    (∀ generation ∈ receipt.providerGenerationID,
      validIdentifier generation 256 = true ∧ generation ∉ scan.seenGenerations) ∧
      s = { scan with seenGenerations := scan.seenGenerations ++ receipt.providerGenerationID.toList } := by
  unfold ReceiptScan.generation
  cases receipt.providerGenerationID with
  | none => simp [eq_comm (b := s)]
  | some generation =>
    dsimp only
    rw [ensure_bind_eq_ok_iff, ensure_bind_eq_ok_iff, pure_eq_ok_iff, ← and_assoc, eq_comm (b := s)]
    simp

theorem outcome_iff {scan s : ReceiptScan} (hretries : scan.aggregate.retries ≠ 2 ^ 32 - 1) :
    scan.outcome policy receipt = .ok s ↔ receiptOutcomeOk policy receipt = true ∧
      s = { scan with
            aggregate := { scan.aggregate with
              retries := scan.aggregate.retries + (if receipt.outcome = .freeRetry then 1 else 0)
              providerFailure := scan.aggregate.providerFailure || decide (receipt.outcome = .providerFailed) }
            terminal := decide (receipt.outcome ≠ .freeRetry) } := by
  unfold ReceiptScan.outcome receiptOutcomeOk
  cases receipt.outcome with
  | freeRetry =>
    dsimp only
    rw [ensure_bind_eq_ok_iff, ensure_bind_pos hretries, pure_eq_ok_iff, eq_comm (b := s)]
    simp
  | complete =>
    dsimp only
    rw [ensure_bind_eq_ok_iff, pure_eq_ok_iff, eq_comm (b := s)]
    simp
  | providerFailed =>
    dsimp only
    rw [ensure_bind_eq_ok_iff, pure_eq_ok_iff, eq_comm (b := s)]
    simp
  | other => simp

/-- The budgets of the set are the policy's or less. -/
structure Bounded (policy : InferencePolicy) (set : InferenceReceiptSet) : Prop where
  budget : policy.BudgetOk
  prompt : set.promptTokenBudget ≤ policy.maxPromptTokens
  completion : set.completionTokenBudget ≤ policy.maxCompletionTokens

/-- Under such budgets no total overflows before it passes its bound. -/
theorem charge_iff (hbounded : Bounded policy set) {scan s : ReceiptScan} :
    scan.charge policy set receipt = .ok s ↔
      WithinSet policy set
        { scan.aggregate with
          promptTokens := scan.aggregate.promptTokens + receipt.promptTokens
          completionTokens := scan.aggregate.completionTokens + receipt.completionTokens
          costUSDMicros := scan.aggregate.costUSDMicros + receipt.costUSDMicros } ∧
      s = { scan with
            aggregate := { scan.aggregate with
              promptTokens := scan.aggregate.promptTokens + receipt.promptTokens
              completionTokens := scan.aggregate.completionTokens + receipt.completionTokens
              costUSDMicros := scan.aggregate.costUSDMicros + receipt.costUSDMicros }
            current := some receipt } := by
  have hprompt := hbounded.prompt
  have hcompletion := hbounded.completion
  have hpromptMax := hbounded.budget.prompt_le
  have hcompletionMax := hbounded.budget.completion_le
  have hcostMax := hbounded.budget.cost_le
  have hmax : maxUint64 = 18446744073709551615 := rfl
  have hcostBound : maxInferenceCostUSDMicros = 100000000 := rfl
  unfold ReceiptScan.charge
  dsimp only
  rw [ensure_bind_eq_ok_iff, pure_eq_ok_iff, eq_comm (b := s)]
  refine and_congr_left fun _ => ⟨?_, ?_⟩
  · rintro ⟨hretries, hrequests, -, -, -, hp, hc, -, htotal, hcost⟩
    exact ⟨hretries, hrequests, hp, hc, htotal, hcost⟩
  · rintro ⟨hretries, hrequests, hp, hc, htotal, hcost⟩
    dsimp only at hp hc htotal hcost
    exact ⟨hretries, hrequests, by omega, by omega, by omega, hp, hc, by omega, htotal, hcost⟩

/-- The receipts read so far are within the bounds. -/
theorem within_before (hbefore : Chain.Everywhere (ReceiptOk policy set) before) :
    WithinSet policy set (aggregateOf before) := by
  rcases List.eq_nil_or_concat before with rfl | ⟨front, last, rfl⟩
  · exact ⟨Nat.zero_le _, Nat.zero_le _, Nat.zero_le _, Nat.zero_le _, Nat.zero_le _, Nat.zero_le _⟩
  · rw [List.concat_eq_append] at hbefore ⊢
    exact (Chain.everywhere_append.1 hbefore).2.within

/-- The steps after the request was entered. -/
theorem scanned_snoc : scanned (before ++ [receipt]) =
    { seenRequests := (entered before receipt).seenRequests
      seenSettlements := (scanned before).seenSettlements ++ [receipt.providerSettlementSHA256]
      seenGenerations := (scanned before).seenGenerations ++ receipt.providerGenerationID.toList
      aggregate := aggregateOf (before ++ [receipt])
      current := some receipt
      terminal := decide (receipt.outcome ≠ .freeRetry) } := by
  simp only [scanned, entered, List.map_append, List.filterMap_append, List.getLast?_concat, Option.map_some,
    Option.getD_some, List.map_cons, List.map_nil, ReceiptScan.mk.injEq, and_true, true_and]
  cases h : receipt.providerGenerationID <;> simp [h]

/-- One turn of the loop takes a receipt that is sound against the ones before it, and no other. -/
theorem receipt_iff (hbounded : Bounded policy set) (hbefore : Chain.Everywhere (ReceiptOk policy set) before)
    {s : ReceiptScan} : (scanned before).receipt policy set receipt = .ok s ↔
      ReceiptOk policy set before receipt ∧ s = scanned (before ++ [receipt]) := by
  have hretries : (aggregateOf before).retries ≠ 2 ^ 32 - 1 := by
    have hwithin := (within_before hbefore).retries
    have hpolicy := hbounded.budget.retries_le
    omega
  unfold ReceiptScan.receipt
  rw [ensure_bind_eq_ok_iff, bind_eq_ok_iff, scanned_snoc, aggregateOf_snoc]
  constructor
  · rintro ⟨⟨hschema, hsequence⟩, next, hnext, h⟩
    obtain ⟨⟨hfollows, hfresh⟩, rfl⟩ := (enter_iff hbefore).1 hnext
    rw [ensure_bind_eq_ok_iff, bind_eq_ok_iff] at h
    obtain ⟨hidentity, settled, hsettled, h⟩ := h
    obtain ⟨hsettlement, rfl⟩ := settlement_iff.1 hsettled
    rw [bind_eq_ok_iff] at h
    obtain ⟨generated, hgenerated, h⟩ := h
    obtain ⟨hgeneration, rfl⟩ := generation_iff.1 hgenerated
    rw [bind_eq_ok_iff] at h
    obtain ⟨ended, hended, h⟩ := h
    obtain ⟨houtcome, rfl⟩ := (outcome_iff hretries).1 hended
    obtain ⟨hwithin, rfl⟩ := (charge_iff hbounded).1 h
    refine ⟨⟨hschema, ?_, hfollows, hfresh, hidentity, hsettlement, hgeneration, houtcome, ?_⟩, ?_⟩
    · simpa [scanned] using hsequence
    · rw [aggregateOf_snoc]
      simpa [entered, aggregateOf_snoc] using hwithin
    · simp [entered, scanned, aggregateOf_snoc]
  · rintro ⟨hok, rfl⟩
    refine ⟨⟨hok.schema, by simpa [scanned] using hok.sequence⟩, entered before receipt,
      (enter_iff hbefore).2 ⟨⟨hok.follows, hok.fresh⟩, rfl⟩, ?_⟩
    rw [ensure_bind_pos hok.identity, bind_eq_ok_iff]
    refine ⟨_, settlement_iff.2 ⟨hok.settlement, rfl⟩, ?_⟩
    rw [bind_eq_ok_iff]
    refine ⟨_, generation_iff.2 ⟨hok.generation, rfl⟩, ?_⟩
    rw [bind_eq_ok_iff]
    refine ⟨_, (outcome_iff hretries).2 ⟨hok.outcome, rfl⟩, ?_⟩
    refine (charge_iff hbounded).2 ⟨?_, ?_⟩
    · have hwithin := hok.within
      rw [aggregateOf_snoc] at hwithin
      simpa [entered, aggregateOf_snoc] using hwithin
    · simp [entered, scanned, aggregateOf_snoc]

/-- What the pass accepts, and the totals it gives. -/
theorem validateInferenceReceiptSet_iff {codec : Codec} {aggregate : InferenceReceiptAggregate} :
    validateInferenceReceiptSet policy set codec = .ok aggregate ↔
      (policy.Validate ∧ receiptSetIdentityOk policy set codec ∧
        Chain.Everywhere (ReceiptOk policy set) set.receipts ∧
        ∀ last ∈ set.receipts.getLast?, last.outcome ≠ .freeRetry) ∧ aggregate = aggregateOf set.receipts := by
  unfold validateInferenceReceiptSet InferencePolicy.Validate
  rw [ensure_bind_eq_ok_iff, ensure_bind_eq_ok_iff, ensure_bind_eq_ok_iff, ensure_bind_eq_ok_iff, bind_eq_ok_iff]
  have hloop (hbudget : policy.BudgetOk) (hidentity : receiptSetIdentityOk policy set codec) (scan : ReceiptScan) :
      set.receipts.foldlM (fun scan receipt => scan.receipt policy set receipt) ReceiptScan.start = .ok scan ↔
        Chain.Everywhere (ReceiptOk policy set) set.receipts ∧ scan = scanned set.receipts := by
    obtain ⟨-, -, -, -, -, -, -, -, -, -, -, -, hprompt, -, hcompletion, -⟩ := hidentity
    exact Scan.foldlM_eq_ok_iff
      (fun before receipt s hbefore => receipt_iff ⟨hbudget, hprompt, hcompletion⟩ hbefore) _ _
  constructor
  · rintro ⟨hpolicy, hbudget, -, hidentity, scan, hscan, hend⟩
    obtain ⟨hall, rfl⟩ := (hloop hbudget hidentity scan).1 hscan
    rw [ensure_bind_eq_ok_iff, pure_eq_ok_iff] at hend
    obtain ⟨⟨hterminal, -⟩, rfl⟩ := hend
    refine ⟨⟨⟨hpolicy, hbudget⟩, hidentity, hall, fun last hlast => ?_⟩, rfl⟩
    have heq : set.receipts.getLast? = some last := hlast
    simpa [scanned, heq] using hterminal
  · rintro ⟨⟨⟨hpolicy, hbudget⟩, hidentity, hall, hlast⟩, rfl⟩
    have hgrant : (InferencePolicySHA256 codec policy).isSome := by
      rw [hidentity.2.2.2.2.2.2.2.2.1]
      rfl
    refine ⟨hpolicy, hbudget, hgrant, hidentity, scanned set.receipts, (hloop hbudget hidentity _).2 ⟨hall, rfl⟩, ?_⟩
    rw [ensure_bind_eq_ok_iff, pure_eq_ok_iff]
    have hnonempty : set.receipts ≠ [] := hidentity.2.2.2.2.2.2.2.2.2.2.2.2.2.2.2.1
    obtain ⟨front, last, heq⟩ : ∃ front last, set.receipts = front ++ [last] :=
      ⟨_, _, (List.dropLast_append_getLast hnonempty).symm⟩
    have hsome : set.receipts.getLast? = some last := by rw [heq, List.getLast?_concat]
    refine ⟨⟨?_, ?_⟩, rfl⟩
    · simpa [scanned, hsome] using hlast last hsome
    · -- The first receipt opens a request.
      intro hzero
      have hfirst := hall [] (set.receipts.head hnonempty) set.receipts.tail (by simp)
      have hone : (set.receipts.head hnonempty).first = true := by
        have : FollowsReceipt [] (set.receipts.head hnonempty) := hfirst.follows
        simpa [FollowsReceipt, InferenceReceipt.first] using this.2
      have hmem : set.receipts.head hnonempty ∈ set.receipts.filter InferenceReceipt.first :=
        List.mem_filter.2 ⟨List.head_mem hnonempty, hone⟩
      have hpos := List.length_pos_of_mem hmem
      have hzero' : (set.receipts.filter InferenceReceipt.first).length = 0 := hzero
      omega

end Accepts

/-! ## Model evidence -/

/-- `complete`, `not_invoked` and `provider_failure`. -/
inductive ModelUsageStatus where
  | complete
  | notInvoked
  | providerFailure
  deriving DecidableEq, Repr

structure ModelEvidence where
  model : String
  provider : String
  providerRouteProfile : String
  reasoningEffort : String
  inferenceGrantSHA256 : String
  promptSHA256 : String
  toolSchemaSHA256 : String
  usageStatus : ModelUsageStatus
  fallbackUsed : Bool
  costSource : String
  currency : String
  providerReceiptSetSHA256 : Option String
  requests : Nat
  promptTokens : Nat
  completionTokens : Nat
  totalTokens : Nat
  costUSDMicros : Nat
  retryCount : Nat
  deriving DecidableEq, Repr

namespace ModelEvidence

def identityOk (evidence : ModelEvidence) : Bool :=
  validIdentifier evidence.model 128 && validIdentifier evidence.provider 128 &&
  validIdentifier evidence.providerRouteProfile 128 && evidence.reasoningEffort == "medium" &&
  validSHA256 evidence.inferenceGrantSHA256 && !evidence.fallbackUsed &&
  evidence.costSource == "provider_receipt_v1" && evidence.currency == "USD" &&
  validSHA256 evidence.promptSHA256 && validSHA256 evidence.toolSchemaSHA256 &&
  evidence.requests ≤ 10000 && evidence.retryCount ≤ 100

def Validate (evidence : ModelEvidence) : Except String Unit := do
  ensure (evidence.identityOk = true) "model evidence identity or accounting is invalid"
  ensure (evidence.promptTokens ≤ maxUint64 - evidence.completionTokens ∧
    evidence.totalTokens = evidence.promptTokens + evidence.completionTokens)
    "model evidence token totals are inconsistent"
  if evidence.usageStatus = .notInvoked then
    ensure (evidence.requests = 0 ∧ evidence.promptTokens = 0 ∧ evidence.completionTokens = 0 ∧
      evidence.totalTokens = 0 ∧ evidence.costUSDMicros = 0 ∧ evidence.retryCount = 0 ∧
      evidence.providerReceiptSetSHA256 = none) "not_invoked model evidence requires canonical zero accounting"
  else
    ensure (evidence.requests ≠ 0 ∧ evidence.providerReceiptSetSHA256.any validSHA256 = true)
      "invoked model evidence requires requests and a provider receipt root"

end ModelEvidence

section Evidence

variable (codec : Codec) (policy : InferencePolicy)

def baseInferenceModelEvidence : ModelEvidence where
  model := policy.model
  provider := policy.providerRoute
  providerRouteProfile := policy.providerRouteProfile
  reasoningEffort := policy.reasoningEffort
  inferenceGrantSHA256 := (InferencePolicySHA256 codec policy).getD ""
  promptSHA256 := policy.promptSHA256
  toolSchemaSHA256 := policy.toolSchemaSHA256
  usageStatus := .notInvoked
  fallbackUsed := false
  costSource := policy.costSource
  currency := policy.currency
  providerReceiptSetSHA256 := none
  requests := 0
  promptTokens := 0
  completionTokens := 0
  totalTokens := 0
  costUSDMicros := 0
  retryCount := 0

def receiptAuthorityOk (binding : InferenceReceiptBinding) : Prop :=
  canonicalUUID binding.ticketID ∧ validIdentifier binding.caseID 256 ∧
    validIdentifier binding.profileCapabilityID 256 ∧ canonicalUUID binding.grantID ∧ 0 < binding.generation ∧
    binding.generation ≤ 2 ^ 31 - 1 ∧ InferencePolicySHA256 codec policy = some binding.inferenceGrantSHA256 ∧
    0 < binding.requestBudget ∧ binding.requestBudget ≤ policy.maxRequests ∧ 0 < binding.promptTokenBudget ∧
    binding.promptTokenBudget ≤ policy.maxPromptTokens ∧ 0 < binding.completionTokenBudget ∧
    binding.completionTokenBudget ≤ policy.maxCompletionTokens

instance (binding : InferenceReceiptBinding) : Decidable (receiptAuthorityOk codec policy binding) := by
  unfold receiptAuthorityOk
  infer_instance

def validateInferenceReceiptAuthority (binding : InferenceReceiptBinding) : Except String Unit := do
  ensure (InferencePolicySHA256 codec policy).isSome "canonical coding inference JSON exceeds its bound"
  ensure (receiptAuthorityOk codec policy binding) "coding inference receipt authority is invalid"

def NotInvokedInferenceModelEvidence (binding : InferenceReceiptBinding) : Except String ModelEvidence := do
  validateInferenceReceiptAuthority codec policy binding
  (baseInferenceModelEvidence codec policy).Validate
  pure (baseInferenceModelEvidence codec policy)

/-- The authority under which a receipt set was collected. -/
def InferenceReceiptSet.binding (set : InferenceReceiptSet) : InferenceReceiptBinding where
  ticketID := set.ticketID
  caseID := set.caseID
  profileCapabilityID := set.profileCapabilityID
  grantID := set.grantID
  generation := set.generation
  inferenceGrantSHA256 := set.inferenceGrantSHA256
  requestBudget := set.requestBudget
  promptTokenBudget := set.promptTokenBudget
  completionTokenBudget := set.completionTokenBudget

def validateInferenceReceiptBinding (binding : InferenceReceiptBinding) (set : InferenceReceiptSet) :
    Except String Unit := do
  validateInferenceReceiptAuthority codec policy binding
  ensure (binding = set.binding) "coding inference receipt set disagrees with trusted binding"

/-- The checks of one settlement against its receipt. -/
def settlementCovers (binding : InferenceReceiptBinding) (receipt : InferenceReceipt)
    (settlement : InferenceProviderSettlement) : Except String Unit := do
  ensure (settlement.ticketID = binding.ticketID ∧ settlement.caseID = binding.caseID ∧
    settlement.profileCapabilityID = binding.profileCapabilityID ∧
    settlement.inferenceGrantSHA256 = binding.inferenceGrantSHA256 ∧ settlement.grantID = binding.grantID ∧
    settlement.generation = binding.generation) "coding inference settlement binding disagrees"
  ensure (settlement.ValidateAgainstReceipt codec policy receipt = true)
    "coding inference receipt disagrees with provider settlement"

/-- The evidence of accepted receipts with the digest of their set. -/
def evidenceOf (aggregate : InferenceReceiptAggregate) (root : String) : ModelEvidence :=
  { baseInferenceModelEvidence codec policy with
    requests := aggregate.requests
    promptTokens := aggregate.promptTokens
    completionTokens := aggregate.completionTokens
    totalTokens := aggregate.promptTokens + aggregate.completionTokens
    costUSDMicros := aggregate.costUSDMicros
    retryCount := aggregate.retries
    providerReceiptSetSHA256 := some root
    usageStatus := if aggregate.providerFailure then .providerFailure else .complete }

def receiptSetRoot (set : InferenceReceiptSet) : Except String String :=
  match inferenceDigest codec (.receiptSet set) MaxInferenceReceiptSetBytes with
  | none => .error "canonical coding inference JSON exceeds its bound"
  | some root => .ok root

def DeriveInferenceModelEvidence (binding : InferenceReceiptBinding) (set : InferenceReceiptSet)
    (settlements : List InferenceProviderSettlement) : Except String ModelEvidence := do
  validateInferenceReceiptBinding codec policy binding set
  let aggregate ← validateInferenceReceiptSet policy set codec
  ensure (settlements.length = set.receipts.length) "coding inference settlement coverage is incomplete"
  (set.receipts.zip settlements).forM fun pair => settlementCovers codec policy binding pair.1 pair.2
  let root ← receiptSetRoot codec set
  (evidenceOf codec policy aggregate root).Validate
  pure (evidenceOf codec policy aggregate root)

end Evidence

end DittoSubnet.Coding

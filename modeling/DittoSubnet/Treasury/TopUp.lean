import DittoSubnet.Kit.Chain
import DittoSubnet.Kit.Rows
import DittoSubnet.Treasury.Journal

/-!
# The top-up store

`ditto/treasury/store.py`, the journal of one GM top-up at a time, and the bounded checks of
`ditto/treasury/preflight.py`. Each operation is one transaction on the plans, the allocations, the pause switch and the
event chain; `perform` is what an operation does and `step` rolls it back when it raises.

The digests are parameters: of a plan and of an event, each of its canonical JSON. A time is an instant in microseconds
and whether it carries a zone; the store writes the instant. An integer that SQLite cannot store, and a sum that
overflows, raise.
-/

namespace DittoSubnet.Treasury.TopUp

open Kit

/-! ## Values -/

inductive Route
  | tao
  | gmAlpha
  deriving DecidableEq, Repr

inductive Leg
  | unstake
  | depositTao
  | stakeGm
  | depositGm
  deriving DecidableEq, Repr

/-- `LEGS`. -/
def legs : Route → List Leg
  | .tao => [.unstake, .depositTao]
  | .gmAlpha => [.unstake, .stakeGm, .depositGm]

inductive State
  | planned
  | approved
  | dispatching
  | awaitingReview
  | awaitingGm
  | reconciled
  | cancelled
  deriving DecidableEq, Repr

/-- What an operation raises. -/
inductive Raised
  | valueError (message : String)
  | indexError
  | integrityError
  | overflowError
  deriving DecidableEq, Repr

/-- A `datetime`; without a zone its instant is the one that the local zone gives it. -/
structure Datetime where
  instant : ℤ
  aware : Bool
  deriving DecidableEq, Repr

def seconds (n : ℤ) : ℤ := n * 1000000

def minutes (n : ℤ) : ℤ := seconds (n * 60)

/-- `_timestamp`. -/
def timestamp (value : Datetime) : Except Raised ℤ := do
  ensure (value.aware = true) (.valueError "timezone required")
  return value.instant

/-- The calendar day in UTC. -/
def Datetime.day (value : Datetime) : ℤ := value.instant / seconds 86400

/-- An age between zero and a limit. -/
def Within (now observed limit : ℤ) : Prop := 0 ≤ now - observed ∧ now - observed ≤ limit

instance (now observed limit : ℤ) : Decidable (Within now observed limit) := inferInstanceAs (Decidable (_ ∧ _))

/-- An integer that SQLite stores. -/
def SqlInteger (x : ℤ) : Prop := -2 ^ 63 ≤ x ∧ x < 2 ^ 63

instance (x : ℤ) : Decidable (SqlInteger x) := inferInstanceAs (Decidable (_ ∧ _))

/-- `SUM`, which raises when a partial sum overflows. -/
def sqlSum (values : List ℤ) : Except Raised ℤ :=
  values.foldlM (fun total value => do
    ensure (SqlInteger (total + value)) .overflowError
    return total + value) 0

/-- `[0-9a-f]{64}`. -/
def HexDigest (value : String) : Prop :=
  value.toList.length = 64 ∧ ∀ c ∈ value.toList, c ∈ "0123456789abcdef".toList

instance (value : String) : Decidable (HexDigest value) := inferInstanceAs (Decidable (_ ∧ _))

/-- `0x[0-9a-f]{64}`. -/
def BlockHash (value : String) : Prop :=
  value.toList.take 2 = "0x".toList ∧ HexDigest (String.ofList (value.toList.drop 2))

instance (value : String) : Decidable (BlockHash value) := inferInstanceAs (Decidable (_ ∧ _))

/-- `[A-Za-z0-9_-]{8,96}`. -/
def KeyPattern (value : String) : Prop :=
  8 ≤ value.toList.length ∧ value.toList.length ≤ 96 ∧ ∀ c ∈ value.toList, ('A' ≤ c ∧ c ≤ 'Z') ∨ ('a' ≤ c ∧ c ≤ 'z') ∨
    ('0' ≤ c ∧ c ≤ '9') ∨ c = '_' ∨ c = '-'

instance (value : String) : Decidable (KeyPattern value) := inferInstanceAs (Decidable (_ ∧ _))

/-! ## Plans -/

structure TopUpIntent where
  route : Route
  policyRevision : ℤ
  quoteBlockHash : String
  quotedAt : Datetime
  sourceAlphaRao : ℤ
  taoValueRao : ℤ
  priceImpactBps : ℤ
  linkedWallet : String
  paymentInstructionsSha256 : String
  idempotencyKey : String
  deriving DecidableEq, Repr

structure TopUpBounds where
  maxSourceAlphaRao : ℤ
  maxSingleTopupRao : ℤ
  maxDailyOutflowRao : ℤ
  maxSlippageBps : ℤ
  dailySpentRao : ℤ
  expectedLinkedWallet : String
  expectedPaymentInstructionsSha256 : String
  reconciled : Bool
  deriving DecidableEq, Repr

structure PaymentPlan where
  intent : TopUpIntent
  destinationColdkey : String
  treasuryHotkey : String
  gmHotkey : String
  gmAccountRef : String
  operator : String
  instructionsObservedAt : Datetime
  gmBalanceBeforeNanoUsd : ℤ
  minTaoProceedsRao : ℤ
  minGmAlphaRao : ℤ
  maxSlippageBps : ℤ
  deriving DecidableEq, Repr

/-- `MAX_SOURCE_ALPHA_RAO`. -/
def maxSourceAlphaRao : ℤ := 10000000000

def preflight (intent : TopUpIntent) (bounds : TopUpBounds) (now : Datetime) : Except Raised Unit := do
  ensure (¬ (intent.policyRevision ≤ 0 ∨ intent.idempotencyKey = ""))
    (.valueError "revision and idempotency key are required")
  ensure (BlockHash intent.quoteBlockHash) (.valueError "finalized quote block hash is required")
  ensure (intent.quotedAt.aware = true ∧ now.aware = true) (.valueError "quote times must carry a timezone")
  ensure (Within now.instant intent.quotedAt.instant (seconds 120)) (.valueError "quote is stale or from the future")
  ensure (bounds.reconciled = true) (.valueError "treasury or GM balance has not reconciled")
  ensure (0 < intent.sourceAlphaRao ∧ intent.sourceAlphaRao ≤ bounds.maxSourceAlphaRao)
    (.valueError "source amount exceeds limit")
  ensure (0 < intent.taoValueRao ∧ intent.taoValueRao ≤ bounds.maxSingleTopupRao)
    (.valueError "single top-up exceeds limit")
  ensure (¬ bounds.dailySpentRao + intent.taoValueRao > bounds.maxDailyOutflowRao)
    (.valueError "daily outflow exceeds limit")
  ensure (0 ≤ intent.priceImpactBps ∧ intent.priceImpactBps ≤ bounds.maxSlippageBps ∧ bounds.maxSlippageBps ≤ 500)
    (.valueError "price impact exceeds limit")
  ensure (¬ (intent.linkedWallet = "" ∨ intent.linkedWallet ≠ bounds.expectedLinkedWallet))
    (.valueError "sender is not the reviewed GM-linked wallet")
  ensure (¬ (¬ HexDigest intent.paymentInstructionsSha256 ∨
      intent.paymentInstructionsSha256 ≠ bounds.expectedPaymentInstructionsSha256))
    (.valueError "GM payment instructions are not current")

/-! ## Tables -/

/-- A row of `plans`; `plan` is the record that `plan_json` holds. -/
structure PlanRow where
  day : ℤ
  route : Route
  policyRevision : ℤ
  sourceAlphaRao : ℤ
  reservedTaoRao : ℤ
  plan : PaymentPlan
  planHash : String
  state : State
  legIndex : ℕ
  amountForNextLegRao : Option ℤ
  instructionsCheckedAt : ℤ
  quoteCheckedAt : ℤ
  createdAt : ℤ
  deriving DecidableEq, Repr

/-- A row of `allocations`. -/
structure Allocation where
  policyRevision : ℤ
  sourceBlockHash : String
  gmAlphaRao : ℤ
  maintenanceAlphaRao : ℤ
  operator : String
  reviewer : String
  deriving DecidableEq, Repr

/-- The kind of an event with its body. -/
inductive Entry
  | allocation (epoch : ℤ) (allocation : Allocation)
  | pause (operator : String) (reviewer : Option String) (reason : String)
  | unpause (operator : String) (reviewer : Option String) (reason : String)
  | planned (planHash operator : String)
  | approved (reviewer planHash : String)
  | nextLegApproved (reviewer : String) (leg : Leg) (quoteBlockHash instructionsSha256 : String)
  | dispatchStarted (leg : Leg) (amountRao : ℤ)
  | legFinalized (leg : Leg) (extrinsicHash blockHash : String) (nextAmountRao : Option ℤ)
  | gmReconciled (beforeNanoUsd afterNanoUsd depositNanoUsd interveningUsageNanoUsd : ℤ)
      (depositReference reviewer : String)
  | cancelled (operator reason : String)
  deriving DecidableEq, Repr

/-- What the digest of an event covers, beside the digest before it. -/
structure EventBody where
  planKey : Option String
  entry : Entry
  recordedAt : ℤ
  deriving DecidableEq, Repr

abbrev Event := Chain.Link EventBody String

structure Database where
  paused : Bool
  reason : String
  plans : Dict String PlanRow
  allocations : Dict ℤ Allocation
  events : List Event
  deriving DecidableEq, Repr

/-- The schema, with its initial row of `control`. -/
def Database.empty : Database := ⟨true, "initial fail-closed pause", [], [], []⟩

/-- The digests of a plan and of an event. -/
structure Hashing where
  plan : PaymentPlan → String
  event : EventBody → String → String

/-- `GENESIS`. -/
def genesis : String := String.ofList (List.replicate 64 '0')

section

variable (hashing : Hashing)

/-- `_event`. -/
def event (db : Database) (key : Option String) (entry : Entry) (now : Datetime) : Except Raised Database := do
  let recordedAt ← timestamp now
  return { db with events := Chain.append hashing.event genesis db.events ⟨key, entry, recordedAt⟩ }

/-- The error of the first event that breaks the chain. -/
def journalBreaks (n : ℕ) : Raised := .valueError s!"treasury journal breaks at event {n}"

def verify (db : Database) : Except Raised ℕ := Chain.verify hashing.event genesis journalBreaks db.events

/-! ## Allocations and the pause -/

def recordAllocation (db : Database) (epoch : ℤ) (allocation : Allocation) (now : Datetime) : Except Raised Database :=
    do
  ensure (¬ (epoch < 0 ∨ allocation.policyRevision ≤ 0))
    (.valueError "finalized epoch and policy revision are required")
  ensure (BlockHash allocation.sourceBlockHash) (.valueError "finalized source block hash is required")
  ensure (¬ (allocation.gmAlphaRao < 0 ∨ allocation.maintenanceAlphaRao < 0 ∨
      ¬ (allocation.gmAlphaRao ≠ 0 ∨ allocation.maintenanceAlphaRao ≠ 0)))
    (.valueError "nonnegative distinct allocations are required")
  ensure (¬ (allocation.operator = "" ∨ allocation.reviewer = "" ∨ allocation.reviewer = allocation.operator))
    (.valueError "independent allocation reviewer is required")
  ensure (SqlInteger epoch ∧ SqlInteger allocation.policyRevision ∧ SqlInteger allocation.gmAlphaRao ∧
    SqlInteger allocation.maintenanceAlphaRao) .overflowError
  ensure (Dict.get? db.allocations epoch = none) .integrityError
  event hashing { db with allocations := Dict.set db.allocations epoch allocation } none (.allocation epoch allocation)
    now

/-- Plans that block an unpause. -/
def Unresolved (row : PlanRow) : Prop := row.state = .dispatching ∨ row.state = .awaitingGm

instance (row : PlanRow) : Decidable (Unresolved row) := inferInstanceAs (Decidable (_ ∨ _))

def setPause (db : Database) (paused : Bool) (operator reason : String) (now : Datetime) (reviewer : Option String) :
    Except Raised Database := do
  ensure (¬ (operator = "" ∨ (strip reason).length < 12)) (.valueError "operator and a specific reason are required")
  if paused then
    event hashing { db with paused := true, reason := reason } none (.pause operator reviewer reason) now
  else
    ensure (¬ (reviewer = none ∨ reviewer = some "" ∨ reviewer = some operator))
      (.valueError "independent reviewer is required to unpause")
    let _ ← verify hashing db
    ensure (∀ row ∈ db.plans, ¬ Unresolved row.2) (.valueError "unresolved plans block unpause")
    event hashing { db with paused := false, reason := reason } none (.unpause operator reviewer reason) now

/-! ## Creation -/

/-- The rows that `state NOT IN ('reconciled','cancelled')` selects. -/
def Open (row : PlanRow) : Prop := row.state ≠ .reconciled ∧ row.state ≠ .cancelled

instance (row : PlanRow) : Decidable (Open row) := inferInstanceAs (Decidable (_ ∧ _))

/-- The checks of a plan that need no database. -/
def checkPlan (plan : PaymentPlan) (bounds : TopUpBounds) (now : Datetime) : Except Raised Unit := do
  let intent := plan.intent
  ensure (¬ (plan.operator = "" ∨ plan.destinationColdkey = "" ∨ plan.treasuryHotkey = "" ∨ plan.gmAccountRef = ""))
    (.valueError "operator and reviewed chain identities are required")
  ensure (¬ (intent.route = .gmAlpha ∧ plan.gmHotkey = ""))
    (.valueError "GM alpha route needs the exact linked hotkey")
  ensure (¬ (intent.sourceAlphaRao > maxSourceAlphaRao ∨ bounds.maxSourceAlphaRao > maxSourceAlphaRao))
    (.valueError "source alpha exceeds the 10 DITTO prototype ceiling")
  ensure (¬ plan.gmBalanceBeforeNanoUsd < 0) (.valueError "GM credit balance must be nonnegative")
  ensure (0 < plan.minTaoProceedsRao ∧ plan.minTaoProceedsRao ≤ intent.taoValueRao)
    (.valueError "minimum TAO proceeds must fit the reserved quote")
  ensure (¬ (intent.route = .gmAlpha ∧ plan.minGmAlphaRao ≤ 0)) (.valueError "minimum GM alpha output is required")
  ensure (0 ≤ plan.maxSlippageBps ∧ plan.maxSlippageBps ≤ bounds.maxSlippageBps)
    (.valueError "signer price tolerance exceeds policy")
  ensure (plan.instructionsObservedAt.aware = true ∧ now.aware = true)
    (.valueError "instruction and current times need a timezone")
  ensure (Within now.instant plan.instructionsObservedAt.instant (minutes 30))
    (.valueError "GM payment instructions are stale")
  ensure (KeyPattern intent.idempotencyKey) (.valueError "invalid idempotency key")

/-- The row of a new plan. -/
def newRow (plan : PaymentPlan) (quotedAt observedAt createdAt : ℤ) (now : Datetime) : PlanRow where
  day := now.day
  route := plan.intent.route
  policyRevision := plan.intent.policyRevision
  sourceAlphaRao := plan.intent.sourceAlphaRao
  reservedTaoRao := plan.intent.taoValueRao
  plan := plan
  planHash := hashing.plan plan
  state := .planned
  legIndex := 0
  amountForNextLegRao := none
  instructionsCheckedAt := observedAt
  quoteCheckedAt := quotedAt
  createdAt := createdAt

/-- The insert of a plan with a new key. -/
def insertPlan (db : Database) (plan : PaymentPlan) (bounds : TopUpBounds) (quotedAt observedAt : ℤ) (now : Datetime) :
    Except Raised Database := do
  let intent := plan.intent
  ensure (∀ row ∈ db.plans, ¬ Open row.2) (.valueError "another treasury payment is unresolved")
  let spent ← sqlSum ((db.plans.filter fun row => row.2.day = now.day ∧ row.2.state ≠ .cancelled).map
    (·.2.reservedTaoRao))
  preflight intent { bounds with dailySpentRao := spent } now
  ensure (SqlInteger intent.policyRevision) .overflowError
  let allocated ← sqlSum ((db.allocations.filter fun row => row.2.policyRevision ≤ intent.policyRevision).map
    (·.2.gmAlphaRao))
  let reservedSource ← sqlSum ((db.plans.filter fun row => row.2.state ≠ .cancelled).map (·.2.sourceAlphaRao))
  ensure (¬ intent.sourceAlphaRao > allocated - reservedSource)
    (.valueError "GM budget lacks finalized allocated alpha")
  let createdAt ← timestamp now
  ensure (SqlInteger intent.sourceAlphaRao ∧ SqlInteger intent.taoValueRao) .overflowError
  let row := newRow hashing plan quotedAt observedAt createdAt now
  event hashing { db with plans := Dict.set db.plans intent.idempotencyKey row } (some intent.idempotencyKey)
    (.planned (hashing.plan plan) plan.operator) now

/-- Answers the hash of the plan; a replay of the same plan changes nothing. -/
def createPlan (db : Database) (plan : PaymentPlan) (bounds : TopUpBounds) (now : Datetime) :
    Except Raised (Database × String) := do
  checkPlan plan bounds now
  let quotedAt ← timestamp plan.intent.quotedAt
  let observedAt ← timestamp plan.instructionsObservedAt
  ensure (db.paused = false) (.valueError "treasury execution is paused")
  match Dict.get? db.plans plan.intent.idempotencyKey with
  | some existing =>
    ensure (existing.planHash = hashing.plan plan) (.valueError "idempotency key reused with a different plan")
    return (db, hashing.plan plan)
  | none =>
    let after ← insertPlan hashing db plan bounds quotedAt observedAt now
    return (after, hashing.plan plan)

/-! ## The legs of a plan -/

/-- The row of a key. -/
def planRow (db : Database) (key : String) (message : String) : Except Raised PlanRow :=
  match Dict.get? db.plans key with
  | some row => .ok row
  | none => .error (.valueError message)

/-- `LEGS[route][leg_index]`. -/
def currentLeg (row : PlanRow) : Except Raised Leg :=
  match (legs row.route)[row.legIndex]? with
  | some leg => .ok leg
  | none => .error .indexError

/-- Updates a plan and records the event. -/
def update (db : Database) (key : String) (row : PlanRow) (entry : Entry) (now : Datetime) : Except Raised Database :=
  event hashing { db with plans := Dict.set db.plans key row } (some key) entry now

def approve (db : Database) (key reviewer expectedPlanHash : String) (now : Datetime) : Except Raised Database := do
  let row ← planRow db key "exact pending plan hash is required"
  ensure (¬ (row.state ≠ .planned ∨ row.planHash ≠ expectedPlanHash))
    (.valueError "exact pending plan hash is required")
  ensure (¬ (reviewer = "" ∨ reviewer = row.plan.operator)) (.valueError "independent reviewer is required")
  ensure (Within now.instant row.plan.instructionsObservedAt.instant (minutes 30))
    (.valueError "GM payment instructions expired")
  update hashing db key { row with state := .approved } (.approved reviewer expectedPlanHash) now

def approveNextLeg (db : Database) (key reviewer expectedPlanHash instructionsSha256 quoteBlockHash : String)
    (quoteObservedAt now : Datetime) : Except Raised Database := do
  ensure (BlockHash quoteBlockHash) (.valueError "fresh finalized quote hash is required")
  ensure (quoteObservedAt.aware = true ∧ now.aware = true) (.valueError "quote time requires a timezone")
  ensure (Within now.instant quoteObservedAt.instant (seconds 120)) (.valueError "next-leg quote is stale")
  let row ← planRow db key "exact next-leg plan is required"
  ensure (¬ (row.state ≠ .awaitingReview ∨ row.planHash ≠ expectedPlanHash))
    (.valueError "exact next-leg plan is required")
  ensure (¬ (reviewer = "" ∨ reviewer = row.plan.operator)) (.valueError "independent reviewer is required")
  ensure (¬ instructionsSha256 ≠ row.plan.intent.paymentInstructionsSha256)
    (.valueError "GM payment instructions changed")
  let checkedAt ← timestamp now
  let quotedAt ← timestamp quoteObservedAt
  let leg ← currentLeg row
  update hashing db key
    { row with state := .approved, instructionsCheckedAt := checkedAt, quoteCheckedAt := quotedAt }
    (.nextLegApproved reviewer leg quoteBlockHash instructionsSha256) now

/-- What a claim answers. -/
structure Claim where
  leg : Leg
  amountRao : ℤ
  plan : PaymentPlan
  deriving DecidableEq, Repr

/-- The amount of the current leg, when it is known and positive. -/
def legAmount (row : PlanRow) : Except Raised ℤ :=
  match (if row.legIndex = 0 then some row.sourceAlphaRao else row.amountForNextLegRao) with
  | none => .error (.valueError "next leg amount has not reconciled")
  | some amount => do
    ensure (¬ amount ≤ 0) (.valueError "next leg amount has not reconciled")
    return amount

def claimLeg (db : Database) (key : String) (now : Datetime) : Except Raised (Database × Claim) := do
  ensure (db.paused = false) (.valueError "treasury execution is paused")
  let row ← planRow db key "leg is not approved or prior dispatch is unresolved"
  ensure (row.state = .approved) (.valueError "leg is not approved or prior dispatch is unresolved")
  let leg ← currentLeg row
  ensure (Within now.instant row.instructionsCheckedAt (minutes 30)) (.valueError "GM payment instructions expired")
  ensure (Within now.instant row.quoteCheckedAt (seconds 120)) (.valueError "approved leg quote expired")
  let amount ← legAmount row
  let after ← update hashing db key { row with state := .dispatching } (.dispatchStarted leg amount) now
  return (after, ⟨leg, amount, row.plan⟩)

def finalizeLeg (db : Database) (key : String) (leg : Leg) (extrinsicHash blockHash : String)
    (nextAmountRao : Option ℤ) (now : Datetime) : Except Raised Database := do
  ensure (BlockHash extrinsicHash ∧ BlockHash blockHash)
    (.valueError "finalized extrinsic and block hashes are required")
  let row ← planRow db key "no matching in-flight leg"
  ensure (row.state = .dispatching) (.valueError "no matching in-flight leg")
  let current ← currentLeg row
  ensure (current = leg) (.valueError "no matching in-flight leg")
  let final := row.legIndex + 1 = (legs row.route).length
  ensure (¬ (¬ final ∧ (nextAmountRao = none ∨ ∃ next ∈ nextAmountRao, next ≤ 0)))
    (.valueError "reconciled next-leg amount is required")
  ensure (¬ (final ∧ nextAmountRao ≠ none)) (.valueError "deposit leg cannot produce another payment")
  ensure (¬ (leg = .unstake ∧ ∃ next ∈ nextAmountRao, next > row.reservedTaoRao))
    (.valueError "unstake proceeds exceed reserved top-up")
  ensure (∀ next ∈ nextAmountRao, SqlInteger next) .overflowError
  update hashing db key
    { row with
      state := if final then .awaitingGm else .awaitingReview
      legIndex := row.legIndex + 1
      amountForNextLegRao := nextAmountRao }
    (.legFinalized leg extrinsicHash blockHash nextAmountRao) now

/-- An observation of the credit balance. -/
structure GmObservation where
  beforeNanoUsd : ℤ
  afterNanoUsd : ℤ
  depositNanoUsd : ℤ
  interveningUsageNanoUsd : ℤ
  depositReference : String
  reviewer : String
  deriving DecidableEq, Repr

def reconcileGm (db : Database) (key : String) (o : GmObservation) (now : Datetime) : Except Raised Database := do
  ensure (¬ (o.depositReference = "" ∨ o.reviewer = "" ∨ o.depositNanoUsd ≤ 0 ∨ o.interveningUsageNanoUsd < 0 ∨
      o.afterNanoUsd < 0 ∨ o.afterNanoUsd ≠ o.beforeNanoUsd + o.depositNanoUsd - o.interveningUsageNanoUsd))
    (.valueError "GM deposit, usage, and final balance must reconcile")
  let row ← planRow db key "finalized deposit is required"
  ensure (row.state = .awaitingGm) (.valueError "finalized deposit is required")
  ensure (¬ (o.beforeNanoUsd ≠ row.plan.gmBalanceBeforeNanoUsd ∨ o.reviewer = row.plan.operator))
    (.valueError "independent matching credit observation is required")
  update hashing db key { row with state := .reconciled }
    (.gmReconciled o.beforeNanoUsd o.afterNanoUsd o.depositNanoUsd o.interveningUsageNanoUsd o.depositReference
      o.reviewer)
    now

def cancel (db : Database) (key operator reason : String) (now : Datetime) : Except Raised Database := do
  ensure (¬ (operator = "" ∨ (strip reason).length < 12)) (.valueError "operator and specific reason are required")
  let row ← planRow db key "only an undispatched, unapproved plan may be cancelled"
  ensure (row.state = .planned) (.valueError "only an undispatched, unapproved plan may be cancelled")
  update hashing db key { row with state := .cancelled } (.cancelled operator reason) now

/-! ## Runs -/

inductive Operation
  | recordAllocation (epoch : ℤ) (allocation : Allocation) (now : Datetime)
  | setPause (paused : Bool) (operator reason : String) (now : Datetime) (reviewer : Option String)
  | createPlan (plan : PaymentPlan) (bounds : TopUpBounds) (now : Datetime)
  | approve (key reviewer expectedPlanHash : String) (now : Datetime)
  | approveNextLeg (key reviewer expectedPlanHash instructionsSha256 quoteBlockHash : String)
      (quoteObservedAt now : Datetime)
  | claimLeg (key : String) (now : Datetime)
  | finalizeLeg (key : String) (leg : Leg) (extrinsicHash blockHash : String) (nextAmountRao : Option ℤ)
    (now : Datetime)
  | reconcileGm (key : String) (observation : GmObservation) (now : Datetime)
  | cancel (key operator reason : String) (now : Datetime)

/-- What an operation writes. -/
def perform (db : Database) : Operation → Except Raised Database
  | .recordAllocation epoch allocation now => recordAllocation hashing db epoch allocation now
  | .setPause paused operator reason now reviewer => setPause hashing db paused operator reason now reviewer
  | .createPlan plan bounds now => Prod.fst <$> createPlan hashing db plan bounds now
  | .approve key reviewer expectedPlanHash now => approve hashing db key reviewer expectedPlanHash now
  | .approveNextLeg key reviewer expectedPlanHash instructionsSha256 quoteBlockHash quoteObservedAt now =>
    approveNextLeg hashing db key reviewer expectedPlanHash instructionsSha256 quoteBlockHash quoteObservedAt now
  | .claimLeg key now => Prod.fst <$> claimLeg hashing db key now
  | .finalizeLeg key leg extrinsicHash blockHash nextAmountRao now =>
    finalizeLeg hashing db key leg extrinsicHash blockHash nextAmountRao now
  | .reconcileGm key observation now => reconcileGm hashing db key observation now
  | .cancel key operator reason now => cancel hashing db key operator reason now

/-- `_db`: a transaction that raises is rolled back. -/
def step (db : Database) (operation : Operation) : Database :=
  match perform hashing db operation with
  | .ok committed => committed
  | .error _ => db

end

end DittoSubnet.Treasury.TopUp

import DittoSubnet.Kit.Rows
import DittoSubnet.Kit.Transaction
import DittoSubnet.Platform.Tickets

/-!
# Inference grants

The `inference_grants` and `inference_requests` tables, and the three transactions of the model relay on them:
`beginInferenceRequest` (`admission.go`), `finishInferenceRequest` (`settle.go`) and `activateInferenceGrant`
(`exchange.go`). The rows are read under the locks of the ticket, the grant and the request, so each transaction is a
function of the database; a refusal rolls it back.

The columns are integers; `Int4` and `Int8` are the ranges that PostgreSQL stores, and an update outside of them is an
error of the database (`Refusal.failed`). Sums that the relay computes itself are 64-bit sums (`wrap64`). Clocks are in
microseconds. Columns that no transaction reads or writes (routes, prices, dimensions) are left out.
-/

namespace DittoSubnet.Relay

open Kit Platform

/-! ## Rows -/

inductive RequestKind
  | chat
  | embedding
  | decision
  deriving DecidableEq, Repr

inductive GrantStatus
  | pending
  | active
  | revoked
  | exhausted
  deriving DecidableEq, Repr

inductive RequestStatus
  | started
  | completed
  | failed
  | canceled
  deriving DecidableEq, Repr

inductive InferenceMode
  | chat
  | noChat
  deriving DecidableEq, Repr

/-- The columns that each lane of a grant has. `tokens` is `prompt_tokens`, `embedding_tokens` or `decision_tokens`. -/
structure LaneAccount where
  requestBudget : ℤ
  tokenBudget : ℤ
  requestCount : ℤ
  tokens : ℤ
  costMicrousd : ℤ
  activeRequests : ℤ
  deriving DecidableEq, Repr

/-- A row of `inference_grants`. -/
structure InferenceGrant where
  agentId : String
  benchVersion : ℕ
  validatorHotkey : String
  slotId : String
  ticketDeadline : ℤ
  status : GrantStatus
  bearerDigest : Option String
  brokerPublicKey : Option String
  generation : ℤ
  allowedModels : List String
  embeddingModel : String
  decisionModel : Option String
  inferenceMode : InferenceMode
  chat : LaneAccount
  completionTokens : ℤ
  embedding : LaneAccount
  decision : LaneAccount
  expiresAt : ℤ
  createdAt : ℤ
  updatedAt : ℤ
  deriving DecidableEq, Repr

/-- A row of `inference_requests`. -/
structure InferenceRequest where
  generation : ℤ
  status : RequestStatus
  requestKind : RequestKind
  model : String
  reservedTokens : ℤ
  maxChargeableTokens : ℤ
  promptTokens : ℤ
  completionTokens : ℤ
  costMicrousd : ℤ
  upstreamProvider : Option String
  upstreamAttempts : ℤ
  openrouterAttempts : ℤ
  fallbackPhase : ℤ
  terminalErrorCode : Option String
  timedOut : Bool
  latencyMs : Option ℤ
  startedAt : ℤ
  completedAt : Option ℤ
  deriving DecidableEq, Repr

/-- The primary key of a request. -/
structure RequestKey where
  grantId : String
  nonce : String
  deriving DecidableEq, Repr

structure Database where
  tickets : Tickets
  grants : Dict String InferenceGrant
  requests : Dict RequestKey InferenceRequest
  deriving DecidableEq, Repr

namespace InferenceGrant

/-- The ticket of a grant. -/
def key (grant : InferenceGrant) : TicketKey := ⟨grant.agentId, grant.benchVersion, grant.validatorHotkey⟩

def lane (grant : InferenceGrant) : RequestKind → LaneAccount
  | .chat => grant.chat
  | .embedding => grant.embedding
  | .decision => grant.decision

def setLane (grant : InferenceGrant) (kind : RequestKind) (lane : LaneAccount) : InferenceGrant :=
  match kind with
  | .chat => { grant with chat := lane }
  | .embedding => { grant with embedding := lane }
  | .decision => { grant with decision := lane }

/-- Writes the count of running requests of a lane. -/
def setActive (grant : InferenceGrant) (kind : RequestKind) (active : ℤ) : InferenceGrant :=
  grant.setLane kind { grant.lane kind with activeRequests := active }

/-- All lanes at rest. -/
def idle (grant : InferenceGrant) : InferenceGrant :=
  ((grant.setActive .chat 0).setActive .embedding 0).setActive .decision 0

end InferenceGrant

/-! ## Machine integers -/

/-- The 64-bit sum or difference that a result stands for. -/
def wrap64 (x : ℤ) : ℤ := Int.bmod x (2 ^ 64)

/-- The range of an `integer` column. -/
def Int4 (x : ℤ) : Prop := -2 ^ 31 ≤ x ∧ x < 2 ^ 31

/-- The range of a `bigint` column. -/
def Int8 (x : ℤ) : Prop := -2 ^ 63 ≤ x ∧ x < 2 ^ 63

instance (x : ℤ) : Decidable (Int4 x) := inferInstanceAs (Decidable (_ ∧ _))
instance (x : ℤ) : Decidable (Int8 x) := inferInstanceAs (Decidable (_ ∧ _))

theorem wrap64_of_int8 {x : ℤ} (h : Int8 x) : wrap64 x = x := by
  unfold Int8 at h
  apply Int.bmod_eq_of_le_mul_two
  · norm_num
    omega
  · norm_num
    omega

/-! ## Refusals -/

/-- The refusals that an admission names. -/
inductive Decline
  | unattributed
  | grantRevoked
  | budgetExhausted
  | atCapacity
  | tokenBudgetExhausted
  | leaseExpired
  | nonceReplayed
  | modelNotPermitted
  | grantNotExchanged
  deriving DecidableEq, Repr

/-- Why a transaction is rolled back: a named refusal, or an error of the database. -/
inductive Refusal
  | declined (decline : Decline)
  | failed
  deriving DecidableEq, Repr

/-- The row of a key, or a refusal. -/
def require {α : Type} (row : Option α) (refusal : Refusal) : Except Refusal α :=
  match row with
  | some a => .ok a
  | none => .error refusal

@[simp] theorem require_eq_ok_iff {α : Type} {row : Option α} {refusal : Refusal} {a : α} :
    require row refusal = .ok a ↔ row = some a := by
  cases row with
  | none => simp [require]
  | some b => simp [require]

/-! ## Queries -/

/-- The rails of a lane. -/
structure LaneLimits where
  perTicketConcurrency : ℤ
  perValidatorConcurrency : ℤ
  globalConcurrency : ℤ
  perTicketRpm : ℤ
  perValidatorRpm : ℤ
  globalRpm : ℤ
  deriving DecidableEq, Repr

/-- The number of rows that satisfy a condition. -/
def countRequests (db : Database) (p : RequestKey → InferenceRequest → Prop) [∀ key row, Decidable (p key row)] : ℤ :=
  Dict.sumRows (fun key row => if p key row then 1 else 0) db.requests

/-- Sets the grant of an id. -/
def Database.setGrant (db : Database) (grantId : String) (grant : InferenceGrant) : Database :=
  { db with grants := Dict.set db.grants grantId grant }

def Database.setRequest (db : Database) (key : RequestKey) (request : InferenceRequest) : Database :=
  { db with requests := Dict.set db.requests key request }

/-- Cancels a request without booking its reservation. -/
def InferenceRequest.cancel (request : InferenceRequest) (now : ℤ) : InferenceRequest :=
  { request with status := .canceled, promptTokens := 0, completedAt := some now }

/-- Cancels the requests that satisfy a condition. -/
def cancelRows (requests : Dict RequestKey InferenceRequest) (now : ℤ) (p : RequestKey → InferenceRequest → Prop)
    [∀ key row, Decidable (p key row)] : Dict RequestKey InferenceRequest :=
  Dict.mapRows (fun key row => if p key row then row.cancel now else row) requests

def Database.cancelWhere (db : Database) (now : ℤ) (p : RequestKey → InferenceRequest → Prop)
    [∀ key row, Decidable (p key row)] : Database :=
  { db with requests := cancelRows db.requests now p }

/-- A started request of a lane of a grant. -/
def Running (grantId : String) (kind : RequestKind) (key : RequestKey) (row : InferenceRequest) : Prop :=
  key.grantId = grantId ∧ row.status = .started ∧ row.requestKind = kind

instance (grantId : String) (kind : RequestKind) (key : RequestKey) (row : InferenceRequest) :
    Decidable (Running grantId kind key row) := inferInstanceAs (Decidable (_ ∧ _))

/-- A started request that is past the recovery window. -/
def Stale (grantId : String) (kind : RequestKind) (cutoff : ℤ) (key : RequestKey) (row : InferenceRequest) : Prop :=
  Running grantId kind key row ∧ row.startedAt < cutoff

instance (grantId : String) (kind : RequestKind) (cutoff : ℤ) (key : RequestKey) (row : InferenceRequest) :
    Decidable (Stale grantId kind cutoff key row) := inferInstanceAs (Decidable (_ ∧ _))

/-- `now - 2 * timeout`. -/
def staleCutoff (now : ℤ) (timeoutSeconds : ℕ) : ℤ := now - 2 * timeoutSeconds * 1000000

/-- The columns of a new request row. -/
def newRequest (grant : InferenceGrant) (kind : RequestKind) (model : String) (tokenReservation maxChargeable now : ℤ) :
    InferenceRequest where
  generation := grant.generation
  status := .started
  requestKind := kind
  model := model
  reservedTokens := tokenReservation
  maxChargeableTokens := maxChargeable
  promptTokens := 0
  completionTokens := 0
  costMicrousd := 0
  upstreamProvider := none
  upstreamAttempts := 0
  openrouterAttempts := 0
  fallbackPhase := 0
  terminalErrorCode := none
  timedOut := false
  latencyMs := none
  startedAt := now
  completedAt := none

/-! ## Admission -/

/-- The admission settings of the proxy. -/
structure ProxyConfig where
  timeoutSeconds : ℕ
  chat : LaneLimits
  embedding : LaneLimits
  decision : LaneLimits
  deriving DecidableEq, Repr

def limitsForKind (config : ProxyConfig) : RequestKind → LaneLimits
  | .decision => config.decision
  | .embedding => config.embedding
  | .chat => config.chat

structure BeginParams where
  grantId : String
  nonce : String
  bearer : String
  model : String
  tokenReservation : ℤ
  maxChargeableTokens : ℤ
  now : ℤ
  kind : RequestKind
  config : ProxyConfig
  deriving DecidableEq, Repr

namespace BeginParams

def key (p : BeginParams) : RequestKey := ⟨p.grantId, p.nonce⟩

def limits (p : BeginParams) : LaneLimits := limitsForKind p.config p.kind

/-- Requests that started before are past the recovery window. -/
def cutoff (p : BeginParams) : ℤ := staleCutoff p.now p.config.timeoutSeconds

end BeginParams

/-- The model gate of each lane. -/
def modelPermitted (grant : InferenceGrant) (model : String) : RequestKind → Prop
  | .chat => grant.inferenceMode ≠ .noChat ∧ model ∈ grant.allowedModels
  | .decision => ¬ grant.benchVersion < 7 ∧ grant.decisionModel = some model
  | .embedding => ¬ grant.benchVersion < 7 ∧ model = grant.embeddingModel

instance (grant : InferenceGrant) (model : String) : ∀ kind, Decidable (modelPermitted grant model kind)
  | .chat => inferInstanceAs (Decidable (_ ∧ _))
  | .decision => inferInstanceAs (Decidable (_ ∧ _))
  | .embedding => inferInstanceAs (Decidable (_ ∧ _))

/-- The settled tokens of a lane, as the relay adds them up. -/
def spent (grant : InferenceGrant) : RequestKind → ℤ
  | .chat => wrap64 (grant.chat.tokens + grant.completionTokens)
  | .embedding => grant.embedding.tokens
  | .decision => grant.decision.tokens

/-- The refusal of a grant that is not active. -/
def statusDecline (grant : InferenceGrant) (p : BeginParams) : Decline :=
  match grant.status with
  | .exhausted =>
    if p.kind = .chat ∧ grant.chat.tokenBudget ≤ wrap64 (grant.chat.tokens + grant.completionTokens) then
      .tokenBudgetExhausted
    else .budgetExhausted
  | .revoked => .grantRevoked
  | _ => .grantNotExchanged

/-- Cancels the stale requests of the lane; the count is then taken again. -/
def reclaimStale (db : Database) (grant : InferenceGrant) (p : BeginParams) : Database × InferenceGrant :=
  let canceled := db.cancelWhere p.now (Stale p.grantId p.kind p.cutoff)
  if countRequests db (Stale p.grantId p.kind p.cutoff) = 0 then (canceled, grant)
  else
    let counted := { grant.setActive p.kind (countRequests canceled (Running p.grantId p.kind)) with updatedAt := p.now
      }
    (canceled.setGrant p.grantId counted, counted)

/-- The ticket of a grant is still its lease. -/
def ticketLive (ticket : Option Ticket) (grant : InferenceGrant) (now : ℤ) : Prop :=
  ∃ t ∈ ticket, t.status = .issued ∧ t.deadline = grant.ticketDeadline ∧ now < t.deadline

instance (ticket : Option Ticket) (grant : InferenceGrant) (now : ℤ) : Decidable (ticketLive ticket grant now) :=
  inferInstanceAs (Decidable (∃ t ∈ ticket, _))

/-- A started request of a lane in the recovery window, on an active grant that satisfies a condition. -/
def Fresh (db : Database) (kind : RequestKind) (cutoff : ℤ) (p : InferenceGrant → Prop) (key : RequestKey)
    (row : InferenceRequest) : Prop :=
  row.status = .started ∧ row.requestKind = kind ∧ cutoff ≤ row.startedAt ∧
    ∃ grant ∈ Dict.get? db.grants key.grantId, grant.status = .active ∧ p grant

instance (db : Database) (kind : RequestKind) (cutoff : ℤ) (p : InferenceGrant → Prop) [DecidablePred p]
    (key : RequestKey) (row : InferenceRequest) : Decidable (Fresh db kind cutoff p key row) :=
  inferInstanceAs (Decidable (_ ∧ _ ∧ _ ∧ ∃ grant ∈ Dict.get? db.grants key.grantId, _))

/-- A request of a lane since a time. -/
def Recent (kind : RequestKind) (since : ℤ) (row : InferenceRequest) : Prop :=
  row.requestKind = kind ∧ since ≤ row.startedAt

instance (kind : RequestKind) (since : ℤ) (row : InferenceRequest) : Decidable (Recent kind since row) :=
  inferInstanceAs (Decidable (_ ∧ _))

/-- `minuteStart`. -/
def minuteStart (now : ℤ) : ℤ := now - 60 * 1000000

/-- The rails across grants, each observed count with its limit. -/
def rails (db : Database) (grant : InferenceGrant) (p : BeginParams) : List (ℤ × ℤ) :=
  let since := minuteStart p.now
  [(countRequests db (Fresh db p.kind p.cutoff (·.validatorHotkey = grant.validatorHotkey)),
      p.limits.perValidatorConcurrency),
    (countRequests db (Fresh db p.kind p.cutoff fun _ => True), p.limits.globalConcurrency),
    (countRequests db (fun key row => key.grantId = p.grantId ∧ Recent p.kind since row), p.limits.perTicketRpm),
    (countRequests db (fun key row => Recent p.kind since row ∧
        ∃ g ∈ Dict.get? db.grants key.grantId, g.validatorHotkey = grant.validatorHotkey), p.limits.perValidatorRpm),
    (countRequests db (fun _ row => Recent p.kind since row), p.limits.globalRpm)]

/-- The grant after an admission. -/
def admitted (grant : InferenceGrant) (kind : RequestKind) (now : ℤ) : InferenceGrant :=
  let lane := grant.lane kind
  { grant.setLane kind
      { lane with requestCount := lane.requestCount + 1, activeRequests := lane.activeRequests + 1 } with
    updatedAt := now }

section

variable (bearerDigest : String → String)

/-- The gates up to the token wall, on the locked rows. -/
def beginGates (db : Database) (p : BeginParams) : Except Refusal (Database × InferenceGrant) := do
  let locked ← require (Dict.get? db.grants p.grantId) (.declined .unattributed)
  ensure (locked.bearerDigest = some (bearerDigest p.bearer)) (.declined .unattributed)
  ensure (p.now < locked.expiresAt) (.declined .leaseExpired)
  ensure (modelPermitted locked p.model p.kind) (.declined .modelNotPermitted)
  ensure (locked.status = .active) (.declined (statusDecline locked p))
  let (reclaimed, grant) := reclaimStale db locked p
  ensure (ticketLive (Dict.get? db.tickets grant.key) grant p.now) (.declined .grantRevoked)
  ensure ((grant.lane p.kind).requestCount < (grant.lane p.kind).requestBudget) (.declined .budgetExhausted)
  ensure (¬ p.tokenReservation < 1) (.declined .unattributed)
  ensure (spent grant p.kind < (grant.lane p.kind).tokenBudget) (.declined .tokenBudgetExhausted)
  return (reclaimed, grant)

/-- The rails and the insert, after the token wall. -/
def beginInsert (db : Database) (grant : InferenceGrant) (p : BeginParams) :
    Except Refusal (Database × InferenceGrant × InferenceRequest) := do
  ensure ((grant.lane p.kind).activeRequests < p.limits.perTicketConcurrency) (.declined .atCapacity)
  ensure (Dict.get? db.requests p.key = none) (.declined .nonceReplayed)
  ensure (∀ rail ∈ rails db grant p, rail.1 < rail.2) (.declined .atCapacity)
  let maxChargeable := if p.tokenReservation < p.maxChargeableTokens then p.maxChargeableTokens else p.tokenReservation
  let request := newRequest grant p.kind p.model p.tokenReservation maxChargeable p.now
  -- the checks of the table: `generation > 0` and the ranges of the counters
  ensure (0 < grant.generation) .failed
  let after := admitted grant p.kind p.now
  ensure (Int4 (after.lane p.kind).requestCount ∧ Int4 (after.lane p.kind).activeRequests) .failed
  return ((db.setRequest p.key request).setGrant p.grantId after, after, request)

def beginInferenceRequest (db : Database) (p : BeginParams) :
    Except Refusal (Database × InferenceGrant × InferenceRequest) := do
  let (db, grant) ← beginGates bearerDigest db p
  beginInsert db grant p

end

/-! ## Settlement -/

/-- The status that a caller reports. -/
inductive Outcome
  | completed
  | failed
  deriving DecidableEq, Repr

def Outcome.status : Outcome → RequestStatus
  | .completed => .completed
  | .failed => .failed

structure FinishParams where
  grantId : String
  nonce : String
  generation : ℤ
  status : Outcome
  promptTokens : ℤ
  completionTokens : ℤ
  costMicrousd : ℤ
  usageAvailable : Bool
  now : ℤ
  upstreamProvider : Option String
  timedOut : Bool
  latencyMs : ℤ
  upstreamAttempts : ℤ
  openrouterAttempts : ℤ
  fallbackPhase : ℤ
  terminalErrorCode : Option String
  deriving DecidableEq, Repr

def FinishParams.key (p : FinishParams) : RequestKey := ⟨p.grantId, p.nonce⟩

/-- What a settlement books on a request. -/
structure Charge where
  promptTokens : ℤ
  completionTokens : ℤ
  costMicrousd : ℤ
  deriving DecidableEq, Repr

/-- The provider reports more than the request can have used. -/
def overCeiling (request : InferenceRequest) (p : FinishParams) : Prop :=
  p.usageAvailable = true ∧
    wrap64 (request.maxChargeableTokens - max 0 p.completionTokens) < max 0 p.promptTokens

instance (request : InferenceRequest) (p : FinishParams) : Decidable (overCeiling request p) :=
  inferInstanceAs (Decidable (_ ∧ _))

def charge (request : InferenceRequest) (p : FinishParams) : Charge :=
  if p.usageAvailable = false then ⟨0, 0, max 0 p.costMicrousd⟩
  else if overCeiling request p then ⟨request.maxChargeableTokens, 0, max 0 p.costMicrousd⟩
  else ⟨max 0 p.promptTokens, max 0 p.completionTokens, max 0 p.costMicrousd⟩

/-- A request that a report may still settle. -/
def Settles (request : InferenceRequest) (p : FinishParams) : Prop :=
  (request.status = .started ∨ request.status = .canceled) ∧ request.generation = p.generation ∧
    (request.status = .started ∨
      ¬ (0 < request.promptTokens ∨ 0 < request.completionTokens ∨ 0 < request.costMicrousd))

instance (request : InferenceRequest) (p : FinishParams) : Decidable (Settles request p) :=
  inferInstanceAs (Decidable (_ ∧ _))

/-- The answer may still go to the miner. -/
def Deliverable (ticket : Option Ticket) (grant : InferenceGrant) (request : InferenceRequest) (p : FinishParams) :
    Prop :=
  p.status = .completed ∧ p.usageAvailable = true ∧ grant.status = .active ∧ grant.generation = p.generation ∧
    request.status = .started ∧ p.now < grant.expiresAt ∧ ticketLive ticket grant p.now ∧ ¬ overCeiling request p

instance (ticket : Option Ticket) (grant : InferenceGrant) (request : InferenceRequest) (p : FinishParams) :
    Decidable (Deliverable ticket grant request p) := inferInstanceAs (Decidable (_ ∧ _))

/-- The settled request row. -/
def settledRequest (request : InferenceRequest) (p : FinishParams) (deliverable : Bool) : InferenceRequest :=
  { request with
    status := if request.status = .started ∧ (deliverable = true ∨ p.status ≠ .completed) then p.status.status
      else .canceled
    promptTokens := (charge request p).promptTokens
    completionTokens := (charge request p).completionTokens
    costMicrousd := (charge request p).costMicrousd
    upstreamProvider := p.upstreamProvider
    upstreamAttempts := max 0 p.upstreamAttempts
    openrouterAttempts := max 0 p.openrouterAttempts
    fallbackPhase := if p.fallbackPhase < 0 then 0 else if 1 < p.fallbackPhase then 1 else p.fallbackPhase
    terminalErrorCode := p.terminalErrorCode
    timedOut := p.timedOut
    latencyMs := some p.latencyMs
    completedAt := some p.now }

/-- The grant after a settlement, before the exhaustion rule. -/
def settledGrant (grant : InferenceGrant) (request : InferenceRequest) (p : FinishParams) : InferenceGrant :=
  let lane := grant.lane request.requestKind
  let booked := charge request p
  let settled := grant.setLane request.requestKind
    { lane with
      activeRequests := if request.status = .started then max 0 (lane.activeRequests - 1) else lane.activeRequests
      tokens := lane.tokens + booked.promptTokens
      costMicrousd := lane.costMicrousd + booked.costMicrousd }
  { settled with
    -- only the chat lane has a column for completions
    completionTokens := if request.requestKind = .chat then grant.completionTokens + booked.completionTokens
      else grant.completionTokens
    updatedAt := p.now }

/-- The token columns that a settlement writes are in range. -/
def SettledInRange (grant : InferenceGrant) (kind : RequestKind) : Prop :=
  Int8 (grant.lane kind).tokens ∧ (kind = .chat → Int8 grant.completionTokens) ∧ Int8 (grant.lane kind).costMicrousd

instance (grant : InferenceGrant) (kind : RequestKind) : Decidable (SettledInRange grant kind) :=
  inferInstanceAs (Decidable (_ ∧ _))

/-- The chat lane has reached its token budget. -/
def exhaust (grant : InferenceGrant) (kind : RequestKind) : InferenceGrant :=
  if kind = .chat ∧ grant.chat.tokenBudget ≤ wrap64 (grant.chat.tokens + grant.completionTokens) then
    { grant with status := .exhausted }
  else grant

def finishInferenceRequest (db : Database) (p : FinishParams) : Except Refusal (Database × Bool) :=
  match Dict.get? db.grants p.grantId, Dict.get? db.requests p.key with
  | some grant, some request =>
    if Settles request p then do
      let deliverable := decide (Deliverable (Dict.get? db.tickets grant.key) grant request p)
      let settled := settledGrant grant request p
      ensure (SettledInRange settled request.requestKind) .failed
      return ((db.setRequest p.key (settledRequest request p deliverable)).setGrant p.grantId
        (exhaust settled request.requestKind), deliverable)
    else return (db, false)
  | _, _ => return (db, false)

/-! ## Rotation -/

structure ActivateParams where
  grantId : String
  validatorHotkey : String
  brokerPublicKey : String
  now : ℤ
  timeoutSeconds : ℕ
  /-- The bearer that is drawn. -/
  bearer : String
  deriving DecidableEq, Repr

/-- `trimBase64Padding`: drops every trailing `=`. -/
def trimBase64Padding (s : String) : String := String.ofList (s.toList.reverse.dropWhile (· = '=')).reverse

/-- A started request of a grant. -/
def Started (grantId : String) (key : RequestKey) (row : InferenceRequest) : Prop :=
  key.grantId = grantId ∧ row.status = .started

instance (grantId : String) (key : RequestKey) (row : InferenceRequest) : Decidable (Started grantId key row) :=
  inferInstanceAs (Decidable (_ ∧ _))

/-- The grant can be exchanged: it is the validator's, its lease is live, and it is not ended. -/
def Exchangeable (ticket : Option Ticket) (grant : InferenceGrant) (p : ActivateParams) : Prop :=
  grant.validatorHotkey = p.validatorHotkey ∧ ticketLive ticket grant p.now ∧ grant.status ≠ .revoked ∧
    grant.status ≠ .exhausted

instance (ticket : Option Ticket) (grant : InferenceGrant) (p : ActivateParams) :
    Decidable (Exchangeable ticket grant p) := inferInstanceAs (Decidable (_ ∧ _))

/-- The grant after a rotation. -/
def rotated (bearerDigest : String → String) (grant : InferenceGrant) (ticket : Ticket) (p : ActivateParams) :
    InferenceGrant :=
  { grant.idle with
    bearerDigest := some (bearerDigest p.bearer)
    brokerPublicKey := some (trimBase64Padding p.brokerPublicKey)
    generation := grant.generation + 1
    status := .active
    slotId := ticket.slotId
    expiresAt := ticket.deadline
    updatedAt := p.now }

/-- Answers the rotated grant, or none when the grant is not live; both are committed. -/
def activateInferenceGrant (bearerDigest : String → String) (db : Database) (p : ActivateParams) :
    Except Refusal (Database × Option InferenceGrant) :=
  match Dict.get? db.grants p.grantId with
  | none => return (db, none)
  | some grant =>
    if grant.validatorHotkey ≠ p.validatorHotkey then return (db, none)
    else
      match Dict.get? db.tickets grant.key with
      | none => return (db.setGrant p.grantId { grant with status := .revoked, updatedAt := p.now }, none)
      | some ticket =>
        if ¬ Exchangeable (some ticket) grant p then
          return (db.setGrant p.grantId { grant with status := .revoked, updatedAt := p.now }, none)
        else if ∃ row ∈ db.requests, Started p.grantId row.1 row.2 ∧
            ¬ row.2.startedAt < staleCutoff p.now p.timeoutSeconds then
          return (db, none)
        else do
          let rotated := rotated bearerDigest grant ticket p
          ensure (Int4 rotated.generation) .failed
          return ((db.cancelWhere p.now (Started p.grantId)).setGrant p.grantId rotated, some rotated)

end DittoSubnet.Relay

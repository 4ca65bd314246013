import DittoSubnet.Relay.Grants

/-!
# The platform's side of the grants

`ditto/db/queries/inference.py`: the admission, the settlement and the exchange that the relay reproduces, the
revocation of a ticket's grants and the creation of a grant; and the resume of a parked lease in `issue_ticket`
(`ditto/db/queries/tickets.py`). The integers are unbounded; a value that a column cannot store is an error of the
database. The mapper writes the columns that a function has assigned: `updated_at` has no default of its own on an
update.
-/

namespace DittoSubnet.Platform

open Kit Relay

section

variable (bearerDigest : String → String)

/-! ## Admission -/

/-- The model gate. -/
def modelRefused (grant : InferenceGrant) (p : BeginParams) : Prop :=
  if p.kind = .chat then p.model ∉ grant.allowedModels ∨ grant.inferenceMode = .noChat
  else grant.benchVersion < 7 ∨ p.model ≠ grant.embeddingModel

instance (grant : InferenceGrant) (p : BeginParams) : Decidable (modelRefused grant p) :=
  inferInstanceAs (Decidable (if p.kind = .chat then _ else _))

/-- The lane of a request: what is not chat is embedding. -/
def laneOf (grant : InferenceGrant) (kind : RequestKind) : LaneAccount :=
  if kind = .chat then grant.chat else grant.embedding

def setLaneOf (grant : InferenceGrant) (kind : RequestKind) (lane : LaneAccount) : InferenceGrant :=
  if kind = .chat then { grant with chat := lane } else { grant with embedding := lane }

def limitsOf (p : BeginParams) : LaneLimits := if p.kind = .chat then p.config.chat else p.config.embedding

/-- The settled tokens of a lane. -/
def spentOf (grant : InferenceGrant) (kind : RequestKind) : ℤ :=
  if kind = .chat then grant.chat.tokens + grant.completionTokens else grant.embedding.tokens

def statusDeclineOf (grant : InferenceGrant) (p : BeginParams) : Decline :=
  if grant.status = .exhausted then
    if p.kind = .chat ∧ grant.chat.tokens + grant.completionTokens ≥ grant.chat.tokenBudget then .tokenBudgetExhausted
    else .budgetExhausted
  else if grant.status = .revoked then .grantRevoked
  else .grantNotExchanged

/-- The stale requests that an admission finds. -/
def staleRequests (db : Database) (p : BeginParams) : List (RequestKey × InferenceRequest) :=
  db.requests.filter fun row => row.1.grantId = p.grantId ∧ row.2.status = .started ∧ row.2.requestKind = p.kind ∧
    row.2.startedAt < p.cutoff

/-- `_cancel_unsettled_request` of each of some rows. -/
def cancelUnsettled (db : Database) (rows : List (RequestKey × InferenceRequest)) (now : ℤ) : Database :=
  let cancel := fun requests row => Dict.set requests row.1 (row.2.cancel now)
  { db with requests := rows.foldl cancel db.requests }

def recount (db : Database) (grant : InferenceGrant) (p : BeginParams) : Database × InferenceGrant :=
  let canceled := cancelUnsettled db (staleRequests db p) p.now
  if staleRequests db p = [] then (canceled, grant)
  else
    let started := (canceled.requests.filter fun row =>
      row.1.grantId = p.grantId ∧ row.2.status = .started ∧ row.2.requestKind = p.kind).length
    let counted := setLaneOf grant p.kind { laneOf grant p.kind with activeRequests := started }
    (canceled.setGrant p.grantId counted, counted)

/-- The lease of a grant is gone. -/
def ticketGone (ticket : Option Ticket) (grant : InferenceGrant) (now : ℤ) : Prop :=
  match ticket with
  | none => True
  | some ticket => ticket.status ≠ .issued ∨ ticket.deadline ≠ grant.ticketDeadline ∨ ticket.deadline ≤ now

instance (ticket : Option Ticket) (grant : InferenceGrant) (now : ℤ) : Decidable (ticketGone ticket grant now) :=
  match ticket with
  | none => inferInstanceAs (Decidable True)
  | some _ => inferInstanceAs (Decidable (_ ∨ _))

/-- The join of the requests with their grants. -/
def joined (db : Database) : List (RequestKey × InferenceRequest × InferenceGrant) :=
  db.requests.filterMap fun row => (Dict.get? db.grants row.1.grantId).map fun grant => (row.1, row.2, grant)

/-- The gates across grants: the observed count and the limit of each. -/
def gates (db : Database) (grant : InferenceGrant) (p : BeginParams) : List (ℤ × ℤ) :=
  let active := (joined db).filter fun row => row.2.2.status = .active ∧ row.2.1.status = .started ∧
    row.2.1.requestKind = p.kind ∧ row.2.1.startedAt ≥ p.cutoff
  let minute := p.now - 60 * 1000000
  let validatorRecent := (joined db).filter fun row => row.2.2.validatorHotkey = grant.validatorHotkey ∧
    row.2.1.startedAt ≥ minute ∧ row.2.1.requestKind = p.kind
  let ticketRecent := db.requests.filter fun row =>
    row.1.grantId = p.grantId ∧ row.2.startedAt ≥ minute ∧ row.2.requestKind = p.kind
  let globalRecent := db.requests.filter fun row => row.2.startedAt ≥ minute ∧ row.2.requestKind = p.kind
  [((active.filter fun row => row.2.2.validatorHotkey = grant.validatorHotkey).length,
      (limitsOf p).perValidatorConcurrency),
    (active.length, (limitsOf p).globalConcurrency),
    (ticketRecent.length, (limitsOf p).perTicketRpm),
    (validatorRecent.length, (limitsOf p).perValidatorRpm),
    (globalRecent.length, (limitsOf p).globalRpm)]

/-- `_first_exhausted_scope`: the first gate at its limit. -/
def firstExhaustedScope (gates : List (ℤ × ℤ)) : Option (ℤ × ℤ) := gates.find? fun gate => gate.1 ≥ gate.2

def checkGates (db : Database) (p : BeginParams) : Except Refusal (Database × InferenceGrant) := do
  ensure (p.kind = .chat ∨ p.kind = .embedding) (.declined .unattributed)
  let locked ← require (Dict.get? db.grants p.grantId) (.declined .unattributed)
  ensure (∃ digest ∈ locked.bearerDigest, digest = bearerDigest p.bearer) (.declined .unattributed)
  ensure (¬ locked.expiresAt ≤ p.now) (.declined .leaseExpired)
  ensure (¬ modelRefused locked p) (.declined .modelNotPermitted)
  ensure (¬ locked.status ≠ .active) (.declined (statusDeclineOf locked p))
  let (reclaimed, grant) := recount db locked p
  ensure (¬ ticketGone (Dict.get? db.tickets grant.key) grant p.now) (.declined .grantRevoked)
  ensure (¬ (laneOf grant p.kind).requestCount ≥ (laneOf grant p.kind).requestBudget) (.declined .budgetExhausted)
  ensure (¬ p.tokenReservation < 1) (.declined .unattributed)
  ensure (¬ spentOf grant p.kind ≥ (laneOf grant p.kind).tokenBudget) (.declined .tokenBudgetExhausted)
  return (reclaimed, grant)

def insertRequest (db : Database) (grant : InferenceGrant) (p : BeginParams) :
    Except Refusal (Database × InferenceGrant × InferenceRequest) := do
  ensure (¬ (laneOf grant p.kind).activeRequests ≥ (limitsOf p).perTicketConcurrency) (.declined .atCapacity)
  ensure (¬ (Dict.get? db.requests p.key).isSome = true) (.declined .nonceReplayed)
  ensure (firstExhaustedScope (gates db grant p) = none) (.declined .atCapacity)
  let request := newRequest grant p.kind p.model p.tokenReservation (max p.tokenReservation p.maxChargeableTokens) p.now
  -- every violated constraint of the insert is read as a replay
  ensure (0 < grant.generation) (.declined .nonceReplayed)
  let lane := laneOf grant p.kind
  let counted := { lane with requestCount := lane.requestCount + 1, activeRequests := lane.activeRequests + 1 }
  let after := { setLaneOf grant p.kind counted with updatedAt := p.now }
  ensure (Int4 counted.requestCount ∧ Int4 counted.activeRequests) .failed
  return ((db.setRequest p.key request).setGrant p.grantId after, after, request)

def beginInferenceRequest (db : Database) (p : BeginParams) :
    Except Refusal (Database × InferenceGrant × InferenceRequest) := do
  let (db, grant) ← checkGates bearerDigest db p
  insertRequest db grant p

/-! ## Settlement -/

/-- What a report books, and whether it is within the ceiling of the request. -/
def clampUsage (request : InferenceRequest) (p : FinishParams) : Charge × Bool :=
  let promptTokens := max 0 p.promptTokens
  let completionTokens := max 0 p.completionTokens
  let costMicrousd := max 0 p.costMicrousd
  if ¬ p.usageAvailable then (⟨0, 0, costMicrousd⟩, true)
  else if promptTokens + completionTokens > request.maxChargeableTokens then
    (⟨request.maxChargeableTokens, 0, costMicrousd⟩, false)
  else (⟨promptTokens, completionTokens, costMicrousd⟩, true)

/-- The settled request row. -/
def settledRow (request : InferenceRequest) (p : FinishParams) (usage : Charge) (deliverable : Bool) :
    InferenceRequest :=
  { request with
    status := if request.status = .started ∧ (deliverable ∨ p.status ≠ .completed) then p.status.status else .canceled
    promptTokens := usage.promptTokens
    completionTokens := usage.completionTokens
    costMicrousd := usage.costMicrousd
    upstreamProvider := p.upstreamProvider
    upstreamAttempts := max 0 p.upstreamAttempts
    openrouterAttempts := max 0 p.openrouterAttempts
    fallbackPhase := min 1 (max 0 p.fallbackPhase)
    terminalErrorCode := p.terminalErrorCode
    timedOut := p.timedOut
    latencyMs := some p.latencyMs
    completedAt := some p.now }

/-- The grant with the usage booked on the lane of the request. -/
def bookUsage (grant : InferenceGrant) (request : InferenceRequest) (usage : Charge) (now : ℤ) : InferenceGrant :=
  let lane := laneOf grant request.requestKind
  let booked := setLaneOf grant request.requestKind { lane with
    activeRequests := if request.status = .started then max 0 (lane.activeRequests - 1) else lane.activeRequests
    tokens := lane.tokens + usage.promptTokens
    costMicrousd := lane.costMicrousd + usage.costMicrousd }
  if request.requestKind = .chat then
    { booked with completionTokens := booked.completionTokens + usage.completionTokens, updatedAt := now }
  else { booked with updatedAt := now }

/-- A chat lane that has spent its tokens exhausts the grant. -/
def closeSpent (grant : InferenceGrant) (kind : RequestKind) : InferenceGrant :=
  if kind = .chat ∧ grant.chat.tokens + grant.completionTokens ≥ grant.chat.tokenBudget then
    { grant with status := .exhausted }
  else grant

def finishInferenceRequest (db : Database) (p : FinishParams) : Except Refusal (Database × Bool) :=
  match Dict.get? db.grants p.grantId, Dict.get? db.requests p.key with
  | some grant, some request =>
    if (request.status ≠ .started ∧ request.status ≠ .canceled) ∨ request.generation ≠ p.generation then
      return (db, false)
    else if request.status ≠ .started ∧
        (request.promptTokens > 0 ∨ request.completionTokens > 0 ∨ request.costMicrousd > 0) then
      return (db, false)
    else do
      let (usage, within) := clampUsage request p
      let deliverable := decide (p.status = .completed ∧ p.usageAvailable ∧ grant.status = .active ∧
        grant.generation = p.generation ∧ request.status = .started ∧ grant.expiresAt > p.now ∧
        ¬ ticketGone (Dict.get? db.tickets grant.key) grant p.now) && within
      let after := closeSpent (bookUsage grant request usage p.now) request.requestKind
      ensure (Int8 (laneOf after request.requestKind).tokens ∧
        (request.requestKind = .chat → Int8 after.completionTokens) ∧
        Int8 (laneOf after request.requestKind).costMicrousd) .failed
      return ((db.setRequest p.key (settledRow request p usage deliverable)).setGrant p.grantId after, deliverable)
  | _, _ => return (db, false)

/-! ## Exchange -/

def activateInferenceGrant (db : Database) (p : ActivateParams) : Except Refusal (Database × Option InferenceGrant) :=
  match Dict.get? db.grants p.grantId with
  | none => return (db, none)
  | some grant =>
    if grant.validatorHotkey ≠ p.validatorHotkey then return (db, none)
    else
      match Dict.get? db.tickets grant.key with
      | none => return (db.setGrant p.grantId { grant with status := .revoked }, none)
      | some ticket =>
        if grant.validatorHotkey ≠ p.validatorHotkey ∨ ticketGone (some ticket) grant p.now ∨
            (grant.status = .revoked ∨ grant.status = .exhausted) then
          return (db.setGrant p.grantId { grant with status := .revoked }, none)
        else
          let started := db.requests.filter fun row => row.1.grantId = p.grantId ∧ row.2.status = .started
          if started.any fun row => row.2.startedAt ≥ staleCutoff p.now p.timeoutSeconds then return (db, none)
          else do
            let after := { grant with
              bearerDigest := some (bearerDigest p.bearer)
              brokerPublicKey := some (String.ofList (p.brokerPublicKey.toList.rdropWhile (· = '=')))
              generation := grant.generation + 1
              status := .active
              slotId := ticket.slotId
              expiresAt := ticket.deadline
              chat := { grant.chat with activeRequests := 0 }
              embedding := { grant.embedding with activeRequests := 0 }
              decision := { grant.decision with activeRequests := 0 }
              updatedAt := p.now }
            ensure (Int4 after.generation) .failed
            return ((cancelUnsettled db started p.now).setGrant p.grantId after, some after)

end

/-! ## The life of a grant -/

/-- The open grants of a ticket. -/
def OpenGrant (key : TicketKey) (grant : InferenceGrant) : Prop :=
  grant.key = key ∧ (grant.status = .pending ∨ grant.status = .active)

instance (key : TicketKey) (grant : InferenceGrant) : Decidable (OpenGrant key grant) :=
  inferInstanceAs (Decidable (_ ∧ _))

/-- All lanes at rest. -/
def revoked (grant : InferenceGrant) (now : ℤ) : InferenceGrant :=
  { grant.idle with status := .revoked, updatedAt := now }

/-- Revokes the open grants of a ticket and cancels what runs on them. -/
def revokeTicketInference (db : Database) (key : TicketKey) (now : ℤ) : Database :=
  { db.cancelWhere now (fun k row => row.status = .started ∧ ∃ grant ∈ Dict.get? db.grants k.grantId,
      OpenGrant key grant) with
    grants := Dict.mapRows (fun _ grant => if OpenGrant key grant then revoked grant now else grant) db.grants }

/-- The newest grant of a ticket. -/
def NewestGrant (db : Database) (key : TicketKey) (grantId : String) : Prop :=
  ∃ grant ∈ Dict.get? db.grants grantId, grant.key = key ∧
    ∀ row ∈ db.grants, row.2.key = key → row.2.createdAt ≤ grant.createdAt

instance (db : Database) (key : TicketKey) (grantId : String) : Decidable (NewestGrant db key grantId) :=
  inferInstanceAs (Decidable (∃ grant ∈ Dict.get? db.grants grantId, _))

/-- What `issue_ticket` makes of the newest grant when it resumes a parked lease: a new deadline and no bearer, with
all that was spent. -/
def resumed (grant : InferenceGrant) (nextDeadline now : ℤ) : InferenceGrant :=
  { grant.idle with
    ticketDeadline := nextDeadline
    expiresAt := nextDeadline
    status := if grant.status ≠ .exhausted then .pending else grant.status
    bearerDigest := none
    brokerPublicKey := none
    updatedAt := now }

/-- The resume of a parked lease; `grantId` is the newest grant that the select returns. -/
def resumeParkedGrant (db : Database) (key : TicketKey) (grantId : String) (nextDeadline now : ℤ) : Database :=
  match Dict.get? db.grants grantId with
  | some grant => if NewestGrant db key grantId then db.setGrant grantId (resumed grant nextDeadline now) else db
  | none => db

/-- A lane of a new grant. -/
def NewLane (lane : LaneAccount) : Prop :=
  0 ≤ lane.requestBudget ∧ Int4 lane.requestBudget ∧ lane.requestCount = 0 ∧ lane.tokens = 0 ∧ lane.costMicrousd = 0 ∧
    lane.activeRequests = 0

instance (lane : LaneAccount) : Decidable (NewLane lane) := inferInstanceAs (Decidable (_ ∧ _))

/-- A grant as `ensure_inference_grant` creates it. -/
def NewGrant (grant : InferenceGrant) : Prop :=
  grant.status = .pending ∧ grant.bearerDigest = none ∧ grant.brokerPublicKey = none ∧ grant.generation = 0 ∧
    grant.completionTokens = 0 ∧ NewLane grant.chat ∧ NewLane grant.embedding ∧
    NewLane grant.decision

instance (grant : InferenceGrant) : Decidable (NewGrant grant) := inferInstanceAs (Decidable (_ ∧ _))

/-- The insert of a new grant. -/
def ensureInferenceGrant (db : Database) (grantId : String) (grant : InferenceGrant) : Database :=
  if NewGrant grant ∧ Dict.get? db.grants grantId = none then db.setGrant grantId grant else db

end DittoSubnet.Platform

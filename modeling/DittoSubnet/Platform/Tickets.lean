import DittoSubnet.Kit.ReadCommitted
import Mathlib.Data.Int.Order.Basic

/-!
# Scoring leases

The `validator_tickets` table and the transactions on it: `issue_ticket`, `issue_confirmation_ticket` and
`issue_generator_round_ticket` of `ditto/db/queries/tickets.py`, and the score submission of
`api_server/endpoints/validator.py`. Each is a program of statements (`program`) that runs under READ COMMITTED
(`Kit.ReadCommitted`); what other tables answer is the `Choice` of a statement.

A statement of the mapper updates a row by primary key and sends only the columns that differ from what was loaded
(`Ticket.flush`). A `FOR UPDATE` select reads its matches on a snapshot, then locks them one after the other and
checks each again. Of the candidate select only the agent row is checked again, so what it read about tickets may be
old by then. The unique index over the issued rows of a slot is left out: it could only refuse more.
-/

namespace DittoSubnet.Platform

open Kit Kit.ReadCommitted

/-! ## Rows -/

inductive TicketStatus
  | issued
  | scored
  | expired
  deriving DecidableEq, Repr

inductive TicketPurpose
  | legacyUnclassified
  | canonicalQuorum
  | continualRetest
  | benchmarkCanary
  | generatorRound
  deriving DecidableEq, Repr

/-- The primary key of a ticket, and of the score it is for. -/
structure TicketKey where
  agentId : String
  benchVersion : ℕ
  validatorHotkey : String
  deriving DecidableEq, Repr

/-- A row of `validator_tickets`. `score` is the run of the `scores` row with the same key. -/
structure Ticket where
  slotId : String
  status : TicketStatus
  purpose : TicketPurpose
  purposeRevision : ℕ
  legacyCompletionAllowed : Bool
  issuedAt : ℤ
  deadline : ℤ
  seed : Option ℕ
  datasetSha256 : Option String
  seedBlock : Option ℕ
  seedBlockHash : Option String
  attemptCount : ℕ
  manualRetryGrants : ℕ
  retryAfter : Option ℤ
  providerOutageEpoch : Option String
  providerOutageAttemptedEpoch : Option String
  firstReportedAt : Option ℤ
  failureReason : Option String
  failureDetail : Option String
  failedAt : Option ℤ
  score : Option String
  deriving DecidableEq, Repr

/-- A column of an update: sent only when it differs from what was loaded. -/
def column {α : Type} [DecidableEq α] (loaded new stored : α) : α := if new = loaded then stored else new

/-- The update that the mapper sends for a changed row. -/
def Ticket.flush (loaded new stored : Ticket) : Ticket where
  slotId := column loaded.slotId new.slotId stored.slotId
  status := column loaded.status new.status stored.status
  purpose := column loaded.purpose new.purpose stored.purpose
  purposeRevision := column loaded.purposeRevision new.purposeRevision stored.purposeRevision
  legacyCompletionAllowed :=
    column loaded.legacyCompletionAllowed new.legacyCompletionAllowed stored.legacyCompletionAllowed
  issuedAt := column loaded.issuedAt new.issuedAt stored.issuedAt
  deadline := column loaded.deadline new.deadline stored.deadline
  seed := column loaded.seed new.seed stored.seed
  datasetSha256 := column loaded.datasetSha256 new.datasetSha256 stored.datasetSha256
  seedBlock := column loaded.seedBlock new.seedBlock stored.seedBlock
  seedBlockHash := column loaded.seedBlockHash new.seedBlockHash stored.seedBlockHash
  attemptCount := column loaded.attemptCount new.attemptCount stored.attemptCount
  manualRetryGrants := column loaded.manualRetryGrants new.manualRetryGrants stored.manualRetryGrants
  retryAfter := column loaded.retryAfter new.retryAfter stored.retryAfter
  providerOutageEpoch := column loaded.providerOutageEpoch new.providerOutageEpoch stored.providerOutageEpoch
  providerOutageAttemptedEpoch := column loaded.providerOutageAttemptedEpoch new.providerOutageAttemptedEpoch
    stored.providerOutageAttemptedEpoch
  firstReportedAt := column loaded.firstReportedAt new.firstReportedAt stored.firstReportedAt
  failureReason := column loaded.failureReason new.failureReason stored.failureReason
  failureDetail := column loaded.failureDetail new.failureDetail stored.failureDetail
  failedAt := column loaded.failedAt new.failedAt stored.failedAt
  score := stored.score

abbrev Tickets := Dict TicketKey Ticket

/-! ## Predicates -/

/-- `SCORING_QUORUM`. -/
def scoringQuorum : ℕ := 3

/-- `RETRY_COOLDOWN`, in seconds. -/
def retryCooldown : ℤ := 6 * 60 * 60

/-- `MAX_ATTEMPTS_PER_VERSION`. -/
def maxAttemptsPerVersion : ℕ := 1

namespace Ticket

/-- A lease that can still be used. -/
def Live (ticket : Ticket) (now : ℤ) : Prop := ticket.status = .issued ∧ now < ticket.deadline

/-- What the deadline sweep selects. -/
def Overdue (ticket : Ticket) (now : ℤ) : Prop := ticket.status = .issued ∧ ticket.deadline ≤ now

/-- `status IN _LIVE_TICKET_STATUSES`. -/
def Held (ticket : Ticket) : Prop := ticket.status = .issued ∨ ticket.status = .scored

/-- `retry_budget_spent`. -/
def RetryBudgetSpent (ticket : Ticket) : Prop :=
  ticket.purpose ≠ .benchmarkCanary ∧ ticket.providerOutageEpoch = none ∧
    maxAttemptsPerVersion + ticket.manualRetryGrants ≤ ticket.attemptCount

/-- `generator_round_free_ticket`. -/
def GeneratorRoundFree (ticket : Ticket) : Prop :=
  ticket.purpose ≠ .generatorRound ∨ (ticket.status ≠ .issued ∧ 0 < ticket.attemptCount)

/-- `scoring_retry_ticket`. -/
def ScoringRetry (ticket : Ticket) : Prop := ticket.purpose ≠ .benchmarkCanary ∧ ticket.GeneratorRoundFree

/-- A row that fills one place of the quorum. -/
def Occupies (ticket : Ticket) : Prop := ticket.Held ∧ ticket.ScoringRetry

/-- A row that keeps its validator from a lease on its agent: held, cooling down or out of attempts. -/
def AlreadyMine (ticket : Ticket) (now : ℤ) : Prop :=
  ticket.Held ∨ (ticket.status = .expired ∧ ((∃ r ∈ ticket.retryAfter, now < r) ∨ ticket.RetryBudgetSpent))

/-- A row that a later decision has made: an accepted score, or a lease that can still be used. -/
def Decided (ticket : Ticket) (now : ℤ) : Prop := ticket.status = .scored ∨ ticket.Live now

instance (ticket : Ticket) (now : ℤ) : Decidable (ticket.Live now) := inferInstanceAs (Decidable (_ ∧ _))
instance (ticket : Ticket) (now : ℤ) : Decidable (ticket.Overdue now) := inferInstanceAs (Decidable (_ ∧ _))
instance (ticket : Ticket) (now : ℤ) : Decidable (ticket.Decided now) := inferInstanceAs (Decidable (_ ∨ _))
instance (ticket : Ticket) : Decidable ticket.Held := inferInstanceAs (Decidable (_ ∨ _))
instance (ticket : Ticket) : Decidable ticket.RetryBudgetSpent := inferInstanceAs (Decidable (_ ∧ _))
instance (ticket : Ticket) : Decidable ticket.GeneratorRoundFree := inferInstanceAs (Decidable (_ ∨ _))
instance (ticket : Ticket) : Decidable ticket.ScoringRetry := inferInstanceAs (Decidable (_ ∧ _))
instance (ticket : Ticket) : Decidable ticket.Occupies := inferInstanceAs (Decidable (_ ∧ _))
instance (ticket : Ticket) (now : ℤ) : Decidable (ticket.AlreadyMine now) := inferInstanceAs (Decidable (_ ∨ _))

end Ticket

/-- The places of the quorum of an agent that are taken. -/
def occupied (tickets : Tickets) (agentId : String) (benchVersion : ℕ) : ℕ :=
  (tickets.filter fun row => row.1.agentId = agentId ∧ row.1.benchVersion = benchVersion ∧ row.2.Occupies).length

/-! ## Requests -/

/-- The arguments that the three lanes share. -/
structure Lease where
  validatorHotkey : String
  slotId : String
  now : ℤ
  ttl : ℤ
  benchVersion : ℕ
  deriving DecidableEq, Repr

/-- The function that issues a lease, with its own arguments. -/
inductive Lane
  | issueTicket (completionFirst : Bool)
  | issueConfirmationTicket (agentId : String) (seed : Option ℕ) (datasetSha256 : Option String)
  | issueGeneratorRoundTicket (agentId : String) (seed : ℕ) (datasetSha256 : String)
  deriving DecidableEq, Repr

inductive Request
  | issue (lease : Lease) (lane : Lane)
  | submitScore (key : TicketKey) (now ticketDeadline : ℤ) (runId : String)
  deriving DecidableEq, Repr

/-- The selects that look for a live lease and lock it. -/
inductive Probe
  | existing
  | incompatible
  | retest
  | slotOccupied
  | live
  deriving DecidableEq, Repr

/-- The statement that a transaction is at. -/
inductive Phase
  | lockValidatorSlot
  | selectOverdue
  | flushOverdue (overdue : List (TicketKey × Ticket))
  | gate
  | select (probe : Probe)
  | lockRow (probe : Probe) (found : List TicketKey)
  | recheck (probe : Probe) (key : TicketKey) (found : List TicketKey)
  | selectCandidate
  | lockCandidate (offered : List String)
  | recount (agentId : String)
  | recheckMine (agentId : String)
  | lockAgent
  | liveForAgent (agentId : String)
  | otherTables
  | fetch (agentId : String)
  | write (agentId : String) (loaded : Option Ticket)
  | lockTicket
  | getOpenTicket
  | upsertScore (loaded : Ticket)
  | markTicketScored (loaded : Ticket)
  | done
  deriving DecidableEq, Repr

/-- A transaction: its request, its next statement, and the rows its sweep has expired. -/
structure Code where
  request : Request
  phase : Phase
  swept : List TicketKey
  deriving DecidableEq, Repr

/-- What other tables answer: whether they let the request go on, and the agents that the queue offers. -/
structure Choice where
  pass : Bool
  agents : List String
  deriving DecidableEq, Repr

inductive Lock
  | slot (validatorHotkey slotId : String)
  | agent (agentId : String)
  | ticket (key : TicketKey)
  deriving DecidableEq, Repr

/-- The ticket of an agent for a lease. -/
def Lease.key (lease : Lease) (agentId : String) : TicketKey := ⟨agentId, lease.benchVersion, lease.validatorHotkey⟩

/-- The first statement of a request. -/
def Request.begin (request : Request) : Code where
  request := request
  phase := match request with
    | .issue _ _ => .lockValidatorSlot
    | .submitScore _ _ _ _ => .lockAgent
  swept := []

def Code.goTo (code : Code) (phase : Phase) : Code := { code with phase := phase }

/-! ## Statements -/

/-- An overdue row, expired. -/
def sweepTicket (ticket : Ticket) : Ticket :=
  { ticket with
    status := .expired
    retryAfter := if ticket.purpose = .generatorRound ∨ ticket.purpose = .benchmarkCanary then none
      else some (ticket.deadline + retryCooldown) }

/-- The leases of its validator that a probe is about. -/
def Probe.Selects (lease : Lease) (agentId : Option String) (key : TicketKey) (ticket : Ticket) : Probe → Prop
  | .existing => ticket.slotId = lease.slotId ∧ key.benchVersion = lease.benchVersion ∧
      ticket.purpose = .canonicalQuorum ∧ 0 < ticket.purposeRevision
  | .incompatible => ticket.slotId = lease.slotId
  | .retest => some key.agentId = agentId ∧ key.benchVersion = lease.benchVersion
  | .slotOccupied => ticket.slotId = lease.slotId
  | .live => ticket.slotId = lease.slotId ∨ some key.agentId = agentId

instance (lease : Lease) (agentId : Option String) (key : TicketKey) (ticket : Ticket) :
    ∀ probe : Probe, Decidable (probe.Selects lease agentId key ticket)
  | .existing => inferInstanceAs (Decidable (_ ∧ _))
  | .incompatible => inferInstanceAs (Decidable (_ = _))
  | .retest => inferInstanceAs (Decidable (_ ∧ _))
  | .slotOccupied => inferInstanceAs (Decidable (_ = _))
  | .live => inferInstanceAs (Decidable (_ ∨ _))

/-- What a probe looks for: a live lease of its validator. -/
def Probe.Matches (lease : Lease) (agentId : Option String) (probe : Probe) (key : TicketKey) (ticket : Ticket) :
    Prop :=
  key.validatorHotkey = lease.validatorHotkey ∧ ticket.Live lease.now ∧ probe.Selects lease agentId key ticket

instance (lease : Lease) (agentId : Option String) (probe : Probe) (key : TicketKey) (ticket : Ticket) :
    Decidable (probe.Matches lease agentId key ticket) := inferInstanceAs (Decidable (_ ∧ _))

/-- The agent that a lane names. -/
def Lane.agentId? : Lane → Option String
  | .issueTicket _ => none
  | .issueConfirmationTicket agentId _ _ => some agentId
  | .issueGeneratorRoundTicket agentId _ _ => some agentId

/-- The next statement after a probe that found nothing. -/
def Probe.onNone : Probe → Phase
  | .existing => .select .incompatible
  | .incompatible => .selectCandidate
  | .retest => .select .slotOccupied
  | .slotOccupied => .lockAgent
  | .live => .otherTables

/-- `force_expire_lease` of a canonical lease. -/
def forceExpire (ticket : Ticket) (now : ℤ) : Ticket :=
  { ticket with status := .expired, deadline := now, retryAfter := some now }

/-- The statement after a probe that found a live lease. -/
def onFound (code : Code) (lease : Lease) (probe : Probe) (key : TicketKey) (ticket : Ticket) (choice : Choice) :
    Effect Lock TicketKey Ticket Code :=
  match probe with
  | .incompatible =>
    -- an idle lease of the canonical lane is released, any other keeps the slot
    if ticket.purpose = .canonicalQuorum ∧ 0 < ticket.purposeRevision ∧ choice.pass = true then
      .update key (ticket.flush (forceExpire ticket lease.now)) (code.goTo .selectCandidate)
    else .read (code.goTo .done)
  | _ => .read (code.goTo .done)

/-- `release_foreign_dataset_pin`. -/
def releaseForeignDatasetPin (ticket : Ticket) : Ticket :=
  if ticket.purpose = .generatorRound ∨ ticket.purpose = .continualRetest then
    { ticket with seed := none, datasetSha256 := none, seedBlock := none, seedBlockHash := none }
  else ticket

/-- The canary evidence that a scoring lane drops. -/
def dropCanary (ticket : Ticket) : Ticket :=
  if ticket.purpose = .benchmarkCanary then
    { ticket with
      attemptCount := 0, manualRetryGrants := 0, failureReason := none, failureDetail := none, failedAt := none
      providerOutageEpoch := none, providerOutageAttemptedEpoch := none }
  else ticket

/-- The new row of a lease. -/
def Lease.ticket (lease : Lease) (purpose : TicketPurpose) (seed : Option ℕ) (datasetSha256 : Option String)
    (attemptCount : ℕ) : Ticket where
  slotId := lease.slotId
  status := .issued
  purpose := purpose
  purposeRevision := 1
  legacyCompletionAllowed := false
  issuedAt := lease.now
  deadline := lease.now + lease.ttl
  seed := seed
  datasetSha256 := datasetSha256
  seedBlock := none
  seedBlockHash := none
  attemptCount := attemptCount
  manualRetryGrants := 0
  retryAfter := none
  providerOutageEpoch := none
  providerOutageAttemptedEpoch := none
  firstReportedAt := none
  failureReason := none
  failureDetail := none
  failedAt := none
  score := none

/-- A row leased again by a lane. -/
def Lease.stamp (lease : Lease) (purpose : TicketPurpose) (ticket : Ticket) : Ticket :=
  { ticket with
    status := .issued, purpose := purpose, purposeRevision := ticket.purposeRevision + 1
    legacyCompletionAllowed := false, slotId := lease.slotId, issuedAt := lease.now
    deadline := lease.now + lease.ttl, retryAfter := none }

/-- The row that `issue_ticket` leases again. -/
def Lease.reissue (lease : Lease) (ticket : Ticket) : Ticket :=
  let cleared := if ticket.purpose = .benchmarkCanary then
      { ticket with
        attemptCount := 0, seed := none, datasetSha256 := none, seedBlock := none, seedBlockHash := none
        providerOutageEpoch := none, providerOutageAttemptedEpoch := none }
    else releaseForeignDatasetPin ticket
  let stamped := lease.stamp .canonicalQuorum cleared
  -- a lease parked by a provider outage is resumed without a new attempt
  match cleared.providerOutageEpoch with
  | none => { stamped with attemptCount := cleared.attemptCount + 1, firstReportedAt := none }
  | some epoch => { stamped with
      providerOutageAttemptedEpoch := some epoch, providerOutageEpoch := none, firstReportedAt := none }

/-- The row that `issue_confirmation_ticket` leases again. -/
def Lease.confirm (lease : Lease) (seed : Option ℕ) (datasetSha256 : Option String) (ticket : Ticket) : Ticket :=
  let cleared := dropCanary ticket
  let stamped := { lease.stamp .continualRetest cleared with
    seed := seed, datasetSha256 := datasetSha256, seedBlock := none, seedBlockHash := none }
  match cleared.providerOutageEpoch with
  | none => { stamped with attemptCount := cleared.attemptCount + 1 }
  | some epoch => { stamped with providerOutageAttemptedEpoch := some epoch, providerOutageEpoch := none }

/-- The row that `issue_generator_round_ticket` leases again. -/
def Lease.round (lease : Lease) (seed : ℕ) (datasetSha256 : String) (ticket : Ticket) : Ticket :=
  { lease.stamp .generatorRound (dropCanary ticket) with
    seed := some seed, datasetSha256 := some datasetSha256, seedBlock := none, seedBlockHash := none }

/-- The row that a lane inserts. -/
def Lane.newTicket (lease : Lease) : Lane → Ticket
  | .issueTicket _ => lease.ticket .canonicalQuorum none none 1
  | .issueConfirmationTicket _ seed datasetSha256 => lease.ticket .continualRetest seed datasetSha256 1
  | .issueGeneratorRoundTicket _ seed datasetSha256 => lease.ticket .generatorRound (some seed) (some datasetSha256) 0

/-- The row that a lane leases again. -/
def Lane.restamp (lease : Lease) : Lane → Ticket → Ticket
  | .issueTicket _ => lease.reissue
  | .issueConfirmationTicket _ seed datasetSha256 => lease.confirm seed datasetSha256
  | .issueGeneratorRoundTicket _ seed datasetSha256 => lease.round seed datasetSha256

/-- The first probe of a lane, after the sweep. -/
def Lane.afterGate : Lane → Phase
  | .issueTicket _ => .select .existing
  | .issueConfirmationTicket _ _ _ => .select .retest
  | .issueGeneratorRoundTicket _ _ _ => .lockAgent

/-- The next statement under the agent lock that a lane takes by name. -/
def Lane.afterAgent : Lane → Phase
  | .issueTicket _ => .done
  | .issueConfirmationTicket agentId _ _ => .liveForAgent agentId
  | .issueGeneratorRoundTicket _ _ _ => .select .live

/-- `live_ticket_for_agent_on_validator`; `issue_ticket` leaves out its own version. -/
def liveTicketForAgentOnValidator (tickets : Tickets) (lease : Lease) (lane : Lane) (agentId : String) : Prop :=
  ∃ row ∈ tickets, row.1.agentId = agentId ∧ row.1.validatorHotkey = lease.validatorHotkey ∧ row.2.Live lease.now ∧
    (lane.agentId? = none → row.1.benchVersion ≠ lease.benchVersion)

instance (tickets : Tickets) (lease : Lease) (lane : Lane) (agentId : String) :
    Decidable (liveTicketForAgentOnValidator tickets lease lane agentId) :=
  inferInstanceAs (Decidable (∃ row ∈ tickets, _))

/-- The row of an agent keeps the validator from leasing it. -/
def alreadyMine (tickets : Tickets) (lease : Lease) (agentId : String) : Prop :=
  ∃ ticket ∈ Dict.get? tickets (lease.key agentId), ticket.AlreadyMine lease.now

instance (tickets : Tickets) (lease : Lease) (agentId : String) : Decidable (alreadyMine tickets lease agentId) :=
  inferInstanceAs (Decidable (∃ ticket ∈ Dict.get? tickets (lease.key agentId), ticket.AlreadyMine lease.now))

/-- A lane, statement by statement. -/
def lanes (lease : Lease) (lane : Lane) (tickets : Tickets) (code : Code) (choice : Choice) :
    Effect Lock TicketKey Ticket Code :=
  match code.phase with
  | .lockValidatorSlot => .lock (.slot lease.validatorHotkey lease.slotId) (code.goTo .selectOverdue)
  | .selectOverdue => .read (code.goTo (.flushOverdue (tickets.filter fun row => row.2.Overdue lease.now)))
  | .flushOverdue [] => .read (code.goTo .gate)
  | .flushOverdue ((key, ticket) :: overdue) =>
    .update key (ticket.flush (sweepTicket ticket)) ⟨code.request, .flushOverdue overdue, key :: code.swept⟩
  | .gate => .read (code.goTo (if choice.pass then lane.afterGate else .done))
  | .select probe =>
    .read (code.goTo (.lockRow probe
      (Dict.keys (tickets.filter fun row => probe.Matches lease lane.agentId? row.1 row.2))))
  | .lockRow probe [] => .read (code.goTo probe.onNone)
  | .lockRow probe (key :: found) => .lock (.ticket key) (code.goTo (.recheck probe key found))
  | .recheck probe key found =>
    match Dict.get? tickets key with
    | some ticket =>
      if probe.Matches lease lane.agentId? key ticket then onFound code lease probe key ticket choice
      else .read (code.goTo (.lockRow probe found))
    | none => .read (code.goTo (.lockRow probe found))
  | .selectCandidate =>
    .read (code.goTo (.lockCandidate (choice.agents.filter fun agentId =>
      lane = .issueTicket true ∨ ¬ alreadyMine tickets lease agentId)))
  | .lockCandidate [] => .read (code.goTo (if choice.pass then .selectCandidate else .done))
  | .lockCandidate (agentId :: offered) =>
    if choice.pass then .lock (.agent agentId) (code.goTo (.recount agentId))
    else .read (code.goTo (.lockCandidate offered))
  | .recount agentId =>
    if choice.pass = true ∧ occupied tickets agentId lease.benchVersion < scoringQuorum then
      match lane with
      | .issueTicket true => .read (code.goTo (.recheckMine agentId))
      | .issueTicket false => .read (code.goTo (.liveForAgent agentId))
      | _ => .rollback
    else .read (code.goTo .selectCandidate)
  | .recheckMine agentId =>
    match lane with
    | .issueTicket _ =>
      .read (code.goTo (if alreadyMine tickets lease agentId then .selectCandidate else .liveForAgent agentId))
    | _ => .rollback
  | .lockAgent =>
    match lane.agentId? with
    | some agentId => .lock (.agent agentId) (code.goTo lane.afterAgent)
    | none => .rollback
  | .liveForAgent agentId =>
    .read (code.goTo (match lane with
      | .issueTicket _ =>
        if liveTicketForAgentOnValidator tickets lease lane agentId then .selectCandidate else .fetch agentId
      | _ => if liveTicketForAgentOnValidator tickets lease lane agentId then .done else .otherTables))
  | .otherTables =>
    match lane.agentId? with
    | some agentId => .read (code.goTo (if choice.pass then .fetch agentId else .done))
    | none => .rollback
  | .fetch agentId =>
    match lane, Dict.get? tickets (lease.key agentId) with
    | .issueTicket _, loaded => .read (code.goTo (.write agentId loaded))
    | _, loaded =>
      .read (code.goTo (if ∃ ticket ∈ loaded, ∃ r ∈ ticket.retryAfter, lease.now < r then .done
        else .write agentId loaded))
  | .write agentId none => .insert (lease.key agentId) (lane.newTicket lease) (code.goTo .done)
  | .write agentId (some loaded) =>
    .update (lease.key agentId) (loaded.flush (lane.restamp lease loaded)) (code.goTo .done)
  | .done => .commit
  | _ => .rollback

/-- A ticket that `get_open_ticket` returns and that canonical scoring accepts. -/
def OpenTicket (ticket : Ticket) (now ticketDeadline : ℤ) : Prop :=
  ticket.status = .issued ∧ now < ticket.deadline ∧ ticket.deadline = ticketDeadline ∧
    ((ticket.purpose = .legacyUnclassified ∧ ticket.purposeRevision = 0 ∧ ticket.legacyCompletionAllowed = true) ∨
      (ticket.purpose = .canonicalQuorum ∧ 0 < ticket.purposeRevision))

instance (ticket : Ticket) (now ticketDeadline : ℤ) : Decidable (OpenTicket ticket now ticketDeadline) :=
  inferInstanceAs (Decidable (_ ∧ _))

/-- The ticket of an accepted score; a lease of the migration becomes a canonical one. -/
def scoredTicket (ticket : Ticket) : Ticket :=
  if ticket.purpose = .legacyUnclassified then
    { ticket with
      status := .scored, purpose := .canonicalQuorum, purposeRevision := 1, legacyCompletionAllowed := false }
  else { ticket with status := .scored }

/-- The score submission, statement by statement. -/
def submission (key : TicketKey) (now ticketDeadline : ℤ) (runId : String) (tickets : Tickets) (code : Code)
    (choice : Choice) : Effect Lock TicketKey Ticket Code :=
  match code.phase with
  | .lockAgent => .lock (.agent key.agentId) (code.goTo .lockTicket)
  | .lockTicket =>
    if key ∈ Dict.keys tickets then .lock (.ticket key) (code.goTo .getOpenTicket) else .rollback
  | .getOpenTicket =>
    match Dict.get? tickets key with
    | some ticket =>
      if OpenTicket ticket now ticketDeadline ∧ choice.pass = true then .read (code.goTo (.upsertScore ticket))
      else .rollback
    | none => .rollback
  | .upsertScore ticket =>
    .update key (fun stored => { stored with score := some runId }) (code.goTo (.markTicketScored ticket))
  | .markTicketScored ticket => .update key (ticket.flush (scoredTicket ticket)) (code.goTo .done)
  | .done => .commit
  | _ => .rollback

/-- The transactions of the platform. -/
def program (tickets : Tickets) (code : Code) (choice : Choice) : Effect Lock TicketKey Ticket Code :=
  match code.request with
  | .issue lease lane => lanes lease lane tickets code choice
  | .submitScore key now ticketDeadline runId => submission key now ticketDeadline runId tickets code choice

/-- The platform after some steps of its transactions. -/
def platform {T : Type} [DecidableEq T] (tickets : Tickets) (actions : List (Action T Code Choice)) :
    System T Lock TicketKey Ticket Code :=
  actions.foldl (act Lock.ticket program) (start tickets)

def Request.lease? : Request → Option Lease
  | .issue lease _ => some lease
  | .submitScore _ _ _ _ => none

/-- The row that the sweep updates next. -/
def Phase.sweeping? : Phase → Option TicketKey
  | .flushOverdue ((key, _) :: _) => some key
  | _ => none

/-- The agent whose row `issue_ticket` fetches without a second check of its own row. -/
def Code.unchecked? (code : Code) : Option String :=
  match code.request, code.phase with
  | .issue _ (.issueTicket false), .fetch agentId => some agentId
  | _, _ => none

/-- Where the code relies on a read that may be old: the row that the sweep updates, and outside completion-first mode
the row that `issue_ticket` fetches, hold nothing newer. -/
def Fresh (Newer : Ticket → ℤ → Prop) (tickets : Tickets) (code : Code) (_choice : Choice) : Prop :=
  ∀ lease ∈ code.request.lease?,
    (∀ key ∈ code.phase.sweeping?, ∀ ticket ∈ Dict.get? tickets key, ¬ Newer ticket lease.now) ∧
      ∀ agentId ∈ code.unchecked?, ∀ ticket ∈ Dict.get? tickets (lease.key agentId), ¬ Newer ticket lease.now

instance (Newer : Ticket → ℤ → Prop) [∀ ticket now, Decidable (Newer ticket now)] (tickets : Tickets) (code : Code)
    (choice : Choice) : Decidable (Fresh Newer tickets code choice) :=
  inferInstanceAs (Decidable (∀ lease ∈ code.request.lease?, _ ∧ _))

end DittoSubnet.Platform

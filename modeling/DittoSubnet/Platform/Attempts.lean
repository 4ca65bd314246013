import DittoSubnet.Platform.Tickets
import Mathlib.Tactic

/-!
# The attempts of a ticket row

One `(agent, version, validator)` row is leased by three lanes and closed in five ways, and each of these sets its own
columns. `RowOp` lists what happens to the row, `RowHistory.step` is its effect on the row and on the counts of leases
and grants.

* `Account`: the invariant. The unspent budget of the row and the leases that were charged for stay within the base
  attempt and the operator grants, and an outage resume happens once.
* `attempts_bounded`: over every sequence the attempts never fall, `issue_ticket` leases the row at most twice more than
  operators granted, generator rounds leave every retry column as it is, and a row that only rounds used keeps nobody
  away once its lease is closed.

The row starts absent and no operation makes it a canary. Gates on other tables are the flag `pass` of a lease.
-/

namespace DittoSubnet.Platform

/-! ## Operations -/

/-- The deadline sweep, on one row. -/
def expireOverdue (now : ℤ) (ticket : Ticket) : Ticket := if ticket.Overdue now then sweepTicket ticket else ticket

/-- `finish_generator_round_ticket`. -/
def finishGeneratorRoundTicket (ticket : Ticket) : Ticket :=
  { ticket with status := if ticket.attemptCount = 0 then .expired else .scored, retryAfter := none }

/-- What `park_scoring_leases` reads of the circuit: `probeSlot` is the slot of this validator that holds the live
scoring probe. -/
structure OutageCircuit where
  isOpen : Bool
  epoch : String
  retryAt : ℤ
  probeSlot : Option String

/-- `park_scoring_leases`, on one row. -/
def parkTicket (circuit : OutageCircuit) (now : ℤ) (ticket : Ticket) : Ticket :=
  if circuit.isOpen = false ∨ ticket.status ≠ .issued ∨ circuit.probeSlot = some ticket.slotId then ticket
  else
    match ticket.purpose with
    | .benchmarkCanary => { ticket with status := .expired }
    | .generatorRound => { ticket with status := .expired, retryAfter := none }
    | _ => { ticket with
        status := .expired
        deadline := now
        retryAfter := some (max now circuit.retryAt)
        -- one no-fault resume for a ticket, whatever the circuit does later
        providerOutageEpoch := if ticket.providerOutageAttemptedEpoch = none then some circuit.epoch else none
        failureReason := some "infrastructure"
        failureDetail := some "provider_outage_parked"
        failedAt := some now }

/-- `ticket_attempt_cap`. -/
def Ticket.attemptCap (ticket : Ticket) : ℕ := maxAttemptsPerVersion + ticket.manualRetryGrants

/-- `is_exhausted`. -/
def Ticket.Exhausted (ticket : Ticket) : Prop := ticket.status = .expired ∧ ticket.RetryBudgetSpent

instance (ticket : Ticket) : Decidable ticket.Exhausted := inferInstanceAs (Decidable (_ ∧ _))

/-- `_apply_recovery`, on a selected row: the cap rises to one more attempt. -/
def recoverTicket (now : ℤ) (ticket : Ticket) : Ticket :=
  { ticket with
    manualRetryGrants := ticket.manualRetryGrants + (ticket.attemptCount - ticket.attemptCap + 1)
    retryAfter := some now }

/-- The grant of an image rebuild or a contract refresh, on a row that is not scored. -/
def refreshTicket (now : ℤ) (ticket : Ticket) : Ticket :=
  { ticket with
    status := .expired
    deadline := now
    retryAfter := some now
    manualRetryGrants := ticket.manualRetryGrants + max 1 (ticket.attemptCount + 1 - ticket.attemptCap) }

/-- What happens to a row. -/
inductive RowOp
  | issue (lease : Lease) (lane : Lane) (pass : Bool)
  | finishGeneratorRound
  | expireOverdueTickets (now : ℤ)
  | forceExpireLease (now : ℤ)
  | parkScoringLeases (circuit : OutageCircuit) (now : ℤ)
  | markTicketScored
  | applyRecovery (now : ℤ)
  | refreshContract (now : ℤ)

/-- A lane finds the row free: `issue_ticket` by its retry rules, the other lanes when it is neither live nor cooling
down. -/
def Lane.Admits (now : ℤ) : Lane → Ticket → Prop
  | .issueTicket _, ticket => ¬ ticket.AlreadyMine now
  | _, ticket => ¬ ticket.Live now ∧ ¬ ∃ r ∈ ticket.retryAfter, now < r

instance (now : ℤ) (ticket : Ticket) : ∀ lane : Lane, Decidable (lane.Admits now ticket)
  | .issueTicket _ => inferInstanceAs (Decidable (¬ _))
  | .issueConfirmationTicket _ _ _ => inferInstanceAs (Decidable (_ ∧ _))
  | .issueGeneratorRoundTicket _ _ _ => inferInstanceAs (Decidable (_ ∧ _))

def Lane.isCanonical : Lane → Bool
  | .issueTicket _ => true
  | _ => false

def Lane.isRound : Lane → Bool
  | .issueGeneratorRoundTicket _ _ _ => true
  | _ => false

/-- The row, and what was counted: the leases of `issue_ticket`, those of them that left the attempts as they were, and
the operator grants. -/
structure RowHistory where
  row : Option Ticket
  leases : ℕ
  resumes : ℕ
  granted : ℕ

/-- A row that was never leased. -/
def RowHistory.start : RowHistory := ⟨none, 0, 0, 0⟩

/-- The attempts of a row; an absent row has none. -/
def attempts (row : Option Ticket) : ℕ := row.elim 0 (·.attemptCount)

/-- The row after a lease. -/
def leasedRow (lease : Lease) (lane : Lane) (row : Option Ticket) : Ticket :=
  row.elim (lane.newTicket lease) (lane.restamp lease)

/-- A grant on the rows that `selected` selects. -/
def RowHistory.grant (h : RowHistory) (selected : Ticket → Prop) [DecidablePred selected] (update : Ticket → Ticket) :
    RowHistory :=
  match h.row with
  | none => h
  | some ticket => if selected ticket then { h with row := some (update ticket), granted := h.granted + 1 } else h

def RowHistory.step (h : RowHistory) : RowOp → RowHistory
  | .issue lease lane pass =>
    let row := h.row.map (expireOverdue lease.now)
    if pass = true ∧ ∀ ticket ∈ row, lane.Admits lease.now ticket then
      let leased := some (leasedRow lease lane row)
      if lane.isCanonical then
        { h with
          row := leased, leases := h.leases + 1
          resumes := h.resumes + if attempts leased = attempts row then 1 else 0 }
      else { h with row := leased }
    else { h with row }
  | .finishGeneratorRound =>
    { h with row := h.row.map fun ticket =>
        if ticket.purpose = .generatorRound ∧ ticket.status = .issued then finishGeneratorRoundTicket ticket
        else ticket }
  | .expireOverdueTickets now => { h with row := h.row.map (expireOverdue now) }
  | .forceExpireLease now =>
    { h with row := h.row.map fun ticket => if ticket.status = .issued then forceExpire ticket now else ticket }
  | .parkScoringLeases circuit now => { h with row := h.row.map (parkTicket circuit now) }
  | .markTicketScored => { h with row := h.row.map fun ticket => { ticket with status := .scored } }
  | .applyRecovery now => h.grant Ticket.Exhausted (recoverTicket now)
  | .refreshContract now => h.grant (fun ticket => ticket.status ≠ .scored) (refreshTicket now)

/-- A row after a sequence of operations. -/
def rowHistory (ops : List RowOp) : RowHistory := ops.foldl RowHistory.step .start

/-! ## What an operation changes -/

/-- The columns that decide about another attempt. -/
structure RetryColumns where
  attemptCount : ℕ
  manualRetryGrants : ℕ
  providerOutageEpoch : Option String
  providerOutageAttemptedEpoch : Option String
  deriving DecidableEq

def Ticket.retryColumns (ticket : Ticket) : RetryColumns :=
  ⟨ticket.attemptCount, ticket.manualRetryGrants, ticket.providerOutageEpoch, ticket.providerOutageAttemptedEpoch⟩

/-- The retry columns of a row; an absent row reads as one that nothing was spent or granted on. -/
def retryColumns (row : Option Ticket) : RetryColumns := row.elim ⟨0, 0, none, none⟩ (·.retryColumns)

@[simp] theorem expireOverdue_purpose (now : ℤ) (ticket : Ticket) :
    (expireOverdue now ticket).purpose = ticket.purpose := by
  rw [expireOverdue]
  split
  · rfl
  · rfl

@[simp] theorem expireOverdue_retryColumns (now : ℤ) (ticket : Ticket) :
    (expireOverdue now ticket).retryColumns = ticket.retryColumns := by
  rw [expireOverdue]
  split
  · rfl
  · rfl

@[simp] theorem finish_retryColumns (ticket : Ticket) :
    (finishGeneratorRoundTicket ticket).retryColumns = ticket.retryColumns := rfl

@[simp] theorem forceExpire_retryColumns (ticket : Ticket) (now : ℤ) :
    (forceExpire ticket now).retryColumns = ticket.retryColumns := rfl

theorem parkTicket_purpose (circuit : OutageCircuit) (now : ℤ) (ticket : Ticket) :
    (parkTicket circuit now ticket).purpose = ticket.purpose := by
  rw [parkTicket]
  split
  · rfl
  · split
    · rfl
    · rfl
    · rfl

/-- Parking keeps the retry columns, or opens the one resume of a ticket that had none. -/
theorem parkTicket_retryColumns (circuit : OutageCircuit) (now : ℤ) (ticket : Ticket) :
    (parkTicket circuit now ticket).retryColumns = ticket.retryColumns ∨
      ticket.purpose ≠ .generatorRound ∧ (parkTicket circuit now ticket).retryColumns =
        ⟨ticket.attemptCount, ticket.manualRetryGrants,
          if ticket.providerOutageAttemptedEpoch = none then some circuit.epoch else none,
          ticket.providerOutageAttemptedEpoch⟩ := by
  rw [parkTicket]
  split
  · exact Or.inl rfl
  · split
    · exact Or.inl rfl
    · exact Or.inl rfl
    · next hround => exact Or.inr ⟨hround, rfl⟩

/-- What a charged lease leaves: one more attempt, or the parked resume in its place. -/
def RetryColumns.charge (columns : RetryColumns) : RetryColumns :=
  match columns.providerOutageEpoch with
  | none => { columns with attemptCount := columns.attemptCount + 1 }
  | some epoch => { columns with providerOutageEpoch := none, providerOutageAttemptedEpoch := some epoch }

theorem RetryColumns.charge_of_none {columns : RetryColumns} (hepoch : columns.providerOutageEpoch = none) :
    columns.charge = { columns with attemptCount := columns.attemptCount + 1 } := by
  rw [RetryColumns.charge, hepoch]

theorem RetryColumns.charge_of_some {columns : RetryColumns} {epoch : String}
    (hepoch : columns.providerOutageEpoch = some epoch) :
    columns.charge = { columns with providerOutageEpoch := none, providerOutageAttemptedEpoch := some epoch } := by
  rw [RetryColumns.charge, hepoch]

theorem releaseForeignDatasetPin_retryColumns (ticket : Ticket) :
    (releaseForeignDatasetPin ticket).retryColumns = ticket.retryColumns := by
  rw [releaseForeignDatasetPin]
  split
  · rfl
  · rfl

theorem reissue_retryColumns (lease : Lease) {ticket : Ticket} (hcanary : ticket.purpose ≠ .benchmarkCanary) :
    (lease.reissue ticket).retryColumns = ticket.retryColumns.charge := by
  calc (lease.reissue ticket).retryColumns = (releaseForeignDatasetPin ticket).retryColumns.charge := by
        rw [Lease.reissue, if_neg hcanary, RetryColumns.charge]
        generalize releaseForeignDatasetPin ticket = cleared
        cases hepoch : cleared.providerOutageEpoch with
        | none => simp [Ticket.retryColumns, Lease.stamp, hepoch]
        | some epoch => simp [Ticket.retryColumns, Lease.stamp, hepoch]
    _ = ticket.retryColumns.charge := by rw [releaseForeignDatasetPin_retryColumns]

theorem confirm_retryColumns (lease : Lease) (seed : Option ℕ) (dataset : Option String) {ticket : Ticket}
    (hcanary : ticket.purpose ≠ .benchmarkCanary) :
    (lease.confirm seed dataset ticket).retryColumns = ticket.retryColumns.charge := by
  rw [Lease.confirm, dropCanary, if_neg hcanary, RetryColumns.charge]
  cases hepoch : ticket.providerOutageEpoch with
  | none => simp [Ticket.retryColumns, Lease.stamp, hepoch]
  | some epoch => simp [Ticket.retryColumns, Lease.stamp, hepoch]

theorem round_retryColumns (lease : Lease) (seed : ℕ) (dataset : String) {ticket : Ticket}
    (hcanary : ticket.purpose ≠ .benchmarkCanary) :
    (lease.round seed dataset ticket).retryColumns = ticket.retryColumns := by
  rw [Lease.round, dropCanary, if_neg hcanary]
  rfl

/-- A canary is never made of a row by the three lanes. -/
theorem leasedRow_purpose (lease : Lease) (lane : Lane) (row : Option Ticket) :
    (leasedRow lease lane row).purpose ≠ .benchmarkCanary ∧
      ((leasedRow lease lane row).purpose = .generatorRound ↔ lane.isRound = true) := by
  cases row with
  | none => cases lane <;> simp [leasedRow, Lane.newTicket, Lease.ticket, Lane.isRound]
  | some ticket =>
    cases lane with
    | issueTicket completionFirst =>
      simp only [leasedRow, Option.elim_some, Lane.restamp, Lease.reissue]
      split <;> simp [Lease.stamp, Lane.isRound]
    | issueConfirmationTicket agentId seed dataset =>
      simp only [leasedRow, Option.elim_some, Lane.restamp, Lease.confirm]
      split <;> simp [Lease.stamp, Lane.isRound]
    | issueGeneratorRoundTicket agentId seed dataset =>
      simp [leasedRow, Lane.restamp, Lease.round, Lease.stamp, Lane.isRound]

/-- A round leaves the retry columns, a lease of the other lanes is charged for. -/
theorem leasedRow_retryColumns (lease : Lease) (lane : Lane) {row : Option Ticket}
    (hcanary : ∀ ticket ∈ row, ticket.purpose ≠ .benchmarkCanary) :
    (leasedRow lease lane row).retryColumns =
      if lane.isRound then retryColumns row else (retryColumns row).charge := by
  cases row with
  | none => cases lane <;> rfl
  | some ticket =>
    have hticket := hcanary ticket rfl
    cases lane with
    | issueTicket completionFirst => exact reissue_retryColumns lease hticket
    | issueConfirmationTicket agentId seed dataset => exact confirm_retryColumns lease seed dataset hticket
    | issueGeneratorRoundTicket agentId seed dataset => exact round_retryColumns lease seed dataset hticket

/-! ## What a step does -/

/-- The budget of a row that is no canary is spent. -/
def RetryColumns.Spent (columns : RetryColumns) : Prop :=
  columns.providerOutageEpoch = none ∧ maxAttemptsPerVersion + columns.manualRetryGrants ≤ columns.attemptCount

/-- What parking leaves of the retry columns. -/
def RetryColumns.park (epoch : String) (columns : RetryColumns) : RetryColumns :=
  { columns with providerOutageEpoch := if columns.providerOutageAttemptedEpoch = none then some epoch else none }

/-- What a grant of `n` leaves. -/
def RetryColumns.raise (n : ℕ) (columns : RetryColumns) : RetryColumns :=
  { columns with manualRetryGrants := columns.manualRetryGrants + n }

/-- The retry columns of a row and the counts, before and after a step. -/
inductive Effects (h : RowHistory) : RowHistory → Prop
  | keep {row : Option Ticket} (hrow : retryColumns row = retryColumns h.row) : Effects h { h with row }
  | retest {row : Option Ticket} (hrow : retryColumns row = (retryColumns h.row).charge) : Effects h { h with row }
  | lease {row : Option Ticket} (hrow : retryColumns row = (retryColumns h.row).charge)
      (hopen : ¬ (retryColumns h.row).Spent) :
      Effects h { h with
        row, leases := h.leases + 1
        resumes := h.resumes + if attempts row = attempts h.row then 1 else 0 }
  | park {row : Option Ticket} (epoch : String) (hrow : retryColumns row = (retryColumns h.row).park epoch) :
      Effects h { h with row }
  | grant {row : Option Ticket} {n : ℕ} (hrow : retryColumns row = (retryColumns h.row).raise n)
      (hone : n ≤ 1 ∨ maxAttemptsPerVersion + (retryColumns h.row).manualRetryGrants + n ≤
        (retryColumns h.row).attemptCount + 1) :
      Effects h { h with row, granted := h.granted + 1 }

theorem retryColumns_map {row : Option Ticket} {f : Ticket → Ticket}
    (hf : ∀ ticket ∈ row, (f ticket).retryColumns = ticket.retryColumns) :
    retryColumns (row.map f) = retryColumns row := by
  cases row with
  | none => rfl
  | some ticket => exact hf ticket rfl

theorem attempts_eq (row : Option Ticket) : attempts row = (retryColumns row).attemptCount := by
  cases row with
  | none => rfl
  | some ticket => rfl

/-- The rows that `issue_ticket` leases are not out of attempts. -/
theorem not_spent_of_admits {now : ℤ} {ticket : Ticket} (hcanary : ticket.purpose ≠ .benchmarkCanary)
    (hadmits : ¬ ticket.AlreadyMine now) : ¬ ticket.retryColumns.Spent := by
  rintro ⟨hepoch, hcap⟩
  refine hadmits ?_
  cases hstatus : ticket.status with
  | issued => exact Or.inl (Or.inl hstatus)
  | scored => exact Or.inl (Or.inr hstatus)
  | expired => exact Or.inr ⟨hstatus, Or.inr ⟨hcanary, hepoch, hcap⟩⟩

/-- A row that is no canary. -/
def NoCanary (row : Option Ticket) : Prop := ∀ ticket ∈ row, ticket.purpose ≠ .benchmarkCanary

theorem NoCanary.map {row : Option Ticket} (hrow : NoCanary row) {f : Ticket → Ticket}
    (hf : ∀ ticket, (f ticket).purpose = ticket.purpose) : NoCanary (row.map f) := by
  intro ticket hticket
  obtain ⟨old, hold, rfl⟩ := Option.map_eq_some_iff.mp hticket
  rw [hf]
  exact hrow old hold

theorem NoCanary.issue {lease : Lease} {lane : Lane} {row : Option Ticket} :
    NoCanary (some (leasedRow lease lane row)) := by
  rintro _ ⟨⟩
  exact (leasedRow_purpose lease lane row).1

theorem NoCanary.grant {h : RowHistory} (hrow : NoCanary h.row) {selected : Ticket → Prop} [DecidablePred selected]
    {update : Ticket → Ticket} (hupdate : ∀ ticket, (update ticket).purpose = ticket.purpose) :
    NoCanary (h.grant selected update).row := by
  rw [RowHistory.grant]
  split
  · exact hrow
  · next ticket hticket =>
    split
    · rintro _ ⟨⟩
      rw [hupdate]
      exact hrow ticket hticket
    · exact hrow

theorem NoCanary.step {h : RowHistory} (hrow : NoCanary h.row) (op : RowOp) : NoCanary (h.step op).row := by
  cases op with
  | issue lease lane pass =>
    simp only [RowHistory.step]
    split
    · split
      · exact NoCanary.issue
      · exact NoCanary.issue
    · exact hrow.map (expireOverdue_purpose lease.now)
  | finishGeneratorRound =>
    refine hrow.map fun ticket => ?_
    split
    · rfl
    · rfl
  | expireOverdueTickets now => exact hrow.map (expireOverdue_purpose now)
  | forceExpireLease now =>
    refine hrow.map fun ticket => ?_
    split
    · rfl
    · rfl
  | parkScoringLeases circuit now => exact hrow.map (parkTicket_purpose circuit now)
  | markTicketScored => exact hrow.map fun ticket => rfl
  | applyRecovery now => exact hrow.grant fun ticket => rfl
  | refreshContract now => exact hrow.grant fun ticket => rfl

theorem swept_retryColumns (now : ℤ) (row : Option Ticket) :
    retryColumns (row.map (expireOverdue now)) = retryColumns row :=
  retryColumns_map fun ticket _ => expireOverdue_retryColumns now ticket

/-- Every lane sweeps first; a row that it finds free is leased. -/
theorem issue_effects {h : RowHistory} (hrow : NoCanary h.row) (lease : Lease) (lane : Lane) (pass : Bool) :
    Effects h (h.step (.issue lease lane pass)) := by
  have hswept : NoCanary (h.row.map (expireOverdue lease.now)) := hrow.map (expireOverdue_purpose lease.now)
  have hcolumns := leasedRow_retryColumns lease lane hswept
  rw [swept_retryColumns] at hcolumns
  simp only [RowHistory.step]
  split
  · next hadmits =>
    cases lane with
    | issueTicket completionFirst =>
      -- an absent row has an attempt left, a present one by the rules of the lane
      have hopen : ¬ (retryColumns h.row).Spent := by
        rw [← swept_retryColumns lease.now]
        cases hold : h.row.map (expireOverdue lease.now) with
        | none => simp [retryColumns, RetryColumns.Spent, maxAttemptsPerVersion]
        | some ticket => exact not_spent_of_admits (hswept ticket hold) (hadmits.2 ticket hold)
      have hattempts : attempts (h.row.map (expireOverdue lease.now)) = attempts h.row := by
        rw [attempts_eq, attempts_eq, swept_retryColumns]
      rw [if_pos (show (Lane.issueTicket completionFirst).isCanonical = true from rfl), hattempts]
      exact .lease hcolumns hopen
    | issueConfirmationTicket agentId seed dataset => exact .retest hcolumns
    | issueGeneratorRoundTicket agentId seed dataset => exact .keep hcolumns
  · exact .keep (swept_retryColumns lease.now h.row)

theorem park_effects {h : RowHistory} (circuit : OutageCircuit) (now : ℤ) :
    Effects h (h.step (.parkScoringLeases circuit now)) := by
  cases hrow : h.row with
  | none => exact .keep (by rw [hrow]; rfl)
  | some ticket =>
    have hparked : retryColumns (h.row.map (parkTicket circuit now)) =
        (parkTicket circuit now ticket).retryColumns := by
      rw [hrow]
      rfl
    obtain hkeep | ⟨-, hpark⟩ := parkTicket_retryColumns circuit now ticket
    · exact .keep (by rw [hparked, hkeep, hrow]; rfl)
    · exact .park circuit.epoch (by rw [hparked, hpark, hrow]; rfl)

theorem grant_effects {h : RowHistory} {selected : Ticket → Prop} [DecidablePred selected] {update : Ticket → Ticket}
    (hupdate : ∀ ticket, selected ticket → ∃ n, (update ticket).retryColumns = ticket.retryColumns.raise n ∧
      (n ≤ 1 ∨ ticket.attemptCap + n ≤ ticket.attemptCount + 1)) :
    Effects h (h.grant selected update) := by
  rw [RowHistory.grant]
  split
  · exact .keep rfl
  · next ticket hticket =>
    split
    · next hselected =>
      obtain ⟨n, hraise, hone⟩ := hupdate ticket hselected
      refine .grant (n := n) ?_ ?_
      · rw [hticket]
        exact hraise
      · rw [hticket]
        exact hone
    · exact .keep rfl

theorem recoverTicket_raise (now : ℤ) {ticket : Ticket} (hexhausted : ticket.Exhausted) :
    ∃ n, (recoverTicket now ticket).retryColumns = ticket.retryColumns.raise n ∧
      (n ≤ 1 ∨ ticket.attemptCap + n ≤ ticket.attemptCount + 1) := by
  have hspent : ticket.attemptCap ≤ ticket.attemptCount := hexhausted.2.2.2
  exact ⟨_, rfl, Or.inr (by omega)⟩

theorem refreshTicket_raise (now : ℤ) (ticket : Ticket) :
    ∃ n, (refreshTicket now ticket).retryColumns = ticket.retryColumns.raise n ∧
      (n ≤ 1 ∨ ticket.attemptCap + n ≤ ticket.attemptCount + 1) :=
  ⟨_, rfl, by omega⟩

/-- What an operation does to the retry columns and to the counts. -/
theorem step_effects {h : RowHistory} (hrow : NoCanary h.row) (op : RowOp) : Effects h (h.step op) := by
  cases op with
  | issue lease lane pass => exact issue_effects hrow lease lane pass
  | finishGeneratorRound =>
    refine .keep (retryColumns_map fun ticket _ => ?_)
    split
    · rfl
    · rfl
  | expireOverdueTickets now => exact .keep (swept_retryColumns now h.row)
  | forceExpireLease now =>
    refine .keep (retryColumns_map fun ticket _ => ?_)
    split
    · rfl
    · rfl
  | parkScoringLeases circuit now => exact park_effects circuit now
  | markTicketScored => exact .keep (retryColumns_map fun ticket _ => rfl)
  | applyRecovery now => exact grant_effects fun ticket => recoverTicket_raise now
  | refreshContract now => exact grant_effects fun ticket _ => refreshTicket_raise now ticket

/-! ## The account of a row -/

/-- The books of a row: what is left of its budget and the leases that were charged for stay within the base attempt and
the grants; a resume was had by a row that says so, and a row parked for its resume has not had it. -/
structure Account (h : RowHistory) : Prop where
  budget : h.leases + (maxAttemptsPerVersion + (retryColumns h.row).manualRetryGrants -
    (retryColumns h.row).attemptCount) ≤ maxAttemptsPerVersion + h.granted + h.resumes
  once : h.resumes ≤ 1
  untried : (retryColumns h.row).providerOutageAttemptedEpoch = none → h.resumes = 0
  parked : (retryColumns h.row).providerOutageEpoch ≠ none →
    (retryColumns h.row).providerOutageAttemptedEpoch = none

theorem Account.start : Account .start := ⟨by decide, by decide, fun _ => rfl, fun h => absurd rfl h⟩

/-- A lease that is charged for keeps the account, whoever takes it. -/
theorem Account.retest {h : RowHistory} (account : Account h) {row : Option Ticket}
    (hrow : retryColumns row = (retryColumns h.row).charge) : Account { h with row } := by
  obtain ⟨hbudget, honce, huntried, hparked⟩ := account
  cases hepoch : (retryColumns h.row).providerOutageEpoch with
  | none =>
    rw [RetryColumns.charge_of_none hepoch] at hrow
    refine ⟨?_, honce, ?_, ?_⟩
    · rw [hrow]
      dsimp only
      omega
    · rw [hrow]
      exact huntried
    · rw [hrow]
      exact fun h => absurd hepoch h
  | some epoch =>
    rw [RetryColumns.charge_of_some hepoch] at hrow
    refine ⟨?_, honce, ?_, ?_⟩
    · rw [hrow]
      exact hbudget
    · rw [hrow]
      exact fun h => nomatch h
    · rw [hrow]
      exact fun h => absurd rfl h

/-- A canonical lease takes an attempt that was left, or the one resume. -/
theorem Account.lease {h : RowHistory} (account : Account h) {row : Option Ticket}
    (hrow : retryColumns row = (retryColumns h.row).charge) (hopen : ¬ (retryColumns h.row).Spent) :
    Account { h with
      row, leases := h.leases + 1
      resumes := h.resumes + if attempts row = attempts h.row then 1 else 0 } := by
  have hcharged := account.retest hrow
  obtain ⟨hbudget, honce, huntried, hparked⟩ := account
  obtain ⟨-, -, hcharged, hcleared⟩ := hcharged
  have hattempts : attempts row = (retryColumns h.row).charge.attemptCount := by rw [attempts_eq, hrow]
  rw [hattempts, attempts_eq]
  cases hepoch : (retryColumns h.row).providerOutageEpoch with
  | none =>
    have hleft : (retryColumns h.row).attemptCount <
        maxAttemptsPerVersion + (retryColumns h.row).manualRetryGrants := by
      by_contra hcap
      exact hopen ⟨hepoch, by omega⟩
    rw [RetryColumns.charge_of_none hepoch] at hrow ⊢
    rw [if_neg (by simp)]
    refine ⟨?_, honce, hcharged, hcleared⟩
    rw [hrow]
    dsimp only
    omega
  | some epoch =>
    have hfirst : h.resumes = 0 := huntried (hparked (by rw [hepoch]; exact fun h => nomatch h))
    rw [RetryColumns.charge_of_some hepoch] at hrow ⊢
    rw [if_pos rfl]
    refine ⟨?_, ?_, ?_, hcleared⟩
    · rw [hrow]
      dsimp only
      omega
    · dsimp only
      omega
    · rw [hrow]
      exact fun h => nomatch h

theorem Account.park {h : RowHistory} (account : Account h) {row : Option Ticket} {epoch : String}
    (hrow : retryColumns row = (retryColumns h.row).park epoch) : Account { h with row } := by
  obtain ⟨hbudget, honce, huntried, -⟩ := account
  refine ⟨?_, honce, ?_, ?_⟩
  · rw [hrow]
    exact hbudget
  · rw [hrow]
    exact huntried
  · rw [hrow]
    intro hparked
    by_contra htried
    exact hparked (if_neg htried)

/-- A grant opens at most one attempt more. -/
theorem Account.grant {h : RowHistory} (account : Account h) {row : Option Ticket} {n : ℕ}
    (hrow : retryColumns row = (retryColumns h.row).raise n)
    (hone : n ≤ 1 ∨ maxAttemptsPerVersion + (retryColumns h.row).manualRetryGrants + n ≤
      (retryColumns h.row).attemptCount + 1) : Account { h with row, granted := h.granted + 1 } := by
  obtain ⟨hbudget, honce, huntried, hparked⟩ := account
  refine ⟨?_, honce, ?_, ?_⟩
  · rw [hrow, RetryColumns.raise]
    dsimp only
    omega
  · rw [hrow]
    exact huntried
  · rw [hrow]
    exact hparked

theorem Account.step {h h' : RowHistory} (account : Account h) (heffects : Effects h h') : Account h' := by
  cases heffects with
  | keep hrow =>
    obtain ⟨hbudget, honce, huntried, hparked⟩ := account
    rw [← hrow] at hbudget huntried hparked
    exact ⟨hbudget, honce, huntried, hparked⟩
  | retest hrow => exact account.retest hrow
  | lease hrow hopen => exact account.lease hrow hopen
  | park epoch hrow => exact account.park hrow
  | grant hrow hone => exact account.grant hrow hone

theorem le_charge (columns : RetryColumns) : columns.attemptCount ≤ columns.charge.attemptCount := by
  rw [RetryColumns.charge]
  split
  · exact Nat.le_succ _
  · exact le_rfl

/-- No operation takes an attempt back. -/
theorem attempts_le {h h' : RowHistory} (heffects : Effects h h') : attempts h.row ≤ attempts h'.row := by
  rw [attempts_eq, attempts_eq]
  cases heffects with
  | keep hrow => exact (congrArg RetryColumns.attemptCount hrow).ge
  | retest hrow => exact hrow ▸ le_charge _
  | lease hrow hopen => exact hrow ▸ le_charge _
  | park epoch hrow => exact (congrArg RetryColumns.attemptCount hrow).ge
  | grant hrow hone => exact (congrArg RetryColumns.attemptCount hrow).ge

theorem rowHistory_concat (ops : List RowOp) (op : RowOp) : rowHistory (ops ++ [op]) = (rowHistory ops).step op := by
  rw [rowHistory, List.foldl_append]
  rfl

theorem account_run (ops : List RowOp) : NoCanary (rowHistory ops).row ∧ Account (rowHistory ops) := by
  induction ops using List.reverseRecOn with
  | nil => exact ⟨(fun ticket h => nomatch h), Account.start⟩
  | append_singleton ops op ih =>
    obtain ⟨hrow, account⟩ := ih
    rw [rowHistory_concat]
    exact ⟨hrow.step op, account.step (step_effects hrow op)⟩

/-! ## Generator rounds -/

/-- An operation of a generator round on this row: its lease and its close, and the expiry, the release and the parking
of its lease. -/
def RowOp.OfRound (row : Option Ticket) : RowOp → Prop
  | .issue _ lane _ => lane.isRound = true
  | .finishGeneratorRound => True
  | .expireOverdueTickets _ | .forceExpireLease _ | .parkScoringLeases _ _ =>
    ∀ ticket ∈ row, ticket.purpose = .generatorRound
  | _ => False

theorem round_keeps {h : RowHistory} (hrow : NoCanary h.row) {op : RowOp} (hround : op.OfRound h.row) :
    retryColumns (h.step op).row = retryColumns h.row := by
  cases op with
  | issue lease lane pass =>
    have hcolumns := leasedRow_retryColumns lease lane (hrow.map (expireOverdue_purpose lease.now))
    rw [swept_retryColumns, if_pos (show lane.isRound = true from hround)] at hcolumns
    simp only [RowHistory.step]
    split
    · split
      · exact hcolumns
      · exact hcolumns
    · exact swept_retryColumns lease.now h.row
  | finishGeneratorRound =>
    refine retryColumns_map fun ticket _ => ?_
    split
    · rfl
    · rfl
  | expireOverdueTickets now => exact swept_retryColumns now h.row
  | forceExpireLease now =>
    refine retryColumns_map fun ticket _ => ?_
    split
    · rfl
    · rfl
  | parkScoringLeases circuit now =>
    refine retryColumns_map fun ticket hticket => ?_
    obtain hkeep | ⟨hscoring, -⟩ := parkTicket_retryColumns circuit now ticket
    · exact hkeep
    · exact absurd (hround ticket hticket) hscoring
  | markTicketScored => exact hround.elim
  | applyRecovery now => exact hround.elim
  | refreshContract now => exact hround.elim

/-- No other lane leases the row, and no score is accepted for it. -/
def RowOp.LeavesToRounds : RowOp → Prop
  | .issue _ lane pass => lane.isRound = true ∨ pass = false
  | .markTicketScored => False
  | _ => True

/-- When an operation happens, where it stamps that on the row. -/
def RowOp.now? : RowOp → Option ℤ
  | .forceExpireLease now | .applyRecovery now | .refreshContract now => some now
  | _ => none

/-- A row that only rounds have leased, with no cooldown left at `now`. -/
structure RoundRow (now : ℤ) (ticket : Ticket) : Prop where
  purpose : ticket.purpose = .generatorRound
  attempts : ticket.attemptCount = 0
  unscored : ticket.status ≠ .scored
  cooled : ∀ r ∈ ticket.retryAfter, r ≤ now

section
variable {now : ℤ} {ticket : Ticket}

theorem RoundRow.expireOverdue (round : RoundRow now ticket) (sweep : ℤ) :
    RoundRow now (expireOverdue sweep ticket) := by
  rw [Platform.expireOverdue]
  split
  · refine ⟨round.purpose, round.attempts, (fun h => nomatch h), fun r hr => ?_⟩
    rw [sweepTicket, if_pos (Or.inl round.purpose)] at hr
    exact nomatch hr
  · exact round

theorem RoundRow.finish (round : RoundRow now ticket) : RoundRow now (finishGeneratorRoundTicket ticket) := by
  refine ⟨round.purpose, round.attempts, ?_, (fun r hr => nomatch hr)⟩
  rw [finishGeneratorRoundTicket, if_pos round.attempts]
  exact fun h => nomatch h

theorem RoundRow.forceExpire (round : RoundRow now ticket) {stamp : ℤ} (hstamp : stamp ≤ now) :
    RoundRow now (forceExpire ticket stamp) := by
  refine ⟨round.purpose, round.attempts, (fun h => nomatch h), ?_⟩
  rintro _ ⟨⟩
  exact hstamp

theorem RoundRow.park (round : RoundRow now ticket) (circuit : OutageCircuit) (stamp : ℤ) :
    RoundRow now (parkTicket circuit stamp ticket) := by
  rw [parkTicket]
  split
  · exact round
  · rw [round.purpose]
    exact ⟨rfl, round.attempts, (fun h => nomatch h), (fun r hr => nomatch hr)⟩

theorem RoundRow.refresh (round : RoundRow now ticket) {stamp : ℤ} (hstamp : stamp ≤ now) :
    RoundRow now (refreshTicket stamp ticket) := by
  refine ⟨round.purpose, round.attempts, (fun h => nomatch h), ?_⟩
  rintro _ ⟨⟩
  exact hstamp

/-- Recovery selects rows that spent an attempt. -/
theorem RoundRow.not_exhausted (round : RoundRow now ticket) : ¬ ticket.Exhausted := by
  rintro ⟨-, -, -, hcap⟩
  rw [round.attempts, maxAttemptsPerVersion] at hcap
  omega

/-- A round leases the row again without an attempt. -/
theorem RoundRow.lease {row : Option Ticket} (hrow : ∀ ticket ∈ row, RoundRow now ticket) (lease : Lease) {lane : Lane}
    (hround : lane.isRound = true) : RoundRow now (leasedRow lease lane row) := by
  cases lane with
  | issueGeneratorRoundTicket agentId seed dataset =>
    cases row with
    | none => exact ⟨rfl, rfl, (fun h => nomatch h), (fun r hr => nomatch hr)⟩
    | some ticket =>
      have round := hrow ticket rfl
      refine ⟨rfl, ?_, (fun h => nomatch h), (fun r hr => nomatch hr)⟩
      have hcanary : ticket.purpose ≠ .benchmarkCanary := by rw [round.purpose]; exact fun h => nomatch h
      calc (lease.round seed dataset ticket).attemptCount
          = (lease.round seed dataset ticket).retryColumns.attemptCount := rfl
        _ = ticket.retryColumns.attemptCount := by rw [round_retryColumns lease seed dataset hcanary]
        _ = 0 := round.attempts
  | issueTicket completionFirst => exact nomatch hround
  | issueConfirmationTicket agentId seed dataset => exact nomatch hround

theorem RoundRow.map {row : Option Ticket} (hrow : ∀ ticket ∈ row, RoundRow now ticket) {f : Ticket → Ticket}
    (hf : ∀ ticket, RoundRow now ticket → RoundRow now (f ticket)) :
    ∀ ticket ∈ row.map f, RoundRow now ticket := by
  intro ticket hticket
  obtain ⟨old, hold, rfl⟩ := Option.map_eq_some_iff.mp hticket
  exact hf old (hrow old hold)

end

theorem RoundRow.step {h : RowHistory} {now : ℤ} (hrow : ∀ ticket ∈ h.row, RoundRow now ticket) {op : RowOp}
    (hop : op.LeavesToRounds) (hstamp : ∀ stamp ∈ op.now?, stamp ≤ now) :
    ∀ ticket ∈ (h.step op).row, RoundRow now ticket := by
  cases op with
  | issue lease lane pass =>
    have hswept := RoundRow.map hrow fun ticket round => round.expireOverdue lease.now
    simp only [RowHistory.step]
    split
    · next hadmits =>
      have hround : lane.isRound = true := hop.resolve_right (by simp [hadmits.1])
      split
      · rintro _ ⟨⟩
        exact RoundRow.lease hswept lease hround
      · rintro _ ⟨⟩
        exact RoundRow.lease hswept lease hround
    · exact hswept
  | finishGeneratorRound =>
    refine RoundRow.map hrow fun ticket round => ?_
    split
    · exact round.finish
    · exact round
  | expireOverdueTickets sweep => exact RoundRow.map hrow fun ticket round => round.expireOverdue sweep
  | forceExpireLease stamp =>
    refine RoundRow.map hrow fun ticket round => ?_
    split
    · exact round.forceExpire (hstamp stamp rfl)
    · exact round
  | parkScoringLeases circuit stamp => exact RoundRow.map hrow fun ticket round => round.park circuit stamp
  | markTicketScored => exact hop.elim
  | applyRecovery stamp =>
    simp only [RowHistory.step, RowHistory.grant]
    split
    · exact hrow
    · next ticket hticket =>
      rw [if_neg (hrow ticket hticket).not_exhausted]
      exact hrow
  | refreshContract stamp =>
    simp only [RowHistory.step, RowHistory.grant]
    split
    · exact hrow
    · next ticket hticket =>
      split
      · rintro _ ⟨⟩
        exact (hrow ticket hticket).refresh (hstamp stamp rfl)
      · exact hrow

theorem roundRow_run {ops : List RowOp} {now : ℤ} (hops : ∀ op ∈ ops, op.LeavesToRounds)
    (hstamp : ∀ op ∈ ops, ∀ stamp ∈ op.now?, stamp ≤ now) : ∀ ticket ∈ (rowHistory ops).row, RoundRow now ticket := by
  induction ops using List.reverseRecOn with
  | nil => exact fun ticket h => nomatch h
  | append_singleton ops op ih =>
    have hlast : op ∈ ops ++ [op] := List.mem_append_right _ (List.mem_singleton_self op)
    rw [rowHistory_concat]
    exact RoundRow.step
      (ih (fun old hold => hops old (List.mem_append_left _ hold))
        (fun old hold => hstamp old (List.mem_append_left _ hold)))
      (hops op hlast) (hstamp op hlast)

/-- A closed round row reads as no row at all. -/
theorem RoundRow.closed {now : ℤ} {ticket : Ticket} (round : RoundRow now ticket) (hclosed : ticket.status ≠ .issued) :
    ¬ ticket.Occupies ∧ ¬ ticket.AlreadyMine now := by
  have hheld : ¬ ticket.Held := fun h => h.elim hclosed round.unscored
  refine ⟨fun h => hheld h.1, ?_⟩
  rintro (h | ⟨-, ⟨r, hr, hlt⟩ | ⟨-, -, hcap⟩⟩)
  · exact hheld h
  · exact absurd (round.cooled r hr) (by omega)
  · rw [round.attempts, maxAttemptsPerVersion] at hcap
    omega

/-- A row that keeps nobody away is leased by `issue_ticket`. -/
theorem issueTicket_leases {h : RowHistory} {lease : Lease} {completionFirst : Bool}
    (hclosed : ∀ ticket ∈ h.row, ticket.status ≠ .issued ∧ ¬ ticket.AlreadyMine lease.now) :
    (h.step (.issue lease (.issueTicket completionFirst) true)).leases = h.leases + 1 := by
  have hadmits : ∀ ticket ∈ h.row.map (expireOverdue lease.now), ¬ ticket.AlreadyMine lease.now := by
    intro ticket hticket
    obtain ⟨old, hold, rfl⟩ := Option.map_eq_some_iff.mp hticket
    rw [expireOverdue, if_neg fun hoverdue => (hclosed old hold).1 hoverdue.1]
    exact (hclosed old hold).2
  simp only [RowHistory.step]
  rw [if_pos ⟨trivial, hadmits⟩]
  rfl

/-! ## The bound -/

/-- Over every sequence of operations on a row: no operation lowers the attempts; `issue_ticket` leases the row at most
twice more than operators granted, and at most one of these leases is a resume; a generator round changes none of the
retry columns; a row that only rounds used fills no place of the quorum once its lease is closed, and `issue_ticket`
leases it. -/
theorem attempts_bounded (ops : List RowOp) :
    (∀ op, attempts (rowHistory ops).row ≤ attempts (rowHistory (ops ++ [op])).row) ∧
    ((rowHistory ops).leases ≤ 2 + (rowHistory ops).granted ∧ (rowHistory ops).resumes ≤ 1 ∧
      (rowHistory ops).leases ≤ 1 + (rowHistory ops).granted + (rowHistory ops).resumes) ∧
    (∀ op : RowOp, op.OfRound (rowHistory ops).row →
      retryColumns (rowHistory (ops ++ [op])).row = retryColumns (rowHistory ops).row) ∧
    ((∀ op ∈ ops, op.LeavesToRounds) → (∀ ticket ∈ (rowHistory ops).row, ticket.status ≠ .issued) →
      ∀ now, (∀ op ∈ ops, ∀ stamp ∈ op.now?, stamp ≤ now) →
        (∀ ticket ∈ (rowHistory ops).row, ¬ ticket.Occupies ∧ ¬ ticket.AlreadyMine now) ∧
        ∀ (lease : Lease) (completionFirst : Bool), lease.now = now →
          (rowHistory (ops ++ [.issue lease (.issueTicket completionFirst) true])).leases =
            (rowHistory ops).leases + 1) := by
  obtain ⟨hrow, account⟩ := account_run ops
  have hbudget : (rowHistory ops).leases ≤ 1 + (rowHistory ops).granted + (rowHistory ops).resumes :=
    (Nat.le_add_right _ _).trans account.budget
  have honce := account.once
  refine ⟨fun op => ?_, ⟨by omega, honce, hbudget⟩, fun op hround => ?_, fun hops hclosed now hstamp => ?_⟩
  · rw [rowHistory_concat]
    exact attempts_le (step_effects hrow op)
  · rw [rowHistory_concat]
    exact round_keeps hrow hround
  · have hfree : ∀ ticket ∈ (rowHistory ops).row, ¬ ticket.Occupies ∧ ¬ ticket.AlreadyMine now :=
      fun ticket hticket => (roundRow_run hops hstamp ticket hticket).closed (hclosed ticket hticket)
    refine ⟨hfree, ?_⟩
    rintro lease completionFirst rfl
    rw [rowHistory_concat]
    exact issueTicket_leases fun ticket hticket => ⟨hclosed ticket hticket, (hfree ticket hticket).2⟩

end DittoSubnet.Platform

import DittoSubnet.Platform.Tickets

/-!
# One live lease for a slot and for an agent

The three lanes share one row for each agent, version and validator. Each holds the lock of its slot, checks that the
slot is free, and writes under the lock of the agent.

* `lease_overwritten`: outside completion-first mode `issue_ticket` checks the validator's own row on the snapshot of
  the candidate select only, and takes a lease that another slot was given in between.
* `live_leases_kept`: in every run without such a stale read, no commit touches a live lease of another slot, and a
  validator has at most one live lease on a slot and on an agent.
-/

namespace DittoSubnet.Platform

open Kit Kit.ReadCommitted

/-- A validator has at most one live lease on a slot and on an agent. -/
structure Exclusive (now : ℤ) (tickets : Tickets) : Prop where
  nodup : (Dict.keys tickets).Nodup
  slots : ∀ key ticket key' ticket', Dict.get? tickets key = some ticket → Dict.get? tickets key' = some ticket' →
    ticket.Live now → ticket'.Live now → key.validatorHotkey = key'.validatorHotkey →
    ticket.slotId = ticket'.slotId → key = key'
  agents : ∀ key ticket key' ticket', Dict.get? tickets key = some ticket → Dict.get? tickets key' = some ticket' →
    ticket.Live now → ticket'.Live now → key.validatorHotkey = key'.validatorHotkey → key.agentId = key'.agentId →
    key = key'

/-- The live leases of a validator that satisfy a condition are among some keys. -/
def LiveAmong (tickets : Tickets) (lease : Lease) (P : TicketKey → Ticket → Prop) (keys : List TicketKey) : Prop :=
  ∀ key ticket, Dict.get? tickets key = some ticket → ticket.Live lease.now →
    key.validatorHotkey = lease.validatorHotkey → P key ticket → key ∈ keys

/-- A live lease on the slot of a request. -/
def OnSlot (lease : Lease) (_ : TicketKey) (ticket : Ticket) : Prop := ticket.slotId = lease.slotId

/-- A live lease on an agent. -/
def OnAgent (agentId : String) (key : TicketKey) (_ : Ticket) : Prop := key.agentId = agentId

/-- A live lease on an agent at another version. -/
def OnOtherVersion (lease : Lease) (agentId : String) (key : TicketKey) (_ : Ticket) : Prop :=
  key.agentId = agentId ∧ key.benchVersion ≠ lease.benchVersion

/-- A live lease on an agent at the version of a request. -/
def OnVersion (lease : Lease) (agentId : String) (key : TicketKey) (_ : Ticket) : Prop :=
  key.agentId = agentId ∧ key.benchVersion = lease.benchVersion

variable {held held' : Lock → Prop} {tickets : Tickets} {tx tx' : Tx TicketKey Ticket Code} {choice : Choice}
  {lease : Lease} {lane : Lane} {now : ℤ}

/-- What a lane knows at its next statement. -/
def Checked (lease : Lease) (lane : Lane) (held : Lock → Prop) (view : Tickets) : Phase → Prop
  | .flushOverdue overdue => ∀ row ∈ overdue, row.2.status = .issued
  | .select .live => ∀ agentId ∈ lane.agentId?, held (.agent agentId)
  | .lockRow .incompatible found => LiveAmong view lease (OnSlot lease) found
  | .recheck .incompatible key found => LiveAmong view lease (OnSlot lease) (key :: found)
  | .lockRow .slotOccupied found => LiveAmong view lease (OnSlot lease) found
  | .recheck .slotOccupied key found => LiveAmong view lease (OnSlot lease) (key :: found)
  | .lockRow .live found => ∀ agentId ∈ lane.agentId?, held (.agent agentId) ∧
      LiveAmong view lease (OnSlot lease) found ∧ LiveAmong view lease (OnAgent agentId) found
  | .recheck .live key found => ∀ agentId ∈ lane.agentId?, held (.agent agentId) ∧
      LiveAmong view lease (OnSlot lease) (key :: found) ∧ LiveAmong view lease (OnAgent agentId) (key :: found)
  | .selectCandidate => LiveAmong view lease (OnSlot lease) []
  | .lockCandidate _ => LiveAmong view lease (OnSlot lease) []
  | .recount agentId => held (.agent agentId) ∧ LiveAmong view lease (OnSlot lease) []
  | .recheckMine agentId => held (.agent agentId) ∧ LiveAmong view lease (OnSlot lease) []
  | .lockAgent => (∃ agentId seed datasetSha256, lane = .issueConfirmationTicket agentId seed datasetSha256) →
      LiveAmong view lease (OnSlot lease) []
  | .liveForAgent agentId => held (.agent agentId) ∧ LiveAmong view lease (OnSlot lease) [] ∧
      (lane = .issueTicket true → LiveAmong view lease (OnVersion lease agentId) []) ∧
      ∀ named ∈ lane.agentId?, named = agentId
  | .otherTables => ∀ agentId ∈ lane.agentId?, held (.agent agentId) ∧ LiveAmong view lease (OnSlot lease) [] ∧
      LiveAmong view lease (OnAgent agentId) []
  | .fetch agentId => held (.agent agentId) ∧ LiveAmong view lease (OnSlot lease) [] ∧
      LiveAmong view lease (OnOtherVersion lease agentId) [] ∧
      (lane ≠ .issueTicket false → LiveAmong view lease (OnVersion lease agentId) [])
  | .write agentId loaded => held (.agent agentId) ∧ LiveAmong view lease (OnSlot lease) [] ∧
      LiveAmong view lease (OnAgent agentId) [] ∧
      (Dict.get? view (lease.key agentId)).map (·.slotId) = loaded.map (·.slotId)
  | _ => True

/-- An uncommitted row of a lane: the committed one is no live lease of another slot; it is itself no live lease, or
the only one on its slot and on its agent. -/
structure Written (lease : Lease) (held : Lock → Prop) (tickets : Tickets) (tx : Tx TicketKey Ticket Code)
    (key : TicketKey) (ticket : Ticket) : Prop where
  own : ∀ stored, Dict.get? tickets key = some stored → stored.Live lease.now →
    key.validatorHotkey = lease.validatorHotkey ∧ stored.slotId = lease.slotId
  live : (¬ ticket.Live lease.now ∧ ∃ stored, Dict.get? tickets key = some stored ∧ ticket.slotId = stored.slotId) ∨
    (tx.code.phase = .done ∧ held (.agent key.agentId) ∧ key.validatorHotkey = lease.validatorHotkey ∧
      ticket.slotId = lease.slotId ∧ LiveAmong (view tickets tx.writes) lease (OnSlot lease) [key] ∧
      LiveAmong (view tickets tx.writes) lease (OnAgent key.agentId) [key])

/-- What a running lane keeps. -/
structure Holding (lease : Lease) (lane : Lane) (held : Lock → Prop) (tickets : Tickets)
    (tx : Tx TicketKey Ticket Code) : Prop where
  slot : tx.code.phase = .lockValidatorSlot ∨ held (.slot lease.validatorHotkey lease.slotId)
  start : tx.code.phase = .lockValidatorSlot → tx.writes = []
  writes : ∀ key ticket, Dict.get? tx.writes key = some ticket → Written lease held tickets tx key ticket
  checked : Checked lease lane held (view tickets tx.writes) tx.code.phase

/-- The lanes of a common clock. -/
def Leased (now : ℤ) (held : Lock → Prop) (tickets : Tickets) (tx : Tx TicketKey Ticket Code) : Prop :=
  match tx.code.request with
  | .issue lease lane => lease.now = now ∧ Holding lease lane held tickets tx
  | .submitScore _ _ _ _ => False

/-! ## Commits of others -/

/-- A live row that a commit brings is under the locks of its slot and agent. -/
theorem Holding.brings (h : Holding lease lane held tickets tx) {key : TicketKey} {ticket : Ticket}
    (hkey : Dict.get? tx.writes key = some ticket) (hlive : ticket.Live lease.now) :
    held (.slot key.validatorHotkey ticket.slotId) ∧ held (.agent key.agentId) := by
  rcases (h.writes key ticket hkey).live with ⟨hdead, -⟩ | ⟨hdone, hagent, hvalidator, hslot, -⟩
  · exact absurd hlive hdead
  · rcases h.slot with hphase | hheld
    · rw [hdone] at hphase
      cases hphase
    · rw [hvalidator, hslot]
      exact ⟨hheld, hagent⟩

/-- A live row that a transaction sees after the commit of another was there before, or is under locks of the other. -/
theorem live_other (hguarded : Guarded Lock.ticket held tx) (hguarded' : Guarded Lock.ticket held' tx')
    (h' : Leased now held' tickets tx') {key : TicketKey} {ticket : Ticket}
    (hget : Dict.get? (view (view tickets tx'.writes) tx.writes) key = some ticket) (hlive : ticket.Live now) :
    Dict.get? (view tickets tx.writes) key = some ticket ∨
      (held' (.slot key.validatorHotkey ticket.slotId) ∧ held' (.agent key.agentId)) := by
  rw [get?_view hguarded.nodup] at hget
  rw [get?_view hguarded.nodup]
  cases hwrite : Dict.get? tx.writes key with
  | some own =>
    rw [hwrite] at hget
    exact .inl hget
  | none =>
    rw [hwrite, Option.none_or, get?_view hguarded'.nodup] at hget
    rw [Option.none_or]
    cases hwrite' : Dict.get? tx'.writes key with
    | none =>
      rw [hwrite', Option.none_or] at hget
      exact .inl hget
    | some other =>
      rw [hwrite', Option.some_or, Option.some.injEq] at hget
      subst hget
      unfold Leased at h'
      split at h'
      · obtain ⟨rfl, hholding⟩ := h'
        exact .inr (hholding.brings hwrite' hlive)
      · cases h'

/-- Live leases under a lock of the transaction are not added by others. -/
theorem LiveAmong.other {P : TicketKey → Ticket → Prop} {keys : List TicketKey}
    (hguarded : Guarded Lock.ticket held tx) (hguarded' : Guarded Lock.ticket held' tx')
    (h' : Leased lease.now held' tickets tx')
    (hlocked : ∀ key ticket, key.validatorHotkey = lease.validatorHotkey → P key ticket →
      ¬ (held' (.slot key.validatorHotkey ticket.slotId) ∧ held' (.agent key.agentId)))
    (h : LiveAmong (view tickets tx.writes) lease P keys) :
    LiveAmong (view (view tickets tx'.writes) tx.writes) lease P keys := by
  intro key ticket hget hlive hvalidator hP
  rcases live_other hguarded hguarded' h' hget hlive with hbefore | hbrought
  · exact h key ticket hbefore hlive hvalidator hP
  · exact absurd hbrought (hlocked key ticket hvalidator hP)

section Interference

variable (hdisjoint : ∀ l, held l → ¬ held' l) (hguarded : Guarded Lock.ticket held tx)
  (hguarded' : Guarded Lock.ticket held' tx') (h' : Leased lease.now held' tickets tx')
include hdisjoint hguarded hguarded' h'

theorem LiveAmong.slot_other {keys : List TicketKey} (hslot : held (.slot lease.validatorHotkey lease.slotId))
    (h : LiveAmong (view tickets tx.writes) lease (OnSlot lease) keys) :
    LiveAmong (view (view tickets tx'.writes) tx.writes) lease (OnSlot lease) keys := by
  apply h.other hguarded hguarded' h'
  intro key ticket hvalidator hP hbrought
  rw [hvalidator, show ticket.slotId = lease.slotId from hP] at hbrought
  exact hdisjoint _ hslot hbrought.1

theorem LiveAmong.agent_other {P : TicketKey → Ticket → Prop} {keys : List TicketKey} {agentId : String}
    (hagent : held (.agent agentId)) (hP : ∀ key ticket, P key ticket → key.agentId = agentId)
    (h : LiveAmong (view tickets tx.writes) lease P keys) :
    LiveAmong (view (view tickets tx'.writes) tx.writes) lease P keys := by
  apply h.other hguarded hguarded' h'
  intro key ticket _ hkey hbrought
  rw [hP key ticket hkey] at hbrought
  exact hdisjoint _ hagent hbrought.2

/-- Under the lock of an agent, others keep the slots of its rows. -/
theorem slotId_other {key : TicketKey} (hagent : held (.agent key.agentId)) :
    (Dict.get? (view (view tickets tx'.writes) tx.writes) key).map (·.slotId) =
      (Dict.get? (view tickets tx.writes) key).map (·.slotId) := by
  rw [get?_view hguarded.nodup, get?_view hguarded.nodup]
  cases hwrite : Dict.get? tx.writes key with
  | some own => rfl
  | none =>
    rw [Option.none_or, Option.none_or, get?_view hguarded'.nodup]
    cases hwrite' : Dict.get? tx'.writes key with
    | none => rfl
    | some other =>
      rw [Option.some_or]
      unfold Leased at h'
      split at h'
      · rcases (h'.2.writes key other hwrite').live with ⟨-, stored, hstored, hsame⟩ | ⟨-, hheld, -⟩
        · rw [hstored, Option.map_some, Option.map_some, hsame]
        · exact absurd hheld (hdisjoint _ hagent)
      · cases h'

/-- What a lane knows is not changed by the commits of others. -/
theorem Checked.interfere {phase : Phase} (hslot : held (.slot lease.validatorHotkey lease.slotId))
    (h : Checked lease lane held (view tickets tx.writes) phase) :
    Checked lease lane held (view (view tickets tx'.writes) tx.writes) phase := by
  have hon : ∀ {keys : List TicketKey}, LiveAmong (view tickets tx.writes) lease (OnSlot lease) keys →
      LiveAmong (view (view tickets tx'.writes) tx.writes) lease (OnSlot lease) keys :=
    fun hkeys => hkeys.slot_other hdisjoint hguarded hguarded' h' hslot
  have hagent : ∀ {keys : List TicketKey} {agentId : String}, held (.agent agentId) →
      LiveAmong (view tickets tx.writes) lease (OnAgent agentId) keys →
      LiveAmong (view (view tickets tx'.writes) tx.writes) lease (OnAgent agentId) keys :=
    fun hheld hkeys => hkeys.agent_other hdisjoint hguarded hguarded' h' hheld fun _ _ hkey => hkey
  have hversion : ∀ {keys : List TicketKey} {agentId : String}, held (.agent agentId) →
      LiveAmong (view tickets tx.writes) lease (OnVersion lease agentId) keys →
      LiveAmong (view (view tickets tx'.writes) tx.writes) lease (OnVersion lease agentId) keys :=
    fun hheld hkeys => hkeys.agent_other hdisjoint hguarded hguarded' h' hheld fun _ _ hkey => hkey.1
  have hother : ∀ {keys : List TicketKey} {agentId : String}, held (.agent agentId) →
      LiveAmong (view tickets tx.writes) lease (OnOtherVersion lease agentId) keys →
      LiveAmong (view (view tickets tx'.writes) tx.writes) lease (OnOtherVersion lease agentId) keys :=
    fun hheld hkeys => hkeys.agent_other hdisjoint hguarded hguarded' h' hheld fun _ _ hkey => hkey.1
  cases phase with
  | flushOverdue overdue => exact h
  | select probe =>
    cases probe with
    | live => exact h
    | _ => trivial
  | lockRow probe found =>
    cases probe with
    | incompatible => exact hon h
    | slotOccupied => exact hon h
    | live =>
      intro agentId hnamed
      obtain ⟨hheld, hslots, hagents⟩ := h agentId hnamed
      exact ⟨hheld, hon hslots, hagent hheld hagents⟩
    | _ => trivial
  | recheck probe key found =>
    cases probe with
    | incompatible => exact hon h
    | slotOccupied => exact hon h
    | live =>
      intro agentId hnamed
      obtain ⟨hheld, hslots, hagents⟩ := h agentId hnamed
      exact ⟨hheld, hon hslots, hagent hheld hagents⟩
    | _ => trivial
  | selectCandidate => exact hon h
  | lockCandidate offered => exact hon h
  | recount agentId => exact ⟨h.1, hon h.2⟩
  | recheckMine agentId => exact ⟨h.1, hon h.2⟩
  | lockAgent =>
    intro hlane
    exact hon (h hlane)
  | liveForAgent agentId => exact ⟨h.1, hon h.2.1, fun hmode => hversion h.1 (h.2.2.1 hmode), h.2.2.2⟩
  | otherTables =>
    intro agentId hnamed
    obtain ⟨hheld, hslots, hagents⟩ := h agentId hnamed
    exact ⟨hheld, hon hslots, hagent hheld hagents⟩
  | fetch agentId => exact ⟨h.1, hon h.2.1, hother h.1 h.2.2.1, fun hmode => hversion h.1 (h.2.2.2 hmode)⟩
  | write agentId loaded =>
    obtain ⟨hheld, hslots, hagents, hloaded⟩ := h
    refine ⟨hheld, hon hslots, hagent hheld hagents, ?_⟩
    rw [← hloaded]
    exact @slotId_other held held' tickets tx tx' lease hdisjoint hguarded hguarded' h' (lease.key agentId) hheld
  | _ => trivial

/-- The commit of another lane keeps the facts of a lane. -/
theorem Holding.interfere (h : Holding lease lane held tickets tx) :
    Holding lease lane held (view tickets tx'.writes) tx := by
  refine ⟨h.slot, h.start, ?_, ?_⟩
  · intro key ticket hkey
    obtain ⟨hown, hlive⟩ := h.writes key ticket hkey
    have hlocked : held (.ticket key) := hguarded.locked key (Dict.mem_keys_iff.2 ⟨ticket, hkey⟩)
    have hsame : Dict.get? (view tickets tx'.writes) key = Dict.get? tickets key := by
      apply get?_view_of_not_mem hguarded'.nodup
      intro hmem
      exact hdisjoint _ hlocked (hguarded'.locked key hmem)
    refine ⟨?_, ?_⟩
    · rw [hsame]
      exact hown
    · rcases hlive with hdead | ⟨hdone, hagent, hvalidator, hslotId, hslots, hagents⟩
      · rw [hsame]
        exact .inl hdead
      · have hslot : held (.slot lease.validatorHotkey lease.slotId) := by
          rcases h.slot with hphase | hheld
          · rw [hdone] at hphase
            cases hphase
          · exact hheld
        exact .inr ⟨hdone, hagent, hvalidator, hslotId, hslots.slot_other hdisjoint hguarded hguarded' h' hslot,
          hagents.agent_other hdisjoint hguarded hguarded' h' hagent fun _ _ hkey => hkey⟩
  · rcases h.slot with hphase | hslot
    · rw [hphase]
      trivial
    · exact h.checked.interfere hdisjoint hguarded hguarded' h' hslot

end Interference

/-! ## Own steps -/

/-- A statement that only reads or locks. -/
theorem Holding.goTo (h : Holding lease lane held tickets tx) {phase : Phase}
    (hphase : tx.code.phase ≠ .done ∧ phase ≠ .lockValidatorSlot)
    (hslot : held' (.slot lease.validatorHotkey lease.slotId))
    (hchecked : Checked lease lane held' (view tickets tx.writes) phase) :
    Holding lease lane held' tickets ⟨tx.code.goTo phase, tx.writes⟩ := by
  refine ⟨.inr hslot, fun heq => absurd heq hphase.2, ?_, hchecked⟩
  intro key ticket hkey
  obtain ⟨hown, hlive⟩ := h.writes key ticket hkey
  exact ⟨hown, .inl (hlive.resolve_right fun hdone => hphase.1 hdone.1)⟩

/-- Before its end a lane sees as live what is committed as live. -/
theorem Holding.committed (h : Holding lease lane held tickets tx) (hphase : tx.code.phase ≠ .done)
    (hguarded : Guarded Lock.ticket held tx) {key : TicketKey} {ticket : Ticket}
    (hget : Dict.get? (view tickets tx.writes) key = some ticket) (hlive : ticket.Live lease.now) :
    Dict.get? tickets key = some ticket := by
  rw [get?_view hguarded.nodup] at hget
  cases hwrite : Dict.get? tx.writes key with
  | none =>
    rw [hwrite, Option.none_or] at hget
    exact hget
  | some own =>
    rw [hwrite, Option.some_or, Option.some.injEq] at hget
    subst hget
    rcases (h.writes key own hwrite).live with ⟨hdead, -⟩ | ⟨hdone, -⟩
    · exact absurd hlive hdead
    · exact absurd hdone hphase

/-- The committed row behind a row of the view has its slot. -/
theorem Holding.stored_slot (h : Holding lease lane held tickets tx) (hphase : tx.code.phase ≠ .done)
    (hguarded : Guarded Lock.ticket held tx) {key : TicketKey} {ticket : Ticket}
    (hget : Dict.get? (view tickets tx.writes) key = some ticket) :
    ∃ stored, Dict.get? tickets key = some stored ∧ ticket.slotId = stored.slotId := by
  rw [get?_view hguarded.nodup] at hget
  cases hwrite : Dict.get? tx.writes key with
  | none =>
    rw [hwrite, Option.none_or] at hget
    exact ⟨ticket, hget, rfl⟩
  | some own =>
    rw [hwrite, Option.some_or, Option.some.injEq] at hget
    subst hget
    rcases (h.writes key own hwrite).live with ⟨-, hstored⟩ | ⟨hdone, -⟩
    · exact hstored
    · exact absurd hdone hphase

/-- An update that ends a lease: of the slot itself, or a row that is no live lease. -/
theorem Holding.release (h : Holding lease lane held tickets tx)
    (hphase : tx.code.phase ≠ .done ∧ tx.code.phase ≠ .lockValidatorSlot)
    (hguarded : Guarded Lock.ticket held tx) {key : TicketKey} {loaded new ticket : Ticket}
    (hloaded : loaded.status = .issued) (hnew : new.status = .expired ∧ new.slotId = loaded.slotId)
    (hget : Dict.get? (view tickets tx.writes) key = some ticket)
    (hown : ticket.Live lease.now → key.validatorHotkey = lease.validatorHotkey ∧ ticket.slotId = lease.slotId)
    {code : Code} (hcode : code.phase ≠ .lockValidatorSlot)
    (hchecked : Checked lease lane (fun l => l = .ticket key ∨ held l)
      (view tickets (Dict.set tx.writes key (loaded.flush new ticket))) code.phase) :
    Holding lease lane (fun l => l = .ticket key ∨ held l) tickets
      ⟨code, Dict.set tx.writes key (loaded.flush new ticket)⟩ := by
  have hstatus : (loaded.flush new ticket).status = .expired := by simp [Ticket.flush, column, hloaded, hnew.1]
  have hslotId : (loaded.flush new ticket).slotId = ticket.slotId := by simp [Ticket.flush, column, hnew.2]
  refine ⟨.inr (.inr (h.slot.resolve_left hphase.2)), fun heq => absurd heq hcode, ?_, hchecked⟩
  intro key' written hkey
  rw [Dict.get?_set] at hkey
  split at hkey
  · rename_i heq
    rw [Option.some.injEq] at hkey
    subst heq hkey
    refine ⟨?_, .inl ⟨?_, ?_⟩⟩
    · intro stored hstored hlive
      -- a live committed row is the one of the view, unless the lane has written it already
      by_cases hmem : key ∈ Dict.keys tx.writes
      · obtain ⟨own, hwrite⟩ := Dict.mem_keys_iff.1 hmem
        exact (h.writes key own hwrite).own stored hstored hlive
      · rw [get?_view_of_not_mem hguarded.nodup hmem, hstored, Option.some.injEq] at hget
        subst hget
        exact hown hlive
    · rintro ⟨hissued, -⟩
      rw [hstatus] at hissued
      cases hissued
    · rw [hslotId]
      exact h.stored_slot hphase.1 hguarded hget
  · obtain ⟨hkeep, hlive⟩ := h.writes key' written hkey
    exact ⟨hkeep, .inl (hlive.resolve_right fun hdone => hphase.1 hdone.1)⟩

/-- A row leased on a free slot and a free agent. -/
theorem Holding.issue (h : Holding lease lane held tickets tx)
    (hphase : tx.code.phase ≠ .done ∧ tx.code.phase ≠ .lockValidatorSlot)
    (hguarded : Guarded Lock.ticket held tx) {agentId : String} {ticket : Ticket} (hagent : held (.agent agentId))
    (hslots : LiveAmong (view tickets tx.writes) lease (OnSlot lease) [])
    (hagents : LiveAmong (view tickets tx.writes) lease (OnAgent agentId) []) (hslotId : ticket.slotId = lease.slotId) :
    Holding lease lane (fun l => l = .ticket (lease.key agentId) ∨ held l) tickets
      ⟨tx.code.goTo .done, Dict.set tx.writes (lease.key agentId) ticket⟩ := by
  have hafter : ∀ {P : TicketKey → Ticket → Prop}, LiveAmong (view tickets tx.writes) lease P [] →
      LiveAmong (view tickets (Dict.set tx.writes (lease.key agentId) ticket)) lease P [lease.key agentId] := by
    intro P hfree key' ticket' hget hlive hvalidator hP
    rw [get?_view_set hguarded.nodup] at hget
    split at hget
    · rename_i heq
      rw [← heq]
      exact List.mem_singleton_self _
    · exact absurd (hfree key' ticket' hget hlive hvalidator hP) List.not_mem_nil
  refine ⟨.inr (.inr (h.slot.resolve_left hphase.2)), fun heq => (by cases heq), ?_, trivial⟩
  intro key written hkey
  rw [Dict.get?_set] at hkey
  split at hkey
  · rename_i heq
    rw [Option.some.injEq] at hkey
    subst heq hkey
    refine ⟨?_, .inr ⟨rfl, .inr hagent, rfl, hslotId, hafter hslots, hafter hagents⟩⟩
    intro stored hstored hlive
    by_cases hmem : lease.key agentId ∈ Dict.keys tx.writes
    · obtain ⟨own, hwrite⟩ := Dict.mem_keys_iff.1 hmem
      exact (h.writes _ own hwrite).own stored hstored hlive
    · rw [← get?_view_of_not_mem hguarded.nodup hmem] at hstored
      exact absurd (hagents _ stored hstored hlive rfl rfl) List.not_mem_nil
  · obtain ⟨hkeep, hlive⟩ := h.writes key written hkey
    exact ⟨hkeep, .inl (hlive.resolve_right fun hdone => hphase.1 hdone.1)⟩

/-- What a lane commits has one live lease for a slot and for an agent. -/
theorem Holding.commit (h : Holding lease lane held tickets tx) (hexclusive : Exclusive lease.now tickets)
    (hguarded : Guarded Lock.ticket held tx) : Exclusive lease.now (view tickets tx.writes) := by
  -- a live row of the view is committed, or the one that this lane has issued
  have hrow : ∀ key ticket, Dict.get? (view tickets tx.writes) key = some ticket → ticket.Live lease.now →
      Dict.get? tickets key = some ticket ∨ (key.validatorHotkey = lease.validatorHotkey ∧
        ticket.slotId = lease.slotId ∧ LiveAmong (view tickets tx.writes) lease (OnSlot lease) [key] ∧
        LiveAmong (view tickets tx.writes) lease (OnAgent key.agentId) [key]) := by
    intro key ticket hget hlive
    rw [get?_view hguarded.nodup] at hget
    cases hwrite : Dict.get? tx.writes key with
    | none =>
      rw [hwrite, Option.none_or] at hget
      exact .inl hget
    | some own =>
      rw [hwrite, Option.some_or, Option.some.injEq] at hget
      subst hget
      rcases (h.writes key own hwrite).live with ⟨hdead, -⟩ | ⟨-, -, hissued⟩
      · exact absurd hlive hdead
      · exact .inr hissued
  refine ⟨keys_view_nodup hexclusive.nodup _, ?_, ?_⟩
  · intro key ticket key' ticket' hget hget' hlive hlive' hvalidator hslotId
    rcases hrow key ticket hget hlive with hstored | ⟨hv, hs, hslots, -⟩
    · rcases hrow key' ticket' hget' hlive' with hstored' | ⟨hv', hs', hslots', -⟩
      · exact hexclusive.slots key ticket key' ticket' hstored hstored' hlive hlive' hvalidator hslotId
      · exact List.mem_singleton.1 (hslots' key ticket hget hlive (hvalidator.trans hv') (hslotId.trans hs'))
    · exact (List.mem_singleton.1
        (hslots key' ticket' hget' hlive' (hvalidator.symm.trans hv) (hslotId.symm.trans hs))).symm
  · intro key ticket key' ticket' hget hget' hlive hlive' hvalidator hagentId
    rcases hrow key ticket hget hlive with hstored | ⟨hv, -, -, hagents⟩
    · rcases hrow key' ticket' hget' hlive' with hstored' | ⟨hv', -, -, hagents'⟩
      · exact hexclusive.agents key ticket key' ticket' hstored hstored' hlive hlive' hvalidator hagentId
      · exact List.mem_singleton.1 (hagents' key ticket hget hlive (hvalidator.trans hv') hagentId)
    · exact (List.mem_singleton.1 (hagents key' ticket' hget' hlive' (hvalidator.symm.trans hv) hagentId.symm)).symm

theorem newTicket_slotId (lease : Lease) (lane : Lane) : (lane.newTicket lease).slotId = lease.slotId := by
  cases lane <;> rfl

theorem restamp_slotId (lease : Lease) (lane : Lane) (ticket : Ticket) :
    (lane.restamp lease ticket).slotId = lease.slotId := by
  cases lane with
  | issueTicket completionFirst =>
    simp only [Lane.restamp, Lease.reissue]
    split <;> rfl
  | issueConfirmationTicket agentId seed datasetSha256 =>
    simp only [Lane.restamp, Lease.confirm]
    split <;> rfl
  | issueGeneratorRoundTicket agentId seed datasetSha256 => rfl

/-- The matches of a probe on the slot are all its live leases. -/
theorem liveAmong_select {view : Tickets} {P : TicketKey → Ticket → Prop} {probe : Probe} {agentId : Option String}
    (hP : ∀ key ticket, P key ticket → probe.Selects lease agentId key ticket) :
    LiveAmong view lease P (Dict.keys (view.filter fun row => probe.Matches lease agentId row.1 row.2)) := by
  intro key ticket hget hlive hvalidator hkey
  refine List.mem_map.2 ⟨(key, ticket), ?_, rfl⟩
  rw [List.mem_filter, decide_eq_true_eq]
  exact ⟨Dict.mem_of_get? hget, hvalidator, hlive, hP key ticket hkey⟩

/-- A key whose row no longer matches is no live lease. -/
theorem LiveAmong.drop {view : Tickets} {P : TicketKey → Ticket → Prop} {probe : Probe} {agentId : Option String}
    {key : TicketKey} {keys : List TicketKey} (h : LiveAmong view lease P (key :: keys))
    (hkey : ∀ ticket, Dict.get? view key = some ticket → ¬ probe.Matches lease agentId key ticket)
    (hP : ∀ key ticket, P key ticket → probe.Selects lease agentId key ticket) : LiveAmong view lease P keys := by
  intro key' ticket hget hlive hvalidator hp
  rcases List.mem_cons.1 (h key' ticket hget hlive hvalidator hp) with rfl | hmem
  · exact absurd ⟨hvalidator, hlive, hP _ ticket hp⟩ (hkey ticket hget)
  · exact hmem

/-- Live leases on an agent are at the version of a request or at another. -/
theorem LiveAmong.on_agent {view : Tickets} {agentId : String}
    (hother : LiveAmong view lease (OnOtherVersion lease agentId) [])
    (hversion : LiveAmong view lease (OnVersion lease agentId) []) : LiveAmong view lease (OnAgent agentId) [] := by
  intro key ticket hget hlive hvalidator hkey
  by_cases hv : key.benchVersion = lease.benchVersion
  · exact hversion key ticket hget hlive hvalidator ⟨hkey, hv⟩
  · exact hother key ticket hget hlive hvalidator ⟨hkey, hv⟩

/-- A row of its own version that is no live lease. -/
theorem liveAmong_version {view : Tickets} {agentId : String}
    (h : ∀ ticket, Dict.get? view (lease.key agentId) = some ticket → ¬ ticket.Live lease.now) :
    LiveAmong view lease (OnVersion lease agentId) [] := by
  intro key ticket hget hlive hvalidator hkey
  have heq : key = lease.key agentId := by
    cases key
    simp only [OnVersion] at hkey hvalidator
    rw [Lease.key, ← hkey.1, ← hkey.2, ← hvalidator]
  rw [heq] at hget
  exact absurd hlive (h ticket hget)

theorem Holding.leased (h : Holding lease lane held tickets tx) (hrequest : tx.code.request = .issue lease lane) :
    Leased lease.now held tickets tx := by
  simp only [Leased, hrequest]
  exact ⟨trivial, h⟩

section Statements

variable (hrequest : tx.code.request = .issue lease lane) (hexclusive : Exclusive lease.now tickets)
  (hguarded : Guarded Lock.ticket held tx) (h : Holding lease lane held tickets tx)

include hrequest h

/-- The facts after a statement that only reads. -/
theorem Holding.reads {phase : Phase}
    (hphase : (tx.code.phase ≠ .done ∧ phase ≠ .lockValidatorSlot) ∧ tx.code.phase ≠ .lockValidatorSlot)
    (hchecked : Checked lease lane held (view tickets tx.writes) phase) :
    Leased lease.now held tickets ⟨tx.code.goTo phase, tx.writes⟩ :=
  (h.goTo hphase.1 (h.slot.resolve_left hphase.2) hchecked).leased hrequest

/-- The facts after a statement that takes a lock. -/
theorem Holding.locks {phase : Phase} {l : Lock}
    (hphase : (tx.code.phase ≠ .done ∧ phase ≠ .lockValidatorSlot) ∧ tx.code.phase ≠ .lockValidatorSlot)
    (hchecked : Checked lease lane (fun l' => l' = l ∨ held l') (view tickets tx.writes) phase) :
    Leased lease.now (fun l' => l' = l ∨ held l') tickets ⟨tx.code.goTo phase, tx.writes⟩ :=
  (h.goTo hphase.1 (.inr (h.slot.resolve_left hphase.2)) hchecked).leased hrequest

/-- The sweep updates a row that is no live lease. -/
theorem Holding.flushOverdue (hguarded : Guarded Lock.ticket held tx) {overdue : List (TicketKey × Ticket)}
    (hphase : tx.code.phase = .flushOverdue overdue)
    (hfresh : Fresh Ticket.Live (view tickets tx.writes) tx.code choice) :
    Keeps Lock.ticket (Exclusive lease.now) (Leased lease.now) held tickets tx
      (lanes lease lane (view tickets tx.writes) tx.code choice) := by
  have hchecked := h.checked
  rw [hphase] at hchecked
  cases overdue with
  | nil =>
    simp only [lanes, hphase, Keeps]
    exact h.reads hrequest (by simp [hphase]) trivial
  | cons row overdue =>
    obtain ⟨key, loaded⟩ := row
    simp only [lanes, hphase, Keeps]
    intro ticket hget
    have hdead : ¬ ticket.Live lease.now := by
      intro hlive
      refine (hfresh lease ?_).1 key ?_ ticket hget hlive
      · rw [hrequest]
        rfl
      · rw [hphase]
        rfl
    have hnew : (sweepTicket loaded).status = .expired ∧ (sweepTicket loaded).slotId = loaded.slotId := ⟨rfl, rfl⟩
    refine Holding.leased (h.release (by simp [hphase]) hguarded (hchecked _ List.mem_cons_self) hnew hget
      (fun hlive => absurd hlive hdead) ?_ ?_) hrequest
    · simp
    · intro row hrow
      exact hchecked row (List.mem_cons_of_mem _ hrow)

/-- A probe reads the live leases that it looks for. -/
theorem Holding.select {probe : Probe} (hphase : tx.code.phase = .select probe) :
    Keeps Lock.ticket (Exclusive lease.now) (Leased lease.now) held tickets tx
      (lanes lease lane (view tickets tx.writes) tx.code choice) := by
  have hchecked := h.checked
  rw [hphase] at hchecked
  simp only [lanes, hphase, Keeps]
  cases probe with
  | incompatible => exact h.reads hrequest (by simp [hphase]) (liveAmong_select fun _ _ hslot => hslot)
  | slotOccupied => exact h.reads hrequest (by simp [hphase]) (liveAmong_select fun _ _ hslot => hslot)
  | live =>
    refine h.reads hrequest (by simp [hphase]) ?_
    intro agentId hnamed
    refine ⟨hchecked agentId hnamed, liveAmong_select fun _ _ hslot => .inl hslot,
      liveAmong_select fun key _ hagent => .inr ?_⟩
    rw [show lane.agentId? = some agentId from hnamed, show key.agentId = agentId from hagent]
  | existing => exact h.reads hrequest (by simp [hphase]) trivial
  | retest => exact h.reads hrequest (by simp [hphase]) trivial

/-- It locks what it has read, row by row. -/
theorem Holding.lockRow {probe : Probe} {found : List TicketKey} (hphase : tx.code.phase = .lockRow probe found) :
    Keeps Lock.ticket (Exclusive lease.now) (Leased lease.now) held tickets tx
      (lanes lease lane (view tickets tx.writes) tx.code choice) := by
  have hchecked := h.checked
  rw [hphase] at hchecked
  cases found with
  | nil =>
    simp only [lanes, hphase, Keeps]
    cases probe with
    | incompatible => exact h.reads hrequest (by simp [hphase, Probe.onNone]) hchecked
    | slotOccupied => exact h.reads hrequest (by simp [hphase, Probe.onNone]) fun _ => hchecked
    | live => exact h.reads hrequest (by simp [hphase, Probe.onNone]) hchecked
    | existing => exact h.reads hrequest (by simp [hphase, Probe.onNone]) trivial
    | retest => exact h.reads hrequest (by simp [hphase, Probe.onNone]) trivial
  | cons key found =>
    simp only [lanes, hphase, Keeps]
    refine h.locks hrequest (by simp [hphase]) ?_
    cases probe with
    | incompatible => exact hchecked
    | slotOccupied => exact hchecked
    | live =>
      intro agentId hnamed
      obtain ⟨hheld, hslots, hagents⟩ := hchecked agentId hnamed
      exact ⟨.inr hheld, hslots, hagents⟩
    | existing => trivial
    | retest => trivial

/-- A row that is no longer what the probe looks for is left out. -/
theorem Holding.recheck_gone {probe : Probe} {key : TicketKey} {found : List TicketKey}
    (hphase : tx.code.phase = .recheck probe key found)
    (hgone : ∀ ticket, Dict.get? (view tickets tx.writes) key = some ticket →
      ¬ probe.Matches lease lane.agentId? key ticket) :
    Leased lease.now held tickets ⟨tx.code.goTo (.lockRow probe found), tx.writes⟩ := by
  have hchecked := h.checked
  rw [hphase] at hchecked
  cases probe with
  | incompatible =>
    exact h.reads hrequest (by simp [hphase]) (LiveAmong.drop hchecked hgone fun _ _ hslot => hslot)
  | slotOccupied =>
    exact h.reads hrequest (by simp [hphase]) (LiveAmong.drop hchecked hgone fun _ _ hslot => hslot)
  | live =>
    refine h.reads hrequest (by simp [hphase]) ?_
    intro agentId hnamed
    obtain ⟨hheld, hslots, hagents⟩ := hchecked agentId hnamed
    refine ⟨hheld, hslots.drop hgone fun _ _ hslot => .inl hslot, hagents.drop hgone fun key _ hagent => .inr ?_⟩
    rw [show lane.agentId? = some agentId from hnamed, show key.agentId = agentId from hagent]
  | existing => exact h.reads hrequest (by simp [hphase]) trivial
  | retest => exact h.reads hrequest (by simp [hphase]) trivial

include hexclusive hguarded

omit hrequest in
/-- When the live lease of a slot is released, the slot is free. -/
theorem Holding.released_slot (hphase : tx.code.phase ≠ .done) {key : TicketKey} {ticket : Ticket}
    (hget : Dict.get? (view tickets tx.writes) key = some ticket)
    (hmatches : Probe.incompatible.Matches lease lane.agentId? key ticket) :
    LiveAmong (view tickets (Dict.set tx.writes key (ticket.flush (forceExpire ticket lease.now) ticket))) lease
      (OnSlot lease) [] := by
  obtain ⟨hvalidator, hlive, hslot⟩ := hmatches
  -- any other live lease on the slot would be a second one
  intro key' ticket' hget' hlive' hvalidator' hslot'
  rw [get?_view_set hguarded.nodup] at hget'
  split at hget'
  · rw [Option.some.injEq] at hget'
    subst hget'
    have hissued := hlive'.1
    simp [Ticket.flush, column, forceExpire, hlive.1] at hissued
  · rename_i hne
    have hstored := h.committed hphase hguarded hget hlive
    have hstored' := h.committed hphase hguarded hget' hlive'
    have hsame : ticket.slotId = ticket'.slotId := (show ticket.slotId = lease.slotId from hslot).trans hslot'.symm
    exact absurd (hexclusive.slots key ticket key' ticket' hstored hstored' hlive hlive'
      (hvalidator.trans hvalidator'.symm) hsame) hne

/-- A locked row is checked again; an idle lease on the slot is released. -/
theorem Holding.recheck {probe : Probe} {key : TicketKey} {found : List TicketKey}
    (hphase : tx.code.phase = .recheck probe key found) :
    Keeps Lock.ticket (Exclusive lease.now) (Leased lease.now) held tickets tx
      (lanes lease lane (view tickets tx.writes) tx.code choice) := by
  simp only [lanes, hphase]
  split
  · rename_i ticket hget
    split
    · rename_i hmatches
      cases probe with
      | incompatible =>
        simp only [onFound]
        split
        · intro stored hstored
          rw [hget, Option.some.injEq] at hstored
          subst hstored
          have hnew : (forceExpire ticket lease.now).status = .expired ∧
              (forceExpire ticket lease.now).slotId = ticket.slotId := ⟨rfl, rfl⟩
          have hfree := h.released_slot hexclusive hguarded (by simp [hphase]) hget hmatches
          refine Holding.leased (h.release (by simp [hphase]) hguarded hmatches.2.1.1 hnew hget
            (fun _ => ⟨hmatches.1, hmatches.2.2⟩) ?_ hfree) hrequest
          simp [Code.goTo]
        · exact h.reads hrequest (by simp [hphase]) trivial
      | _ => exact h.reads hrequest (by simp [hphase]) trivial
    · rename_i hnot
      apply h.recheck_gone hrequest hphase
      intro stored hstored
      rw [hget, Option.some.injEq] at hstored
      subst hstored
      exact hnot
  · rename_i hnone
    apply h.recheck_gone hrequest hphase
    intro stored hstored
    rw [hnone] at hstored
    cases hstored

omit hexclusive hguarded

/-- `issue_ticket` counts the places of the quorum under the lock of the agent. -/
theorem Holding.recount {agentId : String} (hphase : tx.code.phase = .recount agentId) :
    Keeps Lock.ticket (Exclusive lease.now) (Leased lease.now) held tickets tx
      (lanes lease lane (view tickets tx.writes) tx.code choice) := by
  have hchecked := h.checked
  rw [hphase] at hchecked
  simp only [lanes, hphase]
  split
  · split
    · exact h.reads hrequest (by simp [hphase]) hchecked
    · refine h.reads hrequest (by simp [hphase]) ⟨hchecked.1, hchecked.2, ?_, ?_⟩
      · intro hmode
        cases hmode
      · intro named hnamed
        cases hnamed
    · trivial
  · exact h.reads hrequest (by simp [hphase]) hchecked.2

/-- In completion-first mode it looks at the validator's own row again. -/
theorem Holding.recheckMine {agentId : String} (hphase : tx.code.phase = .recheckMine agentId) :
    Keeps Lock.ticket (Exclusive lease.now) (Leased lease.now) held tickets tx
      (lanes lease lane (view tickets tx.writes) tx.code choice) := by
  have hchecked := h.checked
  rw [hphase] at hchecked
  simp only [lanes, hphase]
  split
  · simp only [Keeps]
    split
    · exact h.reads hrequest (by simp [hphase]) hchecked.2
    · rename_i hmine
      refine h.reads hrequest (by simp [hphase]) ⟨hchecked.1, hchecked.2, fun _ => liveAmong_version ?_, ?_⟩
      · intro ticket hget hlive
        exact hmine ⟨ticket, hget, .inl (.inl hlive.1)⟩
      · intro named hnamed
        cases hnamed
  · trivial

/-- The other lanes take the lock of the agent that they name. -/
theorem Holding.lockAgent (hphase : tx.code.phase = .lockAgent) :
    Keeps Lock.ticket (Exclusive lease.now) (Leased lease.now) held tickets tx
      (lanes lease lane (view tickets tx.writes) tx.code choice) := by
  have hchecked := h.checked
  rw [hphase] at hchecked
  simp only [lanes, hphase]
  split
  · rename_i agentId hnamed
    cases lane with
    | issueTicket completionFirst => cases hnamed
    | issueConfirmationTicket named seed datasetSha256 =>
      cases hnamed
      refine h.locks hrequest (by simp [hphase, Lane.afterAgent]) ⟨.inl rfl, hchecked ⟨_, _, _, rfl⟩, ?_, ?_⟩
      · intro hmode
        cases hmode
      · intro named' hnamed'
        exact (Option.some.inj hnamed').symm
    | issueGeneratorRoundTicket named seed datasetSha256 =>
      cases hnamed
      refine h.locks hrequest (by simp [hphase, Lane.afterAgent]) ?_
      intro named' hnamed'
      cases hnamed'
      exact .inl rfl
  · trivial

/-- A lane goes on when the validator has no live lease on the agent; `issue_ticket` asks about other versions. -/
theorem Holding.liveForAgent {agentId : String} (hphase : tx.code.phase = .liveForAgent agentId) :
    Keeps Lock.ticket (Exclusive lease.now) (Leased lease.now) held tickets tx
      (lanes lease lane (view tickets tx.writes) tx.code choice) := by
  have hchecked := h.checked
  rw [hphase] at hchecked
  obtain ⟨hagent, hslots, hversion, hnamed⟩ := hchecked
  simp only [lanes, hphase, Keeps]
  split
  · rename_i completionFirst
    split
    · exact h.reads hrequest (by simp [hphase]) hslots
    · rename_i hnone
      refine h.reads hrequest (by simp [hphase]) ⟨hagent, hslots, ?_, ?_⟩
      · intro key ticket hget hlive hvalidator hkey
        exact absurd ⟨(key, ticket), Dict.mem_of_get? hget, hkey.1, hvalidator, hlive, fun _ => hkey.2⟩ hnone
      · intro hmode
        cases completionFirst with
        | true => exact hversion rfl
        | false => exact absurd rfl hmode
  · rename_i hlane
    split
    · exact h.reads hrequest (by simp [hphase]) trivial
    · rename_i hnone
      refine h.reads hrequest (by simp [hphase]) ?_
      intro named hn
      obtain rfl := hnamed named hn
      refine ⟨hagent, hslots, ?_⟩
      intro key ticket hget hlive hvalidator hkey
      refine absurd ⟨(key, ticket), Dict.mem_of_get? hget, hkey, hvalidator, hlive, ?_⟩ hnone
      intro hnot
      rw [show lane.agentId? = some named from hn] at hnot
      cases hnot

/-- The checks of a named agent on other tables. -/
theorem Holding.otherTables (hphase : tx.code.phase = .otherTables) :
    Keeps Lock.ticket (Exclusive lease.now) (Leased lease.now) held tickets tx
      (lanes lease lane (view tickets tx.writes) tx.code choice) := by
  have hchecked := h.checked
  rw [hphase] at hchecked
  simp only [lanes, hphase]
  split
  · rename_i agentId hnamed
    obtain ⟨hagent, hslots, hagents⟩ := hchecked agentId hnamed
    simp only [Keeps]
    split
    · refine h.reads hrequest (by simp [hphase]) ⟨hagent, hslots, ?_, fun _ => ?_⟩
      · intro key ticket hget hlive hvalidator hkey
        exact hagents key ticket hget hlive hvalidator hkey.1
      · intro key ticket hget hlive hvalidator hkey
        exact hagents key ticket hget hlive hvalidator hkey.1
    · exact h.reads hrequest (by simp [hphase]) trivial
  · trivial

/-- A lane fetches the row that it writes over, and no lease on the agent is live. -/
theorem Holding.fetch {agentId : String} (hphase : tx.code.phase = .fetch agentId)
    (hfresh : Fresh Ticket.Live (view tickets tx.writes) tx.code choice) :
    Keeps Lock.ticket (Exclusive lease.now) (Leased lease.now) held tickets tx
      (lanes lease lane (view tickets tx.writes) tx.code choice) := by
  have hchecked := h.checked
  rw [hphase] at hchecked
  obtain ⟨hagent, hslots, hother, hversion⟩ := hchecked
  simp only [lanes, hphase]
  split
  · rename_i completionFirst
    refine h.reads hrequest (by simp [hphase]) ⟨hagent, hslots, hother.on_agent ?_, rfl⟩
    cases completionFirst with
    | true => exact hversion (by simp)
    | false =>
      apply liveAmong_version
      intro ticket hget hlive
      refine (hfresh lease ?_).2 agentId ?_ ticket hget hlive
      · rw [hrequest]
        rfl
      · rw [Code.unchecked?, hrequest, hphase]
        rfl
  · rename_i hlane
    simp only [Keeps]
    split
    · exact h.reads hrequest (by simp [hphase]) trivial
    · exact h.reads hrequest (by simp [hphase]) ⟨hagent, hslots, hother.on_agent (hversion (hlane false)), rfl⟩

/-- A lane writes its lease on a free slot and a free agent. -/
theorem Holding.writeLease (hguarded : Guarded Lock.ticket held tx) {agentId : String} {loaded : Option Ticket}
    (hphase : tx.code.phase = .write agentId loaded) :
    Keeps Lock.ticket (Exclusive lease.now) (Leased lease.now) held tickets tx
      (lanes lease lane (view tickets tx.writes) tx.code choice) := by
  have hchecked := h.checked
  rw [hphase] at hchecked
  obtain ⟨hagent, hslots, hagents, hloaded⟩ := hchecked
  cases loaded with
  | none =>
    simp only [lanes, hphase, Keeps]
    intro _
    exact Holding.leased
      (h.issue (by simp [hphase]) hguarded hagent hslots hagents (newTicket_slotId lease lane)) hrequest
  | some loaded =>
    simp only [lanes, hphase, Keeps]
    intro ticket hticket
    refine Holding.leased (h.issue (by simp [hphase]) hguarded hagent hslots hagents ?_) hrequest
    rw [hticket, Option.map_some, Option.map_some, Option.some.injEq] at hloaded
    simp only [Ticket.flush, column, restamp_slotId]
    split
    · rename_i heq
      rw [hloaded, ← heq]
    · rfl

include hexclusive hguarded

/-- Each statement of a lane keeps its facts. -/
theorem leased_own (hfresh : Fresh Ticket.Live (view tickets tx.writes) tx.code choice) :
    Keeps Lock.ticket (Exclusive lease.now) (Leased lease.now) held tickets tx
      (lanes lease lane (view tickets tx.writes) tx.code choice) := by
  have hchecked := h.checked
  cases hphase : tx.code.phase with
  | lockValidatorSlot =>
    simp only [lanes, hphase, Keeps]
    exact Holding.leased (h.goTo (by simp [hphase]) (.inl rfl) trivial) hrequest
  | selectOverdue =>
    simp only [lanes, hphase, Keeps]
    apply h.reads hrequest (by simp [hphase])
    intro row hrow
    rw [List.mem_filter, decide_eq_true_eq] at hrow
    exact hrow.2.1
  | flushOverdue overdue => exact h.flushOverdue hrequest hguarded hphase hfresh
  | gate =>
    simp only [lanes, hphase, Keeps]
    split
    · cases lane with
      | issueTicket completionFirst => exact h.reads hrequest (by simp [hphase, Lane.afterGate]) trivial
      | issueConfirmationTicket agentId seed datasetSha256 =>
        exact h.reads hrequest (by simp [hphase, Lane.afterGate]) trivial
      | issueGeneratorRoundTicket agentId seed datasetSha256 =>
        refine h.reads hrequest (by simp [hphase, Lane.afterGate]) ?_
        rintro ⟨agentId', seed', datasetSha256', hlane⟩
        cases hlane
    · exact h.reads hrequest (by simp [hphase]) trivial
  | select probe => exact h.select hrequest hphase
  | lockRow probe found => exact h.lockRow hrequest hphase
  | recheck probe key found => exact h.recheck hrequest hexclusive hguarded hphase
  | selectCandidate =>
    rw [hphase] at hchecked
    simp only [lanes, hphase, Keeps]
    exact h.reads hrequest (by simp [hphase]) hchecked
  | lockCandidate offered =>
    rw [hphase] at hchecked
    cases offered with
    | nil =>
      simp only [lanes, hphase, Keeps]
      split
      · exact h.reads hrequest (by simp [hphase]) hchecked
      · exact h.reads hrequest (by simp [hphase]) trivial
    | cons agentId offered =>
      simp only [lanes, hphase]
      split
      · exact h.locks hrequest (by simp [hphase]) ⟨.inl rfl, hchecked⟩
      · exact h.reads hrequest (by simp [hphase]) hchecked
  | recount agentId => exact h.recount hrequest hphase
  | recheckMine agentId => exact h.recheckMine hrequest hphase
  | lockAgent => exact h.lockAgent hrequest hphase
  | liveForAgent agentId => exact h.liveForAgent hrequest hphase
  | otherTables => exact h.otherTables hrequest hphase
  | fetch agentId => exact h.fetch hrequest hphase hfresh
  | write agentId loaded => exact h.writeLease hrequest hguarded hphase
  | done =>
    simp only [lanes, hphase, Keeps]
    exact h.commit hexclusive hguarded
  | _ => simp [lanes, hphase, Keeps]

end Statements

theorem Checked.mono {view : Tickets} {phase : Phase} (hheld : ∀ l, held l → held' l)
    (h : Checked lease lane held view phase) : Checked lease lane held' view phase := by
  cases phase with
  | flushOverdue overdue => exact h
  | select probe =>
    cases probe with
    | live => exact fun agentId hnamed => hheld _ (h agentId hnamed)
    | _ => trivial
  | lockRow probe found =>
    cases probe with
    | incompatible => exact h
    | slotOccupied => exact h
    | live => exact fun agentId hnamed => ⟨hheld _ (h agentId hnamed).1, (h agentId hnamed).2⟩
    | _ => trivial
  | recheck probe key found =>
    cases probe with
    | incompatible => exact h
    | slotOccupied => exact h
    | live => exact fun agentId hnamed => ⟨hheld _ (h agentId hnamed).1, (h agentId hnamed).2⟩
    | _ => trivial
  | selectCandidate => exact h
  | lockCandidate offered => exact h
  | recount agentId => exact ⟨hheld _ h.1, h.2⟩
  | recheckMine agentId => exact ⟨hheld _ h.1, h.2⟩
  | lockAgent => exact h
  | liveForAgent agentId => exact ⟨hheld _ h.1, h.2⟩
  | otherTables => exact fun agentId hnamed => ⟨hheld _ (h agentId hnamed).1, (h agentId hnamed).2⟩
  | fetch agentId => exact ⟨hheld _ h.1, h.2⟩
  | write agentId loaded => exact ⟨hheld _ h.1, h.2⟩
  | _ => trivial

theorem Holding.mono (hheld : ∀ l, held l → held' l) (h : Holding lease lane held tickets tx) :
    Holding lease lane held' tickets tx := by
  refine ⟨h.slot.imp_right (hheld _), h.start, ?_, h.checked.mono hheld⟩
  intro key ticket hkey
  obtain ⟨hown, hlive⟩ := h.writes key ticket hkey
  exact ⟨hown, hlive.imp_right fun ⟨hdone, hagent, hrest⟩ => ⟨hdone, hheld _ hagent, hrest⟩⟩

/-- A lease request at its first statement, on the common clock. -/
def CommonClock (now : ℤ) (code : Code) : Prop :=
  code = code.request.begin ∧ ∃ lease ∈ code.request.lease?, lease.now = now

instance (now : ℤ) : DecidablePred (CommonClock now) := fun _ => inferInstanceAs (Decidable (_ ∧ _))

theorem leased_rules (now : ℤ) :
    Rules Lock.ticket program (CommonClock now) (Fresh Ticket.Live) (Exclusive now) (Leased now) := by
  refine ⟨?_, ?_, ?_, ?_⟩
  · rintro tickets ⟨request, phase, swept⟩ ⟨hbegin, lease, hlease, hnow⟩
    cases request with
    | issue lease' lane =>
      cases hlease
      obtain rfl : phase = .lockValidatorSlot := congrArg Code.phase hbegin
      refine ⟨hnow, .inl rfl, fun _ => rfl, ?_, trivial⟩
      intro key ticket hkey
      cases hkey
    | submitScore key now ticketDeadline runId => cases hlease
  · intro held held' tickets tx hheld h
    unfold Leased at h ⊢
    split at h
    · exact ⟨h.1, h.2.mono hheld⟩
    · cases h
  · intro held tickets tx choice hexclusive hguarded h hfresh
    cases hrequest : tx.code.request with
    | issue lease lane =>
      simp only [Leased, hrequest] at h
      obtain ⟨rfl, hholding⟩ := h
      simp only [program, hrequest]
      exact leased_own hrequest hexclusive hguarded hholding hfresh
    | submitScore key now ticketDeadline runId =>
      simp only [Leased, hrequest] at h
  · intro held held' tickets tx tx' choice hdisjoint _ hguarded h hguarded' h' _ _
    unfold Leased at h ⊢
    split at h
    · obtain ⟨rfl, hholding⟩ := h
      exact ⟨rfl, hholding.interfere hdisjoint hguarded hguarded' h'⟩
    · cases h

/-! ## Runs -/

/-- In every run of the three lanes on a common clock in which no update of a sweep and no row that `issue_ticket`
leases again finds a live lease: no step of a request changes a live lease of another slot or validator, and a
validator has at most one live lease on a slot and on an agent. -/
theorem live_leases_kept {T : Type} [DecidableEq T] (now : ℤ) (initial : Tickets) (hinitial : Exclusive now initial)
    (actions : List (Action T Code Choice))
    (hfresh : AllowedRun Lock.ticket program (CommonClock now) (Fresh Ticket.Live) (start initial) actions) :
    Exclusive now (platform initial actions).rows ∧
      ∀ t tx lease lane choice, (platform initial actions).running t = some tx → tx.code.request = .issue lease lane →
        ∀ key stored, Dict.get? (platform initial actions).rows key = some stored → stored.Live now →
          (key.validatorHotkey, stored.slotId) ≠ (lease.validatorHotkey, lease.slotId) →
          Dict.get? (act Lock.ticket program (platform initial actions) (.next t choice)).rows key = some stored := by
  have hinv : Inv Lock.ticket (Exclusive now) (Leased now) (platform initial actions) :=
    inv_run Lock.ticket program (leased_rules now) actions (Inv.start Lock.ticket hinitial) hfresh
  refine ⟨hinv.rows_good, ?_⟩
  intro t tx lease lane choice hrun hrequest key stored hstored hlive hother
  rcases act_rows Lock.ticket program (platform initial actions) (.next t choice) with
    hsame | ⟨t', tx', choice', heq, hrun', -, hrows⟩
  · rw [hsame]
    exact hstored
  · obtain ⟨rfl, rfl⟩ := Action.next.inj heq
    rw [hrun, Option.some.injEq] at hrun'
    subst hrun'
    have hguarded := hinv.guarded t tx hrun
    have hleased := hinv.good t tx hrun
    simp only [Leased, hrequest] at hleased
    obtain ⟨hnow, hholding⟩ := hleased
    rw [hrows]
    by_cases hmem : key ∈ Dict.keys tx.writes
    · obtain ⟨ticket, hkey⟩ := Dict.mem_keys_iff.1 hmem
      obtain ⟨hvalidator, hslot⟩ := (hholding.writes key ticket hkey).own stored hstored (hnow ▸ hlive)
      rw [hvalidator, hslot] at hother
      exact absurd rfl hother
    · rw [get?_view_of_not_mem hguarded.nodup hmem]
      exact hstored

/-! ## A lease taken over -/

/-- The steps of a request that is offered the agent, up to the lock of the agent. -/
def leaseSteps (t : Bool) (slotId : String) : List (Action Bool Code Choice) :=
  .begin t (Request.issue ⟨"alice", slotId, 40, 60, 13⟩ (.issueTicket false)).begin ::
    List.replicate 9 (.next t ⟨true, ["agent"]⟩)

/-- The steps from the lock of the agent to the commit. -/
def takeSteps (t : Bool) : List (Action Bool Code Choice) := List.replicate 6 (.next t ⟨true, ["agent"]⟩)

theorem exclusive_nil (now : ℤ) : Exclusive now [] := by
  refine ⟨List.nodup_nil, ?_, ?_⟩
  · intro key ticket key' ticket' hget
    cases hget
  · intro key ticket key' ticket' hget
    cases hget

/-- The steps of a request of the other slot, which is offered another agent. -/
def secondSteps (n : Nat) : List (Action Bool Code Choice) :=
  .begin false (Request.issue ⟨"alice", "slot-1", 40, 60, 13⟩ (.issueTicket false)).begin ::
    List.replicate n (.next false ⟨true, ["other"]⟩)

/-- One slot leases the agent and the other slot a second one: when the second request commits, the first lease is
what it was. -/
theorem live_leases_kept_first :
    (∃ stored, Dict.get? (platform [] (leaseSteps true "slot-0" ++ takeSteps true ++ secondSteps 14)).rows
        ⟨"agent", 13, "alice"⟩ = some stored ∧ stored.Live 40 ∧ stored.slotId = "slot-0" ∧
      Dict.get? (platform [] (leaseSteps true "slot-0" ++ takeSteps true ++ secondSteps 15)).rows
        ⟨"agent", 13, "alice"⟩ = some stored) ∧
    (∃ ticket ∈ Dict.get? (platform [] (leaseSteps true "slot-0" ++ takeSteps true ++ secondSteps 15)).rows
      ⟨"other", 13, "alice"⟩, ticket.Live 40 ∧ ticket.slotId = "slot-1") ∧
    Exclusive 40 (platform [] (leaseSteps true "slot-0" ++ takeSteps true ++ secondSteps 15)).rows := by
  have hsecond : ∃ tx, (platform [] (leaseSteps true "slot-0" ++ takeSteps true ++ secondSteps 14)).running false =
      some tx ∧ tx.code.request = .issue ⟨"alice", "slot-1", 40, 60, 13⟩ (.issueTicket false) := by
    have hrequest : Option.map (fun tx : Tx TicketKey Ticket Code => tx.code.request)
        ((platform [] (leaseSteps true "slot-0" ++ takeSteps true ++ secondSteps 14)).running false) =
          some (Request.issue ⟨"alice", "slot-1", 40, 60, 13⟩ (.issueTicket false)) := by decide
    exact Option.map_eq_some_iff.1 hrequest
  have hfirst : ∃ stored ∈ Dict.get? (platform [] (leaseSteps true "slot-0" ++ takeSteps true ++ secondSteps 14)).rows
      ⟨"agent", 13, "alice"⟩, stored.Live 40 ∧ stored.slotId = "slot-0" := by
    decide
  obtain ⟨tx, hrun, hrequest⟩ := hsecond
  obtain ⟨stored, hstored, hlive, hslot⟩ := hfirst
  have hkept := (live_leases_kept 40 [] (exclusive_nil 40)
    (leaseSteps true "slot-0" ++ takeSteps true ++ secondSteps 14) (by decide)).2
  refine ⟨⟨stored, hstored, hlive, hslot, ?_⟩, by decide, ?_⟩
  · exact hkept false tx _ _ ⟨true, ["other"]⟩ hrun hrequest _ stored hstored hlive (by rw [hslot]; decide)
  · exact (live_leases_kept 40 [] (exclusive_nil 40)
      (leaseSteps true "slot-0" ++ takeSteps true ++ secondSteps 15) (by decide)).1

/-- Two slots of a validator are offered the agent; the second one leases it after the commit of the first. -/
def takeoverSteps : List (Action Bool Code Choice) :=
  leaseSteps true "slot-1" ++ leaseSteps false "slot-0" ++ takeSteps false

/-- The agent is a live lease of the first slot, and the last step of the second request makes it its own. -/
theorem lease_overwritten :
    Exclusive 40 [] ∧
    (∃ ticket ∈ Dict.get? (platform [] takeoverSteps).rows ⟨"agent", 13, "alice"⟩,
      ticket.Live 40 ∧ ticket.slotId = "slot-0" ∧ ticket.attemptCount = 1) ∧
    (∃ ticket ∈ Dict.get? (platform [] (takeoverSteps ++ takeSteps true)).rows ⟨"agent", 13, "alice"⟩,
      ticket.Live 40 ∧ ticket.slotId = "slot-1" ∧ ticket.attemptCount = 2) := by
  refine ⟨exclusive_nil 40, ?_, ?_⟩
  · decide
  · decide

end DittoSubnet.Platform

import DittoSubnet.Platform.Tickets

/-!
# The deadline sweep

Lease requests of the three lanes and score submissions run at the same time, each with its own clock. The sweep of a
request selects the overdue rows without a lock and updates them by primary key later.

* `sweep_undoes_score`: a score accepted between the two loses its ticket.
* `sweep_keeps_decisions`: when no update of a sweep, and no row leased again, finds a newer decision (`Undisturbed`),
  an accepted score keeps its ticket, the sweep expires no lease before its deadline, and accepted scores and live
  leases stay within the quorum.
-/

namespace DittoSubnet.Platform

open Kit Kit.ReadCommitted

/-! ## Counting places -/

/-- A row that stands for a canonical decision: an accepted score, or a lease that may still bring one. -/
def Ticket.Canonical (ticket : Ticket) : Prop :=
  ticket.score.isSome = true ∨
    ticket.status = .issued ∧ (ticket.purpose = .legacyUnclassified ∨ ticket.purpose = .canonicalQuorum)

instance (ticket : Ticket) : Decidable ticket.Canonical := inferInstanceAs (Decidable (_ ∨ _))

/-- The canonical decisions on an agent. -/
def decisions (tickets : Tickets) (agentId : String) (benchVersion : ℕ) : ℕ :=
  (tickets.filter fun row => row.1.agentId = agentId ∧ row.1.benchVersion = benchVersion ∧ row.2.Canonical).length

/-- Rows of one table whose keys are some keys or keys of rows of another. -/
theorem length_filter_le {d d' : Tickets} (hd : (Dict.keys d).Nodup) {p q : TicketKey × Ticket → Bool}
    (extra : List TicketKey)
    (h : ∀ key ticket, Dict.get? d key = some ticket → p (key, ticket) = true →
      key ∈ extra ∨ ∃ ticket', Dict.get? d' key = some ticket' ∧ q (key, ticket') = true) :
    (d.filter p).length ≤ extra.length + (d'.filter q).length := by
  have hnodup : ((d.filter p).map Prod.fst).Nodup := hd.sublist (List.filter_sublist.map Prod.fst)
  have hsubset : (d.filter p).map Prod.fst ⊆ extra ++ (d'.filter q).map Prod.fst := by
    intro key hkey
    obtain ⟨row, hrow, rfl⟩ := List.mem_map.1 hkey
    obtain ⟨hmem, hp⟩ := List.mem_filter.1 hrow
    rcases h row.1 row.2 (Dict.get?_of_mem hd hmem) hp with hextra | ⟨ticket', hget, hq⟩
    · exact List.mem_append_left _ hextra
    · exact List.mem_append_right _ (List.mem_map.2
        ⟨(row.1, ticket'), List.mem_filter.2 ⟨Dict.mem_of_get? hget, hq⟩, rfl⟩)
  have hlength := (hnodup.subperm hsubset).length_le
  rw [List.length_append, List.length_map, List.length_map] at hlength
  exact hlength

/-- Decisions of one table that are decisions of the other, up to some keys. -/
theorem decisions_le {d d' : Tickets} (hd : (Dict.keys d).Nodup) {agentId : String} {benchVersion : ℕ}
    (extra : List TicketKey)
    (h : ∀ key ticket, Dict.get? d key = some ticket → key.agentId = agentId → key.benchVersion = benchVersion →
      ticket.Canonical → key ∈ extra ∨ ∃ ticket', Dict.get? d' key = some ticket' ∧ ticket'.Canonical) :
    decisions d agentId benchVersion ≤ extra.length + decisions d' agentId benchVersion := by
  apply length_filter_le hd extra
  intro key ticket hget hp
  rw [decide_eq_true_eq] at hp
  obtain ⟨hagent, hversion, hcanonical⟩ := hp
  rcases h key ticket hget hagent hversion hcanonical with hextra | ⟨ticket', hget', hcanonical'⟩
  · exact .inl hextra
  · exact .inr ⟨ticket', hget', decide_eq_true ⟨hagent, hversion, hcanonical'⟩⟩

theorem occupies_of_issued {ticket : Ticket} (hissued : ticket.status = .issued)
    (hpurpose : ticket.purpose = .legacyUnclassified ∨ ticket.purpose = .canonicalQuorum) : ticket.Occupies := by
  rcases hpurpose with hpurpose | hpurpose
  · simp [Ticket.Occupies, Ticket.Held, Ticket.ScoringRetry, Ticket.GeneratorRoundFree, hissued, hpurpose]
  · simp [Ticket.Occupies, Ticket.Held, Ticket.ScoringRetry, Ticket.GeneratorRoundFree, hissued, hpurpose]

/-! ## What the rows and the transactions keep -/

/-- Accepted scores keep their tickets, and the quorum is not exceeded. -/
structure Sound (tickets : Tickets) : Prop where
  nodup : (Dict.keys tickets).Nodup
  scored : ∀ key ticket, Dict.get? tickets key = some ticket → ticket.score.isSome = true →
    ticket.status = .scored ∧ ticket.purpose = .canonicalQuorum
  quorum : ∀ agentId benchVersion, decisions tickets agentId benchVersion ≤ scoringQuorum

/-- An uncommitted row that gives up its place, and keeps what the committed row is for. -/
structure Released (tickets : Tickets) (key : TicketKey) (ticket : Ticket) : Prop where
  status : ticket.status = .expired
  score : ticket.score = none
  purpose : ∃ stored, Dict.get? tickets key = some stored ∧ stored.purpose = ticket.purpose

theorem Released.not_canonical {tickets : Tickets} {key : TicketKey} {ticket : Ticket}
    (h : Released tickets key ticket) : ¬ ticket.Canonical := by
  simp [Ticket.Canonical, h.status, h.score]

variable {held held' : Lock → Prop} {tickets : Tickets} {tx tx' : Tx TicketKey Ticket Code} {choice : Choice}

/-- No score was accepted for a key. -/
def Unscored (tickets : Tickets) (key : TicketKey) : Prop :=
  ∀ ticket, Dict.get? tickets key = some ticket → ticket.status ≠ .scored

/-- What a lane has found out about the agent it leases, under the agent's lock. -/
def Lane.Checked (lease : Lease) (view : Tickets) (agentId : String) : Lane → Prop
  | .issueTicket completionFirst => decisions view agentId lease.benchVersion < scoringQuorum ∧
      (completionFirst = true → Unscored view (lease.key agentId))
  | lane => lane.agentId? = some agentId

/-- What it knows of the row that it writes over: the canonical lane that it is not scored, the others what the stored
row is for. -/
def Lane.Loaded (lease : Lease) (view : Tickets) (agentId : String) (loaded : Option Ticket) : Lane → Prop
  | .issueTicket _ => decisions view agentId lease.benchVersion < scoringQuorum ∧ Unscored view (lease.key agentId)
  | _ => ∀ row ∈ loaded, ∀ ticket, Dict.get? view (lease.key agentId) = some ticket → ticket.purpose = row.purpose

/-- What a lease request knows at its next statement. -/
def Known (lease : Lease) (lane : Lane) (held : Lock → Prop) (view : Tickets) : Phase → Prop
  | .flushOverdue overdue => ∀ row ∈ overdue, row.2.status = .issued
  | .recount agentId => held (.agent agentId)
  | .recheckMine agentId => held (.agent agentId) ∧ decisions view agentId lease.benchVersion < scoringQuorum
  | .select .live => ∀ agentId ∈ lane.agentId?, held (.agent agentId)
  | .lockRow .live _ => ∀ agentId ∈ lane.agentId?, held (.agent agentId)
  | .recheck .live _ _ => ∀ agentId ∈ lane.agentId?, held (.agent agentId)
  | .otherTables => ∀ agentId ∈ lane.agentId?, held (.agent agentId)
  | .liveForAgent agentId => held (.agent agentId) ∧ lane.Checked lease view agentId
  | .fetch agentId => held (.agent agentId) ∧ lane.Checked lease view agentId
  | .write agentId loaded => held (.agent agentId) ∧ lane.Loaded lease view agentId loaded
  | _ => True

/-- The statements up to the end of the sweep. -/
def Phase.isSweep : Phase → Bool
  | .lockValidatorSlot => true
  | .selectOverdue => true
  | .flushOverdue _ => true
  | _ => false

/-- A lease request: it has released overdue rows, and at its end may have issued one more lease within the quorum. -/
structure Leasing (lease : Lease) (lane : Lane) (held : Lock → Prop) (tickets : Tickets)
    (tx : Tx TicketKey Ticket Code) : Prop where
  writes : ∀ key ticket, Dict.get? tx.writes key = some ticket → Released tickets key ticket ∨
    (tx.code.phase = .done ∧ held (.agent key.agentId) ∧ ticket.score = none ∧
      decisions (view tickets tx.writes) key.agentId key.benchVersion ≤ scoringQuorum)
  swept : ∀ key ∈ tx.code.swept, held (.ticket key) ∧
    ∃ stored, Dict.get? tickets key = some stored ∧ ¬ stored.Decided lease.now ∧ stored.score = none
  sweeping : tx.code.phase.isSweep = true → ∀ key ∈ Dict.keys tx.writes, key ∈ tx.code.swept
  known : Known lease lane held (view tickets tx.writes) tx.code.phase

/-- A score submission at its next statement. -/
def Submitting (key : TicketKey) (runId : String) (held : Lock → Prop) (tickets : Tickets)
    (tx : Tx TicketKey Ticket Code) : Prop :=
  match tx.code.phase with
  | .lockTicket => tx.writes = [] ∧ held (.agent key.agentId)
  | .getOpenTicket => tx.writes = [] ∧ held (.agent key.agentId) ∧ held (.ticket key)
  | .upsertScore loaded => tx.writes = [] ∧ held (.agent key.agentId) ∧ held (.ticket key) ∧
      Dict.get? tickets key = some loaded ∧ loaded.status = .issued ∧
      (loaded.purpose = .legacyUnclassified ∨ loaded.purpose = .canonicalQuorum)
  | .markTicketScored loaded => tx.writes = [(key, { loaded with score := some runId })] ∧
      held (.agent key.agentId) ∧ held (.ticket key) ∧ Dict.get? tickets key = some loaded ∧
      loaded.status = .issued ∧ (loaded.purpose = .legacyUnclassified ∨ loaded.purpose = .canonicalQuorum)
  | .done => ∃ loaded ticket, tx.writes = [(key, ticket)] ∧ held (.agent key.agentId) ∧ held (.ticket key) ∧
      Dict.get? tickets key = some loaded ∧ loaded.Canonical ∧ ticket.status = .scored ∧
      ticket.purpose = .canonicalQuorum
  | _ => tx.writes = []

/-- What a running transaction keeps. -/
def Deciding (held : Lock → Prop) (tickets : Tickets) (tx : Tx TicketKey Ticket Code) : Prop :=
  match tx.code.request with
  | .issue lease lane => Leasing lease lane held tickets tx
  | .submitScore key _ _ runId => Submitting key runId held tickets tx

/-- The first statement of a request. -/
def Code.Begins (code : Code) : Prop := code = code.request.begin

instance : DecidablePred Code.Begins := fun _ => inferInstanceAs (Decidable (_ = _))

/-- The row that a retest or a generator round is written over. -/
def Code.repurposed? (code : Code) : Option TicketKey :=
  match code.request, code.phase with
  | .issue _ (.issueTicket _), _ => none
  | .issue lease _, .write agentId (some _) => some (lease.key agentId)
  | _, _ => none

/-- No statement relies on a read that a newer decision has made old, and no retest and no generator round takes the row
of an accepted score. -/
def Undisturbed (tickets : Tickets) (code : Code) (choice : Choice) : Prop :=
  Fresh Ticket.Decided tickets code choice ∧
    ∀ key ∈ code.repurposed?, ∀ ticket ∈ Dict.get? tickets key, ticket.score = none

instance (tickets : Tickets) (code : Code) (choice : Choice) : Decidable (Undisturbed tickets code choice) :=
  inferInstanceAs (Decidable (_ ∧ _))

/-! ## Commits of others -/

/-- What a commit writes: released rows, and rows of agents whose lock it holds. -/
theorem Deciding.writes (h : Deciding held tickets tx) {key : TicketKey} {ticket : Ticket}
    (hkey : Dict.get? tx.writes key = some ticket) : Released tickets key ticket ∨ held (.agent key.agentId) := by
  obtain ⟨⟨request, phase, swept⟩, writes⟩ := tx
  cases request with
  | issue lease lane =>
    rcases Leasing.writes h key ticket hkey with hreleased | ⟨-, hheld, -⟩
    · exact .inl hreleased
    · exact .inr hheld
  | submitScore key' now ticketDeadline runId =>
    have hone : ∀ stored : Ticket, Dict.get? [(key', stored)] key = some ticket → key' = key := by
      intro stored hget
      by_contra hne
      simp [Dict.get?, hne] at hget
    simp only [Deciding, Submitting] at h
    split at h
    all_goals simp only at hkey
    · rw [h.1] at hkey
      cases hkey
    · rw [h.1] at hkey
      cases hkey
    · rw [h.1] at hkey
      cases hkey
    · rw [h.1] at hkey
      rw [← hone _ hkey]
      exact .inr h.2.1
    · obtain ⟨loaded, stored, hwrites, hheld, -⟩ := h
      rw [hwrites] at hkey
      rw [← hone _ hkey]
      exact .inr hheld
    · rw [h] at hkey
      cases hkey

/-- A locked row is not written by others. -/
theorem get?_other (hdisjoint : ∀ l, held l → ¬ held' l) (hguarded' : Guarded Lock.ticket held' tx')
    {key : TicketKey} (hkey : held (.ticket key)) :
    Dict.get? (view tickets tx'.writes) key = Dict.get? tickets key := by
  apply get?_view_of_not_mem hguarded'.nodup
  intro hmem
  exact hdisjoint _ hkey (hguarded'.locked key hmem)

/-- Under the lock of an agent, others only release its rows. -/
theorem get?_agent (hdisjoint : ∀ l, held l → ¬ held' l) (hguarded' : Guarded Lock.ticket held' tx')
    (h' : Deciding held' tickets tx') {key : TicketKey} (hagent : held (.agent key.agentId)) :
    Dict.get? (view tickets tx'.writes) key = Dict.get? tickets key ∨
      ∃ ticket, Dict.get? (view tickets tx'.writes) key = some ticket ∧ Released tickets key ticket := by
  cases hwrite : Dict.get? tx'.writes key with
  | none => exact .inl (get?_view_of_not_mem hguarded'.nodup (Dict.get?_eq_none_iff.1 hwrite))
  | some ticket =>
    rcases h'.writes hwrite with hreleased | hheld
    · exact .inr ⟨ticket, get?_view_of_write hguarded'.nodup hwrite, hreleased⟩
    · exact absurd hheld (hdisjoint _ hagent)

/-- Under the lock of an agent, the commits of others take no place of its quorum. -/
theorem decisions_other (hdisjoint : ∀ l, held l → ¬ held' l) (hsound : Sound tickets)
    (hguarded : Guarded Lock.ticket held tx) (hguarded' : Guarded Lock.ticket held' tx')
    (h' : Deciding held' tickets tx') {agentId : String} (hagent : held (.agent agentId)) (benchVersion : ℕ) :
    decisions (view (view tickets tx'.writes) tx.writes) agentId benchVersion ≤
      decisions (view tickets tx.writes) agentId benchVersion := by
  have hnodup := keys_view_nodup (keys_view_nodup hsound.nodup tx'.writes) tx.writes
  rw [← Nat.zero_add (decisions (view tickets tx.writes) agentId benchVersion)]
  apply decisions_le hnodup []
  intro key ticket hget hkey _ hcanonical
  refine .inr ⟨ticket, ?_, hcanonical⟩
  rw [get?_view hguarded.nodup] at hget ⊢
  cases hwrite : Dict.get? tx.writes key with
  | some own =>
    rw [hwrite] at hget
    exact hget
  | none =>
    rw [hwrite, Option.none_or] at hget
    rw [Option.none_or]
    subst hkey
    rcases get?_agent hdisjoint hguarded' h' hagent with heq | ⟨released, heq, hreleased⟩
    · rw [← heq]
      exact hget
    · rw [hget, Option.some.injEq] at heq
      subst heq
      exact absurd hcanonical hreleased.not_canonical

/-- Under the lock of an agent, others accept no score for it. -/
theorem Unscored.other (hdisjoint : ∀ l, held l → ¬ held' l) (hguarded : Guarded Lock.ticket held tx)
    (hguarded' : Guarded Lock.ticket held' tx') (h' : Deciding held' tickets tx') {key : TicketKey}
    (hagent : held (.agent key.agentId)) (h : Unscored (view tickets tx.writes) key) :
    Unscored (view (view tickets tx'.writes) tx.writes) key := by
  intro ticket hget
  have hown := h ticket
  rw [get?_view hguarded.nodup] at hget hown
  cases hwrite : Dict.get? tx.writes key with
  | some own =>
    rw [hwrite] at hget hown
    exact hown hget
  | none =>
    rw [hwrite, Option.none_or] at hget hown
    rcases get?_agent hdisjoint hguarded' h' hagent with heq | ⟨released, heq, hreleased⟩
    · rw [heq] at hget
      exact hown hget
    · rw [hget, Option.some.injEq] at heq
      subst heq
      rw [hreleased.status]
      exact fun hscored => by cases hscored

/-- Under the lock of an agent, others do not change what its rows are for. -/
theorem purpose_other (hdisjoint : ∀ l, held l → ¬ held' l) (hguarded : Guarded Lock.ticket held tx)
    (hguarded' : Guarded Lock.ticket held' tx') (h' : Deciding held' tickets tx') {key : TicketKey}
    (hagent : held (.agent key.agentId)) {purpose : TicketPurpose}
    (h : ∀ ticket, Dict.get? (view tickets tx.writes) key = some ticket → ticket.purpose = purpose) :
    ∀ ticket, Dict.get? (view (view tickets tx'.writes) tx.writes) key = some ticket → ticket.purpose = purpose := by
  intro ticket hget
  simp only [get?_view hguarded.nodup] at h hget
  cases hwrite : Dict.get? tx.writes key with
  | some own =>
    rw [hwrite] at h hget
    exact h ticket hget
  | none =>
    rw [hwrite, Option.none_or] at hget
    simp only [hwrite, Option.none_or] at h
    rcases get?_agent hdisjoint hguarded' h' hagent with heq | ⟨released, heq, hreleased⟩
    · rw [heq] at hget
      exact h ticket hget
    · rw [hget, Option.some.injEq] at heq
      subst heq
      obtain ⟨stored, hstored, hpurpose⟩ := hreleased.purpose
      rw [← hpurpose]
      exact h stored hstored

theorem unscored_of_not_alreadyMine {lease : Lease} {agentId : String} (h : ¬ alreadyMine tickets lease agentId) :
    Unscored tickets (lease.key agentId) := by
  intro ticket hget hscored
  exact h ⟨ticket, hget, .inl (.inr hscored)⟩

/-- More locks take no knowledge away. -/
theorem Known.mono {lease : Lease} {lane : Lane} {phase : Phase} (hheld : ∀ l, held l → held' l)
    (h : Known lease lane held tickets phase) : Known lease lane held' tickets phase := by
  cases phase with
  | flushOverdue overdue => exact h
  | recount agentId => exact hheld _ h
  | otherTables => exact fun agentId hagent => hheld _ (h agentId hagent)
  | select probe =>
    cases probe with
    | live => exact fun agentId hagent => hheld _ (h agentId hagent)
    | _ => trivial
  | lockRow probe found =>
    cases probe with
    | live => exact fun agentId hagent => hheld _ (h agentId hagent)
    | _ => trivial
  | recheck probe key found =>
    cases probe with
    | live => exact fun agentId hagent => hheld _ (h agentId hagent)
    | _ => trivial
  | recheckMine agentId => exact ⟨hheld _ h.1, h.2⟩
  | liveForAgent agentId => exact ⟨hheld _ h.1, h.2⟩
  | fetch agentId => exact ⟨hheld _ h.1, h.2⟩
  | write agentId loaded => exact ⟨hheld _ h.1, h.2⟩
  | _ => trivial

section Interference

variable {lease : Lease} {lane : Lane} {agentId : String} (hdisjoint : ∀ l, held l → ¬ held' l)
  (hsound : Sound tickets) (hguarded : Guarded Lock.ticket held tx) (hguarded' : Guarded Lock.ticket held' tx')
  (h' : Deciding held' tickets tx')
include hdisjoint hsound hguarded hguarded' h'

theorem Lane.Checked.interfere (hagent : held (.agent agentId))
    (h : lane.Checked lease (view tickets tx.writes) agentId) :
    lane.Checked lease (view (view tickets tx'.writes) tx.writes) agentId := by
  cases lane with
  | issueTicket completionFirst =>
    refine ⟨(decisions_other hdisjoint hsound hguarded hguarded' h' hagent _).trans_lt h.1, fun hmode => ?_⟩
    have hkey : held (.agent (lease.key agentId).agentId) := hagent
    exact (h.2 hmode).other hdisjoint hguarded hguarded' h' hkey
  | _ => exact h

theorem Lane.Loaded.interfere (hagent : held (.agent agentId)) {loaded : Option Ticket}
    (h : lane.Loaded lease (view tickets tx.writes) agentId loaded) :
    lane.Loaded lease (view (view tickets tx'.writes) tx.writes) agentId loaded := by
  have hkey : held (.agent (lease.key agentId).agentId) := hagent
  cases lane with
  | issueTicket completionFirst =>
    exact ⟨(decisions_other hdisjoint hsound hguarded hguarded' h' hagent _).trans_lt h.1,
      h.2.other hdisjoint hguarded hguarded' h' hkey⟩
  | _ =>
    intro row hrow
    exact purpose_other hdisjoint hguarded hguarded' h' hkey (h row hrow)

/-- What a lease request knows is not changed by the commits of others. -/
theorem Known.interfere {phase : Phase} (h : Known lease lane held (view tickets tx.writes) phase) :
    Known lease lane held (view (view tickets tx'.writes) tx.writes) phase := by
  cases phase with
  | flushOverdue overdue => exact h
  | recount agentId => exact h
  | otherTables => exact h
  | select probe => cases probe <;> exact h
  | lockRow probe found => cases probe <;> exact h
  | recheck probe key found => cases probe <;> exact h
  | recheckMine agentId =>
    exact ⟨h.1, (decisions_other hdisjoint hsound hguarded hguarded' h' h.1 _).trans_lt h.2⟩
  | liveForAgent agentId => exact ⟨h.1, h.2.interfere hdisjoint hsound hguarded hguarded' h' h.1⟩
  | fetch agentId => exact ⟨h.1, h.2.interfere hdisjoint hsound hguarded hguarded' h' h.1⟩
  | write agentId loaded => exact ⟨h.1, h.2.interfere hdisjoint hsound hguarded hguarded' h' h.1⟩
  | _ => trivial

end Interference

/-- The commit of another transaction keeps the facts of a transaction. -/
theorem deciding_interfere (hdisjoint : ∀ l, held l → ¬ held' l) (hsound : Sound tickets)
    (hguarded : Guarded Lock.ticket held tx) (h : Deciding held tickets tx) (hguarded' : Guarded Lock.ticket held' tx')
    (h' : Deciding held' tickets tx') : Deciding held (view tickets tx'.writes) tx := by
  obtain ⟨⟨request, phase, swept⟩, writes⟩ := tx
  cases request with
  | issue lease lane =>
    obtain ⟨hwrites, hswept, hsweeping, hknown⟩ := h
    refine ⟨?_, ?_, hsweeping, Known.interfere hdisjoint hsound hguarded hguarded' h' hknown⟩
    · intro key ticket hkey
      rcases hwrites key ticket hkey with hreleased | ⟨hdone, hagent, hscore, hle⟩
      · refine .inl ⟨hreleased.status, hreleased.score, ?_⟩
        rw [get?_other hdisjoint hguarded' (hguarded.locked key (Dict.mem_keys_iff.2 ⟨ticket, hkey⟩))]
        exact hreleased.purpose
      · exact .inr ⟨hdone, hagent, hscore,
          (decisions_other hdisjoint hsound hguarded hguarded' h' hagent key.benchVersion).trans hle⟩
    · intro key hkey
      obtain ⟨hlocked, hstored⟩ := hswept key hkey
      rw [get?_other hdisjoint hguarded' hlocked]
      exact ⟨hlocked, hstored⟩
  | submitScore key now ticketDeadline runId =>
    simp only [Deciding, Submitting] at h ⊢
    split at h
    · exact h
    · exact h
    · rw [get?_other hdisjoint hguarded' h.2.2.1]
      exact h
    · rw [get?_other hdisjoint hguarded' h.2.2.1]
      exact h
    · obtain ⟨loaded, ticket, hwrites, hagent, hlocked, hrest⟩ := h
      refine ⟨loaded, ticket, hwrites, hagent, hlocked, ?_⟩
      rw [get?_other hdisjoint hguarded' hlocked]
      exact hrest
    · exact h

/-! ## Own steps -/

variable {lease : Lease} {lane : Lane}

theorem Leasing.deciding (h : Leasing lease lane held tickets tx) (hrequest : tx.code.request = .issue lease lane) :
    Deciding held tickets tx := by
  simp only [Deciding, hrequest]
  exact h

/-- Before its end a lease request has only released rows. -/
theorem Leasing.released (h : Leasing lease lane held tickets tx) (hphase : tx.code.phase ≠ .done)
    {key : TicketKey} {ticket : Ticket} (hkey : Dict.get? tx.writes key = some ticket) :
    Released tickets key ticket :=
  (h.writes key ticket hkey).resolve_right fun hdone => hphase hdone.1

/-- A row that a lease request sees before its end is its own release or the committed row. -/
theorem Leasing.seen (h : Leasing lease lane held tickets tx) (hphase : tx.code.phase ≠ .done)
    (hguarded : Guarded Lock.ticket held tx) {key : TicketKey} {ticket : Ticket}
    (hget : Dict.get? (view tickets tx.writes) key = some ticket) :
    Released tickets key ticket ∨ Dict.get? tickets key = some ticket := by
  rw [get?_view hguarded.nodup] at hget
  cases hwrite : Dict.get? tx.writes key with
  | none =>
    rw [hwrite, Option.none_or] at hget
    exact .inr hget
  | some own =>
    rw [hwrite, Option.some_or, Option.some.injEq] at hget
    subst hget
    exact .inl (h.released hphase hwrite)

/-- A statement that only reads. -/
theorem Leasing.goTo (h : Leasing lease lane held tickets tx) {phase : Phase}
    (hphase : tx.code.phase ≠ .done ∧ (phase.isSweep = true → tx.code.phase.isSweep = true))
    (hheld : ∀ l, held l → held' l)
    (hknown : Known lease lane held' (view tickets tx.writes) phase) :
    Leasing lease lane held' tickets ⟨tx.code.goTo phase, tx.writes⟩ := by
  refine ⟨?_, ?_, fun hsweep => h.sweeping (hphase.2 hsweep), hknown⟩
  · intro key ticket hkey
    exact .inl (h.released hphase.1 hkey)
  · intro key hkey
    obtain ⟨hlocked, hstored⟩ := h.swept key hkey
    exact ⟨hheld _ hlocked, hstored⟩

/-- A row that is not scored in the view of a lease request has no score. -/
theorem Leasing.unscored (h : Leasing lease lane held tickets tx) (hphase : tx.code.phase ≠ .done)
    (hsound : Sound tickets) (hguarded : Guarded Lock.ticket held tx) {key : TicketKey} {ticket : Ticket}
    (hget : Dict.get? (view tickets tx.writes) key = some ticket) (hstatus : ticket.status ≠ .scored) :
    ticket.score = none := by
  rcases h.seen hphase hguarded hget with hreleased | hstored
  · exact hreleased.score
  · rw [← Option.not_isSome_iff_eq_none]
    intro hscore
    exact hstatus (hsound.scored key ticket hstored hscore).1

/-- The decisions that a lease request sees are places that are taken. -/
theorem Leasing.decisions_le_occupied (h : Leasing lease lane held tickets tx) (hphase : tx.code.phase ≠ .done)
    (hsound : Sound tickets) (hguarded : Guarded Lock.ticket held tx) (agentId : String) (benchVersion : ℕ) :
    decisions (view tickets tx.writes) agentId benchVersion ≤
      occupied (view tickets tx.writes) agentId benchVersion := by
  rw [← Nat.zero_add (occupied (view tickets tx.writes) agentId benchVersion)]
  apply length_filter_le (keys_view_nodup hsound.nodup _) []
  intro key ticket hget hp
  rw [decide_eq_true_eq] at hp
  obtain ⟨hagent, hversion, hcanonical⟩ := hp
  refine .inr ⟨ticket, hget, decide_eq_true ⟨hagent, hversion, ?_⟩⟩
  rcases h.seen hphase hguarded hget with hreleased | hstored
  · exact absurd hcanonical hreleased.not_canonical
  · rcases hcanonical with hscore | ⟨hissued, hpurpose⟩
    · obtain ⟨hscored, hpurpose⟩ := hsound.scored key ticket hstored hscore
      simp [Ticket.Occupies, Ticket.Held, Ticket.ScoringRetry, Ticket.GeneratorRoundFree, hscored, hpurpose]
    · exact occupies_of_issued hissued hpurpose

/-- Releasing rows makes no decision. -/
theorem Leasing.decisions_le_committed (h : Leasing lease lane held tickets tx) (hphase : tx.code.phase ≠ .done)
    (hsound : Sound tickets) (hguarded : Guarded Lock.ticket held tx) (agentId : String) (benchVersion : ℕ) :
    decisions (view tickets tx.writes) agentId benchVersion ≤ decisions tickets agentId benchVersion := by
  rw [← Nat.zero_add (decisions tickets agentId benchVersion)]
  apply decisions_le (keys_view_nodup hsound.nodup _) []
  intro key ticket hget _ _ hcanonical
  rcases h.seen hphase hguarded hget with hreleased | hstored
  · exact absurd hcanonical hreleased.not_canonical
  · exact .inr ⟨ticket, hstored, hcanonical⟩

theorem sweepTicket_keeps (ticket : Ticket) :
    (sweepTicket ticket).status = .expired ∧ (sweepTicket ticket).purpose = ticket.purpose := ⟨rfl, rfl⟩

theorem forceExpire_keeps (ticket : Ticket) (now : ℤ) :
    (forceExpire ticket now).status = .expired ∧ (forceExpire ticket now).purpose = ticket.purpose := ⟨rfl, rfl⟩

/-- An update that expires a row without a score. -/
theorem Leasing.release (h : Leasing lease lane held tickets tx) (hphase : tx.code.phase ≠ .done)
    (hsound : Sound tickets) (hguarded : Guarded Lock.ticket held tx) {key : TicketKey} {loaded new ticket : Ticket}
    (hloaded : loaded.status = .issued) (hnew : new.status = .expired ∧ new.purpose = loaded.purpose)
    (hget : Dict.get? (view tickets tx.writes) key = some ticket) (hstatus : ticket.status ≠ .scored)
    {code : Code} (hswept : ∀ k ∈ code.swept, k ∈ tx.code.swept ∨ (k = key ∧ ∃ stored,
      Dict.get? tickets key = some stored ∧ ¬ stored.Decided lease.now ∧ stored.score = none))
    (hsweeping : code.phase.isSweep = true → ∀ k, k = key ∨ k ∈ Dict.keys tx.writes → k ∈ code.swept)
    (hknown : Known lease lane (fun l => l = .ticket key ∨ held l)
      (view tickets (Dict.set tx.writes key (loaded.flush new ticket))) code.phase) :
    Leasing lease lane (fun l => l = .ticket key ∨ held l) tickets
      ⟨code, Dict.set tx.writes key (loaded.flush new ticket)⟩ := by
  refine ⟨?_, ?_, fun hsweep k hk => hsweeping hsweep k (mem_keys_set.1 hk), hknown⟩
  · intro key' written hkey
    rw [Dict.get?_set] at hkey
    split at hkey
    · rename_i heq
      rw [Option.some.injEq] at hkey
      subst heq hkey
      have hscore : ticket.score = none := h.unscored hphase hsound hguarded hget hstatus
      have hpurpose : (loaded.flush new ticket).purpose = ticket.purpose := by simp [Ticket.flush, column, hnew.2]
      refine .inl ⟨?_, hscore, ?_⟩
      · simp [Ticket.flush, column, hloaded, hnew.1]
      · rw [hpurpose]
        rcases h.seen hphase hguarded hget with hreleased | hstored
        · exact hreleased.purpose
        · exact ⟨ticket, hstored, rfl⟩
    · exact .inl (h.released hphase hkey)
  · intro k hk
    rcases hswept k hk with hk | ⟨rfl, hstored⟩
    · obtain ⟨hlocked, hrow⟩ := h.swept k hk
      exact ⟨.inr hlocked, hrow⟩
    · exact ⟨.inl rfl, hstored⟩

/-- A row issued under the lock of its agent, within the quorum. -/
theorem Leasing.issue (h : Leasing lease lane held tickets tx) (hphase : tx.code.phase ≠ .done)
    {agentId : String} {ticket : Ticket} (hagent : held (.agent agentId)) (hscore : ticket.score = none)
    (hquorum : decisions (view tickets (Dict.set tx.writes (lease.key agentId) ticket)) agentId lease.benchVersion ≤
      scoringQuorum) :
    Leasing lease lane (fun l => l = .ticket (lease.key agentId) ∨ held l) tickets
      ⟨tx.code.goTo .done, Dict.set tx.writes (lease.key agentId) ticket⟩ := by
  refine ⟨?_, ?_, fun hsweep => (by cases hsweep), trivial⟩
  · intro key written hkey
    rw [Dict.get?_set] at hkey
    split at hkey
    · rename_i heq
      rw [Option.some.injEq] at hkey
      subst heq hkey
      exact .inr ⟨rfl, .inr hagent, hscore, hquorum⟩
    · exact .inl (h.released hphase hkey)
  · intro key hkey
    obtain ⟨hlocked, hrow⟩ := h.swept key hkey
    exact ⟨.inr hlocked, hrow⟩

/-- A row written by a request makes one decision more, and none if it is not canonical. -/
theorem decisions_set (hsound : Sound tickets) (hguarded : Guarded Lock.ticket held tx) (key : TicketKey)
    (ticket : Ticket) (agentId : String) (benchVersion : ℕ) :
    decisions (view tickets (Dict.set tx.writes key ticket)) agentId benchVersion ≤
      (if ticket.Canonical then 1 else 0) + decisions (view tickets tx.writes) agentId benchVersion := by
  have hle : decisions (view tickets (Dict.set tx.writes key ticket)) agentId benchVersion ≤
      (if ticket.Canonical then [key] else []).length + decisions (view tickets tx.writes) agentId benchVersion := by
    apply decisions_le (keys_view_nodup hsound.nodup _)
    intro key' ticket' hget _ _ hcanonical
    rw [get?_view_set hguarded.nodup] at hget
    split at hget
    · rename_i heq
      rw [Option.some.injEq] at hget
      subst heq hget
      rw [if_pos hcanonical]
      exact .inl (List.mem_singleton_self _)
    · exact .inr ⟨ticket', hget, hcanonical⟩
  refine hle.trans (Nat.add_le_add_right ?_ _)
  split <;> simp

/-- What a lease request commits is sound. -/
theorem Leasing.commit (h : Leasing lease lane held tickets tx) (hsound : Sound tickets)
    (hguarded : Guarded Lock.ticket held tx) : Sound (view tickets tx.writes) := by
  refine ⟨keys_view_nodup hsound.nodup _, ?_, ?_⟩
  · intro key ticket hget hscore
    rw [get?_view hguarded.nodup] at hget
    cases hwrite : Dict.get? tx.writes key with
    | none =>
      rw [hwrite, Option.none_or] at hget
      exact hsound.scored key ticket hget hscore
    | some own =>
      rw [hwrite, Option.some_or, Option.some.injEq] at hget
      subst hget
      rcases h.writes key own hwrite with hreleased | ⟨-, -, hnone, -⟩
      · rw [hreleased.score] at hscore
        cases hscore
      · rw [hnone] at hscore
        cases hscore
  · intro agentId benchVersion
    -- either a lease was issued for this agent and version, or every written row gave up its place
    by_cases hissued : ∃ key ticket, Dict.get? tx.writes key = some ticket ∧ key.agentId = agentId ∧
        key.benchVersion = benchVersion ∧ ¬ Released tickets key ticket
    · obtain ⟨key, ticket, hkey, rfl, rfl, hnot⟩ := hissued
      exact ((h.writes key ticket hkey).resolve_left hnot).2.2.2
    · refine le_trans ?_ (hsound.quorum agentId benchVersion)
      rw [← Nat.zero_add (decisions tickets agentId benchVersion)]
      apply decisions_le (keys_view_nodup hsound.nodup _) []
      intro key ticket hget hagent hversion hcanonical
      refine .inr ⟨ticket, ?_, hcanonical⟩
      rw [get?_view hguarded.nodup] at hget
      cases hwrite : Dict.get? tx.writes key with
      | none =>
        rw [hwrite, Option.none_or] at hget
        exact hget
      | some own =>
        rw [hwrite, Option.some_or, Option.some.injEq] at hget
        subst hget
        by_contra
        exact hissued ⟨key, own, hwrite, hagent, hversion, fun hreleased => hreleased.not_canonical hcanonical⟩

/-- A row that the other two lanes lease again is not canonical. -/
theorem restamp_not_canonical (hlane : lane.agentId? ≠ none) {loaded ticket : Ticket} (hscore : ticket.score = none)
    (hpurpose : ticket.purpose = loaded.purpose) : ¬ (loaded.flush (lane.restamp lease loaded) ticket).Canonical := by
  have hnone : (loaded.flush (lane.restamp lease loaded) ticket).score = none := hscore
  have hkeeps : (loaded.flush (lane.restamp lease loaded) ticket).purpose = (lane.restamp lease loaded).purpose := by
    simp only [Ticket.flush, column]
    split
    · rename_i heq
      rw [heq, hpurpose]
    · rfl
  rintro (hsome | ⟨-, hcanonical⟩)
  · rw [hnone] at hsome
    cases hsome
  · rw [hkeeps] at hcanonical
    cases lane with
    | issueTicket completionFirst => exact hlane rfl
    | issueConfirmationTicket agentId seed datasetSha256 =>
      have hretest : (Lane.restamp lease (.issueConfirmationTicket agentId seed datasetSha256) loaded).purpose =
          .continualRetest := by
        simp only [Lane.restamp, Lease.confirm]
        split <;> rfl
      rw [hretest] at hcanonical
      simp at hcanonical
    | issueGeneratorRoundTicket agentId seed datasetSha256 =>
      have hround : (Lane.restamp lease (.issueGeneratorRoundTicket agentId seed datasetSha256) loaded).purpose =
          .generatorRound := rfl
      rw [hround] at hcanonical
      simp at hcanonical

/-- A row that they insert is not canonical. -/
theorem newTicket_not_canonical (hlane : lane.agentId? ≠ none) : ¬ (lane.newTicket lease).Canonical := by
  cases lane with
  | issueTicket completionFirst => exact fun _ => hlane rfl
  | _ => simp [Lane.newTicket, Lease.ticket, Ticket.Canonical]

theorem newTicket_score : (lane.newTicket lease).score = none := by
  cases lane <;> rfl

/-- The row of a lease that is written under the agent's lock. -/
theorem Leasing.write (h : Leasing lease lane held tickets tx) (hsound : Sound tickets)
    (hguarded : Guarded Lock.ticket held tx) {agentId : String} {loaded : Option Ticket}
    (hphase : tx.code.phase = .write agentId loaded) {ticket : Ticket} (hscore : ticket.score = none)
    (hcanonical : lane.agentId? ≠ none → ¬ ticket.Canonical) :
    Leasing lease lane (fun l => l = .ticket (lease.key agentId) ∨ held l) tickets
      ⟨tx.code.goTo .done, Dict.set tx.writes (lease.key agentId) ticket⟩ := by
  have hdone : tx.code.phase ≠ .done := by simp [hphase]
  have hknown := h.known
  rw [hphase] at hknown
  obtain ⟨hagent, hloaded⟩ := hknown
  refine h.issue hdone hagent hscore ?_
  have hset := decisions_set hsound hguarded (lease.key agentId) ticket agentId lease.benchVersion
  cases lane with
  | issueTicket completionFirst =>
    have hplaces := hloaded.1
    split at hset <;> omega
  | _ =>
    rw [if_neg (hcanonical (by simp [Lane.agentId?]))] at hset
    have hcommitted := h.decisions_le_committed hdone hsound hguarded agentId lease.benchVersion
    have hquorum := hsound.quorum agentId lease.benchVersion
    omega

section Statements

variable (hrequest : tx.code.request = .issue lease lane) (hsound : Sound tickets)
  (hguarded : Guarded Lock.ticket held tx) (h : Leasing lease lane held tickets tx)

include hrequest h

/-- The facts after a statement that only reads. -/
theorem Leasing.reads {phase : Phase}
    (hphase : tx.code.phase ≠ .done ∧ (phase.isSweep = true → tx.code.phase.isSweep = true))
    (hknown : Known lease lane held (view tickets tx.writes) phase) :
    Deciding held tickets ⟨tx.code.goTo phase, tx.writes⟩ := by
  have hleasing : Leasing lease lane held tickets ⟨tx.code.goTo phase, tx.writes⟩ :=
    h.goTo hphase (fun _ hl => hl) hknown
  exact hleasing.deciding hrequest

/-- The facts after a statement that takes a lock. -/
theorem Leasing.locks {phase : Phase} {l : Lock}
    (hphase : tx.code.phase ≠ .done ∧ (phase.isSweep = true → tx.code.phase.isSweep = true))
    (hknown : Known lease lane (fun l' => l' = l ∨ held l') (view tickets tx.writes) phase) :
    Deciding (fun l' => l' = l ∨ held l') tickets ⟨tx.code.goTo phase, tx.writes⟩ := by
  have hleasing : Leasing lease lane (fun l' => l' = l ∨ held l') tickets ⟨tx.code.goTo phase, tx.writes⟩ :=
    h.goTo hphase (fun _ hl => .inr hl) hknown
  exact hleasing.deciding hrequest

include hsound hguarded

/-- The sweep updates a row that nobody has decided. -/
theorem Leasing.flushOverdue {overdue : List (TicketKey × Ticket)} (hphase : tx.code.phase = .flushOverdue overdue)
    (hfresh : Fresh Ticket.Decided (view tickets tx.writes) tx.code choice) :
    Keeps Lock.ticket Sound Deciding held tickets tx (lanes lease lane (view tickets tx.writes) tx.code choice) := by
  have hknown := h.known
  rw [hphase] at hknown
  cases overdue with
  | nil =>
    simp only [lanes, hphase, Keeps]
    exact h.reads hrequest (by simp [hphase, Phase.isSweep]) trivial
  | cons row overdue =>
    obtain ⟨key, loaded⟩ := row
    simp only [lanes, hphase, Keeps]
    intro ticket hget
    have hundecided : ¬ ticket.Decided lease.now := by
      refine (hfresh lease ?_).1 key ?_ ticket hget
      · rw [hrequest]
        rfl
      · rw [hphase]
        rfl
    have hstatus : ticket.status ≠ .scored := fun hscored => hundecided (.inl hscored)
    have hdone : tx.code.phase ≠ .done := by simp [hphase]
    have hsweeping := h.sweeping (by simp [hphase, Phase.isSweep])
    simp only [Deciding, hrequest]
    refine h.release hdone hsound hguarded (hknown _ List.mem_cons_self) (sweepTicket_keeps loaded) hget hstatus
      ?_ ?_ ?_
    · intro k hk
      rcases List.mem_cons.1 hk with rfl | hk
      · -- the committed row, unless this sweep has written it already
        by_cases hmem : k ∈ Dict.keys tx.writes
        · exact .inl (hsweeping k hmem)
        · rw [get?_view_of_not_mem hguarded.nodup hmem] at hget
          refine .inr ⟨rfl, ticket, hget, hundecided, ?_⟩
          rw [← get?_view_of_not_mem hguarded.nodup hmem] at hget
          exact h.unscored hdone hsound hguarded hget hstatus
      · exact .inl hk
    · intro _ k hk
      rcases hk with rfl | hk
      · exact List.mem_cons_self
      · exact List.mem_cons_of_mem _ (hsweeping k hk)
    · intro row hrow
      exact hknown row (List.mem_cons_of_mem _ hrow)

/-- A probe looks at a locked row again; an idle lease on the slot is released. -/
theorem Leasing.recheck {probe : Probe} {key : TicketKey} {found : List TicketKey}
    (hphase : tx.code.phase = .recheck probe key found) :
    Keeps Lock.ticket Sound Deciding held tickets tx (lanes lease lane (view tickets tx.writes) tx.code choice) := by
  have hknown := h.known
  rw [hphase] at hknown
  have hnext : Known lease lane held (view tickets tx.writes) (.lockRow probe found) := by
    cases probe <;> exact hknown
  simp only [lanes, hphase]
  split
  · rename_i ticket hget
    split
    · rename_i hmatches
      cases probe with
      | incompatible =>
        simp only [onFound]
        split
        · intro stored hstored
          rw [hget, Option.some.injEq] at hstored
          subst hstored
          have hstatus : ticket.status ≠ .scored := by simp [hmatches.2.1.1]
          refine Leasing.deciding (h.release (by simp [hphase]) hsound hguarded hmatches.2.1.1
            (forceExpire_keeps ticket lease.now) hget hstatus ?_ ?_ trivial) hrequest
          · intro k hk
            exact .inl hk
          · intro hsweep
            cases hsweep
        · exact h.reads hrequest (by simp [hphase, Phase.isSweep]) trivial
      | _ => exact h.reads hrequest (by simp [hphase, Phase.isSweep]) trivial
    · exact h.reads hrequest (by simp [hphase, Phase.isSweep]) hnext
  · exact h.reads hrequest (by simp [hphase, Phase.isSweep]) hnext

/-- `issue_ticket` counts the places of the quorum under the lock of the agent. -/
theorem Leasing.recount {agentId : String} (hphase : tx.code.phase = .recount agentId) :
    Keeps Lock.ticket Sound Deciding held tickets tx (lanes lease lane (view tickets tx.writes) tx.code choice) := by
  have hknown := h.known
  rw [hphase] at hknown
  simp only [lanes, hphase]
  split
  · rename_i hpass
    have hplaces := (h.decisions_le_occupied (by simp [hphase]) hsound hguarded agentId lease.benchVersion).trans_lt
      hpass.2
    cases lane with
    | issueTicket completionFirst =>
      cases completionFirst with
      | true => exact h.reads hrequest (by simp [hphase, Phase.isSweep]) ⟨hknown, hplaces⟩
      | false =>
        refine h.reads hrequest (by simp [hphase, Phase.isSweep]) ⟨hknown, hplaces, ?_⟩
        intro hmode
        cases hmode
    | _ => trivial
  · exact h.reads hrequest (by simp [hphase, Phase.isSweep]) trivial

omit hsound hguarded

/-- In completion-first mode it looks at the validator's own row again. -/
theorem Leasing.recheckMine {agentId : String} (hphase : tx.code.phase = .recheckMine agentId) :
    Keeps Lock.ticket Sound Deciding held tickets tx (lanes lease lane (view tickets tx.writes) tx.code choice) := by
  have hknown := h.known
  rw [hphase] at hknown
  cases lane with
  | issueTicket completionFirst =>
    simp only [lanes, hphase, Keeps]
    split
    · exact h.reads hrequest (by simp [hphase, Phase.isSweep]) trivial
    · rename_i hmine
      exact h.reads hrequest (by simp [hphase, Phase.isSweep])
        ⟨hknown.1, hknown.2, fun _ => unscored_of_not_alreadyMine hmine⟩
  | _ => simp [lanes, hphase, Keeps]

/-- The other lanes take the lock of the agent that they name, and have found nothing out yet. -/
theorem Leasing.lockAgent (hphase : tx.code.phase = .lockAgent) :
    Keeps Lock.ticket Sound Deciding held tickets tx (lanes lease lane (view tickets tx.writes) tx.code choice) := by
  cases lane with
  | issueTicket completionFirst => simp [lanes, hphase, Keeps, Lane.agentId?]
  | issueConfirmationTicket agentId seed datasetSha256 =>
    simp only [lanes, hphase, Keeps, Lane.agentId?, Lane.afterAgent]
    exact h.locks hrequest (by simp [hphase, Phase.isSweep]) ⟨.inl rfl, rfl⟩
  | issueGeneratorRoundTicket agentId seed datasetSha256 =>
    simp only [lanes, hphase, Keeps, Lane.agentId?, Lane.afterAgent]
    refine h.locks hrequest (by simp [hphase, Phase.isSweep]) ?_
    intro named hnamed
    rw [Option.mem_def, Lane.agentId?, Option.some.injEq] at hnamed
    exact .inl (congrArg Lock.agent hnamed.symm)

/-- A lane goes on when the validator has no live lease on the agent. -/
theorem Leasing.liveForAgent {agentId : String} (hphase : tx.code.phase = .liveForAgent agentId) :
    Keeps Lock.ticket Sound Deciding held tickets tx (lanes lease lane (view tickets tx.writes) tx.code choice) := by
  have hknown := h.known
  rw [hphase] at hknown
  cases lane with
  | issueTicket completionFirst =>
    simp only [lanes, hphase, Keeps]
    split
    · exact h.reads hrequest (by simp [hphase, Phase.isSweep]) trivial
    · exact h.reads hrequest (by simp [hphase, Phase.isSweep]) hknown
  | _ =>
    simp only [lanes, hphase, Keeps]
    split
    · exact h.reads hrequest (by simp [hphase, Phase.isSweep]) trivial
    · refine h.reads hrequest (by simp [hphase, Phase.isSweep]) ?_
      intro named hnamed
      obtain ⟨hagent, hchecked⟩ := hknown
      rw [Option.mem_def, hchecked, Option.some.injEq] at hnamed
      exact hnamed ▸ hagent

/-- The checks of a named agent on other tables. -/
theorem Leasing.otherTables (hphase : tx.code.phase = .otherTables) :
    Keeps Lock.ticket Sound Deciding held tickets tx (lanes lease lane (view tickets tx.writes) tx.code choice) := by
  have hknown := h.known
  rw [hphase] at hknown
  cases hnamed : lane.agentId? with
  | none => simp [lanes, hphase, hnamed, Keeps]
  | some agentId =>
    have hchecked : lane.Checked lease (view tickets tx.writes) agentId := by
      cases lane with
      | issueTicket completionFirst => cases hnamed
      | _ => exact hnamed
    simp only [lanes, hphase, hnamed, Keeps]
    split
    · exact h.reads hrequest (by simp [hphase, Phase.isSweep]) ⟨hknown agentId hnamed, hchecked⟩
    · exact h.reads hrequest (by simp [hphase, Phase.isSweep]) trivial

/-- A lane fetches the row that it writes over; the canonical one is not scored. -/
theorem Leasing.fetch {agentId : String} (hphase : tx.code.phase = .fetch agentId)
    (hfresh : Fresh Ticket.Decided (view tickets tx.writes) tx.code choice) :
    Keeps Lock.ticket Sound Deciding held tickets tx (lanes lease lane (view tickets tx.writes) tx.code choice) := by
  have hknown := h.known
  rw [hphase] at hknown
  obtain ⟨hagent, hchecked⟩ := hknown
  cases lane with
  | issueTicket completionFirst =>
    have hunscored : Unscored (view tickets tx.writes) (lease.key agentId) := by
      cases completionFirst with
      | true => exact hchecked.2 rfl
      | false =>
        intro ticket hticket hscored
        refine (hfresh lease ?_).2 agentId ?_ ticket hticket (.inl hscored)
        · rw [hrequest]
          rfl
        · rw [Code.unchecked?, hrequest, hphase]
          rfl
    simp only [lanes, hphase, Keeps]
    exact h.reads hrequest (by simp [hphase, Phase.isSweep]) ⟨hagent, hchecked.1, hunscored⟩
  | _ =>
    have hloaded : ∀ row ∈ Dict.get? (view tickets tx.writes) (lease.key agentId), ∀ ticket,
        Dict.get? (view tickets tx.writes) (lease.key agentId) = some ticket → ticket.purpose = row.purpose := by
      intro row hrow ticket hticket
      rw [Option.mem_def, hticket, Option.some.injEq] at hrow
      rw [hrow]
    simp only [lanes, hphase, Keeps]
    split
    · exact h.reads hrequest (by simp [hphase, Phase.isSweep]) trivial
    · exact h.reads hrequest (by simp [hphase, Phase.isSweep]) ⟨hagent, hloaded⟩

include hsound hguarded

/-- A lane writes its lease over a row without a score. -/
theorem Leasing.writeLease {agentId : String} {loaded : Option Ticket} (hphase : tx.code.phase = .write agentId loaded)
    (hrepurposed : ∀ key ∈ tx.code.repurposed?, ∀ ticket ∈ Dict.get? (view tickets tx.writes) key,
      ticket.score = none) :
    Keeps Lock.ticket Sound Deciding held tickets tx (lanes lease lane (view tickets tx.writes) tx.code choice) := by
  have hknown := h.known
  rw [hphase] at hknown
  cases loaded with
  | none =>
    simp only [lanes, hphase, Keeps]
    intro _
    exact (h.write hsound hguarded hphase newTicket_score newTicket_not_canonical).deciding hrequest
  | some loaded =>
    simp only [lanes, hphase, Keeps]
    intro ticket hticket
    have hscore : ticket.score = none := by
      cases lane with
      | issueTicket completionFirst =>
        exact h.unscored (by simp [hphase]) hsound hguarded hticket (hknown.2.2 ticket hticket)
      | _ =>
        refine hrepurposed (lease.key agentId) ?_ ticket hticket
        rw [Code.repurposed?, hrequest, hphase]
        rfl
    have hcanonical : lane.agentId? ≠ none → ¬ (loaded.flush (lane.restamp lease loaded) ticket).Canonical := by
      intro hlane
      apply restamp_not_canonical hlane hscore
      cases lane with
      | issueTicket completionFirst => exact absurd rfl hlane
      | _ => exact hknown.2 loaded rfl ticket hticket
    have hflushed : (loaded.flush (lane.restamp lease loaded) ticket).score = none := hscore
    exact (h.write hsound hguarded hphase hflushed hcanonical).deciding hrequest

/-- Each statement of a lease request keeps its facts. -/
theorem leasing_own (hclean : Undisturbed (view tickets tx.writes) tx.code choice) :
    Keeps Lock.ticket Sound Deciding held tickets tx (lanes lease lane (view tickets tx.writes) tx.code choice) := by
  obtain ⟨hfresh, hrepurposed⟩ := hclean
  have hknown := h.known
  cases hphase : tx.code.phase with
  | lockValidatorSlot =>
    simp only [lanes, hphase, Keeps]
    exact h.locks hrequest (by simp [hphase, Phase.isSweep]) trivial
  | selectOverdue =>
    simp only [lanes, hphase, Keeps]
    apply h.reads hrequest (by simp [hphase, Phase.isSweep])
    intro row hrow
    rw [List.mem_filter, decide_eq_true_eq] at hrow
    exact hrow.2.1
  | flushOverdue overdue => exact h.flushOverdue hrequest hsound hguarded hphase hfresh
  | gate =>
    simp only [lanes, hphase, Keeps]
    split
    · cases lane <;> exact h.reads hrequest (by simp [hphase, Lane.afterGate, Phase.isSweep]) trivial
    · exact h.reads hrequest (by simp [hphase, Phase.isSweep]) trivial
  | select probe =>
    rw [hphase] at hknown
    simp only [lanes, hphase, Keeps]
    refine h.reads hrequest (by simp [hphase, Phase.isSweep]) ?_
    cases probe <;> exact hknown
  | lockRow probe found =>
    rw [hphase] at hknown
    cases found with
    | nil =>
      simp only [lanes, hphase, Keeps]
      refine h.reads hrequest (by cases probe <;> simp [hphase, Probe.onNone, Phase.isSweep]) ?_
      cases probe <;> exact hknown
    | cons key found =>
      simp only [lanes, hphase, Keeps]
      refine h.locks hrequest (by simp [hphase, Phase.isSweep]) ?_
      cases probe with
      | live => exact fun agentId hagent => .inr (hknown agentId hagent)
      | _ => trivial
  | recheck probe key found => exact h.recheck hrequest hsound hguarded hphase
  | selectCandidate =>
    simp only [lanes, hphase, Keeps]
    exact h.reads hrequest (by simp [hphase, Phase.isSweep]) trivial
  | lockCandidate offered =>
    cases offered with
    | nil =>
      simp only [lanes, hphase, Keeps]
      split
      · exact h.reads hrequest (by simp [hphase, Phase.isSweep]) trivial
      · exact h.reads hrequest (by simp [hphase, Phase.isSweep]) trivial
    | cons agentId offered =>
      simp only [lanes, hphase]
      split
      · exact h.locks hrequest (by simp [hphase, Phase.isSweep]) (.inl rfl)
      · exact h.reads hrequest (by simp [hphase, Phase.isSweep]) trivial
  | recount agentId => exact h.recount hrequest hsound hguarded hphase
  | recheckMine agentId => exact h.recheckMine hrequest hphase
  | lockAgent => exact h.lockAgent hrequest hphase
  | liveForAgent agentId => exact h.liveForAgent hrequest hphase
  | otherTables => exact h.otherTables hrequest hphase
  | fetch agentId => exact h.fetch hrequest hphase hfresh
  | write agentId loaded => exact h.writeLease hrequest hsound hguarded hphase hrepurposed
  | done =>
    simp only [lanes, hphase, Keeps]
    exact h.commit hsound hguarded
  | _ => simp [lanes, hphase, Keeps]

end Statements

/-- A score written to the row of a decision takes no further place. -/
theorem Sound.score (hsound : Sound tickets) {key : TicketKey} {loaded ticket : Ticket}
    (hget : Dict.get? tickets key = some loaded) (hcanonical : loaded.Canonical) (hscored : ticket.status = .scored)
    (hpurpose : ticket.purpose = .canonicalQuorum) : Sound (view tickets [(key, ticket)]) := by
  have hnodup : (Dict.keys [(key, ticket)]).Nodup := by simp [Dict.keys]
  have hview : ∀ key', Dict.get? (view tickets [(key, ticket)]) key' =
      if key = key' then some ticket else Dict.get? tickets key' := by
    intro key'
    rw [get?_view hnodup]
    by_cases hk : key = key'
    · simp [Dict.get?, hk]
    · simp [Dict.get?, hk]
  refine ⟨keys_view_nodup hsound.nodup _, ?_, ?_⟩
  · intro key' ticket' hget' hscore
    rw [hview] at hget'
    split at hget'
    · rw [Option.some.injEq] at hget'
      subst hget'
      exact ⟨hscored, hpurpose⟩
    · exact hsound.scored key' ticket' hget' hscore
  · intro agentId benchVersion
    refine le_trans ?_ (hsound.quorum agentId benchVersion)
    rw [← Nat.zero_add (decisions tickets agentId benchVersion)]
    apply decisions_le (keys_view_nodup hsound.nodup _) []
    intro key' ticket' hget' _ _ hcanonical'
    rw [hview] at hget'
    split at hget'
    · rename_i heq
      subst heq
      exact .inr ⟨loaded, hget, hcanonical⟩
    · exact .inr ⟨ticket', hget', hcanonical'⟩

/-- Each statement of a submission keeps its facts. -/
theorem submitting_own {key : TicketKey} {now ticketDeadline : ℤ} {runId : String}
    (hrequest : tx.code.request = .submitScore key now ticketDeadline runId) (hsound : Sound tickets)
    (h : Submitting key runId held tickets tx) :
    Keeps Lock.ticket Sound Deciding held tickets tx
      (submission key now ticketDeadline runId (view tickets tx.writes) tx.code choice) := by
  obtain ⟨⟨request, phase, swept⟩, writes⟩ := tx
  simp only at hrequest
  subst hrequest
  cases phase with
  | lockAgent =>
    simp only [submission, Keeps]
    exact ⟨h, .inl rfl⟩
  | lockTicket =>
    obtain ⟨hwrites, hagent⟩ := h
    simp only [submission]
    split
    · exact ⟨hwrites, .inr hagent, .inl rfl⟩
    · trivial
  | getOpenTicket =>
    obtain ⟨hwrites, hagent, hlocked⟩ := h
    simp only at hwrites
    subst hwrites
    simp only [submission]
    split
    · rename_i ticket hget
      split
      · rename_i hopen
        refine ⟨rfl, hagent, hlocked, hget, hopen.1.1, ?_⟩
        rcases hopen.1.2.2.2 with hlegacy | hcanonical
        · exact .inl hlegacy.1
        · exact .inr hcanonical.1
      · trivial
    · trivial
  | upsertScore loaded =>
    obtain ⟨hwrites, hagent, hlocked, hget, hissued, hpurpose⟩ := h
    simp only at hwrites
    subst hwrites
    simp only [submission, Keeps]
    intro stored hstored
    rw [show view tickets [] = tickets from rfl, hget, Option.some.injEq] at hstored
    subst hstored
    exact ⟨rfl, .inr hagent, .inr hlocked, hget, hissued, hpurpose⟩
  | markTicketScored loaded =>
    obtain ⟨hwrites, hagent, hlocked, hget, hissued, hpurpose⟩ := h
    simp only at hwrites
    subst hwrites
    simp only [submission, Keeps]
    intro stored hstored
    have hown : Dict.get? (view tickets [(key, { loaded with score := some runId })]) key =
        some { loaded with score := some runId } :=
      get?_view_of_write (by simp [Dict.keys]) (by simp [Dict.get?])
    rw [hown, Option.some.injEq] at hstored
    subst hstored
    refine ⟨loaded, loaded.flush (scoredTicket loaded) { loaded with score := some runId }, ?_, .inr hagent,
      .inr hlocked, hget, .inr ⟨hissued, hpurpose⟩, ?_, ?_⟩
    · simp [Dict.set]
    · rcases hpurpose with hp | hp <;> simp [Ticket.flush, column, scoredTicket, hissued, hp]
    · rcases hpurpose with hp | hp <;> simp [Ticket.flush, column, scoredTicket, hp]
  | done =>
    obtain ⟨loaded, ticket, hwrites, -, -, hget, hcanonical, hscored, hpurpose⟩ := h
    simp only at hwrites
    subst hwrites
    simp only [submission, Keeps]
    exact hsound.score hget hcanonical hscored hpurpose
  | _ => simp [submission, Keeps]

/-- More locks take no facts away. -/
theorem Deciding.mono (hheld : ∀ l, held l → held' l) (h : Deciding held tickets tx) : Deciding held' tickets tx := by
  obtain ⟨⟨request, phase, swept⟩, writes⟩ := tx
  cases request with
  | issue lease lane =>
    obtain ⟨hwrites, hswept, hsweeping, hknown⟩ := h
    refine ⟨?_, ?_, hsweeping, hknown.mono hheld⟩
    · intro key ticket hkey
      rcases hwrites key ticket hkey with hreleased | ⟨hdone, hagent, hrest⟩
      · exact .inl hreleased
      · exact .inr ⟨hdone, hheld _ hagent, hrest⟩
    · intro key hkey
      obtain ⟨hlocked, hstored⟩ := hswept key hkey
      exact ⟨hheld _ hlocked, hstored⟩
  | submitScore key now ticketDeadline runId =>
    simp only [Deciding, Submitting] at h ⊢
    split at h
    · exact ⟨h.1, hheld _ h.2⟩
    · exact ⟨h.1, hheld _ h.2.1, hheld _ h.2.2⟩
    · exact ⟨h.1, hheld _ h.2.1, hheld _ h.2.2.1, h.2.2.2⟩
    · exact ⟨h.1, hheld _ h.2.1, hheld _ h.2.2.1, h.2.2.2⟩
    · obtain ⟨loaded, ticket, hwrites, hagent, hlocked, hrest⟩ := h
      exact ⟨loaded, ticket, hwrites, hheld _ hagent, hheld _ hlocked, hrest⟩
    · exact h

/-- Lease requests and submissions keep their facts under each other's commits. -/
theorem deciding_rules : Rules Lock.ticket program Code.Begins Undisturbed Sound Deciding := by
  refine ⟨?_, ?_, ?_, ?_⟩
  · rintro tickets ⟨request, phase, swept⟩ hbegin
    rw [hbegin]
    cases request with
    | issue lease lane =>
      refine ⟨?_, ?_, fun _ key hkey => (by cases hkey), trivial⟩
      · intro key ticket hkey
        cases hkey
      · intro key hkey
        cases hkey
    | submitScore key now ticketDeadline runId => rfl
  · intro held held' tickets tx hheld h
    exact h.mono hheld
  · intro held tickets tx choice hsound hguarded h hclean
    cases hrequest : tx.code.request with
    | issue lease lane =>
      simp only [Deciding, hrequest] at h
      simp only [program, hrequest]
      exact leasing_own hrequest hsound hguarded h hclean
    | submitScore key now ticketDeadline runId =>
      simp only [Deciding, hrequest] at h
      simp only [program, hrequest]
      exact submitting_own hrequest hsound h
  · intro held held' tickets tx tx' choice hdisjoint hsound hguarded h hguarded' h' _ _
    exact deciding_interfere hdisjoint hsound hguarded h hguarded' h'

/-! ## Runs -/

/-- Rows of two kinds that exclude each other, both of a third kind. -/
theorem length_filter_add_le {α : Type} {p q r : α → Bool} : ∀ {l : List α},
    (∀ a ∈ l, p a = true → r a = true ∧ q a = false) → (∀ a ∈ l, q a = true → r a = true) →
    (l.filter p).length + (l.filter q).length ≤ (l.filter r).length
  | [], _, _ => le_rfl
  | a :: l, hp, hq => by
    have ih := length_filter_add_le (l := l) (fun b hb => hp b (List.mem_cons_of_mem _ hb))
      (fun b hb => hq b (List.mem_cons_of_mem _ hb))
    have hpa := hp a List.mem_cons_self
    have hqa := hq a List.mem_cons_self
    simp only [List.filter_cons]
    cases hpv : p a with
    | true =>
      obtain ⟨hr, hqv⟩ := hpa hpv
      simp only [hr, hqv, if_true, List.length_cons, Bool.false_eq_true, if_false]
      omega
    | false =>
      cases hqv : q a with
      | true =>
        simp only [hqa hqv, if_true, List.length_cons, Bool.false_eq_true, if_false]
        omega
      | false =>
        simp only [Bool.false_eq_true, if_false]
        split
        · rw [List.length_cons]
          omega
        · exact ih

/-- The accepted scores of an agent. -/
def acceptedScores (tickets : Tickets) (agentId : String) (benchVersion : ℕ) : ℕ :=
  (tickets.filter fun row =>
    row.1.agentId = agentId ∧ row.1.benchVersion = benchVersion ∧ row.2.score.isSome = true).length

/-- The live canonical leases of an agent. -/
def liveLeases (tickets : Tickets) (agentId : String) (benchVersion : ℕ) (now : ℤ) : ℕ :=
  (tickets.filter fun row => row.1.agentId = agentId ∧ row.1.benchVersion = benchVersion ∧ row.2.Live now ∧
    row.2.purpose = .canonicalQuorum).length

/-- Accepted scores and live leases take different places of the quorum. -/
theorem Sound.within_quorum (h : Sound tickets) (agentId : String) (benchVersion : ℕ) (now : ℤ) :
    acceptedScores tickets agentId benchVersion + liveLeases tickets agentId benchVersion now ≤ scoringQuorum := by
  refine le_trans ?_ (h.quorum agentId benchVersion)
  apply length_filter_add_le
  · intro row hrow hp
    rw [decide_eq_true_eq] at hp
    obtain ⟨hagent, hversion, hscore⟩ := hp
    have hscored := (h.scored row.1 row.2 (Dict.get?_of_mem h.nodup hrow) hscore).1
    constructor
    · exact decide_eq_true ⟨hagent, hversion, .inl hscore⟩
    · simp [Ticket.Live, hscored]
  · intro row _ hq
    rw [decide_eq_true_eq] at hq ⊢
    exact ⟨hq.1, hq.2.1, .inr ⟨hq.2.2.1.1, .inr hq.2.2.2⟩⟩

/-- In every run of lease requests of the three lanes and submissions, each with its own clock, in which no update of a
sweep and no row leased again finds a newer decision: an accepted score keeps its ticket, which stays a place of the
quorum; what a sweep has expired was no accepted score and no lease with a later deadline; and accepted scores and live
leases stay within the quorum. -/
theorem sweep_keeps_decisions {T : Type} [DecidableEq T] (initial : Tickets) (hinitial : Sound initial)
    (actions : List (Action T Code Choice))
    (hclean : AllowedRun Lock.ticket program Code.Begins Undisturbed (start initial) actions) :
    (∀ key ticket, Dict.get? (platform initial actions).rows key = some ticket → ticket.score.isSome = true →
      ticket.status = .scored ∧ ticket.Occupies) ∧
    (∀ t tx lease lane, (platform initial actions).running t = some tx → tx.code.request = .issue lease lane →
      ∀ key ∈ tx.code.swept, ∃ stored, Dict.get? (platform initial actions).rows key = some stored ∧
        stored.score = none ∧ ¬ stored.Live lease.now) ∧
    (∀ agentId benchVersion now, acceptedScores (platform initial actions).rows agentId benchVersion +
      liveLeases (platform initial actions).rows agentId benchVersion now ≤ scoringQuorum) := by
  have hinv : Inv Lock.ticket Sound Deciding (platform initial actions) :=
    inv_run Lock.ticket program deciding_rules actions (Inv.start Lock.ticket hinitial) hclean
  refine ⟨?_, ?_, hinv.rows_good.within_quorum⟩
  · intro key ticket hget hscore
    obtain ⟨hscored, hpurpose⟩ := hinv.rows_good.scored key ticket hget hscore
    refine ⟨hscored, .inr hscored, ?_⟩
    simp [Ticket.ScoringRetry, Ticket.GeneratorRoundFree, hpurpose]
  · intro t tx lease lane hrun hrequest key hkey
    have hdeciding := hinv.good t tx hrun
    simp only [Deciding, hrequest] at hdeciding
    obtain ⟨-, stored, hstored, hundecided, hscore⟩ := hdeciding.swept key hkey
    exact ⟨stored, hstored, hscore, fun hlive => hundecided (.inr hlive)⟩

/-! ## Samples -/

/-- The ticket of a validator. -/
def sampleKey (validatorHotkey : String) : TicketKey := ⟨"agent", 13, validatorHotkey⟩

/-- A canonical lease with a deadline. -/
def dueTicket (deadline : ℤ) : Ticket :=
  Lease.ticket ⟨"alice", "slot-0", 40, deadline - 40, 13⟩ .canonicalQuorum none none 1

/-- Two canonical leases on one agent, due at 100 and at 90. -/
def dueTickets : Tickets := [(sampleKey "alice", dueTicket 100), (sampleKey "carol", dueTicket 90)]

theorem sound_dueTickets : Sound dueTickets := by
  refine ⟨by decide, ?_, ?_⟩
  · intro key ticket hget hscore
    have hmem := Dict.mem_of_get? hget
    simp only [dueTickets, List.mem_cons, Prod.mk.injEq, List.not_mem_nil, or_false] at hmem
    rcases hmem with ⟨-, rfl⟩ | ⟨-, rfl⟩
    · cases hscore
    · cases hscore
  · intro agentId benchVersion
    exact (List.length_filter_le _ _).trans (by decide)

inductive Client
  | submission
  | lease
  | retest
  deriving DecidableEq, Repr

def Client.steps (client : Client) (n : ℕ) : List (Action Client Code Choice) :=
  List.replicate n (.next client ⟨true, ["agent"]⟩)

/-- A score for the lease due at 100 is accepted at 99. -/
def submitRequest : Request := .submitScore (sampleKey "alice") 99 100 "run"

/-- While the score is submitted another validator's request, at 95, selects the lease due at 90; after the commit it
expires that lease and issues one of its own, and a third validator asks for a retest. -/
def mixedSteps : List (Action Client Code Choice) :=
  [.begin .submission submitRequest.begin] ++ Client.steps .submission 3 ++
    [.begin .lease (Request.issue ⟨"bob", "slot-0", 95, 60, 13⟩ (.issueTicket false)).begin] ++
    Client.steps .lease 2 ++ Client.steps .submission 3 ++ Client.steps .lease 13 ++
    [.begin .retest (Request.issue ⟨"dave", "slot-0", 99, 60, 13⟩
      (.issueConfirmationTicket "agent" (some 1) none)).begin]

/-- Bob's lease committed, and dave's retest, up to its commit. -/
def mixedEnd : List (Action Client Code Choice) := mixedSteps ++ Client.steps .lease 1 ++ Client.steps .retest 14

theorem sweep_keeps_decisions_sample :
    (∃ stored, Dict.get? (platform dueTickets mixedSteps).rows (sampleKey "carol") = some stored ∧
      stored.score = none ∧ ¬ stored.Live 95) ∧
    (∃ ticket ∈ Dict.get? (platform dueTickets mixedEnd).rows (sampleKey "alice"),
      ticket.score = some "run" ∧ ticket.Occupies) ∧
    acceptedScores (platform dueTickets mixedEnd).rows "agent" 13 = 1 ∧
      liveLeases (platform dueTickets mixedEnd).rows "agent" 13 99 = 1 ∧
      acceptedScores (platform dueTickets mixedEnd).rows "agent" 13 +
        liveLeases (platform dueTickets mixedEnd).rows "agent" 13 99 ≤ scoringQuorum := by
  have hsweep := (sweep_keeps_decisions dueTickets sound_dueTickets mixedSteps (by decide +kernel)).2.1
  have hlease : ((platform dueTickets mixedSteps).running .lease).map (·.code) =
      some ⟨.issue ⟨"bob", "slot-0", 95, 60, 13⟩ (.issueTicket false), .done, [sampleKey "carol"]⟩ := by
    decide +kernel
  obtain ⟨tx, htx, hcode⟩ := Option.map_eq_some_iff.1 hlease
  obtain ⟨hscored, -, hquorum⟩ := sweep_keeps_decisions dueTickets sound_dueTickets mixedEnd (by decide +kernel)
  have halice : (Dict.get? (platform dueTickets mixedEnd).rows (sampleKey "alice")).map (·.score) =
      some (some "run") := by
    decide +kernel
  obtain ⟨ticket, hticket, hscore⟩ := Option.map_eq_some_iff.1 halice
  refine ⟨?_, ⟨ticket, hticket, hscore, ?_⟩, by decide +kernel, by decide +kernel, hquorum "agent" 13 99⟩
  · exact hsweep .lease tx _ _ htx (by rw [hcode]) (sampleKey "carol") (by rw [hcode]; exact List.mem_singleton_self _)
  · exact (hscored (sampleKey "alice") ticket hticket (by rw [hscore]; rfl)).2

/-! ## A lost score -/

/-- A lease request at 100 selects the overdue rows before the submission commits, and updates them afterwards. -/
def undoSteps : List (Action Client Code Choice) :=
  [.begin .submission submitRequest.begin] ++ Client.steps .submission 5 ++
    [.begin .lease (Request.issue ⟨"bob", "slot-0", 100, 60, 13⟩ (.issueTicket true)).begin] ++
    Client.steps .lease 2 ++ Client.steps .submission 1 ++ Client.steps .lease 3 ++
    List.replicate 2 (.next .lease ⟨false, []⟩)

/-- The score was accepted in time, and its ticket is expired. -/
theorem sweep_undoes_score : Sound dueTickets ∧
    (∃ ticket ∈ Dict.get? (platform dueTickets undoSteps).rows (sampleKey "alice"),
      ticket.score = some "run" ∧ ticket.status = .expired ∧ ¬ ticket.Occupies) := by
  refine ⟨sound_dueTickets, ?_⟩
  decide +kernel

end DittoSubnet.Platform

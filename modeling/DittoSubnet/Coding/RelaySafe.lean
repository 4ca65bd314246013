import DittoSubnet.Coding.RelayRestore

/-!
# What the relay never does

Every input keeps the invariant of the system (`step_inv`), so every run from an empty root has it (`run_inv_initial`).
-/

namespace DittoSubnet.Coding

open Kit

section Steps

variable {codec : Codec} {layout : Layout} {config : JournalConfig} {binding : Binding} {system : System}
  {journal : Journal} {relay : Relay} {events : List Event}

/-! ## The relay by itself -/

theorem Held.of_entries {later : Relay} {records rest : List EntryRecord}
    (h : Held codec layout config binding journal relay records rest) (heq : later.entries = relay.entries) :
    Held codec layout config binding journal later records rest :=
  ⟨h.lasting, h.completed, heq.trans h.kept⟩

theorem Held.memory {records rest : List EntryRecord}
    (h : Held codec layout config binding journal relay records rest) :
    journal.store.entries = records ++ rest ∧ ∀ state ∈ journal.store.state, state.binding = binding :=
  h.lasting.memory

/-- The stage depends on the entries only, and on whether the relay has failed. -/
theorem Staged.of_entries {later : Relay} {active : Option Flight}
    (h : Staged codec layout config binding journal events relay active) (hentries : later.entries = relay.entries)
    (hfailed : relay.fatal.isSome = true → later.fatal.isSome = true) :
    Staged codec layout config binding journal events later active := by
  cases h with
  | idle records hheld hanswered => exact .idle records (hheld.of_entries hentries) hanswered
  | failed hfatal => exact .failed (hfailed hfatal)
  | begin records dispatch hheld hnew => exact .begin records dispatch (hheld.of_entries hentries) hnew
  | call records dispatch hheld huncalled => exact .call records dispatch (hheld.of_entries hentries) huncalled
  | called records dispatch hheld hcalled => exact .called records dispatch (hheld.of_entries hentries) hcalled
  | settle records dispatch completion hheld hsettled =>
    exact .settle records dispatch completion (hheld.of_entries hentries) hsettled
  | settled records dispatch completion hheld => exact .settled records dispatch completion (hheld.of_entries hentries)

theorem Staged.ticks {later : Relay} {active : Option Flight}
    (h : Staged codec layout config binding journal events relay active) (hticks : relay.Ticks later) :
    Staged codec layout config binding journal events later active := by
  cases hticks with
  | mk now fatal hfatal => exact h.of_entries rfl hfatal

theorem Relay.Inv.ticks {later : Relay} (h : relay.Inv codec layout config binding journal events)
    (hticks : relay.Ticks later) : later.Inv codec layout config binding journal events := by
  have hstaged := h.staged.ticks hticks
  cases hticks with
  | mk now fatal hfatal => exact ⟨hstaged, h.revoking, h.waited, h.final, h.quiet⟩

/-- A relay with a flight is not durably revoked. -/
theorem Relay.Inv.flying (h : relay.Inv codec layout config binding journal events) {flight : Flight}
    (hactive : relay.active = some flight) :
    relay.revoking ≠ some false ∧ relay.revocationDurable = false ∧ Event.revoked ∉ events := by
  have hcontra (hnone : relay.active = none) : False := by
    rw [hnone] at hactive
    cases hactive
  refine ⟨fun hwaited => hcontra (h.waited hwaited), ?_, fun hmem => hcontra (h.quiet hmem).2⟩
  cases hdurable : relay.revocationDurable with
  | false => rfl
  | true => exact (hcontra (h.final hdurable).2.1).elim

/-- The relay after a step of its flight. -/
theorem Relay.Inv.advance {next : Journal} {later : Relay} {since : List Event}
    (h : relay.Inv codec layout config binding journal events) {flight : Flight} (hactive : relay.active = some flight)
    (hrevoked : later.revoked = relay.revoked) (hdurable : later.revocationDurable = relay.revocationDurable)
    (hrevoking : later.revoking = relay.revoking) (hquiet : .revoked ∈ since → .revoked ∈ events)
    (hstaged : Staged codec layout config binding next since later later.active) :
    later.Inv codec layout config binding next since := by
  obtain ⟨hwaited, hopen, hevents⟩ := h.flying hactive
  refine ⟨hstaged, ?_, ?_, ?_, fun hmem => absurd (hquiet hmem) hevents⟩
  · rw [hrevoking, hrevoked]
    exact h.revoking
  · rw [hrevoking]
    exact fun hcontra => absurd hcontra hwaited
  · rw [hdurable, hopen]
    intro hcontra
    cases hcontra

/-- A flight that ends with an error leaves the relay failed. -/
theorem Relay.Inv.fails {next : Journal} (h : relay.Inv codec layout config binding journal events) {flight : Flight}
    (hactive : relay.active = some flight) (reason : RelayError) :
    (relay.finishFlight (some reason)).Inv codec layout config binding next events := by
  refine h.advance hactive rfl rfl rfl id (.failed ?_)
  show (relay.fatal.or (some reason)).isSome = true
  simp

/-- A call in the relay's name leaves the journal bound to it. -/
theorem bound_call (h : Lasting codec layout config (fun state _ => ∀ s ∈ state, s.binding = binding) journal)
    (request : Call) (hrequest : request.binding = binding) (syncs : Bool) (io : List Io) :
    Lasting codec layout config (fun state _ => ∀ s ∈ state, s.binding = binding)
      (journal.call codec layout config request syncs io).1 := by
  refine h.call request syncs io ?_
  intro opened state entries _ hbound hchange
  have hsome (record : StateRecord) (hrecord : record.binding = binding) : ∀ s ∈ some record, s.binding = binding := by
    intro s hs
    rw [Option.mem_some_iff] at hs
    rw [← hs]
    exact hrecord
  cases hchange with
  | nothing | completion => exact hbound
  | state _ record _ hbinding => exact hsome record (hbinding.trans hrequest)
  | marker _ _ record _ hbinding => exact hsome record (hbinding.trans hrequest)

/-- The records of a relay without a flight stay when it is revoked. -/
theorem Held.revoked {records : List EntryRecord} (h : Held codec layout config binding journal relay records [])
    (syncs : Bool) (io : List Io) :
    Held codec layout config binding (journal.call codec layout config (.revoke binding) syncs io).1 relay records
      [] := by
  have hbound := bound_call (h.lasting.mono fun _ _ both => both.2) (.revoke binding) rfl syncs io
  have hentries : Lasting codec layout config (fun _ entries => entries = records ++ [])
      (journal.call codec layout config (.revoke binding) syncs io).1 := by
    refine (h.lasting.mono fun _ _ both => both.1).call (.revoke binding) syncs io ?_
    rintro opened state entries - hopened hchange
    cases hchange with
    | nothing | state => exact hopened
  exact ⟨hentries.and hbound, h.completed, h.kept⟩

/-- The records after a call that returned success. -/
theorem Held.of_ok {later : Relay} {before rest records : List EntryRecord}
    (h : Held codec layout config binding journal relay before rest) {request : Call} {syncs : Bool} {io : List Io}
    (hrequest : request.binding = binding) (hdone : (journal.call codec layout config request syncs io).2 = .ok ())
    {rest' : List EntryRecord}
    (hentries : (journal.call codec layout config request syncs io).1.store.entries = records ++ rest')
    (hcompleted : ∀ record ∈ records, record.entry.completed = true)
    (hkept : later.entries = keptEntries (journaled records)) :
    Held codec layout config binding (journal.call codec layout config request syncs io).1 later records rest' := by
  have hbound := bound_call (h.lasting.mono fun _ _ both => both.2) request hrequest syncs io
  exact ⟨(Lasting.of_ok h.lasting.ok hdone (P := fun _ entries => entries = records ++ rest') hentries).and hbound,
    hcompleted, hkept⟩

/-! ## One more event -/

theorem calls_append {event : Event} (hrequest : event.request = none) : calls (events ++ [event]) = calls events := by
  simp [calls, hrequest]

theorem Staged.event {active : Option Flight} (h : Staged codec layout config binding journal events relay active)
    {event : Event} (hrequest : event.request = none) :
    Staged codec layout config binding journal (events ++ [event]) relay active := by
  have hcalls : calls (events ++ [event]) = calls events := calls_append hrequest
  cases h with
  | idle records hheld hanswered => exact .idle records hheld hanswered
  | failed hfatal => exact .failed hfatal
  | begin records dispatch hheld hnew => exact .begin records dispatch hheld hnew
  | call records dispatch hheld huncalled => exact .call records dispatch hheld (by rwa [hcalls])
  | called records dispatch hheld hcalled => exact .called records dispatch hheld (List.mem_append_left _ hcalled)
  | settle records dispatch completion hheld hsettled =>
    exact .settle records dispatch completion hheld
      ⟨hsettled.1, fun hcompleted => List.mem_append_left _ (hsettled.2 hcompleted)⟩
  | settled records dispatch completion hheld => exact .settled records dispatch completion hheld

theorem Relay.Inv.event (h : relay.Inv codec layout config binding journal events) {event : Event}
    (hrequest : event.request = none) (hquiet : event = .revoked → relay.revoked = true ∧ relay.active = none) :
    relay.Inv codec layout config binding journal (events ++ [event]) := by
  refine ⟨h.staged.event hrequest, h.revoking, h.waited, h.final, fun hmem => ?_⟩
  rcases List.mem_append.mp hmem with hmem | hmem
  · exact h.quiet hmem
  · rw [List.mem_singleton] at hmem
    exact hquiet hmem.symm

/-- A response or a revocation is seen. -/
theorem System.Inv.event {root : Root} (h : System.Inv codec layout config binding ⟨root, some relay, events⟩)
    {event : Event} (hrequest : event.request = none)
    (hrecorded : root.Holds codec layout config (event.Recorded binding))
    (hquiet : .revoked ∈ events → event = .revoked)
    (hfinal : event = .revoked → root.Final codec layout config ∧ relay.revoked = true ∧ relay.active = none) :
    System.Inv codec layout config binding ⟨root, some relay, events ++ [event]⟩ := by
  refine ⟨h.root.snoc hrecorded fun heq => (hfinal heq).1, ?_, Chain.everywhere_append.mpr ⟨h.quiet, hquiet⟩, ?_⟩
  · show (calls (events ++ [event])).Pairwise _
    rw [calls_append hrequest]
    exact h.ordered
  · intro other hmem
    obtain ⟨journal, hroot, hrelay⟩ := h.relay other hmem
    cases hmem
    exact ⟨journal, hroot, hrelay.event hrequest fun heq => (hfinal heq).2⟩

/-! ## The stages of a flight -/

/-- The last record of the journal has the next number. -/
theorem last_sequence {before rest records : List EntryRecord} {record : EntryRecord}
    (h : Held codec layout config binding journal relay before rest) (hlast : before ++ rest = records ++ [record]) :
    record.sequence = records.length + 1 := by
  have haccepted := h.lasting.ok.sound.accepted
  rw [h.memory.1, hlast] at haccepted
  exact haccepted.last.sequence

/-- Every call so far is of a recorded dispatch. -/
theorem called_recorded (h : RootInv codec layout config binding (.opened journal) events) {request : UpstreamRequest}
    (hmem : request ∈ calls events) : request.sequence ≤ journal.store.entries.length := by
  have hmemory := Lasting.memory h.recorded
  obtain ⟨record, hrecord, rfl⟩ := hmemory _ (mem_calls.mp hmem)
  have haccepted := h.recorded.ok.sound.accepted
  obtain ⟨i, hi⟩ := List.mem_iff_getElem?.mp hrecord
  have hnamed := (haccepted.get hi).named
  have hbound := (haccepted.mem_sequence hrecord).2.1
  show record.entry.dispatch.sequence ≤ _
  omega

theorem begin_inv (h : system.Inv codec layout config binding) (hroot : system.root = .opened journal)
    (hrelay : relay.Inv codec layout config binding journal system.events) {dispatch : DispatchRecord}
    (hactive : relay.active = some ⟨dispatch, .begin⟩) (operation : Operation) :
    (system.begin codec layout config binding journal relay dispatch operation).Inv codec layout config binding := by
  have hfiles := h.root
  rw [hroot] at hfiles
  have hran : Ran codec layout config operation journal (.begin binding dispatch)
      (operation.runCapped codec layout config binding journal (.begin binding dispatch)) := runCapped_cases
  have hnext := hran.root hfiles (fun _ _ hcontra => by cases hcontra)
  unfold System.begin
  generalize operation.runCapped codec layout config binding journal (.begin binding dispatch) = ran at hran hnext
  cases hran with
  | skipped | failed => exact ⟨hnext, h.ordered, h.quiet,
    fun _ hmem => by cases hmem; exact ⟨_, rfl, hrelay.fails hactive _⟩⟩
  | done hdone =>
    refine ⟨hnext, h.ordered, h.quiet, fun _ hmem => ?_⟩
    cases hmem
    refine ⟨_, rfl, hrelay.advance hactive rfl rfl rfl id ?_⟩
    have hstaged := hrelay.staged
    rw [hactive] at hstaged
    cases hstaged with
    | begin records _ hheld hnew =>
      obtain ⟨hentries, -⟩ := hheld.memory
      rw [List.append_nil] at hentries
      have hadded := begin_done hheld.lasting.ok (by rw [hentries, hnew]) hdone
      rw [hentries] at hadded
      refine .call records dispatch (hheld.of_ok rfl hdone hadded hheld.completed hheld.kept) ?_
      intro request hmem
      have hbound := called_recorded hfiles hmem
      rw [hentries] at hbound
      omega

theorem call_inv (h : system.Inv codec layout config binding) (hroot : system.root = .opened journal)
    (hrelay : relay.Inv codec layout config binding journal system.events) {dispatch : DispatchRecord}
    (hactive : relay.active = some ⟨dispatch, .call⟩) (now : Int) :
    (system.call binding relay dispatch now).Inv codec layout config binding := by
  unfold System.call
  split
  · exact ⟨h.root, h.ordered, h.quiet, fun _ hmem => by cases hmem; exact ⟨journal, hroot, hrelay.fails hactive _⟩⟩
  · rename_i ticked hticked
    obtain rfl := trustedNow_ok hticked
    have hticks : relay.Ticks { relay with lastNow := now } := .mk now relay.fatal id
    split
    · have hlater := hrelay.ticks hticks
      exact ⟨h.root, h.ordered, h.quiet, fun _ hmem => by cases hmem; exact ⟨journal, hroot, hlater.fails hactive _⟩⟩
    · obtain ⟨-, -, hopen⟩ := hrelay.flying hactive
      have hstaged := hrelay.staged
      rw [hactive] at hstaged
      cases hstaged with
      | call records _ hheld huncalled =>
        have hcalls : calls (system.events ++ [.called (upstreamRequest binding dispatch)]) =
            calls system.events ++ [upstreamRequest binding dispatch] := by
          simp [calls, Event.request]
        refine ⟨?_, ?_, ?_, fun _ hmem => ?_⟩
        · refine h.root.snoc ?_ (fun hcontra => by cases hcontra)
          rw [hroot]
          refine hheld.lasting.mono fun state entries both => ⟨marker dispatch, ?_, rfl⟩
          rw [both.1]
          exact List.mem_append_right _ List.mem_cons_self
        · rw [hcalls]
          refine List.pairwise_append.mpr ⟨h.ordered, List.pairwise_singleton _ _, fun request hmem next hnext => ?_⟩
          rw [List.mem_singleton] at hnext
          rw [hnext]
          exact huncalled request hmem
        · exact Chain.everywhere_append.mpr ⟨h.quiet, fun hmem => absurd hmem hopen⟩
        · cases hmem
          refine ⟨journal, hroot, hrelay.advance hactive rfl rfl rfl ?_
            (.called records dispatch (hheld.of_entries rfl) (List.mem_append_right _ List.mem_cons_self))⟩
          intro hmem
          rcases List.mem_append.mp hmem with hmem | hmem
          · exact hmem
          · cases hmem with
            | tail _ hmem => cases hmem

/-- An entry that is made of a provider's result. -/
theorem entryForResult_minted {dispatch : DispatchRecord} {result : UpstreamResult} {entry : JournalEntry}
    (h : entryForResult codec config.policy binding dispatch result = .ok entry) :
    ∃ completion, entry = ⟨dispatch, some completion⟩ ∧ entry.Minted codec config binding := by
  have hresult := h
  unfold entryForResult at h
  rw [ensure_bind_eq_ok_iff] at h
  obtain ⟨-, h⟩ := h
  split at h
  · cases h
  · rw [bind_eq_ok_iff] at h
    obtain ⟨response, -, h⟩ := h
    rw [ensure_bind_eq_ok_iff] at h
    cases h.2
    refine ⟨_, rfl, ?_⟩
    intro completion hcompletion
    cases hcompletion
    exact hresult

theorem receive_ticks (policy : InferencePolicy) (dispatch : DispatchRecord) (result : Option UpstreamResult)
    (now : Int)
    (late : Bool) : relay.Ticks (relay.receive codec policy binding dispatch result now late).1 := by
  unfold Relay.receive
  split
  · exact .refl relay
  · rename_i ticked hticked
    obtain rfl := trustedNow_ok hticked
    have hticks : relay.Ticks { relay with lastNow := now } := .mk now relay.fatal id
    split
    · exact hticks
    · split <;> exact hticks

theorem receive_ok {dispatch : DispatchRecord} {result : Option UpstreamResult} {now : Int} {late : Bool}
    {entry : JournalEntry} (h : (relay.receive codec config.policy binding dispatch result now late).2 = .ok entry) :
    ∃ completion, entry = ⟨dispatch, some completion⟩ ∧ entry.Minted codec config binding := by
  unfold Relay.receive at h
  split at h
  · cases h
  · split at h
    · cases h
    · split at h
      · cases h
      · exact entryForResult_minted h

theorem answer_inv (h : system.Inv codec layout config binding) (hroot : system.root = .opened journal)
    (hrelay : relay.Inv codec layout config binding journal system.events) {dispatch : DispatchRecord}
    (hactive : relay.active = some ⟨dispatch, .called⟩) (result : Option UpstreamResult) (now : Int) (late : Bool) :
    (system.answer codec config binding relay dispatch result now late).Inv codec layout config binding := by
  have hticks : relay.Ticks (relay.receive codec config.policy binding dispatch result now late).1 :=
    receive_ticks config.policy dispatch result now late
  unfold System.answer
  split
  · rename_i ticked entry hreceived
    rw [hreceived] at hticks
    obtain ⟨completion, rfl, hminted⟩ := receive_ok (congrArg Prod.snd hreceived)
    have hstaged := hrelay.staged.ticks hticks
    rw [hactive] at hstaged
    cases hticks with
    | mk clock fatal hfatal =>
      cases hstaged with
      | called records _ hheld hcalled =>
        refine ⟨h.root, h.ordered, h.quiet, fun _ hmem => ?_⟩
        cases hmem
        exact ⟨journal, hroot, hrelay.advance hactive rfl rfl rfl id
          (.settle records dispatch completion (hheld.of_entries rfl) ⟨hminted, fun _ => hcalled⟩)⟩
  · rename_i ticked reason hreceived
    rw [hreceived] at hticks
    have hlater := hrelay.ticks hticks
    cases hticks with
    | mk clock fatal hfatal =>
      exact ⟨h.root, h.ordered, h.quiet, fun _ hmem => by cases hmem; exact ⟨journal, hroot, hlater.fails hactive _⟩⟩

theorem settle_inv (h : system.Inv codec layout config binding) (hroot : system.root = .opened journal)
    (hrelay : relay.Inv codec layout config binding journal system.events) {dispatch : DispatchRecord}
    {entry : JournalEntry} (hactive : relay.active = some ⟨dispatch, .settle entry⟩) (operation : Operation) :
    (system.settle codec layout config binding journal relay dispatch entry operation).Inv codec layout config
      binding := by
  have hfiles := h.root
  rw [hroot] at hfiles
  have hstaged := hrelay.staged
  rw [hactive] at hstaged
  cases hstaged with
  | settle records _ completion hheld hsettled =>
    have hran : Ran codec layout config operation journal (.complete binding ⟨dispatch, some completion⟩)
        (operation.runCapped codec layout config binding journal (.complete binding ⟨dispatch, some completion⟩)) :=
          runCapped_cases
    have hnext := hran.root hfiles (fun _ _ heq => by cases heq; exact hsettled)
    unfold System.settle
    generalize operation.runCapped codec layout config binding journal (.complete binding _) = ran at hran hnext
    cases hran with
    | skipped | failed =>
      exact ⟨hnext, h.ordered, h.quiet, fun _ hmem => by cases hmem; exact ⟨_, rfl, hrelay.fails hactive _⟩⟩
    | done hdone =>
      refine ⟨hnext, h.ordered, h.quiet, fun _ hmem => ?_⟩
      cases hmem
      have hentries := complete_done hheld.lasting.ok hheld.memory.1 hdone
      refine ⟨_, rfl, hrelay.advance hactive rfl rfl rfl id (.settled records dispatch completion ?_)⟩
      refine hheld.of_ok rfl hdone (by rw [hentries, List.append_nil]) ?_ ?_
      · intro record hmem
        rcases List.mem_append.mp hmem with hmem | hmem
        · exact hheld.completed record hmem
        · rw [List.mem_singleton] at hmem
          rw [hmem]
          rfl
      · show keepEntry relay.entries _ = _
        rw [hheld.kept, keepEntry_kept, journaled, journaled, List.map_append]
        rfl

/-- The outcome of a record in the journal is one of the three. -/
theorem outcome_cases {records : List EntryRecord} {record : EntryRecord}
    (h : Held codec layout config binding journal relay records []) (hmem : record ∈ records) {completion : Completion}
    (hcompletion : record.entry.completion = some completion) :
    completion.receipt.outcome = .complete ∨ completion.receipt.outcome = .freeRetry ∨
      completion.receipt.outcome = .providerFailed := by
  have haccepted := h.lasting.ok.sound.accepted
  have hentries := h.memory.1
  rw [List.append_nil] at hentries
  rw [hentries] at haccepted
  obtain ⟨i, hi⟩ := List.mem_iff_getElem?.mp hmem
  have hvalid := ((haccepted.get hi).completion (by rw [JournalEntry.completed, hcompletion]; rfl)).1
  unfold validateCompletedEntry at hvalid
  rw [hcompletion] at hvalid
  have hresponses := hvalid.2.2.2.2.2.2.2.2.2.2.2.2.2.2.2.2.2.2.2.2.2.2.2
  unfold responsesOk at hresponses
  cases houtcome : completion.receipt.outcome with
  | complete => exact .inl rfl
  | freeRetry => exact .inr (.inl rfl)
  | providerFailed => exact .inr (.inr rfl)
  | other =>
    rw [houtcome] at hresponses
    cases hresponses

theorem finish_inv (h : system.Inv codec layout config binding) (hroot : system.root = .opened journal)
    (hrelay : relay.Inv codec layout config binding journal system.events) {dispatch : DispatchRecord}
    {other : DispatchRecord} {completion : Completion}
    (hactive : relay.active = some ⟨dispatch, .settled ⟨other, some completion⟩⟩) (now : Int) :
    (system.finish codec config binding relay dispatch completion now).Inv codec layout config binding := by
  have hfails (later : Relay) (hticks : relay.Ticks later) (reason : RelayError) :
      { system with relay := some (later.finishFlight (some reason)) }.Inv codec layout config binding := by
    refine ⟨h.root, h.ordered, h.quiet, fun _ hmem => ?_⟩
    cases hmem
    have hlater := hrelay.ticks hticks
    cases hticks with
    | mk => exact ⟨journal, hroot, hlater.fails hactive _⟩
  have hstaged := hrelay.staged
  rw [hactive] at hstaged
  cases hstaged with
  | settled records _ _ hheld =>
    unfold System.finish
    split
    · split
      · exact hfails relay (.refl relay) _
      · rename_i ticked hticked
        obtain rfl := trustedNow_ok hticked
        split
        · exact hfails _ (.mk now relay.fatal id) _
        · refine ⟨h.root, h.ordered, h.quiet, fun _ hmem => ?_⟩
          cases hmem
          refine ⟨journal, hroot, hrelay.advance hactive rfl rfl rfl id (.begin _ _ (hheld.of_entries rfl) ?_)⟩
          have hsequence := last_sequence hheld (List.append_nil _)
          rw [List.length_append, List.length_singleton, ← hsequence]
          rfl
    · rename_i hretry
      split
      · exact hfails relay (.refl relay) _
      · rename_i found hfound
        rw [hheld.kept, evidence_kept] at hfound
        obtain ⟨-, -, hopen⟩ := hrelay.flying hactive
        have hanswered : Answered codec config binding
            (records ++ [⟨2, dispatch.sequence, ⟨dispatch, some completion⟩⟩]) := by
          refine fun _ => ⟨⟨found, hfound⟩, ?_⟩
          intro last hlast other hother
          rw [List.getLast?_concat, Option.mem_some_iff] at hlast
          subst hlast
          cases hother
          exact hretry
        have hfinished : System.Inv codec layout config binding
            ⟨system.root, some (relay.finishFlight none), system.events⟩ := by
          refine ⟨h.root, h.ordered, h.quiet, fun _ hmem => ?_⟩
          cases hmem
          exact ⟨journal, hroot, hrelay.advance hactive rfl rfl rfl id (.idle _ (hheld.of_entries rfl) hanswered)⟩
        split
        · exact hfinished
        · rename_i hfailed
          have houtcome : completion.receipt.outcome = .complete := by
            rcases outcome_cases hheld (List.mem_append_right _ List.mem_cons_self) rfl with h | h | h
            · exact h
            · exact absurd h hretry
            · exact absurd h hfailed
          refine hfinished.event rfl ?_ (fun hmem => absurd hmem hopen) (fun hcontra => by cases hcontra)
          rw [hroot]
          refine hheld.lasting.mono fun state entries both => ?_
          refine ⟨⟨2, dispatch.sequence, ⟨dispatch, some completion⟩⟩, ?_, completion, rfl, rfl, rfl, houtcome, rfl⟩
          rw [both.1, List.append_nil]
          exact List.mem_append_right _ List.mem_cons_self

/-! ## Admission and revocation -/

theorem complete_inv (h : system.Inv codec layout config binding) (hroot : system.root = .opened journal)
    (hrelay : relay.Inv codec layout config binding journal system.events) (request : InferenceMinerRequest) (now : Int)
    (requestID : String) :
    (system.complete codec config binding relay request now requestID).Inv codec layout config binding := by
  unfold System.complete
  split
  · exact h
  · rename_i minerSHA256 hminer
    have hadmitted := admit_cases codec config.policy binding relay request minerSHA256 now requestID
    generalize relay.admit codec config.policy binding request minerSHA256 now requestID = admitted at hadmitted
    have hticked (later : Relay) (hticks : relay.Ticks later) :
        System.Inv codec layout config binding ⟨system.root, some later, system.events⟩ := by
      refine ⟨h.root, h.ordered, h.quiet, fun _ hmem => ?_⟩
      cases hmem
      exact ⟨journal, hroot, hrelay.ticks hticks⟩
    cases hadmitted with
    | refused later reason hticks => exact hticked later hticks
    | waits later hticks => exact hticked later hticks
    | replayed later last completion hticks hopen hidle hfatal hlast hcompletion houtcome hsame =>
      have hunrevoked : Event.revoked ∉ system.events := by
        intro hmem
        rw [(hrelay.quiet hmem).1] at hopen
        cases hopen
      refine (hticked later hticks).event rfl ?_ (fun hmem => absurd hmem hunrevoked) (fun hcontra => by cases hcontra)
      have hstaged := hrelay.staged
      rw [hidle] at hstaged
      cases hstaged with
      | failed hfailed =>
        rw [hfatal] at hfailed
        cases hfailed
      | idle records hheld hanswered =>
        rw [hroot]
        rw [hheld.kept, getLast?_keptEntries] at hlast
        obtain ⟨entry, hentry, rfl⟩ := Option.map_eq_some_iff.mp hlast
        obtain ⟨original, horiginal, rfl⟩ := Option.map_eq_some_iff.mp hcompletion
        obtain ⟨record, hrecord, rfl⟩ := List.mem_map.mp (List.mem_of_getLast? hentry)
        refine hheld.lasting.mono fun state entries both => ⟨record, ?_, original, horiginal, rfl, hsame, houtcome, rfl⟩
        rw [both.1, List.append_nil]
        exact hrecord
    | launched clock dispatch hopen hidle hfatal hnew =>
      refine ⟨h.root, h.ordered, h.quiet, fun _ hmem => ?_⟩
      cases hmem
      have hunrevoked : Event.revoked ∉ system.events := by
        intro hmem
        rw [(hrelay.quiet hmem).1] at hopen
        cases hopen
      have hstaged := hrelay.staged
      rw [hidle] at hstaged
      cases hstaged with
      | failed hfailed =>
        rw [hfatal] at hfailed
        cases hfailed
      | idle records hheld hanswered =>
        refine ⟨journal, hroot, .begin records dispatch (hheld.of_entries rfl) ?_, hrelay.revoking, ?_, ?_,
          fun hmem => absurd hmem hunrevoked⟩
        · rw [hnew, hheld.kept, length_keptEntries, journaled, List.length_map]
        · intro hwaited
          have := hrelay.revoking (by change relay.revoking = _ at hwaited; rw [hwaited]; rfl)
          rw [hopen] at this
          cases this
        · intro hdurable
          have := (hrelay.final hdurable).1
          rw [hopen] at this
          cases this

theorem revoke_inv (h : system.Inv codec layout config binding) (hroot : system.root = .opened journal)
    (hrelay : relay.Inv codec layout config binding journal system.events) :
    (system.revoke relay).Inv codec layout config binding := by
  unfold System.revoke
  split
  · rename_i hdurable
    obtain ⟨hrevoked, hidle, hfinal⟩ := hrelay.final hdurable
    have hclosed : System.Inv codec layout config binding
        ⟨system.root, some { relay with revoked := true }, system.events⟩ := by
      refine ⟨h.root, h.ordered, h.quiet, fun _ hmem => ?_⟩
      cases hmem
      have hsame : { relay with revoked := true } = relay := by rw [← hrevoked]
      rw [hsame]
      exact ⟨journal, hroot, hrelay⟩
    rw [← hroot] at hfinal
    refine hclosed.event rfl ?_ (fun _ => rfl) fun _ => ⟨hfinal, rfl, hidle⟩
    obtain ⟨state, entries, hrevoked, hholds⟩ := hfinal
    exact Root.Holds.mono hholds fun s e both => ⟨state, both.1, hrevoked⟩
  · rename_i hopen
    rw [Bool.not_eq_true] at hopen
    refine ⟨h.root, h.ordered, h.quiet, fun _ hmem => ?_⟩
    cases hmem
    refine ⟨journal, hroot, ?_, fun _ => rfl, ?_, ?_, fun hmem => ⟨rfl, (hrelay.quiet hmem).2⟩⟩
    · exact hrelay.staged.of_entries rfl id
    · intro hwaited
      exact Option.not_isSome_iff_eq_none.mp (by rw [Option.some.inj hwaited]; exact Bool.false_ne_true)
    · intro hdurable
      change relay.revocationDurable = true at hdurable
      rw [hopen] at hdurable
      cases hdurable

/-- A revocation reaches the journal when no flight is left. -/
theorem persist_inv (h : system.Inv codec layout config binding) (hroot : system.root = .opened journal)
    (hrelay : relay.Inv codec layout config binding journal system.events) (hrevoking : relay.revoking.isSome = true)
    (hidle : relay.active = none) (operation : Operation) :
    (system.persist codec layout config binding journal relay operation).Inv codec layout config binding := by
  have hfiles := h.root
  rw [hroot] at hfiles
  have hran : Ran codec layout config operation journal (.revoke binding)
      (operation.run codec layout config journal (.revoke binding)) := run_cases
  have hnext := hran.root hfiles (fun _ _ hcontra => by cases hcontra)
  have hrevoked := hrelay.revoking hrevoking
  unfold System.persist
  generalize operation.run codec layout config journal (.revoke binding) = ran at hran hnext
  -- The entries do not move, so the relay stands to the journal after the call as it stood before.
  have hstaged : Staged codec layout config binding ran.1 system.events relay none := by
    have hbefore := hrelay.staged
    rw [hidle] at hbefore
    cases hbefore with
    | failed hfatal => exact .failed hfatal
    | idle records hheld hanswered =>
      cases hran with
      | skipped => exact .idle records hheld hanswered
      | failed | done => exact .idle records (hheld.revoked _ _) hanswered
  have hlater (durable : Bool) (hdurable : durable = true → (Root.opened ran.1).Final codec layout config) :
      System.Inv codec layout config binding
        ⟨.opened ran.1, some { relay with revocationDurable := durable, revoking := none }, system.events⟩ := by
    refine ⟨hnext, h.ordered, h.quiet, fun _ hmem => ?_⟩
    cases hmem
    refine ⟨ran.1, rfl, ?_, (fun hcontra => by cases hcontra), (fun hcontra => by cases hcontra),
      fun htrue => ⟨hrevoked, hidle, hdurable htrue⟩, fun _ => ⟨hrevoked, hidle⟩⟩
    show Staged _ _ _ _ _ _ _ relay.active
    rw [hidle]
    exact hstaged.of_entries rfl id
  cases hran with
  | skipped => exact hlater relay.revocationDurable fun hdurable => (hrelay.final hdurable).2.2
  | failed => exact hlater relay.revocationDurable fun hdurable => final_call (hrelay.final hdurable).2.2 _ _ _
  | done hdone =>
    obtain ⟨state, hstate, hclosed⟩ := revoke_done hfiles.recorded.ok hdone
    have hfinal : (Root.opened (journal.call codec layout config (.revoke binding) operation.syncs
        operation.io).1).Final
        codec layout config :=
      ⟨state, _, hclosed, Lasting.of_ok hfiles.recorded.ok hdone
        (P := fun s entries => s = some state ∧ entries =
          (journal.call codec layout config (.revoke binding) operation.syncs operation.io).1.store.entries)
            ⟨hstate, rfl⟩⟩
    refine (hlater true fun _ => hfinal).event rfl ?_ (fun _ => rfl) fun _ => ⟨hfinal, hrevoked, hidle⟩
    obtain ⟨state, entries, hclosed, hholds⟩ := hfinal
    exact Root.Holds.mono hholds fun s e both => ⟨state, both.1, hclosed⟩

/-! ## Restarts -/

/-- The relay that is restored after a load holds all the records. -/
theorem restored_inv (hok : journal.Ok codec layout config)
    (hroot : RootInv codec layout config binding (.opened journal) events) (hclean : journal.store.syncPending = false)
    {now : Int} {restart : Relay} (h : restore codec config.policy binding journal.store now = .ok restart) :
    restart.Inv codec layout config binding journal events := by
  obtain ⟨hbinding, -, hrestorable, hanswered, rfl⟩ := restore_eq_ok_iff.mp h
  have hheld : Held codec layout config binding journal
      (restored (journaled journal.store.entries) ((journal.store.state.map StateRecord.revoked).getD false) now)
      journal.store.entries [] := by
    refine ⟨Lasting.of_clean hok hclean ⟨(List.append_nil _).symm, hbinding⟩, fun record hmem => ?_, rfl⟩
    exact hrestorable.completed (List.mem_map_of_mem hmem)
  have hrevoked {record : StateRecord} (hrecord : journal.store.state = some record) (htrue : record.revoked = true) :
      (journal.store.state.map StateRecord.revoked).getD false = true := by
    rw [hrecord]
    exact htrue
  refine ⟨.idle _ hheld hanswered, (fun hcontra => by cases hcontra), (fun hcontra => by cases hcontra),
    fun hdurable => ⟨hdurable, rfl, ?_⟩, fun hmem => ⟨?_, rfl⟩⟩
  · change (journal.store.state.map StateRecord.revoked).getD false = true at hdurable
    cases hstate : journal.store.state with
    | none =>
      rw [hstate] at hdurable
      cases hdurable
    | some record =>
      rw [hstate] at hdurable
      exact ⟨record, _, hdurable, Lasting.of_clean hok hclean ⟨hstate, rfl⟩⟩
  · obtain ⟨record, entries, htrue, hholds⟩ := hroot.final hmem
    exact hrevoked (Lasting.memory hholds).1 htrue

theorem start_inv (h : system.Inv codec layout config binding) (hroot : system.root = .opened journal)
    (hidle : system.relay = none) (now : Int) (operation : Operation) :
    (system.start codec layout config binding journal now operation).Inv codec layout config binding := by
  have hfiles := h.root
  rw [hroot] at hfiles
  have hran : Ran codec layout config operation journal (.load binding)
      (operation.run codec layout config journal (.load binding)) := run_cases
  have hnext := hran.root hfiles (fun _ _ hcontra => by cases hcontra)
  unfold System.start
  generalize operation.run codec layout config journal (.load binding) = ran at hran hnext
  have hwithout : System.Inv codec layout config binding { system with root := .opened ran.1 } := by
    refine ⟨hnext, h.ordered, h.quiet, fun relay hmem => ?_⟩
    change relay ∈ system.relay at hmem
    rw [hidle] at hmem
    cases hmem
  split
  · cases hran with
    | skipped | failed => exact hwithout
    | done hdone =>
      dsimp only
      split
      · exact hwithout
      · split
        · rename_i restart hrestart
          refine ⟨hnext, h.ordered, h.quiet, fun _ hmem => ?_⟩
          cases hmem
          exact ⟨_, rfl, restored_inv hnext.recorded.ok hnext (clean_of_ok hfiles.recorded.ok hdone) hrestart⟩
        · exact hwithout
  · exact h

/-! ## Every input -/

theorem live_inv (h : system.Inv codec layout config binding) (hroot : system.root = .opened journal)
    (hlive : system.relay = some relay) (input : Input) :
    (system.live codec layout config binding journal relay input).Inv codec layout config binding := by
  have hrelay : relay.Inv codec layout config binding journal system.events := by
    obtain ⟨other, hother, hinv⟩ := h.relay relay hlive
    rw [hroot] at hother
    cases hother
    exact hinv
  cases input with
  | complete request now requestID => exact complete_inv h hroot hrelay request now requestID
  | begin operation =>
    simp only [System.live]
    split
    · rename_i hactive
      exact begin_inv h hroot hrelay hactive operation
    · exact h
  | call now =>
    simp only [System.live]
    split
    · rename_i hactive
      exact call_inv h hroot hrelay hactive now
    · exact h
  | answer result now late =>
    simp only [System.live]
    split
    · rename_i hactive
      exact answer_inv h hroot hrelay hactive result now late
    · exact h
  | settle operation =>
    simp only [System.live]
    split
    · rename_i hactive
      exact settle_inv h hroot hrelay hactive operation
    · exact h
  | finish now =>
    simp only [System.live]
    split
    · rename_i hactive
      exact finish_inv h hroot hrelay hactive now
    · exact h
  | revoke =>
    simp only [System.live]
    split
    · exact h
    · exact revoke_inv h hroot hrelay
  | persist operation =>
    simp only [System.live]
    split
    · rename_i hwaited
      exact persist_inv h hroot hrelay (by rw [hwaited]; rfl) (hrelay.waited hwaited) operation
    · rename_i hwaits hidle
      exact persist_inv h hroot hrelay (by rw [hwaits]; rfl) hidle operation
    · exact h
  | abandon =>
    refine ⟨h.root, h.ordered, h.quiet, fun _ hmem => ?_⟩
    cases hmem
    exact ⟨journal, hroot, hrelay.staged.of_entries rfl id, (fun hcontra => by cases hcontra),
      (fun hcontra => by cases hcontra), hrelay.final, hrelay.quiet⟩
  | gateway request operation => exact h
  | start now operation => exact h
  | crash kept =>
    have hfiles := h.root
    rw [hroot] at hfiles
    exact ⟨hfiles.map fun P hholds => holds_crashed hholds kept, h.ordered, h.quiet, fun _ hmem => by cases hmem⟩

theorem idle_inv (h : system.Inv codec layout config binding) (hroot : system.root = .opened journal)
    (hidle : system.relay = none) (input : Input) :
    (system.idle codec layout config binding journal input).Inv codec layout config binding := by
  have hfiles := h.root
  rw [hroot] at hfiles
  have hroots (root : Root) (hlater : RootInv codec layout config binding root system.events) :
      { system with root := root }.Inv codec layout config binding := by
    refine ⟨hlater, h.ordered, h.quiet, fun relay hmem => ?_⟩
    change relay ∈ system.relay at hmem
    rw [hidle] at hmem
    cases hmem
  cases input with
  | gateway request operation =>
    simp only [System.idle]
    split
    · rename_i hgateway
      have hran : Ran codec layout config operation journal request
          (operation.run codec layout config journal request) := run_cases
      refine hroots _ (hran.root hfiles fun other entry heq => ?_)
      rw [heq] at hgateway
      cases hgateway
    · exact h
  | start now operation => exact start_inv h hroot hidle now operation
  | crash kept => exact hroots _ (hfiles.map fun P hholds => holds_crashed hholds kept)
  | complete | begin | call | answer | settle | finish | revoke | persist | abandon => exact h

theorem step_inv (h : system.Inv codec layout config binding) (input : Input) :
    (system.step codec layout config binding input).Inv codec layout config binding := by
  unfold System.step
  split
  · rename_i journal relay hroot hrelay
    exact live_inv h hroot hrelay input
  · rename_i journal hroot hrelay
    exact idle_inv h hroot hrelay input
  · rename_i disk hroot
    split
    · unfold System.reopen
      split
      · rename_i store hrecover
        have hfiles := h.root
        rw [hroot] at hfiles
        refine ⟨hfiles.map fun P hholds => holds_reopened hholds hrecover, h.ordered, h.quiet, fun relay hmem => ?_⟩
        obtain ⟨journal, hjournal, -⟩ := h.relay relay hmem
        rw [hroot] at hjournal
        cases hjournal
      · exact h
    · exact h

theorem initial_inv : System.initial.Inv codec layout config binding := by
  have hholds {P : Option StateRecord → List EntryRecord → Prop} (hP : P none []) :
      (Root.opened Journal.fresh).Holds codec layout config P := ⟨fresh_ok, hP, hP⟩
  refine ⟨⟨hholds ?_, hholds ?_, fun hmem => by cases hmem⟩, .nil, Chain.everywhere_nil,
    fun relay hmem => by cases hmem⟩
  · intro event hmem
    cases hmem
  · intro record hmem
    cases hmem

/-- The system after a run of inputs on an empty root. -/
def System.after (codec : Codec) (layout : Layout) (config : JournalConfig) (binding : Binding) (inputs : List Input) :
    System := run (System.step codec layout config binding) System.initial inputs

theorem after_inv (inputs : List Input) :
    (System.after codec layout config binding inputs).Inv codec layout config binding :=
  run_inv (P := System.Inv codec layout config binding) (fun _ input h => step_inv h input) inputs
    initial_inv

end Steps

/-! ## Provider calls and responses -/

/-- The sets of files that a crash may leave. -/
def Root.disks : Root → List Disk
  | .opened journal => [journal.visible, journal.durable]
  | .closed disk => [disk]

/-- An earlier attempt: of an earlier request, or of the same one. -/
def UpstreamRequest.Before (request later : UpstreamRequest) : Prop :=
  request.requestSequence < later.requestSequence ∨
    request.requestSequence = later.requestSequence ∧ request.attempt < later.attempt

section Safety

variable {codec : Codec} {layout : Layout} {config : JournalConfig} {binding : Binding}

theorem Root.Holds.disk {P : Option StateRecord → List EntryRecord → Prop} {root : Root}
    (h : root.Holds codec layout config P) {disk : Disk} (hdisk : disk ∈ root.disks) :
    P disk.state disk.records ∧ ∃ store : Store, store.Sound codec layout config ∧ disk = store.image := by
  cases root with
  | opened journal =>
    have hcases : disk = journal.visible ∨ disk = journal.durable := by
      simpa [Root.disks] using hdisk
    refine ⟨?_, (Lasting.ok h).crashed hcases⟩
    rcases hcases with rfl | rfl
    · exact Lasting.visible h
    · exact Lasting.durable h
  | closed other =>
    rw [Root.disks, List.mem_singleton] at hdisk
    rw [hdisk]
    exact ⟨h.2, h.1⟩

theorem Root.exists_disk (root : Root) : ∃ disk, disk ∈ root.disks := by
  cases root with
  | opened journal => exact ⟨_, List.mem_cons_self⟩
  | closed disk => exact ⟨_, List.mem_cons_self⟩

/-- The records of a set of files are an accepted journal. -/
theorem disk_accepted {system : System} (h : system.Inv codec layout config binding) {disk : Disk}
    (hdisk : disk ∈ system.root.disks) : ∃ bound, Accepted codec layout config bound disk.records := by
  obtain ⟨-, store, hsound, rfl⟩ := Root.Holds.disk h.root.recorded hdisk
  rw [image_records]
  exact ⟨_, hsound.accepted⟩

theorem named_dispatch {bound : Binding} {entries : List EntryRecord} (h : Accepted codec layout config bound entries)
    {record : EntryRecord} (hmem : record ∈ entries) : record.entry.dispatch.sequence = record.sequence := by
  obtain ⟨i, hi⟩ := List.mem_iff_getElem?.mp hmem
  exact (h.get hi).named

/-- Two calls of a run, by what each set of files has of them. -/
theorem calls_before {system : System} (h : system.Inv codec layout config binding) {request later : UpstreamRequest}
    (hrequest : request ∈ calls system.events) (hlater : later ∈ calls system.events)
    (hlt : request.sequence < later.sequence) {disk : Disk} (hdisk : disk ∈ system.root.disks) :
    request.Before later ∧ ∃ record ∈ disk.records, record.entry.completed = true ∧
      request = upstreamRequest binding record.entry.dispatch := by
  obtain ⟨bound, haccepted⟩ := disk_accepted h hdisk
  have hall := (Root.Holds.disk h.root.recorded hdisk).1
  obtain ⟨record, hrecord, rfl⟩ := hall _ (mem_calls.mp hrequest)
  obtain ⟨next, hnext, rfl⟩ := hall _ (mem_calls.mp hlater)
  change record.entry.dispatch.sequence < next.entry.dispatch.sequence at hlt
  rw [named_dispatch haccepted hrecord, named_dispatch haccepted hnext] at hlt
  obtain ⟨hprecedes, hcompleted⟩ := haccepted.before hrecord hnext hlt
  refine ⟨?_, record, hrecord, hcompleted, rfl⟩
  rcases hprecedes with hrequests | ⟨hrequests, hattempts, -⟩
  · exact .inl hrequests
  · exact .inr ⟨hrequests, hattempts⟩

/-- Over all inputs, crashes and restarts, the provider is called at most once for an attempt, attempts are called in
their order, the files hold the dispatch of each call and the settlement of every call but the last, and no other
settlements. -/
theorem provider_called_once (inputs : List Input) :
    (calls (System.after codec layout config binding inputs).events).Pairwise UpstreamRequest.Before ∧
    ∀ disk ∈ (System.after codec layout config binding inputs).root.disks,
      (∀ request ∈ calls (System.after codec layout config binding inputs).events,
        ∃ record ∈ disk.records, request = upstreamRequest binding record.entry.dispatch) ∧
      (∀ record ∈ disk.records, record.entry.completed = true →
        upstreamRequest binding record.entry.dispatch ∈
          calls (System.after codec layout config binding inputs).events) ∧
      (calls (System.after codec layout config binding inputs).events).Pairwise fun request _ =>
        ∃ record ∈ disk.records, record.entry.completed = true ∧
          request = upstreamRequest binding record.entry.dispatch := by
  have h : (System.after codec layout config binding inputs).Inv codec layout config binding := after_inv inputs
  obtain ⟨anyDisk, hany⟩ := Root.exists_disk (System.after codec layout config binding inputs).root
  refine ⟨?_, fun disk hdisk => ⟨fun request hmem => ?_, fun record hmem hcompleted => ?_, ?_⟩⟩
  · exact h.ordered.imp_of_mem fun hrequest hlater hlt => (calls_before h hrequest hlater hlt hany).1
  · exact (Root.Holds.disk h.root.recorded hdisk).1 _ (mem_calls.mp hmem)
  · exact mem_calls.mpr (((Root.Holds.disk h.root.settled hdisk).1 record hmem).2 hcompleted)
  · exact h.ordered.imp_of_mem fun hrequest hlater hlt => (calls_before h hrequest hlater hlt hdisk).2

/-- Over all inputs, crashes and restarts, a response is the one of a settlement that is in the files, and every
response to a request is the same. -/
theorem responses_settled (inputs : List Input) :
    (∀ disk ∈ (System.after codec layout config binding inputs).root.disks, ∀ requestSequence minerSHA256 response,
      .responded requestSequence minerSHA256 response ∈ (System.after codec layout config binding inputs).events →
      ∃ record ∈ disk.records, ∃ completion ∈ record.entry.completion,
        record.entry.dispatch.requestSequence = requestSequence ∧
        record.entry.dispatch.minerRequestSHA256 = minerSHA256 ∧ completion.receipt.outcome = .complete ∧
        completion.minerResponse = response) ∧
    ∀ requestSequence minerSHA256 response otherSHA256 other,
      .responded requestSequence minerSHA256 response ∈ (System.after codec layout config binding inputs).events →
      .responded requestSequence otherSHA256 other ∈ (System.after codec layout config binding inputs).events →
      otherSHA256 = minerSHA256 ∧ other = response := by
  have h : (System.after codec layout config binding inputs).Inv codec layout config binding := after_inv inputs
  refine ⟨fun disk hdisk _ _ _ hresponse => (Root.Holds.disk h.root.recorded hdisk).1 _ hresponse, ?_⟩
  intro requestSequence minerSHA256 response otherSHA256 other hresponse hother
  obtain ⟨disk, hdisk⟩ := Root.exists_disk (System.after codec layout config binding inputs).root
  obtain ⟨bound, haccepted⟩ := disk_accepted h hdisk
  have hall := (Root.Holds.disk h.root.recorded hdisk).1
  obtain ⟨record, hrecord, completion, hcompletion, hnumber, rfl, houtcome, rfl⟩ := hall _ hresponse
  obtain ⟨again, hagain, completion', hcompletion', hnumber', rfl, houtcome', rfl⟩ := hall _ hother
  -- Two answered records of one request are the same record: an answered one lies before later requests only.
  have hcontra {first second : EntryRecord} (hfirst : first ∈ disk.records) (hsecond : second ∈ disk.records)
      (hlt : first.sequence < second.sequence) (hanswered : first.answered)
      (hsame : first.entry.dispatch.requestSequence = second.entry.dispatch.requestSequence) : False := by
    rcases (haccepted.before hfirst hsecond hlt).1 with hrequests | ⟨-, -, hopen⟩
    · omega
    · exact hopen hanswered
  have hsequence : record.sequence = again.sequence := by
    rcases Nat.lt_trichotomy record.sequence again.sequence with hlt | heq | hlt
    · exact (hcontra hrecord hagain hlt ⟨completion, hcompletion, houtcome⟩ (by omega)).elim
    · exact heq
    · exact (hcontra hagain hrecord hlt ⟨completion', hcompletion', houtcome'⟩ (by omega)).elim
  have hposition := (haccepted.mem_sequence hrecord).2.2
  have hposition' := (haccepted.mem_sequence hagain).2.2
  rw [hsequence, hposition'] at hposition
  cases hposition
  rw [Option.mem_def.mp hcompletion] at hcompletion'
  cases hcompletion'
  exact ⟨rfl, rfl⟩

end Safety

end DittoSubnet.Coding

import DittoSubnet.Coding.JournalGrowth
import DittoSubnet.Coding.Relay

/-!
# What the relay and its journal always hold

The invariant of a system (`System.Inv`) says what every call, response and revocation seen so far left in the record
files (`Event.Recorded`), and, for a live relay, how its memory stands to the records at the stage its flight has
reached (`Staged`). One lemma for each input shows that a step keeps it (`step_inv`).
-/

namespace DittoSubnet.Coding

open Kit

/-! ## Entries in memory and on disk -/

/-- Only the last entry keeps its response. -/
theorem keptEntries_append (front : List JournalEntry) (last : JournalEntry) :
    keptEntries (front ++ [last]) = front.map (compactEntry · false) ++ [compactEntry last true] := by
  unfold keptEntries
  rw [List.zipIdx_append, List.map_append]
  congr 1
  · calc front.zipIdx.map (fun indexed => compactEntry indexed.1 (indexed.2 + 1 == (front ++ [last]).length))
        = front.zipIdx.map (fun indexed => compactEntry indexed.1 false) := by
          refine List.map_congr_left fun indexed hmem => ?_
          have hlt : indexed.2 < front.length := List.snd_lt_of_mem_zipIdx hmem
          have hne : (indexed.2 + 1 == (front ++ [last]).length) = false := by
            rw [beq_eq_false_iff_ne, List.length_append, List.length_singleton]
            omega
          rw [hne]
      _ = (front.zipIdx.map Prod.fst).map (compactEntry · false) := by rw [List.map_map]; rfl
      _ = front.map (compactEntry · false) := by rw [List.zipIdx_map_fst]
  · simp

theorem silenced_compact (entry : JournalEntry) : (compactEntry entry true).silenced = compactEntry entry false := by
  unfold JournalEntry.silenced compactEntry
  cases entry.completion <;> rfl

/-- The entries in memory after one more are those of the longer journal. -/
theorem keepEntry_kept (entries : List JournalEntry) (entry : JournalEntry) :
    keepEntry (keptEntries entries) entry = keptEntries (entries ++ [entry]) := by
  rw [keptEntries_append]
  unfold keepEntry
  congr 1
  induction entries using List.reverseRecOn with
  | nil => rfl
  | append_singleton front last _ =>
    rw [keptEntries_append, List.modifyLast_concat, silenced_compact, List.map_append]
    rfl

@[simp] theorem length_keptEntries (entries : List JournalEntry) : (keptEntries entries).length = entries.length := by
  simp [keptEntries]

theorem getLast?_keptEntries (entries : List JournalEntry) :
    (keptEntries entries).getLast? = entries.getLast?.map (compactEntry · true) := by
  induction entries using List.reverseRecOn with
  | nil => rfl
  | append_singleton front last _ => simp [keptEntries_append]

/-- Two entries with the same request number, receipt and settlement. -/
def SameEvidence (entry other : JournalEntry) : Prop :=
  entry.dispatch.requestSequence = other.dispatch.requestSequence ∧
    entry.completion.map (fun completion => (completion.receipt, completion.settlement)) =
      other.completion.map fun completion => (completion.receipt, completion.settlement)

theorem sameEvidence_compact (entry : JournalEntry) (keep : Bool) : SameEvidence (compactEntry entry keep) entry := by
  refine ⟨rfl, ?_⟩
  unfold compactEntry
  cases entry.completion <;> rfl

theorem accounting_same {entry other : JournalEntry} (h : SameEvidence entry other) (account : RelayAccounting) :
    account.entry entry = account.entry other := by
  obtain ⟨hrequest, hcompletion⟩ := h
  have htokens : ∀ f : InferenceReceipt → Nat, (entry.completion.map (f ·.receipt)).getD 0 =
      (other.completion.map (f ·.receipt)).getD 0 := by
    intro f
    have := congrArg (Option.map fun both => f both.1) hcompletion
    rw [Option.map_map, Option.map_map] at this
    exact congrArg (Option.getD · 0) this
  have hprompt : entry.promptTokens = other.promptTokens := htokens InferenceReceipt.promptTokens
  have hcompletion : entry.completionTokens = other.completionTokens := htokens InferenceReceipt.completionTokens
  have hcost : entry.costUSDMicros = other.costUSDMicros := htokens InferenceReceipt.costUSDMicros
  unfold RelayAccounting.entry
  rw [hrequest, hprompt, hcompletion, hcost]

theorem accountingFor_same {entries others : List JournalEntry} (h : List.Forall₂ SameEvidence entries others) :
    accountingFor entries = accountingFor others := by
  unfold accountingFor
  generalize (⟨0, 0, 0, 0, 0⟩ : RelayAccounting) = account
  induction h generalizing account with
  | nil => rfl
  | cons hhead _ ih =>
    rw [List.foldlM_cons, List.foldlM_cons, accounting_same hhead]
    exact bind_congr fun next => ih next

theorem completionsOf_same {entries others : List JournalEntry} (h : List.Forall₂ SameEvidence entries others) :
    (completionsOf entries).map (fun completions =>
      (completions.map Completion.receipt, completions.map Completion.settlement)) =
        (completionsOf others).map fun completions =>
          (completions.map Completion.receipt, completions.map Completion.settlement) := by
  induction h with
  | nil => rfl
  | @cons entry other entries others hhead _ ih =>
    have hboth := hhead.2
    unfold completionsOf at ih ⊢
    rw [List.mapM_cons, List.mapM_cons]
    rcases hentry : entry.completion with _ | completion <;> rcases hother : other.completion with _ | completion' <;>
      rw [hentry, hother] at hboth <;> try cases hboth
    · rfl
    · obtain ⟨hreceipt, hsettlement⟩ := Prod.mk.inj (Option.some.inj hboth)
      rcases hentries : List.mapM JournalEntry.completion entries with _ | completions <;>
        rcases hothers : List.mapM JournalEntry.completion others with _ | completions' <;>
        rw [hentries, hothers] at ih <;> try cases ih
      · rfl
      · obtain ⟨hreceipts, hsettlements⟩ := Prod.mk.inj (Option.some.inj ih)
        show some ((completion :: completions).map Completion.receipt,
          (completion :: completions).map Completion.settlement) =
            some ((completion' :: completions').map Completion.receipt,
              (completion' :: completions').map Completion.settlement)
        rw [List.map_cons, List.map_cons, List.map_cons, List.map_cons, hreceipt, hsettlement, hreceipts, hsettlements]

/-- The evidence depends on the request numbers, the receipts and the settlements. -/
theorem evidence_same (codec : Codec) (policy : InferencePolicy) (binding : Binding)
    {entries others : List JournalEntry}
    (h : List.Forall₂ SameEvidence entries others) :
    evidence codec policy binding entries = evidence codec policy binding others := by
  have hempty : entries.isEmpty = others.isEmpty := by
    cases h <;> rfl
  have hcompletions := completionsOf_same h
  unfold evidence withinBudgets
  rw [hempty, accountingFor_same h]
  rcases hentries : completionsOf entries with _ | completions <;>
    rcases hothers : completionsOf others with _ | completions' <;>
    rw [hentries, hothers] at hcompletions <;> try cases hcompletions
  obtain ⟨hreceipts, hsettlements⟩ := Prod.mk.inj (Option.some.inj hcompletions)
  simp only [hreceipts, hsettlements]

theorem keptEntries_same (entries : List JournalEntry) : List.Forall₂ SameEvidence (keptEntries entries) entries := by
  induction entries using List.reverseRecOn with
  | nil => exact .nil
  | append_singleton front last _ =>
    rw [keptEntries_append]
    refine List.rel_append ?_ (.cons (sameEvidence_compact last true) .nil)
    rw [List.forall₂_map_left_iff, List.forall₂_same]
    exact fun entry _ => sameEvidence_compact entry false

/-- The evidence is the same of the entries in memory. -/
theorem evidence_kept (codec : Codec) (policy : InferencePolicy) (binding : Binding) (entries : List JournalEntry) :
    evidence codec policy binding (keptEntries entries) = evidence codec policy binding entries :=
  evidence_same codec policy binding (keptEntries_same entries)

/-! ## One request to the relay -/

/-- The relay after a check of the clock: only the clock and the fatal error may differ. -/
inductive Relay.Ticks (relay : Relay) : Relay → Prop where
  | mk (now : Int) (fatal : Option RelayError) (hfatal : relay.fatal.isSome = true → fatal.isSome = true) :
      Ticks relay { relay with lastNow := now, fatal := fatal }

theorem Relay.Ticks.refl (relay : Relay) : relay.Ticks relay := .mk relay.lastNow relay.fatal id

theorem trustedNow_ok {relay ticked : Relay} {now : Int} (h : relay.trustedNow now = .ok ticked) :
    ticked = { relay with lastNow := now } := by
  unfold Relay.trustedNow at h
  split at h
  · cases h
  · cases h
    rfl

/-- How a request is answered at its admission. -/
inductive Admitted (relay : Relay) (minerSHA256 : String) : Relay × Admission → Prop where
  | refused (later : Relay) (reason : RelayError) (hticks : relay.Ticks later) :
      Admitted relay minerSHA256 (later, .refused reason)
  | waits (later : Relay) (hticks : relay.Ticks later) : Admitted relay minerSHA256 (later, .waits)
  | replayed (later : Relay) (last : JournalEntry) (completion : Completion) (hticks : relay.Ticks later)
      (hopen : relay.revoked = false) (hidle : relay.active = none) (hfatal : relay.fatal = none)
      (hlast : relay.entries.getLast? = some last) (hcompletion : last.completion = some completion)
      (houtcome : completion.receipt.outcome = .complete) (hminer : last.dispatch.minerRequestSHA256 = minerSHA256) :
      Admitted relay minerSHA256 (later, .replayed last.dispatch.requestSequence completion.minerResponse)
  | launched (now : Int) (dispatch : DispatchRecord) (hopen : relay.revoked = false) (hidle : relay.active = none)
      (hfatal : relay.fatal = none) (hnew : dispatch.sequence = relay.entries.length + 1) :
      Admitted relay minerSHA256 ({ relay with lastNow := now, active := some ⟨dispatch, .begin⟩ }, .admitted)

section Requests

variable (codec : Codec) (policy : InferencePolicy) (binding : Binding)

theorem launch_cases {relay : Relay} (hopen : relay.revoked = false) (hidle : relay.active = none)
    (hfatal : relay.fatal = none) (request : InferenceMinerRequest) (minerSHA256 requestID : String) (now : Int) :
    Admitted relay minerSHA256
      ({ relay with lastNow := now }.launch codec policy binding request minerSHA256 requestID) := by
  have hticks (fatal : Option RelayError) : relay.Ticks { relay with lastNow := now, fatal := fatal } :=
    .mk now fatal (by simp [hfatal])
  have hclock : relay.Ticks { relay with lastNow := now } := hticks relay.fatal
  unfold Relay.launch
  split
  · exact .refused _ _ hclock
  · split
    · exact .refused _ _ hclock
    · split
      · exact .refused _ _ hclock
      · split
        · exact .refused _ _ hclock
        · split
          · exact .launched now _ hopen hidle hfatal rfl
          · exact .refused _ _ (hticks _)

theorem admit_cases (relay : Relay) (request : InferenceMinerRequest) (minerSHA256 : String) (now : Int)
    (requestID : String) :
    Admitted relay minerSHA256 ( relay.admit codec policy binding request minerSHA256 now requestID) := by
  unfold Relay.admit
  split
  · exact .refused _ _ (.refl relay)
  · rename_i hfatal
    split
    · exact .refused _ _ (.refl relay)
    · rename_i hopen
      rw [Bool.not_eq_true] at hopen
      split
      · exact .refused _ _ (.mk relay.lastNow _ fun _ => rfl)
      · rename_i ticked hticked
        obtain rfl := trustedNow_ok hticked
        have hclock : relay.Ticks { relay with lastNow := now } := .mk now relay.fatal id
        split
        · exact .refused _ _ hclock
        · split
          · split
            · exact .waits _ hclock
            · exact .refused _ _ hclock
          · rename_i hidle
            split
            · rename_i answer hanswer
              obtain ⟨last, hlast, hanswer⟩ := Option.bind_eq_some_iff.mp hanswer
              unfold lastAnswer at hanswer
              split at hanswer
              · cases hanswer
              · rename_i completion hcompletion
                split at hanswer
                · cases hanswer
                  exact .refused _ _ hclock
                · split at hanswer
                  · rename_i hreplay
                    cases hanswer
                    exact .replayed _ last completion hclock hopen hidle hfatal hlast hcompletion hreplay.1 hreplay.2.1
                  · cases hanswer
            · exact launch_cases codec policy binding hopen hidle hfatal request minerSHA256 requestID now

end Requests

/-! ## Events and records -/

/-- What an event has left in the records. -/
def Event.Recorded (binding : Binding) (event : Event) (state : Option StateRecord) (entries : List EntryRecord) :
    Prop :=
  match event with
  | .called request => ∃ record ∈ entries, request = upstreamRequest binding record.entry.dispatch
  | .responded requestSequence minerSHA256 response =>
    ∃ record ∈ entries, ∃ completion ∈ record.entry.completion,
      record.entry.dispatch.requestSequence = requestSequence ∧
      record.entry.dispatch.minerRequestSHA256 = minerSHA256 ∧ completion.receipt.outcome = .complete ∧
      completion.minerResponse = response
  | .revoked => ∃ record ∈ state, record.revoked = true

/-- What an event has left stays. -/
theorem Event.Recorded.change {binding : Binding} {event : Event} {store : Store} {request : Call}
    {state : Option StateRecord} {entries : List EntryRecord} (h : event.Recorded binding store.state store.entries)
    (hchange : Change store request state entries) : event.Recorded binding state entries := by
  cases event with
  | called request =>
    obtain ⟨record, hmem, rfl⟩ := h
    obtain ⟨more, hmore⟩ := hchange.dispatches
    have hdispatch : record.entry.dispatch ∈ dispatches entries := by
      rw [hmore]
      exact List.mem_append_left _ (List.mem_map_of_mem hmem)
    obtain ⟨later, hlater, heq⟩ := List.mem_map.mp hdispatch
    exact ⟨later, hlater, by rw [heq]⟩
  | responded requestSequence minerSHA256 response =>
    obtain ⟨record, hmem, completion, hcompletion, hanswer⟩ := h
    have hcompleted : record.entry.completed = true := by
      rw [JournalEntry.completed, Option.mem_def.mp hcompletion]
      rfl
    exact ⟨record, hchange.completed hmem hcompleted, completion, hcompletion, hanswer⟩
  | revoked =>
    obtain ⟨record, hrecord, hrevoked⟩ := h
    rw [(hchange.revoked hrecord hrevoked).1]
    exact ⟨record, hrecord, hrevoked⟩

/-- The provider calls among the events. -/
def Event.request : Event → Option UpstreamRequest
  | .called request => some request
  | _ => none

def calls (events : List Event) : List UpstreamRequest := events.filterMap Event.request

theorem mem_calls {events : List Event} {request : UpstreamRequest} :
    request ∈ calls events ↔ .called request ∈ events := by
  unfold calls
  rw [List.mem_filterMap]
  constructor
  · rintro ⟨event, hmem, hrequest⟩
    cases event <;> cases hrequest
    exact hmem
  · exact fun hmem => ⟨_, hmem, rfl⟩

/-- A revocation is followed by revocations only. -/
def Quiet (events : List Event) : Prop :=
    Chain.Everywhere (fun before event => .revoked ∈ before → event = .revoked) events

section Invariants

variable (codec : Codec) (layout : Layout) (config : JournalConfig) (binding : Binding)

/-- A property of the records in every set of files that a crash may leave. -/
def Root.Holds (P : Option StateRecord → List EntryRecord → Prop) : Root → Prop
  | .opened journal => Lasting codec layout config P journal
  | .closed disk =>
    (∃ store : Store, store.Sound codec layout config ∧ disk = store.image) ∧ P disk.state disk.records

/-- The journal is revoked and its files are all the same. -/
def Root.Final (root : Root) : Prop :=
  ∃ state entries, state.revoked = true ∧ root.Holds codec layout config fun s e => s = some state ∧ e = entries

/-- A completion is what the relay makes of a provider's result. -/
def JournalEntry.Minted (entry : JournalEntry) : Prop :=
  ∀ completion ∈ entry.completion, entryForResult codec config.policy binding entry.dispatch
    ⟨completion.settlement, completion.normalizedResponse, completion.failureResponseProjection⟩ = .ok entry

/-- A completed entry is what the relay made of the answer to one of the calls. -/
def JournalEntry.Settled (events : List Event) (entry : JournalEntry) : Prop :=
  entry.Minted codec config binding ∧
    (entry.completed = true → .called (upstreamRequest binding entry.dispatch) ∈ events)

/-- What the record files say of the events. -/
structure RootInv (root : Root) (events : List Event) : Prop where
  recorded : root.Holds codec layout config fun state entries => ∀ event ∈ events, event.Recorded binding state entries
  settled : root.Holds codec layout config fun _ entries =>
    ∀ record ∈ entries, record.entry.Settled codec config binding events
  final : .revoked ∈ events → root.Final codec layout config

/-- The relay holds the first of the journal's records, all completed. -/
structure Held (journal : Journal) (relay : Relay) (records rest : List EntryRecord) : Prop where
  lasting : Lasting codec layout config
    (fun state entries => entries = records ++ rest ∧ ∀ s ∈ state, s.binding = binding) journal
  completed : ∀ record ∈ records, record.entry.completed = true
  kept : relay.entries = keptEntries (journaled records)

/-- The records have evidence, and no retry is due. -/
def Answered (records : List EntryRecord) : Prop :=
  records ≠ [] → (∃ found, evidence codec config.policy binding (journaled records) = .ok found) ∧
    ∀ last ∈ records.getLast?, ∀ completion ∈ last.entry.completion, completion.receipt.outcome ≠ .freeRetry

/-- How the memory of a relay stands to its journal, by the stage of its flight. -/
inductive Staged (journal : Journal) (events : List Event) (relay : Relay) : Option Flight → Prop where
  | idle (records : List EntryRecord) (hheld : Held codec layout config binding journal relay records [])
      (hanswered : Answered codec config binding records) : Staged journal events relay none
  | failed (hfatal : relay.fatal.isSome = true) : Staged journal events relay none
  | begin (records : List EntryRecord) (dispatch : DispatchRecord)
      (hheld : Held codec layout config binding journal relay records [])
      (hnew : dispatch.sequence = records.length + 1) : Staged journal events relay (some ⟨dispatch, .begin⟩)
  | call (records : List EntryRecord) (dispatch : DispatchRecord)
      (hheld : Held codec layout config binding journal relay records [marker dispatch])
      (huncalled : ∀ request ∈ calls events, request.sequence < dispatch.sequence) :
      Staged journal events relay (some ⟨dispatch, .call⟩)
  | called (records : List EntryRecord) (dispatch : DispatchRecord)
      (hheld : Held codec layout config binding journal relay records [marker dispatch])
      (hcalled : .called (upstreamRequest binding dispatch) ∈ events) :
      Staged journal events relay (some ⟨dispatch, .called⟩)
  | settle (records : List EntryRecord) (dispatch : DispatchRecord) (completion : Completion)
      (hheld : Held codec layout config binding journal relay records [marker dispatch])
      (hsettled : JournalEntry.Settled codec config binding events ⟨dispatch, some completion⟩) :
      Staged journal events relay (some ⟨dispatch, .settle ⟨dispatch, some completion⟩⟩)
  | settled (records : List EntryRecord) (dispatch : DispatchRecord) (completion : Completion)
      (hheld : Held codec layout config binding journal relay
        (records ++ [⟨2, dispatch.sequence, ⟨dispatch, some completion⟩⟩]) []) :
      Staged journal events relay (some ⟨dispatch, .settled ⟨dispatch, some completion⟩⟩)

/-- The invariant of a live relay. -/
structure Relay.Inv (journal : Journal) (events : List Event) (relay : Relay) : Prop where
  staged : Staged codec layout config binding journal events relay relay.active
  revoking : relay.revoking.isSome = true → relay.revoked = true
  waited : relay.revoking = some false → relay.active = none
  final : relay.revocationDurable = true →
    relay.revoked = true ∧ relay.active = none ∧ (Root.opened journal).Final codec layout config
  quiet : .revoked ∈ events → relay.revoked = true ∧ relay.active = none

/-- The invariant of a system. -/
structure System.Inv (system : System) : Prop where
  root : RootInv codec layout config binding system.root system.events
  ordered : (calls system.events).Pairwise fun a b => a.sequence < b.sequence
  quiet : Quiet system.events
  relay : ∀ relay ∈ system.relay, ∃ journal, system.root = .opened journal ∧
    relay.Inv codec layout config binding journal system.events

end Invariants

/-! ## The root -/

section Root

variable {codec : Codec} {layout : Layout} {config : JournalConfig} {binding : Binding} {journal : Journal}
  {events : List Event}

theorem final_call (h : (Root.opened journal).Final codec layout config) (request : Call) (syncs : Bool)
    (io : List Io) :
    (Root.opened (journal.call codec layout config request syncs io).1).Final codec layout config := by
  obtain ⟨state, entries, hrevoked, hlasting⟩ := h
  refine ⟨state, entries, hrevoked, Lasting.call hlasting request syncs io ?_⟩
  rintro opened s e - ⟨hstate, rfl⟩ hchange
  obtain ⟨rfl, rfl⟩ := hchange.revoked hstate hrevoked
  exact ⟨hstate, rfl⟩

/-- A call of the journal keeps what the files say, when a completion it journals settles a call. -/
theorem RootInv.call (h : RootInv codec layout config binding (.opened journal) events) (request : Call) (syncs : Bool)
    (io : List Io)
    (hsettled : ∀ other entry, request = .complete other entry → entry.Settled codec config binding events) :
    RootInv codec layout config binding (.opened (journal.call codec layout config request syncs io).1) events := by
  refine ⟨Lasting.call h.recorded request syncs io ?_, Lasting.call h.settled request syncs io ?_,
    fun hmem => final_call (h.final hmem) request syncs io⟩
  · exact fun opened state entries _ hrecorded hchange event hmem => (hrecorded event hmem).change hchange
  · intro opened state entries _ hall hchange
    cases hchange with
    | nothing | state => exact hall
    | marker other dispatch =>
      intro record hmem
      rcases List.mem_append.mp hmem with hmem | hmem
      · exact hall record hmem
      · rw [List.mem_singleton] at hmem
        subst hmem
        exact ⟨(fun completion hcompletion => by cases hcompletion), (fun hcontra => by cases hcontra)⟩
    | completion other entry front current _ hlast =>
      intro record hmem
      rcases List.mem_append.mp hmem with hmem | hmem
      · refine hall record ?_
        rw [hlast]
        exact List.mem_append_left _ hmem
      · rw [List.mem_singleton] at hmem
        subst hmem
        exact hsettled other entry rfl

theorem Root.Holds.mono {P Q : Option StateRecord → List EntryRecord → Prop} {root : Root}
    (h : root.Holds codec layout config P) (hPQ : ∀ state entries, P state entries → Q state entries) :
    root.Holds codec layout config Q := by
  cases root with
  | opened journal => exact Lasting.mono h hPQ
  | closed disk => exact ⟨h.1, hPQ _ _ h.2⟩

theorem Root.Holds.and {P Q : Option StateRecord → List EntryRecord → Prop} {root : Root}
    (h : root.Holds codec layout config P) (h' : root.Holds codec layout config Q) :
    root.Holds codec layout config fun state entries => P state entries ∧ Q state entries := by
  cases root with
  | opened journal => exact Lasting.and h h'
  | closed disk => exact ⟨h.1, h.2, h'.2⟩

/-- The files that a crash leaves. -/
theorem holds_crashed {P : Option StateRecord → List EntryRecord → Prop}
    (h : (Root.opened journal).Holds codec layout config P) (kept : Bool) :
    (Root.closed (if kept then journal.visible else journal.durable)).Holds codec layout config P := by
  refine ⟨Journal.Ok.crashed (Lasting.ok h) ?_, ?_⟩
  · cases kept <;> simp
  · cases kept
    · exact Lasting.durable h
    · exact Lasting.visible h

/-- The journal that is opened from them. -/
theorem holds_reopened {P : Option StateRecord → List EntryRecord → Prop} {disk : Disk}
    (h : (Root.closed disk).Holds codec layout config P) {store : Store}
    (hrecover : disk.recover codec layout config = .ok store) :
    (Root.opened ⟨disk, disk, store⟩).Holds codec layout config P := by
  obtain ⟨⟨old, hsound, rfl⟩, hold⟩ := h
  obtain ⟨-, rfl⟩ := eq_of_recover_image hsound hrecover
  exact ⟨Journal.Ok.of_synced (hsound.sync false), hold, hold⟩

/-- What is said of the files carries over to a root that keeps their properties. -/
theorem RootInv.map {root later : Root} (h : RootInv codec layout config binding root events)
    (hlater : ∀ P, root.Holds codec layout config P → later.Holds codec layout config P) :
    RootInv codec layout config binding later events := by
  refine ⟨hlater _ h.recorded, hlater _ h.settled, fun hmem => ?_⟩
  obtain ⟨state, entries, hrevoked, hholds⟩ := h.final hmem
  exact ⟨state, entries, hrevoked, hlater _ hholds⟩

/-- One more event. -/
theorem RootInv.snoc {root : Root} {event : Event} (h : RootInv codec layout config binding root events)
    (hrecorded : root.Holds codec layout config (event.Recorded binding))
    (hfinal : event = .revoked → root.Final codec layout config) :
    RootInv codec layout config binding root (events ++ [event]) := by
  refine ⟨Root.Holds.mono (Root.Holds.and h.recorded hrecorded) ?_, Root.Holds.mono h.settled ?_, fun hmem => ?_⟩
  · rintro state entries ⟨hall, hlast⟩ other hmem
    rcases List.mem_append.mp hmem with hmem | hmem
    · exact hall other hmem
    · rw [List.mem_singleton] at hmem
      rw [hmem]
      exact hlast
  · intro state entries hall record hmem
    exact ⟨(hall record hmem).1, fun hcompleted => List.mem_append_left _ ((hall record hmem).2 hcompleted)⟩
  · rcases List.mem_append.mp hmem with hmem | hmem
    · exact h.final hmem
    · rw [List.mem_singleton] at hmem
      exact hfinal hmem.symm

end Root

/-! ## Journal calls of the relay -/

section Operations

variable {codec : Codec} {layout : Layout} {config : JournalConfig} {binding : Binding} {operation : Operation}
  {journal : Journal} {request : Call}

/-- A journal call that failed, or was not made in time, and one that succeeded. -/
inductive Ran (codec : Codec) (layout : Layout) (config : JournalConfig) (operation : Operation) (journal : Journal)
    (request : Call) : Journal × Bool → Prop where
  | skipped : Ran codec layout config operation journal request (journal, false)
  | failed :
      Ran codec layout config operation journal request
        ((journal.call codec layout config request operation.syncs operation.io).1, false)
  | done (h : (journal.call codec layout config request operation.syncs operation.io).2 = .ok ()) :
      Ran codec layout config operation journal request
        ((journal.call codec layout config request operation.syncs operation.io).1, true)

theorem run_cases : Ran codec layout config operation journal request
    (operation.run codec layout config journal request) := by
  unfold Operation.run
  split
  · by_cases hdone : (journal.call codec layout config request operation.syncs operation.io).2 = .ok ()
    · cases hlate : operation.late
      · have hran : Ran codec layout config operation journal request _ := .done hdone
        simpa [hdone] using hran
      · simpa using Ran.failed
    · simpa [hdone] using Ran.failed
  · exact .skipped

theorem runCapped_cases : Ran codec layout config operation journal request
    (operation.runCapped codec layout config binding journal request) := by
  unfold Operation.runCapped
  split
  · exact .skipped
  · exact run_cases

/-- What a journal call does to what is said of the files. -/
theorem Ran.root {events : List Event} {ran : Journal × Bool}
    (hran : Ran codec layout config operation journal request ran)
    (h : RootInv codec layout config binding (.opened journal) events)
    (hsettled : ∀ other entry, request = .complete other entry → entry.Settled codec config binding events) :
    RootInv codec layout config binding (.opened ran.1) events := by
  cases hran with
  | skipped => exact h
  | failed | done => exact h.call request _ _ hsettled

theorem Ran.final {ran : Journal × Bool} (hran : Ran codec layout config operation journal request ran)
    (h : (Root.opened journal).Final codec layout config) : (Root.opened ran.1).Final codec layout config := by
  cases hran with
  | skipped => exact h
  | failed | done => exact final_call h request _ _

end Operations

end DittoSubnet.Coding

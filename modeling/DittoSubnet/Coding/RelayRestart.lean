import DittoSubnet.Coding.JournalReplay
import DittoSubnet.Coding.RelaySafe

/-!
# The relay after a revocation and after a restart

A step of the system moves its root in one of four ways (`Root.Moves`) and adds events at the end. Nothing moves a
revoked journal, so a revocation that returned success is the last thing the relay does (`revocation_final`) and its
evidence stays the same (`evidence_settled`). A relay without a flight is restored from the files with what it held
(`restart_restores`).
-/

namespace DittoSubnet.Coding

open Kit

section Moves

variable {codec : Codec} {layout : Layout} {config : JournalConfig} {binding : Binding}

/-- How a step moves the root: not at all, by a journal call, by a crash, or by recovering the files. -/
inductive Root.Moves (codec : Codec) (layout : Layout) (config : JournalConfig) : Root → Root → Prop where
  | same (root : Root) : Moves codec layout config root root
  | called (journal : Journal) (request : Call) (syncs : Bool) (io : List Io) :
      Moves codec layout config (.opened journal) (.opened (journal.call codec layout config request syncs io).1)
  | crashed (journal : Journal) (kept : Bool) :
      Moves codec layout config (.opened journal) (.closed (if kept then journal.visible else journal.durable))
  | reopened (disk : Disk) (store : Store) (hrecover : disk.recover codec layout config = .ok store) :
      Moves codec layout config (.closed disk) (.opened ⟨disk, disk, store⟩)

theorem Ran.moves {operation : Operation} {journal : Journal} {request : Call} {ran : Journal × Bool}
    (hran : Ran codec layout config operation journal request ran) :
    Root.Moves codec layout config (.opened journal) (.opened ran.1) := by
  cases hran with
  | skipped => exact .same _
  | failed | done => exact .called _ _ _ _

/-- What a step does that adds no record of its own: it moves the root and adds events. -/
structure System.Advances (codec : Codec) (layout : Layout) (config : JournalConfig) (system later : System) :
    Prop where
  root : Root.Moves codec layout config system.root later.root
  events : ∃ more, later.events = system.events ++ more

theorem advances_same {system later : System} (hroot : later.root = system.root)
    (hevents : later.events = system.events) :
    System.Advances codec layout config system later :=
  ⟨by rw [hroot]; exact .same _, [], by rw [hevents, List.append_nil]⟩

theorem advances_event {system later : System} (hroot : later.root = system.root) {event : Event}
    (hevents : later.events = system.events ++ [event]) : System.Advances codec layout config system later :=
  ⟨by rw [hroot]; exact .same _, [event], hevents⟩

variable {system : System} {journal : Journal} {relay : Relay}

theorem live_advances (hroot : system.root = .opened journal) (input : Input) :
    System.Advances codec layout config system (system.live codec layout config binding journal relay input) := by
  have hmoves {operation : Operation} {request : Call} {ran : Journal × Bool}
      (hran : Ran codec layout config operation journal request ran) :
      Root.Moves codec layout config system.root (.opened ran.1) := by
    rw [hroot]
    exact hran.moves
  cases input with
  | complete request now requestID =>
    simp only [System.live]
    unfold System.complete
    split
    · exact advances_same rfl rfl
    · rename_i minerSHA256 _
      generalize relay.admit codec config.policy binding request minerSHA256 now requestID = admitted
      obtain ⟨later, admission⟩ := admitted
      cases admission with
      | replayed => exact advances_event rfl rfl
      | refused | waits | admitted => exact advances_same rfl rfl
  | begin operation =>
    simp only [System.live]
    split
    · rename_i dispatch _
      have hran : Ran codec layout config operation journal (.begin binding dispatch)
          (operation.runCapped codec layout config binding journal (.begin binding dispatch)) := runCapped_cases
      unfold System.begin
      split
      all_goals
        rename_i next heq
        rw [heq] at hran
        exact ⟨hmoves hran, [], (List.append_nil _).symm⟩
    · exact advances_same rfl rfl
  | call now =>
    simp only [System.live]
    split
    · unfold System.call
      split
      · exact advances_same rfl rfl
      · split
        · exact advances_same rfl rfl
        · exact advances_event rfl rfl
    · exact advances_same rfl rfl
  | answer result now late =>
    simp only [System.live]
    split
    · unfold System.answer
      split <;> exact advances_same rfl rfl
    · exact advances_same rfl rfl
  | settle operation =>
    simp only [System.live]
    split
    · rename_i dispatch entry _
      have hran : Ran codec layout config operation journal (.complete binding entry)
          (operation.runCapped codec layout config binding journal (.complete binding entry)) := runCapped_cases
      unfold System.settle
      split
      all_goals
        rename_i next heq
        rw [heq] at hran
        exact ⟨hmoves hran, [], (List.append_nil _).symm⟩
    · exact advances_same rfl rfl
  | finish now =>
    simp only [System.live]
    split
    · unfold System.finish
      split
      · split
        · exact advances_same rfl rfl
        · split <;> exact advances_same rfl rfl
      · split
        · exact advances_same rfl rfl
        · dsimp only
          split
          · exact advances_same rfl rfl
          · exact advances_event rfl rfl
    · exact advances_same rfl rfl
  | revoke =>
    simp only [System.live]
    split
    · exact advances_same rfl rfl
    · unfold System.revoke
      split
      · exact advances_event rfl rfl
      · exact advances_same rfl rfl
  | persist operation =>
    have hran : Ran codec layout config operation journal (.revoke binding)
        (operation.run codec layout config journal (.revoke binding)) := run_cases
    have hpersist : System.Advances codec layout config system
        (system.persist codec layout config binding journal relay operation) := by
      unfold System.persist
      split
      · rename_i next heq
        rw [heq] at hran
        exact ⟨hmoves hran, [.revoked], rfl⟩
      · rename_i next heq
        rw [heq] at hran
        exact ⟨hmoves hran, [], (List.append_nil _).symm⟩
    simp only [System.live]
    split
    · exact hpersist
    · exact hpersist
    · exact advances_same rfl rfl
  | abandon | gateway | start => exact advances_same rfl rfl
  | crash kept =>
    refine ⟨?_, [], (List.append_nil _).symm⟩
    rw [hroot]
    exact .crashed journal kept

theorem idle_advances (hroot : system.root = .opened journal) (input : Input) :
    System.Advances codec layout config system (system.idle codec layout config binding journal input) := by
  cases input with
  | gateway request operation =>
    have hran : Ran codec layout config operation journal request
        (operation.run codec layout config journal request) := run_cases
    simp only [System.idle]
    split
    · refine ⟨?_, [], (List.append_nil _).symm⟩
      rw [hroot]
      exact hran.moves
    · exact advances_same rfl rfl
  | start now operation =>
    have hran : Ran codec layout config operation journal (.load binding)
        (operation.run codec layout config journal (.load binding)) := run_cases
    have hopened {next : Journal} {ok : Bool}
        (heq : operation.run codec layout config journal (.load binding) = (next, ok)) (restart : Option Relay) :
        System.Advances codec layout config system ⟨.opened next, restart, system.events⟩ := by
      rw [heq] at hran
      refine ⟨?_, [], (List.append_nil _).symm⟩
      rw [hroot]
      exact hran.moves
    simp only [System.idle]
    unfold System.start
    split
    · split
      · rename_i next heq
        split
        · exact hopened heq system.relay
        · split
          · exact hopened heq (some _)
          · exact hopened heq system.relay
      · rename_i next heq
        exact hopened heq system.relay
    · exact advances_same rfl rfl
  | crash kept =>
    refine ⟨?_, [], (List.append_nil _).symm⟩
    rw [hroot]
    exact .crashed journal kept
  | complete | begin | call | answer | settle | finish | revoke | persist | abandon => exact advances_same rfl rfl

theorem step_advances (input : Input) :
    System.Advances codec layout config system (system.step codec layout config binding input) := by
  unfold System.step
  split
  · rename_i journal relay hroot hrelay
    exact live_advances hroot input
  · rename_i journal hroot hrelay
    exact idle_advances hroot input
  · rename_i disk hroot
    split
    · unfold System.reopen
      split
      · rename_i store hrecover
        refine ⟨?_, [], (List.append_nil _).symm⟩
        rw [hroot]
        exact .reopened disk store hrecover
      · exact advances_same rfl rfl
    · exact advances_same rfl rfl

end Moves

/-! ## After a revocation -/

section Final

variable {codec : Codec} {layout : Layout} {config : JournalConfig} {binding : Binding} {state : StateRecord}
  {entries : List EntryRecord}

/-- Nothing moves a revoked journal. -/
theorem moves_final {root later : Root} (hrevoked : state.revoked = true)
    (h : root.Holds codec layout config fun s e => s = some state ∧ e = entries)
    (hmoves : Root.Moves codec layout config root later) :
    later.Holds codec layout config fun s e => s = some state ∧ e = entries := by
  cases hmoves with
  | same => exact h
  | called journal request syncs io =>
    refine Lasting.call h request syncs io ?_
    rintro opened s e - ⟨hstate, rfl⟩ hchange
    obtain ⟨rfl, rfl⟩ := hchange.revoked hstate hrevoked
    exact ⟨hstate, rfl⟩
  | crashed journal kept => exact holds_crashed h kept
  | reopened disk store hrecover => exact holds_reopened h hrecover

theorem after_append (inputs more : List Input) :
    System.after codec layout config binding (inputs ++ more) =
      run (System.step codec layout config binding) (System.after codec layout config binding inputs) more :=
  run_append _ _ _ _

/-- The rest of a run after a revocation. -/
theorem final_after (inputs more : List Input) (hrevoked : state.revoked = true)
    (h : (System.after codec layout config binding inputs).root.Holds codec layout config
      fun s e => s = some state ∧ e = entries) :
    (System.after codec layout config binding (inputs ++ more)).root.Holds codec layout config
      fun s e => s = some state ∧ e = entries := by
  rw [after_append]
  exact run_inv (P := fun later : System => later.root.Holds codec layout config fun s e =>
    s = some state ∧ e = entries)
    (fun _ input hlater => moves_final hrevoked hlater (step_advances input).root) more h

/-- Events are added at the end. -/
theorem events_after (inputs more : List Input) :
    ∃ since, (System.after codec layout config binding (inputs ++ more)).events =
      (System.after codec layout config binding inputs).events ++ since := by
  rw [after_append]
  generalize System.after codec layout config binding inputs = system
  refine run_inv (P := fun later : System => ∃ since, later.events = system.events ++ since) ?_ more
    ⟨[], (List.append_nil _).symm⟩
  rintro later input ⟨since, hsince⟩
  have hadvances : System.Advances codec layout config later (later.step codec layout config binding input) :=
    step_advances input
  obtain ⟨next, hnext⟩ := hadvances.events
  exact ⟨since ++ next, by rw [hnext, hsince, List.append_assoc]⟩

/-- Files with these records. -/
theorem disk_eq {root : Root} (h : root.Holds codec layout config fun s e => s = some state ∧ e = entries) {disk : Disk}
    (hdisk : disk ∈ root.disks) : disk = ⟨some state, numbered entries⟩ := by
  obtain ⟨⟨hstate, hentries⟩, store, -, rfl⟩ := Root.Holds.disk h hdisk
  rw [image_records] at hentries
  rw [image_state] at hstate
  rw [← hstate, ← hentries]
  rfl

/-- Once a revocation has returned success, the files stay as they are and nothing but further revocations is seen: no
provider call and no response. -/
theorem revocation_final (before later : List Input)
    (h : .revoked ∈ (System.after codec layout config binding before).events) :
    (∃ disk, (∀ d ∈ (System.after codec layout config binding before).root.disks, d = disk) ∧
      ∀ d ∈ (System.after codec layout config binding (before ++ later)).root.disks, d = disk) ∧
    ∃ since, (System.after codec layout config binding (before ++ later)).events =
        (System.after codec layout config binding before).events ++ since ∧
      ∀ event ∈ since, event = .revoked := by
  have hinv : (System.after codec layout config binding before).Inv codec layout config binding := after_inv before
  obtain ⟨state, entries, hrevoked, hholds⟩ := hinv.root.final h
  have hlater := final_after before later hrevoked hholds
  refine ⟨⟨_, fun d hd => disk_eq hholds hd, fun d hd => disk_eq hlater hd⟩, ?_⟩
  have hevents : ∃ since, (System.after codec layout config binding (before ++ later)).events =
      (System.after codec layout config binding before).events ++ since := events_after before later
  obtain ⟨since, hsince⟩ := hevents
  refine ⟨since, hsince, fun event hmem => ?_⟩
  have hinvLater : (System.after codec layout config binding (before ++ later)).Inv codec layout config binding :=
    after_inv (before ++ later)
  have hquiet := hinvLater.quiet
  rw [hsince] at hquiet
  obtain ⟨front, rest, rfl⟩ := List.append_of_mem hmem
  exact hquiet ((System.after codec layout config binding before).events ++ front) event rest (by simp)
    (List.mem_append_left _ h)

/-- A relay that gives evidence stands on a revoked journal, whose entries the evidence is of. -/
theorem evidence_held {system : System} (h : system.Inv codec layout config binding) {relay : Relay}
    (hrelay : system.relay = some relay) {observed : EvidenceBinding} {found : ModelEvidence}
    (hfound : relay.Evidence codec config.policy binding observed = .ok found) :
    ∃ state entries, state.revoked = true ∧
      (system.root.Holds codec layout config fun s e => s = some state ∧ e = entries) ∧
      evidence codec config.policy binding (journaled entries) = .ok found := by
  obtain ⟨journal, hroot, hinv⟩ := h.relay relay hrelay
  unfold Relay.Evidence at hfound
  rw [ensure_bind_eq_ok_iff, ensure_bind_eq_ok_iff, ensure_bind_eq_ok_iff] at hfound
  obtain ⟨-, ⟨-, hdurable⟩, ⟨hidle, hfatal⟩, hfound⟩ := hfound
  obtain ⟨-, -, state, entries, hrevoked, hholds⟩ := hinv.final hdurable
  have hstaged := hinv.staged
  rw [hidle] at hstaged
  cases hstaged with
  | failed hfailed =>
    rw [hfatal] at hfailed
    cases hfailed
  | idle records hheld hanswered =>
    have hentries := (Lasting.memory hholds).2
    rw [hheld.memory.1, List.append_nil] at hentries
    rw [hheld.kept, evidence_kept, hentries] at hfound
    rw [hroot]
    exact ⟨state, entries, hrevoked, hholds, hfound⟩

/-- Evidence that a relay has given is the evidence of the files ever after, and every relay that gives evidence later
gives the same. -/
theorem evidence_settled (before later : List Input) {relay : Relay}
    (hrelay : (System.after codec layout config binding before).relay = some relay) {observed : EvidenceBinding}
    {found : ModelEvidence} (hfound : relay.Evidence codec config.policy binding observed = .ok found) :
    (∀ disk ∈ (System.after codec layout config binding (before ++ later)).root.disks,
      evidence codec config.policy binding (journaled disk.records) = .ok found) ∧
    ∀ next, (System.after codec layout config binding (before ++ later)).relay = some next → ∀ other again,
      next.Evidence codec config.policy binding other = .ok again → again = found := by
  obtain ⟨state, entries, hrevoked, hholds, hentries⟩ := evidence_held (after_inv before) hrelay hfound
  have hlater := final_after before later hrevoked hholds
  refine ⟨fun disk hdisk => ?_, fun next hnext other again hagain => ?_⟩
  · rw [((Root.Holds.disk hlater hdisk).1).2]
    exact hentries
  · obtain ⟨state', entries', -, hholds', hentries'⟩ := evidence_held (after_inv (before ++ later)) hnext hagain
    obtain ⟨disk, hdisk⟩ := Root.exists_disk (System.after codec layout config binding (before ++ later)).root
    have hsame := ((Root.Holds.disk hlater hdisk).1).2
    rw [((Root.Holds.disk hholds' hdisk).1).2] at hsame
    rw [hsame, hentries] at hentries'
    exact (Except.ok.inj hentries').symm

end Final

/-! ## After a restart -/

section Restart

variable {codec : Codec} {layout : Layout} {config : JournalConfig} {binding : Binding}

/-- The journal's checks on a completed record are those of `restore`, when the completion was made by a relay. -/
theorem restoreOk_of_sound {entries : List EntryRecord} {record : EntryRecord} {completion : Completion}
    (hbefore : Accepted codec layout config binding entries)
    (h : SoundRecord codec layout config binding entries record)
    (hcompletion : record.entry.completion = some completion) (hminted : record.entry.Minted codec config binding) :
    RestoreOk codec config.policy binding (journaled entries).length (totalUsed (journaled entries)).completion
      record.entry.dispatch completion := by
  obtain ⟨⟨hbinding, hdispatch, -⟩, ⟨-, hroom, -⟩, hlocked⟩ := validateDispatchAuthority_ok.mp h.authority
  have hvalid := (h.completion (by rw [JournalEntry.completed, hcompletion]; rfl)).1
  unfold validateCompletedEntry at hvalid
  rw [hcompletion] at hvalid
  obtain ⟨-, -, hsequence, hrequest, hattempt, hid, hdigest, -⟩ := hvalid
  have hcanonical := hdispatch.2.2.2.2.2.2.1
  have hnamed : record.entry.dispatch.sequence = (journaled entries).length + 1 := by
    rw [h.named, h.sequence, journaled, List.length_map]
  refine ⟨⟨hnamed, hsequence, hrequest, hattempt, hid, hdigest, hcanonical⟩,
    ⟨hdispatch.2.2.2.2.2.2.2.2.2.1, hroom⟩, hlocked, hdispatch.2.2.2.2.2.2.2.2.2.2, ?_, ?_⟩
  · have hentry : record.entry = ⟨record.entry.dispatch, some completion⟩ := by rw [← hcompletion]
    rw [← hentry]
    exact hminted completion hcompletion
  · have hfits := ((h.within hbefore).fits hbinding).2.1
    rw [journaled, List.map_append, totalUsed_append] at hfits
    have htokens : (totalUsed (List.map EntryRecord.entry [record])).completion =
        completion.receipt.completionTokens := by
      simp [totalUsed, JournalEntry.completionTokens, hcompletion]
    rw [htokens] at hfits
    change (totalUsed (journaled entries)).completion + _ ≤ _ at hfits
    omega

theorem restorable_of_accepted {entries : List EntryRecord} (h : Accepted codec layout config binding entries)
    (hcompleted : ∀ record ∈ entries, record.entry.completed = true)
    (hminted : ∀ record ∈ entries, record.entry.Minted codec config binding) :
    Restorable codec config.policy binding (journaled entries) := by
  induction entries using List.reverseRecOn with
  | nil => exact Chain.everywhere_nil
  | append_singleton front last ih =>
    have hmem : last ∈ front ++ [last] := List.mem_append_right _ List.mem_cons_self
    rw [journaled, List.map_append]
    refine Chain.everywhere_append.mpr ⟨ih h.front ?_ ?_, ?_⟩
    · exact fun record hrecord => hcompleted record (List.mem_append_left _ hrecord)
    · exact fun record hrecord => hminted record (List.mem_append_left _ hrecord)
    · obtain ⟨completion, hcompletion⟩ := Option.isSome_iff_exists.mp (hcompleted last hmem)
      exact ⟨completion, hcompletion, restoreOk_of_sound h.front h.last hcompletion (hminted last hmem)⟩

/-- A journal has no more entries than the policy allows requests and retries. -/
theorem Accepted.length_le {entries : List EntryRecord} (h : Accepted codec layout config binding entries) :
    entries.length ≤ config.policy.maxRequests + config.policy.maxRetries := by
  rcases List.eq_nil_or_concat entries with rfl | ⟨front, last, rfl⟩
  · exact Nat.zero_le _
  · rw [List.concat_eq_append] at h ⊢
    have hsequence := h.last.sequence
    have hnamed := h.last.named
    have hbound := h.last.valid.2.2.2.2.1
    rw [List.length_append, List.length_singleton]
    omega

/-- A restart without faults, at an instant. -/
def Operation.plain (now : Int) : Operation := ⟨now, true, true, [], false⟩

theorem run_plain {journal next : Journal} {request : Call}
    (hcall : journal.call codec layout config request true [] = (next, .ok ())) (now : Int) :
    (Operation.plain now).run codec layout config journal request = (next, true) := by
  unfold Operation.run Operation.plain
  simp [hcall]

theorem runCapped_plain {journal next : Journal} {request : Call} {now : Int}
    (hcall : journal.call codec layout config request true [] = (next, .ok ())) (hnow : ¬ binding.deadline ≤ now) :
    (Operation.plain now).runCapped codec layout config binding journal request = (next, true) := by
  rw [Operation.runCapped]
  exact (if_neg hnow).trans (run_plain hcall now)

/-- `Load` of the relay's own journal succeeds without an install. -/
theorem load_plain {journal : Journal} (hok : journal.Ok codec layout config)
    (hclean : journal.store.syncPending = false)
    (hvalid : validateBinding codec config.policy binding)
    (hbound : ∀ state ∈ journal.store.state, state.binding = binding)
    (now : Int) : (Operation.plain now).run codec layout config journal (.load binding) = (journal, true) := by
  have hplan : journal.store.plan codec layout config (.load binding) = .ok [] := by
    show journal.store.Load layout binding = .ok []
    unfold Store.Load
    split
    · rfl
    · rename_i state hstate
      have hself := bindingsEqual_self hok.sound hstate
      rw [hbound state hstate] at hself
      rw [ensure_bind_pos (by rw [hbound state hstate]; exact hself), ensure_bind_pos]
      · rfl
      · intro record hmem
        obtain ⟨i, hi⟩ := List.mem_iff_getElem?.mp hmem
        exact (hok.sound.accepted.get hi).cloned
  exact run_plain (call_nothing hclean (.load binding) ⟨rfl, hvalid⟩ hplan []) now

theorem accepted_bound {store : Store} (h : store.Sound codec layout config)
    (hbound : ∀ state ∈ store.state, state.binding = binding) : Accepted codec layout config binding store.entries := by
  cases hstate : store.state with
  | none =>
    rw [h.unbound hstate]
    exact Accepted.nil
  | some state =>
    have haccepted := h.accepted
    rw [loadBinding_some hstate, hbound state hstate] at haccepted
    exact haccepted

/-- A sound store of the relay's records restores the relay. -/
theorem restore_sound {store : Store} (h : store.Sound codec layout config)
    (hbound : ∀ state ∈ store.state, state.binding = binding)
    (hcompleted : ∀ record ∈ store.entries, record.entry.completed = true)
    (hminted : ∀ record ∈ store.entries, record.entry.Minted codec config binding)
    (hanswered : Answered codec config binding store.entries) (now : Int) :
    restore codec config.policy binding store now =
      .ok (restored (journaled store.entries) ((store.state.map StateRecord.revoked).getD false) now) := by
  have hrestorable := restorable_of_accepted (accepted_bound h hbound) hcompleted hminted
  exact restore_eq_ok_iff.mpr ⟨hbound, h.unbound, hrestorable, hanswered, rfl⟩

/-! A step that goes through, by its input. -/

section Steps

variable {journal next : Journal} {relay ticked : Relay} {events : List Event} {dispatch : DispatchRecord}
  {operation : Operation} {now : Int}

theorem step_start (hconfig : relayConfigOk codec config binding now)
    (hload : operation.run codec layout config journal (.load binding) = (next, true))
    (hcount : next.store.entries.length ≤ config.policy.maxRequests + config.policy.maxRetries)
    (hrestore : restore codec config.policy binding next.store now = .ok relay) :
    System.step codec layout config binding ⟨.opened journal, none, events⟩ (.start now operation) =
      ⟨.opened next, some relay, events⟩ := by
  simp only [System.step, System.idle, System.start, if_pos hconfig, hload, if_neg (Nat.not_lt.mpr hcount), hrestore]

/-- The first request of an idle relay is launched when its bounds can be locked. -/
theorem admit_first {request : InferenceMinerRequest} {minerSHA256 requestID lockedSHA256 : String}
    {locked : InferenceLockedRequest} (hidle : relay.active = none ∧ relay.entries = [])
    (hopen : relay.fatal = none ∧ relay.revoked = false) (hclock : relay.trustedNow now = .ok relay)
    (hbinding : validateBinding codec config.policy binding) (hnow : ¬ binding.deadline ≤ now)
    (hlock : LockInferenceRequest codec config.policy (request.clamp binding.completionTokenBudget) = some locked)
    (hlocked : InferenceLockedRequestSHA256 codec config.policy locked = some lockedSHA256)
    (hrequestID : canonicalUUID requestID = true) :
    relay.admit codec config.policy binding request minerSHA256 now requestID =
      ({ relay with active := some ⟨⟨1, 1, 1, requestID, minerSHA256, request, lockedSHA256, locked⟩, .begin⟩ },
        .admitted) := by
  obtain ⟨lastNow, entries, revoked, revocationDurable, active, fatal, revoking⟩ := relay
  obtain ⟨rfl, rfl⟩ : active = none ∧ entries = [] := hidle
  obtain ⟨rfl, rfl⟩ : fatal = none ∧ revoked = false := hopen
  obtain ⟨-, -, -, -, -, -, -, -, -, -, -, -, -, -, hrequests, -, hprompt, -, hcompletion, -, hcost, -⟩ := hbinding
  have hbudget : costBudget config.policy binding = binding.costBudgetUSDMicros := if_neg (Nat.ne_of_gt hcost)
  have hroom : ¬ (0 ≥ binding.requestBudget ∨ 0 ≥ binding.promptTokenBudget ∨ 0 ≥ binding.completionTokenBudget ∨
      0 ≥ costBudget config.policy binding) := by
    rw [hbudget]
    omega
  have haccount : accountingFor [] = some ⟨0, 0, 0, 0, 0⟩ := rfl
  unfold Relay.admit
  simp only [if_neg Bool.false_ne_true, hclock, if_neg hnow, List.getLast?_nil, Option.bind_none, Relay.launch,
    haccount, if_neg hroom, Nat.sub_zero, hlock, hlocked]
  rw [if_pos ⟨hrequestID, List.forall_mem_nil _⟩]
  rfl

theorem step_complete {request : InferenceMinerRequest} {minerSHA256 requestID : String}
    (hdigest : InferenceMinerRequestSHA256 codec config.policy request = some minerSHA256)
    (hlaunched : relay.admit codec config.policy binding request minerSHA256 now requestID = (ticked, .admitted)) :
    System.step codec layout config binding ⟨.opened journal, some relay, events⟩ (.complete request now requestID) =
      ⟨.opened journal, some ticked, events⟩ := by
  show System.complete codec config binding _ relay request now requestID = _
  unfold System.complete
  simp only [hdigest]
  generalize relay.admit codec config.policy binding request minerSHA256 now requestID = admitted at hlaunched ⊢
  rw [hlaunched]

theorem step_begin (hactive : relay.active = some ⟨dispatch, .begin⟩)
    (hrun : operation.runCapped codec layout config binding journal (.begin binding dispatch) = (next, true)) :
    System.step codec layout config binding ⟨.opened journal, some relay, events⟩ (.begin operation) =
      ⟨.opened next, some { relay with active := some ⟨dispatch, .call⟩ }, events⟩ := by
  simp only [System.step, System.live, hactive, System.begin, hrun]

theorem step_call (hactive : relay.active = some ⟨dispatch, .call⟩) (hclock : relay.trustedNow now = .ok ticked)
    (hnow : ¬ binding.deadline ≤ now) :
    System.step codec layout config binding ⟨.opened journal, some relay, events⟩ (.call now) =
      ⟨.opened journal, some { ticked with active := some ⟨dispatch, .called⟩ },
        events ++ [.called (upstreamRequest binding dispatch)]⟩ := by
  simp only [System.step, System.live, hactive, System.call, hclock, if_neg hnow]

theorem entryForResult_ok {result : UpstreamResult} {settlementSHA256 : String} {response : List UInt8}
    (hsettles : result.settlement.Validate codec config.policy = true ∧ result.settlement.ticketID = binding.ticketID ∧
      result.settlement.caseID = binding.caseID ∧
      result.settlement.profileCapabilityID = binding.profileCapabilityID ∧
      result.settlement.inferenceGrantSHA256 = binding.inferenceGrantSHA256 ∧
      result.settlement.grantID = binding.grantID ∧ result.settlement.generation = binding.generation ∧
      result.settlement.requestID = dispatch.requestID ∧
      result.settlement.requestSequence = dispatch.requestSequence ∧ result.settlement.attempt = dispatch.attempt ∧
      result.settlement.lockedRequestSHA256 = dispatch.lockedRequestSHA256 ∧
      result.settlement.completionTokens ≤ dispatch.lockedRequest.maxCompletionTokens)
    (hdigest : InferenceProviderSettlementSHA256 codec config.policy result.settlement = some settlementSHA256)
    (hresponse : settledResponse codec config.policy result = .ok response)
    (hmatches : result.settlement.ValidateAgainstReceipt codec config.policy
      (receiptOf config.policy dispatch result.settlement settlementSHA256) = true) :
    entryForResult codec config.policy binding dispatch result =
      .ok ⟨dispatch, some ⟨result.settlement, receiptOf config.policy dispatch result.settlement settlementSHA256,
        result.normalizedResponse, result.failureResponseProjection, response⟩⟩ := by
  unfold entryForResult
  rw [ensure_bind_pos hsettles]
  simp only [hdigest, hresponse]
  show (ensure _ _ >>= _) = _
  rw [ensure_bind_pos hmatches]
  rfl

theorem receive_entry {result : UpstreamResult} {entry : JournalEntry} (hclock : relay.trustedNow now = .ok ticked)
    (hnow : ¬ binding.deadline ≤ now) (hnormalized : result.normalizedResponse.length ≤ config.policy.maxResponseBytes)
    (hprojection : result.failureResponseProjection.length ≤ config.policy.maxResponseBytes)
    (hentry : entryForResult codec config.policy binding dispatch result = .ok entry) :
    relay.receive codec config.policy binding dispatch (some result) now false = (ticked, .ok entry) := by
  have hbounded : ¬ (false = true ∨ binding.deadline ≤ now ∨
      result.normalizedResponse.length > config.policy.maxResponseBytes ∨
      result.failureResponseProjection.length > config.policy.maxResponseBytes) := by
    simp only [Bool.false_eq_true, false_or, not_or, not_lt, gt_iff_lt]
    exact ⟨hnow, hnormalized, hprojection⟩
  unfold Relay.receive
  simp only [hclock, if_neg hbounded, hentry]

theorem step_answer {result : Option UpstreamResult} {late : Bool} {entry : JournalEntry}
    (hactive : relay.active = some ⟨dispatch, .called⟩)
    (hreceive : relay.receive codec config.policy binding dispatch result now late = (ticked, .ok entry)) :
    System.step codec layout config binding ⟨.opened journal, some relay, events⟩ (.answer result now late) =
      ⟨.opened journal, some { ticked with active := some ⟨dispatch, .settle entry⟩ }, events⟩ := by
  simp only [System.step, System.live, hactive, System.answer, hreceive]

theorem step_settle {entry : JournalEntry} (hactive : relay.active = some ⟨dispatch, .settle entry⟩)
    (hrun : operation.runCapped codec layout config binding journal (.complete binding entry) = (next, true)) :
    System.step codec layout config binding ⟨.opened journal, some relay, events⟩ (.settle operation) =
      ⟨.opened next, some { relay with entries := keepEntry relay.entries entry
                                       active := some ⟨dispatch, .settled entry⟩ }, events⟩ := by
  simp only [System.step, System.live, hactive, System.settle, hrun]

theorem step_finish {asked : DispatchRecord} {completion : Completion} {found : ModelEvidence}
    (hactive : relay.active = some ⟨dispatch, .settled ⟨asked, some completion⟩⟩)
    (hcomplete : completion.receipt.outcome = .complete)
    (hevidence : evidence codec config.policy binding relay.entries = .ok found) :
    System.step codec layout config binding ⟨.opened journal, some relay, events⟩ (.finish now) =
      ⟨.opened journal, some (relay.finishFlight none), events ++
        [.responded dispatch.requestSequence dispatch.minerRequestSHA256 completion.minerResponse]⟩ := by
  simp [System.step, System.live, hactive, System.finish, hcomplete, hevidence]

theorem step_revoke (hdurable : relay.revocationDurable = false) (hrevoking : relay.revoking = none) :
    System.step codec layout config binding ⟨.opened journal, some relay, events⟩ .revoke =
      ⟨.opened journal, some { relay with revoked := true, revoking := some relay.active.isSome }, events⟩ := by
  simp [System.step, System.live, hrevoking, System.revoke, hdurable]

theorem step_persist (hrevoking : relay.revoking = some false)
    (hrun : operation.run codec layout config journal (.revoke binding) = (next, true)) :
    System.step codec layout config binding ⟨.opened journal, some relay, events⟩ (.persist operation) =
      ⟨.opened next, some { relay with revocationDurable := true, revoking := none }, events ++ [.revoked]⟩ := by
  simp only [System.step, System.live, hrevoking, System.persist, hrun]

end Steps

/-- A relay without a flight and without an error is there again after a crash and a restart, with the entries it held,
if no record is nested too deeply for the reader. -/
theorem restart_restores (inputs : List Input) {journal : Journal} {relay : Relay}
    (hroot : (System.after codec layout config binding inputs).root = .opened journal)
    (hrelay : (System.after codec layout config binding inputs).relay = some relay) (hidle : relay.active = none)
    (hfatal : relay.fatal = none) (kept : Bool) {now : Int} (hconfig : relayConfigOk codec config binding now)
    (hreadable : ∀ record ∈ journal.store.entries, layout.depth (.record record) ≤ 32) :
    ∃ restart, (System.after codec layout config binding
        (inputs ++ [.crash kept, .start now (.plain now), .start now (.plain now)])).relay = some restart ∧
      restart.entries = relay.entries ∧ restart.active = none ∧ restart.fatal = none ∧
      (relay.revocationDurable = true → restart.revocationDurable = true) := by
  have hinv : (System.after codec layout config binding inputs).Inv codec layout config binding := after_inv inputs
  obtain ⟨other, hother, hlive⟩ := hinv.relay relay hrelay
  rw [hroot] at hother
  cases hother
  have hstaged := hlive.staged
  rw [hidle] at hstaged
  cases hstaged with
  | failed hfailed =>
    rw [hfatal] at hfailed
    cases hfailed
  | idle records hheld hanswered =>
    have hfiles := hinv.root.settled
    rw [hroot] at hfiles
    -- Either kind of crash leaves the files of a sound store with the relay's records.
    have hdisk := holds_crashed (Lasting.and hheld.lasting hfiles) kept
    obtain ⟨⟨old, hsound, himage⟩, hrecords⟩ := hdisk
    rw [himage, image_records, image_state, List.append_nil] at hrecords
    obtain ⟨⟨rfl, hbound⟩, hsettled⟩ := hrecords
    have hentries : journal.store.entries = old.entries := by rw [hheld.memory.1, List.append_nil]
    rw [hentries] at hreadable
    have hrecover := recover_image hsound hreadable
    have hok : Journal.Ok codec layout config ⟨old.image, old.image, { old with syncPending := false }⟩ :=
      Journal.Ok.of_synced (hsound.sync false)
    have hload := load_plain hok rfl hconfig.2.1 hbound now
    have hrestore := restore_sound (hsound.sync false) hbound hheld.completed
        (fun record hmem => (hsettled record hmem).1)
      hanswered now
    have hcount : old.entries.length ≤ config.policy.maxRequests + config.policy.maxRetries :=
      (accepted_bound hsound hbound).length_le
    generalize hsystem : System.after codec layout config binding inputs = system at hroot hrelay
    have hcrash : system.step codec layout config binding (.crash kept) = ⟨.closed old.image, none, system.events⟩ := by
      simp only [System.step, hroot, hrelay, System.live, himage]
    have hreopen : System.step codec layout config binding ⟨.closed old.image, none, system.events⟩
        (.start now (.plain now)) = ⟨.opened ⟨old.image, old.image, { old with syncPending := false }⟩, none,
          system.events⟩ := by
      simp only [System.step, System.reopen, hrecover]
    have hstart : System.step codec layout config binding
        ⟨.opened ⟨old.image, old.image, { old with syncPending := false }⟩, none, system.events⟩
        (.start now (.plain now)) = ⟨.opened ⟨old.image, old.image, { old with syncPending := false }⟩,
          some (restored (journaled old.entries) ((old.state.map StateRecord.revoked).getD false) now),
            system.events⟩ :=
      step_start hconfig hload hcount hrestore
    refine ⟨restored (journaled old.entries) ((old.state.map StateRecord.revoked).getD false) now, ?_, hheld.kept.symm,
      rfl, rfl, fun hdurable => ?_⟩
    · rw [after_append, hsystem]
      show (System.step _ _ _ _ (System.step _ _ _ _ (System.step _ _ _ _ system _) _) _).relay = _
      rw [hcrash, hreopen, hstart]
    · obtain ⟨-, -, state, entries, hrevoked, hholds⟩ := hlive.final hdurable
      have hstate := (holds_crashed hholds kept).2.1
      rw [himage, image_state] at hstate
      show (old.state.map StateRecord.revoked).getD false = true
      rw [hstate]
      exact hrevoked

end Restart

/-! ## One request and a revocation -/

/-- An instant after the sample binding was issued. -/
def sampleNow : Int := sampleBinding.issuedAt + 1

/-- One request, answered and settled, and then the revocation. -/
def sampleRun : List Input :=
  [.start sampleNow (.plain sampleNow), .complete sampleMinerRequest sampleNow sampleDispatch.requestID,
    .begin (.plain sampleNow), .call sampleNow,
    .answer (some ⟨sampleSettlement, sampleNormalizedBody, []⟩) sampleNow false, .settle (.plain sampleNow),
    .finish sampleNow, .revoke, .persist (.plain sampleNow)]

theorem sample_relayConfigOk : relayConfigOk sampleCodec sampleConfig sampleBinding sampleNow :=
  ⟨samplePolicy_validate, sampleBinding_valid, by decide, by decide⟩

theorem sampleNow_capped : ¬ sampleBinding.deadline ≤ sampleNow := by
  decide

/-- The relay during the run. -/
def sampleRelay (entries : List JournalEntry) (active : Option Flight) : Relay :=
  ⟨sampleNow, entries, false, false, active, none, none⟩

theorem sampleRelay_clock (entries : List JournalEntry) (active : Option Flight) :
    (sampleRelay entries active).trustedNow sampleNow = .ok (sampleRelay entries active) := rfl

theorem sample_started :
    System.step sampleCodec sampleLayout sampleConfig sampleBinding System.initial
      (.start sampleNow (.plain sampleNow)) = ⟨.opened Journal.fresh, some (sampleRelay [] none), []⟩ := by
  have hplan : Journal.fresh.store.plan sampleCodec sampleLayout sampleConfig (.load sampleBinding) = .ok [] := rfl
  have hcall := call_nothing rfl (.load sampleBinding) (sample_admissible rfl rfl) hplan []
  exact step_start sample_relayConfigOk (run_plain hcall sampleNow) (Nat.zero_le _) rfl

theorem sample_admitted (journal : Journal) (events : List Event) :
    System.step sampleCodec sampleLayout sampleConfig sampleBinding
      ⟨.opened journal, some (sampleRelay [] none), events⟩
      (.complete sampleMinerRequest sampleNow sampleDispatch.requestID) =
      ⟨.opened journal, some (sampleRelay [] (some ⟨sampleDispatch, .begin⟩)), events⟩ := by
  obtain ⟨-, -, -, -, -, -, hrequestID, -, -, hminer, hlocked⟩ := sampleDispatch_valid
  exact step_complete hminer (admit_first ⟨rfl, rfl⟩ ⟨rfl, rfl⟩ rfl sampleBinding_valid sampleNow_capped
    sampleDispatch_locked hlocked hrequestID)

theorem sample_begun :
    System.step sampleCodec sampleLayout sampleConfig sampleBinding
      ⟨.opened Journal.fresh, some (sampleRelay [] (some ⟨sampleDispatch, .begin⟩)), []⟩ (.begin (.plain sampleNow)) =
      ⟨.opened dispatchedJournal, some (sampleRelay [] (some ⟨sampleDispatch, .call⟩)), []⟩ :=
  step_begin rfl (runCapped_plain (sampleDispatch_call []) sampleNow_capped)

theorem sample_called (journal : Journal) (events : List Event) :
    System.step sampleCodec sampleLayout sampleConfig sampleBinding
      ⟨.opened journal, some (sampleRelay [] (some ⟨sampleDispatch, .call⟩)), events⟩ (.call sampleNow) =
      ⟨.opened journal, some (sampleRelay [] (some ⟨sampleDispatch, .called⟩)),
        events ++ [.called (upstreamRequest sampleBinding sampleDispatch)]⟩ :=
  step_call rfl (sampleRelay_clock _ _) sampleNow_capped

theorem sample_entry : entryForResult sampleCodec sampleConfig.policy sampleBinding sampleDispatch
    ⟨sampleSettlement, sampleNormalizedBody, []⟩ = .ok sampleEntry := by
  have hdigest : InferenceProviderSettlementSHA256 sampleCodec samplePolicy sampleSettlement =
      some sampleReceipt.providerSettlementSHA256 := by
    unfold InferenceProviderSettlementSHA256
    rw [sampleSettlement_validate]
    decide +kernel
  have hresponse : settledResponse sampleCodec samplePolicy ⟨sampleSettlement, sampleNormalizedBody, []⟩ =
      .ok sampleMinerBody := by
    decide +kernel
  exact entryForResult_ok ⟨sampleSettlement_validate, rfl, rfl, rfl, rfl, rfl, rfl, rfl, rfl, rfl, rfl, by decide⟩
    hdigest hresponse sampleCompletion_matches

theorem sample_answered (journal : Journal) (events : List Event) :
    System.step sampleCodec sampleLayout sampleConfig sampleBinding
      ⟨.opened journal, some (sampleRelay [] (some ⟨sampleDispatch, .called⟩)), events⟩
      (.answer (some ⟨sampleSettlement, sampleNormalizedBody, []⟩) sampleNow false) =
      ⟨.opened journal, some (sampleRelay [] (some ⟨sampleDispatch, .settle sampleEntry⟩)), events⟩ := by
  have hlength : sampleNormalizedBody.length ≤ sampleConfig.policy.maxResponseBytes := by
    decide +kernel
  exact step_answer rfl (receive_entry (sampleRelay_clock _ _) sampleNow_capped hlength (Nat.zero_le _) sample_entry)

theorem sample_settled (events : List Event) :
    System.step sampleCodec sampleLayout sampleConfig sampleBinding
      ⟨.opened dispatchedJournal, some (sampleRelay [] (some ⟨sampleDispatch, .settle sampleEntry⟩)), events⟩
      (.settle (.plain sampleNow)) =
      ⟨.opened completedJournal, some (sampleRelay [compactEntry sampleEntry true]
        (some ⟨sampleDispatch, .settled sampleEntry⟩)), events⟩ :=
  step_settle rfl (runCapped_plain sampleCompletion_call sampleNow_capped)

def sampleRunJournal : Journal := oneRecord ⟨2, sampleBinding, true⟩ ⟨2, 1, sampleEntry⟩

def sampleRunRelay : Relay := ⟨sampleNow, [compactEntry sampleEntry true], true, true, none, none, none⟩

/-- The receipts of the run, and the digest of their set. -/
def sampleReceiptSet : InferenceReceiptSet := receiptSet sampleBinding [sampleReceipt]

def sampleReceiptRoot : String := "0000000000000000000000000000000000000000000000000000000000000000"

def sampleEvidence : ModelEvidence :=
  evidenceOf sampleCodec samplePolicy ⟨1, 0, 10, 200, 50, false⟩ sampleReceiptRoot

theorem sampleReceiptSet_bound : validateInferenceReceiptBinding sampleCodec samplePolicy (receiptBinding sampleBinding)
    sampleReceiptSet = .ok () := by
  obtain ⟨-, -, -, hticket, hcase, hprofile, hgrant, hpos, hle, hpolicy, hbudgets⟩ := sampleBinding_valid
  obtain ⟨-, -, -, -, hrequests, hrequests', hprompt, hprompt', hcompletion, hcompletion', -⟩ := hbudgets
  have hsome : (InferencePolicySHA256 sampleCodec samplePolicy).isSome = true :=
    Option.isSome_iff_exists.mpr ⟨_, hpolicy⟩
  have hauthority : receiptAuthorityOk sampleCodec samplePolicy (receiptBinding sampleBinding) :=
    ⟨hticket, hcase, hprofile, hgrant, hpos, hle, hpolicy, hrequests, hrequests', hprompt, hprompt', hcompletion,
      hcompletion'⟩
  unfold validateInferenceReceiptBinding validateInferenceReceiptAuthority
  rw [ensure_bind_pos hsome, check_bind_eq_ok_iff]
  exact ⟨ensure_eq_ok_iff.mpr hauthority, ensure_eq_ok_iff.mpr rfl⟩

theorem sampleReceiptSet_derived : DeriveInferenceModelEvidence sampleCodec samplePolicy (receiptBinding sampleBinding)
    sampleReceiptSet [sampleSettlement] = .ok sampleEvidence := by
  have haggregate : validateInferenceReceiptSet samplePolicy sampleReceiptSet sampleCodec =
      .ok ⟨1, 0, 10, 200, 50, false⟩ := by
    decide +kernel
  have hcovers : settlementCovers sampleCodec samplePolicy (receiptBinding sampleBinding) sampleReceipt
      sampleSettlement = .ok () := by
    unfold settlementCovers
    rw [ensure_bind_pos ⟨rfl, rfl, rfl, rfl, rfl, rfl⟩]
    exact if_pos sampleCompletion_matches
  have hroot : receiptSetRoot sampleCodec sampleReceiptSet = .ok sampleReceiptRoot := by
    decide +kernel
  have hvalid : sampleEvidence.Validate = .ok () := by
    decide +kernel
  have hzip : sampleReceiptSet.receipts.zip [sampleSettlement] = [(sampleReceipt, sampleSettlement)] := rfl
  unfold DeriveInferenceModelEvidence
  rw [check_bind_eq_ok_iff, bind_eq_ok_iff]
  refine ⟨sampleReceiptSet_bound, _, haggregate, ?_⟩
  rw [ensure_bind_eq_ok_iff, hzip, List.forM, check_bind_eq_ok_iff, check_bind_eq_ok_iff, bind_eq_ok_iff]
  exact ⟨rfl, ⟨hcovers, rfl⟩, _, hroot, check_bind_eq_ok_iff.mpr ⟨hvalid, rfl⟩⟩

theorem sampleEntries_evidence :
    evidence sampleCodec sampleConfig.policy sampleBinding [compactEntry sampleEntry true] = .ok sampleEvidence := by
  have hwithin : withinBudgets sampleConfig.policy sampleBinding [compactEntry sampleEntry true] = true := by
    decide +kernel
  show (if _ then _ else if _ then _ else _) = _
  rw [if_neg (by decide), if_pos hwithin]
  show Except.mapError _ (DeriveInferenceModelEvidence sampleCodec samplePolicy (receiptBinding sampleBinding)
      sampleReceiptSet [sampleSettlement]) = _
  rw [sampleReceiptSet_derived]
  rfl

theorem sample_finished (events : List Event) :
    System.step sampleCodec sampleLayout sampleConfig sampleBinding
      ⟨.opened completedJournal, some (sampleRelay [compactEntry sampleEntry true]
        (some ⟨sampleDispatch, .settled sampleEntry⟩)), events⟩ (.finish sampleNow) =
      ⟨.opened completedJournal, some (sampleRelay [compactEntry sampleEntry true] none),
        events ++ [.responded 1 sampleDispatch.minerRequestSHA256 sampleMinerBody]⟩ := by
  have hactive : (sampleRelay [compactEntry sampleEntry true] (some ⟨sampleDispatch, .settled sampleEntry⟩)).active =
      some ⟨sampleDispatch, .settled ⟨sampleDispatch, some ⟨sampleSettlement, sampleReceipt, sampleNormalizedBody, [],
        sampleMinerBody⟩⟩⟩ := rfl
  exact step_finish hactive rfl sampleEntries_evidence

theorem sampleRevocation_call :
    completedJournal.call sampleCodec sampleLayout sampleConfig (.revoke sampleBinding) true [] =
      (sampleRunJournal, .ok ()) := by
  have hplan : completedJournal.store.plan sampleCodec sampleLayout sampleConfig (.revoke sampleBinding) =
      .ok [.state ⟨2, sampleBinding, true⟩ 752 true] := by
    decide +kernel
  rw [call_clean rfl (sample_admissible rfl rfl), hplan]
  rfl

theorem sample_revoking (events : List Event) :
    System.step sampleCodec sampleLayout sampleConfig sampleBinding
      ⟨.opened completedJournal, some (sampleRelay [compactEntry sampleEntry true] none), events⟩ .revoke =
      ⟨.opened completedJournal, some ⟨sampleNow, [compactEntry sampleEntry true], true, false, none, none, some false⟩,
        events⟩ :=
  step_revoke rfl rfl

theorem sample_revoked (events : List Event) :
    System.step sampleCodec sampleLayout sampleConfig sampleBinding
      ⟨.opened completedJournal, some ⟨sampleNow, [compactEntry sampleEntry true], true, false, none, none, some false⟩,
        events⟩ (.persist (.plain sampleNow)) =
      ⟨.opened sampleRunJournal, some sampleRunRelay, events ++ [.revoked]⟩ :=
  step_persist rfl (run_plain sampleRevocation_call sampleNow)

/-- The system after the run. -/
theorem sampleRun_after :
    System.after sampleCodec sampleLayout sampleConfig sampleBinding sampleRun =
      ⟨.opened sampleRunJournal, some sampleRunRelay, [.called (upstreamRequest sampleBinding sampleDispatch),
        .responded 1 sampleDispatch.minerRequestSHA256 sampleMinerBody, .revoked]⟩ := by
  rw [System.after, sampleRun, run_cons, sample_started, run_cons, sample_admitted, run_cons, sample_begun, run_cons,
    sample_called, run_cons, sample_answered, run_cons, sample_settled, run_cons, sample_finished, run_cons,
    sample_revoking, run_cons, sample_revoked]
  rfl

def sampleEvidenceBinding : EvidenceBinding :=
  ⟨sampleBinding.attemptID, sampleBinding.agentArtifactSHA256, sampleBinding.harnessInstanceID, sampleBinding.ticketID,
    sampleBinding.caseID, sampleBinding.profileCapabilityID, sampleBinding.inferenceGrantSHA256, sampleBinding.deadline,
    sampleBinding.requestBudget, sampleBinding.promptTokenBudget, sampleBinding.completionTokenBudget,
    sampleBinding.costBudgetUSDMicros⟩

theorem sampleRunRelay_evidence :
    sampleRunRelay.Evidence sampleCodec sampleConfig.policy sampleBinding sampleEvidenceBinding =
      .ok sampleEvidence := by
  unfold Relay.Evidence
  rw [ensure_bind_eq_ok_iff, ensure_bind_eq_ok_iff, ensure_bind_eq_ok_iff]
  exact ⟨rfl, ⟨rfl, rfl⟩, ⟨rfl, rfl⟩, sampleEntries_evidence⟩

/-- A second request comes after the revocation, before and after a restart. -/
theorem sampleRevocation_final : ∃ since,
    (System.after sampleCodec sampleLayout sampleConfig sampleBinding (sampleRun ++
      [.complete sampleMinerRequest (sampleNow + 1) "44444444-4444-4444-8444-444444444444",
        .begin (.plain (sampleNow + 1)), .call (sampleNow + 1), .crash true, .start sampleNow (.plain sampleNow),
        .start sampleNow (.plain sampleNow), .complete sampleMinerRequest (sampleNow + 2) sampleDispatch.requestID,
        .revoke])).events =
      (System.after sampleCodec sampleLayout sampleConfig sampleBinding sampleRun).events ++ since ∧
    ∀ event ∈ since, event = .revoked := by
  have hrevoked : .revoked ∈ (System.after sampleCodec sampleLayout sampleConfig sampleBinding sampleRun).events := by
    rw [sampleRun_after]
    exact .tail _ (.tail _ (.head _))
  exact (revocation_final sampleRun _ hrevoked).2

/-- The evidence of the run, of one request, is on every disk after a crash. -/
theorem sampleEvidence_settled :
    sampleEvidence.requests = 1 ∧
    ∀ disk ∈ (System.after sampleCodec sampleLayout sampleConfig sampleBinding
        (sampleRun ++ [.crash false])).root.disks,
      evidence sampleCodec sampleConfig.policy sampleBinding (journaled disk.records) = .ok sampleEvidence := by
  have hrelay : (System.after sampleCodec sampleLayout sampleConfig sampleBinding sampleRun).relay =
      some sampleRunRelay := by
    rw [sampleRun_after]
  exact ⟨rfl, (evidence_settled sampleRun [.crash false] hrelay sampleRunRelay_evidence).1⟩

/-- The relay of the run is there again with its entry. -/
theorem sampleRestart_restores : ∃ restart,
    (System.after sampleCodec sampleLayout sampleConfig sampleBinding (sampleRun ++
      [.crash true, .start sampleNow (.plain sampleNow), .start sampleNow (.plain sampleNow)])).relay = some restart ∧
    restart.entries = [compactEntry sampleEntry true] ∧ restart.active = none ∧ restart.fatal = none ∧
    (sampleRunRelay.revocationDurable = true → restart.revocationDurable = true) := by
  have hafter := sampleRun_after
  refine restart_restores sampleRun (congrArg System.root hafter) (congrArg System.relay hafter) rfl rfl true
    sample_relayConfigOk ?_
  intro record hmem
  obtain rfl := List.mem_singleton.1 hmem
  exact Nat.le_of_ble_eq_true rfl

end DittoSubnet.Coding

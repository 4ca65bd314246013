import DittoSubnet.Kit.Chain
import DittoSubnet.Treasury.Authority
import DittoSubnet.Treasury.Mailbox

/-!
# Finality of the manual mailbox

The worker is the only process that arms and refuses, so what a statement has read of a request id still holds at the
next one: `Knows` is what each statement knows, and `Kept` the invariant of the mailroom.

* `mailbox_final`: in every run a refused request is never armed and gets no operation; an armed request is never
  refused; a request is bound to at most one operation; an acknowledged message has a terminal report before it, unless
  it is invalid or not the message that bound its request id; and no request has a finalized and a refused report.
-/

namespace DittoSubnet.Treasury

open Kit Relation

variable {custody : Custody} {digest : Envelope → String} {journal journal' : Journal} {room : Mailroom}
  {envelope : Envelope} {chain : MailboxChain}

/-! ## What the calls of the collector leave -/

/-- A write only appends events. -/
theorem Change.prefix_events (h : Change custody journal journal') : journal.events <+: journal'.events := by
  cases h with
  | note notes _ => exact List.prefix_append _ _
  | reserve signed notes _ _ => exact List.prefix_append _ _
  | canary _ | replace _ | expire _ => exact List.prefix_append _ _
  | _ => exact List.prefix_refl _

/-- A write other than an arming records no intent. -/
theorem Change.armed_policy (h : Change custody journal journal') {policy : String} {request : ManualTransfer}
    (hevent : Event.manualTransferArmed policy request ∈ journal'.events) :
    Event.manualTransferArmed policy request ∈ journal.events := by
  cases h with
  | note notes hnotes =>
    rcases List.mem_append.1 hevent with hevent | hevent
    · exact hevent
    · cases hnotes _ hevent
  | reserve signed notes hnotes _ =>
    rcases List.mem_append.1 hevent with hevent | hevent
    · exact hevent
    · cases hnotes _ hevent
  | canary _ | replace _ | expire _ =>
    rcases List.mem_append.1 hevent with hevent | hevent
    · exact hevent
    · cases List.mem_singleton.1 hevent
  | _ => exact hevent

/-- What the calls of the collector keep of a journal. -/
structure Recorded (custody : Custody) (journal : Journal) : Prop where
  governed : Governed custody journal
  pin : journal.pin = (custody.policy.digest, .transfer)
  nodup : (armedIds journal.events).Nodup
  policy : ∀ policy request, Event.manualTransferArmed policy request ∈ journal.events → policy = custody.policy.digest

/-- What the other processes do to a journal: the intents stay and events are appended. -/
structure Leaves (journal journal' : Journal) : Prop where
  armed : journal'.events.filterMap Event.armed? = journal.events.filterMap Event.armed?
  events : journal.events <+: journal'.events

theorem Changes.leaves (h : Changes custody journal journal') : Leaves journal journal' := by
  induction h with
  | refl => exact ⟨rfl, List.prefix_refl _⟩
  | tail _ hchange ih => exact ⟨hchange.armed_eq.trans ih.armed, ih.events.trans hchange.prefix_events⟩

theorem Recorded.changes (hj : Recorded custody journal) (h : Changes custody journal journal') :
    Recorded custody journal' := by
  induction h with
  | refl => exact hj
  | tail _ hchange ih =>
    refine ⟨ih.governed.change hchange, hchange.pin_eq.trans ih.pin, ?_, ?_⟩
    · unfold armedIds
      rw [hchange.armed_eq]
      exact ih.nodup
    · intro policy request hevent
      exact ih.policy policy request (hchange.armed_policy hevent)

/-- The intents after an arming. -/
theorem armed_event (journal : Journal) (policy : String) (request : ManualTransfer) :
    (journal.event (.manualTransferArmed policy request)).events.filterMap Event.armed? =
      journal.events.filterMap Event.armed? ++ [request] := by
  rw [Journal.event_events, List.filterMap_append]
  rfl

/-- A request that can be armed never was. -/
theorem Armable.fresh_id {request : ManualTransfer} {existing : TransferCanary} {manual : List ManualTransfer}
    (h : Armable custody journal request existing manual) : request.requestId ∉ armedIds journal.events := by
  intro hmem
  obtain ⟨armed, harmed, hid⟩ := List.mem_map.1 hmem
  have hlive : armed ∈ manual := by
    rw [(manualTransferHistory_spec h.history).1, liveIntents, List.mem_filter]
    refine ⟨harmed, ?_⟩
    rw [decide_eq_true_eq, hid]
    exact h.unexpired
  exact h.fresh armed hlive hid

theorem Recorded.arm (hj : Recorded custody journal) {request : ManualTransfer} {existing : TransferCanary}
    {manual : List ManualTransfer} (h : Armable custody journal request existing manual) :
    Recorded custody (journal.event (.manualTransferArmed custody.policy.digest request)) := by
  refine ⟨hj.governed.arm h, hj.pin, ?_, ?_⟩
  · have hfresh := h.fresh_id
    unfold armedIds at hfresh ⊢
    rw [armed_event, List.map_append, List.nodup_append]
    refine ⟨hj.nodup, by simp, ?_⟩
    intro id hid id' hid' heq
    rw [List.map_singleton, List.mem_singleton] at hid'
    rw [heq, hid'] at hid
    exact hfresh hid
  · intro policy armed hevent
    rcases List.mem_append.1 hevent with hevent | hevent
    · exact hj.policy policy armed hevent
    · cases List.mem_singleton.1 hevent
      rfl

theorem recorded_initial : Recorded custody (initialJournal custody .transfer) := by
  refine ⟨governed_reachable custody [], rfl, List.nodup_nil, ?_⟩
  intro policy request hevent
  cases hevent

/-- What `arm_manual_transfer` answers: it records the request, finds it recorded, or only checks it. -/
theorem armManualTransfer_outcome {collector : CollectorChain} {requested : ManualTransfer} {record : Bool}
    {status : ArmStatus} (h : armManualTransfer custody collector requested record journal = .ok (journal', status)) :
    (record = true ∧ status = .armed ∧ journal' = journal.event (.manualTransferArmed custody.policy.digest requested) ∧
        ∃ existing manual, Armable custody journal requested existing manual) ∨
      (journal' = journal ∧ status = .alreadyArmed ∧ requested ∈ journal.events.filterMap Event.armed?) ∨
      (journal' = journal ∧ record = false) := by
  have hcases := armManualTransfer_cases h
  unfold armManualTransfer at h
  simp only [bind_eq_ok_iff, ensure_eq_ok_iff, exists_and_left, exists_const] at h
  obtain ⟨-, -, -, -, -, -, manual, hmanual, h⟩ := h
  split at h
  · rename_i request hfound
    simp only [bind_eq_ok_iff, ensure_eq_ok_iff, exists_and_left, exists_const, pure_eq_ok_iff, Prod.mk.injEq] at h
    obtain ⟨rfl, hsame, hstatus⟩ := h
    refine .inr (.inl ⟨hsame.symm, hstatus.symm, ?_⟩)
    have hlive := List.mem_of_find?_eq_some hfound
    rw [(manualTransferHistory_spec hmanual).1] at hlive
    exact List.mem_of_mem_filter hlive
  · simp only [bind_eq_ok_iff] at h
    obtain ⟨⟨same, bound⟩, hcanary, u, -, h⟩ := h
    obtain rfl := transferCanary_none hcanary
    cases record with
    | false =>
      simp only [Bool.false_eq_true, if_false, pure_eq_ok_iff, Prod.mk.injEq] at h
      exact .inr (.inr ⟨h.1.symm, rfl⟩)
    | true =>
      simp only [if_true, pure_eq_ok_iff, Prod.mk.injEq] at h
      refine .inl ⟨rfl, h.2.symm, h.1.symm, ?_⟩
      rcases hcases with hsame | ⟨-, harmable⟩
      · -- an appended event is no fixed point
        rw [hsame] at h
        have hlength := congrArg (fun j : Journal => j.events.length) h.1
        simp at hlength
      · exact harmable

/-- A call of another process. -/
theorem step_leaves (hj : Recorded custody journal) (collector : CollectorChain) {call : CollectorCall}
    (hcall : call.isArming = false) :
    Recorded custody (step custody journal (collector, call)) ∧
      Leaves journal (step custody journal (collector, call)) := by
  have hchanges : Changes custody journal (step custody journal (collector, call)) := by
    cases call with
    | tick input => exact commit_rel .refl fun _ _ h => tick_changes hj.pin h
    | armManualTransfer requested record =>
      refine commit_rel .refl fun _ _ h => ?_
      rcases armManualTransfer_outcome h with ⟨hrecord, -⟩ | ⟨rfl, -⟩ | ⟨rfl, -⟩
      · rw [CollectorCall.isArming, hrecord] at hcall
        cases hcall
      · exact .refl
      · exact .refl
    | replaceFailedCanary requested reason => exact commit_rel .refl fun _ _ h => (replaceFailedCanary_silent h).changes
    | expireUnsignedManual requestId reason =>
      exact commit_rel .refl fun _ _ h => (expireUnsignedManual_silent h).changes
    | observeEarnings maxBlocks => exact commit_rel .refl fun _ _ h => (observeEarnings_silent h).changes
    | observeEarningSource block => exact commit_rel .refl fun _ _ h => (observeEarningSource_silent h).changes
  exact ⟨hj.changes hchanges, Changes.leaves hchanges⟩

/-- A tick of the worker. -/
theorem tick_leaves (hj : Recorded custody journal) {collector : CollectorChain} {input : TickInput}
    {result : TickStatus × Option SignedOperation} (h : tick custody collector input journal = .ok (journal', result)) :
    Recorded custody journal' ∧ Leaves journal journal' := by
  have hchanges := tick_changes hj.pin h
  exact ⟨hj.changes hchanges, Changes.leaves hchanges⟩

/-- A checked history has retired only the exact requests that were armed. -/
theorem expiry_of_history {manual : List ManualTransfer} (h : manualTransferHistory custody journal = .ok manual)
    {expiry : UnsignedExpiry} (hexpiry : expiry ∈ journal.events.filterMap Event.expiry?) {request : ManualTransfer}
    (hrequest : request ∈ journal.events.filterMap Event.armed?) (hid : expiry.requestId = request.requestId) :
    expiry.requestDigest = custody.requestDigest request := by
  unfold manualTransferHistory at h
  simp only [bind_eq_ok_iff, ensure_eq_ok_iff, exists_and_left, exists_const, pure_eq_ok_iff] at h
  obtain ⟨-, hnodup, state, hloop, -⟩ := h
  have hinv : HistoryInv (expiryRecords (journal.events.zipIdx 1)) (armedRecords (journal.events.zipIdx 1)) state ∧
      ∀ record ∈ armedRecords (journal.events.zipIdx 1), ∀ closure ∈ expiryRecords (journal.events.zipIdx 1),
        closure.1.requestId = record.1.2.requestId →
          closure.1.requestDigest = custody.requestDigest record.1.2 := by
    refine foldlM_inv (P := fun done state => HistoryInv (expiryRecords (journal.events.zipIdx 1)) done state ∧
      ∀ record ∈ done, ∀ closure ∈ expiryRecords (journal.events.zipIdx 1),
        closure.1.requestId = record.1.2.requestId → closure.1.requestDigest = custody.requestDigest record.1.2) ?_ _ []
      ⟨⟨rfl, by simp, by simp, by simp⟩, by simp⟩ hloop
    rintro done s s' ⟨⟨policy, armed⟩, eventId⟩ ⟨hdone, hmatched⟩ hstep
    refine ⟨hdone.step hstep, fun record hrecord closure hclosure heq => ?_⟩
    rcases List.mem_append.1 hrecord with hrecord | hrecord
    · exact hmatched record hrecord closure hclosure heq
    obtain rfl := List.mem_singleton.1 hrecord
    unfold historyStep at hstep
    simp only [bind_eq_ok_iff, ensure_eq_ok_iff, exists_and_left, exists_const] at hstep
    obtain ⟨-, -, ⟨hnew, -⟩, -, -, -, hstep⟩ := hstep
    have hopen : closure ∈ s.expired := by
      refine (hdone.expired closure).2 ⟨hclosure, ?_⟩
      rw [heq, ← hdone.ids]
      exact hnew
    split at hstep
    · rename_i hnone
      simpa [heq] using List.find?_eq_none.1 hnone closure hopen
    · rename_i found closedAt hfound
      simp only [bind_eq_ok_iff, ensure_eq_ok_iff, exists_and_left, exists_const] at hstep
      have hmem := ((hdone.expired _).1 (List.mem_of_find?_eq_some hfound)).1
      have hfoundId := List.find?_some hfound
      rw [decide_eq_true_eq] at hfoundId
      obtain rfl : closure = (found, closedAt) :=
        List.inj_on_of_nodup_map hnodup hclosure hmem (heq.trans hfoundId.symm)
      exact hstep.1.2.1
  have hrecord : ∃ record ∈ armedRecords (journal.events.zipIdx 1), record.1.2 = request := by
    rw [← map_armedRecords _ 1] at hrequest
    exact List.mem_map.1 hrequest
  have hclosure : ∃ closure ∈ expiryRecords (journal.events.zipIdx 1), closure.1 = expiry := by
    rw [← filterMap_zipIdx Event.expiry? _ 1, List.mem_filterMap] at hexpiry
    obtain ⟨e, he, hsome⟩ := hexpiry
    exact ⟨(expiry, e.2), List.mem_filterMap.2 ⟨e, he, by rw [hsome]; rfl⟩, rfl⟩
  obtain ⟨record, hrecord, rfl⟩ := hrecord
  obtain ⟨closure, hclosure, rfl⟩ := hclosure
  exact hinv.2 record hrecord closure hclosure hid

/-! ## The log -/

def LogEntry.bound? : LogEntry → Option Envelope
  | .bound envelope => some envelope
  | _ => none

/-- The envelope that first bound a request id. -/
def firstBound (log : List LogEntry) (id : String) : Option Envelope :=
  (log.filterMap LogEntry.bound?).find? fun envelope => envelope.id = id

/-- A message that is invalid, or not the one that bound its request id. -/
def Excused (log : List LogEntry) : Message → Prop
  | .invalid => True
  | .envelope envelope => ∃ first, firstBound log envelope.id = some first ∧ first ≠ envelope

/-- A terminal report on a message was published. -/
def Answered (digest : Envelope → String) (log : List LogEntry) : Message → Prop
  | .invalid => False
  | .envelope envelope => ∃ report, .published report ∈ log ∧ report.Terminal ∧ report.requestId = envelope.id ∧
      report.requestDigest = digest envelope

/-- An acknowledgement that the log before it justifies. -/
def Justified (digest : Envelope → String) (log : List LogEntry) (entry : LogEntry) : Prop :=
  ∀ message, entry = .acked message → Excused log message ∨ Answered digest log message

/-- A refusal of a request id is recorded. -/
def Refused (refused : List Refusal) (id : String) : Prop := ∃ refusal ∈ refused, refusal.requestId = id

/-- An operation is the one that a request was armed for. -/
def BoundTo (events : List Event) (id : String) (op : Operation) : Prop :=
  ∃ request ∈ liveIntents events, request.requestId = id ∧ op.id = request.afterOperation + 1

variable {log : List LogEntry} {refused : List Refusal} {id : String} {first : Envelope}

theorem firstBound_append (log log' : List LogEntry) (id : String) :
    firstBound (log ++ log') id = (firstBound log id).or (firstBound log' id) := by
  unfold firstBound
  rw [List.filterMap_append, List.find?_append]

theorem firstBound_kept (h : firstBound log id = some first) (entry : LogEntry) :
    firstBound (log ++ [entry]) id = some first := by
  rw [firstBound_append, h]
  rfl

/-- Only a commit binds a request id. -/
theorem firstBound_silent {entry : LogEntry} (hentry : entry.bound? = none) :
    firstBound (log ++ [entry]) id = firstBound log id := by
  rw [firstBound_append]
  simp [firstBound, hentry]

theorem firstBound_fresh (h : firstBound log envelope.id = none) :
    firstBound (log ++ [.bound envelope]) envelope.id = some envelope := by
  rw [firstBound_append, h]
  simp [firstBound, LogEntry.bound?]

theorem firstBound_mem (h : firstBound log id = some first) : .bound first ∈ log ∧ first.id = id := by
  unfold firstBound at h
  obtain ⟨entry, hentry, hbound⟩ := List.mem_filterMap.1 (List.mem_of_find?_eq_some h)
  have hid := List.find?_some h
  rw [decide_eq_true_eq] at hid
  refine ⟨?_, hid⟩
  cases entry with
  | bound e =>
    cases hbound
    exact hentry
  | published report => cases hbound
  | acked message => cases hbound

theorem Refused.append (h : Refused refused id) (refusal : Refusal) : Refused (refused ++ [refusal]) id := by
  obtain ⟨r, hr, hid⟩ := h
  exact ⟨r, List.mem_append_left _ hr, hid⟩

theorem mem_armedIds {events : List Event} :
    id ∈ armedIds events ↔ ∃ request ∈ events.filterMap Event.armed?, request.requestId = id := List.mem_map

theorem armedIds_congr {events events' : List Event}
    (h : events'.filterMap Event.armed? = events.filterMap Event.armed?) : armedIds events' = armedIds events := by
  unfold armedIds
  rw [h]

theorem armedIds_event (journal : Journal) (policy : String) (request : ManualTransfer) :
    armedIds (journal.event (.manualTransferArmed policy request)).events =
      armedIds journal.events ++ [request.requestId] := by
  unfold armedIds
  rw [armed_event, List.map_append]
  rfl

/-! ## The invariant -/

/-- What the journal, the refusals and the log keep. -/
structure Filed (custody : Custody) (digest : Envelope → String) (journal : Journal) (refused : List Refusal)
    (log : List LogEntry) : Prop where
  recorded : Recorded custody journal
  exclusive : ∀ id, Refused refused id → id ∉ armedIds journal.events
  armed : ∀ request ∈ journal.events.filterMap Event.armed?, ∃ first,
    firstBound log request.requestId = some first ∧ first.request = request ∧ MatchesPin custody first ∧
      Approved custody first
  refusals : ∀ refusal ∈ refused, ∃ first,
    firstBound log refusal.requestId = some first ∧ digest first = refusal.requestDigest
  bound : ∀ envelope, .bound envelope ∈ log → envelope.id ∈ armedIds journal.events ∨ Refused refused envelope.id
  reports : ∀ report, .published report ∈ log → (report.status = .refused → Refused refused report.requestId) ∧
    (report.status = .finalized → report.requestId ∈ armedIds journal.events)
  acks : Chain.Everywhere (Justified digest) log

/-- What a delivery knows at a statement. -/
def Knows (custody : Custody) (digest : Envelope → String) (journal : Journal) (refused : List Refusal)
    (log : List LogEntry) (envelope : Envelope) : Stage → Prop
  | .cached => True
  | .pinned => ¬ Refused refused envelope.id
  | .expiry | .arming | .refusedIntent =>
    ¬ Refused refused envelope.id ∧ MatchesPin custody envelope ∧ Approved custody envelope
  | .expired requestDigest => ¬ Refused refused envelope.id ∧
      ∃ expiry ∈ journal.events.filterMap Event.expiry?, expiry.requestId = envelope.id ∧
        expiry.requestDigest = requestDigest
  | .recording | .refusing => envelope.id ∉ armedIds journal.events ∧ ¬ Refused refused envelope.id
  | .row | .ticking | .rearming | .oldRow | .rowAgain _ | .exporting _ _ =>
    envelope.id ∈ armedIds journal.events ∧ MatchesPin custody envelope ∧ Approved custody envelope
  | .bound => firstBound log envelope.id ≠ some envelope
  | .publishing report acknowledge => report.requestId = envelope.id ∧ report.requestDigest = digest envelope ∧
      (report.status = .refused → Refused refused envelope.id) ∧
      (report.status = .finalized → envelope.id ∈ armedIds journal.events) ∧ (acknowledge = true → report.Terminal)

/-- What the worker knows. -/
def KnowsAt (custody : Custody) (digest : Envelope → String) (journal : Journal) (refused : List Refusal)
    (log : List LogEntry) : Pc → Prop
  | .idle => True
  | .working stage envelope => Knows custody digest journal refused log envelope stage
  | .acking message => Excused log message ∨ Answered digest log message

/-- The invariant of the mailroom. -/
def Kept (custody : Custody) (digest : Envelope → String) (room : Mailroom) : Prop :=
  Filed custody digest room.journal room.refused room.log ∧
    KnowsAt custody digest room.journal room.refused room.log room.pc

/-! ## What other processes and the commits keep -/

theorem Filed.leaves (h : Filed custody digest journal refused log) (hrecorded : Recorded custody journal')
    (hleaves : Leaves journal journal') : Filed custody digest journal' refused log := by
  have hids := armedIds_congr hleaves.armed
  refine ⟨hrecorded, ?_, ?_, h.refusals, ?_, ?_, h.acks⟩
  · rw [hids]
    exact h.exclusive
  · rw [hleaves.armed]
    exact h.armed
  · rw [hids]
    exact h.bound
  · rw [hids]
    exact h.reports

/-- What a delivery knows still holds after the calls of other processes. -/
theorem KnowsAt.leaves {pc : Pc} (h : KnowsAt custody digest journal refused log pc)
    (hleaves : Leaves journal journal') : KnowsAt custody digest journal' refused log pc := by
  have hids := armedIds_congr hleaves.armed
  cases pc with
  | idle => exact h
  | acking message => exact h
  | working stage envelope =>
    cases stage with
    | expired requestDigest =>
      obtain ⟨hrefused, expiry, hexpiry, hid⟩ := h
      exact ⟨hrefused, expiry, (hleaves.events.filterMap Event.expiry?).subset hexpiry, hid⟩
    | cached | pinned | expiry | arming | refusedIntent | bound => exact h
    | _ =>
      simp only [KnowsAt, Knows, hids] at h ⊢
      exact h

/-- An entry that binds no request id: a report that the journal supports, or a justified acknowledgement. -/
theorem Filed.say (h : Filed custody digest journal refused log) {entry : LogEntry} (hentry : entry.bound? = none)
    (hreport : ∀ report, entry = .published report → (report.status = .refused → Refused refused report.requestId) ∧
      (report.status = .finalized → report.requestId ∈ armedIds journal.events))
    (hack : Justified digest log entry) : Filed custody digest journal refused (log ++ [entry]) := by
  refine ⟨h.recorded, h.exclusive, ?_, ?_, ?_, ?_, Chain.everywhere_append.2 ⟨h.acks, hack⟩⟩
  · intro request hrequest
    rw [firstBound_silent hentry]
    exact h.armed request hrequest
  · intro refusal hrefusal
    rw [firstBound_silent hentry]
    exact h.refusals refusal hrefusal
  · intro e he
    rcases List.mem_append.1 he with he | he
    · exact h.bound e he
    · rw [← List.mem_singleton.1 he] at hentry
      cases hentry
  · intro r hr
    rcases List.mem_append.1 hr with hr | hr
    · exact h.reports r hr
    · exact hreport r (List.mem_singleton.1 hr).symm

/-- A request id that nothing has bound. -/
theorem Filed.unbound (h : Filed custody digest journal refused log) (harmed : id ∉ armedIds journal.events)
    (hrefused : ¬ Refused refused id) : firstBound log id = none := by
  cases hfirst : firstBound log id with
  | none => rfl
  | some first =>
    obtain ⟨hmem, rfl⟩ := firstBound_mem hfirst
    rcases h.bound first hmem with hbound | hbound
    · exact absurd hbound harmed
    · exact absurd hbound hrefused

/-- The commit of an arming. -/
theorem Filed.arm (h : Filed custody digest journal refused log) {existing : TransferCanary}
    {manual : List ManualTransfer} (harm : Armable custody journal envelope.request existing manual)
    (hrefused : ¬ Refused refused envelope.id) (hpin : MatchesPin custody envelope)
    (happroved : Approved custody envelope) :
    Filed custody digest (journal.event (.manualTransferArmed custody.policy.digest envelope.request)) refused
      (log ++ [.bound envelope]) := by
  have hfirst := firstBound_fresh (h.unbound harm.fresh_id hrefused)
  refine ⟨h.recorded.arm harm, ?_, ?_, ?_, ?_, ?_, Chain.everywhere_append.2 ⟨h.acks, fun _ hm => nomatch hm⟩⟩
  · intro id hid hmem
    rw [armedIds_event] at hmem
    rcases List.mem_append.1 hmem with hmem | hmem
    · exact h.exclusive id hid hmem
    · rw [List.mem_singleton.1 hmem] at hid
      exact hrefused hid
  · intro request hrequest
    rw [armed_event] at hrequest
    rcases List.mem_append.1 hrequest with hrequest | hrequest
    · obtain ⟨first, hbound, hrest⟩ := h.armed request hrequest
      exact ⟨first, firstBound_kept hbound _, hrest⟩
    · rw [List.mem_singleton.1 hrequest]
      exact ⟨envelope, hfirst, rfl, hpin, happroved⟩
  · intro refusal hrefusal
    obtain ⟨first, hbound, hdigest⟩ := h.refusals refusal hrefusal
    exact ⟨first, firstBound_kept hbound _, hdigest⟩
  · intro e he
    rw [armedIds_event]
    rcases List.mem_append.1 he with he | he
    · exact (h.bound e he).imp_left (List.mem_append_left _)
    · cases List.mem_singleton.1 he
      exact .inl (List.mem_append_right _ (List.mem_singleton.2 rfl))
  · intro report hreport
    rw [armedIds_event]
    rcases List.mem_append.1 hreport with hreport | hreport
    · exact ⟨(h.reports report hreport).1, fun hf => List.mem_append_left _ ((h.reports report hreport).2 hf)⟩
    · cases List.mem_singleton.1 hreport

/-- The commit of a refusal. -/
theorem Filed.refuse (h : Filed custody digest journal refused log) (harmed : envelope.id ∉ armedIds journal.events)
    (hrefused : ¬ Refused refused envelope.id) :
    Filed custody digest journal (refused ++ [⟨envelope.id, digest envelope, custody.policy.digest⟩])
      (log ++ [.bound envelope]) := by
  have hfirst := firstBound_fresh (h.unbound harmed hrefused)
  refine ⟨h.recorded, ?_, ?_, ?_, ?_, ?_, Chain.everywhere_append.2 ⟨h.acks, fun _ hm => nomatch hm⟩⟩
  · rintro id ⟨refusal, hrefusal, hid⟩
    rcases List.mem_append.1 hrefusal with hrefusal | hrefusal
    · exact h.exclusive id ⟨refusal, hrefusal, hid⟩
    · rw [← hid, List.mem_singleton.1 hrefusal]
      exact harmed
  · intro request hrequest
    obtain ⟨first, hbound, hrest⟩ := h.armed request hrequest
    exact ⟨first, firstBound_kept hbound _, hrest⟩
  · intro refusal hrefusal
    rcases List.mem_append.1 hrefusal with hrefusal | hrefusal
    · obtain ⟨first, hbound, hdigest⟩ := h.refusals refusal hrefusal
      exact ⟨first, firstBound_kept hbound _, hdigest⟩
    · rw [List.mem_singleton.1 hrefusal]
      exact ⟨envelope, hfirst, rfl⟩
  · intro e he
    rcases List.mem_append.1 he with he | he
    · exact (h.bound e he).imp_right fun hbound => hbound.append _
    · cases List.mem_singleton.1 he
      exact .inr ⟨_, List.mem_append_right _ (List.mem_singleton.2 rfl), rfl⟩
  · intro report hreport
    rcases List.mem_append.1 hreport with hreport | hreport
    · exact ⟨fun hr => ((h.reports report hreport).1 hr).append _, (h.reports report hreport).2⟩
    · cases List.mem_singleton.1 hreport

/-! ## One statement -/

/-- The envelope that bound a request id which is not refused was armed. -/
theorem Filed.armed_first (h : Filed custody digest journal refused log) (hrefused : ¬ Refused refused id)
    (hfirst : firstBound log id = some first) :
    first.request ∈ journal.events.filterMap Event.armed? ∧ MatchesPin custody first ∧ Approved custody first := by
  obtain ⟨hmem, rfl⟩ := firstBound_mem hfirst
  obtain ⟨request, hrequest, hid⟩ := mem_armedIds.1 ((h.bound first hmem).resolve_right hrefused)
  obtain ⟨first', hfirst', rfl, hrest⟩ := h.armed request hrequest
  rw [hid, hfirst] at hfirst'
  cases hfirst'
  exact ⟨hrequest, hrest⟩

/-- The saved intent of a request. -/
theorem armedEvent_spec {events : List Event} {record : (String × ManualTransfer) × ℕ}
    (h : armedEvent events id = some record) :
    .manualTransferArmed record.1.1 record.1.2 ∈ events ∧ record.1.2.requestId = id := by
  have hid := List.find?_some h
  rw [decide_eq_true_eq] at hid
  refine ⟨?_, hid⟩
  obtain ⟨⟨e, eventId⟩, he, hrecord⟩ := List.mem_filterMap.1 (List.mem_of_find?_eq_some h)
  have hmem : e ∈ events := List.fst_mem_of_mem_zipIdx he
  cases e with
  | manualTransferArmed policy request =>
    cases hrecord
    exact hmem
  | _ => cases hrecord

theorem armedEvent_none {events : List Event} (h : armedEvent events id = none) : id ∉ armedIds events := by
  intro hmem
  obtain ⟨request, hrequest, hid⟩ := mem_armedIds.1 hmem
  rw [← map_armedRecords _ 1] at hrequest
  obtain ⟨record, hrecord, rfl⟩ := List.mem_map.1 hrequest
  simpa [hid] using List.find?_eq_none.1 h record hrecord

/-- A claim is never refused. -/
theorem claimReport_spec {row : Option Operation} {result : Option TickStatus} {report : Report}
    (hreport : claimReport custody digest chain envelope row result = .ok report) :
    report.requestId = envelope.id ∧ report.requestDigest = digest envelope ∧ report.status ≠ .refused := by
  have hstatus : ∀ (p q : Prop) [Decidable p] [Decidable q],
      (if p then ReportStatus.finalized else if q then .failed else .pending) ≠ .refused := by
    intro p q _ _
    split
    · exact fun heq => nomatch heq
    split <;> exact fun heq => nomatch heq
  unfold claimReport at hreport
  dsimp only at hreport
  split at hreport
  · simp only [bind_eq_ok_iff, pure_eq_ok_iff] at hreport
    obtain ⟨settlement, -, rfl⟩ := hreport
    exact ⟨rfl, rfl, hstatus _ _⟩
  · simp only [bind_eq_ok_iff, pure_eq_ok_iff] at hreport
    obtain ⟨settlement, -, rfl⟩ := hreport
    exact ⟨rfl, rfl, hstatus _ _⟩

section Statements

variable (h : Filed custody digest room.journal room.refused room.log)
include h

/-- The refusals are looked up first. -/
theorem advance_cached : Kept custody digest (advance custody digest chain room .cached envelope) := by
  rw [advance]
  split
  · rename_i refusal hfound
    have hmem := List.mem_of_find?_eq_some hfound
    have hid := List.find?_some hfound
    rw [decide_eq_true_eq] at hid
    split
    · rename_i hdigest
      refine ⟨h, fun (hfirst : firstBound room.log envelope.id = some envelope) => ?_⟩
      obtain ⟨first, hbound, heq⟩ := h.refusals refusal hmem
      rw [hid, hfirst] at hbound
      cases hbound
      exact hdigest heq.symm
    · exact ⟨h, rfl, rfl, fun _ => ⟨refusal, hmem, hid⟩, (fun hstatus => nomatch hstatus),
        fun _ hstatus => nomatch hstatus⟩
  · rename_i hnone
    refine ⟨h, ?_⟩
    rintro ⟨refusal, hmem, hid⟩
    simpa [hid] using List.find?_eq_none.1 hnone refusal hmem

/-- A changed message is not the one that was armed under the pin. -/
theorem advance_pinned (hrefused : ¬ Refused room.refused envelope.id) :
    Kept custody digest (advance custody digest chain room .pinned envelope) := by
  rw [advance]
  split
  · exact ⟨h, trivial⟩
  split
  · rename_i hpin
    exact ⟨h, fun hfirst => hpin (h.armed_first hrefused hfirst).2.1⟩
  split
  · rename_i happroved
    exact ⟨h, fun hfirst => happroved (h.armed_first hrefused hfirst).2.2⟩
  · rename_i hpin happroved
    exact ⟨h, hrefused, not_not.1 hpin, not_not.1 happroved⟩

theorem advance_expiry (hknows : Knows custody digest room.journal room.refused room.log envelope .expiry) :
    Kept custody digest (advance custody digest chain room .expiry envelope) := by
  rw [advance]
  split
  · rename_i expiry hfound
    have hid := List.find?_some hfound
    rw [decide_eq_true_eq] at hid
    exact ⟨h, hknows.1, expiry, List.mem_of_find?_eq_some hfound, hid, rfl⟩
  · exact ⟨h, hknows⟩

theorem advance_expired {requestDigest : String}
    (hknows : Knows custody digest room.journal room.refused room.log envelope (.expired requestDigest)) :
    Kept custody digest (advance custody digest chain room (.expired requestDigest) envelope) := by
  obtain ⟨hrefused, expiry, hexpiry, hid, hdigest⟩ := hknows
  rw [advance]
  split
  · exact ⟨h, trivial⟩
  · rename_i manual hhistory
    split
    · rename_i hchanged
      refine ⟨h, ?_⟩
      intro hfirst
      have harmed := (h.armed_first hrefused hfirst).1
      exact hchanged (hdigest.symm.trans (expiry_of_history hhistory hexpiry harmed hid))
    · exact ⟨h, rfl, rfl, (fun hstatus => nomatch hstatus), (fun hstatus => nomatch hstatus),
        fun _ hstatus => nomatch hstatus⟩

/-- `arm_manual_transfer` for an envelope that no refusal names. -/
theorem arm_kept {next : Stage} {failed : String → Mailroom} (hrefused : ¬ Refused room.refused envelope.id)
    (hpin : MatchesPin custody envelope) (happroved : Approved custody envelope)
    (hnext : ∀ journal log, envelope.id ∈ armedIds journal.events →
      Knows custody digest journal room.refused log envelope next)
    (hfailed : ∀ message, Kept custody digest (failed message)) :
    Kept custody digest (arm custody room chain envelope next failed) := by
  unfold arm
  split
  · rename_i journal' status harm
    rcases armManualTransfer_outcome harm with
      ⟨-, rfl, rfl, existing, manual, harmable⟩ | ⟨rfl, rfl, hmem⟩ | ⟨-, hrecord⟩
    · refine ⟨h.arm harmable hrefused hpin happroved, hnext _ _ ?_⟩
      rw [armedIds_event]
      exact List.mem_append_right _ (List.mem_singleton.2 rfl)
    · exact ⟨h, hnext _ _ (mem_armedIds.2 ⟨_, hmem, rfl⟩)⟩
    · cases hrecord
  · exact hfailed _

/-- A permanent defect of a request that is armed is no refusal. -/
theorem advance_refusedIntent (hrefused : ¬ Refused room.refused envelope.id) :
    Kept custody digest (advance custody digest chain room .refusedIntent envelope) := by
  rw [advance]
  split
  · rename_i policy saved eventId hsaved
    obtain ⟨hevent, hid⟩ := armedEvent_spec hsaved
    split
    · rename_i hchanged
      refine ⟨h, fun (hfirst : firstBound room.log envelope.id = some envelope) => ?_⟩
      -- the saved intent is the one that the first envelope recorded
      have harmed : saved ∈ room.journal.events.filterMap Event.armed? := List.mem_filterMap.2 ⟨_, hevent, rfl⟩
      obtain ⟨first, hbound, hrequest, -⟩ := h.armed saved harmed
      rw [hid, hfirst] at hbound
      cases hbound
      exact hchanged ⟨h.recorded.policy _ _ hevent, hrequest.symm⟩
    · exact ⟨h, rfl, rfl, (fun hstatus => nomatch hstatus), (fun hstatus => nomatch hstatus), fun hack => nomatch hack⟩
  · rename_i hnone
    exact ⟨h, armedEvent_none hnone, hrefused⟩

/-- The commit of a refusal, and its report. -/
theorem recordRefusal_kept (harmed : envelope.id ∉ armedIds room.journal.events)
    (hrefused : ¬ Refused room.refused envelope.id) (policyDigest : String) (clock : ℕ) :
    Kept custody digest (recordRefusal custody digest room policyDigest envelope clock) := by
  refine ⟨h.refuse harmed hrefused, rfl, rfl, fun _ => ?_, (fun hstatus => nomatch hstatus),
    fun _ hstatus => nomatch hstatus⟩
  exact ⟨_, List.mem_append_right _ (List.mem_singleton.2 rfl), rfl⟩

theorem advance_bound (hknows : firstBound room.log envelope.id ≠ some envelope) :
    Kept custody digest (advance custody digest chain room .bound envelope) := by
  rw [advance]
  split
  · rename_i hbound
    have hfirst : ∃ first, firstBound room.log envelope.id = some first := by
      rcases hbound with harmed | ⟨refusal, hrefusal, hid⟩
      · obtain ⟨request, hrequest, hid⟩ := mem_armedIds.1 harmed
        obtain ⟨first, hfirst, -⟩ := h.armed request hrequest
        exact ⟨first, hid ▸ hfirst⟩
      · obtain ⟨first, hfirst, -⟩ := h.refusals refusal hrefusal
        exact ⟨first, hid ▸ hfirst⟩
    obtain ⟨first, hfirst⟩ := hfirst
    refine ⟨h, .inl ⟨first, hfirst, ?_⟩⟩
    rintro rfl
    exact hknows hfirst
  · rename_i hbound
    exact ⟨h, fun harmed => hbound (.inl harmed), fun hrefused => hbound (.inr hrefused)⟩

/-- A statement keeps the invariant. -/
theorem advance_kept {stage : Stage}
    (hknows : Knows custody digest room.journal room.refused room.log envelope stage) :
    Kept custody digest (advance custody digest chain room stage envelope) := by
  cases stage with
  | cached => exact advance_cached h
  | pinned => exact advance_pinned h hknows
  | expiry => exact advance_expiry h hknows
  | expired requestDigest => exact advance_expired h hknows
  | arming =>
    obtain ⟨hrefused, hpin, happroved⟩ := hknows
    rw [advance]
    refine arm_kept h hrefused hpin happroved (fun _ _ harmed => ⟨harmed, hpin, happroved⟩) fun message => ?_
    split
    · exact ⟨h, hrefused, hpin, happroved⟩
    · exact ⟨h, trivial⟩
  | refusedIntent => exact advance_refusedIntent h hknows.1
  | recording => exact recordRefusal_kept h hknows.1 hknows.2 _ _
  | row =>
    rw [advance]
    split
    · exact ⟨h, hknows⟩
    · split <;> exact ⟨h, hknows⟩
  | ticking =>
    rw [advance]
    split
    · rename_i journal' status _ htick
      obtain ⟨hrecorded, hleaves⟩ := tick_leaves h.recorded htick
      refine ⟨h.leaves hrecorded hleaves, ?_⟩
      have hbefore : KnowsAt custody digest room.journal room.refused room.log
          (.working (.rowAgain (some status)) envelope) := hknows
      exact hbefore.leaves hleaves
    · split
      · exact ⟨h, hknows⟩
      · exact ⟨h, trivial⟩
  | rearming =>
    obtain ⟨harmed, hpin, happroved⟩ := hknows
    rw [advance]
    exact arm_kept h (fun hrefused => h.exclusive _ hrefused harmed) hpin happroved
      (fun _ _ harmed => ⟨harmed, hpin, happroved⟩) fun _ => ⟨h, trivial⟩
  | oldRow =>
    rw [advance]
    split
    · exact ⟨h, hknows⟩
    · exact ⟨h, trivial⟩
  | rowAgain result => exact ⟨h, hknows⟩
  | exporting row result =>
    rw [advance]
    split
    · rename_i report hreport
      obtain ⟨hid, hdigest, hstatus⟩ := claimReport_spec hreport
      exact ⟨h, hid, hdigest, fun hrefused => absurd hrefused hstatus, fun _ => hknows.1, of_decide_eq_true⟩
    · exact ⟨h, trivial⟩
  | bound => exact advance_bound h hknows
  | refusing => exact recordRefusal_kept h hknows.1 hknows.2 _ _
  | publishing report acknowledge =>
    obtain ⟨hid, hdigest, hrefused, hfinalized, hterminal⟩ := hknows
    rw [← hid] at hrefused hfinalized
    refine ⟨h.say rfl ?_ (fun _ hm => nomatch hm), ?_⟩
    · rintro _ ⟨⟩
      exact ⟨hrefused, hfinalized⟩
    · cases acknowledge with
      | false => trivial
      | true => exact .inr ⟨report, List.mem_append_right _ (List.mem_singleton.2 rfl), hterminal rfl, hid, hdigest⟩

end Statements

/-! ## Runs -/

theorem act_kept (room : Mailroom) (action : Action) (h : Kept custody digest room) :
    Kept custody digest (act custody digest room action) := by
  obtain ⟨hfiled, hknows⟩ := h
  cases action with
  | deliver message =>
    cases hpc : room.pc with
    | idle =>
      cases message with
      | invalid =>
        simp only [act, hpc]
        exact ⟨hfiled, .inl trivial⟩
      | envelope envelope =>
        simp only [act, hpc]
        exact ⟨hfiled, trivial⟩
    | _ =>
      simp only [act, hpc]
      exact ⟨hfiled, hknows⟩
  | advance chain =>
    rw [act]
    split
    · exact ⟨hfiled, hknows⟩
    · rename_i stage envelope hpc
      rw [hpc] at hknows
      exact advance_kept hfiled hknows
    · rename_i message hpc
      rw [hpc] at hknows
      refine ⟨hfiled.say rfl (fun _ hreport => nomatch hreport) ?_, trivial⟩
      rintro _ ⟨⟩
      exact hknows
  | crash => exact ⟨hfiled, trivial⟩
  | call chain call =>
    rw [act]
    split
    · exact ⟨hfiled, hknows⟩
    · rename_i hcall
      obtain ⟨hrecorded, hleaves⟩ := step_leaves hfiled.recorded chain (Bool.eq_false_iff.2 hcall)
      exact ⟨hfiled.leaves hrecorded hleaves, hknows.leaves hleaves⟩

theorem mailroomAfter_kept (actions : List Action) : Kept custody digest (mailroomAfter custody digest actions) := by
  refine run_inv act_kept actions ⟨⟨recorded_initial, ?_, ?_, ?_, ?_, ?_, Chain.everywhere_nil⟩, trivial⟩
  · rintro id ⟨refusal, hrefusal, -⟩
    cases hrefusal
  all_goals
    intro x hx
    cases hx

/-- The intents and the refusals are never removed. -/
structure Extends (room room' : Mailroom) : Prop where
  armed : room.journal.events.filterMap Event.armed? <+: room'.journal.events.filterMap Event.armed?
  refused : room.refused <+: room'.refused

theorem Extends.of_eq {room' : Mailroom} (hjournal : room'.journal = room.journal)
    (hrefused : room'.refused = room.refused) : Extends room room' := by
  refine ⟨?_, ?_⟩
  · rw [hjournal]
  · rw [hrefused]

theorem arm_extends {next : Stage} {failed : String → Mailroom} (hfailed : ∀ message, Extends room (failed message)) :
    Extends room (arm custody room chain envelope next failed) := by
  unfold arm
  split
  · rename_i journal' status harm
    refine ⟨?_, List.prefix_refl _⟩
    rcases armManualTransfer_outcome harm with ⟨-, -, rfl, -⟩ | ⟨rfl, -⟩ | ⟨rfl, -⟩
    · rw [armed_event]
      exact List.prefix_append _ _
    · exact List.prefix_refl _
    · exact List.prefix_refl _
  · exact hfailed _

theorem advance_extends (h : Recorded custody room.journal) (stage : Stage) :
    Extends room (advance custody digest chain room stage envelope) := by
  have hsame : ∀ pc, Extends room { room with pc := pc } := fun _ => .of_eq rfl rfl
  cases stage with
  | cached | expiry | refusedIntent | bound | oldRow | exporting | pinned | expired | row =>
    rw [advance]
    repeat' split
    all_goals exact hsame _
  | arming =>
    rw [advance]
    refine arm_extends fun message => ?_
    split <;> exact hsame _
  | rearming =>
    rw [advance]
    exact arm_extends fun _ => hsame _
  | ticking =>
    rw [advance]
    split
    · rename_i journal' status _ htick
      refine ⟨?_, List.prefix_refl _⟩
      rw [(tick_leaves h htick).2.armed]
    · split <;> exact hsame _
  | recording | refusing => exact ⟨List.prefix_refl _, List.prefix_append _ _⟩
  | rowAgain | publishing => exact .of_eq rfl rfl

theorem act_extends (room : Mailroom) (action : Action) (h : Kept custody digest room) :
    Extends room (act custody digest room action) := by
  cases action with
  | deliver message =>
    rw [act.eq_def]
    dsimp only
    repeat' split
    all_goals exact .of_eq rfl rfl
  | advance chain =>
    rw [act]
    split
    · exact .of_eq rfl rfl
    · exact advance_extends h.1.recorded _
    · exact .of_eq rfl rfl
  | crash => exact .of_eq rfl rfl
  | call chain call =>
    rw [act]
    split
    · exact .of_eq rfl rfl
    · rename_i hcall
      have hleaves := (step_leaves h.1.recorded chain (Bool.eq_false_iff.2 hcall)).2
      refine ⟨?_, List.prefix_refl _⟩
      rw [hleaves.armed]

theorem mailroomAfter_extends (earlier more : List Action) :
    Extends (mailroomAfter custody digest earlier) (mailroomAfter custody digest (earlier ++ more)) := by
  induction more using List.reverseRecOn with
  | nil => exact .of_eq (by rw [List.append_nil]) (by rw [List.append_nil])
  | append_singleton more action ih =>
    have hstep : Extends _ (act custody digest (mailroomAfter custody digest (earlier ++ more)) action) :=
      act_extends _ action (mailroomAfter_kept (earlier ++ more))
    have hrun : mailroomAfter custody digest (earlier ++ (more ++ [action])) =
        act custody digest (mailroomAfter custody digest (earlier ++ more)) action := by
      rw [← List.append_assoc]
      exact run_append _ _ _ _
    rw [hrun]
    exact ⟨ih.armed.trans hstep.armed, ih.refused.trans hstep.refused⟩

theorem Extends.armedIds {room' : Mailroom} (h : Extends room room') (hid : id ∈ armedIds room.journal.events) :
    id ∈ Treasury.armedIds room'.journal.events := by
  obtain ⟨request, hrequest, hid⟩ := mem_armedIds.1 hid
  exact mem_armedIds.2 ⟨request, h.armed.subset hrequest, hid⟩

theorem Extends.isRefused {room' : Mailroom} (h : Extends room room') (hid : Refused room.refused id) :
    Refused room'.refused id := by
  obtain ⟨refusal, hrefusal, hid⟩ := hid
  exact ⟨refusal, h.refused.subset hrefusal, hid⟩

theorem BoundTo.armed {events : List Event} {op : Operation} (h : BoundTo events id op) : id ∈ armedIds events := by
  obtain ⟨request, hrequest, hid, -⟩ := h
  exact mem_armedIds.2 ⟨request, List.mem_of_mem_filter hrequest, hid⟩

/-- Two operations of one request, now and earlier, have one number. -/
theorem BoundTo.unique {room' : Mailroom} (h : Recorded custody room'.journal) (hextends : Extends room room')
    {op op' : Operation} (hop : BoundTo room.journal.events id op) (hop' : BoundTo room'.journal.events id op') :
    op.id = op'.id := by
  obtain ⟨request, hrequest, hid, hnumber⟩ := hop
  obtain ⟨request', hrequest', hid', hnumber'⟩ := hop'
  have hmem := hextends.armed.subset (List.mem_of_mem_filter hrequest)
  have hmem' := List.mem_of_mem_filter hrequest'
  obtain rfl : request = request' := List.inj_on_of_nodup_map h.nodup hmem hmem' (hid.trans hid'.symm)
  rw [hnumber, hnumber']

/-- Whatever is delivered, in any order and again, with the calls of other processes and crashes between any two
statements: a refused request is never armed and gets no operation, and an armed request is never refused; a request is
bound to one operation at most; every acknowledgement follows a terminal report on its message, unless the message is
invalid or not the one that bound its request id; and no request has a finalized and a refused report. -/
theorem mailbox_final (custody : Custody) (digest : Envelope → String) (earlier more : List Action) :
    let past := mailroomAfter custody digest earlier
    let now := mailroomAfter custody digest (earlier ++ more)
    (∀ id, Refused past.refused id → id ∉ armedIds now.journal.events ∧
      ∀ op ∈ now.journal.operations, ¬ BoundTo now.journal.events id op) ∧
    (∀ id ∈ armedIds past.journal.events, ¬ Refused now.refused id) ∧
    (now.journal.operations.map (·.id)).Nodup ∧
    (∀ id, ∀ op ∈ past.journal.operations, ∀ op' ∈ now.journal.operations, BoundTo past.journal.events id op →
      BoundTo now.journal.events id op' → op.id = op'.id) ∧
    Chain.Everywhere (Justified digest) now.log ∧
    (∀ report report', .published report ∈ now.log → .published report' ∈ now.log →
      report.requestId = report'.requestId → report.requestDigest = report'.requestDigest →
      report.status = .finalized → report'.status ≠ .refused) := by
  intro past now
  have hextends : Extends past now := mailroomAfter_extends earlier more
  obtain ⟨hfiled, -⟩ : Kept custody digest now := mailroomAfter_kept (earlier ++ more)
  refine ⟨?_, ?_, ?_, ?_, hfiled.acks, ?_⟩
  · intro id hrefused
    have harmed := hfiled.exclusive id (hextends.isRefused hrefused)
    exact ⟨harmed, fun op _ hop => harmed hop.armed⟩
  · intro id harmed hrefused
    exact hfiled.exclusive id hrefused (hextends.armedIds harmed)
  · rw [hfiled.recorded.governed.ids]
    exact List.nodup_range'
  · intro id op _ op' _ hop hop'
    exact BoundTo.unique hfiled.recorded hextends hop hop'
  · intro report report' hreport hreport' hid _ hfinalized hrefused
    have harmed := (hfiled.reports report hreport).2 hfinalized
    rw [hid] at harmed
    exact hfiled.exclusive _ ((hfiled.reports report' hreport').1 hrefused) harmed

/-- The sample intent as a message. -/
def sampleEnvelope : Envelope :=
  ⟨"policy", "wallet", sampleIntent (sampleLimit "policy" "collector"), by decide, sampleBucket_pattern,
    by decide +kernel⟩

/-- The sample message after a finalized canary: it is armed, signed and reported as pending. -/
def deliveredActions : List Action :=
  (canaryCalls.take 3).map (fun input => .call input.1 input.2) ++ [.deliver (.envelope sampleEnvelope)] ++
    List.replicate 9 (.advance ⟨approvedChain 22, fun _ => .ok (some "hash"), fun _ => .ok (some 3), 22⟩)

example : (mailroomAfter sampleCustody (fun _ => "digest") deliveredActions).journal.operations.map (·.amount) =
      [40, 30] ∧ (mailroomAfter sampleCustody (fun _ => "digest") deliveredActions).log.length = 2 := by
  decide +kernel

end DittoSubnet.Treasury

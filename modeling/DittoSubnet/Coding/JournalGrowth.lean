import DittoSubnet.Coding.JournalCrash

/-!
# How a journal grows

What the plan of a call installs (`plan_cases`): nothing, a state record, the marker of the next dispatch, or the
completion of the marker at the end. So the dispatches of a journal only grow at the end, and no call moves the records
of a revoked one (`plan_revoked`). A property that growth keeps is kept by every call and by what a crash leaves
(`Lasting.call`, `Lasting.recovered`).
-/

namespace DittoSubnet.Coding

open Kit

/-! ## What a plan installs -/

/-- The marker of a dispatch. -/
def marker (dispatch : DispatchRecord) : EntryRecord := ⟨1, dispatch.sequence, ⟨dispatch, none⟩⟩

/-- The store is unbound, or bound as the binding says and not revoked. -/
def Store.OpenFor (store : Store) (binding : Binding) : Prop :=
  ∀ state ∈ store.state, state.revoked = false ∧ state.binding = binding

theorem openFor_none {store : Store} (hnone : store.state = none) (binding : Binding) : store.OpenFor binding := by
  intro state hstate
  rw [hnone] at hstate
  cases hstate

theorem openFor_some {store : Store} {state : StateRecord} (hstate : store.state = some state)
    (hopen : state.revoked = false) : store.OpenFor state.binding := by
  intro other hother
  rw [hstate, Option.mem_some_iff] at hother
  rw [← hother]
  exact ⟨hopen, rfl⟩

/-- What a call asks for is there already. -/
def Store.Done (store : Store) : Call → Prop
  | .load _ => True
  | .bind binding => ∃ state ∈ store.state, state.binding = binding
  | .begin _ dispatch =>
    ∃ record, store.entries[dispatch.sequence - 1]? = some record ∧ record.entry.dispatch = dispatch
  | .complete _ entry =>
    ∃ record, store.entries[entry.dispatch.sequence - 1]? = some record ∧ record.entry = entry ∧ entry.completed = true
  | .revoke _ => ∃ state ∈ store.state, state.revoked = true

/-- The installs of a plan, by what they do to the records. -/
inductive PlanShape (store : Store) : Call → List Install → Prop where
  | nothing (request : Call) (hdone : store.Done request) : PlanShape store request []
  | bound (binding : Binding) (bytes : Nat) (hunbound : store.state = none) :
      PlanShape store (.bind binding) [.state ⟨1, binding, false⟩ bytes false]
  | revoked (binding : Binding) (generation bytes : Nat) (replace : Bool) (hopen : store.OpenFor binding) :
      PlanShape store (.revoke binding) [.state ⟨generation, binding, true⟩ bytes replace]
  | marker (binding : Binding) (dispatch : DispatchRecord) (bytes : Nat) (hopen : store.OpenFor binding)
      (hbound : store.state.isSome) (hsequence : dispatch.sequence = store.entries.length + 1) :
      PlanShape store (.begin binding dispatch) [.entry (marker dispatch) bytes false]
  | first (binding : Binding) (dispatch : DispatchRecord) (bytes stateBytes : Nat) (hunbound : store.state = none)
      (hsequence : dispatch.sequence = store.entries.length + 1) :
      PlanShape store (.begin binding dispatch)
        [.state ⟨1, binding, false⟩ stateBytes false, .entry (marker dispatch) bytes false]
  | completion (binding : Binding) (entry : JournalEntry) (front : List EntryRecord) (current : EntryRecord)
    (bytes : Nat)
      (hopen : store.OpenFor binding) (hlast : store.entries = front ++ [current])
      (hsequence : entry.dispatch.sequence = store.entries.length) (hdispatch : current.entry.dispatch = entry.dispatch)
      (hmarker : current.entry.completed = false) :
      PlanShape store (.complete binding entry)
        [.entry ⟨current.generation + 1, entry.dispatch.sequence, entry⟩ bytes true]

section Cases

variable {codec : Codec} {layout : Layout} {config : JournalConfig} {store : Store} {binding : Binding}
  {plan : List Install}

theorem load_shape (h : store.Load layout binding = .ok plan) : PlanShape store (.load binding) plan := by
  unfold Store.Load at h
  split at h
  · cases h
    exact .nothing _ trivial
  · rw [ensure_bind_eq_ok_iff, ensure_bind_eq_ok_iff] at h
    cases h.2.2
    exact .nothing _ trivial

theorem bind_shape (h : store.Bind layout config binding = .ok plan) : PlanShape store (.bind binding) plan := by
  unfold Store.Bind at h
  split at h
  · rename_i state hstate
    rw [ensure_bind_eq_ok_iff, ensure_bind_eq_ok_iff] at h
    obtain ⟨⟨-, hbinding⟩, -, h⟩ := h
    cases h
    exact .nothing _ ⟨state, hstate, hbinding⟩
  · rename_i hnone
    rw [ensure_bind_eq_ok_iff, bind_eq_ok_iff] at h
    obtain ⟨-, body, -, h⟩ := h
    rw [ensure_bind_eq_ok_iff] at h
    cases h.2
    exact .bound _ _ hnone

theorem revoke_shape (h : store.Revoke layout config binding = .ok plan) : PlanShape store (.revoke binding) plan := by
  unfold Store.Revoke at h
  split at h
  · rename_i state hstate
    rw [ensure_bind_eq_ok_iff] at h
    obtain ⟨⟨-, rfl⟩, h⟩ := h
    split at h
    · rename_i hrevoked
      cases h
      exact .nothing _ ⟨state, hstate, hrevoked⟩
    · rename_i hopen
      rw [bind_eq_ok_iff] at h
      obtain ⟨body, -, h⟩ := h
      rw [ensure_bind_eq_ok_iff] at h
      cases h.2
      exact .revoked _ _ _ _ (openFor_some hstate (by simpa using hopen))
  · rename_i hnone
    rw [ensure_bind_eq_ok_iff, bind_eq_ok_iff] at h
    obtain ⟨-, body, -, h⟩ := h
    rw [ensure_bind_eq_ok_iff] at h
    cases h.2
    exact .revoked _ _ _ _ (openFor_none hnone _)

theorem append_shape {dispatch : DispatchRecord} (hbinding : ∀ state ∈ store.state, state.binding = binding)
    (h : store.appendDispatch layout config binding dispatch = .ok plan) :
    PlanShape store (.begin binding dispatch) plan := by
  unfold Store.appendDispatch at h
  rw [ensure_bind_eq_ok_iff, ensure_bind_eq_ok_iff, bind_eq_ok_iff] at h
  obtain ⟨hopen, ⟨hsequence, -, -⟩, entryBody, -, h⟩ := h
  rw [bind_eq_ok_iff] at h
  obtain ⟨pending, hpending, h⟩ := h
  change (ensure _ _ >>= fun _ => _) = _ at h
  rw [ensure_bind_eq_ok_iff] at h
  obtain ⟨-, h⟩ := h
  cases h
  unfold Store.firstState at hpending
  split at hpending
  · rename_i state hstate
    cases hpending
    exact .marker _ _ _ (fun state hstate => ⟨hopen state hstate, hbinding state hstate⟩) (by rw [hstate]; rfl)
      hsequence
  · rename_i hnone
    rw [ensure_bind_eq_ok_iff, bind_eq_ok_iff] at hpending
    obtain ⟨-, body, -, hpending⟩ := hpending
    cases hpending
    exact .first _ _ _ _ hnone hsequence

theorem begin_shape {dispatch : DispatchRecord} (h : store.Begin codec layout config binding dispatch = .ok plan) :
    PlanShape store (.begin binding dispatch) plan := by
  unfold Store.Begin at h
  rw [ensure_bind_eq_ok_iff, check_bind_eq_ok_iff, ensure_bind_eq_ok_iff] at h
  obtain ⟨-, -, hbinding, h⟩ := h
  split at h
  · rename_i record hrecord
    rw [ensure_bind_eq_ok_iff] at h
    obtain ⟨hdispatch, h⟩ := h
    cases h
    exact .nothing _ ⟨record, hrecord, hdispatch⟩
  · exact append_shape (fun state hstate => (hbinding state hstate).2) h

theorem complete_shape {entry : JournalEntry} (h : store.Complete codec layout config binding entry = .ok plan) :
    PlanShape store (.complete binding entry) plan := by
  unfold Store.Complete at h
  split at h
  · cases h
  · rename_i state hstate
    rw [ensure_bind_eq_ok_iff, ensure_bind_eq_ok_iff, ensure_bind_eq_ok_iff] at h
    obtain ⟨-, ⟨-, rfl⟩, -, h⟩ := h
    split at h
    · cases h
    · rename_i current hcurrent
      split at h
      · rename_i hcompleted
        rw [ensure_bind_eq_ok_iff] at h
        obtain ⟨rfl, h⟩ := h
        cases h
        exact .nothing _ ⟨current, hcurrent, rfl, hcompleted⟩
      · rename_i hmarker
        unfold Store.replaceMarker at h
        rw [ensure_bind_eq_ok_iff, ensure_bind_eq_ok_iff, bind_eq_ok_iff] at h
        obtain ⟨hunrevoked, ⟨hsequence, hdispatch⟩, body, -, h⟩ := h
        rw [check_bind_eq_ok_iff, ensure_bind_eq_ok_iff] at h
        cases h.2.2
        obtain ⟨front, hlast⟩ : ∃ front, store.entries = front ++ [current] := by
          rw [hsequence, ← List.getLast?_eq_getElem?] at hcurrent
          exact ⟨_, (List.dropLast_append_getLast? current hcurrent).symm⟩
        exact .completion _ _ front current _ (openFor_some hstate hunrevoked) hlast hsequence hdispatch
          (by simpa using hmarker)

/-- Every plan is of one of the shapes. -/
theorem plan_cases {request : Call} (h : store.plan codec layout config request = .ok plan) :
    PlanShape store request plan := by
  cases request with
  | load binding => exact load_shape h
  | bind binding => exact bind_shape h
  | begin binding dispatch => exact begin_shape h
  | complete binding entry => exact complete_shape h
  | revoke binding => exact revoke_shape h

end Cases

/-! ## What a call does to the records -/

/-- What a stage of a call's plan makes of the records of a store. -/
inductive Change (store : Store) : Call → Option StateRecord → List EntryRecord → Prop where
  | nothing (request : Call) : Change store request store.state store.entries
  | state (request : Call) (record : StateRecord) (hopen : store.OpenFor request.binding)
      (hbinding : record.binding = request.binding) : Change store request (some record) store.entries
  | marker (binding : Binding) (dispatch : DispatchRecord) (record : StateRecord) (hopen : store.OpenFor binding)
      (hbinding : record.binding = binding) (hsequence : dispatch.sequence = store.entries.length + 1) :
      Change store (.begin binding dispatch) (some record) (store.entries ++ [marker dispatch])
  | completion (binding : Binding) (entry : JournalEntry) (front : List EntryRecord) (current : EntryRecord)
      (hopen : store.OpenFor binding) (hlast : store.entries = front ++ [current])
      (hsequence : entry.dispatch.sequence = store.entries.length) (hdispatch : current.entry.dispatch = entry.dispatch)
      (hmarker : current.entry.completed = false) :
      Change store (.complete binding entry) store.state
        (front ++ [⟨current.generation + 1, entry.dispatch.sequence, entry⟩])

theorem set_last {α : Type} (front : List α) (a b : α) : (front ++ [a]).set front.length b = front ++ [b] := by
  rw [List.set_append_right _ _ (Nat.le_refl _), Nat.sub_self]
  rfl

/-- Installing a record at the number of the last one puts it in its place. -/
theorem install_last {store : Store} {front : List EntryRecord} {current : EntryRecord} {n : Nat} (record : EntryRecord)
    (hlast : store.entries = front ++ [current]) (hn : n = store.entries.length) (hrecord : record.sequence = n)
    (bytes : Nat) : (store.install (.entry record bytes true)).entries = front ++ [record] := by
  show store.entries.set (record.sequence - 1) record = _
  have hindex : record.sequence - 1 = front.length := by
    rw [hrecord, hn, hlast, List.length_append]
    rfl
  rw [hindex, hlast, set_last]

/-- Every part of a plan makes one of the changes. -/
theorem shape_change {store : Store} {request : Call} {plan part : List Install} (hshape : PlanShape store request plan)
    (hpart : part <+: plan) : Change store request (store.installs part).state (store.installs part).entries := by
  cases hshape with
  | nothing =>
    rw [List.prefix_nil.mp hpart]
    exact .nothing _
  | bound binding bytes hunbound =>
    rcases part with _ | ⟨first, rest⟩
    · exact .nothing _
    · obtain ⟨rfl, hrest⟩ := List.cons_prefix_cons.mp hpart
      rw [List.prefix_nil.mp hrest]
      exact .state _ _ (openFor_none hunbound _) rfl
  | revoked binding generation bytes replace hopen =>
    rcases part with _ | ⟨first, rest⟩
    · exact .nothing _
    · obtain ⟨rfl, hrest⟩ := List.cons_prefix_cons.mp hpart
      rw [List.prefix_nil.mp hrest]
      exact .state _ _ hopen rfl
  | marker binding dispatch bytes hopen hbound hsequence =>
    obtain ⟨record, hrecord⟩ := Option.isSome_iff_exists.mp hbound
    rcases part with _ | ⟨first, rest⟩
    · exact .nothing _
    · obtain ⟨rfl, hrest⟩ := List.cons_prefix_cons.mp hpart
      rw [List.prefix_nil.mp hrest]
      show Change store _ store.state _
      rw [hrecord]
      exact .marker _ _ record hopen (hopen record hrecord).2 hsequence
  | first binding dispatch bytes stateBytes hunbound hsequence =>
    rcases part with _ | ⟨head, _ | ⟨second, rest⟩⟩
    · exact .nothing _
    · obtain ⟨rfl, -⟩ := List.cons_prefix_cons.mp hpart
      exact .state _ _ (openFor_none hunbound _) rfl
    · obtain ⟨rfl, hrest⟩ := List.cons_prefix_cons.mp hpart
      obtain ⟨rfl, hnil⟩ := List.cons_prefix_cons.mp hrest
      rw [List.prefix_nil.mp hnil]
      exact .marker _ _ _ (openFor_none hunbound _) rfl hsequence
  | completion binding entry front current bytes hopen hlast hsequence hdispatch hmarker =>
    rcases part with _ | ⟨first, rest⟩
    · exact .nothing _
    · obtain ⟨rfl, hrest⟩ := List.cons_prefix_cons.mp hpart
      rw [List.prefix_nil.mp hrest]
      have hentries := install_last ⟨current.generation + 1, entry.dispatch.sequence, entry⟩ hlast hsequence rfl bytes
      change Change store _ store.state (store.install (.entry _ bytes true)).entries
      rw [hentries]
      exact .completion _ _ front current hopen hlast hsequence hdispatch hmarker

section Changes

variable {store : Store} {request : Call} {state : Option StateRecord} {entries : List EntryRecord}

/-- The dispatches of a list of records. -/
def dispatches (entries : List EntryRecord) : List DispatchRecord := entries.map fun record => record.entry.dispatch

/-- The dispatches grow at the end. -/
theorem Change.dispatches (h : Change store request state entries) :
    ∃ more, Coding.dispatches entries = Coding.dispatches store.entries ++ more := by
  cases h with
  | nothing | state => exact ⟨[], (List.append_nil _).symm⟩
  | marker binding dispatch => exact ⟨[dispatch], by simp [Coding.dispatches, Coding.marker]⟩
  | completion binding entry front current _ hlast _ hdispatch =>
    refine ⟨[], ?_⟩
    rw [hlast]
    simp [Coding.dispatches, hdispatch]

/-- A completed record stays. -/
theorem Change.completed (h : Change store request state entries) {record : EntryRecord} (hmem : record ∈ store.entries)
    (hcompleted : record.entry.completed = true) : record ∈ entries := by
  cases h with
  | nothing | state => exact hmem
  | marker => exact List.mem_append_left _ hmem
  | completion binding entry front current _ hlast _ _ hmarker =>
    rw [hlast, List.mem_append, List.mem_singleton] at hmem
    rcases hmem with hmem | rfl
    · exact List.mem_append_left _ hmem
    · rw [hmarker] at hcompleted
      cases hcompleted

/-- Nothing changes in a revoked store. -/
theorem Change.revoked (h : Change store request state entries) {record : StateRecord}
    (hrecord : store.state = some record)
    (hrevoked : record.revoked = true) : state = store.state ∧ entries = store.entries := by
  have hcontra {binding : Binding} (hopen : store.OpenFor binding) : False := by
    have := (hopen record hrecord).1
    rw [hrevoked] at this
    cases this
  cases h with
  | nothing => exact ⟨rfl, rfl⟩
  | state _ _ hopen => exact (hcontra hopen).elim
  | marker _ _ _ hopen => exact (hcontra hopen).elim
  | completion _ _ _ _ hopen => exact (hcontra hopen).elim

end Changes

/-! ## The order of the records -/

/-- The outcome of a record is a response. -/
def EntryRecord.answered (record : EntryRecord) : Prop :=
  ∃ completion ∈ record.entry.completion, completion.receipt.outcome = .complete

/-- How a record lies before another: it is of an earlier request, or an earlier attempt of the same one that got no
response. -/
def EntryRecord.Precedes (record next : EntryRecord) : Prop :=
  record.entry.dispatch.requestSequence < next.entry.dispatch.requestSequence ∨
    record.entry.dispatch.requestSequence = next.entry.dispatch.requestSequence ∧
      record.entry.dispatch.attempt < next.entry.dispatch.attempt ∧ ¬ record.answered

theorem EntryRecord.Precedes.trans {first second third : EntryRecord} (h : first.Precedes second)
    (h' : second.Precedes third) :
    first.Precedes third := by
  rcases h with h | ⟨h, hattempt, hopen⟩ <;> rcases h' with h' | ⟨h', hattempt', -⟩
  · exact .inl (by omega)
  · exact .inl (by omega)
  · exact .inl (by omega)
  · exact .inr ⟨by omega, by omega, hopen⟩

/-- A dispatch that may follow a record comes after it. -/
theorem precedes_of_follows {previous next : EntryRecord}
    (h : followsLast previous.entry next.entry.dispatch = .ok ()) : previous.Precedes next := by
  unfold followsLast at h
  split at h
  · cases h
  · rename_i completion hcompletion
    split at h
    · rename_i houtcome
      rw [ensure_eq_ok_iff] at h
      refine .inr ⟨h.1.symm, by omega, ?_⟩
      rintro ⟨other, hother, hanswered⟩
      rw [hcompletion, Option.mem_some_iff] at hother
      rw [← hother, houtcome] at hanswered
      cases hanswered
    · rw [ensure_eq_ok_iff] at h
      exact .inl (by omega)

/-- Every two records of an accepted journal are of different attempts, in their order. -/
theorem Accepted.ordered {codec : Codec} {layout : Layout} {config : JournalConfig} {binding : Binding}
    {entries : List EntryRecord} (h : Accepted codec layout config binding entries) :
    entries.Pairwise EntryRecord.Precedes := by
  induction entries using List.reverseRecOn with
  | nil => exact .nil
  | append_singleton front last ih =>
    have hfront := ih h.front
    refine List.pairwise_append.mpr ⟨hfront, List.pairwise_singleton _ _, fun record hmem next hnext => ?_⟩
    rw [List.mem_singleton] at hnext
    subst hnext
    induction front using List.reverseRecOn with
    | nil => cases hmem
    | append_singleton before previous _ =>
      have hprevious := precedes_of_follows (validateDispatchTransition_last h.last.transition)
      rcases List.mem_append.mp hmem with hmem | hmem
      · have hbefore : record.Precedes previous :=
          (List.pairwise_append.mp hfront).2.2 record hmem previous List.mem_cons_self
        exact hbefore.trans hprevious
      · rw [List.mem_singleton] at hmem
        rw [hmem]
        exact hprevious

/-- Of two records of an accepted journal, the one with the lower number lies before the other and is completed. -/
theorem Accepted.before {codec : Codec} {layout : Layout} {config : JournalConfig} {binding : Binding}
    {entries : List EntryRecord} (h : Accepted codec layout config binding entries) {record next : EntryRecord}
    (hrecord : record ∈ entries) (hnext : next ∈ entries) (hlt : record.sequence < next.sequence) :
    record.Precedes next ∧ record.entry.completed = true := by
  obtain ⟨before, rest, rfl⟩ := List.append_of_mem hrecord
  have hsequence : record.sequence = before.length + 1 := (h before record rest rfl).sequence
  have hrest : next ∈ rest := by
    rcases List.mem_append.mp hnext with hbefore | hmem
    · obtain ⟨i, hi⟩ := List.mem_iff_getElem?.mp hbefore
      have hi' : i < before.length := (List.getElem?_eq_some_iff.mp hi).1
      have hposition : (before ++ record :: rest)[i]? = some next := by rw [List.getElem?_append_left hi', hi]
      have := h.sequence hposition
      omega
    · rcases List.mem_cons.mp hmem with rfl | hmem
      · omega
      · exact hmem
  refine ⟨?_, ?_⟩
  · exact (List.pairwise_cons.mp (List.pairwise_append.mp h.ordered).2.1).1 next hrest
  · rcases h.completed_before with hcompleted | hnil
    · exact hcompleted
    · rw [hnil] at hrest
      cases hrest

/-! ## What lasts -/

/-- The records of the entry files. -/
def Disk.records (disk : Disk) : List EntryRecord := disk.entries.map Prod.snd

@[simp] theorem image_state (store : Store) : store.image.state = store.state := rfl

@[simp] theorem image_records (store : Store) : store.image.records = store.entries := by
  simp [Disk.records, Store.image, numbered, Function.comp_def]

/-- A property of the records that the files show and of those that a crash leaves. -/
structure Lasting (codec : Codec) (layout : Layout) (config : JournalConfig)
    (P : Option StateRecord → List EntryRecord → Prop) (journal : Journal) : Prop where
  ok : journal.Ok codec layout config
  visible : P journal.visible.state journal.visible.records
  durable : P journal.durable.state journal.durable.records

section Lasting

variable {codec : Codec} {layout : Layout} {config : JournalConfig} {P Q : Option StateRecord → List EntryRecord → Prop}
  {journal : Journal}

theorem Lasting.mono (h : Lasting codec layout config P journal)
    (hPQ : ∀ state entries, P state entries → Q state entries) :
    Lasting codec layout config Q journal :=
  ⟨h.ok, hPQ _ _ h.visible, hPQ _ _ h.durable⟩

theorem Lasting.and (h : Lasting codec layout config P journal) (h' : Lasting codec layout config Q journal) :
    Lasting codec layout config (fun state entries => P state entries ∧ Q state entries) journal :=
  ⟨h.ok, ⟨h.visible, h'.visible⟩, h.durable, h'.durable⟩

theorem Lasting.memory (h : Lasting codec layout config P journal) : P journal.store.state journal.store.entries := by
  have hvisible := h.visible
  rwa [h.ok.visible, image_state, image_records] at hvisible

/-- What holds of a store with nothing pending lasts. -/
theorem Lasting.of_clean (hok : journal.Ok codec layout config) (hclean : journal.store.syncPending = false)
    (h : P journal.store.state journal.store.entries) : Lasting codec layout config P journal := by
  have hvisible : P journal.visible.state journal.visible.records := by
    rw [hok.visible, image_state, image_records]
    exact h
  refine ⟨hok, hvisible, ?_⟩
  rw [hok.durable hclean]
  exact hvisible

/-- A call keeps what each change it can make keeps. -/
theorem Lasting.call (h : Lasting codec layout config P journal) (request : Call) (syncs : Bool) (io : List Io)
    (hstep : ∀ (opened : Store) state entries, opened.Sound codec layout config → P opened.state opened.entries →
      Change opened request state entries → P state entries) :
    Lasting codec layout config P (journal.call codec layout config request syncs io).1 := by
  have hopened : ∀ opened, journal.checkOpen syncs = .ok opened → Lasting codec layout config P opened := by
    intro opened hopen
    obtain ⟨hok, hstore⟩ := checkOpen_ok h.ok hopen
    refine Lasting.of_clean hok (by rw [hstore]; rfl) ?_
    rw [hstore]
    exact h.memory
  rcases call_cases h.ok request syncs io with ⟨-, hsame | ⟨opened, hopen, heq⟩⟩ |
    ⟨opened, plan, hopen, -, hplan, hsound, heq⟩
  · rw [hsame]
    exact h
  · rw [heq]
    exact hopened opened hopen
  · obtain ⟨hok, hstore⟩ := checkOpen_ok h.ok hopen
    have hperformed := perform_performed hok (by rw [hstore]; rfl) hsound io
    have hstage : ∀ later : Store, Stage opened.store plan later → P later.state later.entries := by
      rintro later ⟨part, hpart, hsettled⟩
      have hstate : later.state = (opened.store.installs part).state := congrArg (fun store => store.state) hsettled
      have hentries : later.entries = (opened.store.installs part).entries :=
          congrArg (fun store => store.entries) hsettled
      rw [hstate, hentries]
      exact hstep _ _ _ hok.sound (hopened opened hopen).memory (shape_change (plan_cases hplan) hpart)
    obtain ⟨old, -, hold, hdurable⟩ := hperformed.durable
    rw [heq]
    refine ⟨hperformed.ok, ?_, ?_⟩
    · rw [hperformed.ok.visible, image_state, image_records]
      exact hstage _ hperformed.stage
    · rw [hdurable, image_state, image_records]
      exact hstage _ hold

/-- What a crash leaves has the property, and so has the journal that is opened from it. -/
theorem Lasting.reopened (h : Lasting codec layout config P journal) {disk : Disk}
    (hdisk : disk = journal.visible ∨ disk = journal.durable) {store : Store}
    (hrecover : disk.recover codec layout config = .ok store) : Lasting codec layout config P ⟨disk, disk, store⟩ := by
  have hok : Journal.Ok codec layout config ⟨disk, disk, store⟩ :=
      step_ok h.ok (.reopened journal disk store hdisk hrecover)
  rcases hdisk with rfl | rfl
  · exact ⟨hok, h.visible, h.visible⟩
  · exact ⟨hok, h.durable, h.durable⟩

/-! ## Calls that return success -/

/-- A call that returns success has made its whole plan durable. -/
theorem call_installed (hok : journal.Ok codec layout config) {request : Call} {syncs : Bool} {io : List Io}
    (h : (journal.call codec layout config request syncs io).2 = .ok ()) :
    ∃ plan, journal.store.settled.plan codec layout config request = .ok plan ∧
      (journal.call codec layout config request syncs io).1.store = journal.store.settled.installs plan := by
  rcases call_cases hok request syncs io with ⟨⟨e, herror⟩, -⟩ | ⟨opened, plan, hopen, -, hplan, hsound, heq⟩
  · rw [herror] at h
    cases h
  · obtain ⟨hokOpened, hstore⟩ := checkOpen_ok hok hopen
    rw [heq] at h ⊢
    rw [hstore] at hplan
    refine ⟨plan, hplan, ?_⟩
    rw [((perform_performed hokOpened (by rw [hstore]; rfl) hsound io).returned h).1, hstore]

/-- What holds after a call that returned success lasts. -/
theorem Lasting.of_ok (hok : journal.Ok codec layout config) {request : Call} {syncs : Bool} {io : List Io}
    (h : (journal.call codec layout config request syncs io).2 = .ok ())
    (hnext : P (journal.call codec layout config request syncs io).1.store.state
      (journal.call codec layout config request syncs io).1.store.entries) :
    Lasting codec layout config P (journal.call codec layout config request syncs io).1 :=
  Lasting.of_clean (call_ok hok request syncs io) (clean_of_ok hok h) hnext

/-- `Begin` of a dispatch that is not recorded yet adds its marker. -/
theorem begin_done (hok : journal.Ok codec layout config) {binding : Binding} {dispatch : DispatchRecord} {syncs : Bool}
    {io : List Io} (hnew : dispatch.sequence = journal.store.entries.length + 1)
    (h : (journal.call codec layout config (.begin binding dispatch) syncs io).2 = .ok ()) :
    (journal.call codec layout config (.begin binding dispatch) syncs io).1.store.entries =
      journal.store.entries ++ [marker dispatch] := by
  obtain ⟨plan, hplan, hstore⟩ := call_installed hok h
  rw [hstore]
  cases begin_shape hplan with
  | nothing _ hdone =>
    obtain ⟨record, hrecord, -⟩ := hdone
    have hlt := (List.getElem?_eq_some_iff.mp hrecord).1
    change _ < journal.store.entries.length at hlt
    omega
  | marker | first => rfl

/-- `Complete` of the marker at the end replaces it. -/
theorem complete_done (hok : journal.Ok codec layout config) {binding : Binding} {entry : JournalEntry} {syncs : Bool}
    {io : List Io} {front : List EntryRecord} (hlast : journal.store.entries = front ++ [marker entry.dispatch])
    (h : (journal.call codec layout config (.complete binding entry) syncs io).2 = .ok ()) :
    (journal.call codec layout config (.complete binding entry) syncs io).1.store.entries =
      front ++ [⟨2, entry.dispatch.sequence, entry⟩] := by
  obtain ⟨plan, hplan, hstore⟩ := call_installed hok h
  have hnumber : entry.dispatch.sequence = journal.store.entries.length := by
    have haccepted := hok.sound.accepted
    rw [hlast] at haccepted
    rw [hlast, List.length_append]
    exact haccepted.last.sequence
  rw [hstore]
  cases complete_shape hplan with
  | nothing _ hdone =>
    obtain ⟨record, hrecord, hsame, hcompleted⟩ := hdone
    change journal.store.entries[_]? = _ at hrecord
    rw [hnumber, ← List.getLast?_eq_getElem?, hlast, List.getLast?_concat] at hrecord
    rw [← hsame, ← Option.some.inj hrecord] at hcompleted
    cases hcompleted
  | completion _ _ front' current bytes _ hlast' hsequence =>
    have hlast'' : front ++ [marker entry.dispatch] = front' ++ [current] := hlast.symm.trans hlast'
    obtain ⟨rfl, hcurrent⟩ := List.append_inj' hlast'' rfl
    cases hcurrent
    exact install_last _ hlast' hsequence rfl _

/-- `Revoke` leaves the store revoked. -/
theorem revoke_done (hok : journal.Ok codec layout config) {binding : Binding} {syncs : Bool} {io : List Io}
    (h : (journal.call codec layout config (.revoke binding) syncs io).2 = .ok ()) :
    ∃ state ∈ (journal.call codec layout config (.revoke binding) syncs io).1.store.state, state.revoked = true := by
  obtain ⟨plan, hplan, hstore⟩ := call_installed hok h
  rw [hstore]
  cases revoke_shape hplan with
  | nothing _ hdone => exact hdone
  | revoked _ generation bytes replace => exact ⟨_, rfl, rfl⟩

end Lasting

end DittoSubnet.Coding

import DittoSubnet.Coding.JournalSound

/-!
# The journal across crashes

A journal is reached from an empty root by calls, each of which may fail at any file-system step, and by crashes that
keep or lose the last rename, each followed by a recovery that succeeded (`Journal.Reachable`). In every such state the
files are those of the store in memory (`Journal.Ok`, `reachable_ok`).

After a crash inside a call the recovered store is the one before the call, the one after it, or, where the first
dispatch binds the journal, the bound journal without entries (`crash_recovers`); the last case does happen
(`first_dispatch_leaves_binding`).
-/

namespace DittoSubnet.Coding

open Kit

section Journal

variable {codec : Codec} {layout : Layout} {config : JournalConfig}

/-! ## Installs under faults -/

/-- The store with no sync pending. -/
def Store.settled (store : Store) : Store := { store with syncPending := false }

def Store.installs (store : Store) (plan : List Install) : Store := plan.foldl Store.install store

@[simp] theorem install_syncPending (store : Store) (install : Install) :
    (store.install install).syncPending = store.syncPending := by
  unfold Store.install
  split <;> rfl

@[simp] theorem installs_syncPending (store : Store) (plan : List Install) :
    (store.installs plan).syncPending = store.syncPending := by
  induction plan generalizing store with
  | nil => rfl
  | cons install rest ih => exact (ih (store.install install)).trans (install_syncPending store install)

theorem settled_eq {store : Store} (h : store.syncPending = false) : store.settled = store := by
  cases store
  cases h
  rfl

/-- The files agree with the store, and what a crash leaves are the files of a sound store. -/
structure Journal.Ok (codec : Codec) (layout : Layout) (config : JournalConfig) (journal : Journal) : Prop where
  sound : journal.store.Sound codec layout config
  visible : journal.visible = journal.store.image
  durable : journal.store.syncPending = false → journal.durable = journal.visible
  kept : ∃ old : Store, old.Sound codec layout config ∧ journal.durable = old.image

theorem Journal.Ok.of_synced {store : Store} (h : store.Sound codec layout config) :
    Journal.Ok codec layout config ⟨store.image, store.image, store⟩ :=
  ⟨h, rfl, fun _ => rfl, store, h, rfl⟩

/-- A store reached by some of the installs, in their order. -/
def Stage (store : Store) (plan : List Install) (later : Store) : Prop :=
  ∃ part, part <+: plan ∧ later.settled = (store.installs part).settled

theorem Stage.start (store : Store) (plan : List Install) : Stage store plan store := ⟨[], List.nil_prefix, rfl⟩

theorem Stage.cons {store later : Store} {install : Install} {rest : List Install}
    (h : Stage (store.install install) rest later) : Stage store (install :: rest) later := by
  obtain ⟨part, hprefix, heq⟩ := h
  exact ⟨install :: part, List.cons_prefix_cons.mpr ⟨rfl, hprefix⟩, heq⟩

/-- What is left after the installs of a plan, whichever of their steps failed. -/
structure Performed (codec : Codec) (layout : Layout) (config : JournalConfig) (store : Store) (plan : List Install)
    (next : Journal) (result : Except JournalError Unit) : Prop where
  ok : next.Ok codec layout config
  stage : Stage store plan next.store
  durable : ∃ old : Store, old.Sound codec layout config ∧ Stage store plan old ∧ next.durable = old.image
  returned : result = .ok () → next.store = store.installs plan ∧ next.store.syncPending = false

theorem perform_performed {journal : Journal} (hok : journal.Ok codec layout config)
    (hclean : journal.store.syncPending = false) {plan : List Install}
    (hplan : SoundPlan codec layout config journal.store plan) (io : List Io) :
    Performed codec layout config journal.store plan (journal.perform plan io).1 (journal.perform plan io).2 := by
  induction plan generalizing journal io with
  | nil =>
    exact ⟨hok, Stage.start _ _, ⟨_, hok.sound, Stage.start _ _, (hok.durable hclean).trans hok.visible⟩,
      fun _ => ⟨rfl, hclean⟩⟩
  | cons install rest ih =>
    obtain ⟨hinstall, hrest⟩ := hplan
    have hfile : journal.visible.install install = .ok (journal.store.install install).image := by
      rw [hok.visible]
      exact hinstall.file
    have hdurable : journal.durable = journal.store.image := (hok.durable hclean).trans hok.visible
    rw [Journal.perform]
    cases hio : io.head?.getD .done with
    | failed =>
      simp only [Journal.installRecord]
      exact ⟨hok, Stage.start _ _, ⟨_, hok.sound, Stage.start _ _, hdurable⟩, (fun hcontra => nomatch hcontra)⟩
    | unsynced =>
      simp only [Journal.installRecord, hfile]
      refine ⟨⟨hinstall.sound.sync true, rfl, (fun hcontra => nomatch hcontra), ?_⟩, ?_, ?_,
        (fun hcontra => nomatch hcontra)⟩
      · exact ⟨journal.store, hok.sound, hdurable⟩
      · exact Stage.cons ⟨[], List.nil_prefix, rfl⟩
      · exact ⟨_, hok.sound, Stage.start _ _, hdurable⟩
    | done =>
      have hstore : { journal.store.install install with syncPending := false } = journal.store.install install :=
        settled_eq (by rw [install_syncPending, hclean])
      simp only [Journal.installRecord, hfile]
      rw [hstore]
      have hnext := ih (Journal.Ok.of_synced hinstall.sound)
        (by rw [install_syncPending, hclean]) hrest io.tail
      obtain ⟨old, hsound, hold, heq⟩ := hnext.durable
      exact ⟨hnext.ok, hnext.stage.cons, ⟨old, hsound, hold.cons, heq⟩, hnext.returned⟩

/-! ## Calls -/

/-- A pending sync that is made up for makes the files durable. -/
theorem checkOpen_ok {journal opened : Journal} (hok : journal.Ok codec layout config) {syncs : Bool}
    (h : journal.checkOpen syncs = .ok opened) :
    opened.Ok codec layout config ∧ opened.store = journal.store.settled := by
  unfold Journal.checkOpen at h
  split at h
  · split at h
    · cases h
      exact ⟨⟨hok.sound.sync false, hok.visible, fun _ => rfl, journal.store, hok.sound, hok.visible⟩, rfl⟩
    · cases h
  · rename_i hclean
    cases h
    refine ⟨hok, (settled_eq ?_).symm⟩
    simpa using hclean

/-- A call that is not refused works on the settled store. -/
theorem call_cases {journal : Journal} (hok : journal.Ok codec layout config) (request : Call) (syncs : Bool)
    (io : List Io) :
    ((∃ e, (journal.call codec layout config request syncs io).2 = .error e) ∧
        ((journal.call codec layout config request syncs io).1 = journal ∨
          ∃ opened, journal.checkOpen syncs = .ok opened ∧
            (journal.call codec layout config request syncs io).1 = opened)) ∨
      ∃ opened plan, journal.checkOpen syncs = .ok opened ∧ request.admissible codec config ∧
        opened.store.plan codec layout config request = .ok plan ∧
        SoundPlan codec layout config opened.store plan ∧
        journal.call codec layout config request syncs io = opened.perform plan io := by
  unfold Journal.call
  by_cases hadmissible : request.admissible codec config
  · rw [if_pos hadmissible]
    cases hopen : journal.checkOpen syncs with
    | error e => exact .inl ⟨⟨e, rfl⟩, .inl rfl⟩
    | ok opened =>
      cases hplan : opened.store.plan codec layout config request with
      | error e => exact .inl ⟨⟨e, by simp only [hplan]⟩, .inr ⟨opened, rfl, by simp only [hplan]⟩⟩
      | ok plan =>
        have hsound := plan_sound (checkOpen_ok hok hopen).1.sound hadmissible hplan
        exact .inr ⟨opened, plan, rfl, hadmissible, hplan, hsound, by simp only [hplan]⟩
  · rw [if_neg hadmissible]
    exact .inl ⟨⟨_, rfl⟩, .inl rfl⟩

/-- A call keeps the files in step with the store, and what the store holds. -/
theorem call_ok {journal : Journal} (hok : journal.Ok codec layout config) (request : Call) (syncs : Bool)
    (io : List Io) : (journal.call codec layout config request syncs io).1.Ok codec layout config := by
  rcases call_cases hok request syncs io with ⟨-, hsame | ⟨opened, hopen, heq⟩⟩ |
      ⟨opened, plan, hopen, -, -, hsound, heq⟩
  · rw [hsame]
    exact hok
  · rw [heq]
    exact (checkOpen_ok hok hopen).1
  · obtain ⟨hokOpened, hstore⟩ := checkOpen_ok hok hopen
    rw [heq]
    exact (perform_performed hokOpened (by rw [hstore]; rfl) hsound io).ok

end Journal

/-! ## Runs -/

section Runs

variable (codec : Codec) (layout : Layout) (config : JournalConfig)

/-- One call, or a crash that keeps or loses the last rename and a recovery that succeeds. -/
inductive Journal.Step : Journal → Journal → Prop where
  | called (journal : Journal) (request : Call) (syncs : Bool) (io : List Io) :
      Step journal (journal.call codec layout config request syncs io).1
  | reopened (journal : Journal) (disk : Disk) (store : Store) (hdisk : disk = journal.visible ∨ disk = journal.durable)
      (hrecover : disk.recover codec layout config = .ok store) : Step journal ⟨disk, disk, store⟩

/-- An empty root, just opened. -/
def Journal.fresh : Journal := ⟨⟨none, []⟩, ⟨none, []⟩, Store.empty⟩

def Journal.Reachable (journal : Journal) : Prop :=
  Relation.ReflTransGen (Journal.Step codec layout config) Journal.fresh journal

end Runs

section Invariants

variable {codec : Codec} {layout : Layout} {config : JournalConfig}

theorem fresh_ok : Journal.fresh.Ok codec layout config := by
  show Journal.Ok codec layout config ⟨Store.empty.image, Store.empty.image, Store.empty⟩
  refine Journal.Ok.of_synced ?_
  refine ⟨fun _ => rfl, ?_, ?_, Accepted.nil, Nat.zero_le _, rfl, rfl, rfl, Nat.zero_le _, ?_⟩ <;>
    · intro state hstate
      cases hstate

/-- Either kind of crash leaves the files of a sound store. -/
theorem Journal.Ok.crashed {journal : Journal} (hok : journal.Ok codec layout config) {disk : Disk}
    (hdisk : disk = journal.visible ∨ disk = journal.durable) :
    ∃ store : Store, store.Sound codec layout config ∧ disk = store.image := by
  rcases hdisk with rfl | rfl
  · exact ⟨journal.store, hok.sound, hok.visible⟩
  · exact hok.kept

theorem step_ok {journal next : Journal} (hok : journal.Ok codec layout config)
    (h : Journal.Step codec layout config journal next) : next.Ok codec layout config := by
  cases h with
  | called request syncs io => exact call_ok hok request syncs io
  | reopened disk store hdisk hrecover =>
    obtain ⟨old, hsound, rfl⟩ := hok.crashed hdisk
    obtain ⟨-, rfl⟩ := eq_of_recover_image hsound hrecover
    exact Journal.Ok.of_synced (hsound.sync false)

/-- The files agree with the store in every reachable state. -/
theorem reachable_ok {journal : Journal} (h : Journal.Reachable codec layout config journal) :
    journal.Ok codec layout config := by
  induction h with
  | refl => exact fresh_ok
  | tail _ hstep ih => exact step_ok ih hstep

end Invariants

/-! ## What a crash leaves -/

section Crash

variable {codec : Codec} {layout : Layout} {config : JournalConfig}

/-- The store of a journal that is bound and has no entries. -/
def Store.boundTo (layout : Layout) (binding : Binding) : Store :=
  let bytes := layout.length (.state ⟨1, binding, false⟩)
  ⟨some ⟨1, binding, false⟩, [], bytes, [], bytes, false⟩

/-- A plan installs at most one record, except for the first dispatch on an unbound journal. -/
def ShortPlan (layout : Layout) (store : Store) (request : Call) (plan : List Install) : Prop :=
  plan.length ≤ 1 ∨ ∃ binding dispatch marker, request = .begin binding dispatch ∧ store.state = none ∧
    plan = [.state ⟨1, binding, false⟩ (layout.length (.state ⟨1, binding, false⟩)) false, marker]

theorem appendDispatch_short {store : Store} {binding : Binding} {dispatch : DispatchRecord} {plan : List Install}
    (h : store.appendDispatch layout config binding dispatch = .ok plan) :
    ShortPlan layout store (.begin binding dispatch) plan := by
  unfold Store.appendDispatch at h
  rw [ensure_bind_eq_ok_iff, ensure_bind_eq_ok_iff, bind_eq_ok_iff] at h
  obtain ⟨-, -, entryBody, -, h⟩ := h
  rw [bind_eq_ok_iff] at h
  obtain ⟨pending, hpending, h⟩ := h
  change (ensure _ _ >>= fun _ => _) = _ at h
  rw [ensure_bind_eq_ok_iff] at h
  obtain ⟨-, h⟩ := h
  cases h
  unfold Store.firstState at hpending
  split at hpending
  · cases hpending
    exact .inl (Nat.le_refl 1)
  · rename_i hnone
    rw [ensure_bind_eq_ok_iff, bind_eq_ok_iff] at hpending
    obtain ⟨-, body, hbody, hpending⟩ := hpending
    obtain ⟨-, rfl⟩ := stateRecordBytes_ok.mp hbody
    cases hpending
    exact .inr ⟨binding, dispatch, _, rfl, hnone, rfl⟩

theorem begin_short {store : Store} {binding : Binding} {dispatch : DispatchRecord} {plan : List Install}
    (h : store.Begin codec layout config binding dispatch = .ok plan) :
    ShortPlan layout store (.begin binding dispatch) plan := by
  unfold Store.Begin at h
  rw [ensure_bind_eq_ok_iff, check_bind_eq_ok_iff, ensure_bind_eq_ok_iff] at h
  obtain ⟨-, -, -, h⟩ := h
  split at h
  · rw [ensure_bind_eq_ok_iff] at h
    cases h.2
    exact .inl (Nat.zero_le 1)
  · exact appendDispatch_short h

theorem complete_short {store : Store} {binding : Binding} {entry : JournalEntry} {plan : List Install}
    (h : store.Complete codec layout config binding entry = .ok plan) : plan.length ≤ 1 := by
  unfold Store.Complete at h
  split at h
  · cases h
  · rw [ensure_bind_eq_ok_iff, ensure_bind_eq_ok_iff, ensure_bind_eq_ok_iff] at h
    obtain ⟨-, -, -, h⟩ := h
    split at h
    · cases h
    · split at h
      · rw [ensure_bind_eq_ok_iff] at h
        cases h.2
        exact Nat.zero_le 1
      · unfold Store.replaceMarker at h
        rw [ensure_bind_eq_ok_iff, ensure_bind_eq_ok_iff, bind_eq_ok_iff] at h
        obtain ⟨-, -, body, -, h⟩ := h
        rw [check_bind_eq_ok_iff, ensure_bind_eq_ok_iff] at h
        cases h.2.2
        exact Nat.le_refl 1

theorem plan_short {store : Store} {request : Call} {plan : List Install}
    (h : store.plan codec layout config request = .ok plan) : ShortPlan layout store request plan := by
  cases request with
  | load binding =>
    change store.Load layout binding = _ at h
    unfold Store.Load at h
    split at h
    · cases h
      exact .inl (Nat.zero_le 1)
    · rw [ensure_bind_eq_ok_iff, ensure_bind_eq_ok_iff] at h
      cases h.2.2
      exact .inl (Nat.zero_le 1)
  | bind binding =>
    change store.Bind layout config binding = _ at h
    unfold Store.Bind at h
    split at h
    · rw [ensure_bind_eq_ok_iff, ensure_bind_eq_ok_iff] at h
      cases h.2.2
      exact .inl (Nat.zero_le 1)
    · rw [ensure_bind_eq_ok_iff, bind_eq_ok_iff] at h
      obtain ⟨-, body, -, h⟩ := h
      rw [ensure_bind_eq_ok_iff] at h
      cases h.2
      exact .inl (Nat.le_refl 1)
  | begin binding dispatch => exact begin_short h
  | complete binding entry => exact .inl (complete_short h)
  | revoke binding =>
    change store.Revoke layout config binding = _ at h
    unfold Store.Revoke at h
    split at h
    · rw [ensure_bind_eq_ok_iff] at h
      obtain ⟨-, h⟩ := h
      split at h
      · cases h
        exact .inl (Nat.zero_le 1)
      · rw [bind_eq_ok_iff] at h
        obtain ⟨body, -, h⟩ := h
        rw [ensure_bind_eq_ok_iff] at h
        cases h.2
        exact .inl (Nat.le_refl 1)
    · rw [ensure_bind_eq_ok_iff, bind_eq_ok_iff] at h
      obtain ⟨-, body, -, h⟩ := h
      rw [ensure_bind_eq_ok_iff] at h
      cases h.2
      exact .inl (Nat.le_refl 1)

/-- Installing the first state record binds the store. -/
theorem boundTo_eq {store : Store} (h : store.Sound codec layout config) (hnone : store.state = none)
    (binding : Binding) :
    (store.install (.state ⟨1, binding, false⟩ (layout.length (.state ⟨1, binding, false⟩)) false)).settled =
      Store.boundTo layout binding := by
  have hentries := h.unbound hnone
  have hbytes : store.stateBytes = 0 := by
    rw [h.stateBytes, hnone]
    rfl
  have hentryBytes : store.entryBytes = [] := by
    rw [h.entryBytes, hentries]
    rfl
  have hphysical : store.physicalBytes = 0 := by
    rw [h.physical, hbytes, hentryBytes]
    rfl
  simp [Store.install, Store.settled, Store.boundTo, hentries, hbytes, hentryBytes, hphysical]

/-- The stages of a plan are before it, after it, or the binding of a first dispatch. -/
theorem stage_cases {store later : Store} (h : store.Sound codec layout config) {request : Call} {plan : List Install}
    (hshort : ShortPlan layout store request plan) (hstage : Stage store plan later) :
    later.settled = store.settled ∨ later.settled = (store.installs plan).settled ∨
      ∃ binding dispatch, request = .begin binding dispatch ∧ store.state = none ∧
        later.settled = Store.boundTo layout binding := by
  obtain ⟨part, hprefix, heq⟩ := hstage
  obtain ⟨suffix, hsplit⟩ := hprefix
  rcases hshort with hlength | ⟨binding, dispatch, marker, hrequest, hnone, hplan⟩
  · rw [← hsplit, List.length_append] at hlength
    rcases part with _ | ⟨first, more⟩
    · exact .inl heq
    · have hsuffix : suffix = [] := List.eq_nil_of_length_eq_zero (by simp only [List.length_cons] at hlength; omega)
      rw [hsuffix, List.append_nil] at hsplit
      rw [hsplit] at heq
      exact .inr (.inl heq)
  · rw [hplan] at hsplit
    rcases part with _ | ⟨first, _ | ⟨second, more⟩⟩
    · exact .inl heq
    · obtain rfl : first = .state ⟨1, binding, false⟩ (layout.length (.state ⟨1, binding, false⟩)) false := by
        simpa using congrArg List.head? hsplit
      exact .inr (.inr ⟨binding, dispatch, hrequest, hnone, heq.trans (boundTo_eq h hnone binding)⟩)
    · have hlength := congrArg List.length hsplit
      simp only [List.length_append, List.length_cons, List.length_nil] at hlength
      have hmore : more = [] := List.eq_nil_of_length_eq_zero (by omega)
      have hsuffix : suffix = [] := List.eq_nil_of_length_eq_zero (by omega)
      rw [hsuffix, List.append_nil] at hsplit
      rw [hsplit, ← hplan] at heq
      exact .inr (.inl heq)

/-- On a clean journal a call does what its plan says. -/
theorem call_clean {journal : Journal} (hclean : journal.store.syncPending = false) {request : Call}
    (hadmissible : request.admissible codec config) (io : List Io) :
    journal.call codec layout config request true io =
      match journal.store.plan codec layout config request with
      | .error e => (journal, .error e)
      | .ok plan => journal.perform plan io := by
  have hopen : journal.checkOpen true = .ok journal := by
    rw [Journal.checkOpen, if_neg (by simp [hclean])]
  unfold Journal.call
  cases hplan : journal.store.plan codec layout config request <;> simp only [if_pos hadmissible, hopen, hplan]

/-- A call without faults ends in the store after its whole plan. -/
theorem call_done {journal : Journal} (hok : journal.Ok codec layout config)
    (hclean : journal.store.syncPending = false)
    {request : Call} (hadmissible : request.admissible codec config) {plan : List Install}
    (hplan : journal.store.plan codec layout config request = .ok plan) :
    (journal.call codec layout config request true []).1.store = journal.store.installs plan := by
  have hperform : ∀ (j : Journal) (plan : List Install), j.Ok codec layout config → j.store.syncPending = false →
      SoundPlan codec layout config j.store plan → (j.perform plan []).2 = .ok () := by
    intro j plan
    induction plan generalizing j with
    | nil => exact fun _ _ _ => rfl
    | cons install rest ih =>
      intro hj hcleanj hsound
      have hfile : j.visible.install install = .ok (j.store.install install).image := by
        rw [hj.visible]
        exact hsound.1.file
      have hstore : { j.store.install install with syncPending := false } = j.store.install install :=
        settled_eq (by rw [install_syncPending, hcleanj])
      rw [Journal.perform]
      simp only [List.head?_nil, Option.getD_none, Journal.installRecord, hfile]
      rw [hstore]
      exact ih ⟨_, _, j.store.install install⟩ (Journal.Ok.of_synced hsound.1.sound)
        (by rw [install_syncPending, hcleanj]) hsound.2
  have hsound := plan_sound hok.sound hadmissible hplan
  rw [call_clean hclean hadmissible, hplan]
  exact ((perform_performed hok hclean hsound []).returned (hperform journal plan hok hclean hsound)).1

/-- After a crash inside a call, recovery gives the store before it, the store after it, or the bound store of a first
dispatch. -/
theorem recover_call {journal : Journal} (hok : journal.Ok codec layout config)
    (hclean : journal.store.syncPending = false) (request : Call) (syncs : Bool) (io : List Io) {disk : Disk}
    (hdisk : disk = (journal.call codec layout config request syncs io).1.visible ∨
      disk = (journal.call codec layout config request syncs io).1.durable)
    {store : Store} (hrecover : disk.recover codec layout config = .ok store) :
    store = journal.store ∨ store = (journal.call codec layout config request true []).1.store ∨
      ∃ binding dispatch, request = .begin binding dispatch ∧ journal.store.state = none ∧
        store = Store.boundTo layout binding := by
  have hopened : ∀ opened, journal.checkOpen syncs = .ok opened → opened = journal := by
    intro opened h
    rw [Journal.checkOpen, if_neg (by simp [hclean])] at h
    exact (Except.ok.inj h).symm
  have hunchanged : disk = journal.visible ∨ disk = journal.durable → store = journal.store := by
    intro h
    have himage : disk = journal.store.image := by
      rcases h with rfl | rfl
      · exact hok.visible
      · rw [hok.durable hclean, hok.visible]
    rw [himage] at hrecover
    exact (eq_of_recover_image hok.sound hrecover).2.trans (settled_eq hclean)
  rcases call_cases hok request syncs io with ⟨-, hsame | ⟨opened, hopen, heq⟩⟩ |
    ⟨opened, plan, hopen, hadmissible, hplan, hsound, heq⟩
  · rw [hsame] at hdisk
    exact .inl (hunchanged hdisk)
  · rw [heq, hopened opened hopen] at hdisk
    exact .inl (hunchanged hdisk)
  · obtain rfl := hopened opened hopen
    have hperformed := perform_performed hok hclean hsound io
    rw [heq] at hdisk
    -- Either way the disk holds the files of a stage of the plan, and that stage is sound.
    have hstage : ∃ later : Store, later.Sound codec layout config ∧ Stage opened.store plan later ∧
        disk = later.image := by
      rcases hdisk with rfl | rfl
      · exact ⟨_, hperformed.ok.sound, hperformed.stage, hperformed.ok.visible⟩
      · exact hperformed.durable
    obtain ⟨later, hlaterSound, hstage, rfl⟩ := hstage
    have hstore : store = later.settled := (eq_of_recover_image hlaterSound hrecover).2
    have hsettled : (opened.store.installs plan).settled = opened.store.installs plan :=
      settled_eq (by rw [installs_syncPending, hclean])
    rcases stage_cases hok.sound (plan_short hplan) hstage with hbefore | hafter | hbound
    · exact .inl (hstore.trans (hbefore.trans (settled_eq hclean)))
    · exact .inr (.inl (hstore.trans (hafter.trans (hsettled.trans (call_done hok hclean hadmissible hplan).symm))))
    · obtain ⟨binding, dispatch, hrequest, hnone, hlater⟩ := hbound
      exact .inr (.inr ⟨binding, dispatch, hrequest, hnone, hstore.trans hlater⟩)

end Crash

/-! ## What is never lost -/

section Holding

variable {codec : Codec} {layout : Layout} {config : JournalConfig}

theorem Store.Extends.of_settled {first store later : Store} (h : first.Extends store)
    (heq : later.settled = store.settled) : first.Extends later := by
  have hstate : later.settled.state = store.settled.state := by rw [heq]
  have hentries : later.settled.entries = store.settled.entries := by rw [heq]
  constructor
  · intro state hmem
    obtain ⟨next, hnext, hkept⟩ := h.state state hmem
    exact ⟨next, hstate.trans hnext, hkept⟩
  · intro record hmem hcompleted
    show record ∈ later.settled.entries
    rw [hentries]
    exact h.entries record hmem hcompleted

/-- Every stage of a sound plan keeps what the store holds. -/
theorem extends_stage {store later : Store} {plan : List Install} (hplan : SoundPlan codec layout config store plan)
    (hstage : Stage store plan later) : store.Extends later := by
  obtain ⟨part, hprefix, heq⟩ := hstage
  refine Store.Extends.of_settled ?_ heq
  clear heq
  induction plan generalizing store part with
  | nil =>
    rw [List.prefix_nil.mp hprefix]
    exact Store.Extends.refl store
  | cons install rest ih =>
    rcases part with _ | ⟨first, more⟩
    · exact Store.Extends.refl store
    · obtain ⟨rfl, hmore⟩ := List.cons_prefix_cons.mp hprefix
      exact hplan.1.kept.trans (ih hplan.2 more hmore)

/-- The store and what a crash would leave both keep what `first` holds. -/
structure Holds (codec : Codec) (layout : Layout) (config : JournalConfig) (first : Store) (journal : Journal) :
    Prop where
  ok : journal.Ok codec layout config
  memory : first.Extends journal.store
  files : ∃ old : Store, old.Sound codec layout config ∧ journal.durable = old.image ∧ first.Extends old

theorem Holds.checkOpen {first : Store} {journal opened : Journal} (h : Holds codec layout config first journal)
    {syncs : Bool} (hopen : journal.checkOpen syncs = .ok opened) : Holds codec layout config first opened := by
  obtain ⟨hok, hstore⟩ := checkOpen_ok h.ok hopen
  have hmemory : first.Extends opened.store := h.memory.of_settled (by rw [hstore]; rfl)
  refine ⟨hok, hmemory, opened.store, hok.sound, ?_, hmemory⟩
  rw [hok.durable (by rw [hstore]; rfl), hok.visible]

theorem Holds.call {first : Store} {journal : Journal} (h : Holds codec layout config first journal) (request : Call)
    (syncs : Bool) (io : List Io) :
    Holds codec layout config first (journal.call codec layout config request syncs io).1 := by
  rcases call_cases h.ok request syncs io with ⟨-, hsame | ⟨opened, hopen, heq⟩⟩ |
    ⟨opened, plan, hopen, -, -, hsound, heq⟩
  · rw [hsame]
    exact h
  · rw [heq]
    exact h.checkOpen hopen
  · have hopened := h.checkOpen hopen
    have hclean : opened.store.syncPending = false := by
      rw [(checkOpen_ok h.ok hopen).2]
      rfl
    have hperformed := perform_performed hopened.ok hclean hsound io
    obtain ⟨old, holdSound, hold, hdurable⟩ := hperformed.durable
    rw [heq]
    exact ⟨hperformed.ok, hopened.memory.trans (extends_stage hsound hperformed.stage),
      old, holdSound, hdurable, hopened.memory.trans (extends_stage hsound hold)⟩

theorem Holds.step {first : Store} {journal next : Journal} (h : Holds codec layout config first journal)
    (hstep : Journal.Step codec layout config journal next) : Holds codec layout config first next := by
  cases hstep with
  | called request syncs io => exact h.call request syncs io
  | reopened disk store hdisk hrecover =>
    obtain ⟨old, hsound, rfl, hextends⟩ : ∃ old : Store, old.Sound codec layout config ∧ disk = old.image ∧
        first.Extends old := by
      rcases hdisk with rfl | rfl
      · exact ⟨journal.store, h.ok.sound, h.ok.visible, h.memory⟩
      · exact h.files
    obtain ⟨-, rfl⟩ := eq_of_recover_image hsound hrecover
    have hkept : first.Extends { old with syncPending := false } := hextends.of_settled rfl
    exact ⟨Journal.Ok.of_synced (hsound.sync false), hkept, _, hsound.sync false, rfl, hkept⟩

/-- A call that returns success leaves nothing pending. -/
theorem clean_of_ok {journal : Journal} (hok : journal.Ok codec layout config) {request : Call} {syncs : Bool}
    {io : List Io} (h : (journal.call codec layout config request syncs io).2 = .ok ()) :
    (journal.call codec layout config request syncs io).1.store.syncPending = false := by
  rcases call_cases hok request syncs io with ⟨⟨e, herror⟩, -⟩ | ⟨opened, plan, hopen, -, -, hsound, heq⟩
  · rw [herror] at h
    cases h
  · obtain ⟨hokOpened, hstore⟩ := checkOpen_ok hok hopen
    rw [heq] at h ⊢
    exact ((perform_performed hokOpened (by rw [hstore]; rfl) hsound io).returned h).2

/-- What the store holds when a call returns success is held ever after. -/
theorem held_after_ok {journal later : Journal} (hok : journal.Ok codec layout config) {request : Call} {syncs : Bool}
    {io : List Io} (h : (journal.call codec layout config request syncs io).2 = .ok ())
    (hlater : Relation.ReflTransGen (Journal.Step codec layout config)
      (journal.call codec layout config request syncs io).1 later) :
    (journal.call codec layout config request syncs io).1.store.Extends later.store := by
  have hnext := call_ok hok request syncs io
  have hclean := clean_of_ok hok h
  have hstart : Holds codec layout config (journal.call codec layout config request syncs io).1.store
      (journal.call codec layout config request syncs io).1 :=
    ⟨hnext, Store.Extends.refl _, _, hnext.sound, (hnext.durable hclean).trans hnext.visible, Store.Extends.refl _⟩
  have hend : Holds codec layout config (journal.call codec layout config request syncs io).1.store later := by
    induction hlater with
    | refl => exact hstart
    | tail _ hstep ih => exact ih.step hstep
  exact hend.memory

end Holding

/-! ## Reserved bytes -/

section Reserved

variable {codec : Codec} {layout : Layout} {config : JournalConfig}

theorem disk_install_error {disk : Disk} {install : Install} {e : JournalError}
    (h : disk.install install = .error e) : e = .conflict ∨ e = .corrupt := by
  cases install with
  | state record bytes replace =>
    simp only [Disk.install] at h
    split at h
    · cases h
      exact .inr rfl
    · split at h
      · cases h
        exact .inl rfl
      · cases h
  | entry record bytes replace =>
    simp only [Disk.install] at h
    split at h
    · split at h
      · cases h
      · cases h
        exact .inr rfl
    · split at h
      · cases h
        exact .inl rfl
      · cases h

theorem installRecord_error {journal : Journal} {install : Install} {io : Io} {e : JournalError}
    (h : (journal.installRecord install io).2 = .error e) : e ≠ .capacity := by
  unfold Journal.installRecord at h
  cases hfile : journal.visible.install install with
  | error e' =>
    have hkind := disk_install_error hfile
    rw [hfile] at h
    cases io <;> cases h <;> rcases hkind with rfl | rfl <;> decide
  | ok disk =>
    rw [hfile] at h
    cases io <;> cases h <;> decide

theorem perform_error {journal : Journal} {plan : List Install} {io : List Io} {e : JournalError}
    (h : (journal.perform plan io).2 = .error e) : e ≠ .capacity := by
  induction plan generalizing journal io with
  | nil => cases h
  | cons install rest ih =>
    rw [Journal.perform] at h
    split at h
    · rename_i next e' heq
      cases h
      exact installRecord_error (by rw [heq])
    · exact ih h

/-- A call runs out of capacity only where its plan does. -/
theorem plan_of_capacity {journal : Journal} {request : Call} {syncs : Bool} {io : List Io}
    (h : (journal.call codec layout config request syncs io).2 = .error .capacity) :
    ∃ opened, journal.checkOpen syncs = .ok opened ∧
      opened.store.plan codec layout config request = .error .capacity := by
  unfold Journal.call at h
  split at h
  · split at h
    · rename_i e hopen
      unfold Journal.checkOpen at hopen
      split at hopen
      · split at hopen
        · cases hopen
        · cases hopen
          cases h
      · cases hopen
    · rename_i opened hopen
      split at h
      · rename_i e hplan
        cases h
        exact ⟨opened, hopen, hplan⟩
      · exact absurd rfl (perform_error h)
  · cases h

/-- Errors of a guard followed by the rest. -/
theorem ensure_bind_error {α : Type} {p : Prop} {_ : Decidable p} {e e' : JournalError}
    {f : Unit → Except JournalError α} (h : (ensure p e >>= f) = .error e') : ¬ p ∧ e = e' ∨ p ∧ f () = .error e' := by
  by_cases hp : p
  · rw [ensure_bind_pos hp] at h
    exact .inr ⟨hp, h⟩
  · rw [ensure_bind_neg hp] at h
    exact .inl ⟨hp, Except.error.inj h⟩

/-- Revoking a bound journal never runs out of bytes: the room for it was reserved when it was bound. -/
theorem revoke_room {store : Store} (h : store.Sound codec layout config) (hbound : store.state.isSome)
    (binding : Binding) : store.Revoke layout config binding ≠ .error .capacity := by
  obtain ⟨state, hstate⟩ := Option.isSome_iff_exists.mp hbound
  intro hcontra
  unfold Store.Revoke at hcontra
  rw [hstate] at hcontra
  rcases ensure_bind_error hcontra with ⟨-, he⟩ | ⟨-, hcontra⟩
  · cases he
  · split at hcontra
    · cases hcontra
    · rename_i hopen
      have hreserved := h.reserved state hstate (by simpa using hopen)
      have hphysical := h.physical
      change (stateRecordBytes layout ⟨state.generation + 1, state.binding, true⟩ >>= _) = _ at hcontra
      cases hbody : stateRecordBytes layout ⟨state.generation + 1, state.binding, true⟩ with
      | error e =>
        rw [hbody] at hcontra
        unfold stateRecordBytes at hbody
        split at hbody
        · cases hbody
        · cases hbody
          cases hcontra
      | ok body =>
        rw [hbody] at hcontra
        obtain ⟨hlength, rfl⟩ := stateRecordBytes_ok.mp hbody
        rcases ensure_bind_error hcontra with ⟨hroom, -⟩ | ⟨-, hcontra⟩
        · rw [hasCapacity_iff h.fits] at hroom
          apply hroom
          unfold replacementDelta
          split <;> omega
        · cases hcontra

theorem replaceMarker_room {store : Store} (h : store.Sound codec layout config) {binding : Binding}
    {entry : JournalEntry} {state : StateRecord} (hstate : store.state = some state) {current : EntryRecord}
    (hcurrent : store.entries[entry.dispatch.sequence - 1]? = some current) (hopen : ¬ current.entry.completed = true)
    (hcontra : store.replaceMarker layout config binding state current entry = .error .capacity) :
    maximumEntryBytes < layout.length (.record ⟨2, entry.dispatch.sequence, entry⟩) ∨
      validateCompletedUsage config.policy binding store.entries entry = .error .capacity := by
  unfold Store.replaceMarker at hcontra
  rcases ensure_bind_error hcontra with ⟨-, he⟩ | ⟨hunrevoked, hcontra⟩
  · cases he
  rcases ensure_bind_error hcontra with ⟨-, he⟩ | ⟨⟨hsequence, -⟩, hcontra⟩
  · cases he
  have hgeneration : current.generation = 1 := by
    have := (h.accepted.get hcurrent).generation
    rwa [if_neg hopen] at this
  rw [hgeneration] at hcontra
  change (entryRecordBytes layout ⟨1 + 1, entry.dispatch.sequence, entry⟩ >>= _) = _ at hcontra
  cases hbody : entryRecordBytes layout ⟨1 + 1, entry.dispatch.sequence, entry⟩ with
  | error e =>
    rw [hbody] at hcontra
    cases hcontra
    unfold entryRecordBytes at hbody
    rcases ensure_bind_error hbody with ⟨-, he⟩ | ⟨-, hbody⟩
    · cases he
    · split at hbody
      · cases hbody
      · rename_i hlong
        exact .inl (Nat.lt_of_not_le hlong)
  | ok body =>
    rw [hbody] at hcontra
    obtain ⟨-, hlength, rfl⟩ := entryRecordBytes_ok.mp hbody
    change (validateCompletedUsage config.policy binding store.entries entry >>= _) = _ at hcontra
    cases husage : validateCompletedUsage config.policy binding store.entries entry with
    | error e =>
      rw [husage] at hcontra
      cases hcontra
      exact .inr rfl
    | ok u =>
      rw [husage] at hcontra
      rcases ensure_bind_error hcontra with ⟨hroom, -⟩ | ⟨-, hcontra⟩
      · -- The bytes of the longest record were reserved while the marker is open.
        exfalso
        have hlast : lastOpen store.entries = true := by
          rw [hsequence, ← List.getLast?_eq_getElem?] at hcurrent
          simpa [lastOpen, hcurrent] using hopen
        have hreserved := h.reserved state hstate hunrevoked
        rw [hlast, if_pos rfl] at hreserved
        rw [hasCapacity_iff h.fits] at hroom
        apply hroom
        unfold replacementDelta
        split <;> omega
      · cases hcontra

/-- Completing the open dispatch runs out of capacity only where the record is too long or a budget is exceeded: its
bytes were reserved when it was begun. -/
theorem complete_room {store : Store} (h : store.Sound codec layout config) {binding : Binding} {entry : JournalEntry}
    (hcontra : store.Complete codec layout config binding entry = .error .capacity) :
    maximumEntryBytes < layout.length (.record ⟨2, entry.dispatch.sequence, entry⟩) ∨
      validateCompletedUsage config.policy binding store.entries entry = .error .capacity := by
  unfold Store.Complete at hcontra
  split at hcontra
  · cases hcontra
  · rename_i state hstate
    rcases ensure_bind_error hcontra with ⟨-, he⟩ | ⟨-, hcontra⟩
    · cases he
    rcases ensure_bind_error hcontra with ⟨-, he⟩ | ⟨-, hcontra⟩
    · cases he
    rcases ensure_bind_error hcontra with ⟨-, he⟩ | ⟨-, hcontra⟩
    · cases he
    split at hcontra
    · cases hcontra
    · rename_i current hcurrent
      split at hcontra
      · rcases ensure_bind_error hcontra with ⟨-, he⟩ | ⟨-, hcontra⟩
        · cases he
        · cases hcontra
      · rename_i hopen
        exact replaceMarker_room h hstate hcurrent hopen hcontra

end Reserved

/-! ## The theorem -/

section Theorem

variable (codec : Codec) (layout : Layout) (config : JournalConfig)

/-- What crashes can and cannot do to a journal. -/
structure CrashSafe (journal : Journal) : Prop where
  /-- Records within the reader's nesting are recovered. -/
  opens : ∀ disk, disk = journal.visible ∨ disk = journal.durable →
    (∀ file ∈ disk.entries, layout.depth (.record file.2) ≤ 32) → ∃ store, disk.recover codec layout config = .ok store
  /-- Recovery gives the store back, its generations, sequences and bytes included. -/
  exact : ∀ store, journal.visible.recover codec layout config = .ok store → store = journal.store.settled
  /-- A crash inside a call leaves the store before it, after it, or just bound by a first dispatch. -/
  atomic : journal.store.syncPending = false → ∀ request syncs io disk store,
    (disk = (journal.call codec layout config request syncs io).1.visible ∨
      disk = (journal.call codec layout config request syncs io).1.durable) →
    disk.recover codec layout config = .ok store →
    store = journal.store ∨ store = (journal.call codec layout config request true []).1.store ∨
      ∃ binding dispatch, request = .begin binding dispatch ∧ journal.store.state = none ∧
        store = Store.boundTo layout binding
  /-- What the store holds when a call returns success is held ever after. -/
  kept : ∀ request syncs io later, (journal.call codec layout config request syncs io).2 = .ok () →
    Relation.ReflTransGen (Journal.Step codec layout config)
      (journal.call codec layout config request syncs io).1 later →
    (journal.call codec layout config request syncs io).1.store.Extends later.store
  /-- A bound journal has room to be revoked. -/
  revokes : journal.store.state.isSome → ∀ binding syncs io,
    (journal.call codec layout config (.revoke binding) syncs io).2 ≠ .error .capacity
  /-- The open dispatch has room for its completion. -/
  completes : ∀ binding entry syncs io,
    (journal.call codec layout config (.complete binding entry) syncs io).2 = .error .capacity →
    maximumEntryBytes < layout.length (.record ⟨2, entry.dispatch.sequence, entry⟩) ∨
      validateCompletedUsage config.policy binding journal.store.entries entry = .error .capacity

variable {codec layout config}

theorem journal_crash_safe {journal : Journal} (h : Journal.Reachable codec layout config journal) :
    CrashSafe codec layout config journal := by
  have hok := reachable_ok h
  constructor
  · intro disk hdisk hreadable
    obtain ⟨store, hsound, rfl⟩ := hok.crashed hdisk
    refine ⟨_, recover_image hsound fun record hmem => ?_⟩
    exact hreadable (record.sequence, record) (List.mem_map_of_mem hmem)
  · intro store hrecover
    rw [hok.visible] at hrecover
    exact (eq_of_recover_image hok.sound hrecover).2
  · exact fun hclean request syncs io disk store hdisk hrecover =>
      recover_call hok hclean request syncs io hdisk hrecover
  · exact fun request syncs io later hreturned hlater => held_after_ok hok hreturned hlater
  · intro hbound binding syncs io hcontra
    obtain ⟨opened, hopen, hplan⟩ := plan_of_capacity hcontra
    obtain ⟨hopened, hstore⟩ := checkOpen_ok hok hopen
    refine revoke_room hopened.sound ?_ binding hplan
    rw [hstore]
    exact hbound
  · intro binding entry syncs io hcontra
    obtain ⟨opened, hopen, hplan⟩ := plan_of_capacity hcontra
    obtain ⟨hopened, hstore⟩ := checkOpen_ok hok hopen
    have hroom := complete_room hopened.sound hplan
    rw [hstore] at hroom
    exact hroom

end Theorem

/-! ## A first dispatch that is cut -/

def sampleBinding : Binding where
  attemptID := "attempt-1"
  agentArtifactSHA256 := "87d95ec8649fb11e19b1888598f0ea0477d41af71945acccd4ab5e1302a1185a"
  harnessInstanceID := "harness-1"
  ticketID := "11111111-1111-4111-8111-111111111111"
  caseID := "case-1"
  profileCapabilityID := "profile-1"
  grantID := "22222222-2222-4222-8222-222222222222"
  generation := 1
  inferenceGrantSHA256 := "494e26c884cf57f30e0e65987d48c1d09cbb9e5975bab9a60f9b4ce9e100c0c1"
  issuedAt := 63902995200000000000
  deadline := 63902998800000000000
  requestBudget := 4
  promptTokenBudget := 1000
  completionTokenBudget := 500
  costBudgetUSDMicros := 1000000

def sampleDispatch : DispatchRecord where
  sequence := 1
  requestSequence := 1
  attempt := 1
  requestID := "33333333-3333-4333-8333-333333333333"
  minerRequestSHA256 := "52d2140a62832fff8b216b3caf57a8deb5ff351a4f873e9fa8d8eaa69d7c619b"
  minerRequest := sampleMinerRequest
  lockedRequestSHA256 := "fc6fe555257e42bd33ae945ad1528408413ecbff61c21253f0e26eecdff783cd"
  lockedRequest := lockedOf samplePolicy sampleMinerRequest

/-- The JSON lengths of the sample records, by their kind. -/
def sampleLength : JournalDocument → Nat
  | .binding _ => 571
  | .dispatch _ => 1246
  | .entry entry => if entry.completed then 4300 else 2710
  | .state _ => 752
  | .record record => if record.entry.completed then 4476 else 2886

theorem sampleLength_pos (document : JournalDocument) : 0 < sampleLength document := by
  cases document <;> simp only [sampleLength] <;> first | omega | (split <;> omega)

theorem sampleLength_dispatch (entry : JournalEntry) :
    sampleLength (.dispatch entry.dispatch) ≤ sampleLength (.entry entry) := by
  simp only [sampleLength]
  split <;> omega

def sampleLayout : Layout where
  length := sampleLength
  depth
    | .binding _ => 1
    | .dispatch _ => 6
    | .entry _ => 7
    | .state _ => 2
    | .record _ => 8
  length_pos := sampleLength_pos
  dispatch_length := sampleLength_dispatch
  dispatch_depth _ := Nat.le_refl _
  record_depth _ := rfl
  binding_length _ := by show 571 ≤ 752; omega
  binding_depth _ := rfl
  state_depth _ := rfl

def sampleConfig : JournalConfig := ⟨samplePolicy, 2 ^ 30, 256⟩

theorem sampleBinding_valid : validateBinding sampleCodec sampleConfig.policy sampleBinding := by
  decide +kernel

theorem sampleDispatch_valid : validateDispatch sampleCodec sampleConfig.policy sampleDispatch := by
  decide +kernel

theorem sampleDispatch_locked : LockInferenceRequest sampleCodec sampleConfig.policy sampleMinerRequest =
    some sampleDispatch.lockedRequest := by
  decide +kernel

theorem sampleDispatch_authority :
    validateDispatchAuthority sampleCodec sampleConfig.policy sampleBinding [] sampleDispatch = .ok () := by
  refine validateDispatchAuthority_ok.mpr ⟨⟨sampleBinding_valid, sampleDispatch_valid, by decide⟩, ?_, ?_⟩
  · exact ⟨by decide, by decide, by decide⟩
  · exact sampleDispatch_locked

theorem sample_admissible {request : Call} (hcompletes : request.completes = true)
    (hbinding : request.binding = sampleBinding) : request.admissible sampleCodec sampleConfig := by
  refine ⟨hcompletes, ?_⟩
  rw [hbinding]
  exact sampleBinding_valid

/-- The dispatch binds the journal, then leaves its marker. -/
def sampleDispatchPlan : List Install :=
  [.state ⟨1, sampleBinding, false⟩ 752 false, .entry ⟨1, 1, ⟨sampleDispatch, none⟩⟩ 2886 false]

theorem sampleDispatch_plan :
    Journal.fresh.store.plan sampleCodec sampleLayout sampleConfig (.begin sampleBinding sampleDispatch) =
      .ok sampleDispatchPlan := by
  have hauthority : validateDispatchAuthority sampleCodec sampleConfig.policy sampleBinding
      Journal.fresh.store.entries sampleDispatch = .ok () := sampleDispatch_authority
  show Journal.fresh.store.Begin sampleCodec sampleLayout sampleConfig sampleBinding sampleDispatch = _
  unfold Store.Begin
  rw [ensure_bind_pos (by decide), hauthority]
  rfl

theorem sampleDispatch_call (io : List Io) :
    Journal.fresh.call sampleCodec sampleLayout sampleConfig (.begin sampleBinding sampleDispatch) true io =
      Journal.fresh.perform sampleDispatchPlan io := by
  rw [call_clean rfl (sample_admissible rfl rfl), sampleDispatch_plan]

/-- The journal after a sample call. -/
def sampleCall (journal : Journal) (request : Call) (io : List Io) : Journal :=
  (journal.call sampleCodec sampleLayout sampleConfig request true io).1

theorem sampleCall_reachable {journal : Journal} (h : Journal.Reachable sampleCodec sampleLayout sampleConfig journal)
    (request : Call) (io : List Io) :
    Journal.Reachable sampleCodec sampleLayout sampleConfig (sampleCall journal request io) :=
  Relation.ReflTransGen.tail h (Journal.Step.called journal request true io)

theorem sampleCall_dispatched (io : List Io) :
    sampleCall Journal.fresh (.begin sampleBinding sampleDispatch) io =
      (Journal.fresh.perform sampleDispatchPlan io).1 := by
  rw [sampleCall, sampleDispatch_call]

/-- A first dispatch whose second install fails before its rename. -/
def cutDispatch : Journal := sampleCall Journal.fresh (.begin sampleBinding sampleDispatch) [.done, .failed]

theorem cutDispatch_reachable : Journal.Reachable sampleCodec sampleLayout sampleConfig cutDispatch :=
  sampleCall_reachable Relation.ReflTransGen.refl _ _

theorem cutDispatch_boundTo :
    cutDispatch = ⟨⟨some ⟨1, sampleBinding, false⟩, []⟩, ⟨some ⟨1, sampleBinding, false⟩, []⟩,
      Store.boundTo sampleLayout sampleBinding⟩ := by
  unfold cutDispatch
  rw [sampleCall_dispatched]
  rfl

/-- A crash between the two installs of a first dispatch leaves a journal that is neither unbound nor has the
dispatch. -/
theorem first_dispatch_leaves_binding :
    sampleConfig.Valid ∧
    cutDispatch.durable.recover sampleCodec sampleLayout sampleConfig =
      .ok (Store.boundTo sampleLayout sampleBinding) ∧
    Store.boundTo sampleLayout sampleBinding ≠ Journal.fresh.store ∧
    Store.boundTo sampleLayout sampleBinding ≠
      (Journal.fresh.call sampleCodec sampleLayout sampleConfig (.begin sampleBinding sampleDispatch) true
        []).1.store := by
  have hsound : (Store.boundTo sampleLayout sampleBinding).Sound sampleCodec sampleLayout sampleConfig := by
    have hok := (reachable_ok cutDispatch_reachable).sound
    rwa [cutDispatch_boundTo] at hok
  refine ⟨⟨by decide, by decide, by decide, by decide, samplePolicy_validate, by decide⟩, ?_, ?_, ?_⟩
  · have himage : cutDispatch.durable = (Store.boundTo sampleLayout sampleBinding).image := by
      rw [cutDispatch_boundTo]
      rfl
    rw [himage, recover_image hsound fun _ hmem => nomatch hmem]
    rfl
  · exact fun h => nomatch congrArg Store.state h
  · rw [sampleDispatch_call]
    exact fun h => nomatch congrArg Store.entries h

theorem cut_dispatch_crash_safe : CrashSafe sampleCodec sampleLayout sampleConfig cutDispatch :=
  journal_crash_safe cutDispatch_reachable

end DittoSubnet.Coding

import DittoSubnet.CodingOutbox.Runs

/-!
# What an answered call has written

A call that is answered without an error has renamed and synced the record that it changed (`call_settles`). A sealed
record is never deleted before it is released, and later versions of it only add to it: so its evidence is in whatever
is left after any later run (`answered_evidence_kept`).

This is said of the call that changes the record. A call that finds it as it wants it writes nothing, also when an
earlier call renamed it without a sync.
-/

namespace DittoSubnet.CodingOutbox

open Kit

section Durable

variable {codec : Codec} {config : Config} {horizon : Int}

/-! ## One call -/

/-- Of a record that the second store has and the first had not, a crash leaves nothing else. -/
def Store.Settles (store store' : Store) : Prop :=
  ∀ id record, Dict.get? store'.records id = some record → Dict.get? store.records id ≠ some record →
    store'.files.Settled id (· = record)

theorem Store.Settles.same {store store' : Store} (h : store'.records = store.records) : store.Settles store' := by
  intro id record hrecord hnew
  rw [h] at hrecord
  exact absurd hrecord hnew

/-- What is done to the files before. -/
theorem Store.Settles.after {store next last : Store} (h : next.Settles last)
    (hrecords : next.records = store.records) : store.Settles last := by
  intro id record hrecord hnew
  rw [← hrecords] at hnew
  exact h id record hrecord hnew

/-- What is done to the other files afterwards. -/
theorem Store.Settles.frame {store next last : Store} (h : store.Settles next) (hrecords : last.records = next.records)
    (hfiles : last.files.records = next.files.records) : store.Settles last := by
  intro id record hrecord hnew version hv
  rw [hrecords] at hrecord
  rw [hfiles] at hv
  exact h id record hrecord hnew version hv

/-- A record that is renamed and synced has no older versions. -/
theorem version_putRecord_synced {files : Files} {id id' : String} {record : Record} {version : Option Record}
    (h : (files.putRecord id record true).records.Version id' version) :
    version = if id = id' then some record else files.records.get? id' := by
  rcases (Directory.version_sync (d := files.records.put id record) (p := fun _ => true)).1 h with h | ⟨h, -⟩
  · rw [h, Directory.get?_put]
  · cases h

/-- What is done at the end of a call. -/
theorem Store.Settles.of_eq {α : Type} {store next last : Store} {result result' : Except OutboxError α}
    (h : (next, result) = (last, result')) (hsettles : store.Settles next) : store.Settles last := by
  obtain ⟨rfl, -⟩ := Prod.ext_iff.1 h
  exact hsettles

theorem persistRecord_settles {store next : Store} {record : Record} {io : Io}
    (h : store.persistRecord codec record io = (next, .ok ())) : store.Settles next := by
  rw [persistRecord_eq] at h
  split at h
  · cases h
  · split at h
    · obtain ⟨rfl, hresult⟩ := Prod.ext_iff.1 h
      obtain rfl := Io.result_eq_ok hresult
      intro id r hr hnew version hv
      rw [Dict.get?_set] at hr
      have hversion := version_putRecord_synced hv
      split at hr
      · rename_i hid
        exact ⟨_, hversion.trans (if_pos hid), Option.some.inj hr⟩
      · exact absurd hr hnew
    · exact .of_eq h (.same rfl)

theorem persistPlanned_settles {store next : Store} {plan : Plan} {io : Io} {answer : Answer}
    (h : store.persistPlanned codec plan io = (next, .ok answer)) : store.Settles next := by
  unfold Store.persistPlanned at h
  split at h
  · exact .of_eq h (.same rfl)
  · split at h
    · cases h
    · rename_i persisted heq
      exact .of_eq h ((persistRecord_settles heq).frame rfl rfl)

theorem installPlanned_records {store next : Store} {object : Option (String × Object)} {install : Install}
    {result : Except OutboxError Unit} (h : store.installPlanned codec object install = (next, result)) :
    next.records = store.records := by
  cases object with
  | none =>
    obtain ⟨rfl, -⟩ := Prod.ext_iff.1 h
    rfl
  | some object =>
    obtain ⟨files, heq, -, -⟩ := installObject_frame codec store none object.2 object.1 install
    have hnext : next = { store with files := files } := (Prod.ext_iff.1 h).1.symm.trans heq
    rw [hnext]

theorem planned_settles {store next : Store} {request : Request} {now : Int} {faults : Faults} {answer : Answer}
    (h : store.planned codec config request now faults = (next, .ok answer)) : store.Settles next := by
  unfold Store.planned at h
  split at h
  · cases h
  · split at h
    · cases h
    · rename_i ticked hticked
      obtain rfl := checkOpenAndClock_ok hticked
      split at h
      · cases h
      · unfold Store.perform at h
        split at h
        · cases h
        · rename_i installed hinstalled
          have hrecords := installPlanned_records hinstalled
          exact (persistPlanned_settles h).after hrecords

theorem BeginTranscriptChecked_settles {store next : Store} {id : String} {now : Int} {faults : Faults}
    {answer : Answer} (h : store.BeginTranscriptChecked codec config id now faults = (next, .ok answer)) :
    store.Settles next := by
  unfold Store.BeginTranscriptChecked at h
  split at h
  · cases h
  · rename_i ticked hticked
    obtain rfl := checkOpenAndClock_ok hticked
    unfold Store.BeginTranscript at h
    simp only at h
    split at h
    · cases h
    · split at h
      · cases h
      · split at h
        · cases h
        · rename_i persisted heq
          obtain ⟨rfl, -⟩ := Prod.ext_iff.1 h
          exact ((persistRecord_settles heq).frame rfl rfl).after rfl

theorem placeTranscript_records {store next : Store} {index : Nat} {writer : Writer} {digest : String}
    {faults : Faults} (h : store.placeTranscript codec index writer digest faults = (next, .ok ())) :
    next.records = store.records := by
  unfold Store.placeTranscript at h
  split at h
  · split at h
    · cases h
    · obtain ⟨rfl, -⟩ := Prod.ext_iff.1 h
      rfl
  · split at h
    · cases h
    · simp only at h
      split at h
      · cases h
      · rename_i staged hstaged
        obtain ⟨files, heq, -, -⟩ := installObject_frame codec
          (store.setWriter index { writer with sealed := true, closed := true }) (some writer.name)
          ⟨writer.body, staged.modified⟩ digest faults.install
        split at h
        · cases h
        · rename_i installed hinstalled
          rw [hinstalled] at heq
          obtain ⟨rfl, -⟩ := Prod.ext_iff.1 h
          show installed.records = store.records
          rw [show installed = _ from heq]
          rfl

theorem Commit_settles {store next : Store} {index : Nat} {identity : TranscriptIdentity} {now : Int}
    {faults : Faults} {answer : Answer}
    (h : store.Commit codec config index identity now faults = (next, .ok answer)) : store.Settles next := by
  unfold Store.Commit at h
  split at h
  · cases h
  · split at h
    · exact .of_eq h (.same rfl)
    · split at h
      · split at h
        · cases h
        · rename_i ticked hticked
          obtain rfl := checkOpenAndClock_ok hticked
          unfold Store.commitOpen at h
          split at h
          · cases h
          · split at h
            · cases h
            · rename_i placed hplaced
              split at h
              · cases h
              · rename_i persisted heq
                obtain ⟨rfl, -⟩ := Prod.ext_iff.1 h
                have hrecords := placeTranscript_records hplaced
                exact ((persistRecord_settles heq).frame rfl rfl).after hrecords
      · cases h

theorem abandon_settles {store next : Store} {index : Nat} {writer : Writer} {faults : Faults} {answer : Answer}
    (h : store.abandon codec index writer faults = (next, .ok answer)) : store.Settles next := by
  unfold Store.abandon at h
  simp only at h
  split at h
  · exact .of_eq h (.same rfl)
  · split at h
    · exact .of_eq h (.same rfl)
    · split at h
      · cases h
      · rename_i persisted heq
        exact .of_eq h ((persistRecord_settles heq).frame rfl rfl)

theorem Abort_settles {store next : Store} {index : Nat} {faults : Faults} {answer : Answer}
    (h : store.Abort codec index faults = (next, .ok answer)) : store.Settles next := by
  unfold Store.Abort at h
  split at h
  · cases h
  · split at h
    · exact .of_eq h (.same rfl)
    · split at h
      · exact .of_eq h (.same rfl)
      · simp only at h
        split at h
        · cases h
        · exact (abandon_settles h).after rfl

theorem Write_settles {store next : Store} {index : Nat} {body : Bytes} {now : Int} {faults : Faults}
    {answer : Answer} (h : store.Write index body now faults = (next, .ok answer)) : store.Settles next := by
  unfold Store.Write at h
  split at h
  · cases h
  · split at h
    · cases h
    · split at h
      · cases h
      · split at h
        · cases h
        · split at h
          · cases h
          · exact .of_eq h (.same rfl)

/-- A call that is answered has written the record that it changed for good. -/
theorem call_settles {store : Store} {request : Request} {now : Int} {faults : Faults} {answer : Answer}
    (h : (store.call codec config request now faults).2 = .ok answer) :
    store.Settles (store.call codec config request now faults).1 := by
  have hanswer : store.answer codec config request now faults =
      ((store.answer codec config request now faults).1, .ok answer) := Prod.ext rfl h
  have hplanned : store.planned codec config request now faults =
      ((store.answer codec config request now faults).1, .ok answer) →
      store.Settles (store.answer codec config request now faults).1 := planned_settles
  have hsettles : store.Settles (store.answer codec config request now faults).1 := by
    cases request with
    | beginTranscript id => exact BeginTranscriptChecked_settles hanswer
    | write writer body => exact Write_settles hanswer
    | commit writer identity => exact Commit_settles hanswer
    | abort writer => exact Abort_settles hanswer
    | _ => exact hplanned hanswer
  exact hsettles.frame rfl rfl

/-! ## Runs -/

/-- A later version of a sealed record, not released yet. -/
structure Record.Held (record later : Record) : Prop where
  grows : record.Grows later
  isSealed : later.Sealed
  unreleased : later.state ≠ .released

theorem Record.Held.grow {record old new : Record} {frees : Prop} (h : record.Held old) (hgrows : old.Grows new)
    (hfrees : new.state = .released → old.state = .released ∨ frees) (hkept : ¬ frees) : record.Held new where
  grows := h.grows.trans hgrows
  isSealed := (hgrows.outcome h.isSealed).1
  unreleased hstate := (hfrees hstate).elim h.unreleased hkept

/-- A sweep deletes what is released or expired only. -/
theorem Record.Held.not_retired {record later : Record} (h : record.Held later) (now : Int) :
    ¬ later.retired config now := by
  rintro (⟨hstate, -⟩ | ⟨hstate, -⟩)
  · exact h.unreleased hstate
  · have hsealed := h.isSealed
    unfold Record.Sealed at hsealed
    rw [hstate] at hsealed
    simp at hsealed

theorem Files.Settled.moves {scope : Scope} {files files' : Files} {id : String} {q : Record → Prop}
    (h : files.Settled id q) (hmoves : Files.Moves codec config horizon scope files files')
    (hgrow : ∀ old new, q old → old.Grows new → (new.state = .released → old.state = .released ∨ scope.frees id) →
      q new) (hdrop : ∀ record, q record → ¬ scope.drops record) : files'.Settled id q := by
  induction hmoves with
  | refl => exact h
  | tail _ hmove ih => exact ih.move hmove hgrow hdrop

/-- An event keeps a sealed record unless it releases it. -/
theorem step_held {system : System} (h : system.Inv codec config horizon) {id : String} {record : Record}
    (hheld : system.files.Settled id record.Held) {event : Event} (hpossible : event.possible system)
    (hclean : event.Clean codec horizon system) (hkept : ¬ (event.scope config).frees id) :
    (system.step codec config event).files.Settled id record.Held := by
  cases event with
  | crash files =>
    have hcrashed := hheld.crashed hpossible
    cases system <;> exact hcrashed
  | _ =>
    refine hheld.moves (step_spec h hclean (by simp)).1 (fun old new hold hgrows hfrees => ?_) ?_
    · exact hold.grow hgrows hfrees hkept
    · rintro later hlater ⟨now, faults, -, hretired⟩
      exact hlater.not_retired now hretired

/-- Once a call that sealed a record, or added a publication to a sealed one, is answered, the record and its objects
are in whatever is left later, with what was added since, until it is released. -/
theorem answered_evidence_kept {events later : List Event} {store : Store} {request : Request} {now : Int}
    {faults : Faults} {answer : Answer} {id : String} {record : Record} {files : Files}
    (hrun : (System.down .empty).Runs codec config (Event.Clean codec horizon)
      (events ++ .call request now faults :: later))
    (hup : (System.down .empty).after codec config events = .up store)
    (hanswer : (store.call codec config request now faults).2 = .ok answer)
    (hrecord : Dict.get? (store.call codec config request now faults).1.records id = some record)
    (hnew : Dict.get? store.records id ≠ some record) (hsealed : record.Sealed) (hstate : record.state ≠ .released)
    (hkept : ∀ event ∈ later, ¬ (event.scope config).frees id)
    (hleaves : ((System.down .empty).after codec config (events ++ .call request now faults :: later)).Leaves files) :
    ∃ kept, files.records.get? id = some kept ∧ record.Held kept ∧ files.Supports codec kept := by
  obtain ⟨hevents, hcall⟩ := System.Runs_append _ hrun
  have hinv := Runs_inv hevents
  rw [hup] at hinv hcall
  obtain ⟨hpossible, hclean, hlater⟩ := hcall
  have hinv' := step_inv hinv hpossible hclean
  have hheld : (store.call codec config request now faults).1.files.Settled id record.Held := by
    intro version hv
    obtain ⟨r, hr, rfl⟩ := call_settles hanswer id record hrecord hnew version hv
    exact ⟨r, hr, .refl r, hsealed, hstate⟩
  have hafter : (System.down .empty).after codec config (events ++ .call request now faults :: later) =
      (System.up (store.call codec config request now faults).1).after codec config later := by
    rw [System.after_append, hup]
    rfl
  obtain ⟨hlast, hsettled⟩ := System.Runs.keeps
    (I := fun system => system.Inv codec config horizon ∧ system.files.Settled id record.Held)
    (fun system event h hpossible hp =>
      ⟨step_inv h.1 hpossible hp.1, step_held h.1 h.2 hpossible hp.1 hp.2⟩) ⟨hinv', hheld⟩ (hlater.and hkept)
  rw [hafter] at hleaves
  have hsound := Leaves_sound hlast hleaves
  have hkeeps : files.Settled id record.Held := by
    rcases hleaves with rfl | hcrash
    · exact hsettled
    · exact hsettled.crashed hcrash
  obtain ⟨kept, hget, hq⟩ := hkeeps.get?
  exact ⟨kept, hget, hq, (hsound.get? hget).supported⟩

/-! ## A sealed attempt -/

def sampleFailure : FreezeFailure where
  kind := "repair_failure"
  code := "synthetic_failure"
  baseTreeSHA256 := "1111111111111111111111111111111111111111111111111111111111111111"
  visibleBundleSHA256 := "2222222222222222222222222222222222222222222222222222222222222222"
  finalTreeSHA256 := "3333333333333333333333333333333333333333333333333333333333333333"
  changedPathRoot := "4444444444444444444444444444444444444444444444444444444444444444"
  authoringEventRoot := "5555555555555555555555555555555555555555555555555555555555555555"
  authoringTranscriptSHA256 := sampleTranscript.sha256
  authoringTranscriptBytes := 3
  protectedPathsIntact := true

def sampleSeal : Request := .seal sampleRecord.id (.failure sampleFailure)

def sealedRecord : Record :=
  (transcribedRecord.fail sampleCodec sampleFailure sampleNow).stampedAt sampleCodec sampleNow

/-- What a crash leaves after the first attempt of the sample run is sealed. -/
def sealedFiles : Files :=
  { sampleFiles with records := ⟨[(sealedRecord.id, sealedRecord), (laterRecord.id, laterRecord)], []⟩ }

theorem sealedStore_files :
    (sampleStore.call sampleCodec sampleConfig sampleSeal sampleNow sampleFaults).1.files = sealedFiles := by
  decide +kernel

theorem sealedEvents_runs : (System.down .empty).Runs sampleCodec sampleConfig (Event.Clean sampleCodec sampleNow)
    (sampleEvents ++ [.call sampleSeal sampleNow sampleFaults, .crash sealedFiles]) := by
  refine System.Runs.append (sampleEvents_runs.mono fun _ _ h => h.1) ?_
  rw [after_sampleEvents]
  refine ⟨trivial, ⟨le_rfl, fun _ _ => ⟨by decide, trivial⟩⟩, ?_, trivial, trivial⟩
  show (sampleStore.call sampleCodec sampleConfig sampleSeal sampleNow sampleFaults).1.files.Crashed sealedFiles
  rw [sealedStore_files]
  exact Files.Housed.crashed ⟨sampleFiles_housed.shard, rfl⟩ ⟨rfl, by decide, fun id => .inl rfl⟩
    ⟨rfl, by decide, fun shard => .inl rfl⟩ ⟨rfl, by decide, fun digest => .inl rfl⟩

/-- The sealed record and its transcript are there after the crash. -/
theorem answered_evidence_kept_sample :
    ∃ kept, sealedFiles.records.get? sampleRecord.id = some kept ∧ sealedRecord.Held kept ∧
      sealedFiles.Supports sampleCodec kept := by
  have hanswer : (sampleStore.call sampleCodec sampleConfig sampleSeal sampleNow sampleFaults).2 =
      .ok (.record sampleRecord.id) := by decide +kernel
  refine answered_evidence_kept sealedEvents_runs after_sampleEvents hanswer (by decide +kernel)
    (by decide +kernel) (by decide) (by decide) ?_ (.inl ?_)
  · rintro event hevent ⟨evidence, now, faults, rfl⟩
    simp at hevent
  · rw [System.after_append, after_sampleEvents]
    rfl

end Durable

end DittoSubnet.CodingOutbox

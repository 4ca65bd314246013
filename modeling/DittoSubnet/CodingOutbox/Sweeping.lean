import DittoSubnet.CodingOutbox.Calls

/-!
# Sweeps as moves

A sweep expires and deletes records by moves, and the files it then deletes are none that a record refers to
(`Sweep_moves`).
-/

namespace DittoSubnet.CodingOutbox

open Kit

/-- What a sweep may do. -/
def sweepScope (config : Config) (now : Int) : Scope where
  frees _ := False
  drops record := record.retired config now
  reserves := False
  counts := True

section Sweeping

variable {codec : Codec} {config : Config} {horizon : Int} {now : Int}

/-! ## Records -/

theorem expireOverdue_moves {store : Store} (h : store.Inv codec config horizon) (hnow : store.lastNow = now)
    (id : String) (io : Io) :
    Store.Moves codec config horizon (sweepScope config now) store (store.expireOverdue codec config id now io).1 := by
  unfold Store.expireOverdue
  split
  · exact .refl
  · rename_i record hrecord
    split
    · rename_i hoverdue
      have hstate : record.state = .reserved ∨ record.state = .collecting := hoverdue.imp And.left And.left
      subst hnow
      exact expire_moves _ h hrecord hstate io
    · exact .refl

theorem expireOverdue_lastNow (codec : Codec) (config : Config) (now : Int) (store : Store) (id : String) (io : Io) :
    (store.expireOverdue codec config id now io).1.lastNow = store.lastNow := by
  unfold Store.expireOverdue
  split
  · rfl
  · rename_i record _
    split
    · exact (persistRecord_frame codec store (record.expire now) io).2.1
    · rfl

theorem deleteRetired_moves {store : Store} (id : String) {unlink : Unlink} (hunlink : unlink ≠ .unsynced) :
    Store.Moves codec config horizon (sweepScope config now) store (store.deleteRetired config id now unlink).1 := by
  unfold Store.deleteRetired
  split
  · exact .refl
  · rename_i record hrecord
    split
    · rename_i hretired
      unfold Store.removeRecordFile
      cases hget : store.files.records.get? id with
      | none => exact .refl
      | some present =>
        cases unlink with
        | done => exact .single (.drop hrecord hretired)
        | failed => exact .refl
        | unsynced => exact absurd rfl hunlink
    · exact .refl

theorem deleteRetired_lastNow (config : Config) (now : Int) (store : Store) (id : String) (unlink : Unlink) :
    (store.deleteRetired config id now unlink).1.lastNow = store.lastNow := by
  unfold Store.deleteRetired
  split
  · rfl
  · split
    · unfold Store.removeRecordFile
      cases store.files.records.get? id with
      | none => rfl
      | some present => cases unlink <;> rfl
    · rfl

theorem sweepRecords_moves {faults : SweepFaults} (hunlink : ∀ id, faults.unlink id ≠ .unsynced) (ids : List String) :
    ∀ {store : Store}, store.Inv codec config horizon → store.lastNow = now →
      Store.Moves codec config horizon (sweepScope config now) store
        (Store.sweepRecords codec config now faults ids store).1 := by
  induction ids with
  | nil => exact fun _ _ => .refl
  | cons id ids ih =>
    intro store h hnow
    rw [Store.sweepRecords]
    split
    · exact .refl
    · have hexpire := expireOverdue_moves h hnow id (faults.persist id)
      have hexpire' := expireOverdue_lastNow codec config now store id
        (faults.persist id)
      split
      · rename_i next e heq
        rw [heq] at hexpire
        exact hexpire
      · rename_i next heq
        rw [heq] at hexpire hexpire'
        have hinv := Store.Moves.inv h hexpire
        have hdelete : Store.Moves codec config horizon (sweepScope config now) next
            (next.deleteRetired config id now (faults.unlink id)).1 := deleteRetired_moves id (hunlink id)
        have hdelete' := deleteRetired_lastNow config now next id (faults.unlink id)
        split
        · rename_i last e heq'
          rw [heq'] at hdelete
          exact hexpire.trans hdelete
        · rename_i last heq'
          rw [heq'] at hdelete hdelete'
          have hlast : last.lastNow = now := hdelete'.trans (hexpire'.trans hnow)
          exact (hexpire.trans hdelete).trans (ih (Store.Moves.inv hinv hdelete) hlast)

/-! ## Files -/

/-- A store that has lost at most objects that are not listed. -/
def Store.Collected (references : List String) (store store' : Store) : Prop :=
  ∃ files, store' = { store with files := files } ∧ files.records = store.files.records ∧
    (∀ digest ∈ references, store.files.Keeps files digest) ∧ (store.files.Housed → files.Housed)

theorem Store.Collected.refl (references : List String) (store : Store) : store.Collected references store :=
  ⟨store.files, rfl, rfl, fun _ _ _ hv => hv, id⟩

theorem Store.Collected.trans {references : List String} {a b c : Store} (h : a.Collected references b)
    (h' : b.Collected references c) : a.Collected references c := by
  obtain ⟨files, rfl, hrecords, hkeeps, hhoused⟩ := h
  obtain ⟨files', rfl, hrecords', hkeeps', hhoused'⟩ := h'
  exact ⟨files', rfl, hrecords'.trans hrecords, fun digest hd version hv =>
    hkeeps digest hd version (hkeeps' digest hd version hv), fun h => hhoused' (hhoused h)⟩

theorem mem_references {store : Store} {id : String} {record : Record} (h : Dict.get? store.records id = some record)
    {digest : String} (hd : digest ∈ record.references) : digest ∈ store.references :=
  List.mem_flatMap.2 ⟨(id, record), Dict.mem_of_get? h, hd⟩

/-- What is collected is nothing that a record refers to. -/
theorem Store.Collected.moves {scope : Scope} {store store' : Store} (h : store.Inv codec config horizon)
    (hcollected : store.Collected store.references store') :
    Store.Moves codec config horizon scope store store' := by
  obtain ⟨files, rfl, hrecords, hkeeps, hhoused⟩ := hcollected
  exact .single (.aside rfl rfl hrecords (fun id record hr digest hd => hkeeps digest (mem_references hr hd)) hhoused
    le_rfl h.clock.2 (fun h => h) h.writers)

theorem sweepShard_collected {references : List String} {faults : SweepFaults} (files : List (String × Object)) :
    ∀ (seen : Nat) (deleted : Bool) (store : Store),
      store.Collected references (store.sweepShard config references now faults seen deleted files).2.2.1 := by
  induction files with
  | nil => exact fun _ _ store => .refl references store
  | cons file files ih =>
    intro seen deleted store
    obtain ⟨digest, object⟩ := file
    rw [Store.sweepShard]
    split
    · exact .refl references store
    · split
      · exact .refl references store
      · split
        · exact ih (seen + 1) deleted store
        · rename_i hkept
          split
          · exact .refl references store
          · have hdrop : store.Collected references
                { store with files := { store.files with objects := store.files.objects.drop digest } } := by
              refine ⟨_, rfl, rfl, fun other hother version hv => ?_, fun h => ⟨fun other present hpresent => ?_, ?_⟩⟩
              · rcases Directory.version_drop.1 hv with ⟨rfl, -⟩ | hv
                · exact absurd (.inl hother) hkept
                · exact hv
              · rw [Directory.get?_drop] at hpresent
                split at hpresent
                · cases hpresent
                · exact h.shard other present hpresent
              · exact h.synced
            exact hdrop.trans (ih (seen + 1) true _)

theorem syncShard_collected (references : List String) (store : Store) (shard : List Char) :
    store.Collected references (store.syncShard shard) :=
  ⟨_, rfl, rfl, fun _ _ _ hv => Directory.Version.of_sync (d := store.files.objects)
    (p := fun digest => shardOf digest == shard) hv, fun h => ⟨h.shard, h.synced⟩⟩

theorem sweepShards_collected {references : List String} {faults : SweepFaults} (shards : List (List Char)) :
    ∀ (seen : Nat) (store : Store),
      store.Collected references (store.sweepShards config references now faults seen shards).1 := by
  induction shards with
  | nil => exact fun _ store => .refl references store
  | cons shard shards ih =>
    intro seen store
    rw [Store.sweepShards]
    have hshard : store.Collected references
        (store.sweepShard config references now faults seen false (store.files.shard shard)).2.2.1 :=
      sweepShard_collected (store.files.shard shard) seen false store
    split
    · rename_i heq
      rw [heq] at hshard
      exact hshard
    · rename_i heq
      rw [heq] at hshard
      exact hshard.trans (ih _ _)
    · rename_i heq
      rw [heq] at hshard
      split
      · exact (hshard.trans (syncShard_collected references _ shard)).trans (ih _ _)
      · exact hshard

theorem boundedPhysicalSum_nonneg {maximum current : Int} (hmax : 0 ≤ maximum) (hcurrent : 0 ≤ current) (size : Nat) :
    0 ≤ boundedPhysicalSum maximum current size := by
  unfold boundedPhysicalSum
  split <;> omega

theorem foldl_boundedPhysicalSum_nonneg {maximum : Int} (hmax : 0 ≤ maximum) (sizes : List Nat) :
    ∀ {current : Int}, 0 ≤ current → 0 ≤ sizes.foldl (boundedPhysicalSum maximum) current := by
  induction sizes with
  | nil => exact fun h => h
  | cons size sizes ih => exact fun h => ih (boundedPhysicalSum_nonneg hmax h size)

theorem reconcilePhysical_moves (scope : Scope) {store : Store} (h : store.Inv codec config horizon)
    (hmax : 0 ≤ config.maxTotalBytes) (scan : Bool) :
    Store.Moves codec config horizon scope store (store.reconcilePhysical config scan).1 := by
  unfold Store.reconcilePhysical
  split
  · exact .refl
  · split
    · exact .refl
    · exact h.aside rfl rfl rfl rfl rfl rfl (fun _ => foldl_boundedPhysicalSum_nonneg hmax _ le_rfl) h.writers

theorem sweepFiles_moves {scope : Scope} {store : Store} (h : store.Inv codec config horizon)
    (hmax : 0 ≤ config.maxTotalBytes) (faults : SweepFaults) :
    Store.Moves codec config horizon scope store (store.sweepFiles config now faults).1 := by
  have hstaging : Store.Moves codec config horizon scope store (store.sweepStaging config now faults).1 :=
    h.aside rfl rfl rfl rfl rfl rfl (fun h => h) h.writers
  unfold Store.sweepFiles
  split
  · rename_i next e heq
    rw [heq] at hstaging
    exact hstaging
  · rename_i next heq
    rw [heq] at hstaging
    have hinv := Store.Moves.inv h hstaging
    have hobjects : Store.Moves codec config horizon scope next (next.sweepObjects config now faults).1 :=
      Store.Collected.moves hinv (sweepShards_collected _ 0 next)
    refine hstaging.trans ?_
    split
    · rename_i last e heq'
      rw [heq'] at hobjects
      exact hobjects
    · rename_i last heq'
      rw [heq'] at hobjects
      exact hobjects.trans (reconcilePhysical_moves _ (Store.Moves.inv hinv hobjects) hmax faults.scan)

/-- A sweep is performed by moves, however its steps go. -/
theorem Sweep_moves {store : Store} (h : store.Inv codec config horizon) (hmax : 0 ≤ config.maxTotalBytes)
    {faults : SweepFaults} (hnow : now ≤ horizon) (hunlink : ∀ id, faults.unlink id ≠ .unsynced) :
    Store.Moves codec config horizon (sweepScope config now) store (store.Sweep codec config now faults).1 := by
  have hticks := checkOpenAndClock_moves (sweepScope config now) h hnow faults.root
  unfold Store.Sweep
  split
  · rename_i ticked e heq
    rw [heq] at hticks
    exact hticks
  · rename_i ticked heq
    rw [heq] at hticks
    have hinv := Store.Moves.inv h hticks
    have hunknown : Store.Moves codec config horizon (sweepScope config now) ticked
        { ticked with physicalKnown := false } := hinv.aside rfl rfl rfl rfl rfl rfl (fun h => h) hinv.writers
    have hinv' := Store.Moves.inv hinv hunknown
    have hlast : ticked.lastNow = now := by
      rw [checkOpenAndClock_ok heq]
    have hrecords := sweepRecords_moves hunlink ((Dict.keys ticked.records).mergeSort (· ≤ ·)) hinv' hlast
    refine (hticks.trans hunknown).trans ?_
    split
    · rename_i next e heq'
      rw [heq'] at hrecords
      exact hrecords
    · rename_i next heq'
      rw [heq'] at hrecords
      exact hrecords.trans (sweepFiles_moves (Store.Moves.inv hinv' hrecords) hmax faults)

end Sweeping

end DittoSubnet.CodingOutbox

import DittoSubnet.CodingOutbox.Sweeping

/-!
# Opening the outbox

`Store.Loading` holds while `Open` reads the record files: what is loaded is as on the disk, and the rest is still to be
read. Each file keeps it (`loadRecord_ok`), and when no file is left the store has its invariant. On sound files the
loader fails for nothing but faults of its own and want of space (`loadRecords_succeed`).
-/

namespace DittoSubnet.CodingOutbox

open Kit
open Coding (validSHA256)

/-- A step that releases and deletes nothing. -/
def Scope.still : Scope := ⟨fun _ => False, fun _ => False, False, True⟩

section Loading

variable (codec : Codec) (config : Config) (horizon : Int)

/-- What a record is after a restart. -/
def Record.recovered (record : Record) (now : Int) : Record :=
  if record.abandoned config now then (record.expire now).stampedAt codec now else record

structure Store.Loading (now : Int) (rest : List (String × Record)) (store : Store) : Prop where
  files : store.files.Sound codec config horizon
  keys : (Dict.keys store.records).Nodup
  loaded : ∀ id record, Dict.get? store.records id = some record →
    store.files.records.get? id = some record ∧ record.updatedAtUnixNano ≤ now ∧ id ∉ Dict.keys rest
  unread : ∀ id record, (id, record) ∈ rest → store.files.records.get? id = some record
  unreadKeys : (Dict.keys rest).Nodup
  covered : ∀ id record, store.files.records.get? id = some record →
    id ∈ Dict.keys rest ∨ Dict.get? store.records id = some record
  clock : store.lastNow = now
  writers : store.writers = []
  orphans : store.orphanBytes = 0
  reserved : store.reserved = reservedIn store.records
  fits : store.reserved ≤ config.maxTotalBytes

variable {codec config horizon} {now : Int}

/-! ## One file -/

theorem recovered_eq {store : Store} {record : Record} (hclock : store.lastNow = now) :
    store.restored codec config record now = record.recovered codec config now := by
  unfold Store.restored Record.recovered
  rw [stamp_eq, hclock]

theorem abandoned_unsealed {record : Record} (h : record.abandoned config now) :
    record.state = .reserved ∨ record.state = .collecting := by
  rcases h with ⟨hs, -⟩ | ⟨hs, -⟩ | ⟨hs, -⟩
  · exact .inr hs
  · exact .inl hs
  · exact .inr hs

/-- The next version of an abandoned record. -/
theorem abandoned_next {files : Files} {id : String} {record : Record} (hgood : files.Good codec horizon id record)
    (habandoned : record.abandoned config now) (hnow : record.updatedAtUnixNano ≤ now) :
    record.Next codec ((record.expire now).stampedAt codec now) id ∧
      files.Supports codec ((record.expire now).stampedAt codec now) := by
  have hstate := abandoned_unsealed habandoned
  have hu := hgood.sound.fit.unsealed hstate
  exact ⟨expire_next hgood.sound hstate hnow,
    .unpublished hu.authoring hu.terminal hgood.supported.transcript hgood.supported.frozen⟩

/-- What expiring an abandoned record does to the store. -/
theorem expireAbandoned_eq {store : Store} {id : String} {record : Record} {io : Io} (hid : record.id = id) :
    store.expireAbandoned codec config record store.lastNow io =
      if record.abandoned config store.lastNow then
        if maximumRecordBytes < codec.length ((record.expire store.lastNow).stampedAt codec store.lastNow) then
          (store, .error .invalid)
        else if io.moves then
          ({ store with
              files := store.files.putRecord id ((record.expire store.lastNow).stampedAt codec store.lastNow) io.syncs
              records := Dict.set store.records id ((record.expire store.lastNow).stampedAt codec store.lastNow)
              physicalKnown := store.physicalKnown && !io.forgets }, io.result)
        else (store, io.result)
      else (store, .ok ()) := by
  subst hid
  rfl

theorem readRecord_ok {id : String} {record : Record} {read : Bool} (h : readRecord codec id record now read = .ok ()) :
    record.updatedAtUnixNano ≤ now := by
  unfold readRecord at h
  rw [ensure_bind_eq_ok_iff, ensure_bind_eq_ok_iff, check_bind_eq_ok_iff, ensure_eq_ok_iff] at h
  exact h.2.2.2.2.2.2

theorem admitted_files (store : Store) (record : Record) : (store.admitted config record).1.files = store.files := by
  unfold Store.admitted
  simp only
  split
  · rfl
  · split <;> rfl

theorem expireAbandoned_moves (config : Config) {store : Store} {id : String} {record : Record}
    (hget : store.files.records.get? id = some record) (hgood : store.files.Good codec horizon id record)
    (hupdated : record.updatedAtUnixNano ≤ store.lastNow) (hhorizon : store.lastNow ≤ horizon) (io : Io) :
    Files.Moves codec config horizon .still store.files
      (store.expireAbandoned codec config record store.lastNow io).1.files := by
  rw [expireAbandoned_eq hgood.sound.fit.id_eq]
  split
  · rename_i habandoned
    obtain ⟨hnext, hsupports⟩ := abandoned_next hgood habandoned hupdated
    split
    · exact .refl
    · rename_i hlength
      split
      · exact .single (.grow _ hget hnext.grows ⟨hnext.sound, not_lt.1 hlength, hhorizon, hsupports⟩
          fun hs => by cases hs)
      · exact .refl
  · exact .refl

theorem loadRecord_moves (faults : OpenFaults) {store : Store} {id : String} {record : Record}
    {rest : List (String × Record)} (h : store.Loading codec config horizon now ((id, record) :: rest))
    (hnow : now ≤ horizon) :
    Files.Moves codec config horizon .still store.files
      (store.loadRecord codec config id record now faults).1.files := by
  have hget := h.unread id record (by simp)
  have hgood := h.files.get? hget
  obtain rfl := h.clock
  unfold Store.loadRecord
  split
  · exact .refl
  · rename_i hread
    have hexpire := expireAbandoned_moves config hget hgood (readRecord_ok hread) hnow (faults.persist id)
    split
    · rename_i next e heq
      rw [heq] at hexpire
      exact hexpire
    · rename_i next heq
      rw [heq] at hexpire
      split
      · exact hexpire
      · rw [admitted_files]
        exact hexpire

theorem admitted_ok {store last : Store} {record : Record} (h : store.admitted config record = (last, .ok ())) :
    last = { store with
      records := Dict.set store.records record.id record
      reserved := store.reserved + record.reservedBytes } ∧
      store.reserved + record.reservedBytes ≤ config.maxTotalBytes := by
  unfold Store.admitted at h
  simp only at h
  split at h
  · cases h
  · split at h
    · cases h
    · rename_i hcapacity
      refine ⟨(Prod.ext_iff.1 h).1.symm, ?_⟩
      have hcap := not_lt.1 hcapacity
      omega

theorem reservedBytes_recovered (record : Record) :
    (record.recovered codec config now).reservedBytes = record.reservedBytes := by
  unfold Record.recovered
  split <;> rfl

theorem id_recovered (record : Record) : (record.recovered codec config now).id = record.id := by
  unfold Record.recovered
  split <;> rfl

/-- The files after a record is read. -/
def Files.recover (codec : Codec) (config : Config) (files : Files) (id : String) (record : Record) (now : Int) :
    Files :=
  if record.abandoned config now then files.putRecord id (record.recovered codec config now) true else files

/-- Expiring an abandoned record succeeds only once its rename is done. -/
theorem expireAbandoned_ok {store next : Store} {id : String} {record : Record} {io : Io} (hid : record.id = id)
    (h : store.expireAbandoned codec config record store.lastNow io = (next, .ok ())) :
    ∃ known records, next = { store with
      files := store.files.recover codec config id record store.lastNow
      records := records
      physicalKnown := known } ∧
      (records = store.records ∨
        records = Dict.set store.records id (record.recovered codec config store.lastNow)) := by
  rw [expireAbandoned_eq hid] at h
  unfold Files.recover
  by_cases habandoned : record.abandoned config store.lastNow
  · have hrecovered : record.recovered codec config store.lastNow =
        (record.expire store.lastNow).stampedAt codec store.lastNow := if_pos habandoned
    rw [if_pos habandoned] at h ⊢
    split at h
    · cases h
    · split at h
      · obtain ⟨rfl, hresult⟩ := Prod.mk.inj h
        have hdone := Io.result_eq_ok hresult
        subst hdone
        rw [hrecovered]
        exact ⟨_, _, rfl, .inr rfl⟩
      · rename_i hmoves
        have hdone := Io.result_eq_ok (Prod.mk.inj h).2
        subst hdone
        exact absurd rfl hmoves
  · rw [if_neg habandoned] at h ⊢
    obtain ⟨rfl, -⟩ := Prod.mk.inj h
    exact ⟨_, _, rfl, .inl rfl⟩

/-- The store after a file that it has read. -/
theorem loadRecord_ok {store last : Store} {id : String} {record : Record} {faults : OpenFaults}
    (hid : record.id = id) (h : store.loadRecord codec config id record store.lastNow faults = (last, .ok ())) :
    record.updatedAtUnixNano ≤ store.lastNow ∧ store.reserved + record.reservedBytes ≤ config.maxTotalBytes ∧
      ∃ known, last = { store with
        files := store.files.recover codec config id record store.lastNow
        records := Dict.set store.records id (record.recovered codec config store.lastNow)
        reserved := store.reserved + record.reservedBytes
        physicalKnown := known } := by
  unfold Store.loadRecord at h
  split at h
  · cases h
  · rename_i hread
    rw [recovered_eq rfl] at h
    split at h
    · cases h
    · rename_i next heq
      obtain ⟨known, records, rfl, hrecords⟩ := expireAbandoned_ok hid heq
      have hset : Dict.set records id (record.recovered codec config store.lastNow) =
          Dict.set store.records id (record.recovered codec config store.lastNow) := by
        rcases hrecords with rfl | rfl
        · rfl
        · exact Dict.set_set _ _ _ _
      split at h
      · cases h
      · obtain ⟨rfl, hfits⟩ := admitted_ok h
        rw [reservedBytes_recovered] at hfits
        refine ⟨readRecord_ok hread, hfits, known, ?_⟩
        simp only [reservedBytes_recovered, id_recovered, hid, hset]

/-! ## The files one after the other -/

theorem get?_recover (files : Files) {id : String} {record : Record} (hget : files.records.get? id = some record)
    (id' : String) : (files.recover codec config id record now).records.get? id' =
      if id = id' then some (record.recovered codec config now) else files.records.get? id' := by
  unfold Files.recover
  split
  · exact get?_putRecord files id id' _ true
  · rename_i habandoned
    split
    · rename_i hid
      rw [← hid, hget, Record.recovered, if_neg habandoned]
    · rfl

theorem Store.Loading.next {store last : Store} {id : String} {record : Record} {rest : List (String × Record)}
    {faults : OpenFaults} (h : store.Loading codec config horizon now ((id, record) :: rest)) (hnow : now ≤ horizon)
    (hlast : store.loadRecord codec config id record now faults = (last, .ok ())) :
    last.Loading codec config horizon now rest := by
  have hget := h.unread id record (by simp)
  have hgood := h.files.get? hget
  have hmoves := loadRecord_moves faults h hnow
  obtain rfl := h.clock
  rw [hlast] at hmoves
  have hsound : last.files.Sound codec config horizon := by
    clear hlast
    generalize last.files = files at hmoves
    induction hmoves with
    | refl => exact h.files
    | tail _ hmove ih => exact hmove.sound ih
  obtain ⟨hupdated, hfits, known, rfl⟩ := loadRecord_ok hgood.sound.fit.id_eq hlast
  obtain ⟨hid, hrest⟩ := List.nodup_cons.1 h.unreadKeys
  have hnone : Dict.get? store.records id = none := by
    cases hmem : Dict.get? store.records id with
    | none => rfl
    | some r => exact absurd (List.mem_cons_self) (h.loaded id r hmem).2.2
  refine ⟨hsound, Dict.keys_set_nodup h.keys _ _, ?_, ?_, hrest, ?_, rfl, h.writers, h.orphans, ?_, hfits⟩
  · intro id' r hr
    rw [Dict.get?_set] at hr
    rw [get?_recover store.files hget]
    split at hr
    · rename_i he
      cases hr
      subst he
      refine ⟨if_pos rfl, ?_, hid⟩
      unfold Record.recovered
      split
      · exact le_rfl
      · exact hupdated
    · rename_i he
      obtain ⟨h1, h2, h3⟩ := h.loaded id' r hr
      rw [if_neg he]
      exact ⟨h1, h2, fun hmem => h3 (List.mem_cons_of_mem _ hmem)⟩
  · intro id' r hr
    have hne : id ≠ id' := by
      rintro rfl
      exact hid (List.mem_map.2 ⟨(id, r), hr, rfl⟩)
    rw [get?_recover store.files hget, if_neg hne]
    exact h.unread id' r (List.mem_cons_of_mem _ hr)
  · intro id' r hr
    rw [get?_recover store.files hget] at hr
    rw [Dict.get?_set]
    split at hr
    · rename_i he
      exact .inr (by rw [if_pos he]; exact hr)
    · rename_i he
      rw [if_neg he]
      rcases h.covered id' r hr with hmem | hmem
      · rcases List.mem_cons.1 hmem with rfl | hmem
        · exact absurd rfl he
        · exact .inl hmem
      · exact .inr hmem
  · show store.reserved + record.reservedBytes = reservedIn (Dict.set store.records id _)
    rw [reservedIn, Dict.sumRows_insert hnone, reservedBytes_recovered, h.reserved]
    rfl

theorem loadRecords_moves (hnow : now ≤ horizon) (faults : OpenFaults) (rest : List (String × Record)) :
    ∀ {store : Store}, store.Loading codec config horizon now rest →
      Files.Moves codec config horizon .still store.files
        (Store.loadRecords codec config now faults rest store).1.files := by
  induction rest with
  | nil => exact fun _ => .refl
  | cons file rest ih =>
    intro store h
    obtain ⟨id, record⟩ := file
    have hmoves := loadRecord_moves faults h hnow
    rw [Store.loadRecords]
    split
    · rename_i next e heq
      rw [heq] at hmoves
      exact hmoves
    · rename_i next heq
      rw [heq] at hmoves
      exact hmoves.trans (ih (h.next hnow heq))

theorem loadRecords_loaded (hnow : now ≤ horizon) {faults : OpenFaults} (rest : List (String × Record)) :
    ∀ {store last : Store}, store.Loading codec config horizon now rest →
      Store.loadRecords codec config now faults rest store = (last, .ok ()) →
      last.Loading codec config horizon now [] := by
  induction rest with
  | nil =>
    intro store last h hlast
    obtain ⟨rfl, -⟩ := Prod.mk.inj hlast
    exact h
  | cons file rest ih =>
    intro store last h hlast
    obtain ⟨id, record⟩ := file
    rw [Store.loadRecords] at hlast
    split at hlast
    · cases hlast
    · rename_i next heq
      exact ih (h.next hnow heq) hlast

/-! ## The store that is opened -/

theorem fresh_loading (now : Int) {files : Files} (h : files.Sound codec config horizon)
    (hmax : 0 ≤ config.maxTotalBytes) :
    (files.fresh now).Loading codec config horizon now files.records.files where
  files := h
  keys := List.nodup_nil
  loaded := by
    rintro id record ⟨⟩
  unread := fun id record hmem => Dict.get?_of_mem h.keys hmem
  unreadKeys := h.keys
  covered := fun id record hr => .inl (Dict.mem_keys_iff.2 ⟨record, hr⟩)
  clock := rfl
  writers := rfl
  orphans := rfl
  reserved := rfl
  fits := hmax

theorem Store.Loading.inv {store : Store} (h : store.Loading codec config horizon now []) (hsecond : second ≤ now)
    (hnow : now ≤ horizon) : store.Inv codec config horizon ∧ store.Counted config := by
  refine ⟨⟨h.files, h.keys, fun id => ?_, ?_, ?_, ?_⟩, h.reserved, h.orphans.ge, h.fits⟩
  · cases hmem : Dict.get? store.records id with
    | some record => exact (h.loaded id record hmem).1.symm
    | none =>
      cases hget : store.files.records.get? id with
      | none => rfl
      | some record =>
        rcases h.covered id record hget with hnil | hsome
        · cases hnil
        · cases hmem.symm.trans hsome
  · rw [h.clock]
    exact ⟨hsecond, hnow⟩
  · rw [h.clock]
    exact fun id record hr => (h.loaded id record hr).2.1
  · rw [h.writers]
    simp

/-- What `Open` does to the files is done by moves, and a store that it opens has the invariant. -/
theorem Open_spec {files : Files} (h : files.Sound codec config horizon) (hsecond : second ≤ now)
    (hnow : now ≤ horizon) (faults : OpenFaults) :
    Files.Moves codec config horizon .still files (files.Open codec config now faults).1.files ∧
      ∀ store, files.Open codec config now faults = (store, .ok ()) →
        store.Inv codec config horizon ∧ store.Counted config ∧ 0 ≤ config.maxTotalBytes := by
  unfold Files.Open
  split
  · exact ⟨.refl, fun store hstore => by cases hstore⟩
  · rename_i hvalid
    have hmax : 0 ≤ config.maxTotalBytes := (not_not.1 hvalid).1.le
    split
    · exact ⟨.refl, fun store hstore => by cases hstore⟩
    · split
      · exact ⟨.refl, fun store hstore => by cases hstore⟩
      · have hload := fresh_loading now h hmax
        have hmoves := loadRecords_moves hnow faults files.records.files hload
        split
        · rename_i next e heq
          rw [heq] at hmoves
          exact ⟨hmoves, fun store hstore => by cases hstore⟩
        · rename_i next heq
          obtain ⟨hinv, hcounted⟩ := (loadRecords_loaded hnow _ hload heq).inv hsecond hnow
          rw [heq] at hmoves
          have hreconcile := reconcilePhysical_moves .still hinv hmax faults.scan
          refine ⟨hmoves.trans (Store.Moves.files hinv hreconcile), fun store hstore => ?_⟩
          rw [hstore] at hreconcile
          exact ⟨Store.Moves.inv hinv hreconcile, Store.Moves.counted hinv trivial hcounted hreconcile, hmax⟩

end Loading

end DittoSubnet.CodingOutbox

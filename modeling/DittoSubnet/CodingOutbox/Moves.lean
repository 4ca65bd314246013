import DittoSubnet.CodingOutbox.Sound
import Mathlib.Logic.Relation

/-!
# Moves of the store

`Store.Inv` ties the copies that the store keeps in memory to its files. `Store.Move` lists what a call or a sweep does
in one file-system step or between two of them. A move keeps the invariant (`Move.inv`) and is a move of the files
(`Move.files`); with `scope.counts` it also keeps what is reserved equal to what the records reserve (`Move.counted`).
-/

namespace DittoSubnet.CodingOutbox

open Kit

section Moves

variable (codec : Codec) (config : Config) (horizon : Int) (scope : Scope)

/-! ## The invariant of the store -/

/-- A transcript that is being written is within the limit of its attempt. -/
def Writer.Within (writer : Writer) (records : Dict String Record) : Prop :=
  writer.nonce ≠ "" ∧ ∀ record, Dict.get? records writer.recordID = some record →
    record.writerNonce = writer.nonce → (writer.body.length : Int) ≤ record.limits.maxTranscriptBytes

structure Store.Inv (store : Store) : Prop where
  files : store.files.Sound codec config horizon
  keys : (Dict.keys store.records).Nodup
  memory : ∀ id, Dict.get? store.records id = store.files.records.get? id
  clock : second ≤ store.lastNow ∧ store.lastNow ≤ horizon
  written : ∀ id record, Dict.get? store.records id = some record → record.updatedAtUnixNano ≤ store.lastNow
  writers : ∀ writer ∈ store.writers, writer.Within store.records

/-- The bytes that records reserve. -/
def reservedIn (records : Dict String Record) : Int := Dict.sumRows (fun _ record => record.reservedBytes) records

/-- What the store counts as reserved is what its records reserve, and it fits. -/
structure Store.Counted (store : Store) : Prop where
  reserved : store.reserved = reservedIn store.records
  orphans : 0 ≤ store.orphanBytes
  fits : store.reserved ≤ config.maxTotalBytes

/-! ## Moves -/

inductive Store.Move : Store → Store → Prop
  /-- Nothing happens to records, nor to the objects they refer to. -/
  | aside {store store' : Store} (hrecords : store'.records = store.records)
      (hreserved : store'.reserved = store.reserved) (hfiles : store'.files.records = store.files.records)
      (hkeeps : ∀ id record, Dict.get? store.records id = some record → ∀ digest ∈ record.references,
        store.files.Keeps store'.files digest) (hhoused : store.files.Housed → store'.files.Housed)
      (hclock : store.lastNow ≤ store'.lastNow) (hhorizon : store'.lastNow ≤ horizon)
      (horphans : 0 ≤ store.orphanBytes → 0 ≤ store'.orphanBytes)
      (hwriters : ∀ writer ∈ store'.writers, writer.Within store.records) : Store.Move store store'
  | grow {store : Store} {id : String} {old new : Record} (synced known : Bool)
      (hold : Dict.get? store.records id = some old) (hgrows : old.Grows new)
      (hgood : store.files.Good codec horizon id new) (hupdated : new.updatedAtUnixNano ≤ store.lastNow)
      (hfrees : new.state = .released → old.state = .released ∨ scope.frees id)
      (hnonce : new.writerNonce = old.writerNonce ∨ ∀ writer ∈ store.writers, writer.nonce ≠ new.writerNonce) :
      Store.Move store { store with
        files := store.files.putRecord id new synced
        records := Dict.set store.records id new
        physicalKnown := known }
  /-- A reservation whose rename is not finished is not counted. -/
  | reserve {store : Store} {id : String} {new : Record} (synced known : Bool) (counted : Int)
      (hnone : Dict.get? store.records id = none) (hgood : store.files.Good codec horizon id new)
      (hupdated : new.updatedAtUnixNano ≤ store.lastNow)
      (halone : ∀ id' record, Dict.get? store.records id' = some record → ¬ record.SameExecution new)
      (hcount : store.records.length < config.maxAttempts) (hnonce : new.writerNonce = "")
      (hcounted : scope.counts → counted = new.reservedBytes)
      (hcapacity : new.reservedBytes ≤ config.maxTotalBytes - store.used config) (hreserves : scope.reserves) :
      Store.Move store { store with
        files := store.files.putRecord id new synced
        records := Dict.set store.records id new
        physicalKnown := known
        reserved := store.reserved + counted }
  | drop {store : Store} {id : String} {record : Record} (hrecord : Dict.get? store.records id = some record)
      (hdrops : scope.drops record) :
      Store.Move store { store with
        files := store.files.dropRecord id
        records := store.records.filter fun row => row.1 ≠ id
        reserved := store.reserved - record.reservedBytes }

abbrev Store.Moves : Store → Store → Prop := Relation.ReflTransGen (Store.Move codec config horizon scope)

abbrev Files.Moves : Files → Files → Prop := Relation.ReflTransGen (Files.Move codec config horizon scope)

variable {codec config horizon scope}

/-! ## The store and its files -/

theorem Store.Inv.get? {store : Store} (h : store.Inv codec config horizon) {id : String} {record : Record}
    (hr : Dict.get? store.records id = some record) : store.files.Good codec horizon id record := by
  apply h.files.get?
  rw [← h.memory]
  exact hr

theorem Store.Inv.length {store : Store} (h : store.Inv codec config horizon) :
    store.records.length = store.files.records.files.length := by
  have hmem : ∀ id, id ∈ Dict.keys store.records ↔ id ∈ Dict.keys store.files.records.files := by
    intro id
    rw [Dict.mem_keys_iff, Dict.mem_keys_iff, h.memory id]
    rfl
  apply le_antisymm
  · exact Dict.length_le_of_keys h.keys fun id hid => (hmem id).1 hid
  · exact Dict.length_le_of_keys h.files.keys fun id hid => (hmem id).2 hid

/-- The entries of a table without one of its keys. -/
theorem get?_without (d : Dict String Record) (id id' : String) :
    Dict.get? (d.filter fun row => row.1 ≠ id) id' = if id = id' then none else Dict.get? d id' :=
  Directory.get?_drop ⟨d, []⟩ id id'

theorem Store.Move.files {store store' : Store} (h : store.Inv codec config horizon)
    (hmove : Store.Move codec config horizon scope store store') :
    Files.Move codec config horizon scope store.files store'.files := by
  cases hmove with
  | aside hrecords hreserved hfiles hkeeps hhoused hclock hhorizon horphans hwriters =>
    refine .objects hfiles (fun id record hr => ?_) hhoused
    rw [← h.memory] at hr
    exact hkeeps id record hr
  | grow synced known hold hgrows hgood hupdated hfrees hnonce =>
    rw [h.memory] at hold
    exact .grow synced hold hgrows hgood hfrees
  | reserve synced known counted hnone hgood hupdated halone hcount hnonce hcounted hcapacity hreserves =>
    rw [h.memory] at hnone
    rw [h.length] at hcount
    refine .reserve synced hnone hgood (fun id' record hr => ?_) hcount hreserves
    rw [← h.memory] at hr
    exact halone id' record hr
  | drop hrecord hdrops =>
    rw [h.memory] at hrecord
    exact .drop hrecord hdrops

/-! ## Moves keep the invariant -/

theorem Store.Move.inv {store store' : Store} (h : store.Inv codec config horizon)
    (hmove : Store.Move codec config horizon scope store store') : store'.Inv codec config horizon := by
  have hsound := (hmove.files h).sound h.files
  cases hmove with
  | aside hrecords hreserved hfiles hkeeps hhoused hclock hhorizon horphans hwriters =>
    refine ⟨hsound, ?_, ?_, ⟨h.clock.1.trans hclock, hhorizon⟩, ?_, ?_⟩
    · rw [hrecords]
      exact h.keys
    · rw [hrecords, hfiles]
      exact h.memory
    · rw [hrecords]
      intro id record hr
      exact (h.written id record hr).trans hclock
    · rw [hrecords]
      exact hwriters
  | @grow id old new synced known hold hgrows hgood hupdated hfrees hnonce =>
    refine ⟨hsound, Dict.keys_set_nodup h.keys id new, ?_, h.clock, ?_, ?_⟩
    · intro id'
      rw [get?_putRecord, Dict.get?_set, h.memory]
    · intro id' record hr
      rw [Dict.get?_set] at hr
      split at hr
      · cases hr
        exact hupdated
      · exact h.written id' record hr
    · intro writer hw
      obtain ⟨hne, hwithin⟩ := h.writers writer hw
      refine ⟨hne, fun record hr hsame => ?_⟩
      rw [Dict.get?_set] at hr
      split at hr
      · rename_i hid
        cases hr
        rcases hnonce with hnonce | hnonce
        · rw [hgrows.limits]
          rw [hid] at hold
          exact hwithin old hold (hnonce.symm.trans hsame)
        · exact absurd hsame.symm (hnonce writer hw)
      · exact hwithin record hr hsame
  | @reserve id new synced known counted hnone hgood hupdated halone hcount hnonce hcounted hcapacity hreserves =>
    refine ⟨hsound, Dict.keys_set_nodup h.keys id new, ?_, h.clock, ?_, ?_⟩
    · intro id'
      rw [get?_putRecord, Dict.get?_set, h.memory]
    · intro id' record hr
      rw [Dict.get?_set] at hr
      split at hr
      · cases hr
        exact hupdated
      · exact h.written id' record hr
    · intro writer hw
      obtain ⟨hne, hwithin⟩ := h.writers writer hw
      refine ⟨hne, fun record hr hsame => ?_⟩
      rw [Dict.get?_set] at hr
      split at hr
      · cases hr
        exact absurd (hsame.symm.trans hnonce) hne
      · exact hwithin record hr hsame
  | @drop id record hrecord hdrops =>
    refine ⟨hsound, Directory.keys_filter_nodup h.keys _, ?_, h.clock, ?_, ?_⟩
    · intro id'
      rw [get?_dropRecord, get?_without, h.memory]
    · intro id' r hr
      rw [get?_without] at hr
      split at hr
      · cases hr
      · exact h.written id' r hr
    · intro writer hw
      obtain ⟨hne, hwithin⟩ := h.writers writer hw
      refine ⟨hne, fun r hr hsame => ?_⟩
      rw [get?_without] at hr
      split at hr
      · cases hr
      · exact hwithin r hr hsame

theorem Store.Moves.inv {store store' : Store} (h : store.Inv codec config horizon)
    (hmoves : Store.Moves codec config horizon scope store store') : store'.Inv codec config horizon := by
  induction hmoves with
  | refl => exact h
  | tail _ hmove ih => exact hmove.inv ih

theorem Store.Moves.files {store store' : Store} (h : store.Inv codec config horizon)
    (hmoves : Store.Moves codec config horizon scope store store') :
    Files.Moves codec config horizon scope store.files store'.files := by
  induction hmoves with
  | refl => exact .refl
  | tail hmoves hmove ih => exact ih.tail (hmove.files (Store.Moves.inv h hmoves))

/-! ## Moves keep the count -/

theorem Store.Inv.reservedBytes_pos {store : Store} (h : store.Inv codec config horizon) {id : String}
    {record : Record} (hr : Dict.get? store.records id = some record) : 0 < record.reservedBytes :=
  (h.get? hr).sound.fit.known.2.2.2.2.2.2.1

/-- A reservation that passes the check fits. -/
theorem Store.Counted.reserve {store : Store} (h : store.Counted config) {bytes : Int} (hpos : 0 < bytes)
    (hcapacity : bytes ≤ config.maxTotalBytes - store.used config) : store.reserved + bytes ≤ config.maxTotalBytes := by
  have horphans := h.orphans
  unfold Store.used at hcapacity
  split at hcapacity <;> omega

theorem reservedIn_without {d : Dict String Record} (hd : (Dict.keys d).Nodup) {id : String} {record : Record}
    (hr : Dict.get? d id = some record) :
    reservedIn (d.filter fun row => row.1 ≠ id) = reservedIn d - record.reservedBytes := by
  unfold reservedIn
  induction d with
  | nil => cases hr
  | cons row d ih =>
    obtain ⟨k, v⟩ := row
    obtain ⟨hk, hd'⟩ := List.nodup_cons.1 hd
    by_cases hid : k = id
    · subst hid
      have hv : v = record := by simpa [Dict.get?] using hr
      subst hv
      have hrest : (d.filter fun row => row.1 ≠ k) = d := by
        rw [List.filter_eq_self]
        intro row hrow
        have hmem : row.1 ∈ Dict.keys d := List.mem_map_of_mem hrow
        have hne : row.1 ≠ k := by
          rintro rfl
          exact hk hmem
        simpa using hne
      rw [List.filter_cons_of_neg (by simp), hrest]
      simp [Dict.sumRows]
    · rw [List.filter_cons_of_pos (by simpa using hid)]
      simp only [Dict.get?, hid, if_false] at hr
      have hrest := ih hd' hr
      simp only [Dict.sumRows, List.map_cons, List.sum_cons] at hrest ⊢
      omega

theorem Store.Move.counted {store store' : Store} (h : store.Inv codec config horizon) (hcounts : scope.counts)
    (hcounted : store.Counted config) (hmove : Store.Move codec config horizon scope store store') :
    store'.Counted config := by
  cases hmove with
  | aside hrecords hreserved hfiles hkeeps hhoused hclock hhorizon horphans hwriters =>
    refine ⟨?_, horphans hcounted.orphans, ?_⟩
    · rw [hreserved, hrecords]
      exact hcounted.reserved
    · rw [hreserved]
      exact hcounted.fits
  | @grow id old new synced known hold hgrows hgood hupdated hfrees hnonce =>
    refine ⟨?_, hcounted.orphans, hcounted.fits⟩
    show store.reserved = reservedIn (Dict.set store.records id new)
    rw [reservedIn, Dict.sumRows_set hold, hgrows.reservedBytes, sub_add_cancel]
    exact hcounted.reserved
  | @reserve id new synced known counted hnone hgood hupdated halone hcount hnonce hcount' hcapacity hreserves =>
    have hpos : 0 < new.reservedBytes := hgood.sound.fit.known.2.2.2.2.2.2.1
    rw [hcount' hcounts]
    refine ⟨?_, hcounted.orphans, hcounted.reserve hpos hcapacity⟩
    show store.reserved + new.reservedBytes = reservedIn (Dict.set store.records id new)
    rw [reservedIn, Dict.sumRows_insert hnone, hcounted.reserved]
    rfl
  | @drop id record hrecord hdrops =>
    have hpos := h.reservedBytes_pos hrecord
    refine ⟨?_, hcounted.orphans, ?_⟩
    · show store.reserved - record.reservedBytes = reservedIn (store.records.filter fun row => row.1 ≠ id)
      rw [reservedIn_without h.keys hrecord, hcounted.reserved]
    · show store.reserved - record.reservedBytes ≤ config.maxTotalBytes
      have hfits := hcounted.fits
      omega

theorem Store.Moves.counted {store store' : Store} (h : store.Inv codec config horizon) (hcounts : scope.counts)
    (hcounted : store.Counted config) (hmoves : Store.Moves codec config horizon scope store store') :
    store'.Counted config := by
  induction hmoves with
  | refl => exact hcounted
  | tail hmoves hmove ih => exact hmove.counted (Store.Moves.inv h hmoves) hcounts ih

end Moves

end DittoSubnet.CodingOutbox

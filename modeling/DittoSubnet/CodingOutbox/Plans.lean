import DittoSubnet.CodingOutbox.Moves

/-!
# Planned calls

`Plan.Sound` says of a plan that the record it writes is the next version of one, or the first of a new attempt, and
that its objects are stored once the planned one is. A sound plan is performed by moves, however its file-system steps
go (`perform_moves`); what each call plans is sound (`plan_sound`).
-/

namespace DittoSubnet.CodingOutbox

open Kit
open Coding (validSHA256)

section Plans

variable {codec : Codec} {config : Config} {horizon : Int} {scope : Scope}

/-! ## Steps beside the records -/

theorem Files.Housed.of_eq {files files' : Files} (h : files.Housed) (hshards : files'.shards = files.shards)
    (hobjects : files'.objects = files.objects) : files'.Housed where
  shard := by
    rw [hshards, hobjects]
    exact h.shard
  synced := by
    rw [hshards]
    exact h.synced

/-- A step that changes neither records nor objects. -/
theorem Store.Inv.aside {store store' : Store} (h : store.Inv codec config horizon)
    (hrecords : store'.records = store.records) (hreserved : store'.reserved = store.reserved)
    (hfiles : store'.files.records = store.files.records) (hshards : store'.files.shards = store.files.shards)
    (hobjects : store'.files.objects = store.files.objects) (hclock : store'.lastNow = store.lastNow)
    (horphans : 0 ≤ store.orphanBytes → 0 ≤ store'.orphanBytes)
    (hwriters : ∀ writer ∈ store'.writers, writer.Within store.records) :
    Store.Moves codec config horizon scope store store' := by
  refine .single (.aside hrecords hreserved hfiles (fun id record _ digest _ version hv => ?_)
    (fun hhoused => hhoused.of_eq hshards hobjects) hclock.ge ?_ horphans hwriters)
  · rwa [hobjects] at hv
  · rw [hclock]
    exact h.clock.2

theorem checkOpenAndClock_moves (scope : Scope) {store : Store} (h : store.Inv codec config horizon) {now : Int}
    (hnow : now ≤ horizon) (root : Bool) :
    Store.Moves codec config horizon scope store (store.checkOpenAndClock now root).1 := by
  unfold Store.checkOpenAndClock
  split
  · exact .refl
  · split
    · exact .refl
    · rename_i hclock
      have hle : store.lastNow ≤ now := not_lt.1 (not_or.1 hclock).2
      exact .single (.aside rfl rfl rfl (fun _ _ _ _ _ _ hv => hv) id hle hnow id h.writers)

theorem checkOpenAndClock_ok {store ticked : Store} {now : Int} {root : Bool}
    (h : store.checkOpenAndClock now root = (ticked, .ok ())) : ticked = { store with lastNow := now } := by
  unfold Store.checkOpenAndClock at h
  split at h
  · cases h
  · split at h
    · cases h
    · exact (Prod.ext_iff.1 h).1.symm

/-! ## Renames of records -/

theorem persistRecord_eq (store : Store) (record : Record) (io : Io) :
    store.persistRecord codec record io =
      if maximumRecordBytes < codec.length (record.stampedAt codec store.lastNow) then (store, .error .invalid)
      else if io.moves then
        ({ store with
            files := store.files.putRecord record.id (record.stampedAt codec store.lastNow) io.syncs
            records := Dict.set store.records record.id (record.stampedAt codec store.lastNow)
            physicalKnown := store.physicalKnown && !io.forgets }, io.result)
      else (store, io.result) := rfl

/-- The rename of the next version of a record. -/
theorem persistRecord_moves (config : Config) (scope : Scope) {store : Store} {id : String} {old record : Record}
    (hold : Dict.get? store.records id = some old)
    (hnext : old.Next codec (record.stampedAt codec store.lastNow) id)
    (hsupports : store.files.Supports codec (record.stampedAt codec store.lastNow)) (hhorizon : store.lastNow ≤ horizon)
    (hfrees : record.state = .released → old.state = .released ∨ scope.frees id)
    (hnonce : record.writerNonce = old.writerNonce ∨ ∀ writer ∈ store.writers, writer.nonce ≠ record.writerNonce)
    (io : Io) : Store.Moves codec config horizon scope store (store.persistRecord codec record io).1 := by
  have hid : record.id = id := hnext.sound.fit.id_eq
  rw [persistRecord_eq, hid]
  by_cases hlength : maximumRecordBytes < codec.length (record.stampedAt codec store.lastNow)
  · rw [if_pos hlength]
  · rw [if_neg hlength]
    cases hmoves : io.moves with
    | false => exact .refl
    | true =>
      have hgood : store.files.Good codec horizon id (record.stampedAt codec store.lastNow) :=
        ⟨hnext.sound, not_lt.1 hlength, hhorizon, hsupports⟩
      exact .single (.grow io.syncs (store.physicalKnown && !io.forgets) hold hnext.grows hgood le_rfl hfrees hnonce)

/-- The rest of the store after the rename of a record. -/
theorem persistRecord_frame (codec : Codec) (store : Store) (record : Record) (io : Io) :
    (store.persistRecord codec record io).1.writers = store.writers ∧
      (store.persistRecord codec record io).1.lastNow = store.lastNow ∧
      (store.persistRecord codec record io).1.reserved = store.reserved ∧
      (store.persistRecord codec record io).1.files.objects = store.files.objects := by
  unfold Store.persistRecord
  simp only
  split
  · exact ⟨rfl, rfl, rfl, rfl⟩
  · split <;> exact ⟨rfl, rfl, rfl, rfl⟩

/-! ## Shards -/

/-- Opening a shard changes the shards only, and it leaves none of them to be lost when its parent is synced. -/
theorem openOrCreateDirectory_frame (files : Files) (shard : List Char) (mkdir : Mkdir) :
    (files.openOrCreateDirectory shard mkdir).1.records = files.records ∧
      (files.openOrCreateDirectory shard mkdir).1.objects = files.objects ∧
      (mkdir ≠ .unsynced → files.Housed → (files.openOrCreateDirectory shard mkdir).1.Housed) := by
  unfold Files.openOrCreateDirectory
  split
  · exact ⟨rfl, rfl, fun _ h => h⟩
  · exact ⟨rfl, rfl, fun _ h => h⟩
  · exact ⟨rfl, rfl, fun _ h => h⟩
  · exact ⟨rfl, rfl, fun _ h => h⟩
  · refine ⟨rfl, rfl, fun _ h => ⟨fun digest object hobject => ?_, ?_⟩⟩
    · show ((files.shards.put shard ()).sync fun _ => true).get? (shardOf digest) ≠ none
      rw [Directory.get?_sync, Directory.get?_put]
      split
      · simp
      · exact h.shard digest object hobject
    · simp [Directory.sync]
  · exact ⟨rfl, rfl, fun hsynced => absurd rfl hsynced⟩

theorem openOrCreateDirectory_ok {files opened : Files} {shard : List Char} {mkdir : Mkdir}
    (h : files.openOrCreateDirectory shard mkdir = (opened, .ok ())) : opened.shards.get? shard ≠ none := by
  unfold Files.openOrCreateDirectory at h
  split at h
  · rename_i hshard
    obtain ⟨rfl, -⟩ := Prod.ext_iff.1 h
    simp [hshard]
  · cases h
  · cases h
  · cases h
  · obtain ⟨rfl, -⟩ := Prod.ext_iff.1 h
    simp [Directory.get?_put]
  · cases h

/-! ## Installs of objects -/

/-- An object that is renamed into place, unless its place is taken. -/
def Files.place (files : Files) (digest : String) (object : Object) : Files :=
  match files.objects.get? digest with
  | some _ => files
  | none => { files with objects := files.objects.put digest object }

theorem place_keeps (files : Files) {digest digest' : String} (object : Object) {present : Object}
    (h : files.objects.get? digest' = some present) : files.Keeps (files.place digest object) digest' := by
  intro version hv
  unfold Files.place at hv
  split at hv
  · exact hv
  · rename_i hnone
    rcases Directory.version_put.1 hv with ⟨rfl, -⟩ | hv
    · cases hnone.symm.trans h
    · exact hv

@[simp] theorem records_place (files : Files) (digest : String) (object : Object) :
    (files.place digest object).records = files.records := by
  unfold Files.place
  split <;> rfl

theorem place_housed {files : Files} {digest : String} (object : Object) (h : files.Housed)
    (hshard : files.shards.get? (shardOf digest) ≠ none) : (files.place digest object).Housed := by
  unfold Files.place
  split
  · exact h
  · refine ⟨fun digest' present hpresent => ?_, h.synced⟩
    rw [Directory.get?_put] at hpresent
    split at hpresent
    · rename_i hdigest
      rw [← hdigest]
      exact hshard
    · exact h.shard digest' present hpresent

theorem renameObject_eq (store : Store) (stage : Option String) (object : Object) (digest : String) (io : Io) :
    store.renameObject codec stage object digest io =
      if io.moves then
        if (((store.files.place digest object).objects.get? digest).any fun present =>
            verifyObject codec present digest object.body.length) = true then
          ({ store with
            files := ((if io.syncs then (store.files.place digest object).syncShard digest
              else store.files.place digest object).unstage stage) }, io.result)
        else ({ store with files := store.files.place digest object }, .error .corrupt)
      else (store, io.result) := rfl

/-- A rename of an object changes the files only, and it keeps what is there. -/
theorem renameObject_frame (codec : Codec) (store : Store) (stage : Option String) (object : Object)
    (digest : String) (io : Io) :
    ∃ files, (store.renameObject codec stage object digest io).1 = { store with files := files } ∧
      files.records = store.files.records ∧
      (∀ digest' present, store.files.objects.get? digest' = some present → store.files.Keeps files digest') ∧
      (store.files.shards.get? (shardOf digest) ≠ none → store.files.Housed → files.Housed) := by
  rw [renameObject_eq]
  split
  · split
    · refine ⟨_, rfl, ?_, fun digest' present hpresent version hv => ?_, fun hshard h => ?_⟩
      · split
        · exact records_place store.files digest object
        · exact records_place store.files digest object
      · apply place_keeps store.files object hpresent
        split at hv
        · exact Directory.Version.of_sync (d := (store.files.place digest object).objects)
            (p := fun other => shardOf other == shardOf digest) hv
        · exact hv
      · have hplaced := place_housed object h hshard
        split
        · exact ⟨hplaced.shard, hplaced.synced⟩
        · exact ⟨hplaced.shard, hplaced.synced⟩
    · exact ⟨_, rfl, records_place store.files digest object,
        fun digest' present hpresent => place_keeps store.files object hpresent,
        fun hshard h => place_housed object h hshard⟩
  · exact ⟨store.files, rfl, rfl, fun _ _ _ _ hv => hv, fun _ h => h⟩

/-- An install changes the files only, and it keeps what is there. -/
theorem installObject_frame (codec : Codec) (store : Store) (stage : Option String) (object : Object)
    (digest : String) (install : Install) :
    ∃ files, (store.installObject codec stage object digest install).1 = { store with files := files } ∧
      files.records = store.files.records ∧
      (∀ digest' present, store.files.objects.get? digest' = some present → store.files.Keeps files digest') ∧
      (install.shard ≠ .unsynced → store.files.Housed → files.Housed) := by
  obtain ⟨hrecords, hobjects, hhoused⟩ := openOrCreateDirectory_frame store.files (shardOf digest) install.shard
  unfold Store.installObject
  split
  · rename_i opened e heq
    rw [heq] at hrecords hobjects hhoused
    refine ⟨opened, rfl, hrecords, fun _ _ _ version hv => ?_, hhoused⟩
    rwa [hobjects] at hv
  · rename_i opened heq
    rw [heq] at hrecords hobjects hhoused
    obtain ⟨files, hfiles, hrecords', hkeeps, hhoused'⟩ :=
      renameObject_frame codec { store with files := opened } stage object digest install.rename
    refine ⟨files, hfiles, hrecords'.trans hrecords, fun digest' present hpresent version hv => ?_, fun hsynced h => ?_⟩
    · rw [← hobjects] at hpresent
      have hversion : opened.objects.Version digest' version := hkeeps digest' present hpresent version hv
      rwa [hobjects] at hversion
    · exact hhoused' (openOrCreateDirectory_ok heq) (hhoused hsynced h)

/-- An object that is stored for good: its bytes have the digest and the length, and they are those that were there
before, if there were any. -/
def Files.Installed (codec : Codec) (before files : Files) (digest : String) (object : Object) : Prop :=
  ∃ present, (∀ version, files.objects.Version digest version → version = some present) ∧
    codec.sha256 present.body = digest ∧ present.body.length = object.body.length ∧
    (before.objects.get? digest = some present ∨ present = object)

theorem Io.result_eq_ok {io : Io} (h : io.result = .ok ()) : io = .done := by
  cases io <;> first | rfl | cases h

/-- A rename that succeeds has stored the object for good. -/
theorem renameObject_ok {store next : Store} {stage : Option String} {object : Object} {digest : String} {io : Io}
    (h : store.renameObject codec stage object digest io = (next, .ok ())) :
    Files.Installed codec store.files next.files digest object := by
  rw [renameObject_eq] at h
  split at h
  · split at h
    · rename_i hmoves hverify
      obtain ⟨hnext, hresult⟩ := Prod.ext_iff.1 h
      have hdone := Io.result_eq_ok hresult
      subst hdone
      cases hpresent : (store.files.place digest object).objects.get? digest with
      | none =>
        rw [hpresent] at hverify
        cases hverify
      | some present =>
        rw [hpresent] at hverify
        have hboth : present.body.length = object.body.length ∧ codec.sha256 present.body = digest := by
          simpa [verifyObject] using hverify
        refine ⟨present, ?_, hboth.2, hboth.1, ?_⟩
        · intro version hv
          subst hnext
          rcases Directory.version_sync.1 hv with rfl | ⟨hfalse, -⟩
          · exact hpresent
          · simp at hfalse
        · unfold Files.place at hpresent
          split at hpresent
          · exact .inl hpresent
          · rw [Directory.get?_put, if_pos rfl] at hpresent
            exact .inr (Option.some.inj hpresent).symm
    · cases h
  · rename_i hmoves
    obtain ⟨-, hresult⟩ := Prod.ext_iff.1 h
    have hdone := Io.result_eq_ok hresult
    subst hdone
    exact absurd rfl hmoves

/-- An install that succeeds has stored the object for good. -/
theorem installObject_ok {store next : Store} {stage : Option String} {object : Object} {digest : String}
    {install : Install} (h : store.installObject codec stage object digest install = (next, .ok ())) :
    Files.Installed codec store.files next.files digest object := by
  obtain ⟨-, hobjects, -⟩ := openOrCreateDirectory_frame store.files (shardOf digest) install.shard
  unfold Store.installObject at h
  split at h
  · cases h
  · rename_i opened heq
    rw [heq] at hobjects
    obtain ⟨present, hversions, hsha, hlength, hsource⟩ := renameObject_ok h
    have hbefore : opened.objects.get? digest = store.files.objects.get? digest := by rw [hobjects]
    exact ⟨present, hversions, hsha, hlength, hsource.imp_left hbefore.symm.trans⟩

/-- What a stored object gives a record. -/
theorem Files.Installed.holds {before files : Files} {digest : String} {object : Object}
    (h : Files.Installed codec before files digest object) {p : Bytes → Prop}
    (hp : ∀ body, codec.sha256 body = digest → body.length = object.body.length →
      (before.objects.get? digest).map Object.body = some body ∨ body = object.body → p body) :
    files.Holds codec digest p := by
  obtain ⟨present, hversions, hsha, hlength, hsource⟩ := h
  intro version hv
  refine ⟨present, hversions version hv, hsha, hp present.body hsha hlength ?_⟩
  rcases hsource with hsource | rfl
  · rw [hsource]
    exact .inl rfl
  · exact .inr rfl

/-- An install that leaves no shard unsynced is a move. -/
theorem installObject_moves (scope : Scope) {store : Store} (h : store.Inv codec config horizon)
    (stage : Option String) (object : Object) (digest : String) {install : Install}
    (hshard : install.shard ≠ .unsynced) :
    Store.Moves codec config horizon scope store (store.installObject codec stage object digest install).1 := by
  obtain ⟨files, heq, hrecords, hkeeps, hhoused⟩ := installObject_frame codec store stage object digest install
  rw [heq]
  refine .single (.aside rfl rfl hrecords (fun id record hr digest' hd => ?_) (hhoused hshard) le_rfl h.clock.2
    (fun h => h) h.writers)
  obtain ⟨present, hpresent⟩ := (h.get? hr).supported.present hd
  exact hkeeps digest' present hpresent

/-! ## What records refer to after a change -/

/-- Records with the same binding, transcript and frozen patch. -/
structure Record.SameEvidence (old new : Record) : Prop where
  binding : new.binding = old.binding
  transcript : new.transcript = old.transcript
  frozen : new.frozen = old.frozen

theorem validatePublicationRequest_congr {old new : Record} (h : old.SameEvidence new) (stage : PublicationStage)
    (authority : PublicationAuthority) (body : Bytes) :
    validatePublicationRequest codec stage new authority body =
      validatePublicationRequest codec stage old authority body := by
  unfold validatePublicationRequest
  rw [h.binding, h.transcript, h.frozen]

theorem validatePublicationAcknowledgement_congr {old new : Record} (h : new.binding = old.binding)
    (stage : PublicationStage) (authority : PublicationAuthority) (body : Bytes) :
    validatePublicationAcknowledgement codec stage new authority body =
      validatePublicationAcknowledgement codec stage old authority body := by
  unfold validatePublicationAcknowledgement
  rw [h]

theorem Files.Backs.congr {files : Files} {old new : Record} {stage : PublicationStage}
    {publication : PublicationRecord} (h : files.Backs codec old stage publication) (hsame : old.SameEvidence new) :
    files.Backs codec new stage publication where
  request := h.request.imp fun body hbody => by
    rw [validatePublicationRequest_congr hsame]
    exact hbody
  acknowledgement := fun artifact ha => (h.acknowledgement artifact ha).imp fun body hbody => by
    rw [validatePublicationAcknowledgement_congr hsame.binding]
    exact hbody

/-- A change of publications keeps what a record refers to stored if the new publications are. -/
theorem Files.Supports.publish {files : Files} {old new : Record} (h : files.Supports codec old)
    (hsame : old.SameEvidence new)
    (hpublication : ∀ stage, ∀ p ∈ publicationForStage new stage,
      publicationForStage old stage = some p ∨ files.Backs codec old stage p) : files.Supports codec new where
  transcript := by
    rw [hsame.transcript]
    exact h.transcript
  frozen := by
    rw [hsame.frozen]
    exact h.frozen
  publication := by
    intro stage p hp
    rcases hpublication stage p hp with hold | hbacks
    · exact (h.publication stage p hold).congr hsame
    · exact hbacks.congr hsame

/-- A record without publications refers to its transcript and its frozen patch only. -/
theorem Files.Supports.unpublished {files : Files} {record : Record} (hauthoring : record.authoringPublication = none)
    (hterminal : record.terminalPublication = none)
    (htranscript : ∀ transcript ∈ record.transcript,
      files.Holds codec transcript.sha256 fun body => body.length = transcript.sizeBytes)
    (hfrozen : ∀ frozen ∈ record.frozen,
      files.Holds codec frozen.artifact.frozenPatchSHA256 fun body => body.length = frozen.artifact.sizeBytes) :
    files.Supports codec record where
  transcript := htranscript
  frozen := hfrozen
  publication := by
    intro stage p hp
    cases stage with
    | authoringFreeze => cases hauthoring.symm.trans hp
    | terminalResult => cases hterminal.symm.trans hp

/-! ## Sound plans -/

variable (codec config scope)

/-- What is known of a plan on an open store whose clock has been set. -/
inductive Plan.Sound (store : Store) (persist : Io) : Plan → Prop
  | answered (answer : Answer) : Plan.Sound store persist (.answered answer)
  | grows {plan : Plan} {id : String} {old new : Record} (hrecord : plan.record = some new)
      (hreserved : plan.reserved = 0) (hold : Dict.get? store.records id = some old)
      (hnext : old.Next codec (new.stampedAt codec store.lastNow) id)
      (hfrees : new.state = .released → old.state = .released ∨ scope.frees id)
      (hnonce : new.writerNonce = old.writerNonce)
      (hsupports : ∀ files : Files, files.Supports codec old →
        (∀ row ∈ plan.object, Files.Installed codec store.files files row.1 row.2) →
        files.Supports codec (new.stampedAt codec store.lastNow)) : Plan.Sound store persist plan
  | reserves {plan : Plan} {new : Record} (hrecord : plan.record = some new) (hobject : plan.object = none)
      (hreserved : plan.reserved = new.reservedBytes) (hnone : Dict.get? store.records new.id = none)
      (hsound : (new.stampedAt codec store.lastNow).Sound codec new.id)
      (hsupports : store.files.Supports codec (new.stampedAt codec store.lastNow))
      (halone : ∀ id record, Dict.get? store.records id = some record → ¬ record.SameExecution new)
      (hcount : store.records.length < config.maxAttempts) (hnonce : new.writerNonce = "")
      (hcapacity : new.reservedBytes ≤ config.maxTotalBytes - store.used config)
      (hreserves : scope.reserves) (hcounts : scope.counts → persist = .done ∨ persist = .failed) :
      Plan.Sound store persist plan

variable {codec config scope}

/-- A plan whose record is the next version of one, on a store where its objects are stored. -/
theorem persistPlanned_moves {store : Store} (h : store.Inv codec config horizon) {plan : Plan} {id : String}
    {old new : Record} (hrecord : plan.record = some new) (hreserved : plan.reserved = 0)
    (hold : Dict.get? store.records id = some old) (hnext : old.Next codec (new.stampedAt codec store.lastNow) id)
    (hfrees : new.state = .released → old.state = .released ∨ scope.frees id)
    (hnonce : new.writerNonce = old.writerNonce)
    (hsupports : store.files.Supports codec (new.stampedAt codec store.lastNow)) (io : Io) :
    Store.Moves codec config horizon scope store (store.persistPlanned codec plan io).1 := by
  have hmoves := persistRecord_moves config scope hold hnext hsupports h.clock.2 hfrees (.inl hnonce) io
  unfold Store.persistPlanned
  rw [hrecord]
  simp only
  split
  · rename_i next e heq
    rw [heq] at hmoves
    have hinv := Store.Moves.inv h hmoves
    exact hmoves.trans (hinv.aside rfl rfl rfl rfl rfl rfl (fun h => h) hinv.writers)
  · rename_i next heq
    rw [heq] at hmoves
    have hinv := Store.Moves.inv h hmoves
    refine hmoves.trans (hinv.aside rfl ?_ rfl rfl rfl rfl (fun h => h) hinv.writers)
    show next.reserved + plan.reserved = next.reserved
    rw [hreserved, add_zero]

/-- A reservation. -/
theorem persistReserved_moves {store : Store} (h : store.Inv codec config horizon) {plan : Plan} {new : Record}
    {io : Io} (hrecord : plan.record = some new) (hreserved : plan.reserved = new.reservedBytes)
    (hnone : Dict.get? store.records new.id = none) (hsound : (new.stampedAt codec store.lastNow).Sound codec new.id)
    (hsupports : store.files.Supports codec (new.stampedAt codec store.lastNow))
    (halone : ∀ id record, Dict.get? store.records id = some record → ¬ record.SameExecution new)
    (hcount : store.records.length < config.maxAttempts) (hnonce : new.writerNonce = "")
    (hcapacity : new.reservedBytes ≤ config.maxTotalBytes - store.used config)
    (hreserves : scope.reserves) (hcounts : scope.counts → io = .done ∨ io = .failed) :
    Store.Moves codec config horizon scope store (store.persistPlanned codec plan io).1 := by
  unfold Store.persistPlanned
  rw [hrecord]
  simp only [persistRecord_eq]
  by_cases hlength : maximumRecordBytes < codec.length (new.stampedAt codec store.lastNow)
  · rw [if_pos hlength]
    exact h.aside rfl rfl rfl rfl rfl rfl (fun h => h) h.writers
  · rw [if_neg hlength]
    have hgood : store.files.Good codec horizon new.id (new.stampedAt codec store.lastNow) :=
      ⟨hsound, not_lt.1 hlength, h.clock.2, hsupports⟩
    have hmove : ∀ known counted, (scope.counts → counted = new.reservedBytes) →
        Store.Moves codec config horizon scope store { store with
          files := store.files.putRecord new.id (new.stampedAt codec store.lastNow) io.syncs
          records := Dict.set store.records new.id (new.stampedAt codec store.lastNow)
          physicalKnown := known
          reserved := store.reserved + counted } :=
      fun known counted hcounted =>
        .single (.reserve io.syncs known counted hnone hgood le_rfl halone hcount hnonce hcounted hcapacity hreserves)
    -- a rename that is not finished leaves the record in the store, but not in its count
    have huncounted : io ≠ .done → io ≠ .failed → ∀ known, Store.Moves codec config horizon scope store { store with
        files := store.files.putRecord new.id (new.stampedAt codec store.lastNow) io.syncs
        records := Dict.set store.records new.id (new.stampedAt codec store.lastNow)
        physicalKnown := known } := by
      intro hdone hfailed known
      have hno : ¬ scope.counts := fun hc => (hcounts hc).elim hdone hfailed
      have h0 := hmove known 0 fun hc => absurd hc hno
      simpa using h0
    cases io with
    | failed => exact h.aside rfl rfl rfl rfl rfl rfl (fun h => h) h.writers
    | done =>
      have h1 := hmove (store.physicalKnown && !Io.done.forgets) new.reservedBytes fun _ => rfl
      rw [← hreserved] at h1
      exact h1
    | unverified => exact huncounted (by decide) (by decide) _
    | unsynced => exact huncounted (by decide) (by decide) _
    | loose => exact huncounted (by decide) (by decide) _
    | late => exact huncounted (by decide) (by decide) _

/-- A sound plan is performed by moves. -/
theorem perform_moves {store : Store} (h : store.Inv codec config horizon) {plan : Plan} {faults : Faults}
    (hshard : faults.install.shard ≠ .unsynced)
    (hplan : Plan.Sound codec config scope store faults.persist plan) :
    Store.Moves codec config horizon scope store (store.perform codec plan faults).1 := by
  cases hplan with
  | answered answer => exact .refl
  | reserves hrecord hobject hreserved hnone hsound hsupports halone hcount hnonce hcapacity hreserves hcounts =>
    unfold Store.perform Store.installPlanned
    rw [hobject]
    exact persistReserved_moves h hrecord hreserved hnone hsound hsupports halone hcount hnonce hcapacity hreserves
      hcounts
  | @grows id old new _ hrecord hreserved hold hnext hfrees hnonce hsupports =>
    unfold Store.perform Store.installPlanned
    cases hobject : plan.object with
    | none =>
      refine persistPlanned_moves h hrecord hreserved hold hnext hfrees hnonce ?_ _
      exact hsupports store.files (h.get? hold).supported (by rw [hobject]; simp)
    | some row =>
      obtain ⟨digest, object⟩ := row
      have hmoves := installObject_moves scope h none object digest hshard
      obtain ⟨files, heq, hrecords, hkeeps, -⟩ :=
        installObject_frame codec store none object digest faults.install
      simp only
      split
      · rename_i next e hresult
        rw [hresult] at hmoves
        exact hmoves
      · rename_i next hresult
        have hinstalled := installObject_ok hresult
        rw [hresult] at hmoves heq
        have hinv := Store.Moves.inv h hmoves
        refine hmoves.trans ?_
        obtain rfl : next = { store with files := files } := heq
        refine persistPlanned_moves hinv hrecord hreserved hold hnext hfrees hnonce ?_ _
        apply hsupports files
        · apply (h.get? hold).supported.keeps
          intro digest' hd
          obtain ⟨present, hpresent⟩ := (h.get? hold).supported.present hd
          exact hkeeps digest' present hpresent
        · rw [hobject]
          rintro _ ⟨⟩
          exact hinstalled

end Plans

end DittoSubnet.CodingOutbox

import DittoSubnet.CodingOutbox.System

/-!
# How records grow

`Fit` spells out what `validateRecord` demands. `Record.Grows` says what the versions of a record have in common: its
identity, limits and reservation never change, a transcript, a frozen patch, a failure or an outcome stays once it is
there, a publication keeps its authority and its request and changes only to take its acknowledgement, and a released
record stays as it is.

Each way in which a call changes a record gives a fit record that has grown (`collect_next` to `expire_next`).
-/

namespace DittoSubnet.CodingOutbox

open Kit
open Coding (validSHA256 validIdentifier canonicalUUID)

/-! ## Clocks -/

theorem unix_mono {a b : Int} (h : a ≤ b) : unix a ≤ unix b := by
  unfold unix second
  omega

theorem unix_pos {a : Int} (h : second ≤ a) : 0 < unix a := by
  unfold second at h
  unfold unix second
  omega

theorem ofUnix_unix_le (a : Int) : ofUnix (unix a) ≤ a := by
  unfold ofUnix unix second
  omega

theorem validSHA256_ne_empty {value : String} (h : validSHA256 value = true) : value ≠ "" := by
  rintro rfl
  revert h
  decide

section Growth

variable (codec : Codec)

/-! ## Fit records -/

/-- What `validateRecord` demands. -/
structure Record.Fit (record : Record) (id : String) : Prop where
  known : knownFields record id
  limits : record.limits.Validate
  binding : bindingAgrees codec record id
  checksum : recordChecksum codec record = record.checksumSHA256
  shape : stateShape record
  times : timesAgree record
  transcript : transcriptAgrees record
  frozen : frozenAgrees record
  failure : failureAgrees record
  publications : validatePublicationRecords record

theorem validateRecord_eq_ok_iff {record : Record} {id : String} :
    validateRecord codec record id = .ok () ↔ record.Fit codec id := by
  unfold validateRecord
  simp only [ensure_bind_eq_ok_iff, ensure_eq_ok_iff]
  constructor
  · rintro ⟨h1, h2, h3, h4, h5, h6, h7, h8, h9, h10⟩
    exact ⟨h1, h2, h3, h4, h5, h6, h7, h8, h9, h10⟩
  · rintro ⟨h1, h2, h3, h4, h5, h6, h7, h8, h9, h10⟩
    exact ⟨h1, h2, h3, h4, h5, h6, h7, h8, h9, h10⟩

/-! ## Growth -/

/-- A publication changes only to take its acknowledgement. -/
structure PublicationRecord.Grows (older newer : PublicationRecord) : Prop where
  stage : newer.stage = older.stage
  authority : newer.authority = older.authority
  request : newer.request = older.request
  acknowledged : older.acknowledgement.isSome → newer = older

/-- What no later version of a record changes. -/
structure Record.Grows (older newer : Record) : Prop where
  id : newer.id = older.id
  binding : newer.binding = older.binding
  limits : newer.limits = older.limits
  reservedBytes : newer.reservedBytes = older.reservedBytes
  createdAtUnixNano : newer.createdAtUnixNano = older.createdAtUnixNano
  transcript : ∀ transcript ∈ older.transcript, newer.transcript = some transcript
  frozen : ∀ frozen ∈ older.frozen, newer.frozen = some frozen
  failure : ∀ failure ∈ older.failure, newer.failure = some failure
  outcome : older.Sealed → newer.Sealed ∧ newer.outcomeSHA256 = older.outcomeSHA256
  publication : ∀ stage, ∀ p ∈ publicationForStage older stage, ∃ q ∈ publicationForStage newer stage, p.Grows q
  released : older.state = .released → newer = older

theorem PublicationRecord.Grows.refl (publication : PublicationRecord) : publication.Grows publication :=
  ⟨rfl, rfl, rfl, fun _ => rfl⟩

theorem PublicationRecord.Grows.trans {a b c : PublicationRecord} (h : a.Grows b) (h' : b.Grows c) : a.Grows c where
  stage := h'.stage.trans h.stage
  authority := h'.authority.trans h.authority
  request := h'.request.trans h.request
  acknowledged := by
    intro ha
    have hb : b = a := h.acknowledged ha
    subst hb
    exact h'.acknowledged ha

theorem Record.Grows.refl (record : Record) : record.Grows record where
  id := rfl
  binding := rfl
  limits := rfl
  reservedBytes := rfl
  createdAtUnixNano := rfl
  transcript := fun _ h => h
  frozen := fun _ h => h
  failure := fun _ h => h
  outcome := fun h => ⟨h, rfl⟩
  publication := fun _ p hp => ⟨p, hp, .refl p⟩
  released := fun _ => rfl

theorem Record.Grows.trans {a b c : Record} (h : a.Grows b) (h' : b.Grows c) : a.Grows c where
  id := h'.id.trans h.id
  binding := h'.binding.trans h.binding
  limits := h'.limits.trans h.limits
  reservedBytes := h'.reservedBytes.trans h.reservedBytes
  createdAtUnixNano := h'.createdAtUnixNano.trans h.createdAtUnixNano
  transcript := fun t ht => h'.transcript t (h.transcript t ht)
  frozen := fun f hf => h'.frozen f (h.frozen f hf)
  failure := fun f hf => h'.failure f (h.failure f hf)
  outcome := by
    intro ha
    obtain ⟨hb, hab⟩ := h.outcome ha
    obtain ⟨hc, hbc⟩ := h'.outcome hb
    exact ⟨hc, hbc.trans hab⟩
  publication := by
    intro stage p hp
    obtain ⟨q, hq, hpq⟩ := h.publication stage p hp
    obtain ⟨r, hr, hqr⟩ := h'.publication stage q hq
    exact ⟨r, hr, hpq.trans hqr⟩
  released := by
    intro ha
    have hb : b = a := h.released ha
    subst hb
    exact h'.released ha

/-- A version refers to no object that a later one does not refer to. -/
theorem Record.Grows.references {older newer : Record} (h : older.Grows newer) {digest : String}
    (hmem : digest ∈ older.references) : digest ∈ newer.references := by
  have hpublication : ∀ stage, digest ∈ publicationReferences (publicationForStage older stage) →
      digest ∈ publicationReferences (publicationForStage newer stage) := by
    intro stage hd
    cases hp : publicationForStage older stage with
    | none => rw [hp] at hd; simp [publicationReferences] at hd
    | some p =>
      rw [hp] at hd
      obtain ⟨q, hq, hgrows⟩ := h.publication stage p hp
      rw [hq]
      simp only [publicationReferences, List.mem_cons, Option.mem_toList, Option.map_eq_some_iff] at hd ⊢
      rcases hd with rfl | ⟨a, ha, rfl⟩
      · exact .inl (by rw [hgrows.request])
      · have hpq : q = p := hgrows.acknowledged (by rw [ha]; rfl)
        subst hpq
        exact .inr ⟨a, ha, rfl⟩
  simp only [Record.references, List.mem_append, Option.mem_toList, Option.map_eq_some_iff] at hmem ⊢
  rcases hmem with ((⟨t, ht, rfl⟩ | ⟨f, hf, rfl⟩) | ha) | ht
  · exact .inl (.inl (.inl ⟨t, h.transcript t ht, rfl⟩))
  · exact .inl (.inl (.inr ⟨f, h.frozen f hf, rfl⟩))
  · exact .inl (.inr (hpublication .authoringFreeze ha))
  · exact .inr (hpublication .terminalResult ht)

/-! ## The next version of a record -/

/-- A fit record that was sealed no later than it was written. -/
structure Record.Sound (record : Record) (id : String) : Prop where
  fit : record.Fit codec id
  sealedAt : record.sealedAtUnix ≤ unix record.updatedAtUnixNano
  created : second ≤ record.createdAtUnixNano

/-- A sound record that has grown. -/
structure Record.Next (old new : Record) (id : String) : Prop where
  sound : new.Sound codec id
  grows : old.Grows new

/-- A record as it is written at an instant. -/
def Record.stampedAt (record : Record) (now : Int) : Record :=
  let timed := { record with updatedAtUnixNano := now }
  { timed with checksumSHA256 := recordChecksum codec timed }

theorem stamp_eq (store : Store) (record : Record) : store.stamp codec record = record.stampedAt codec store.lastNow :=
  rfl

/-- What a call leaves of a record as it was. -/
structure Record.SameCore (old new : Record) : Prop where
  schema : new.schema = old.schema
  id : new.id = old.id
  binding : new.binding = old.binding
  bindingSHA256 : new.bindingSHA256 = old.bindingSHA256
  limits : new.limits = old.limits
  reservedBytes : new.reservedBytes = old.reservedBytes
  createdAtUnixNano : new.createdAtUnixNano = old.createdAtUnixNano
  generation : new.generation = old.generation + 1

/-- The checks that a change of a record has to meet again. -/
structure Record.Shaped (record : Record) : Prop where
  shape : stateShape record
  times : timesAgree record
  transcript : transcriptAgrees record
  frozen : frozenAgrees record
  failure : failureAgrees record
  publications : validatePublicationRecords record

variable {codec}

theorem Record.SameCore.stamped {old new : Record} {now : Int} (h : old.SameCore new) :
    old.SameCore (new.stampedAt codec now) :=
  ⟨h.schema, h.id, h.binding, h.bindingSHA256, h.limits, h.reservedBytes, h.createdAtUnixNano, h.generation⟩

theorem Record.Fit.created_le {record : Record} {id : String} (h : record.Fit codec id) :
    record.createdAtUnixNano ≤ record.updatedAtUnixNano := h.known.2.2.2.2.2.2.2.2

theorem Record.Fit.id_eq {record : Record} {id : String} (h : record.Fit codec id) : record.id = id := h.known.2.2.1

/-- A change that keeps the core of a fit record and meets the other checks gives a fit record once it is written. -/
theorem fit_stamped {old new : Record} {id : String} {now : Int} (hold : old.Fit codec id) (hcore : old.SameCore new)
    (hnow : old.createdAtUnixNano ≤ now) (hshaped : (new.stampedAt codec now).Shaped) :
    (new.stampedAt codec now).Fit codec id where
  known := by
    obtain ⟨h1, h2, h3, h4, h5, h6, h7, h8, h9⟩ := hold.known
    refine ⟨hcore.schema.trans h1, ?_, hcore.id.trans h3, ?_, codec.digest_valid _, ?_, ?_, ?_, ?_⟩
    · show new.generation ≠ 0
      rw [hcore.generation]
      omega
    · show validSHA256 new.bindingSHA256 = true
      rw [hcore.bindingSHA256]
      exact h4
    · show new.reservedBytes = reservationForPurpose new.binding.purpose new.limits
      rw [hcore.reservedBytes, hcore.binding, hcore.limits]
      exact h6
    · show 0 < new.reservedBytes
      rw [hcore.reservedBytes]
      exact h7
    · show 0 < new.createdAtUnixNano
      rw [hcore.createdAtUnixNano]
      exact h8
    · show new.createdAtUnixNano ≤ now
      rw [hcore.createdAtUnixNano]
      exact hnow
  limits := by
    show new.limits.Validate
    rw [hcore.limits]
    exact hold.limits
  binding := by
    obtain ⟨h1, h2, h3, h4⟩ := hold.binding
    refine ⟨?_, ?_, ?_, ?_⟩
    · show bindingID codec new.binding = id
      rw [hcore.binding]
      exact h1
    · show codec.digest (.binding new.binding) = new.bindingSHA256
      rw [hcore.binding, hcore.bindingSHA256]
      exact h2
    · show validateBindingShape new.binding
      rw [hcore.binding]
      exact h3
    · show validateBindingFresh new.binding new.createdAtUnixNano
      rw [hcore.binding, hcore.createdAtUnixNano]
      exact h4
  checksum := rfl
  shape := hshaped.shape
  times := hshaped.times
  transcript := hshaped.transcript
  frozen := hshaped.frozen
  failure := hshaped.failure
  publications := hshaped.publications

/-- A change that keeps the core of a sound record and meets the other checks gives a sound record once it is
written. -/
theorem sound_stamped {old new : Record} {id : String} {now : Int} (hold : old.Sound codec id)
    (hcore : old.SameCore new) (hnow : old.updatedAtUnixNano ≤ now)
    (hsealed : new.sealedAtUnix ≤ unix now) (hshaped : (new.stampedAt codec now).Shaped) :
    (new.stampedAt codec now).Sound codec id where
  sealedAt := hsealed
  created := by
    show second ≤ new.createdAtUnixNano
    rw [hcore.createdAtUnixNano]
    exact hold.created
  fit := fit_stamped hold.fit hcore (hold.fit.created_le.trans hnow) hshaped

/-! ## Attempts that are not sealed -/

/-- What a record carries only once it is sealed or expired. -/
structure Record.Unsealed (record : Record) : Prop where
  state : record.state = .reserved ∨ record.state = .collecting
  frozen : record.frozen = none
  failure : record.failure = none
  outcome : record.outcomeSHA256 = ""
  sealedAt : record.sealedAtUnix = 0
  authoring : record.authoringPublication = none
  terminal : record.terminalPublication = none
  evidence : record.releaseEvidenceSHA256 = ""
  releasedAt : record.releasedAtUnix = 0
  expiredAt : record.expiredAtUnix = 0

theorem Record.Fit.unsealed {record : Record} {id : String} (h : record.Fit codec id)
    (hstate : record.state = .reserved ∨ record.state = .collecting) : record.Unsealed := by
  obtain ⟨-, hshape, hreleased, hexpired⟩ := h.shape
  have hpublications := h.publications
  have hnot : record.state ≠ .released ∧ record.state ≠ .expired := by
    rcases hstate with hs | hs <;> rw [hs] <;> decide
  obtain ⟨he, hr⟩ := hreleased hnot.1
  unfold validatePublicationRecords at hpublications
  rcases hstate with hs | hs
  · rw [hs] at hshape
    obtain ⟨-, -, hfrozen, hfailure, houtcome, hsealed⟩ := hshape
    rw [if_pos (.inl hs)] at hpublications
    exact ⟨.inl hs, hfrozen, hfailure, houtcome, hsealed, hpublications.1, hpublications.2, he, hr, hexpired hnot.2⟩
  · rw [hs] at hshape
    obtain ⟨-, -, hfrozen, hfailure, houtcome, hsealed⟩ := hshape
    rw [if_pos (.inr (.inl hs))] at hpublications
    exact ⟨.inr hs, hfrozen, hfailure, houtcome, hsealed, hpublications.1, hpublications.2, he, hr, hexpired hnot.2⟩

/-- An unsealed record grows into any record of the same core that keeps its transcript. -/
theorem Record.Unsealed.grows {old new : Record} (h : old.Unsealed) (hcore : old.SameCore new)
    (htranscript : ∀ transcript ∈ old.transcript, new.transcript = some transcript) : old.Grows new where
  id := hcore.id
  binding := hcore.binding
  limits := hcore.limits
  reservedBytes := hcore.reservedBytes
  createdAtUnixNano := hcore.createdAtUnixNano
  transcript := htranscript
  frozen := by
    rw [h.frozen]
    simp
  failure := by
    rw [h.failure]
    simp
  outcome := by
    intro hsealed
    unfold Record.Sealed at hsealed
    rcases h.state with hs | hs <;> rw [hs] at hsealed <;> simp at hsealed
  publication := by
    intro stage p hp
    cases stage with
    | authoringFreeze => simp [publicationForStage, h.authoring] at hp
    | terminalResult => simp [publicationForStage, h.terminal] at hp
  released := by
    intro hreleased
    rcases h.state with hs | hs <;> rw [hs] at hreleased <;> cases hreleased

theorem collect_next {old : Record} {id nonce name : String} {now : Int} (hold : old.Sound codec id)
    (hstate : old.state = .reserved) (hnonce : nonce ≠ "") (hname : validStagingName name = true)
    (hnow : old.updatedAtUnixNano ≤ now) : old.Next codec ((old.collect nonce name).stampedAt codec now) id := by
  have hu := hold.fit.unsealed (.inl hstate)
  have htranscript : old.transcript = none := by
    obtain ⟨-, hshape, -⟩ := hold.fit.shape
    rw [hstate] at hshape
    exact hshape.2.1
  have hpos : 0 < unix now := unix_pos (hold.created.trans (hold.fit.created_le.trans hnow))
  have hcore : old.SameCore (old.collect nonce name) := ⟨rfl, rfl, rfl, rfl, rfl, rfl, rfl, rfl⟩
  have hsealed : (old.collect nonce name).sealedAtUnix ≤ unix now := hu.sealedAt.trans_le hpos.le
  refine ⟨sound_stamped hold hcore hnow hsealed ?_, hu.grows hcore.stamped fun t ht => ht⟩
  refine ⟨?_, ?_, ?_, ?_, ?_, ?_⟩
  · refine ⟨fun h => absurd h hnonce, ⟨fun _ => ⟨hname, htranscript⟩, fun h => absurd h hnonce, hu.frozen, hu.failure,
      hu.outcome, hu.sealedAt⟩, fun _ => ⟨hu.evidence, hu.releasedAt⟩, fun _ => hu.expiredAt⟩
  · simp [timesAgree, Record.Sealed, Record.stampedAt, Record.collect]
  · simp [transcriptAgrees, Record.stampedAt, Record.collect, htranscript]
  · simp [frozenAgrees, Record.stampedAt, Record.collect, hu.frozen]
  · simp [failureAgrees, Record.stampedAt, Record.collect, hu.failure]
  · simp [validatePublicationRecords, Record.stampedAt, Record.collect, hu.authoring, hu.terminal]

theorem transcribed_next {old : Record} {id : String} (artifact : TranscriptArtifact) {now : Int}
    (hold : old.Sound codec id) (hstate : old.state = .collecting) (hnone : old.transcript = none)
    (hkey : artifact.objectKey = objectKeyOf artifact.sha256) (hsha : validSHA256 artifact.sha256 = true)
    (hsize : (artifact.sizeBytes : Int) ≤ old.limits.maxTranscriptBytes) (hnow : old.updatedAtUnixNano ≤ now) :
    old.Next codec ((old.transcribed artifact).stampedAt codec now) id := by
  have hu := hold.fit.unsealed (.inr hstate)
  have hpos : 0 < unix now := unix_pos (hold.created.trans (hold.fit.created_le.trans hnow))
  have hcore : old.SameCore (old.transcribed artifact) := ⟨rfl, rfl, rfl, rfl, rfl, rfl, rfl, rfl⟩
  have hsealed : (old.transcribed artifact).sealedAtUnix ≤ unix now := hu.sealedAt.trans_le hpos.le
  refine ⟨sound_stamped hold hcore hnow hsealed ?_, hu.grows hcore.stamped ?_⟩
  · refine ⟨?_, ?_, ?_, ?_, ?_, ?_⟩
    · refine ⟨fun _ => rfl, ?_, fun _ => ⟨hu.evidence, hu.releasedAt⟩, fun _ => hu.expiredAt⟩
      simp [Record.stampedAt, Record.transcribed, hstate, hu.frozen, hu.failure, hu.outcome, hu.sealedAt]
    · simp [timesAgree, Record.Sealed, Record.stampedAt, Record.transcribed, hstate]
    · simpa [transcriptAgrees, Record.stampedAt, Record.transcribed] using ⟨hkey, hsha, hsize⟩
    · simp [frozenAgrees, Record.stampedAt, Record.transcribed, hu.frozen]
    · simp [failureAgrees, Record.stampedAt, Record.transcribed, hu.failure]
    · simp [validatePublicationRecords, Record.stampedAt, Record.transcribed, hstate, hu.authoring, hu.terminal]
  · rw [hnone]
    simp

theorem expire_next {old : Record} {id : String} {now : Int} (hold : old.Sound codec id)
    (hstate : old.state = .reserved ∨ old.state = .collecting) (hnow : old.updatedAtUnixNano ≤ now) :
    old.Next codec ((old.expire now).stampedAt codec now) id := by
  have hu := hold.fit.unsealed hstate
  have hpos : 0 < unix now := unix_pos (hold.created.trans (hold.fit.created_le.trans hnow))
  have hcore : old.SameCore (old.expire now) := ⟨rfl, rfl, rfl, rfl, rfl, rfl, rfl, rfl⟩
  have hsealed : (old.expire now).sealedAtUnix ≤ unix now := hu.sealedAt.trans_le hpos.le
  refine ⟨sound_stamped hold hcore hnow hsealed ?_, hu.grows hcore.stamped fun t ht => ht⟩
  refine ⟨?_, ?_, ?_, ?_, ?_, ?_⟩
  · refine ⟨fun _ => rfl, ⟨hu.outcome, hu.sealedAt, hu.frozen, hu.failure, rfl, rfl⟩, fun _ => ⟨hu.evidence,
      hu.releasedAt⟩, fun h => absurd rfl h⟩
  · simpa [timesAgree, Record.Sealed, Record.stampedAt, Record.expire] using unix_mono (hold.fit.created_le.trans hnow)
  · exact hold.fit.transcript
  · simp [frozenAgrees, Record.stampedAt, Record.expire, hu.frozen]
  · simp [failureAgrees, Record.stampedAt, Record.expire, hu.failure]
  · simp [validatePublicationRecords, Record.stampedAt, Record.expire, hu.authoring, hu.terminal]

/-- What `StoreFrozen` and `Seal` find of an attempt that is not sealed. -/
theorem open_eq_ok {config : Config} {record : Record} {now : Int} (h : record.open config now = .ok ()) :
    record.state = .collecting ∧ record.writerNonce = "" ∧ record.transcript.isSome := by
  unfold Record.open at h
  simp only [ensure_bind_eq_ok_iff, ensure_eq_ok_iff] at h
  exact h.2

theorem validateSubmissionForRecord_eq_ok {submission : FrozenSubmission} {record : Record}
    (h : validateSubmissionForRecord codec submission record = .ok ()) :
    ∃ transcript, record.transcript = some transcript ∧ submission.caseID = record.binding.caseID ∧
      submission.authoringTranscriptSHA256 = transcript.sha256 ∧
      submission.authoringTranscriptBytes = transcript.sizeBytes ∧
      ValidateFrozenSubmission codec submission record.limits := by
  unfold validateSubmissionForRecord at h
  split at h
  · cases h
  · rename_i transcript ht
    simp only [ensure_bind_eq_ok_iff, ensure_eq_ok_iff] at h
    exact ⟨transcript, ht, h.1.1, h.1.2.1, h.1.2.2, h.2⟩

theorem freeze_next {old : Record} {id : String} {submission : FrozenSubmission} {now : Int} (hold : old.Sound codec id)
    (hstate : old.state = .collecting) (hwriter : old.writerNonce = "")
    (hsubmission : validateSubmissionForRecord codec submission old = .ok ()) (hpatch : submission.patch ≠ [])
    (hnow : old.updatedAtUnixNano ≤ now) :
    old.Next codec ((old.freeze codec submission now).stampedAt codec now) id := by
  have hu := hold.fit.unsealed (.inr hstate)
  obtain ⟨transcript, htranscript, hcase, hsha, hbytes, hvalid⟩ := validateSubmissionForRecord_eq_ok hsubmission
  have hcore : old.SameCore (old.freeze codec submission now) := ⟨rfl, rfl, rfl, rfl, rfl, rfl, rfl, rfl⟩
  have houtcome := codec.digest_valid (.outcome (.submission submission))
  refine ⟨sound_stamped hold hcore hnow le_rfl ?_, hu.grows hcore.stamped fun t ht => ht⟩
  refine ⟨?_, ?_, hold.fit.transcript, ?_, ?_, ?_⟩
  · refine ⟨hold.fit.shape.1, ⟨?_, rfl, hu.failure, validSHA256_ne_empty houtcome, hwriter, hold.fit.shape.1 hwriter⟩,
      fun _ => ⟨hu.evidence, hu.releasedAt⟩, fun _ => hu.expiredAt⟩
    show old.transcript.isSome
    rw [htranscript]
    rfl
  · refine ⟨fun _ => ⟨houtcome, unix_mono (hold.fit.created_le.trans hnow)⟩, fun h => ?_, fun h => ?_⟩ <;> cases h
  · obtain ⟨⟨hversion, -, hvisible, hbase, -, hfrozen, -, hroot, htsha, hpos, -, hsize, -⟩, -⟩ := hvalid
    rintro _ ⟨⟩
    refine ⟨rfl, hfrozen, List.length_pos_iff.2 hpatch, hsize, rfl, rfl, rfl, hcase, hversion, hbase, hvisible, hroot,
      htsha, hpos, ?_⟩
    intro t ht
    have hsame : t = transcript := Option.some.inj ((show old.transcript = some t from ht).symm.trans htranscript)
    subst hsame
    exact ⟨hsha, hbytes⟩
  · simp [failureAgrees, Record.stampedAt, Record.freeze, hu.failure]
  · simp [validatePublicationRecords, Record.stampedAt, Record.freeze, hu.authoring, hu.terminal]

theorem fail_next {old : Record} {id : String} {failure : FreezeFailure} {now : Int} (hold : old.Sound codec id)
    (hstate : old.state = .collecting) (hwriter : old.writerNonce = "") (htranscript : old.transcript.isSome)
    (hfailure : validFailure failure) (hagrees : ∀ transcript ∈ old.transcript,
      failure.authoringTranscriptSHA256 = transcript.sha256 ∧ failure.authoringTranscriptBytes = transcript.sizeBytes)
    (hnow : old.updatedAtUnixNano ≤ now) :
    old.Next codec ((old.fail codec failure now).stampedAt codec now) id := by
  have hu := hold.fit.unsealed (.inr hstate)
  have hcore : old.SameCore (old.fail codec failure now) := ⟨rfl, rfl, rfl, rfl, rfl, rfl, rfl, rfl⟩
  have houtcome := codec.digest_valid (.outcome (.failure failure))
  refine ⟨sound_stamped hold hcore hnow le_rfl ?_, hu.grows hcore.stamped fun t ht => ht⟩
  refine ⟨?_, ?_, hold.fit.transcript, ?_, ?_, ?_⟩
  · exact ⟨hold.fit.shape.1, ⟨htranscript, hu.frozen, rfl, validSHA256_ne_empty houtcome, hwriter,
      hold.fit.shape.1 hwriter⟩, fun _ => ⟨hu.evidence, hu.releasedAt⟩, fun _ => hu.expiredAt⟩
  · refine ⟨fun _ => ⟨houtcome, unix_mono (hold.fit.created_le.trans hnow)⟩, fun h => ?_, fun h => ?_⟩ <;> cases h
  · simp [frozenAgrees, Record.stampedAt, Record.fail, hu.frozen]
  · rintro _ ⟨⟩
    exact ⟨hfailure, htranscript, hagrees⟩
  · simp [validatePublicationRecords, Record.stampedAt, Record.fail, hu.authoring, hu.terminal]

end Growth

end DittoSubnet.CodingOutbox

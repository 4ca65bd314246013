import DittoSubnet.CodingOutbox.Publishing

/-!
# What the files of the outbox keep

`Files.Sound` says of every version of every record that a crash may leave that the loader believes it, that the objects
it refers to have the bytes it names in every version, and that the record as it is now has grown from it.

`Files.Move` lists what a step may do to the files. A move keeps them sound (`Move.sound`), and so does a crash
(`Sound.crashed`). What every version of a record satisfies is kept by the moves that do not delete it
(`Settled.move`).
-/

namespace DittoSubnet.CodingOutbox

open Kit
open Coding (validSHA256)

section Sound

variable (codec : Codec) (config : Config) (horizon : Int)

/-! ## Objects -/

/-- Every version of an object has the bytes of its digest, and they meet a condition. -/
def Files.Holds (files : Files) (digest : String) (p : Bytes → Prop) : Prop :=
  ∀ version, files.objects.Version digest version →
    ∃ object, version = some object ∧ codec.sha256 object.body = digest ∧ p object.body

/-- The documents of a publication are stored, and they are valid for the record. -/
structure Files.Backs (files : Files) (record : Record) (stage : PublicationStage) (publication : PublicationRecord) :
    Prop where
  request : files.Holds codec publication.request.sha256 fun body => body.length = publication.request.sizeBytes ∧
    validatePublicationRequest codec stage record publication.authority body = .ok ()
  acknowledgement : ∀ artifact ∈ publication.acknowledgement,
    files.Holds codec artifact.sha256 fun body => body.length = artifact.sizeBytes ∧
      validatePublicationAcknowledgement codec stage record publication.authority body =
        .ok publication.remoteAuthorityID

/-- All that a record refers to is stored. -/
structure Files.Supports (files : Files) (record : Record) : Prop where
  transcript : ∀ transcript ∈ record.transcript,
    files.Holds codec transcript.sha256 fun body => body.length = transcript.sizeBytes
  frozen : ∀ frozen ∈ record.frozen,
    files.Holds codec frozen.artifact.frozenPatchSHA256 fun body => body.length = frozen.artifact.sizeBytes
  publication : ∀ stage, ∀ publication ∈ publicationForStage record stage, files.Backs codec record stage publication

/-- No version of an object is new. -/
def Files.Keeps (files files' : Files) (digest : String) : Prop :=
  ∀ version, files'.objects.Version digest version → files.objects.Version digest version

variable {codec}

theorem Files.Keeps.refl (files : Files) (digest : String) : files.Keeps files digest := fun _ h => h

theorem Files.Holds.keeps {files files' : Files} {digest : String} {p : Bytes → Prop} (h : files.Holds codec digest p)
    (hkeeps : files.Keeps files' digest) : files'.Holds codec digest p :=
  fun version hv => h version (hkeeps version hv)

theorem Files.Holds.imp {files : Files} {digest : String} {p q : Bytes → Prop} (h : files.Holds codec digest p)
    (hpq : ∀ body, p body → q body) : files.Holds codec digest q := by
  intro version hv
  obtain ⟨object, hobject, hsha, hp⟩ := h version hv
  exact ⟨object, hobject, hsha, hpq _ hp⟩

/-- The object as it is now. -/
theorem Files.Holds.get? {files : Files} {digest : String} {p : Bytes → Prop} (h : files.Holds codec digest p) :
    ∃ object, files.objects.get? digest = some object ∧ codec.sha256 object.body = digest ∧ p object.body :=
  h _ (files.objects.version_get? digest)

/-! ## References -/

theorem mem_references_transcript {record : Record} {transcript : TranscriptArtifact}
    (h : record.transcript = some transcript) : transcript.sha256 ∈ record.references := by
  simp [Record.references, h]

theorem mem_references_frozen {record : Record} {frozen : FrozenRecord} (h : record.frozen = some frozen) :
    frozen.artifact.frozenPatchSHA256 ∈ record.references := by
  simp [Record.references, h]

theorem mem_references_publication {record : Record} {stage : PublicationStage} {publication : PublicationRecord}
    (h : publicationForStage record stage = some publication) {digest : String}
    (hd : digest ∈ publicationReferences (some publication)) : digest ∈ record.references := by
  cases stage with
  | authoringFreeze =>
    replace h : record.authoringPublication = some publication := h
    simp only [Record.references, List.mem_append, h]
    exact .inl (.inr hd)
  | terminalResult =>
    replace h : record.terminalPublication = some publication := h
    simp only [Record.references, List.mem_append, h]
    exact .inr hd

/-- What a record refers to stays stored while its objects do. -/
theorem Files.Supports.keeps {files files' : Files} {record : Record} (h : files.Supports codec record)
    (hkeeps : ∀ digest ∈ record.references, files.Keeps files' digest) : files'.Supports codec record where
  transcript := fun t ht => (h.transcript t ht).keeps (hkeeps _ (mem_references_transcript ht))
  frozen := fun f hf => (h.frozen f hf).keeps (hkeeps _ (mem_references_frozen hf))
  publication := by
    intro stage p hp
    obtain ⟨hrequest, hack⟩ := h.publication stage p hp
    constructor
    · apply hrequest.keeps
      apply hkeeps
      exact mem_references_publication hp (by simp [publicationReferences])
    · intro a ha
      apply (hack a ha).keeps
      apply hkeeps
      apply mem_references_publication hp
      rw [Option.mem_def] at ha
      simp [publicationReferences, ha]

/-- A record refers to nothing that is not stored. -/
theorem Files.Supports.present {files : Files} {record : Record} (h : files.Supports codec record) {digest : String}
    (hd : digest ∈ record.references) : ∃ object, files.objects.get? digest = some object := by
  have hpublication : ∀ stage, digest ∈ publicationReferences (publicationForStage record stage) →
      ∃ object, files.objects.get? digest = some object := by
    intro stage hmem
    cases hp : publicationForStage record stage with
    | none =>
      rw [hp] at hmem
      simp [publicationReferences] at hmem
    | some p =>
      rw [hp] at hmem
      obtain ⟨hrequest, hack⟩ := h.publication stage p hp
      simp only [publicationReferences, List.mem_cons, Option.mem_toList, Option.map_eq_some_iff] at hmem
      rcases hmem with rfl | ⟨a, ha, rfl⟩
      · obtain ⟨object, hobject, -⟩ := hrequest.get?
        exact ⟨object, hobject⟩
      · obtain ⟨object, hobject, -⟩ := (hack a ha).get?
        exact ⟨object, hobject⟩
  simp only [Record.references, List.mem_append, Option.mem_toList, Option.map_eq_some_iff] at hd
  rcases hd with ((⟨t, ht, rfl⟩ | ⟨f, hf, rfl⟩) | ha) | ht
  · obtain ⟨object, hobject, -⟩ := (h.transcript t ht).get?
    exact ⟨object, hobject⟩
  · obtain ⟨object, hobject, -⟩ := (h.frozen f hf).get?
    exact ⟨object, hobject⟩
  · exact hpublication .authoringFreeze ha
  · exact hpublication .terminalResult ht

variable (codec)

/-! ## Shards -/

/-- Every object lies in a shard, and a crash loses no shard. -/
structure Files.Housed (files : Files) : Prop where
  shard : ∀ digest object, files.objects.get? digest = some object → files.shards.get? (shardOf digest) ≠ none
  synced : files.shards.older = []

/-! ## Sound files -/

/-- What every version of a record meets. -/
structure Files.Good (files : Files) (id : String) (record : Record) : Prop where
  sound : record.Sound codec id
  length : codec.length record ≤ maximumRecordBytes
  updated : record.updatedAtUnixNano ≤ horizon
  supported : files.Supports codec record

/-- Two records of one execution. -/
def Record.SameExecution (left right : Record) : Prop :=
  left.binding.purpose = right.binding.purpose ∧ left.binding.executionID = right.binding.executionID

structure Files.Sound (files : Files) : Prop where
  keys : (Dict.keys files.records.files).Nodup
  good : ∀ id record, files.records.Version id (some record) → files.Good codec horizon id record
  grown : ∀ id older, files.records.Version id (some older) →
    ∃ record, files.records.get? id = some record ∧ older.Grows record
  alone : ∀ id id' record record', files.records.get? id = some record → files.records.get? id' = some record' →
    record.SameExecution record' → id = id'
  count : files.records.files.length ≤ config.maxAttempts
  housed : files.Housed

/-- A record that is renamed into place. -/
def Files.putRecord (files : Files) (id : String) (record : Record) (synced : Bool) : Files :=
  { files with
    records := if synced then (files.records.put id record).sync fun _ => true else files.records.put id record }

/-- A record that is unlinked. -/
def Files.dropRecord (files : Files) (id : String) : Files :=
  { files with records := (files.records.drop id).sync fun _ => true }

/-- What a step may do: the attempts it may release, the records it may delete, whether it may reserve, and whether it
then counts what it reserves. -/
structure Scope where
  frees : String → Prop
  drops : Record → Prop
  reserves : Prop
  counts : Prop

variable (scope : Scope)

inductive Files.Move : Files → Files → Prop
  /-- Nothing happens to records, nor to the objects they refer to. -/
  | objects {files files' : Files} (hrecords : files'.records = files.records)
      (hkeeps : ∀ id record, files.records.get? id = some record → ∀ digest ∈ record.references,
        files.Keeps files' digest) (hhoused : files.Housed → files'.Housed) : Files.Move files files'
  | grow {files : Files} {id : String} {old new : Record} (synced : Bool) (hold : files.records.get? id = some old)
      (hgrows : old.Grows new) (hgood : files.Good codec horizon id new)
      (hfrees : new.state = .released → old.state = .released ∨ scope.frees id) :
      Files.Move files (files.putRecord id new synced)
  | reserve {files : Files} {id : String} {new : Record} (synced : Bool) (hnone : files.records.get? id = none)
      (hgood : files.Good codec horizon id new)
      (halone : ∀ id' record, files.records.get? id' = some record → ¬ record.SameExecution new)
      (hcount : files.records.files.length < config.maxAttempts) (hreserves : scope.reserves) :
      Files.Move files (files.putRecord id new synced)
  | drop {files : Files} {id : String} {record : Record} (hrecord : files.records.get? id = some record)
      (hdrops : scope.drops record) : Files.Move files (files.dropRecord id)

variable {codec config horizon scope}

/-! ## Versions after a rename -/

theorem get?_putRecord (files : Files) (id id' : String) (record : Record) (synced : Bool) :
    (files.putRecord id record synced).records.get? id' = if id = id' then some record else files.records.get? id' := by
  cases synced <;> exact Directory.get?_put files.records id id' record

theorem version_putRecord {files : Files} {id id' : String} {record : Record} {synced : Bool}
    {version : Option Record} (h : (files.putRecord id record synced).records.Version id' version) :
    (id = id' ∧ version = some record) ∨ files.records.Version id' version := by
  cases synced with
  | false => exact Directory.version_put.1 h
  | true => exact Directory.version_put.1 (Directory.Version.of_sync (p := fun _ => true) h)

theorem get?_dropRecord (files : Files) (id id' : String) :
    (files.dropRecord id).records.get? id' = if id = id' then none else files.records.get? id' :=
  Directory.get?_drop files.records id id'

/-- After an unlink is synced, the record has no version left. -/
theorem version_dropRecord {files : Files} {id id' : String} {version : Option Record}
    (h : (files.dropRecord id).records.Version id' version) :
    version = if id = id' then none else files.records.get? id' := by
  rcases Directory.version_sync.1 h with rfl | ⟨hfalse, -⟩
  · exact get?_dropRecord files id id'
  · cases hfalse

theorem keys_putRecord {files : Files} (h : (Dict.keys files.records.files).Nodup) (id : String) (record : Record)
    (synced : Bool) : (Dict.keys (files.putRecord id record synced).records.files).Nodup := by
  cases synced <;> exact Directory.keys_put_nodup h id record

@[simp] theorem files_putRecord (files : Files) (id : String) (record : Record) (synced : Bool) :
    (files.putRecord id record synced).records.files = Dict.set files.records.files id record := by
  cases synced <;> rfl

theorem Files.Good.keeps {files files' : Files} {id : String} {record : Record} (h : files.Good codec horizon id record)
    (hkeeps : ∀ digest ∈ record.references, files.Keeps files' digest) : files'.Good codec horizon id record :=
  ⟨h.sound, h.length, h.updated, h.supported.keeps hkeeps⟩

/-! ## Moves keep the files sound -/

/-- The rename of an entry keeps the number of entries that were there. -/
theorem length_set_of_get? {d : Dict String Record} {id : String} {old : Record} (h : Dict.get? d id = some old)
    (new : Record) : (Dict.set d id new).length = d.length := by
  induction d with
  | nil => cases h
  | cons row d ih =>
    obtain ⟨k, v⟩ := row
    by_cases hk : k = id
    · simp [Dict.set, hk]
    · simp only [Dict.get?, hk, if_false] at h
      simp [Dict.set, hk, ih h]

theorem Files.Sound.get? {files : Files} (h : files.Sound codec config horizon) {id : String} {record : Record}
    (hr : files.records.get? id = some record) : files.Good codec horizon id record := by
  apply h.good
  rw [← hr]
  exact files.records.version_get? id

/-- No version refers to an object that the record as it is now does not refer to. -/
theorem Files.Sound.references {files : Files} (h : files.Sound codec config horizon) {id : String} {older : Record}
    (hv : files.records.Version id (some older)) {digest : String} (hd : digest ∈ older.references) :
    ∃ record, files.records.get? id = some record ∧ digest ∈ record.references := by
  obtain ⟨record, hr, hgrows⟩ := h.grown id older hv
  exact ⟨record, hr, hgrows.references hd⟩

theorem Files.Sound.putRecord {files : Files} (h : files.Sound codec config horizon) {id : String} {new : Record}
    (synced : Bool) (hgood : files.Good codec horizon id new)
    (hgrows : ∀ older, files.records.Version id (some older) → older.Grows new)
    (halone : ∀ id' record, id ≠ id' → files.records.get? id' = some record → ¬ record.SameExecution new)
    (hcount : (Dict.set files.records.files id new).length ≤ config.maxAttempts) :
    (files.putRecord id new synced).Sound codec config horizon where
  keys := keys_putRecord h.keys id new synced
  good := by
    intro id' record hv
    rcases version_putRecord hv with ⟨rfl, hrecord⟩ | hv
    · cases hrecord
      exact hgood.keeps fun _ _ _ h => h
    · exact (h.good id' record hv).keeps fun _ _ _ h => h
  grown := by
    intro id' older hv
    rw [get?_putRecord]
    rcases version_putRecord hv with ⟨rfl, holder⟩ | hv
    · rw [if_pos rfl]
      exact ⟨older, holder.symm, .refl older⟩
    · by_cases hid : id = id'
      · subst hid
        rw [if_pos rfl]
        exact ⟨new, rfl, hgrows older hv⟩
      · rw [if_neg hid]
        exact h.grown id' older hv
  alone := by
    intro left right record record' hleft hright hsame
    rw [get?_putRecord] at hleft hright
    by_cases hl : id = left <;> by_cases hr : id = right
    · exact hl.symm.trans hr
    · rw [if_pos hl] at hleft
      rw [if_neg hr] at hright
      cases hleft
      exact absurd ⟨hsame.1.symm, hsame.2.symm⟩ (halone right record' hr hright)
    · rw [if_neg hl] at hleft
      rw [if_pos hr] at hright
      cases hright
      exact absurd hsame (halone left record hl hleft)
    · rw [if_neg hl] at hleft
      rw [if_neg hr] at hright
      exact h.alone left right record record' hleft hright hsame
  count := by
    rw [files_putRecord]
    exact hcount
  housed := ⟨h.housed.shard, h.housed.synced⟩

theorem Files.Move.sound {files files' : Files} (h : files.Sound codec config horizon)
    (hmove : Files.Move codec config horizon scope files files') : files'.Sound codec config horizon := by
  cases hmove with
  | objects hrecords hkeeps hhoused =>
    refine ⟨?_, ?_, ?_, ?_, ?_, hhoused h.housed⟩
    · rw [hrecords]
      exact h.keys
    · rw [hrecords]
      intro id record hv
      apply (h.good id record hv).keeps
      intro digest hd
      obtain ⟨current, hcurrent, hmem⟩ := h.references hv hd
      exact hkeeps id current hcurrent digest hmem
    · rw [hrecords]
      exact h.grown
    · rw [hrecords]
      exact h.alone
    · rw [hrecords]
      exact h.count
  | @grow id old new synced hold hgrows hgood hfrees =>
    refine h.putRecord synced hgood ?_ ?_ ?_
    · intro older hv
      obtain ⟨record, hrecord, hgrown⟩ := h.grown id older hv
      have hsame : record = old := Option.some.inj (hrecord.symm.trans hold)
      subst hsame
      exact hgrown.trans hgrows
    · intro id' record hne hrecord hsame
      apply hne
      refine h.alone id id' old record hold hrecord ?_
      rw [Record.SameExecution, ← hgrows.binding]
      exact ⟨hsame.1.symm, hsame.2.symm⟩
    · rw [length_set_of_get? hold]
      exact h.count
  | @reserve id new synced hnone hgood halone hcount hreserves =>
    refine h.putRecord synced hgood ?_ (fun id' record _ => halone id' record) ?_
    · intro older hv
      obtain ⟨record, hrecord, -⟩ := h.grown id older hv
      cases hnone.symm.trans hrecord
    · rw [Dict.set_of_not_mem (Dict.get?_eq_none_iff.1 hnone), List.length_append]
      exact hcount
  | @drop id record hrecord hdrops =>
    have hversion : ∀ {id' r}, (files.dropRecord id).records.Version id' (some r) →
        id ≠ id' ∧ files.records.get? id' = some r := by
      intro id' r hv
      have heq := version_dropRecord hv
      by_cases hid : id = id'
      · rw [if_pos hid] at heq
        cases heq
      · rw [if_neg hid] at heq
        exact ⟨hid, heq.symm⟩
    refine ⟨Directory.keys_filter_nodup h.keys _, ?_, ?_, ?_, ?_, ⟨h.housed.shard, h.housed.synced⟩⟩
    · intro id' r hv
      exact (h.get? (hversion hv).2).keeps fun _ _ _ h => h
    · intro id' r hv
      obtain ⟨hid, hr⟩ := hversion hv
      exact ⟨r, by rw [get?_dropRecord, if_neg hid, hr], .refl r⟩
    · intro left right r r' hl hr
      rw [get?_dropRecord] at hl hr
      by_cases hidl : id = left
      · rw [if_pos hidl] at hl
        cases hl
      · by_cases hidr : id = right
        · rw [if_pos hidr] at hr
          cases hr
        · rw [if_neg hidl] at hl
          rw [if_neg hidr] at hr
          exact h.alone left right r r' hl hr
    · exact (List.length_filter_le _ _).trans h.count

/-- What a crash leaves of the objects lies in shards that are there. -/
theorem Files.Crashed.housed {files files' : Files} (hcrash : files.Crashed files') : files'.Housed where
  shard := by
    intro digest object hobject hlost
    have hnone := hcrash.objects.lost digest (not_not.2 hlost)
    cases hnone.symm.trans hobject
  synced := hcrash.shards.settled

/-- A crash loses no object that was there. -/
theorem Files.Housed.keeps_crashed {files files' : Files} (h : files.Housed) (hcrash : files.Crashed files')
    {digest : String} {object : Object} (hobject : files.objects.get? digest = some object) :
    files.Keeps files' digest := by
  have hshard : files'.shards.get? (shardOf digest) ≠ none := by
    rcases hcrash.shards.version (shardOf digest) with heq | holder
    · rw [heq]
      exact h.shard digest object hobject
    · rw [h.synced] at holder
      cases holder
  exact fun version hv => Directory.version_crashedIn hcrash.objects hshard hv

/-- Files of which everything is synced are left as they are. -/
theorem Files.Housed.crashed {files : Files} (h : files.Housed) (hrecords : files.records.Crashed files.records)
    (hshards : files.shards.Crashed files.shards) (hobjects : files.objects.Crashed files.objects) :
    files.Crashed files := by
  refine ⟨hrecords, hshards, hobjects.settled, hobjects.nodup, fun digest _ => hobjects.version digest, ?_⟩
  intro digest hlost
  cases hobject : files.objects.get? digest with
  | none => rfl
  | some object => exact absurd (h.shard digest object hobject) hlost

/-- A crash leaves sound files. -/
theorem Files.Sound.crashed {files files' : Files} (h : files.Sound codec config horizon)
    (hcrash : files.Crashed files') : files'.Sound codec config horizon := by
  have hversion : ∀ {id r}, files'.records.Version id (some r) → files.records.Version id (some r) :=
    fun hv => Directory.version_crashed hcrash.records hv
  have hget : ∀ {id r}, files'.records.get? id = some r → files.records.Version id (some r) := by
    intro id r hr
    rw [← hr]
    exact hcrash.records.version id
  refine ⟨hcrash.records.nodup, ?_, ?_, ?_, ?_, hcrash.housed⟩
  · intro id r hv
    have hgood := h.good id r (hversion hv)
    apply hgood.keeps
    intro digest hd version hw
    obtain ⟨object, hobject⟩ := hgood.supported.present hd
    exact h.housed.keeps_crashed hcrash hobject version hw
  · intro id r hv
    rcases hv with hr | hr
    · exact ⟨r, hr.symm, .refl r⟩
    · rw [hcrash.records.settled] at hr
      cases hr
  · intro left right r r' hl hr hsame
    obtain ⟨current, hcurrent, hgrows⟩ := h.grown left r (hget hl)
    obtain ⟨current', hcurrent', hgrows'⟩ := h.grown right r' (hget hr)
    refine h.alone left right current current' hcurrent hcurrent' ?_
    rw [Record.SameExecution, hgrows.binding, hgrows'.binding]
    exact hsame
  · refine (Dict.length_le_of_keys hcrash.records.nodup ?_).trans h.count
    intro id hid
    obtain ⟨r, hr⟩ := Dict.mem_keys_iff.1 hid
    obtain ⟨current, hcurrent, -⟩ := h.grown id r (hget hr)
    exact Dict.mem_keys_iff.2 ⟨current, hcurrent⟩

/-! ## What every version of a record satisfies -/

/-- Whatever a crash leaves of a record satisfies a condition. -/
def Files.Settled (files : Files) (id : String) (q : Record → Prop) : Prop :=
  ∀ version, files.records.Version id version → ∃ record, version = some record ∧ q record

theorem Files.Settled.get? {files : Files} {id : String} {q : Record → Prop} (h : files.Settled id q) :
    ∃ record, files.records.get? id = some record ∧ q record := h _ (files.records.version_get? id)

theorem Files.Settled.crashed {files files' : Files} {id : String} {q : Record → Prop} (h : files.Settled id q)
    (hcrash : files.Crashed files') : files'.Settled id q :=
  fun version hv => h version (Directory.version_crashed hcrash.records hv)

/-- A move keeps what every version of a record satisfies, unless it deletes the record or what changes does not satisfy
it any more. -/
theorem Files.Settled.move {files files' : Files} {id : String} {q : Record → Prop} (h : files.Settled id q)
    (hmove : Files.Move codec config horizon scope files files')
    (hgrow : ∀ old new, q old → old.Grows new → (new.state = .released → old.state = .released ∨ scope.frees id) →
      q new) (hdrop : ∀ record, q record → ¬ scope.drops record) : files'.Settled id q := by
  obtain ⟨current, hcurrent, hq⟩ := h.get?
  cases hmove with
  | objects hrecords hkeeps hhoused =>
    intro version hv
    rw [hrecords] at hv
    exact h version hv
  | @grow id' old new synced hold hgrows hgood hfrees =>
    intro version hv
    rcases version_putRecord hv with ⟨rfl, rfl⟩ | hv
    · have hsame : current = old := Option.some.inj (hcurrent.symm.trans hold)
      subst hsame
      exact ⟨new, rfl, hgrow current new hq hgrows hfrees⟩
    · exact h version hv
  | @reserve id' new synced hnone hgood halone hcount hreserves =>
    intro version hv
    rcases version_putRecord hv with ⟨rfl, -⟩ | hv
    · cases hnone.symm.trans hcurrent
    · exact h version hv
  | @drop id' record hrecord hdrops =>
    intro version hv
    have heq := version_dropRecord hv
    by_cases hid : id' = id
    · subst hid
      have hsame : current = record := Option.some.inj (hcurrent.symm.trans hrecord)
      subst hsame
      exact absurd hdrops (hdrop current hq)
    · rw [if_neg hid] at heq
      exact ⟨current, heq.trans hcurrent, hq⟩

end Sound

end DittoSubnet.CodingOutbox

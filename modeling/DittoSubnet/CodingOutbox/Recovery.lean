import DittoSubnet.CodingOutbox.Loading

/-!
# Recovery of the outbox

On sound files whose reservations fit, `Open` without faults of its own succeeds, and the store then holds exactly the
records of the disk, with the abandoned ones expired (`Open_succeeds`).
-/

namespace DittoSubnet.CodingOutbox

open Kit
open Coding (validSHA256)

section Recovery

variable {codec : Codec} {config : Config} {horizon : Int} {now : Int}

/-! ## The objects of a sound record verify -/

theorem Files.Holds.openObject {store : Store} {digest : String} {size : Nat} {p : Bytes → Prop}
    (h : store.files.Holds codec digest fun body => body.length = size ∧ p body) :
    ∃ body, store.openObject codec digest size = .ok body ∧ p body := by
  obtain ⟨object, hobject, hsha, hlength, hp⟩ := h.get?
  refine ⟨object.body, ?_, hp⟩
  unfold Store.openObject
  rw [hobject]
  simp only
  rw [ensure_bind_pos (by simp [verifyObject, hsha, hlength])]
  rfl

theorem Files.Holds.verifyReference {store : Store} {key digest : String} {size : Nat}
    (h : store.files.Holds codec digest fun body => body.length = size) (hkey : key = objectKeyOf digest)
    (hvalid : validSHA256 digest = true) : store.verifyReference codec key digest size = .ok () := by
  obtain ⟨body, hopen, -⟩ := (h.imp (q := fun body => body.length = size ∧ True) fun _ hp => ⟨hp, trivial⟩).openObject
  unfold Store.verifyReference
  rw [ensure_bind_pos ⟨hkey, hvalid⟩, hopen]
  rfl

theorem Files.Backs.verify {store : Store} {record : Record} {stage : PublicationStage}
    {publication : PublicationRecord} (h : store.files.Backs codec record stage publication)
    (hshape : publicationShape record stage publication) :
    store.verifyPublicationReference codec record publication = .ok () := by
  obtain ⟨hstage, -, -, -, -, -, -, hrequest, hack⟩ := hshape
  obtain ⟨body, hopen, hvalid⟩ := h.request.openObject
  have hread : store.readPublicationArtifact codec publication.request maximumPublicationRequestBytes = .ok body := by
    unfold Store.readPublicationArtifact
    rw [ensure_bind_pos hrequest, hopen]
  unfold Store.verifyPublicationReference
  refine bind_eq_ok_iff.2 ⟨body, hread, ?_⟩
  rw [hstage, ensure_bind_pos hvalid]
  cases hacked : publication.acknowledgement with
  | none => rfl
  | some artifact =>
    obtain ⟨body', hopen', hvalid'⟩ := (h.acknowledgement artifact hacked).openObject
    unfold validAcknowledgementShape at hack
    rw [hacked] at hack
    have hread' : store.readPublicationArtifact codec artifact maximumPublicationAckBytes = .ok body' := by
      unfold Store.readPublicationArtifact
      rw [ensure_bind_pos hack.1, hopen']
    exact bind_eq_ok_iff.2 ⟨body', hread', ensure_eq_ok_iff.2 hvalid'⟩

/-- What a sound record refers to is what the loader demands. -/
theorem verifyReferences_ok {store : Store} {id : String} {record : Record} (hfit : record.Fit codec id)
    (h : store.files.Supports codec record) : store.verifyReferences codec record = .ok () := by
  have htranscript : verifyOptional record.transcript (fun transcript =>
      store.verifyReference codec transcript.objectKey transcript.sha256 transcript.sizeBytes) = .ok () := by
    cases ht : record.transcript with
    | none => rfl
    | some transcript =>
      obtain ⟨hkey, hvalid, -⟩ := hfit.transcript transcript ht
      exact (h.transcript transcript ht).verifyReference hkey hvalid
  have hfrozen : verifyOptional record.frozen (fun frozen =>
      store.verifyReference codec frozen.artifact.objectKey frozen.artifact.frozenPatchSHA256
        frozen.artifact.sizeBytes) = .ok () := by
    cases hf : record.frozen with
    | none => rfl
    | some frozen =>
      obtain ⟨hkey, hvalid, -⟩ := hfit.frozen frozen hf
      exact (h.frozen frozen hf).verifyReference hkey hvalid
  have hpublication : ∀ stage, verifyOptional (publicationForStage record stage)
      (store.verifyPublicationReference codec record) = .ok () := by
    intro stage
    cases hp : publicationForStage record stage with
    | none => rfl
    | some publication => exact (h.publication stage publication hp).verify (hfit.publicationShape hp)
  unfold Store.verifyReferences
  rw [htranscript, hfrozen, show record.authoringPublication = publicationForStage record .authoringFreeze from rfl,
    show record.terminalPublication = publicationForStage record .terminalResult from rfl, hpublication, hpublication]
  rfl

/-! ## Loading without faults -/

/-- An `Open` whose own steps succeed. -/
structure OpenFaults.Clean (faults : OpenFaults) : Prop where
  read : ∀ id, faults.read id = true
  persist : ∀ id, faults.persist id = .done
  scan : faults.scan = true

theorem readRecord_succeeds {files : Files} {id : String} {record : Record} {read : Bool}
    (hgood : files.Good codec horizon id record) (hnow : record.updatedAtUnixNano ≤ now) (hread : read = true) :
    readRecord codec id record now read = .ok () := by
  have hfit := hgood.sound.fit
  have hid : validSHA256 id = true := by
    rw [← hfit.binding.1]
    exact codec.digest_valid _
  have hcreated := hfit.created_le.trans hnow
  have hminute : 0 ≤ 5 * minute := by decide
  unfold readRecord
  rw [ensure_bind_pos hid, ensure_bind_pos ⟨hread, hgood.length⟩, (validateRecord_eq_ok_iff codec).2 hfit]
  exact ensure_eq_ok_iff.2 ⟨by omega, by omega, hcreated, hnow⟩

/-- The rows of a store that is loading are those of other attempts. -/
theorem admitted_succeeds {store : Store} {id : String} {record : Record} {rest : List (String × Record)}
    {records : Dict String Record} {files : Files} {known : Bool}
    (h : store.Loading codec config horizon now ((id, record) :: rest)) {recovered : Record}
    (hrecords : records = store.records ∨ records = Dict.set store.records id recovered) (hid : recovered.id = id)
    (hbinding : recovered.binding = record.binding)
    (hfits : store.reserved + recovered.reservedBytes ≤ config.maxTotalBytes) :
    (Store.admitted config { store with files := files, records := records, physicalKnown := known } recovered).2 =
      .ok () := by
  have hget := h.unread id record (by simp)
  have hother : (records.any fun row => row.1 ≠ recovered.id && row.2.binding.purpose == recovered.binding.purpose &&
      row.2.binding.executionID == recovered.binding.executionID) = false := by
    rw [List.any_eq_false]
    intro row hrow hsame
    simp only [hid, hbinding, ne_eq, Bool.and_eq_true, decide_eq_true_eq, beq_iff_eq] at hsame
    obtain ⟨⟨hne, hpurpose⟩, hexecution⟩ := hsame
    have hmem : Dict.get? store.records row.1 = some row.2 := by
      rcases hrecords with rfl | rfl
      · exact Dict.get?_of_mem h.keys hrow
      · have hrow' := Dict.get?_of_mem (Dict.keys_set_nodup h.keys id recovered) hrow
        rwa [Dict.get?_set, if_neg (Ne.symm hne)] at hrow'
    have hloaded := (h.loaded row.1 row.2 hmem).1
    exact hne (h.files.alone row.1 id row.2 record hloaded hget ⟨hpurpose, hexecution⟩)
  unfold Store.admitted
  simp only [hother, Bool.false_eq_true, if_false]
  rw [if_neg (by omega)]

theorem loadRecord_succeeds {store : Store} {id : String} {record : Record} {rest : List (String × Record)}
    {faults : OpenFaults} (h : store.Loading codec config horizon now ((id, record) :: rest)) (hclean : faults.Clean)
    (hupdated : record.updatedAtUnixNano ≤ now)
    (hcompact : codec.length (record.recovered codec config now) ≤ maximumRecordBytes)
    (hfits : store.reserved + record.reservedBytes ≤ config.maxTotalBytes) :
    (store.loadRecord codec config id record now faults).2 = .ok () := by
  have hget := h.unread id record (by simp)
  have hgood := h.files.get? hget
  have hid := hgood.sound.fit.id_eq
  obtain rfl := h.clock
  have hexpire : (store.expireAbandoned codec config record store.lastNow (faults.persist id)).2 = .ok () := by
    rw [expireAbandoned_eq hid, hclean.persist]
    split
    · rename_i habandoned
      rw [Record.recovered, if_pos habandoned] at hcompact
      rw [if_neg (not_lt.2 hcompact)]
      rfl
    · rfl
  unfold Store.loadRecord
  rw [readRecord_succeeds hgood hupdated (hclean.read id), recovered_eq rfl]
  simp only
  split
  · rename_i next e heq
    rw [heq] at hexpire
    cases hexpire
  · rename_i next heq
    obtain ⟨known, records, rfl, hrecords⟩ := expireAbandoned_ok hid heq
    have hverify : Store.verifyReferences codec { store with
        files := store.files.recover codec config id record store.lastNow
        records := records
        physicalKnown := known } (record.recovered codec config store.lastNow) = .ok () := by
      by_cases habandoned : record.abandoned config store.lastNow
      · obtain ⟨hnext, hsupports⟩ := abandoned_next hgood habandoned hupdated
        unfold Files.recover Record.recovered
        rw [if_pos habandoned, if_pos habandoned]
        exact verifyReferences_ok hnext.sound.fit (hsupports.keeps fun _ _ _ hv => hv)
      · unfold Files.recover Record.recovered
        rw [if_neg habandoned, if_neg habandoned]
        exact verifyReferences_ok hgood.sound.fit (hgood.supported.keeps fun _ _ _ hv => hv)
    rw [hverify]
    refine admitted_succeeds h hrecords ((id_recovered record).trans hid) ?_ ?_
    · unfold Record.recovered
      split <;> rfl
    · rw [reservedBytes_recovered]
      exact hfits

theorem reservedIn_nonneg {d : Dict String Record} (h : ∀ id record, (id, record) ∈ d → 0 < record.reservedBytes) :
    0 ≤ reservedIn d := by
  apply List.sum_nonneg
  intro x hx
  obtain ⟨row, hrow, rfl⟩ := List.mem_map.1 hx
  exact (h row.1 row.2 hrow).le

theorem Store.Loading.reservedBytes_pos {store : Store} {rest : List (String × Record)}
    (h : store.Loading codec config horizon now rest) {id : String} {record : Record} (hmem : (id, record) ∈ rest) :
    0 < record.reservedBytes := (h.files.get? (h.unread id record hmem)).sound.fit.known.2.2.2.2.2.2.1

/-- Every file is loaded when the reservations fit. -/
theorem loadRecords_succeed {faults : OpenFaults} (hclean : faults.Clean) (hnow : now ≤ horizon)
    (rest : List (String × Record)) :
    ∀ {store : Store}, store.Loading codec config horizon now rest →
      (∀ id record, (id, record) ∈ rest → record.updatedAtUnixNano ≤ now) →
      (∀ id record, (id, record) ∈ rest → codec.length (record.recovered codec config now) ≤ maximumRecordBytes) →
      store.reserved + reservedIn rest ≤ config.maxTotalBytes →
      ∃ last, Store.loadRecords codec config now faults rest store = (last, .ok ()) ∧
        (∀ id, Dict.get? last.records id =
          ((Dict.get? rest id).map fun record => record.recovered codec config now).or (Dict.get? store.records id)) ∧
        last.files.objects = store.files.objects ∧ last.files.staging = store.files.staging := by
  induction rest with
  | nil =>
    intro store h _ _ _
    exact ⟨store, rfl, fun id => rfl, rfl, rfl⟩
  | cons file rest ih =>
    intro store h hupdated hcompact hfits
    obtain ⟨id, record⟩ := file
    have hid := (h.files.get? (h.unread id record (by simp))).sound.fit.id_eq
    have hfits' : store.reserved + record.reservedBytes + reservedIn rest ≤ config.maxTotalBytes := by
      rw [reservedIn, Dict.sumRows, List.map_cons, List.sum_cons] at hfits
      rwa [add_assoc]
    have hpos : 0 ≤ reservedIn rest :=
      reservedIn_nonneg fun id' r hmem => h.reservedBytes_pos (List.mem_cons_of_mem _ hmem)
    have hok := loadRecord_succeeds h hclean (hupdated id record (by simp)) (hcompact id record (by simp)) (by omega)
    rw [Store.loadRecords]
    cases hload : store.loadRecord codec config id record now faults with
    | mk next result =>
      rw [hload] at hok
      obtain rfl : result = .ok () := hok
      have hnext := h.next hnow hload
      obtain rfl := h.clock
      obtain ⟨-, -, known, rfl⟩ := loadRecord_ok hid hload
      obtain ⟨last, hlast, hrecords, hobjects, hstaging⟩ := ih hnext
        (fun id' r hmem => hupdated id' r (List.mem_cons_of_mem _ hmem))
        (fun id' r hmem => hcompact id' r (List.mem_cons_of_mem _ hmem)) hfits'
      refine ⟨last, hlast, fun id' => ?_, ?_, ?_⟩
      · rw [hrecords id', Dict.get?_set]
        by_cases he : id = id'
        · subst he
          have hnone : Dict.get? rest id = none :=
            Dict.get?_eq_none_iff.2 (List.nodup_cons.1 h.unreadKeys).1
          rw [hnone, if_pos rfl]
          simp [Dict.get?]
        · simp [Dict.get?, he]
      · rw [hobjects]
        unfold Files.recover
        split <;> rfl
      · rw [hstaging]
        unfold Files.recover
        split <;> rfl

/-! ## Opening without faults -/

theorem Files.Sound.mono {files : Files} {horizon' : Int} (h : files.Sound codec config horizon)
    (hle : horizon ≤ horizon') : files.Sound codec config horizon' where
  keys := h.keys
  good := fun id record hv =>
    let hgood := h.good id record hv
    ⟨hgood.sound, hgood.length, hgood.updated.trans hle, hgood.supported⟩
  grown := h.grown
  alone := h.alone
  count := h.count
  housed := h.housed

/-- Sound files whose reservations fit are opened, and the store holds the records of the disk. -/
theorem Open_succeeds {files : Files} (h : files.Sound codec config horizon) (hvalid : config.Valid)
    {faults : OpenFaults} (hclean : faults.Clean) (hsecond : second ≤ now) (hnow : horizon ≤ now)
    (hcompact : ∀ id record, files.records.get? id = some record →
      codec.length (record.recovered codec config now) ≤ maximumRecordBytes)
    (hfits : reservedIn files.records.files ≤ config.maxTotalBytes)
    (hlimit : files.staging.length + files.objects.files.length ≤ physicalLimit config) :
    ∃ store, files.Open codec config now faults = (store, .ok ()) ∧
      ∀ id, Dict.get? store.records id =
        (files.records.get? id).map fun record => record.recovered codec config now := by
  have hnonzero : now ≠ zeroTime := by
    unfold second at hsecond
    unfold zeroTime second
    omega
  have hload := fresh_loading now (h.mono hnow) hvalid.1.le
  obtain ⟨last, hlast, hrecords, hobjects, hstaging⟩ := loadRecords_succeed hclean le_rfl files.records.files hload
    (fun id record hmem => (h.get? (Dict.get?_of_mem h.keys hmem)).updated.trans hnow)
    (fun id record hmem => hcompact id record (Dict.get?_of_mem h.keys hmem)) (by simpa [Files.fresh] using hfits)
  unfold Files.Open
  rw [if_neg (not_not.2 hvalid), if_neg hnonzero, if_neg (not_lt.2 h.count), hlast]
  have hlimit' : ¬ physicalLimit config < last.files.staging.length + last.files.objects.files.length := by
    rw [hobjects, hstaging]
    exact not_lt.2 hlimit
  simp only [Store.reconcilePhysical, hclean.scan, Bool.not_true, Bool.false_eq_true, if_false]
  rw [if_neg hlimit']
  refine ⟨_, rfl, fun id => ?_⟩
  rw [hrecords id]
  show Option.or _ none = _
  rw [Option.or_none]
  rfl

end Recovery

end DittoSubnet.CodingOutbox

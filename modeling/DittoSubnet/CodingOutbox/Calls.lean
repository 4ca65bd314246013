import DittoSubnet.CodingOutbox.Plans

/-!
# Calls as moves

What each call plans is sound (`plan_sound`), and the calls that are not planned are moves as well. `call_moves` is
about any call, however its steps go.
-/

namespace DittoSubnet.CodingOutbox

open Kit
open Coding (validSHA256)

/-! ## What a call may do -/

def Request.scope (request : Request) (persist : Io) : Scope where
  frees id := ∃ evidence, request = .release id evidence
  drops _ := False
  reserves := ∃ binding limits, request = .reserve binding limits
  counts := (∃ binding limits, request = .reserve binding limits) → persist = .done ∨ persist = .failed

/-- What is assumed of a call: no shard that it makes is left unsynced, a new nonce is not one that a writer has, a
document has not the digest of other bytes that are stored, and a commit that is tried again finds what it installed
stored for good. -/
def Store.Clean (codec : Codec) (store : Store) (request : Request) (faults : Faults) : Prop :=
  faults.install.shard ≠ .unsynced ∧ match request with
  | .beginTranscript _ => ∀ writer ∈ store.writers, writer.nonce ≠ faults.nonce.text
  | .preparePublication _ _ _ body | .acknowledgePublication _ _ _ body =>
    ∀ object, store.files.objects.get? (codec.sha256 body) = some object → object.body = body
  | .commit index _ => ∀ writer, store.writers[index]? = some writer → writer.installed = true →
      ∀ version, store.files.objects.Version (codec.sha256 writer.body) version →
        version = store.files.objects.get? (codec.sha256 writer.body)
  | _ => True

section Calls

variable {codec : Codec} {config : Config} {horizon : Int} {scope : Scope} {persist : Io}

/-! ## Reservations -/

theorem newRecord_sound {binding : Binding} {limits : Limits} {now : Int} (hlimits : limits.Validate)
    (hshape : validateBindingShape binding) (hfresh : validateBindingFresh binding now)
    (hpos : 0 < reservationForPurpose binding.purpose limits) (hnow : second ≤ now) :
    ((newRecord codec binding limits now).stampedAt codec now).Sound codec (bindingID codec binding) := by
  have hnow' : 0 < now := by
    unfold second at hnow
    omega
  refine ⟨?_, (unix_pos hnow).le, hnow⟩
  refine ⟨?_, hlimits, ⟨rfl, rfl, hshape, hfresh⟩, rfl, ?_, ?_, ?_, ?_, ?_, ?_⟩
  · exact ⟨rfl, Nat.one_ne_zero, rfl, codec.digest_valid _, codec.digest_valid _, rfl, hpos, hnow', le_rfl⟩
  · simp [stateShape, Record.noWriter, Record.stampedAt, newRecord]
  · simp [timesAgree, Record.Sealed, Record.stampedAt, newRecord]
  · simp [transcriptAgrees, Record.stampedAt, newRecord]
  · simp [frozenAgrees, Record.stampedAt, newRecord]
  · simp [failureAgrees, Record.stampedAt, newRecord]
  · simp [validatePublicationRecords, Record.stampedAt, newRecord]

theorem Reserve_sound {store : Store} (h : store.Inv codec config horizon) {binding : Binding} {limits : Limits}
    {plan : Plan} (hcheck : (Request.reserve binding limits).check config = .ok ())
    (hreserves : scope.reserves) (hcounts : scope.counts → persist = .done ∨ persist = .failed)
    (hplan : store.Reserve codec config binding limits store.lastNow = .ok plan) :
    Plan.Sound codec config scope store persist plan := by
  simp only [Request.check, ensure_bind_eq_ok_iff, ensure_eq_ok_iff] at hcheck
  obtain ⟨⟨hlimits, hshape⟩, hpos, -⟩ := hcheck
  unfold Store.Reserve at hplan
  simp only at hplan
  split at hplan
  · simp only [ensure_bind_eq_ok_iff, pure_eq_ok_iff] at hplan
    rw [← hplan.2]
    exact .answered _
  · rename_i hnone
    simp only [ensure_bind_eq_ok_iff, pure_eq_ok_iff] at hplan
    obtain ⟨halone, hfresh, ⟨-, hcount, hcapacity⟩, rfl⟩ := hplan
    refine .reserves rfl rfl rfl hnone
      (newRecord_sound hlimits hshape hfresh hpos h.clock.1) ?_ ?_ hcount rfl hcapacity hreserves hcounts
    · refine .unpublished rfl rfl ?_ ?_
      · rintro t ⟨⟩
      · rintro f ⟨⟩
    · intro id record hr hsame
      exact halone (id, record) (Dict.mem_of_get? hr) hsame

theorem Lookup_sound {store : Store} {purpose : Purpose} {executionID : String} {plan : Plan}
    (hplan : store.Lookup purpose executionID = .ok plan) : Plan.Sound codec config scope store persist plan := by
  unfold Store.Lookup at hplan
  split at hplan
  · cases hplan
  · cases hplan
    exact .answered _
  · cases hplan

/-! ## Outcomes -/

theorem recordForAttempt_eq_ok {store : Store} {id : String} {record : Record} :
    store.recordForAttempt id = .ok record ↔ Dict.get? store.records id = some record := by
  unfold Store.recordForAttempt
  cases Dict.get? store.records id <;> simp

theorem StoreFrozen_sound {store : Store} (h : store.Inv codec config horizon) {id : String}
    {submission : FrozenSubmission} {plan : Plan} (hpatch : submission.patch ≠ [])
    (hplan : store.StoreFrozen codec config id submission store.lastNow = .ok plan) :
    Plan.Sound codec config scope store persist plan := by
  unfold Store.StoreFrozen at hplan
  obtain ⟨record, hrecord, hplan⟩ := bind_eq_ok_iff.1 hplan
  rw [check_bind_eq_ok_iff] at hplan
  obtain ⟨hsubmission, hplan⟩ := hplan
  have hold := recordForAttempt_eq_ok.1 hrecord
  have hgood := h.get? hold
  simp only at hplan
  split at hplan
  · rw [ensure_bind_eq_ok_iff, check_bind_eq_ok_iff, pure_eq_ok_iff] at hplan
    rw [← hplan.2.2]
    exact .answered _
  · rw [check_bind_eq_ok_iff, ensure_bind_eq_ok_iff, pure_eq_ok_iff] at hplan
    obtain ⟨hopen, -, rfl⟩ := hplan
    obtain ⟨hstate, hwriter, -⟩ := open_eq_ok hopen
    have hu := hgood.sound.fit.unsealed (.inr hstate)
    refine .grows rfl rfl hold (freeze_next hgood.sound hstate hwriter hsubmission hpatch (h.written id record hold))
      (fun hs => by cases hs) rfl fun files hfiles hinstalled => ?_
    refine .unpublished hu.authoring hu.terminal hfiles.transcript ?_
    rintro _ ⟨⟩
    exact (hinstalled _ rfl).holds fun body _ hlength _ => hlength

theorem Seal_sound {store : Store} (h : store.Inv codec config horizon) {id : String} {result : FreezeResult}
    {plan : Plan} (hplan : store.Seal codec config id result store.lastNow = .ok plan) :
    Plan.Sound codec config scope store persist plan := by
  unfold Store.Seal at hplan
  obtain ⟨record, hrecord, hplan⟩ := bind_eq_ok_iff.1 hplan
  have hold := recordForAttempt_eq_ok.1 hrecord
  have hgood := h.get? hold
  split at hplan
  · rw [ensure_bind_eq_ok_iff, pure_eq_ok_iff] at hplan
    rw [← hplan.2]
    exact .answered _
  · rw [check_bind_eq_ok_iff] at hplan
    obtain ⟨hopen, hplan⟩ := hplan
    obtain ⟨hstate, hwriter, htranscript⟩ := open_eq_ok hopen
    have hu := hgood.sound.fit.unsealed (.inr hstate)
    cases result with
    | submission submission =>
      -- a record that is still collecting has no frozen patch
      simp only [hu.frozen] at hplan
      cases hplan
    | failure failure =>
      simp only at hplan
      rw [ensure_bind_eq_ok_iff, pure_eq_ok_iff] at hplan
      obtain ⟨⟨-, hfailure, hagrees⟩, rfl⟩ := hplan
      refine .grows rfl rfl hold (fail_next hgood.sound hstate hwriter htranscript hfailure hagrees
        (h.written id record hold)) (fun hs => by cases hs) rfl fun files hfiles _ => ?_
      exact .unpublished hu.authoring hu.terminal hfiles.transcript hfiles.frozen

/-! ## Publications -/

theorem sameEvidence_withPublication (old : Record) (stage : PublicationStage) (publication : PublicationRecord)
    (now : Int) : old.SameEvidence ((old.withPublication stage publication).stampedAt codec now) := by
  cases stage <;> exact ⟨rfl, rfl, rfl⟩

@[simp] theorem state_withPublication (old : Record) (stage : PublicationStage) (publication : PublicationRecord) :
    (old.withPublication stage publication).state = old.state := by
  cases stage <;> rfl

@[simp] theorem writerNonce_withPublication (old : Record) (stage : PublicationStage)
    (publication : PublicationRecord) : (old.withPublication stage publication).writerNonce = old.writerNonce := by
  cases stage <;> rfl

/-- A record stays supported when the documents of its new publication are stored. -/
theorem supports_withPublication {files : Files} {old : Record} {stage : PublicationStage}
    {publication : PublicationRecord} {now : Int} (h : files.Supports codec old)
    (hbacks : files.Backs codec old stage publication) :
    files.Supports codec ((old.withPublication stage publication).stampedAt codec now) := by
  refine h.publish (sameEvidence_withPublication old stage publication now) fun stage' p hp => ?_
  rw [Option.mem_def, publicationForStage_withPublication] at hp
  split at hp
  · rename_i hstage
    cases hp
    rw [hstage]
    exact .inr hbacks
  · exact .inl hp

/-- The bytes of a document, once it is installed, are those that were given. -/
theorem Files.Installed.document {before files : Files} {body : Bytes} {now : Int} {p : Bytes → Prop}
    (h : Files.Installed codec before files (codec.sha256 body) ⟨body, now⟩)
    (hunmixed : ∀ object, before.objects.get? (codec.sha256 body) = some object → object.body = body) (hp : p body) :
    files.Holds codec (codec.sha256 body) p := by
  refine h.holds fun body' _ _ hsource => ?_
  rcases hsource with hsource | rfl
  · obtain ⟨object, hobject, rfl⟩ := Option.map_eq_some_iff.1 hsource
    rw [hunmixed object hobject]
    exact hp
  · exact hp

theorem preparePublication_sound {store : Store} (h : store.Inv codec config horizon) {id : String}
    {stage : PublicationStage} {authority : PublicationAuthority} {body : Bytes} {plan : Plan} (hbody : body ≠ [])
    (hlength : body.length ≤ maximumPublicationRequestBytes)
    (hunmixed : ∀ object, store.files.objects.get? (codec.sha256 body) = some object → object.body = body)
    (hplan : store.preparePublication codec config id stage authority body store.lastNow = .ok plan) :
    Plan.Sound codec config scope store persist plan := by
  unfold Store.preparePublication at hplan
  obtain ⟨record, hrecord, hplan⟩ := bind_eq_ok_iff.1 hplan
  rw [ensure_bind_eq_ok_iff, ensure_bind_eq_ok_iff, check_bind_eq_ok_iff] at hplan
  obtain ⟨⟨hpurpose, hauthority⟩, hmanifest, hrequest, hplan⟩ := hplan
  have hold := recordForAttempt_eq_ok.1 hrecord
  have hgood := h.get? hold
  simp only at hplan
  split at hplan
  · rw [ensure_bind_eq_ok_iff, check_bind_eq_ok_iff, pure_eq_ok_iff] at hplan
    rw [← hplan.2.2]
    exact .answered _
  · rename_i hnone
    rw [ensure_bind_eq_ok_iff, ensure_bind_eq_ok_iff, check_bind_eq_ok_iff, pure_eq_ok_iff] at hplan
    obtain ⟨hdeadline, -, hmay, rfl⟩ := hplan
    refine .grows rfl rfl hold (prepare_next hgood.sound hpurpose hauthority hmanifest hbody hlength hnone hmay
      hdeadline (h.written id record hold)) (fun hs => .inl (by simpa using hs)) (by simp)
      fun files hfiles hinstalled => supports_withPublication hfiles ⟨?_, by simp⟩
    exact (hinstalled _ rfl).document hunmixed ⟨rfl, hrequest⟩

theorem acknowledgePublication_sound {store : Store} (h : store.Inv codec config horizon) {id : String}
    {stage : PublicationStage} {requestSHA256 : String} {body : Bytes} {plan : Plan} (hbody : body ≠ [])
    (hlength : body.length ≤ maximumPublicationAckBytes)
    (hunmixed : ∀ object, store.files.objects.get? (codec.sha256 body) = some object → object.body = body)
    (hplan : store.acknowledgePublication codec config id stage requestSHA256 body store.lastNow = .ok plan) :
    Plan.Sound codec config scope store persist plan := by
  unfold Store.acknowledgePublication at hplan
  obtain ⟨record, hrecord, hplan⟩ := bind_eq_ok_iff.1 hplan
  have hold := recordForAttempt_eq_ok.1 hrecord
  have hgood := h.get? hold
  simp only at hplan
  split at hplan
  · cases hplan
  · rename_i publication hp
    rw [ensure_bind_eq_ok_iff] at hplan
    obtain ⟨⟨-, rfl⟩, hplan⟩ := hplan
    obtain ⟨remoteID, hack, hplan⟩ := bind_eq_ok_iff.1 hplan
    split at hplan
    · rw [ensure_bind_eq_ok_iff, check_bind_eq_ok_iff, pure_eq_ok_iff] at hplan
      rw [← hplan.2.2]
      exact .answered _
    · rename_i hnone
      rw [ensure_bind_eq_ok_iff, pure_eq_ok_iff] at hplan
      obtain ⟨-, rfl⟩ := hplan
      refine .grows rfl rfl hold (acknowledge_next hgood.sound hp hnone hack hbody hlength (h.written id record hold))
        (fun hs => .inl (by simpa using hs)) (by simp) fun files hfiles hinstalled => ?_
      refine supports_withPublication hfiles ⟨(hfiles.publication stage publication hp).request, ?_⟩
      rintro _ ⟨⟩
      exact (hinstalled _ rfl).document hunmixed ⟨rfl, hack⟩

theorem Release_sound {store : Store} (h : store.Inv codec config horizon) {id evidence : String} {plan : Plan}
    (hevidence : validSHA256 evidence = true) (hfrees : scope.frees id)
    (hplan : store.Release id evidence store.lastNow = .ok plan) :
    Plan.Sound codec config scope store persist plan := by
  unfold Store.Release at hplan
  obtain ⟨record, hrecord, hplan⟩ := bind_eq_ok_iff.1 hplan
  have hold := recordForAttempt_eq_ok.1 hrecord
  have hgood := h.get? hold
  split at hplan
  · rw [ensure_bind_eq_ok_iff, pure_eq_ok_iff] at hplan
    rw [← hplan.2]
    exact .answered _
  · rw [ensure_bind_eq_ok_iff, ensure_bind_eq_ok_iff, ensure_bind_eq_ok_iff, pure_eq_ok_iff] at hplan
    obtain ⟨hstate, hack, hsame, rfl⟩ := hplan
    refine .grows rfl rfl hold (release_next hgood.sound hstate hevidence hack hsame (h.written id record hold))
      (fun _ => .inr hfrees) rfl fun files hfiles _ => ?_
    exact hfiles.publish ⟨rfl, rfl, rfl⟩ fun stage p hp => .inl hp

/-! ## Reads -/

theorem OpenTranscript_sound {store : Store} {id : String} {plan : Plan}
    (hplan : store.OpenTranscript codec id = .ok plan) : Plan.Sound codec config scope store persist plan := by
  unfold Store.OpenTranscript at hplan
  split at hplan
  · cases hplan
  · obtain ⟨body, -, hplan⟩ := bind_eq_ok_iff.1 hplan
    rw [pure_eq_ok_iff] at hplan
    rw [← hplan]
    exact .answered _

theorem openPublicationPart_sound {store : Store} {id : String} {stage : PublicationStage} {acknowledgement : Bool}
    {plan : Plan} (hplan : store.openPublicationPart codec id stage acknowledgement = .ok plan) :
    Plan.Sound codec config scope store persist plan := by
  unfold Store.openPublicationPart at hplan
  split at hplan
  · cases hplan
  · obtain ⟨body, -, hplan⟩ := bind_eq_ok_iff.1 hplan
    rw [pure_eq_ok_iff] at hplan
    rw [← hplan]
    exact .answered _

/-! ## Planned calls -/

/-- What a call plans is sound. -/
theorem plan_sound {store : Store} (h : store.Inv codec config horizon) {request : Request} (faults : Faults)
    {plan : Plan} (hcheck : request.check config = .ok ()) (hclean : store.Clean codec request faults)
    (hplan : store.plan codec config request store.lastNow = .ok plan) :
    Plan.Sound codec config (request.scope faults.persist) store faults.persist plan := by
  cases request with
  | reserve binding limits => 
    exact Reserve_sound h hcheck ⟨binding, limits, rfl⟩ (fun hcounts => hcounts ⟨binding, limits, rfl⟩) hplan
  | lookup purpose executionID => exact Lookup_sound hplan
  | storeFrozen id submission =>
    simp only [Request.check, ensure_eq_ok_iff] at hcheck
    exact StoreFrozen_sound h hcheck hplan
  | «seal» id result => exact Seal_sound h hplan
  | preparePublication id stage authority body =>
    simp only [Request.check, ensure_eq_ok_iff] at hcheck
    exact preparePublication_sound h hcheck.1 hcheck.2 hclean.2 hplan
  | acknowledgePublication id stage requestSHA256 body =>
    simp only [Request.check, ensure_eq_ok_iff] at hcheck
    exact acknowledgePublication_sound h hcheck.1 hcheck.2 hclean.2 hplan
  | openTranscript id => exact OpenTranscript_sound hplan
  | openPublicationPart id stage acknowledgement => exact openPublicationPart_sound hplan
  | release id evidence =>
    simp only [Request.check, ensure_eq_ok_iff] at hcheck
    exact Release_sound h hcheck.2 ⟨evidence, rfl⟩ hplan
  | beginTranscript id => cases hplan
  | write writer body => cases hplan
  | commit writer identity => cases hplan
  | abort writer => cases hplan

theorem planned_moves {store : Store} (h : store.Inv codec config horizon) {request : Request} {now : Int}
    {faults : Faults} (hnow : now ≤ horizon) (hclean : store.Clean codec request faults) :
    Store.Moves codec config horizon (request.scope faults.persist) store
      (store.planned codec config request now faults).1 := by
  have hticks := checkOpenAndClock_moves (request.scope faults.persist) h hnow faults.root
  unfold Store.planned
  split
  · exact .refl
  · rename_i hcheck
    split
    · rename_i ticked e heq
      rw [heq] at hticks
      exact hticks
    · rename_i ticked heq
      rw [heq] at hticks
      have hinv := Store.Moves.inv h hticks
      obtain rfl := checkOpenAndClock_ok heq
      split
      · exact hticks
      · rename_i plan hplan
        have hsound := plan_sound hinv faults hcheck ⟨hclean.1, by cases request <;> exact hclean.2⟩ hplan
        exact hticks.trans (perform_moves hinv hclean.1 hsound)

/-! ## Transcripts -/

theorem maxTranscriptBytes_pos {limits : Limits} (h : limits.Validate) : 0 < limits.maxTranscriptBytes := by
  have h1 := h.1
  omega

theorem Leaf.ne_empty (leaf : Leaf) : leaf.text ≠ "" := by
  intro h
  have hlength := leaf.hex.1
  rw [h] at hlength
  cases hlength

theorem Leaf.validStagingName (leaf : Leaf) : validStagingName (transcriptPrefix ++ leaf.text) = true := by
  obtain ⟨hlength, hhex⟩ := leaf.hex
  have hlist : (transcriptPrefix ++ leaf.text).toList = transcriptPrefix.toList ++ leaf.text.toList :=
    String.toList_append
  have hprefix : transcriptPrefix.toList.length = 11 := by decide
  unfold CodingOutbox.validStagingName
  rw [hlist, List.drop_left' hprefix, List.length_append, hlength, hprefix]
  simp only [List.isPrefixOf_iff_prefix, List.prefix_append, Bool.and_eq_true, beq_iff_eq]
  exact ⟨⟨trivial, trivial⟩, hhex⟩

theorem setWriter_within {store : Store} (h : store.Inv codec config horizon) {index : Nat} {writer : Writer}
    (hw : writer.Within store.records) : ∀ other ∈ store.writers.set index writer, other.Within store.records := by
  intro other hother
  rcases List.mem_or_eq_of_mem_set hother with hmem | rfl
  · exact h.writers other hmem
  · exact hw

theorem setWriter_moves (scope : Scope) {store : Store} (h : store.Inv codec config horizon) (index : Nat)
    (writer : Writer) (hw : writer.Within store.records) :
    Store.Moves codec config horizon scope store (store.setWriter index writer) :=
  h.aside rfl rfl rfl rfl rfl rfl (fun h => h) (setWriter_within h hw)

theorem BeginTranscript_moves {store : Store} (h : store.Inv codec config horizon) {id : String} {faults : Faults}
    (hclean : ∀ writer ∈ store.writers, writer.nonce ≠ faults.nonce.text) :
    Store.Moves codec config horizon scope store
      (store.BeginTranscript codec config id store.lastNow faults).1 := by
  unfold Store.BeginTranscript
  simp only
  split
  · exact .refl
  · rename_i record hrecord
    unfold Store.beginRecord at hrecord
    obtain ⟨old, hold, hrecord⟩ := bind_eq_ok_iff.1 hrecord
    rw [recordForAttempt_eq_ok] at hold
    rw [ensure_bind_eq_ok_iff, ensure_bind_eq_ok_iff, pure_eq_ok_iff] at hrecord
    obtain ⟨⟨hstate, -, -, -⟩, -, rfl⟩ := hrecord
    have hgood := h.get? hold
    split
    · exact .refl
    · have hnext := collect_next hgood.sound hstate faults.nonce.ne_empty faults.leaf.validStagingName
        (h.written id old hold)
      have hmoves := persistRecord_moves config scope hold hnext
        (hgood.supported.publish ⟨rfl, rfl, rfl⟩ fun stage p hp => .inl hp) h.clock.2 (fun hs => by cases hs)
        (.inr hclean) faults.persist
      obtain ⟨hwriters, -⟩ := persistRecord_frame codec store
        (old.collect faults.nonce.text (transcriptPrefix ++ faults.leaf.text)) faults.persist
      split
      · rename_i next e heq
        rw [heq] at hmoves
        exact hmoves
      · rename_i next heq
        rw [heq] at hmoves
        have hinv := Store.Moves.inv h hmoves
        refine hmoves.trans (hinv.aside rfl rfl rfl rfl rfl rfl (fun h => h) ?_)
        intro writer hw
        rcases List.mem_append.1 hw with hw | hw
        · exact hinv.writers writer hw
        · obtain rfl := List.mem_singleton.1 hw
          refine ⟨faults.nonce.ne_empty, fun r hr _ => ?_⟩
          exact (maxTranscriptBytes_pos (hinv.get? hr).sound.fit.limits).le

theorem foldl_accept (bytes : Bytes) : ∀ writer : Writer,
    (bytes.foldl Writer.accept writer).recordID = writer.recordID ∧
      (bytes.foldl Writer.accept writer).nonce = writer.nonce ∧
      (bytes.foldl Writer.accept writer).body = writer.body ++ bytes := by
  induction bytes with
  | nil => simp
  | cons byte bytes ih =>
    intro writer
    obtain ⟨h1, h2, h3⟩ := ih (writer.accept byte)
    have haccept : (writer.accept byte).recordID = writer.recordID ∧ (writer.accept byte).nonce = writer.nonce ∧
        (writer.accept byte).body = writer.body ++ [byte] := by
      unfold Writer.accept
      split <;> exact ⟨rfl, rfl, rfl⟩
    obtain ⟨h1', h2', h3'⟩ := haccept
    refine ⟨h1.trans h1', h2.trans h2', ?_⟩
    rw [List.foldl_cons, h3, h3', List.append_assoc]
    rfl

theorem Write_moves {store : Store} (h : store.Inv codec config horizon) (index : Nat) (body : Bytes) (now : Int)
    (faults : Faults) :
    Store.Moves codec config horizon scope store (store.Write index body now faults).1 := by
  unfold Store.Write
  split
  · exact .refl
  · rename_i writer hwriter
    have hwithin := h.writers writer (List.mem_of_getElem? hwriter)
    split
    · exact .refl
    · split
      · exact .refl
      · rename_i record hrecord
        split
        · exact .refl
        · split
          · exact .refl
          · rename_i hcapacity
            obtain ⟨hid, hnonce, hbody⟩ := foldl_accept (body.take (faults.accepted.getD body.length)) writer
            refine h.aside rfl rfl rfl rfl rfl rfl (fun h => h) (setWriter_within h ⟨?_, fun r hr _ => ?_⟩)
            · rw [hnonce]
              exact hwithin.1
            · rw [hid, hrecord] at hr
              cases hr
              rw [hbody, List.length_append]
              have htake := List.length_take_le' (faults.accepted.getD body.length) body
              push_cast
              omega

/-- A transcript that is in place is stored for good, and nothing else has changed. -/
theorem placeTranscript_moves (scope : Scope) {store : Store} (faults : Faults) (h : store.Inv codec config horizon)
    {index : Nat} {writer : Writer} {digest : String} (hwriter : store.writers[index]? = some writer)
    (hshard : faults.install.shard ≠ .unsynced)
    (hclean : writer.installed = true → ∀ version, store.files.objects.Version digest version →
      version = store.files.objects.get? digest) :
    Store.Moves codec config horizon scope store (store.placeTranscript codec index writer digest faults).1 ∧
      (∀ next, store.placeTranscript codec index writer digest faults = (next, .ok ()) →
        next.records = store.records ∧ next.lastNow = store.lastNow ∧
        next.files.Holds codec digest fun body => body.length = writer.body.length) := by
  have hwithin := h.writers writer (List.mem_of_getElem? hwriter)
  unfold Store.placeTranscript
  split
  · rename_i hinstalled
    split
    · exact ⟨.refl, fun next hnext => by cases hnext⟩
    · rename_i body hopen
      refine ⟨.refl, fun next hnext => ?_⟩
      obtain rfl := (Prod.ext_iff.1 hnext).1
      refine ⟨rfl, rfl, fun version hv => ?_⟩
      have hget := hclean hinstalled version hv
      unfold Store.openObject at hopen
      split at hopen
      · cases hopen
      · rename_i object hobject
        rw [ensure_bind_eq_ok_iff] at hopen
        have hverify := hopen.1
        simp only [verifyObject, Bool.and_eq_true, beq_iff_eq] at hverify
        exact ⟨object, hget.trans hobject, hverify.2, hverify.1⟩
  · split
    · exact ⟨.refl, fun next hnext => by cases hnext⟩
    · simp only
      have hset := setWriter_moves scope h index { writer with sealed := true, closed := true } hwithin
      have hinv := Store.Moves.inv h hset
      split
      · exact ⟨hset, fun next hnext => by cases hnext⟩
      · rename_i staged hstaged
        have hmoves := installObject_moves scope hinv (some writer.name) ⟨writer.body, staged.modified⟩
          digest hshard
        obtain ⟨files, heq, -, -⟩ := installObject_frame codec
          (store.setWriter index { writer with sealed := true, closed := true }) (some writer.name)
          ⟨writer.body, staged.modified⟩ digest faults.install
        split
        · rename_i next e hresult
          rw [hresult] at hmoves
          exact ⟨hset.trans hmoves, fun next hnext => by cases hnext⟩
        · rename_i next hresult
          have hinstalled := installObject_ok hresult
          rw [hresult] at hmoves heq
          obtain rfl : next = { store.setWriter index { writer with sealed := true, closed := true } with
            files := files } := heq
          have hinv' := Store.Moves.inv hinv hmoves
          refine ⟨(hset.trans hmoves).trans (setWriter_moves scope hinv' index _ hwithin), fun last hlast => ?_⟩
          obtain rfl := (Prod.ext_iff.1 hlast).1
          exact ⟨rfl, rfl, hinstalled.holds fun body _ hlength _ => hlength⟩

theorem commitOpen_moves {store : Store} (h : store.Inv codec config horizon) {index : Nat} {writer : Writer}
    {identity : TranscriptIdentity} {faults : Faults} (hwriter : store.writers[index]? = some writer)
    (hidentified : writer.identified codec identity) (hshard : faults.install.shard ≠ .unsynced)
    (hclean : writer.installed = true → ∀ version, store.files.objects.Version (codec.sha256 writer.body) version →
      version = store.files.objects.get? (codec.sha256 writer.body)) :
    Store.Moves codec config horizon scope store
      (store.commitOpen codec config index writer identity store.lastNow faults).1 := by
  obtain ⟨-, -, -, hvalid, -, -, hdigest, -⟩ := hidentified
  rw [hdigest] at hclean
  have hwithin := h.writers writer (List.mem_of_getElem? hwriter)
  unfold Store.commitOpen
  split
  · exact .refl
  · rename_i record hrecord
    unfold Store.commitRecord at hrecord
    split at hrecord
    · cases hrecord
    · rename_i old hold
      rw [ensure_bind_eq_ok_iff, ensure_bind_eq_ok_iff, pure_eq_ok_iff] at hrecord
      obtain ⟨⟨hstate, hnonce, hnone⟩, -, rfl⟩ := hrecord
      have hgood := h.get? hold
      have hu := hgood.sound.fit.unsealed (.inr hstate)
      have hnext := transcribed_next (writer.artifact identity) hgood.sound hstate hnone rfl hvalid
        (hwithin.2 old hold hnonce) (h.written _ old hold)
      obtain ⟨hmoves, hplaced⟩ := placeTranscript_moves scope faults h hwriter hshard hclean
      split
      · rename_i next e heq
        rw [heq] at hmoves
        exact hmoves
      · rename_i next heq
        obtain ⟨hrecords, hlast, hholds⟩ := hplaced next heq
        rw [heq] at hmoves
        have hinv := Store.Moves.inv h hmoves
        rw [← hrecords] at hold
        rw [← hlast] at hnext
        have hsupports : next.files.Supports codec
            ((old.transcribed (writer.artifact identity)).stampedAt codec next.lastNow) := by
          refine .unpublished hu.authoring hu.terminal ?_ (hinv.get? hold).supported.frozen
          rintro _ ⟨⟩
          exact hholds
        have hpersist := persistRecord_moves config scope hold hnext hsupports hinv.clock.2
          (fun hs => .inl hs) (.inr fun w hw => (hinv.writers w hw).1) faults.persist
        refine hmoves.trans ?_
        split
        · rename_i last e heq'
          rw [heq'] at hpersist
          exact hpersist
        · rename_i last heq'
          rw [heq'] at hpersist
          have hlast' := Store.Moves.inv hinv hpersist
          refine hpersist.trans (hlast'.aside rfl rfl rfl rfl rfl rfl (fun h => h) fun w hw => ?_)
          obtain ⟨i, hi, hmodified⟩ := List.mem_iff_getElem.1 hw
          rw [List.getElem_modify] at hmodified
          have hmem := hlast'.writers _ (List.getElem_mem (by simpa using hi))
          split at hmodified
          · rw [← hmodified]
            exact hmem
          · rw [← hmodified]
            exact hmem

theorem Commit_moves {store : Store} (h : store.Inv codec config horizon) {index : Nat} {identity : TranscriptIdentity}
    {now : Int} {faults : Faults} (hnow : now ≤ horizon) (hclean : store.Clean codec (.commit index identity) faults) :
    Store.Moves codec config horizon scope store (store.Commit codec config index identity now faults).1 := by
  have hticks := checkOpenAndClock_moves scope h hnow faults.root
  unfold Store.Commit
  split
  · exact .refl
  · rename_i writer hwriter
    split
    · exact .refl
    · split
      · rename_i hidentified
        split
        · rename_i ticked e heq
          rw [heq] at hticks
          exact hticks
        · rename_i ticked heq
          rw [heq] at hticks
          have hinv := Store.Moves.inv h hticks
          obtain rfl := checkOpenAndClock_ok heq
          exact hticks.trans (commitOpen_moves hinv hwriter hidentified hclean.1 (hclean.2 writer hwriter))
      · exact .refl

/-- Only a collecting record has a writer. -/
theorem Record.Fit.collecting {record : Record} {id : String} (h : record.Fit codec id)
    (hwriter : record.writerNonce ≠ "") : record.state = .collecting := by
  have hshape := h.shape.2.1
  cases hs : record.state with
  | collecting => rfl
  | reserved => rw [hs] at hshape; exact absurd hshape.1.1 hwriter
  | ready => rw [hs] at hshape; exact absurd hshape.2.2.2.2.1 hwriter
  | terminalWithoutPatch => rw [hs] at hshape; exact absurd hshape.2.2.2.2.1 hwriter
  | released => rw [hs] at hshape; exact absurd hshape.2.2.2.2.2.1 hwriter
  | expired => rw [hs] at hshape; exact absurd hshape.2.2.2.2.1 hwriter

/-- An attempt that is given up. -/
theorem expire_moves (scope : Scope) {store : Store} (h : store.Inv codec config horizon) {id : String} {old : Record}
    (hold : Dict.get? store.records id = some old) (hstate : old.state = .reserved ∨ old.state = .collecting)
    (io : Io) :
    Store.Moves codec config horizon scope store (store.persistRecord codec (old.expire store.lastNow) io).1 := by
  have hgood := h.get? hold
  have hu := hgood.sound.fit.unsealed hstate
  have hnext := expire_next hgood.sound hstate (h.written id old hold)
  refine persistRecord_moves config scope hold hnext ?_ h.clock.2 (fun hs => by cases hs)
    (.inr fun w hw => (h.writers w hw).1) io
  exact .unpublished hu.authoring hu.terminal hgood.supported.transcript hgood.supported.frozen

theorem abandon_moves {store : Store} (h : store.Inv codec config horizon) {index : Nat} {writer : Writer}
    (hmem : writer ∈ store.writers) (faults : Faults) :
    Store.Moves codec config horizon scope store (store.abandon codec index writer faults).1 := by
  have hwithin := h.writers writer hmem
  have hset := setWriter_moves scope h index { writer with abortDone := true } hwithin
  unfold Store.abandon
  simp only
  split
  · exact hset
  · rename_i record hrecord
    split
    · exact hset
    · rename_i hnonce
      have hcollecting := (h.get? hrecord).sound.fit.collecting (by rw [not_not.1 hnonce]; exact hwithin.1)
      have hmoves := expire_moves scope h hrecord (.inr hcollecting) faults.persist
      obtain ⟨hwriters, -⟩ := persistRecord_frame codec store (record.expire store.lastNow) faults.persist
      split
      · rename_i next e heq
        rw [heq] at hmoves
        exact hmoves
      · rename_i next heq
        rw [heq] at hmoves hwriters
        have hinv := Store.Moves.inv h hmoves
        rw [← hwriters] at hmem
        exact hmoves.trans (setWriter_moves scope hinv index _ (hinv.writers writer hmem))

theorem Abort_moves {store : Store} (h : store.Inv codec config horizon) (index : Nat) (faults : Faults) :
    Store.Moves codec config horizon scope store (store.Abort codec index faults).1 := by
  unfold Store.Abort
  split
  · exact .refl
  · rename_i writer hwriter
    have hwithin := h.writers writer (List.mem_of_getElem? hwriter)
    split
    · exact .refl
    · split
      · exact .refl
      · simp only
        split
        · exact setWriter_moves scope h index _ hwithin
        · have hunstage : Store.Moves codec config horizon scope store
              ({ store with files := if writer.installed then store.files else
                  store.files.unstage (some writer.name) }.setWriter index { writer with closed := true }) := by
            refine h.aside rfl rfl ?_ ?_ ?_ rfl (fun h => h) (setWriter_within h hwithin)
            · show (if writer.installed then store.files else store.files.unstage (some writer.name)).records = _
              split <;> rfl
            · show (if writer.installed then store.files else store.files.unstage (some writer.name)).shards = _
              split <;> rfl
            · show (if writer.installed then store.files else store.files.unstage (some writer.name)).objects = _
              split <;> rfl
          have hinv := Store.Moves.inv h hunstage
          have hlength := (List.getElem?_eq_some_iff.1 hwriter).1
          exact hunstage.trans (abandon_moves hinv (List.mem_set hlength _) faults)

/-! ## Calls -/

/-- A call is performed by moves, however its steps go. -/
theorem call_moves {store : Store} (h : store.Inv codec config horizon) {request : Request} {now : Int}
    {faults : Faults} (hnow : now ≤ horizon) (hclean : store.Clean codec request faults) :
    Store.Moves codec config horizon (request.scope faults.persist) store
      (store.call codec config request now faults).1 := by
  have hanswer : Store.Moves codec config horizon (request.scope faults.persist) store
      (store.answer codec config request now faults).1 := by
    have hplanned := planned_moves h hnow hclean
    cases request with
    | beginTranscript id =>
      have hticks := checkOpenAndClock_moves (Request.scope (.beginTranscript id) faults.persist) h hnow
        faults.root
      show Store.Moves _ _ _ _ _ (store.BeginTranscriptChecked codec config id now faults).1
      unfold Store.BeginTranscriptChecked
      split
      · rename_i ticked e heq
        rw [heq] at hticks
        exact hticks
      · rename_i ticked heq
        rw [heq] at hticks
        have hinv := Store.Moves.inv h hticks
        obtain rfl := checkOpenAndClock_ok heq
        exact hticks.trans (BeginTranscript_moves hinv hclean.2)
    | write writer body => exact Write_moves h writer body now faults
    | commit writer identity => exact Commit_moves h hnow hclean
    | abort writer => exact Abort_moves h writer faults
    | _ => exact hplanned
  have hinv := Store.Moves.inv h hanswer
  exact hanswer.trans (hinv.aside rfl rfl rfl rfl rfl rfl (fun h => h) hinv.writers)

end Calls

end DittoSubnet.CodingOutbox

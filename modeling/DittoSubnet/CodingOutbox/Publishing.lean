import DittoSubnet.CodingOutbox.Growth

/-!
# Publications and releases

The rest of the ways in which a call changes a record: a publication is prepared (`prepare_next`) and acknowledged
(`acknowledge_next`), and a sealed attempt is released (`release_next`).
-/

namespace DittoSubnet.CodingOutbox

open Kit
open Coding (validSHA256 validIdentifier canonicalUUID isSpace isControl lowerHex)

/-! ## Identifiers -/

theorem utf8ByteSize_ofList_le (l : List Char) : (String.ofList l).utf8ByteSize ≤ 4 * l.length := by
  induction l with
  | nil => simp
  | cons c l ih =>
    rw [String.ofList_cons, String.utf8ByteSize_append, String.utf8ByteSize_singleton]
    have hc := c.utf8Size_le_four
    simp only [List.length_cons]
    omega

theorem plain_of_lowerHex {c : Char} (h : lowerHex c = true ∨ c = '-') : (!isSpace c && !isControl c) = true := by
  have hrange : (0x30 ≤ c.toNat ∧ c.toNat ≤ 0x39) ∨ (0x61 ≤ c.toNat ∧ c.toNat ≤ 0x66) ∨ c.toNat = 0x2D := by
    rcases h with h | rfl
    · simp only [lowerHex, Bool.or_eq_true, Bool.and_eq_true, decide_eq_true_eq, Char.le_def,
        UInt32.le_iff_toNat_le] at h
      rcases h with h | h
      · exact .inl h
      · exact .inr (.inl h)
    · exact .inr (.inr rfl)
  simp only [isSpace, isControl, List.mem_cons, List.not_mem_nil, or_false, Bool.and_eq_true, Bool.not_eq_true',
    Bool.or_eq_false_iff, Bool.and_eq_false_iff, decide_eq_false_iff_not]
  omega

/-- A UUID is an identifier. -/
theorem validIdentifier_of_canonicalUUID {value : String} (h : canonicalUUID value = true) :
    validIdentifier value 256 = true := by
  simp only [canonicalUUID, Bool.and_eq_true, beq_iff_eq] at h
  obtain ⟨⟨hlength, hall⟩, -⟩ := h
  have hne : value ≠ "" := by
    rintro rfl
    simp at hlength
  have hsize : value.utf8ByteSize ≤ 256 := by
    have hle := utf8ByteSize_ofList_le value.toList
    rw [String.ofList_toList] at hle
    omega
  have hplain : value.toList.all (fun c => !isSpace c && !isControl c) = true := by
    rw [List.all_eq_true]
    intro c hc
    obtain ⟨i, hi, rfl⟩ := List.mem_iff_getElem.1 hc
    have hzip : (value.toList[i], i) ∈ value.toList.zipIdx := by
      rw [List.mem_zipIdx_iff_getElem?]
      exact List.getElem?_eq_getElem hi
    have hchar := List.all_eq_true.1 hall _ hzip
    apply plain_of_lowerHex
    split at hchar
    · exact .inr (by simpa using hchar)
    · exact .inl hchar
  simp [validIdentifier, hne, hsize, hplain]

section Publishing

variable {codec : Codec}

/-! ## What a sealed record demands of its publications -/

structure Record.Published (record : Record) : Prop where
  certification : record.binding.purpose = .certification →
    record.authoringPublication = none ∧ record.terminalPublication = none
  authoring : ∀ publication ∈ record.authoringPublication, record.frozen.isSome ∧ record.failure = none ∧
    publicationShape record .authoringFreeze publication
  terminal : ∀ publication ∈ record.terminalPublication, publicationShape record .terminalResult publication ∧
    (record.frozen.isSome → acknowledged record.authoringPublication) ∧
    (record.failure.isSome → record.authoringPublication = none)
  same : ∀ left ∈ record.authoringPublication, ∀ right ∈ record.terminalPublication,
    samePublicationRunAuthority left.authority right.authority
  released : record.state = .released ∧ record.binding.purpose = .shadowAttempt →
    ∃ publication ∈ record.terminalPublication, publication.acknowledgement.isSome ∧
      record.releaseEvidenceSHA256 = publication.authority.evidenceSHA256 ∧
      publication.acknowledgedAtUnix ≤ record.releasedAtUnix

theorem validatePublicationRecords_iff {record : Record} (h : record.Sealed) :
    validatePublicationRecords record ↔ record.Published := by
  have hstate : ¬ (record.state = .reserved ∨ record.state = .collecting ∨ record.state = .expired) := by
    rcases h with hs | hs | hs <;> rw [hs] <;> decide
  unfold validatePublicationRecords
  rw [if_neg hstate]
  constructor
  · rintro ⟨h1, h2, h3, h4, h5⟩
    exact ⟨h1, h2, h3, h4, h5⟩
  · rintro ⟨h1, h2, h3, h4, h5⟩
    exact ⟨h1, h2, h3, h4, h5⟩

theorem publicationShape_mono {old new : Record} {stage : PublicationStage} {publication : PublicationRecord}
    (h : publicationShape old stage publication) (hbinding : new.binding = old.binding)
    (hsealed : new.sealedAtUnix = old.sealedAtUnix) (hupdated : old.updatedAtUnixNano ≤ new.updatedAtUnixNano) :
    publicationShape new stage publication := by
  obtain ⟨h1, h2, h3, h4, h5, h6, h7, h8, h9⟩ := h
  have hunix := unix_mono hupdated
  refine ⟨h1, h2, ?_, ?_, h5.trans hunix, ?_, h7.trans hunix, h8, h9⟩
  · rw [hbinding]
    exact h3
  · rw [hsealed]
    exact h4
  · rw [hbinding]
    exact h6

/-- Only a sealed record has a publication. -/
theorem Record.Fit.sealed_of_publication {record : Record} {id : String} (h : record.Fit codec id)
    {stage : PublicationStage} {publication : PublicationRecord}
    (hp : publicationForStage record stage = some publication) : record.Sealed := by
  have hnone : record.state = .reserved ∨ record.state = .collecting ∨ record.state = .expired →
      record.authoringPublication = none ∧ record.terminalPublication = none := by
    intro hs
    have hpublications := h.publications
    unfold validatePublicationRecords at hpublications
    rwa [if_pos hs] at hpublications
  have hsome : ¬ (record.authoringPublication = none ∧ record.terminalPublication = none) := by
    rintro ⟨ha, ht⟩
    cases stage with
    | authoringFreeze => cases ha.symm.trans hp
    | terminalResult => cases ht.symm.trans hp
  unfold Record.Sealed
  cases hs : record.state with
  | reserved => exact absurd (hnone (.inl hs)) hsome
  | collecting => exact absurd (hnone (.inr (.inl hs))) hsome
  | expired => exact absurd (hnone (.inr (.inr hs))) hsome
  | ready => exact .inl rfl
  | terminalWithoutPatch => exact .inr (.inl rfl)
  | released => exact .inr (.inr rfl)

theorem Record.Fit.published {record : Record} {id : String} (h : record.Fit codec id) (hsealed : record.Sealed) :
    record.Published := (validatePublicationRecords_iff hsealed).1 h.publications

/-- A publication that is not acknowledged belongs to an attempt that is not released. -/
theorem Record.Fit.awaits {record : Record} {id : String} (h : record.Fit codec id) {stage : PublicationStage}
    {publication : PublicationRecord} (hp : publicationForStage record stage = some publication)
    (hnone : publication.acknowledgement = none) :
    (record.state = .ready ∨ record.state = .terminalWithoutPatch) ∧ record.binding.purpose = .shadowAttempt := by
  have hsealed := h.sealed_of_publication hp
  have hpublished := h.published hsealed
  have hpurpose : record.binding.purpose = .shadowAttempt := by
    cases hpurpose : record.binding.purpose with
    | shadowAttempt => rfl
    | certification =>
      obtain ⟨ha, ht⟩ := hpublished.certification hpurpose
      cases stage with
      | authoringFreeze => cases ha.symm.trans hp
      | terminalResult => cases ht.symm.trans hp
  refine ⟨?_, hpurpose⟩
  rcases hsealed with hs | hs | hs
  · exact .inl hs
  · exact .inr hs
  · -- a released attempt has both its publications acknowledged
    obtain ⟨terminal, hterminal, hack, -⟩ := hpublished.released ⟨hs, hpurpose⟩
    cases stage with
    | terminalResult =>
      have hsame : terminal = publication := Option.some.inj (hterminal.symm.trans hp)
      rw [hsame, hnone] at hack
      cases hack
    | authoringFreeze =>
      obtain ⟨hfrozen, -, -⟩ := hpublished.authoring publication hp
      obtain ⟨p, hp', hack'⟩ := (hpublished.terminal terminal hterminal).2.1 hfrozen
      have hsame : p = publication := Option.some.inj (hp'.symm.trans hp)
      rw [hsame, hnone] at hack'
      cases hack'

/-! ## Changes of a sealed attempt -/

/-- What an attempt demands of a publication at a stage beyond its shape. -/
def Record.Accepts (record : Record) : PublicationStage → PublicationRecord → Prop
  | .authoringFreeze, publication => record.frozen.isSome ∧ record.failure = none ∧
      ∀ terminal ∈ record.terminalPublication,
        publication.acknowledgement.isSome ∧ samePublicationRunAuthority publication.authority terminal.authority
  | .terminalResult, publication => (record.frozen.isSome → acknowledged record.authoringPublication) ∧
      (record.failure.isSome → record.authoringPublication = none) ∧
      ∀ authoring ∈ record.authoringPublication,
        samePublicationRunAuthority authoring.authority publication.authority

theorem sameCore_withPublication (old : Record) (stage : PublicationStage) (publication : PublicationRecord) :
    old.SameCore (old.withPublication stage publication) := by
  cases stage <;> exact ⟨rfl, rfl, rfl, rfl, rfl, rfl, rfl, rfl⟩

/-- The publications of a record after one of them has changed. -/
theorem publicationForStage_withPublication (old : Record) (now : Int) (stage stage' : PublicationStage)
    (publication : PublicationRecord) :
    publicationForStage ((old.withPublication stage publication).stampedAt codec now) stage' =
      if stage' = stage then some publication else publicationForStage old stage' := by
  cases stage <;> cases stage' <;> rfl

/-- An attempt that is sealed and not released may change a publication as it accepts. -/
theorem publish_next {old : Record} {id : String} {stage : PublicationStage} {publication : PublicationRecord}
    {now : Int} (hold : old.Sound codec id) (hstate : old.state = .ready ∨ old.state = .terminalWithoutPatch)
    (hpurpose : old.binding.purpose = .shadowAttempt) (haccepts : old.Accepts stage publication)
    (hshape : publicationShape ((old.withPublication stage publication).stampedAt codec now) stage publication)
    (hgrows : ∀ p ∈ publicationForStage old stage, p.Grows publication) (hnow : old.updatedAtUnixNano ≤ now) :
    old.Next codec ((old.withPublication stage publication).stampedAt codec now) id := by
  have hsealed : old.Sealed := by
    rcases hstate with hs | hs
    · exact .inl hs
    · exact .inr (.inl hs)
  have hreleased : old.state ≠ .released := by
    rcases hstate with hs | hs <;> rw [hs] <;> decide
  have hcore := sameCore_withPublication old stage publication
  have hpublished := hold.fit.published hsealed
  have hfit := hold.fit
  have hcertification : old.binding.purpose ≠ .certification := by
    rw [hpurpose]
    decide
  constructor
  · refine sound_stamped hold hcore hnow ?_ ?_
    · cases stage <;> exact hold.sealedAt.trans (unix_mono hnow)
    · cases stage with
      | authoringFreeze =>
        obtain ⟨hfrozen, hfailure, hterminal⟩ := haccepts
        refine ⟨hfit.shape, hfit.times, hfit.transcript, hfit.frozen, hfit.failure, ?_⟩
        have hsealed' : ((old.withPublication .authoringFreeze publication).stampedAt codec now).Sealed := hsealed
        refine (validatePublicationRecords_iff hsealed').2 ⟨fun h => absurd h hcertification, ?_, ?_, ?_,
          fun h => absurd h.1 hreleased⟩
        · rintro _ ⟨⟩
          exact ⟨hfrozen, hfailure, hshape⟩
        · intro q hq
          refine ⟨publicationShape_mono (hpublished.terminal q hq).1 rfl rfl hnow, fun _ => ?_, fun h => ?_⟩
          · exact ⟨publication, rfl, (hterminal q hq).1⟩
          · replace h : old.failure.isSome = true := h
            rw [hfailure] at h
            cases h
        · rintro _ ⟨⟩ q hq
          exact (hterminal q hq).2
      | terminalResult =>
        obtain ⟨hfrozen, hfailure, hauthoring⟩ := haccepts
        refine ⟨hfit.shape, hfit.times, hfit.transcript, hfit.frozen, hfit.failure, ?_⟩
        have hsealed' : ((old.withPublication .terminalResult publication).stampedAt codec now).Sealed := hsealed
        refine (validatePublicationRecords_iff hsealed').2 ⟨fun h => absurd h hcertification, ?_, ?_, ?_,
          fun h => absurd h.1 hreleased⟩
        · intro p hp
          obtain ⟨h1, h2, h3⟩ := hpublished.authoring p hp
          exact ⟨h1, h2, publicationShape_mono h3 rfl rfl hnow⟩
        · rintro _ ⟨⟩
          exact ⟨hshape, hfrozen, hfailure⟩
        · rintro p hp _ ⟨⟩
          exact hauthoring p hp
  · have hcore' : old.SameCore ((old.withPublication stage publication).stampedAt codec now) := hcore.stamped
    refine ⟨hcore'.id, hcore'.binding, hcore'.limits, hcore'.reservedBytes, hcore'.createdAtUnixNano, ?_, ?_, ?_, ?_,
      ?_, fun h => absurd h hreleased⟩
    · cases stage <;> exact fun t ht => ht
    · cases stage <;> exact fun f hf => hf
    · cases stage <;> exact fun f hf => hf
    · cases stage <;> exact fun h => ⟨h, rfl⟩
    · intro stage' p hp
      rw [publicationForStage_withPublication]
      by_cases hs : stage' = stage
      · subst hs
        rw [if_pos rfl]
        exact ⟨publication, rfl, hgrows p hp⟩
      · rw [if_neg hs]
        exact ⟨p, hp, .refl p⟩

theorem publicationArtifact_shape {body : Bytes} {maximum : Nat} (hbody : body ≠ []) (hlength : body.length ≤ maximum) :
    validatePublicationArtifactShape (publicationArtifact codec body) maximum :=
  ⟨rfl, codec.sha256_valid body, List.length_pos_iff.2 hbody, hlength⟩

/-- What a publication is when it is prepared. -/
def preparedPublication (codec : Codec) (stage : PublicationStage) (authority : PublicationAuthority) (body : Bytes)
    (now : Int) : PublicationRecord :=
  ⟨stage, authority, publicationArtifact codec body, none, "", "", unix now, 0⟩

/-- A publication that may be prepared is accepted. -/
theorem mayPrepare_accepts {record : Record} {id : String} {stage : PublicationStage}
    {authority : PublicationAuthority} (body : Bytes) (now : Int) (hfit : record.Fit codec id)
    (h : mayPrepare record stage authority = .ok ()) :
    (record.state = .ready ∨ record.state = .terminalWithoutPatch) ∧
      record.Accepts stage (preparedPublication codec stage authority body now) := by
  unfold mayPrepare at h
  have hshape := hfit.shape.2.1
  cases stage with
  | authoringFreeze =>
    simp only [ensure_eq_ok_iff] at h
    obtain ⟨hs, hfrozen, -, hterminal⟩ := h
    rw [hs] at hshape
    refine ⟨.inl hs, hfrozen, hshape.2.2.1, ?_⟩
    intro terminal ht
    rw [hterminal] at ht
    cases ht
  | terminalResult =>
    simp only [ensure_bind_eq_ok_iff, ensure_eq_ok_iff] at h
    obtain ⟨⟨-, hs, hready, hwithout⟩, hsame⟩ := h
    refine ⟨hs, fun hfrozen => ?_, fun hfailure => ?_, hsame⟩
    · rcases hs with hs | hs
      · exact hready hs
      · rw [hs] at hshape
        rw [hshape.2.1] at hfrozen
        cases hfrozen
    · rcases hs with hs | hs
      · rw [hs] at hshape
        rw [hshape.2.2.1] at hfailure
        cases hfailure
      · exact hwithout hs

theorem prepare_next {old : Record} {id : String} {stage : PublicationStage} {authority : PublicationAuthority}
    {body : Bytes} {now : Int} (hold : old.Sound codec id) (hpurpose : old.binding.purpose = .shadowAttempt)
    (hauthority : validatePublicationAuthority authority)
    (hmanifest : authority.runManifestSHA256 = old.binding.authoritySHA256) (hbody : body ≠ [])
    (hlength : body.length ≤ maximumPublicationRequestBytes) (hnone : publicationForStage old stage = none)
    (hmay : mayPrepare old stage authority = .ok ()) (hdeadline : now < old.binding.deadline)
    (hnow : old.updatedAtUnixNano ≤ now) :
    old.Next codec ((old.withPublication stage (preparedPublication codec stage authority body now)).stampedAt codec
      now) id := by
  obtain ⟨hstate, haccepts⟩ := mayPrepare_accepts body now hold.fit hmay
  have hpos : 0 < unix now := unix_pos (hold.created.trans (hold.fit.created_le.trans hnow))
  have hseal : old.sealedAtUnix ≤ unix now := hold.sealedAt.trans (unix_mono hnow)
  have hbefore : ofUnix (unix now) < old.binding.deadline := (ofUnix_unix_le now).trans_lt hdeadline
  refine publish_next hold hstate hpurpose haccepts ?_ ?_ hnow
  · cases stage <;> exact ⟨rfl, hauthority, hmanifest, hseal, le_rfl, hbefore, hpos.le,
      publicationArtifact_shape hbody hlength, rfl, rfl, rfl⟩
  · rw [hnone]
    simp

/-- What an acknowledgement names. -/
theorem validatePublicationAcknowledgement_eq_ok {record : Record} {stage : PublicationStage}
    {authority : PublicationAuthority} {body : Bytes} {remoteID : String}
    (hauthority : validatePublicationAuthority authority)
    (h : validatePublicationAcknowledgement codec stage record authority body = .ok remoteID) :
    validIdentifier remoteID 256 ∧ (stage = .authoringFreeze → canonicalUUID remoteID) := by
  unfold validatePublicationAcknowledgement at h
  rw [ensure_bind_eq_ok_iff] at h
  replace h := h.2
  cases stage with
  | authoringFreeze =>
    simp only at h
    split at h
    · cases h
    · rename_i acknowledgement _
      simp only [ensure_bind_eq_ok_iff, pure, Except.pure, Except.ok.injEq] at h
      obtain ⟨hagrees, rfl⟩ := h
      exact ⟨validIdentifier_of_canonicalUUID hagrees.1, fun _ => hagrees.1⟩
  | terminalResult =>
    simp only at h
    split at h
    · cases h
    · rename_i acknowledgement _
      simp only [ensure_bind_eq_ok_iff, pure, Except.pure, Except.ok.injEq] at h
      obtain ⟨hagrees, rfl⟩ := h
      refine ⟨?_, fun h => by cases h⟩
      rw [hagrees.2.2.2.1]
      exact hauthority.2.2.2.2.1

/-- The acknowledgement of an accepted publication is accepted. -/
theorem acknowledge_accepts {record : Record} {id : String} {stage : PublicationStage} {p : PublicationRecord}
    {artifact : PublicationArtifact} {requestSHA256 remoteID : String} {now : Int} (hfit : record.Fit codec id)
    (hp : publicationForStage record stage = some p) :
    record.Accepts stage (p.acknowledge artifact requestSHA256 remoteID now) := by
  have hpublished := hfit.published (hfit.sealed_of_publication hp)
  cases stage with
  | authoringFreeze =>
    obtain ⟨hfrozen, hfailure, -⟩ := hpublished.authoring p hp
    exact ⟨hfrozen, hfailure, fun q hq => ⟨rfl, hpublished.same p hp q hq⟩⟩
  | terminalResult =>
    obtain ⟨-, hfrozen, hfailure⟩ := hpublished.terminal p hp
    exact ⟨hfrozen, hfailure, fun q hq => hpublished.same q hq p hp⟩

theorem Record.Fit.publicationShape {record : Record} {id : String} (h : record.Fit codec id)
    {stage : PublicationStage} {p : PublicationRecord} (hp : publicationForStage record stage = some p) :
    publicationShape record stage p := by
  have hpublished := h.published (h.sealed_of_publication hp)
  cases stage with
  | authoringFreeze => exact (hpublished.authoring p hp).2.2
  | terminalResult => exact (hpublished.terminal p hp).1

theorem acknowledge_next {old : Record} {id : String} {stage : PublicationStage} {p : PublicationRecord}
    {body : Bytes} {remoteID : String} {now : Int} (hold : old.Sound codec id)
    (hp : publicationForStage old stage = some p) (hnone : p.acknowledgement = none)
    (hack : validatePublicationAcknowledgement codec stage old p.authority body = .ok remoteID) (hbody : body ≠ [])
    (hlength : body.length ≤ maximumPublicationAckBytes) (hnow : old.updatedAtUnixNano ≤ now) :
    old.Next codec ((old.withPublication stage (p.acknowledge (publicationArtifact codec body) p.request.sha256 remoteID
      now)).stampedAt codec now) id := by
  obtain ⟨hstate, hpurpose⟩ := hold.fit.awaits hp hnone
  obtain ⟨hstage, hauthority, hmanifest, hsealed, hprepared, hdeadline, -, hrequest, -⟩ := hold.fit.publicationShape hp
  obtain ⟨hidentifier, huuid⟩ := validatePublicationAcknowledgement_eq_ok hauthority hack
  have hprepared' : p.preparedAtUnix ≤ unix now := hprepared.trans (unix_mono hnow)
  refine publish_next hold hstate hpurpose (acknowledge_accepts hold.fit hp) ?_ ?_ hnow
  · cases stage with
    | authoringFreeze => exact ⟨hstage, hauthority, hmanifest, hsealed, hprepared', hdeadline, le_rfl, hrequest,
        publicationArtifact_shape hbody hlength, hprepared', rfl, hidentifier, fun _ => huuid rfl⟩
    | terminalResult => exact ⟨hstage, hauthority, hmanifest, hsealed, hprepared', hdeadline, le_rfl, hrequest,
        publicationArtifact_shape hbody hlength, hprepared', rfl, hidentifier, fun h => by cases of_decide_eq_true h⟩
  · intro q hq
    have hqp : q = p := Option.some.inj (hq.symm.trans hp)
    subst hqp
    refine ⟨rfl, rfl, rfl, fun h => ?_⟩
    rw [hnone] at h
    cases h

theorem release_next {old : Record} {id evidence : String} {now : Int} (hold : old.Sound codec id)
    (hstate : old.state = .ready ∨ old.state = .terminalWithoutPatch) (hevidence : validSHA256 evidence = true)
    (hack : old.binding.purpose = .shadowAttempt → acknowledged old.terminalPublication)
    (hsame : old.binding.purpose = .shadowAttempt → ∀ p ∈ old.terminalPublication,
      p.authority.evidenceSHA256 = evidence) (hnow : old.updatedAtUnixNano ≤ now) :
    old.Next codec ((old.release evidence now).stampedAt codec now) id := by
  have hpos : 0 < unix now := unix_pos (hold.created.trans (hold.fit.created_le.trans hnow))
  have hsealed : old.Sealed := by
    rcases hstate with hs | hs
    · exact .inl hs
    · exact .inr (.inl hs)
  have hreleased : old.state ≠ .released := by
    rcases hstate with hs | hs <;> rw [hs] <;> decide
  have hcore : old.SameCore (old.release evidence now) := ⟨rfl, rfl, rfl, rfl, rfl, rfl, rfl, rfl⟩
  have hsealed' : ((old.release evidence now).stampedAt codec now).Sealed := .inr (.inr rfl)
  have hseal : old.sealedAtUnix ≤ unix now := hold.sealedAt.trans (unix_mono hnow)
  have hpublished := hold.fit.published hsealed
  constructor
  · refine sound_stamped hold hcore hnow hseal ?_
    refine ⟨?_, ?_, hold.fit.transcript, hold.fit.frozen, hold.fit.failure, ?_⟩
    · have hshape := hold.fit.shape.2.1
      have hexpired : old.expiredAtUnix = 0 := by
        apply hold.fit.shape.2.2.2
        rcases hstate with hs | hs <;> rw [hs] <;> decide
      refine ⟨hold.fit.shape.1, ?_, fun h => absurd rfl h, fun _ => hexpired⟩
      rcases hstate with hs | hs
      · rw [hs] at hshape
        obtain ⟨h1, h2, h3, h4, h5⟩ := hshape
        refine ⟨hevidence, hpos.ne', h1, h4, ?_, h5⟩
        show old.frozen.isNone = old.failure.isSome
        rw [h3, Option.isNone_eq_false_iff.2 h2]
        rfl
      · rw [hs] at hshape
        obtain ⟨h1, h2, h3, h4, h5⟩ := hshape
        refine ⟨hevidence, hpos.ne', h1, h4, ?_, h5⟩
        show old.frozen.isNone = old.failure.isSome
        rw [h2, h3]
        rfl
    · exact ⟨fun _ => hold.fit.times.1 hsealed, fun _ => hseal, fun h => by cases h⟩
    · refine (validatePublicationRecords_iff hsealed').2 ⟨hpublished.certification, ?_, ?_, hpublished.same, ?_⟩
      · intro p hp
        obtain ⟨h1, h2, h3⟩ := hpublished.authoring p hp
        exact ⟨h1, h2, publicationShape_mono h3 rfl rfl hnow⟩
      · intro p hp
        obtain ⟨h1, h2, h3⟩ := hpublished.terminal p hp
        exact ⟨publicationShape_mono h1 rfl rfl hnow, h2, h3⟩
      · rintro ⟨-, hpurpose⟩
        obtain ⟨p, hp, hsome⟩ := hack hpurpose
        obtain ⟨-, -, -, -, -, -, hacked, -⟩ := (hpublished.terminal p hp).1
        exact ⟨p, hp, hsome, (hsame hpurpose p hp).symm, hacked.trans (unix_mono hnow)⟩
  · exact ⟨rfl, rfl, rfl, rfl, rfl, fun t ht => ht, fun f hf => hf, fun f hf => hf, fun _ => ⟨hsealed', rfl⟩,
      fun stage p hp => ⟨p, hp, .refl p⟩, fun h => absurd h hreleased⟩

end Publishing

end DittoSubnet.CodingOutbox

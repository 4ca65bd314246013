import DittoSubnet.Coding.RelayInvariant

/-!
# Restoring a relay

`restore` accepts a journal exactly when every entry passes the checks against the tokens used before it, the last entry
is not to be retried and the entries have evidence (`restore_eq_ok_iff`).
-/

namespace DittoSubnet.Coding

open Kit

section Restore

variable {codec : Codec} {config : JournalConfig} {binding : Binding}

/-- What `restore` asks of an entry, with its index and the completion tokens used before it. -/
structure RestoreOk (codec : Codec) (policy : InferencePolicy) (binding : Binding) (index priorCompletion : Nat)
    (dispatch : DispatchRecord) (completion : Completion) : Prop where
  identity : dispatch.sequence = index + 1 ∧ completion.receipt.sequence = dispatch.sequence ∧
    completion.receipt.requestSequence = dispatch.requestSequence ∧ completion.receipt.attempt = dispatch.attempt ∧
    completion.receipt.requestID = dispatch.requestID ∧
    completion.receipt.lockedRequestSHA256 = dispatch.lockedRequestSHA256 ∧ canonicalUUID dispatch.requestID = true
  request : InferenceMinerRequestSHA256 codec policy dispatch.minerRequest = some dispatch.minerRequestSHA256 ∧
    priorCompletion < binding.completionTokenBudget
  locked : LockInferenceRequest codec policy
    (dispatch.minerRequest.clamp (binding.completionTokenBudget - priorCompletion)) = some dispatch.lockedRequest
  digest : InferenceLockedRequestSHA256 codec policy dispatch.lockedRequest = some dispatch.lockedRequestSHA256
  minted : entryForResult codec policy binding dispatch ⟨completion.settlement, completion.normalizedResponse,
    completion.failureResponseProjection⟩ = .ok ⟨dispatch, some completion⟩
  fits : priorCompletion ≤ maxUint64 - completion.receipt.completionTokens

theorem restoreEntry_eq_ok_iff {policy : InferencePolicy} {index priorCompletion used : Nat} {entry : JournalEntry} :
    restoreEntry codec policy binding index priorCompletion entry = .ok used ↔
      (∃ completion, entry.completion = some completion ∧
        RestoreOk codec policy binding index priorCompletion entry.dispatch completion) ∧
      used = priorCompletion + entry.completionTokens := by
  obtain ⟨dispatch, completion⟩ := entry
  cases completion with
  | none =>
    constructor
    · intro h
      cases h
    · rintro ⟨⟨completion, hcompletion, -⟩, -⟩
      cases hcompletion
  | some completion =>
    unfold restoreEntry
    simp only [ensure_bind_eq_ok_iff, pure_eq_ok_iff]
    constructor
    · rintro ⟨hidentity, hrequest, hlocked, hdigest, hminted, hfits, rfl⟩
      exact ⟨⟨completion, rfl, hidentity, hrequest, hlocked, hdigest, hminted, hfits⟩, rfl⟩
    · rintro ⟨⟨_, hsame, hok⟩, rfl⟩
      cases hsame
      exact ⟨hok.identity, hok.request, hok.locked, hok.digest, hok.minted, hok.fits, rfl⟩

/-- Every entry passes the checks of `restore` against those before it. -/
def Restorable (codec : Codec) (policy : InferencePolicy) (binding : Binding) (entries : List JournalEntry) : Prop :=
  Chain.Everywhere (fun before entry => ∃ completion, entry.completion = some completion ∧
    RestoreOk codec policy binding before.length (totalUsed before).completion entry.dispatch completion) entries

theorem restoreEntries_eq_ok_iff {policy : InferencePolicy} {entries : List JournalEntry} {used : Nat} :
    entries.zipIdx.foldlM (fun prior indexed => restoreEntry codec policy binding indexed.2 prior indexed.1) 0 =
      .ok used ↔ Restorable codec policy binding entries ∧ used = (totalUsed entries).completion := by
  induction entries using List.reverseRecOn generalizing used with
  | nil =>
    show Except.ok 0 = Except.ok used ↔ _
    rw [Except.ok.injEq]
    exact ⟨fun heq => ⟨Chain.everywhere_nil, heq.symm⟩, fun h => h.2.symm⟩
  | append_singleton front last ih =>
    have hlast (prior : Nat) : List.foldlM (fun prior (indexed : JournalEntry × Nat) =>
        restoreEntry codec policy binding indexed.2 prior indexed.1) prior ([last].zipIdx (0 + front.length)) =
          restoreEntry codec policy binding front.length prior last := by
      simp
    have htokens : (totalUsed (front ++ [last])).completion = (totalUsed front).completion + last.completionTokens := by
      simp [totalUsed]
    rw [List.zipIdx_append, List.foldlM_append, bind_eq_ok_iff, Restorable, Chain.everywhere_append, htokens]
    constructor
    · rintro ⟨prior, hfront, hentry⟩
      obtain ⟨hrestorable, rfl⟩ := ih.mp hfront
      rw [hlast, restoreEntry_eq_ok_iff] at hentry
      exact ⟨⟨hrestorable, hentry.1⟩, hentry.2⟩
    · rintro ⟨⟨hrestorable, hentry⟩, rfl⟩
      refine ⟨(totalUsed front).completion, ih.mpr ⟨hrestorable, rfl⟩, ?_⟩
      rw [hlast, restoreEntry_eq_ok_iff]
      exact ⟨hentry, rfl⟩

theorem Restorable.completed {policy : InferencePolicy} {entries : List JournalEntry}
    (h : Restorable codec policy binding entries) {entry : JournalEntry} (hmem : entry ∈ entries) :
    entry.completed = true := by
  obtain ⟨before, after, rfl⟩ := List.append_of_mem hmem
  obtain ⟨completion, hcompletion, -⟩ := h before entry after rfl
  rw [JournalEntry.completed, hcompletion]
  rfl

/-- What `restore` asks of a journal, and the relay it makes. -/
theorem restore_eq_ok_iff {store : Store} {now : Int} {restart : Relay} :
    restore codec config.policy binding store now = .ok restart ↔
      (∀ state ∈ store.state, state.binding = binding) ∧ (store.state = none → store.entries = []) ∧
        Restorable codec config.policy binding (journaled store.entries) ∧ Answered codec config binding store.entries ∧
        restart = restored (journaled store.entries) ((store.state.map StateRecord.revoked).getD false) now := by
  unfold restore
  rw [ensure_bind_eq_ok_iff, ensure_bind_eq_ok_iff, bind_eq_ok_iff]
  have hnil : journaled store.entries = [] ↔ store.entries = [] := List.map_eq_nil_iff
  refine and_congr_right fun _ => and_congr (imp_congr_right fun _ => hnil) ?_
  have hjournaled : store.entries.map EntryRecord.entry = journaled store.entries := rfl
  simp only [hjournaled, restoreEntries_eq_ok_iff]
  have hgetLast : (journaled store.entries).getLast? = store.entries.getLast?.map EntryRecord.entry := List.getLast?_map
  rw [hgetLast]
  cases hlast : store.entries.getLast? with
  | none =>
    rw [List.getLast?_eq_none_iff] at hlast
    constructor
    · rintro ⟨used, ⟨hrestorable, -⟩, h⟩
      exact ⟨hrestorable, fun hne => absurd hlast hne, (Except.ok.inj h).symm⟩
    · rintro ⟨hrestorable, -, rfl⟩
      exact ⟨_, ⟨hrestorable, rfl⟩, rfl⟩
  | some last =>
    have hne : store.entries ≠ [] := by
      intro hnil'
      rw [hnil'] at hlast
      cases hlast
    constructor
    · rintro ⟨used, ⟨hrestorable, -⟩, h⟩
      change (ensure _ _ >>= fun _ => _) = _ at h
      rw [ensure_bind_eq_ok_iff, bind_eq_ok_iff] at h
      obtain ⟨hretry, found, hfound, h⟩ := h
      refine ⟨hrestorable, fun _ => ⟨⟨found, hfound⟩, ?_⟩, (Except.ok.inj h).symm⟩
      intro record hrecord
      rw [hlast, Option.mem_some_iff] at hrecord
      rw [← hrecord]
      exact hretry
    · rintro ⟨hrestorable, hanswered, rfl⟩
      obtain ⟨⟨found, hfound⟩, hretry⟩ := hanswered hne
      refine ⟨_, ⟨hrestorable, rfl⟩, ?_⟩
      show (ensure _ _ >>= fun _ => _) = _
      rw [ensure_bind_eq_ok_iff, bind_eq_ok_iff]
      exact ⟨hretry last hlast, found, hfound, rfl⟩

end Restore

end DittoSubnet.Coding

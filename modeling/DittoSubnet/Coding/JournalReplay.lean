import DittoSubnet.Coding.JournalCrash

/-!
# Replayed calls

A call is repeated when its caller could not tell whether it took effect. `Complete` and `Revoke` recognise a repetition
in every state, and no call with other bytes is taken for one. `Begin` checks its authority over all that was used
since, before it looks for the recorded dispatch, so a repetition is recognised exactly while every budget has something
left and the completion tokens left cover the locked request (`replays_recognised_iff`).
-/

namespace DittoSubnet.Coding

open Kit

section Replay

variable {codec : Codec} {layout : Layout} {config : JournalConfig}

/-- What the recorded entries leave of the budgets still covers the dispatch. -/
def BudgetLeft (policy : InferencePolicy) (binding : Binding) (entries : List EntryRecord) (dispatch : DispatchRecord) :
    Prop :=
  (totalUsed (journaled entries)).Below policy binding ∧
    dispatch.lockedRequest.maxCompletionTokens ≤
      binding.completionTokenBudget - (totalUsed (journaled entries)).completion

/-- Repeated calls succeed and change nothing, and calls with other bytes for a recorded sequence are refused. -/
structure Idempotent (codec : Codec) (layout : Layout) (config : JournalConfig) (journal : Journal) : Prop where
  begun : ∀ state ∈ journal.store.state, ∀ record ∈ journal.store.entries, ∀ io,
    journal.call codec layout config (.begin state.binding record.entry.dispatch) true io = (journal, .ok ())
  completed : ∀ state ∈ journal.store.state, ∀ record ∈ journal.store.entries, record.entry.completed → ∀ io,
    journal.call codec layout config (.complete state.binding record.entry) true io = (journal, .ok ())
  revoked : ∀ state ∈ journal.store.state, state.revoked → ∀ io,
    journal.call codec layout config (.revoke state.binding) true io = (journal, .ok ())
  otherDispatch : ∀ state ∈ journal.store.state, ∀ record ∈ journal.store.entries, ∀ binding dispatch io,
    dispatch.sequence = record.sequence → binding ≠ state.binding ∨ dispatch ≠ record.entry.dispatch →
    ∃ e, journal.call codec layout config (.begin binding dispatch) true io = (journal, .error e)
  otherEntry : ∀ state ∈ journal.store.state, ∀ record ∈ journal.store.entries, ∀ binding entry io,
    entry.dispatch.sequence = record.sequence →
    (binding ≠ state.binding ∨ entry.dispatch ≠ record.entry.dispatch ∨
      record.entry.completed ∧ entry ≠ record.entry) →
    ∃ e, journal.call codec layout config (.complete binding entry) true io = (journal, .error e)
  otherBinding : ∀ state ∈ journal.store.state, ∀ binding io, binding ≠ state.binding →
    ∃ e, journal.call codec layout config (.revoke binding) true io = (journal, .error e)

/-! ## Authority over a recorded dispatch -/

/-- The authority check on a recorded dispatch, made again over all entries. -/
theorem authority_again {binding : Binding} {entries : List EntryRecord} {record : EntryRecord}
    (haccepted : Accepted codec layout config binding entries) (hmem : record ∈ entries) :
    validateDispatchAuthority codec config.policy binding entries record.entry.dispatch = .ok () ↔
      BudgetLeft config.policy binding entries record.entry.dispatch := by
  obtain ⟨i, hi⟩ := List.mem_iff_getElem?.mp hmem
  obtain ⟨hvalid, hbefore, hlock⟩ := validateDispatchAuthority_ok.mp (haccepted.get hi).authority
  -- The entries before the dispatch used no more than all of them.
  have hmono := (totalUsed_mono ((List.take_sublist i entries).map EntryRecord.entry)).2.1
  set used := (totalUsed (journaled entries)).completion with hused
  set usedBefore := (totalUsed (journaled (entries.take i))).completion with husedBefore
  have hminer : record.entry.dispatch.minerRequest.ValidateAgainst codec config.policy := by
    have hdigest := hvalid.2.1.2.2.2.2.2.2.2.2.2.1
    unfold InferenceMinerRequestSHA256 at hdigest
    split at hdigest
    · assumption
    · cases hdigest
  have hlocked : record.entry.dispatch.lockedRequest =
      lockedOf config.policy (record.entry.dispatch.minerRequest.clamp
        (binding.completionTokenBudget - usedBefore)) := by
    have hroom : 0 < binding.completionTokenBudget - usedBefore := Nat.sub_pos_of_lt hbefore.2.1
    rw [lockInferenceRequest_clamp hminer hroom] at hlock
    exact (Option.some.inj hlock).symm
  have hmax : record.entry.dispatch.lockedRequest.maxCompletionTokens =
      min record.entry.dispatch.minerRequest.maxCompletionTokens (binding.completionTokenBudget - usedBefore) := by
    rw [hlocked]
    exact clamp_maxCompletionTokens _
  have hle : usedBefore ≤ used := hmono
  rw [validateDispatchAuthority_ok]
  constructor
  · rintro ⟨-, hbelow, hagain⟩
    have hroom : 0 < binding.completionTokenBudget - used := Nat.sub_pos_of_lt hbelow.2.1
    rw [← hused, lockInferenceRequest_clamp hminer hroom, hlocked, Option.some.injEq, lockedOf_clamp_eq_iff] at hagain
    refine ⟨hbelow, ?_⟩
    rw [hmax, ← hagain]
    exact min_le_right _ _
  · rintro ⟨hbelow, hcover⟩
    have hroom : 0 < binding.completionTokenBudget - used := Nat.sub_pos_of_lt hbelow.2.1
    rw [hmax, ← hused] at hcover
    refine ⟨hvalid, hbelow, ?_⟩
    rw [← hused, lockInferenceRequest_clamp hminer hroom, hlocked, Option.some.injEq, lockedOf_clamp_eq_iff]
    omega

/-! ## Calls on a clean journal -/

theorem call_nothing {journal : Journal} (hclean : journal.store.syncPending = false) (request : Call)
    (hadmissible : request.admissible codec config)
    (hplan : journal.store.plan codec layout config request = .ok []) (io : List Io) :
    journal.call codec layout config request true io = (journal, .ok ()) := by
  rw [call_clean hclean hadmissible, hplan]
  rfl

/-- A call whose plan is refused leaves a clean journal as it is. -/
theorem call_refused {journal : Journal} (hclean : journal.store.syncPending = false) (request : Call)
    (hplan : request.admissible codec config → ∃ e, journal.store.plan codec layout config request = .error e)
    (io : List Io) : ∃ e, journal.call codec layout config request true io = (journal, .error e) := by
  by_cases hadmissible : request.admissible codec config
  · obtain ⟨e, he⟩ := hplan hadmissible
    exact ⟨e, by rw [call_clean hclean hadmissible, he]⟩
  · exact ⟨.invalid, by rw [Journal.call, if_neg hadmissible]⟩

theorem error_of_not_ok {α : Type} {x : Except JournalError α} (h : ∀ a, x ≠ .ok a) : ∃ e, x = .error e := by
  cases x with
  | error e => exact ⟨e, rfl⟩
  | ok a => exact absurd rfl (h a)

theorem bindingsEqual_self {store : Store} (h : store.Sound codec layout config) {state : StateRecord}
    (hstate : store.state = some state) : bindingsEqual layout state.binding state.binding := by
  have hlength := (h.states state hstate).1
  have hpart := layout.binding_length state
  refine ⟨⟨layout.length_pos _, hpart.trans hlength, ?_⟩, rfl⟩
  rw [layout.binding_depth]
  omega

/-- A recorded dispatch can be cloned. -/
theorem dispatch_cloned {binding : Binding} {entries : List EntryRecord} {record : EntryRecord}
    (haccepted : Accepted codec layout config binding entries) (hmem : record ∈ entries) :
    ValidateJSONDocument layout (.dispatch record.entry.dispatch) maximumEntryBytes := by
  obtain ⟨i, hi⟩ := List.mem_iff_getElem?.mp hmem
  obtain ⟨-, hlength, hdepth⟩ := (haccepted.get hi).cloned
  have hpart := layout.dispatch_length record.entry
  have hinner := layout.dispatch_depth record.entry
  exact ⟨layout.length_pos _, hpart.trans hlength, by omega⟩

variable {journal : Journal} {state : StateRecord} {record : EntryRecord}

/-- The recorded entry of a dispatch's sequence. -/
theorem recorded_at (hok : journal.Ok codec layout config) (hmem : record ∈ journal.store.entries) {n : Nat}
    (hn : n = record.sequence) : journal.store.entries[n - 1]? = some record := by
  rw [hn]
  exact (hok.sound.accepted.mem_sequence hmem).2.2

theorem named_eq (hok : journal.Ok codec layout config) (hmem : record ∈ journal.store.entries) :
    record.entry.dispatch.sequence = record.sequence := by
  obtain ⟨i, hi⟩ := List.mem_iff_getElem?.mp hmem
  exact (hok.sound.accepted.get hi).named

/-- Beginning a recorded dispatch again plans nothing exactly while the budgets cover it. -/
theorem begin_again (hok : journal.Ok codec layout config) (hstate : journal.store.state = some state)
    (hmem : record ∈ journal.store.entries) :
    journal.store.Begin codec layout config state.binding record.entry.dispatch = .ok [] ↔
      BudgetLeft config.policy state.binding journal.store.entries record.entry.dispatch := by
  have haccepted := hok.sound.accepted
  rw [loadBinding_some hstate] at haccepted
  have hbound : ∀ other ∈ journal.store.state, bindingsEqual layout other.binding state.binding := by
    intro other hother
    obtain rfl : state = other := Option.some.inj (hstate.symm.trans hother)
    exact bindingsEqual_self hok.sound hstate
  unfold Store.Begin
  rw [ensure_bind_pos (dispatch_cloned haccepted hmem), check_bind_eq_ok_iff, authority_again haccepted hmem,
    ensure_bind_pos hbound, recorded_at hok hmem (named_eq hok hmem)]
  constructor
  · exact fun h => h.1
  · exact fun h => ⟨h, ensure_bind_pos rfl⟩

theorem complete_again (hok : journal.Ok codec layout config) (hstate : journal.store.state = some state)
    (hmem : record ∈ journal.store.entries) (hcompleted : record.entry.completed = true) :
    journal.store.Complete codec layout config state.binding record.entry = .ok [] := by
  have haccepted := hok.sound.accepted
  rw [loadBinding_some hstate] at haccepted
  obtain ⟨i, hi⟩ := List.mem_iff_getElem?.mp hmem
  have hsound := haccepted.get hi
  have hsequence := (haccepted.mem_sequence hmem).1
  unfold Store.Complete
  rw [hstate]
  show (ensure _ _ >>= _) = _
  rw [ensure_bind_pos ⟨hsound.cloned, (hsound.completion hcompleted).1⟩,
    ensure_bind_pos (bindingsEqual_self hok.sound hstate), ensure_bind_pos (by rw [hsound.named]; omega),
    recorded_at hok hmem (named_eq hok hmem)]
  show (if record.entry.completed = true then _ else _) = _
  rw [if_pos hcompleted]
  exact ensure_bind_pos rfl

theorem revoke_again (hok : journal.Ok codec layout config) (hstate : journal.store.state = some state)
    (hrevoked : state.revoked = true) : journal.store.Revoke layout config state.binding = .ok [] := by
  unfold Store.Revoke
  rw [hstate]
  show (ensure _ _ >>= _) = _
  rw [ensure_bind_pos (bindingsEqual_self hok.sound hstate), if_pos hrevoked]
  rfl

/-! ## Other bytes -/

theorem begin_other (hok : journal.Ok codec layout config) (hstate : journal.store.state = some state)
    (hmem : record ∈ journal.store.entries) {binding : Binding} {dispatch : DispatchRecord}
    (hsequence : dispatch.sequence = record.sequence)
    (hother : binding ≠ state.binding ∨ dispatch ≠ record.entry.dispatch) (plan : List Install) :
    journal.store.Begin codec layout config binding dispatch ≠ .ok plan := by
  intro hplan
  unfold Store.Begin at hplan
  rw [ensure_bind_eq_ok_iff, check_bind_eq_ok_iff, ensure_bind_eq_ok_iff, recorded_at hok hmem hsequence] at hplan
  obtain ⟨-, -, hbound, hplan⟩ := hplan
  change (ensure _ _ >>= _) = _ at hplan
  rw [ensure_bind_eq_ok_iff] at hplan
  rcases hother with hbinding | hdispatch
  · exact hbinding (hbound state hstate).2.symm
  · exact hdispatch hplan.1.symm

theorem complete_other (hok : journal.Ok codec layout config) (hstate : journal.store.state = some state)
    (hmem : record ∈ journal.store.entries) {binding : Binding} {entry : JournalEntry}
    (hsequence : entry.dispatch.sequence = record.sequence)
    (hother : binding ≠ state.binding ∨ entry.dispatch ≠ record.entry.dispatch ∨
      record.entry.completed ∧ entry ≠ record.entry) (plan : List Install) :
    journal.store.Complete codec layout config binding entry ≠ .ok plan := by
  intro hplan
  unfold Store.Complete at hplan
  rw [hstate] at hplan
  change (ensure _ _ >>= _) = _ at hplan
  rw [ensure_bind_eq_ok_iff, ensure_bind_eq_ok_iff, ensure_bind_eq_ok_iff, recorded_at hok hmem hsequence] at hplan
  obtain ⟨-, hbound, -, hplan⟩ := hplan
  change (if record.entry.completed = true then _ else _) = _ at hplan
  split at hplan
  · rw [ensure_bind_eq_ok_iff] at hplan
    rcases hother with hbinding | hdispatch | ⟨-, hentry⟩
    · exact hbinding hbound.2.symm
    · exact hdispatch (by rw [hplan.1])
    · exact hentry hplan.1.symm
  · rename_i hopen
    unfold Store.replaceMarker at hplan
    rw [ensure_bind_eq_ok_iff, ensure_bind_eq_ok_iff] at hplan
    obtain ⟨-, ⟨-, hdispatch⟩, -⟩ := hplan
    rcases hother with hbinding | hentry | ⟨hcompleted, -⟩
    · exact hbinding hbound.2.symm
    · exact hentry hdispatch.symm
    · exact hopen hcompleted

theorem revoke_other (hstate : journal.store.state = some state) {binding : Binding} (hother : binding ≠ state.binding)
    (plan : List Install) : journal.store.Revoke layout config binding ≠ .ok plan := by
  intro hplan
  unfold Store.Revoke at hplan
  rw [hstate] at hplan
  change (ensure _ _ >>= _) = _ at hplan
  rw [ensure_bind_eq_ok_iff] at hplan
  exact hother hplan.1.2.symm

/-! ## The theorem -/

/-- Journal calls are idempotent exactly while the budgets cover every recorded dispatch. -/
theorem replays_recognised_iff (h : Journal.Reachable codec layout config journal)
    (hclean : journal.store.syncPending = false) :
    Idempotent codec layout config journal ↔
      ∀ state ∈ journal.store.state, ∀ record ∈ journal.store.entries,
        BudgetLeft config.policy state.binding journal.store.entries record.entry.dispatch := by
  have hok := reachable_ok h
  have hadmissible : ∀ state ∈ journal.store.state, ∀ request : Call, request.binding = state.binding →
      request.completes = true → request.admissible codec config := by
    intro state hstate request hbinding hcompletes
    refine ⟨hcompletes, ?_⟩
    rw [hbinding]
    exact hok.sound.bound state hstate
  constructor
  · intro hidempotent state hstate record hmem
    have hcall := hidempotent.begun state hstate record hmem []
    rw [call_clean hclean (hadmissible state hstate _ rfl rfl)] at hcall
    cases hplan : journal.store.plan codec layout config (.begin state.binding record.entry.dispatch) with
    | error e =>
      rw [hplan] at hcall
      cases hcall
    | ok plan =>
      have hbegin : journal.store.Begin codec layout config state.binding record.entry.dispatch = .ok plan := hplan
      unfold Store.Begin at hbegin
      rw [ensure_bind_eq_ok_iff, check_bind_eq_ok_iff] at hbegin
      have haccepted := hok.sound.accepted
      rw [loadBinding_some hstate] at haccepted
      exact (authority_again haccepted hmem).mp hbegin.2.1
  · intro hbudget
    constructor
    · intro state hstate record hmem io
      exact call_nothing hclean (.begin state.binding record.entry.dispatch) (hadmissible state hstate _ rfl rfl)
        ((begin_again hok hstate hmem).mpr (hbudget state hstate record hmem)) io
    · intro state hstate record hmem hcompleted io
      exact call_nothing hclean (.complete state.binding record.entry) (hadmissible state hstate _ rfl hcompleted)
        (complete_again hok hstate hmem hcompleted) io
    · intro state hstate hrevoked io
      exact call_nothing hclean (.revoke state.binding) (hadmissible state hstate _ rfl rfl)
        (revoke_again hok hstate hrevoked) io
    · intro state hstate record hmem binding dispatch io hsequence hother
      exact call_refused hclean (.begin binding dispatch)
        (fun _ => error_of_not_ok (begin_other hok hstate hmem hsequence hother)) io
    · intro state hstate record hmem binding entry io hsequence hother
      exact call_refused hclean (.complete binding entry)
        (fun _ => error_of_not_ok (complete_other hok hstate hmem hsequence hother)) io
    · intro state hstate binding io hother
      exact call_refused hclean (.revoke binding) (fun _ => error_of_not_ok (revoke_other hstate hother)) io

end Replay

/-! ## A dispatch whose budget was used since -/

def sampleReceipt : InferenceReceipt where
  schema := InferenceReceiptSchema
  sequence := 1
  requestSequence := 1
  attempt := 1
  requestID := sampleDispatch.requestID
  lockedRequestSHA256 := sampleDispatch.lockedRequestSHA256
  promptSHA256 := samplePolicy.promptSHA256
  toolSchemaSHA256 := samplePolicy.toolSchemaSHA256
  outcome := .complete
  failureCode := none
  httpStatus := 200
  responseSHA256 := sampleSettlement.responseSHA256
  responseDigestKind := .normalized
  providerGenerationID := some "gen-1"
  providerSettlementSHA256 := "9dda78c9d5778314b2661fdc9cc6b8559563e148913592079ddc1352178c3abb"
  model := InferenceSolverModel
  providerRoute := "openai"
  providerRouteProfile := "openai-direct"
  providerSelected := true
  receiptProvider := some "OpenAI"
  fallbackUsed := false
  promptTokens := 10
  completionTokens := 200
  totalTokens := 210
  costUSDMicros := 50
  timedOut := false

def sampleEntry : JournalEntry :=
  ⟨sampleDispatch, some ⟨sampleSettlement, sampleReceipt, sampleNormalizedBody, [], sampleMinerBody⟩⟩

/-- The sample calls on a fresh journal, without faults. -/
def sampleCalls (requests : List Call) : Journal :=
  requests.foldl (fun journal request => sampleCall journal request []) Journal.fresh

theorem sampleCalls_append (requests : List Call) (request : Call) :
    sampleCalls (requests ++ [request]) = sampleCall (sampleCalls requests) request [] := by
  rw [sampleCalls, List.foldl_append, List.foldl_cons, List.foldl_nil, sampleCalls]

theorem sampleCalls_reachable (requests : List Call) :
    Journal.Reachable sampleCodec sampleLayout sampleConfig (sampleCalls requests) := by
  induction requests using List.reverseRecOn with
  | nil => exact Relation.ReflTransGen.refl
  | append_singleton requests request ih =>
    rw [sampleCalls_append]
    exact sampleCall_reachable ih _ _

def sampleCompleted : Journal := sampleCalls [.begin sampleBinding sampleDispatch, .complete sampleBinding sampleEntry]

/-- A synced journal of one record. -/
def oneRecord (state : StateRecord) (record : EntryRecord) : Journal :=
  let size := sampleLength (.record record)
  ⟨⟨some state, [(record.sequence, record)]⟩, ⟨some state, [(record.sequence, record)]⟩,
    ⟨some state, [record], 752, [size], 752 + size, false⟩⟩

/-- The journal of the open dispatch. -/
def dispatchedJournal : Journal := oneRecord ⟨1, sampleBinding, false⟩ ⟨1, 1, ⟨sampleDispatch, none⟩⟩

/-- The journal of the completed dispatch. -/
def completedJournal : Journal := oneRecord ⟨1, sampleBinding, false⟩ ⟨2, 1, sampleEntry⟩

theorem sampleCalls_dispatched : sampleCalls [.begin sampleBinding sampleDispatch] = dispatchedJournal := by
  rw [sampleCalls, List.foldl_cons, List.foldl_nil, sampleCall_dispatched]
  rfl

theorem sampleCompletion_matches :
    sampleSettlement.ValidateAgainstReceipt sampleCodec samplePolicy sampleReceipt = true := by
  unfold InferenceProviderSettlement.ValidateAgainstReceipt InferenceProviderSettlementSHA256
  rw [sampleSettlement_validate]
  decide +kernel

theorem sampleCompletion_valid : validateCompletedEntry sampleCodec samplePolicy sampleBinding sampleEntry := by
  have hresponses : responsesOk sampleCodec samplePolicy
      ⟨sampleSettlement, sampleReceipt, sampleNormalizedBody, [], sampleMinerBody⟩ = true := by
    decide +kernel
  exact ⟨sampleDispatch_valid, sampleBinding_valid, rfl, rfl, rfl, rfl, rfl, rfl, rfl, rfl, rfl, rfl, rfl, rfl,
    sampleSettlement_validate, sampleCompletion_matches, rfl, rfl, rfl, rfl, rfl, rfl, by decide, hresponses⟩

theorem sampleCompletion_plan :
    dispatchedJournal.store.plan sampleCodec sampleLayout sampleConfig (.complete sampleBinding sampleEntry) =
      .ok [.entry ⟨2, 1, sampleEntry⟩ 4476 true] := by
  refine (ensure_bind_pos ⟨?_, sampleCompletion_valid⟩).trans ?_
  · decide +kernel
  · decide +kernel

theorem sampleCompletion_call :
    dispatchedJournal.call sampleCodec sampleLayout sampleConfig (.complete sampleBinding sampleEntry) true [] =
      (completedJournal, .ok ()) := by
  rw [call_clean rfl (sample_admissible rfl rfl), sampleCompletion_plan]
  rfl

theorem sampleCompleted_eq : sampleCompleted = completedJournal := by
  rw [sampleCompleted, ← List.singleton_append, sampleCalls_append, sampleCalls_dispatched, sampleCall,
    sampleCompletion_call]

/-- After its completion used 200 of 500 completion tokens, the dispatch that was locked to 400 is refused as a
conflict. -/
theorem replayed_dispatch_conflicts :
    Journal.Reachable sampleCodec sampleLayout sampleConfig sampleCompleted ∧
    sampleCompleted.store.syncPending = false ∧
    sampleCompleted.store.entries.map (fun record => record.entry.dispatch) = [sampleDispatch] ∧
    sampleCompleted.store.state.map StateRecord.binding = some sampleBinding ∧
    sampleCompleted.call sampleCodec sampleLayout sampleConfig (.begin sampleBinding sampleDispatch) true [] =
      (sampleCompleted, .error .conflict) := by
  refine ⟨sampleCalls_reachable _, ?_⟩
  have hauthority : validateDispatchAuthority sampleCodec samplePolicy sampleBinding completedJournal.store.entries
      sampleDispatch = .error .conflict := by
    unfold validateDispatchAuthority
    rw [ensure_bind_pos ⟨sampleBinding_valid, sampleDispatch_valid, by decide⟩]
    decide +kernel
  have hplan : completedJournal.store.plan sampleCodec sampleLayout sampleConfig (.begin sampleBinding sampleDispatch) =
      .error .conflict := by
    show (ensure _ _ >>= fun _ => validateDispatchAuthority sampleCodec samplePolicy sampleBinding
      completedJournal.store.entries sampleDispatch >>= _) = _
    rw [ensure_bind_pos (by decide), hauthority]
    rfl
  rw [sampleCompleted_eq, call_clean rfl (sample_admissible rfl rfl), hplan]
  exact ⟨rfl, rfl, rfl, rfl⟩

theorem open_dispatch_recognised :
    Idempotent sampleCodec sampleLayout sampleConfig (sampleCalls [.begin sampleBinding sampleDispatch]) ↔
      ∀ state ∈ (sampleCalls [.begin sampleBinding sampleDispatch]).store.state,
        ∀ record ∈ (sampleCalls [.begin sampleBinding sampleDispatch]).store.entries,
          BudgetLeft sampleConfig.policy state.binding
            (sampleCalls [.begin sampleBinding sampleDispatch]).store.entries record.entry.dispatch :=
  replays_recognised_iff (sampleCalls_reachable _) (by rw [sampleCalls_dispatched]; rfl)

end DittoSubnet.Coding

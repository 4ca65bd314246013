import DittoSubnet.Coding.Journal

/-!
# What the journal always holds

Every entry record passed, when it was written, the checks the loader will make of it against the records before it
(`SoundRecord`, `Accepted`), and the bytes it takes are counted and reserved (`Store.Sound`). Each call keeps this
(`plan_sound`), and recovering the files of a sound store gives the same store back unless a record is nested too deeply
for the reader (`recover_image`).
-/

namespace DittoSubnet.Coding

open Kit

/-! ## Usage -/

/-- The usage of a list of entries. -/
def totalUsed (entries : List JournalEntry) : Used :=
  ⟨(entries.map JournalEntry.promptTokens).sum, (entries.map JournalEntry.completionTokens).sum,
    (entries.map JournalEntry.costUSDMicros).sum⟩

/-- No counter overflows. -/
def Used.Fits (used : Used) : Prop :=
  used.prompt ≤ maxUint64 ∧ used.completion ≤ maxUint64 ∧ used.cost ≤ maxUint64

theorem totalUsed_append (left right : List JournalEntry) :
    totalUsed (left ++ right) =
      ⟨(totalUsed left).prompt + (totalUsed right).prompt, (totalUsed left).completion + (totalUsed right).completion,
        (totalUsed left).cost + (totalUsed right).cost⟩ := by
  simp [totalUsed]

theorem usage_append (left right : List JournalEntry) (overflow : JournalError) :
    usage (left ++ right) overflow =
      usage left overflow >>= fun used => right.foldlM (fun used entry => used.add entry overflow) used := by
  unfold usage
  rw [List.foldlM_append]

theorem add_eq_ok {used next : Used} {entry : JournalEntry} {overflow : JournalError}
    (h : used.add entry overflow = .ok next) :
    next = ⟨used.prompt + entry.promptTokens, used.completion + entry.completionTokens,
      used.cost + entry.costUSDMicros⟩ := by
  unfold Used.add at h
  split at h
  · cases h
  · cases h
    rfl

/-- A loop over the entries that ends without overflow has computed the totals. -/
theorem usage_eq_ok {entries : List JournalEntry} {overflow : JournalError} {used : Used}
    (h : usage entries overflow = .ok used) : used = totalUsed entries := by
  induction entries using List.reverseRecOn generalizing used with
  | nil =>
    cases h
    rfl
  | append_singleton entries entry ih =>
    rw [usage_append, bind_eq_ok_iff] at h
    obtain ⟨before, hbefore, hadd⟩ := h
    simp only [List.foldlM_cons, List.foldlM_nil, bind_pure] at hadd
    rw [add_eq_ok hadd, ih hbefore, totalUsed_append]
    simp [totalUsed]

theorem usage_of_fits {entries : List JournalEntry} (hfits : (totalUsed entries).Fits) (overflow : JournalError) :
    usage entries overflow = .ok (totalUsed entries) := by
  induction entries using List.reverseRecOn with
  | nil => rfl
  | append_singleton entries entry ih =>
    rw [totalUsed_append] at hfits
    obtain ⟨hp, hc, hk⟩ := hfits
    simp only [totalUsed, List.map_cons, List.map_nil, List.sum_cons, List.sum_nil, Nat.add_zero] at hp hc hk
    have hbefore : (totalUsed entries).Fits := by
      refine ⟨?_, ?_, ?_⟩ <;> simp only [totalUsed] <;> omega
    rw [usage_append, ih hbefore]
    have hroom : ¬ ((totalUsed entries).prompt > maxUint64 - entry.promptTokens ∨
        (totalUsed entries).completion > maxUint64 - entry.completionTokens ∨
        (totalUsed entries).cost > maxUint64 - entry.costUSDMicros) := by
      simp only [totalUsed]
      omega
    show (List.foldlM _ _ _) = _
    simp only [List.foldlM_cons, List.foldlM_nil, bind_pure]
    rw [Used.add, if_neg hroom, totalUsed_append]
    simp [totalUsed]

theorem totalUsed_mono {left right : List JournalEntry} (h : left.Sublist right) :
    (totalUsed left).prompt ≤ (totalUsed right).prompt ∧ (totalUsed left).completion ≤ (totalUsed right).completion ∧
      (totalUsed left).cost ≤ (totalUsed right).cost :=
  ⟨(h.map _).sum_le_sum (fun _ _ => Nat.zero_le _), (h.map _).sum_le_sum (fun _ _ => Nat.zero_le _),
    (h.map _).sum_le_sum (fun _ _ => Nat.zero_le _)⟩

/-- An open entry uses nothing. -/
theorem totalUsed_completed (entries : List JournalEntry) :
    totalUsed (entries.filter JournalEntry.completed) = totalUsed entries := by
  induction entries with
  | nil => rfl
  | cons entry entries ih =>
    have hcons : ∀ rest : List JournalEntry, totalUsed (entry :: rest) = totalUsed ([entry] ++ rest) := fun _ => rfl
    rw [hcons entries, totalUsed_append]
    by_cases h : entry.completed = true
    · rw [List.filter_cons_of_pos h, hcons, totalUsed_append, ih]
    · rw [List.filter_cons_of_neg h, ih]
      have hnone : entry.completion = none := by
        simpa [JournalEntry.completed] using h
      simp [totalUsed, JournalEntry.promptTokens, JournalEntry.completionTokens, JournalEntry.costUSDMicros, hnone]

/-- Usage stays within a binding's budgets and the policy's cost. -/
def Used.Within (used : Used) (policy : InferencePolicy) (binding : Binding) : Prop :=
  used.prompt ≤ binding.promptTokenBudget ∧ used.completion ≤ binding.completionTokenBudget ∧
    used.cost ≤ policy.maxCostUSDMicros

/-- Something is left of every budget. -/
def Used.Below (used : Used) (policy : InferencePolicy) (binding : Binding) : Prop :=
  used.prompt < binding.promptTokenBudget ∧ used.completion < binding.completionTokenBudget ∧
    used.cost < policy.maxCostUSDMicros

theorem Used.Below.within {used : Used} {policy : InferencePolicy} {binding : Binding} (h : used.Below policy binding) :
    used.Within policy binding :=
  ⟨h.1.le, h.2.1.le, h.2.2.le⟩

section Checks

variable {codec : Codec} {layout : Layout} {config : JournalConfig} {policy : InferencePolicy} {binding : Binding}
  {entries : List EntryRecord} {dispatch : DispatchRecord}

/-- The entries of the records. -/
def journaled (entries : List EntryRecord) : List JournalEntry := entries.map EntryRecord.entry

theorem validateBinding_policy (h : validateBinding codec policy binding) : policy.Validate := by
  have hdigest := h.2.2.2.2.2.2.2.2.2.1
  unfold InferencePolicySHA256 at hdigest
  split at hdigest
  · assumption
  · cases hdigest

/-- Budgets of a valid binding are far below the counters' range. -/
theorem Used.Within.fits {used : Used} (hbinding : validateBinding codec policy binding)
    (h : used.Within policy binding) : used.Fits := by
  obtain ⟨-, hbudget⟩ := validateBinding_policy hbinding
  have hp := hbinding.2.2.2.2.2.2.2.2.2.2.2.2.2.2.2.2.2.1
  have hc := hbinding.2.2.2.2.2.2.2.2.2.2.2.2.2.2.2.2.2.2.2.1
  have h1 := hbudget.prompt_le
  have h2 := hbudget.completion_le
  have h3 := hbudget.cost_le
  have hmax : maxUint64 = 18446744073709551615 := by decide
  have hcost : maxInferenceCostUSDMicros = 100000000 := rfl
  obtain ⟨hprompt, hcompletion, hk⟩ := h
  refine ⟨?_, ?_, ?_⟩ <;> omega

/-- Authority over a dispatch: nothing overflowed, something is left of every budget, and the locked request is the
miner request clamped to what is left. -/
theorem validateDispatchAuthority_ok :
    validateDispatchAuthority codec policy binding entries dispatch = .ok () ↔
      (validateBinding codec policy binding ∧ validateDispatch codec policy dispatch ∧
        dispatch.requestSequence ≤ binding.requestBudget) ∧
      (totalUsed (journaled entries)).Below policy binding ∧
      LockInferenceRequest codec policy
        (dispatch.minerRequest.clamp (binding.completionTokenBudget - (totalUsed (journaled entries)).completion)) =
          some dispatch.lockedRequest := by
  unfold validateDispatchAuthority
  rw [ensure_bind_eq_ok_iff]
  constructor
  · rintro ⟨hvalid, h⟩
    rw [bind_eq_ok_iff] at h
    obtain ⟨used, hused, h⟩ := h
    rw [ensure_bind_eq_ok_iff, ensure_eq_ok_iff] at h
    rw [usage_eq_ok hused] at h
    exact ⟨hvalid, h.1, h.2⟩
  · rintro ⟨hvalid, hbelow, hlock⟩
    have hused : usage (entries.map EntryRecord.entry) .invalid = .ok (totalUsed (journaled entries)) :=
      usage_of_fits (hbelow.within.fits hvalid.1) _
    refine ⟨hvalid, ?_⟩
    rw [hused]
    show (ensure _ _ >>= fun _ => ensure _ _) = _
    rw [ensure_bind_eq_ok_iff, ensure_eq_ok_iff]
    exact ⟨hbelow, hlock⟩

/-- The usage check on a next entry whose sequence no record has. -/
theorem validateCompletedUsage_ok {next : JournalEntry} (hbinding : validateBinding codec policy binding)
    (hfresh : ∀ record ∈ entries, record.sequence ≠ next.dispatch.sequence) :
    validateCompletedUsage policy binding entries next = .ok () ↔
      (totalUsed (journaled entries ++ [next])).Within policy binding := by
  have hothers : entries.filter (fun record => record.sequence ≠ next.dispatch.sequence) = entries := by
    rw [List.filter_eq_self]
    intro record hmem
    simpa using hfresh record hmem
  unfold validateCompletedUsage
  rw [hothers, bind_eq_ok_iff]
  constructor
  · rintro ⟨used, hused, h⟩
    rw [ensure_eq_ok_iff] at h
    rw [usage_eq_ok hused, totalUsed_completed] at h
    exact h
  · intro h
    refine ⟨totalUsed (journaled entries ++ [next]), ?_, ?_⟩
    · rw [← totalUsed_completed]
      exact usage_of_fits (by rw [totalUsed_completed]; exact h.fits hbinding) _
    · rw [ensure_eq_ok_iff]
      exact h

end Checks

/-! ## Sound records -/

section Sound

variable (codec : Codec) (layout : Layout) (config : JournalConfig)

/-- What the writer checked of a record, against the records before it. -/
structure SoundRecord (binding : Binding) (loaded : List EntryRecord) (record : EntryRecord) : Prop where
  cloned : ValidateJSONDocument layout (.entry record.entry) maximumEntryBytes
  bounded : layout.length (.record record) ≤ maximumEntryBytes
  generation : record.generation = if record.entry.completed then 2 else 1
  sequence : record.sequence = loaded.length + 1
  named : record.entry.dispatch.sequence = record.sequence
  authority : validateDispatchAuthority codec config.policy binding loaded record.entry.dispatch = .ok ()
  transition : validateDispatchTransition loaded record.entry.dispatch = .ok ()
  completion : record.entry.completed →
    validateCompletedEntry codec config.policy binding record.entry ∧
      validateCompletedUsage config.policy binding loaded record.entry = .ok ()

/-- Every record is sound against those before it. -/
def Accepted (binding : Binding) (entries : List EntryRecord) : Prop :=
  ∀ before record after, entries = before ++ record :: after → SoundRecord codec layout config binding before record

/-- The last entry is a dispatch without its completion. -/
def lastOpen (entries : List EntryRecord) : Bool :=
    (entries.getLast?.map fun record => !record.entry.completed).getD false

/-- The invariant of an open store. -/
structure Store.Sound (store : Store) : Prop where
  unbound : store.state = none → store.entries = []
  bound : ∀ state ∈ store.state, validateBinding codec config.policy state.binding
  states : ∀ state ∈ store.state, layout.length (.state state) ≤ maximumStateBytes ∧
    (state.generation = 1 ∨ state.generation = 2 ∧ state.revoked = true)
  accepted : Accepted codec layout config store.loadBinding store.entries
  count : store.entries.length ≤ config.maxEntries
  stateBytes : store.stateBytes = (store.state.map fun record => layout.length (.state record)).getD 0
  entryBytes : store.entryBytes = store.entries.map fun record => layout.length (.record record)
  physical : store.physicalBytes = store.stateBytes + store.entryBytes.sum
  fits : store.physicalBytes ≤ config.maxTotalBytes
  reserved : ∀ state ∈ store.state, state.revoked = false →
    store.physicalBytes + (maximumStateBytes - store.stateBytes) +
      (if lastOpen store.entries then maximumEntryBytes else 0) ≤ config.maxTotalBytes

end Sound

section Accepted

variable {codec : Codec} {layout : Layout} {config : JournalConfig} {binding : Binding} {entries : List EntryRecord}
  {record : EntryRecord}

theorem Accepted.nil : Accepted codec layout config binding [] := by
  intro before record after h
  cases before <;> cases h

theorem Accepted.front (h : Accepted codec layout config binding (entries ++ [record])) :
    Accepted codec layout config binding entries := by
  intro before current after hsplit
  exact h before current (after ++ [record]) (by simp [hsplit])

theorem Accepted.last (h : Accepted codec layout config binding (entries ++ [record])) :
    SoundRecord codec layout config binding entries record :=
  h entries record [] rfl

theorem Accepted.snoc (h : Accepted codec layout config binding entries)
    (hrecord : SoundRecord codec layout config binding entries record) :
    Accepted codec layout config binding (entries ++ [record]) := by
  intro before current after hsplit
  rcases List.eq_nil_or_concat after with rfl | ⟨front, last, rfl⟩
  · obtain ⟨rfl, heq⟩ := List.append_inj' hsplit rfl
    obtain rfl : record = current := by simpa using heq
    exact hrecord
  · have hsplit' : entries ++ [record] = (before ++ current :: front) ++ [last] := by simpa using hsplit
    obtain ⟨hfront, -⟩ := List.append_inj' hsplit' rfl
    exact h before current front hfront

/-- The record at a position is sound against those before it. -/
theorem Accepted.get (h : Accepted codec layout config binding entries) {i : Nat} (hi : entries[i]? = some record) :
    SoundRecord codec layout config binding (entries.take i) record := by
  obtain ⟨hlt, rfl⟩ := List.getElem?_eq_some_iff.mp hi
  refine h _ _ (entries.drop (i + 1)) ?_
  rw [List.cons_getElem_drop_succ, List.take_append_drop]

theorem Accepted.sequence (h : Accepted codec layout config binding entries) {i : Nat}
    (hi : entries[i]? = some record) : record.sequence = i + 1 := by
  have hlt : i < entries.length := (List.getElem?_eq_some_iff.mp hi).1
  rw [(h.get hi).sequence, List.length_take]
  omega

theorem Accepted.mem_sequence (h : Accepted codec layout config binding entries) (hmem : record ∈ entries) :
    0 < record.sequence ∧ record.sequence ≤ entries.length ∧ entries[record.sequence - 1]? = some record := by
  obtain ⟨i, hi⟩ := List.mem_iff_getElem?.mp hmem
  have hlt : i < entries.length := (List.getElem?_eq_some_iff.mp hi).1
  have hsequence := h.sequence hi
  refine ⟨by omega, by omega, ?_⟩
  rw [hsequence]
  exact hi

/-- A record number past the end is no record's. -/
theorem Accepted.fresh (h : Accepted codec layout config binding entries) {n : Nat} (hn : entries.length < n) :
    ∀ record ∈ entries, record.sequence ≠ n := by
  intro record hmem
  have := (h.mem_sequence hmem).2.1
  omega

theorem SoundRecord.valid (h : SoundRecord codec layout config binding entries record) :
    validateBinding codec config.policy binding ∧ validateDispatch codec config.policy record.entry.dispatch :=
  ⟨(validateDispatchAuthority_ok.mp h.authority).1.1, (validateDispatchAuthority_ok.mp h.authority).1.2.1⟩

/-- An entry recorded under a binding stays within the budgets with all before it. -/
theorem SoundRecord.within (hbefore : Accepted codec layout config binding entries)
    (h : SoundRecord codec layout config binding entries record) :
    (totalUsed (journaled (entries ++ [record]))).Within config.policy binding := by
  by_cases hcompleted : record.entry.completed = true
  · have hfresh : ∀ other ∈ entries, other.sequence ≠ record.entry.dispatch.sequence := by
      rw [h.named, h.sequence]
      exact hbefore.fresh (Nat.lt_succ_self _)
    have husage := (validateCompletedUsage_ok h.valid.1 hfresh).mp (h.completion hcompleted).2
    simpa [journaled] using husage
  · -- An open entry adds nothing to what the authority check saw.
    have hbelow := (validateDispatchAuthority_ok.mp h.authority).2.1
    have hnone : totalUsed (journaled (entries ++ [record])) = totalUsed (journaled entries) := by
      rw [← totalUsed_completed (journaled (entries ++ [record])), ← totalUsed_completed (journaled entries)]
      simp [journaled, hcompleted]
    rw [hnone]
    exact hbelow.within

/-- The usage of an accepted journal is within the budgets. -/
theorem Accepted.within (h : Accepted codec layout config binding entries) :
    (totalUsed (journaled entries)).Within config.policy binding := by
  rcases List.eq_nil_or_concat entries with rfl | ⟨front, last, rfl⟩
  · exact ⟨Nat.zero_le _, Nat.zero_le _, Nat.zero_le _⟩
  · rw [List.concat_eq_append] at h ⊢
    exact h.last.within h.front

end Accepted

/-! ## Loading -/

section Loading

variable {codec : Codec} {layout : Layout} {config : JournalConfig} {binding : Binding} {entries : List EntryRecord}
  {record : EntryRecord} {store : Store}

@[simp] theorem orCorrupt_eq_ok {check : Except JournalError Unit} : orCorrupt check = .ok () ↔ check = .ok () := by
  cases check with
  | ok u => simp [orCorrupt]
  | error e => simp [orCorrupt]

theorem decodeEntryRecord_ok : decodeEntryRecord codec layout config binding record = .ok () ↔
    (ValidateJSONDocument layout (.record record) maximumEntryBytes ∧ record.generation ≠ 0 ∧
      record.generation ≤ 2 ∧ (record.entry.completed → record.generation = 2) ∧
      (¬ record.entry.completed → record.generation = 1) ∧ record.sequence ≠ 0 ∧
      record.entry.dispatch.sequence = record.sequence) ∧
    ValidateJSONDocument layout (.entry record.entry) maximumEntryBytes ∧
    (record.entry.completed → validateCompletedEntry codec config.policy binding record.entry) ∧
    (¬ record.entry.completed → validateDispatch codec config.policy record.entry.dispatch) := by
  unfold decodeEntryRecord
  rw [ensure_bind_eq_ok_iff, ensure_bind_eq_ok_iff]
  by_cases hcompleted : record.entry.completed = true
  · simp [hcompleted]
  · simp [hcompleted]

/-- The loader accepts a sound record unless it is nested too deeply for the reader. -/
theorem loadCheck_ok : loadCheck codec layout config binding entries record = .ok () ↔
    SoundRecord codec layout config binding entries record ∧ layout.depth (.record record) ≤ 32 := by
  unfold loadCheck
  rw [check_bind_eq_ok_iff, decodeEntryRecord_ok, ensure_bind_eq_ok_iff, check_bind_eq_ok_iff, check_bind_eq_ok_iff,
    orCorrupt_eq_ok, orCorrupt_eq_ok]
  by_cases hcompleted : record.entry.completed = true
  · rw [if_pos hcompleted, orCorrupt_eq_ok]
    constructor
    · rintro ⟨⟨⟨hjson, -, -, hgeneration, -, -, hnamed⟩, hcloned, hentry, -⟩, hsequence, hauthority, htransition,
        husage⟩
      refine ⟨⟨hcloned, hjson.2.1, ?_, hsequence, hnamed, hauthority, htransition, ?_⟩, hjson.2.2⟩
      · rw [if_pos hcompleted]
        exact hgeneration hcompleted
      · intro _
        exact ⟨hentry hcompleted, husage⟩
    · rintro ⟨hsound, hdepth⟩
      have hgeneration := hsound.generation
      rw [if_pos hcompleted] at hgeneration
      have hsequence := hsound.sequence
      obtain ⟨hentry, husage⟩ := hsound.completion hcompleted
      refine ⟨⟨⟨⟨layout.length_pos _, hsound.bounded, hdepth⟩, by omega, by omega, fun _ => hgeneration,
        fun h => absurd hcompleted h, by omega, hsound.named⟩, hsound.cloned, fun _ => hentry,
        fun h => absurd hcompleted h⟩, hsequence, hsound.authority, hsound.transition, husage⟩
  · rw [if_neg hcompleted]
    constructor
    · rintro ⟨⟨⟨hjson, -, -, -, hgeneration, -, hnamed⟩, hcloned, -, -⟩, hsequence, hauthority, htransition, -⟩
      refine ⟨⟨hcloned, hjson.2.1, ?_, hsequence, hnamed, hauthority, htransition, ?_⟩, hjson.2.2⟩
      · rw [if_neg hcompleted]
        exact hgeneration hcompleted
      · intro h
        exact absurd h hcompleted
    · rintro ⟨hsound, hdepth⟩
      have hgeneration := hsound.generation
      rw [if_neg hcompleted] at hgeneration
      have hsequence := hsound.sequence
      refine ⟨⟨⟨⟨layout.length_pos _, hsound.bounded, hdepth⟩, by omega, by omega, fun h => absurd h hcompleted,
        fun _ => hgeneration, by omega, hsound.named⟩, hsound.cloned, fun h => absurd h hcompleted,
        fun _ => hsound.valid.2⟩, hsequence, hsound.authority, hsound.transition, rfl⟩

theorem followsLast_completed {previous : JournalEntry} {dispatch : DispatchRecord}
    (h : followsLast previous dispatch = .ok ()) : previous.completed = true := by
  unfold followsLast at h
  split at h
  · cases h
  · rename_i completion hsome
    simp [JournalEntry.completed, hsome]

theorem validateDispatchTransition_last {dispatch : DispatchRecord}
    (h : validateDispatchTransition (entries ++ [record]) dispatch = .ok ()) :
    followsLast record.entry dispatch = .ok () := by
  unfold validateDispatchTransition at h
  rw [ensure_bind_eq_ok_iff, ensure_bind_eq_ok_iff] at h
  simpa using h.2.2

/-- The files of a list of records. -/
def numbered (entries : List EntryRecord) : List (Nat × EntryRecord) := entries.map fun record =>
    (record.sequence, record)

/-- Only the last record of an accepted journal is open. -/
theorem Accepted.completed_before {before after : List EntryRecord}
    (h : Accepted codec layout config binding (before ++ record :: after)) :
    record.entry.completed = true ∨ after = [] := by
  cases after with
  | nil => exact .inr rfl
  | cons next after =>
    have hnext := h (before ++ [record]) next after (by simp)
    exact .inl (followsLast_completed (validateDispatchTransition_last hnext.transition))

/-- Loading the remaining files of an accepted journal reads them all back. -/
theorem loadEntries_numbered {rest : List EntryRecord}
    (haccepted : Accepted codec layout config store.loadBinding (store.entries ++ rest))
    (hreadable : ∀ record ∈ rest, layout.depth (.record record) ≤ 32)
    (hfits : store.physicalBytes + (rest.map fun record => layout.length (.record record)).sum ≤ config.maxTotalBytes) :
    store.loadEntries codec layout config (numbered rest) =
      .ok { store with
        entries := store.entries ++ rest
        entryBytes := store.entryBytes ++ rest.map fun record => layout.length (.record record)
        physicalBytes := store.physicalBytes + (rest.map fun record => layout.length (.record record)).sum } := by
  induction rest generalizing store with
  | nil => simp [numbered, Store.loadEntries]
  | cons record rest ih =>
    have hsound := haccepted store.entries record rest rfl
    have hcheck := loadCheck_ok.mpr ⟨hsound, hreadable record List.mem_cons_self⟩
    have hlast : record.entry.completed = true ∨ rest.map (fun record => (record.sequence, record)) = [] := by
      simpa using haccepted.completed_before
    simp only [List.map_cons, List.sum_cons] at hfits
    show (ensure _ _ >>= fun _ => _) = _
    rw [ensure_bind_pos ⟨hsound.sequence, rfl⟩]
    show (loadCheck codec layout config store.loadBinding store.entries record >>= _) = _
    rw [hcheck]
    show (ensure _ _ >>= fun _ => _) = _
    rw [ensure_bind_pos hlast]
    have hsize : ¬ layout.length (.record record) > config.maxTotalBytes - store.physicalBytes := by omega
    have hloaded : (store.loaded config record (layout.length (.record record))).physicalBytes =
        store.physicalBytes + layout.length (.record record) := by
      simp only [Store.loaded, if_neg hsize]
    have hrest := @ih (store.loaded config record (layout.length (.record record)))
      (by simpa [Store.loaded, Store.loadBinding] using haccepted)
      (fun other hmem => hreadable other (List.mem_cons_of_mem _ hmem))
      (by rw [hloaded]; omega)
    show (store.loaded config record _).loadEntries codec layout config (numbered rest) = _
    rw [hrest, hloaded]
    simp [Store.loaded, Nat.add_assoc]

/-- Whatever the loader accepts is within the reader's nesting limit. -/
theorem readable_of_loadEntries {rest : List EntryRecord} {recovered : Store}
    (h : store.loadEntries codec layout config (numbered rest) = .ok recovered) :
    ∀ record ∈ rest, layout.depth (.record record) ≤ 32 := by
  induction rest generalizing store with
  | nil =>
    intro record hmem
    cases hmem
  | cons first rest ih =>
    change (ensure _ _ >>= fun _ => _) = _ at h
    rw [ensure_bind_eq_ok_iff] at h
    change _ ∧ (loadCheck codec layout config store.loadBinding store.entries first >>= _) = _ at h
    rw [check_bind_eq_ok_iff, loadCheck_ok, ensure_bind_eq_ok_iff] at h
    obtain ⟨-, ⟨-, hdepth⟩, -, hrest⟩ := h
    intro record hmem
    rcases List.mem_cons.mp hmem with rfl | hmem
    · exact hdepth
    · exact ih hrest record hmem

end Loading

/-! ## Recovery of a sound store -/

/-- The files a store has written. -/
def Store.image (store : Store) : Disk := ⟨store.state, numbered store.entries⟩

/-- Every record is within the nesting limit of the reader. -/
def Readable (layout : Layout) (entries : List EntryRecord) : Prop :=
  ∀ record ∈ entries, layout.depth (.record record) ≤ 32

section Recovery

variable {codec : Codec} {layout : Layout} {config : JournalConfig} {store : Store}

theorem Store.Sound.sync (h : store.Sound codec layout config) (b : Bool) :
    Store.Sound codec layout config { store with syncPending := b } :=
  ⟨h.unbound, h.bound, h.states, h.accepted, h.count, h.stateBytes, h.entryBytes, h.physical, h.fits, h.reserved⟩

theorem Accepted.sorted {binding : Binding} {entries : List EntryRecord}
    (h : Accepted codec layout config binding entries) :
    (numbered entries).Pairwise (fun a b => decide (a.1 ≤ b.1) = true) := by
  unfold numbered
  rw [List.pairwise_map, List.pairwise_iff_getElem]
  intro i j hi hj hij
  have hfirst := h.sequence (List.getElem?_eq_getElem hi)
  have hsecond := h.sequence (List.getElem?_eq_getElem hj)
  rw [decide_eq_true_iff]
  omega

theorem image_sorted (h : store.Sound codec layout config) : store.image.sorted = numbered store.entries :=
  List.mergeSort_of_pairwise h.accepted.sorted

theorem validateBinding_cost {policy : InferencePolicy} {binding : Binding}
    (h : validateBinding codec policy binding) : 0 < binding.costBudgetUSDMicros :=
  h.2.2.2.2.2.2.2.2.2.2.2.2.2.2.2.2.2.2.2.2.1

theorem withCostBudget_eq {binding : Binding} (h : validateBinding codec config.policy binding) :
    binding.withCostBudget config = binding := by
  have hcost := validateBinding_cost h
  rw [Binding.withCostBudget, if_neg (by omega)]

theorem decodeStateRecord_ok (h : store.Sound codec layout config) {state : StateRecord}
    (hstate : store.state = some state) :
    decodeStateRecord layout state = .ok state := by
  obtain ⟨hlength, hgeneration⟩ := h.states state hstate
  have hdepth : layout.depth (.state state) ≤ 32 := by
    rw [layout.state_depth, layout.binding_depth]
    omega
  unfold decodeStateRecord
  rw [ensure_bind_pos]
  · rfl
  · refine ⟨⟨layout.length_pos _, hlength, hdepth⟩, by omega, by omega, ?_⟩
    intro htwo
    rcases hgeneration with hone | hrevoked
    · omega
    · exact hrevoked.2

/-- The store before its entries are loaded. -/
def Store.bare (store : Store) : Store := ⟨store.state, [], store.stateBytes, [], store.stateBytes, false⟩

/-- Recovery of a sound store's files reads the state record back and goes on to the entries. -/
theorem recover_image_eq (h : store.Sound codec layout config) :
    store.image.recover codec layout config = (do
      let recovered ← store.bare.loadEntries codec layout config (numbered store.entries)
      ensure (recovered.state.isSome ∨ recovered.entries = []) .corrupt
      pure recovered) := by
  have hcount : (numbered store.entries).length ≤ config.maxEntries := by
    simpa [numbered] using h.count
  unfold Disk.recover
  rw [image_sorted h]
  cases hstate : store.state with
  | none =>
    have hbytes : store.stateBytes = 0 := by
      rw [h.stateBytes, hstate]
      rfl
    simp only [Store.image, hstate, pure_bind]
    rw [ensure_bind_pos hcount]
    simp [Store.bare, hstate, hbytes]
  | some state =>
    have hbytes : store.stateBytes = layout.length (.state state) := by
      rw [h.stateBytes, hstate]
      rfl
    have hbinding := h.bound state hstate
    simp only [Store.image, hstate]
    rw [decodeStateRecord_ok h hstate]
    show (ensure (validateBinding codec config.policy (state.binding.withCostBudget config)) _ >>= _) = _
    rw [withCostBudget_eq hbinding, ensure_bind_pos hbinding]
    show (ensure _ _ >>= _) = _
    rw [ensure_bind_pos hcount]
    simp [Store.bare, hstate, hbytes]

theorem bare_loads (h : store.Sound codec layout config) (hreadable : Readable layout store.entries) :
    store.bare.loadEntries codec layout config (numbered store.entries) = .ok { store with syncPending := false } := by
  have hsum := h.physical
  have hfits := h.fits
  have hbytes := h.entryBytes
  rw [hbytes] at hsum
  have hroom : store.bare.physicalBytes +
      (store.entries.map fun record => layout.length (.record record)).sum ≤ config.maxTotalBytes := by
    show store.stateBytes + _ ≤ _
    omega
  have haccepted : Accepted codec layout config store.bare.loadBinding (store.bare.entries ++ store.entries) :=
    h.accepted
  rw [loadEntries_numbered haccepted hreadable hroom]
  simp [Store.bare, hsum, hbytes]

/-- Recovering the files of a sound store gives the store back, with its generations, sequences and bytes. -/
theorem recover_image (h : store.Sound codec layout config) (hreadable : Readable layout store.entries) :
    store.image.recover codec layout config = .ok { store with syncPending := false } := by
  have hbound : store.state.isSome ∨ store.entries = [] := by
    cases hstate : store.state with
    | none => exact .inr (h.unbound hstate)
    | some state => exact .inl rfl
  rw [recover_image_eq h, bare_loads h hreadable]
  show (ensure _ _ >>= _) = _
  rw [ensure_bind_pos hbound]
  rfl

/-- A recovery that succeeds gives the store back. -/
theorem eq_of_recover_image (h : store.Sound codec layout config) {recovered : Store}
    (hrecover : store.image.recover codec layout config = .ok recovered) :
    Readable layout store.entries ∧ recovered = { store with syncPending := false } := by
  have hloads := hrecover
  rw [recover_image_eq h, bind_eq_ok_iff] at hloads
  obtain ⟨loaded, hloaded, -⟩ := hloads
  have hreadable : Readable layout store.entries := readable_of_loadEntries hloaded
  refine ⟨hreadable, ?_⟩
  rw [recover_image h hreadable] at hrecover
  exact (Except.ok.inj hrecover).symm

end Recovery

/-! ## Installs keep a store sound -/

section Installs

variable {codec : Codec} {layout : Layout} {config : JournalConfig} {store : Store} {binding : Binding}
  {front : List EntryRecord} {current : EntryRecord}

/-- What a store never gives up: its binding, its revocation and its completed entries. -/
structure Store.Extends (store later : Store) : Prop where
  state : ∀ state ∈ store.state, ∃ next ∈ later.state, next.binding = state.binding ∧
    (state.revoked = true → next.revoked = true)
  entries : ∀ record ∈ store.entries, record.entry.completed = true → record ∈ later.entries

theorem Store.Extends.refl (store : Store) : store.Extends store :=
  ⟨fun state hstate => ⟨state, hstate, rfl, id⟩, fun _ hmem _ => hmem⟩

theorem Store.Extends.trans {first second third : Store} (h : first.Extends second) (h' : second.Extends third) :
    first.Extends third := by
  constructor
  · intro state hstate
    obtain ⟨next, hnext, hbinding, hrevoked⟩ := h.state state hstate
    obtain ⟨last, hlast, hbinding', hrevoked'⟩ := h'.state next hnext
    exact ⟨last, hlast, hbinding'.trans hbinding, fun hr => hrevoked' (hrevoked hr)⟩
  · intro record hmem hcompleted
    exact h'.entries record (h.entries record hmem hcompleted) hcompleted

/-- An install keeps the store sound and what it holds, and the rename does to the files what the store does in
memory. -/
structure SoundInstall (codec : Codec) (layout : Layout) (config : JournalConfig) (store : Store) (install : Install) :
    Prop where
  sound : (store.install install).Sound codec layout config
  file : store.image.install install = .ok (store.install install).image
  kept : store.Extends (store.install install)

/-- The installs of a plan, one after the other. -/
def SoundPlan (codec : Codec) (layout : Layout) (config : JournalConfig) (store : Store) : List Install → Prop
  | [] => True
  | install :: rest =>
    SoundInstall codec layout config store install ∧ SoundPlan codec layout config (store.install install) rest

theorem install_fresh {disk : Disk} {record : EntryRecord} (h : record.sequence ∉ disk.entries.map Prod.fst)
    (bytes : Nat) :
    disk.install (.entry record bytes false) =
      .ok { disk with entries := disk.entries ++ [(record.sequence, record)] } := by
  unfold Disk.install
  dsimp only
  rw [if_neg (by decide), if_neg h]

theorem install_present {disk : Disk} {record : EntryRecord} (h : record.sequence ∈ disk.entries.map Prod.fst)
    (bytes : Nat) :
    disk.install (.entry record bytes true) =
      .ok { disk with entries := disk.entries.map fun file =>
        if file.1 = record.sequence then (file.1, record) else file } := by
  unfold Disk.install
  dsimp only
  rw [if_pos rfl, if_pos h]

theorem loadBinding_some {state : StateRecord} (h : store.state = some state) : store.loadBinding = state.binding := by
  rw [Store.loadBinding, h]

/-- The first state record. -/
theorem soundInstall_first (h : store.Sound codec layout config) (hnone : store.state = none)
    (hbinding : validateBinding codec config.policy binding) {revoked : Bool}
    (hlength : layout.length (.state ⟨1, binding, revoked⟩) ≤ maximumStateBytes)
    (hfits : layout.length (.state ⟨1, binding, revoked⟩) ≤ config.maxTotalBytes)
    (hreserved : revoked = false → maximumStateBytes ≤ config.maxTotalBytes) :
    SoundInstall codec layout config store
      (.state ⟨1, binding, revoked⟩ (layout.length (.state ⟨1, binding, revoked⟩)) false) := by
  have hentries := h.unbound hnone
  have hbytes : store.stateBytes = 0 := by
    rw [h.stateBytes, hnone]
    rfl
  have hentryBytes : store.entryBytes = [] := by
    rw [h.entryBytes, hentries]
    rfl
  have hphysical : store.physicalBytes = 0 := by
    rw [h.physical, hbytes, hentryBytes]
    rfl
  constructor
  · constructor
    · intro hcontra
      cases hcontra
    · intro state hstate
      cases hstate
      exact hbinding
    · intro state hstate
      cases hstate
      exact ⟨hlength, .inl rfl⟩
    · simp only [Store.install, hentries]
      exact Accepted.nil
    · simp [Store.install, hentries]
    · rfl
    · simp [Store.install, hentries, hentryBytes]
    · simp [Store.install, hphysical, hbytes, hentryBytes]
    · simp only [Store.install]
      omega
    · intro state hstate hopen
      cases hstate
      have hmax := hreserved hopen
      simp only [Store.install, hentries, lastOpen]
      simp
      omega
  · simp [Store.image, Disk.install, Store.install, hnone]
  · constructor
    · intro state hstate
      rw [hnone] at hstate
      cases hstate
    · intro record hmem
      rw [hentries] at hmem
      cases hmem

/-- The state record of a revocation. -/
theorem soundInstall_revoke (h : store.Sound codec layout config) {state : StateRecord}
    (hstate : store.state = some state)
    (hopen : state.revoked = false)
    (hlength : layout.length (.state ⟨state.generation + 1, state.binding, true⟩) ≤ maximumStateBytes)
    (hfits : store.physicalBytes +
      layout.length (.state ⟨state.generation + 1, state.binding, true⟩) - store.stateBytes ≤ config.maxTotalBytes) :
    SoundInstall codec layout config store
      (.state ⟨state.generation + 1, state.binding, true⟩
        (layout.length (.state ⟨state.generation + 1, state.binding, true⟩)) true) := by
  have hphysical := h.physical
  have hgeneration : state.generation = 1 := by
    rcases (h.states state hstate).2 with hone | ⟨-, hrevoked⟩
    · exact hone
    · rw [hopen] at hrevoked
      cases hrevoked
  constructor
  · constructor
    · intro hcontra
      cases hcontra
    · intro next hnext
      cases hnext
      exact h.bound state hstate
    · intro next hnext
      cases hnext
      refine ⟨hlength, .inr ⟨?_, rfl⟩⟩
      simp [hgeneration]
    · have haccepted := h.accepted
      rw [loadBinding_some hstate] at haccepted
      exact haccepted
    · exact h.count
    · rfl
    · exact h.entryBytes
    · simp only [Store.install]
      omega
    · exact hfits
    · intro next hnext hcontra
      cases hnext
      cases hcontra
  · simp [Store.image, Disk.install, Store.install, hstate]
  · constructor
    · intro current hcurrent
      obtain rfl : state = current := Option.some.inj (hstate.symm.trans hcurrent)
      exact ⟨_, rfl, rfl, fun _ => rfl⟩
    · exact fun record hmem _ => hmem

/-- The marker of the next dispatch. -/
theorem soundInstall_marker (h : store.Sound codec layout config) {state : StateRecord}
    (hstate : store.state = some state)
    {record : EntryRecord} (hsound : SoundRecord codec layout config state.binding store.entries record)
    (hopen : record.entry.completed = false) (hcount : store.entries.length < config.maxEntries)
    (hreserved : store.physicalBytes + layout.length (.record record) + (maximumStateBytes - store.stateBytes) +
      maximumEntryBytes ≤ config.maxTotalBytes) :
    SoundInstall codec layout config store (.entry record (layout.length (.record record)) false) := by
  have hphysical := h.physical
  constructor
  · constructor
    · intro hcontra
      rw [show (store.install _).state = store.state from rfl, hstate] at hcontra
      cases hcontra
    · exact h.bound
    · exact h.states
    · have haccepted := h.accepted
      rw [loadBinding_some hstate] at haccepted
      have hbinding : (store.install (.entry record (layout.length (.record record)) false)).loadBinding =
          state.binding := loadBinding_some hstate
      rw [hbinding]
      exact haccepted.snoc hsound
    · simp only [Store.install, List.length_append, List.length_cons, List.length_nil]
      omega
    · exact h.stateBytes
    · simp [Store.install, h.entryBytes]
    · simp only [Store.install, List.sum_append, List.sum_cons, List.sum_nil]
      omega
    · simp only [Store.install]
      omega
    · intro next hnext hrevoked
      have hlast : lastOpen (store.entries ++ [record]) = true := by simp [lastOpen, hopen]
      simp only [Store.install, hlast, if_true]
      omega
  · have hfresh : record.sequence ∉ (numbered store.entries).map Prod.fst := by
      intro hmem
      obtain ⟨other, hother, heq⟩ : ∃ other ∈ store.entries, other.sequence = record.sequence := by
        simpa [numbered] using hmem
      have hlast := (h.accepted.mem_sequence hother).2.1
      have hsequence := hsound.sequence
      omega
    rw [install_fresh hfresh]
    simp [Store.image, Store.install, numbered]
  · exact ⟨fun state hstate => ⟨state, hstate, rfl, id⟩, fun other hmem _ => List.mem_append_left _ hmem⟩

theorem numbered_append (left right : List EntryRecord) :
    numbered (left ++ right) = numbered left ++ numbered right := by
  simp [numbered]

/-- Replacing the file of the last record. -/
theorem map_numbered_last (haccepted : Accepted codec layout config binding (front ++ [current])) {record : EntryRecord}
    (hsequence : record.sequence = current.sequence) :
    ((numbered (front ++ [current])).map fun file => if file.1 = record.sequence then (file.1, record) else file) =
      numbered (front ++ [record]) := by
  have hcurrent := haccepted.last.sequence
  have hfront : (numbered front).map (fun file => if file.1 = record.sequence then (file.1, record) else file) =
      numbered front := by
    rw [List.map_congr_left (g := id) ?_, List.map_id]
    rintro ⟨number, other⟩ hmem
    obtain ⟨hother, rfl⟩ : other ∈ front ∧ other.sequence = number := by
      simpa [numbered] using hmem
    have hle := (haccepted.front.mem_sequence hother).2.1
    rw [if_neg (by omega)]
    rfl
  rw [numbered_append, numbered_append, List.map_append, hfront]
  simp [numbered, hsequence]

/-- The completion of the open dispatch. -/
theorem soundInstall_completion (h : store.Sound codec layout config) {state : StateRecord}
    (hstate : store.state = some state) (hunrevoked : state.revoked = false)
    (hentries : store.entries = front ++ [current])
    (hopen : current.entry.completed = false) {record : EntryRecord}
    (hsound : SoundRecord codec layout config state.binding front record) (hcompleted : record.entry.completed = true) :
    SoundInstall codec layout config store (.entry record (layout.length (.record record)) true) := by
  have haccepted := h.accepted
  rw [loadBinding_some hstate, hentries] at haccepted
  have hphysical := h.physical
  have hlength := hsound.bounded
  have hcurrent : current.sequence = front.length + 1 := haccepted.last.sequence
  have hindex : record.sequence - 1 = front.length := by
    rw [hsound.sequence]
    omega
  have hbytes : store.entryBytes = (front.map fun record => layout.length (.record record)) ++
      [layout.length (.record current)] := by
    rw [h.entryBytes, hentries, List.map_append]
    rfl
  have hold : (store.entryBytes[record.sequence - 1]?).getD 0 = layout.length (.record current) := by
    rw [hindex, hbytes]
    simp
  have hset : store.entries.set (record.sequence - 1) record = front ++ [record] := by
    rw [hindex, hentries]
    simp
  have hsetBytes : store.entryBytes.set (record.sequence - 1) (layout.length (.record record)) =
      (front.map fun record => layout.length (.record record)) ++ [layout.length (.record record)] := by
    rw [hindex, hbytes]
    simp
  have hsum : store.entryBytes.sum =
      (front.map fun record => layout.length (.record record)).sum + layout.length (.record current) := by
    rw [hbytes]
    simp
  have hreserved := h.reserved state hstate hunrevoked
  have hlastOpen : lastOpen store.entries = true := by
    rw [hentries]
    simp [lastOpen, hopen]
  rw [hlastOpen, if_pos rfl] at hreserved
  constructor
  · constructor
    · intro hcontra
      rw [show (store.install _).state = store.state from rfl, hstate] at hcontra
      cases hcontra
    · exact h.bound
    · exact h.states
    · have hbinding : (store.install (.entry record (layout.length (.record record)) true)).loadBinding =
          state.binding := loadBinding_some hstate
      rw [hbinding]
      show Accepted codec layout config state.binding (store.entries.set _ _)
      rw [hset]
      exact haccepted.front.snoc hsound
    · have hcount := h.count
      simp only [Store.install, List.length_set]
      exact hcount
    · exact h.stateBytes
    · simp only [Store.install]
      rw [hset, hsetBytes]
      simp
    · simp only [Store.install]
      rw [hsetBytes, hold]
      simp only [List.sum_append, List.sum_cons, List.sum_nil]
      omega
    · simp only [Store.install]
      rw [hold]
      omega
    · intro next hnext hrevoked
      have hclosed : lastOpen (store.entries.set (record.sequence - 1) record) = false := by
        rw [hset]
        simp [lastOpen, hcompleted]
      simp only [Store.install, hold, hclosed]
      simp
      omega
  · have hsequence : record.sequence = current.sequence := by
      rw [hsound.sequence, hcurrent]
    have hpresent : record.sequence ∈ (numbered (front ++ [current])).map Prod.fst := by
      simp [numbered, hsequence]
    have hfile : record.sequence ∈ store.image.entries.map Prod.fst := by
      simp only [Store.image, hentries]
      exact hpresent
    rw [install_present hfile]
    simp only [Store.image, Store.install]
    rw [hset, hentries, map_numbered_last haccepted hsequence]
  · constructor
    · exact fun state hstate => ⟨state, hstate, rfl, id⟩
    · intro other hmem hdone
      simp only [Store.install]
      rw [hset]
      rw [hentries] at hmem
      rcases List.mem_append.mp hmem with hfront | hlast
      · exact List.mem_append_left _ hfront
      · rw [List.mem_singleton.mp hlast, hopen] at hdone
        cases hdone

end Installs

/-! ## Plans keep a store sound -/

section Plans

variable {codec : Codec} {layout : Layout} {config : JournalConfig} {store : Store} {binding : Binding}
  {installs : List Install}

theorem stateRecordBytes_ok {record : StateRecord} {n : Nat} : stateRecordBytes layout record = .ok n ↔
    layout.length (.state record) ≤ maximumStateBytes ∧ n = layout.length (.state record) := by
  unfold stateRecordBytes
  split
  · rename_i h
    simp [h, eq_comm]
  · rename_i h
    simp [h]

theorem entryRecordBytes_ok {record : EntryRecord} {n : Nat} : entryRecordBytes layout record = .ok n ↔
    ValidateJSONDocument layout (.entry record.entry) maximumEntryBytes ∧
      layout.length (.record record) ≤ maximumEntryBytes ∧ n = layout.length (.record record) := by
  unfold entryRecordBytes
  rw [ensure_bind_eq_ok_iff]
  split
  · rename_i h
    simp [h, eq_comm]
  · rename_i h
    simp [h]

theorem hasCapacity_iff {n : Nat} (h : store.physicalBytes ≤ config.maxTotalBytes) :
    store.hasCapacity config n ↔ store.physicalBytes + n ≤ config.maxTotalBytes := by
  unfold Store.hasCapacity
  omega

theorem load_sound (hplan : store.Load layout binding = .ok installs) :
    SoundPlan codec layout config store installs := by
  unfold Store.Load at hplan
  split at hplan
  · cases hplan
    trivial
  · rw [ensure_bind_eq_ok_iff, ensure_bind_eq_ok_iff] at hplan
    cases hplan.2.2
    trivial

theorem bind_sound (h : store.Sound codec layout config) (hbinding : validateBinding codec config.policy binding)
    (hplan : store.Bind layout config binding = .ok installs) : SoundPlan codec layout config store installs := by
  unfold Store.Bind at hplan
  split at hplan
  · rw [ensure_bind_eq_ok_iff, ensure_bind_eq_ok_iff] at hplan
    cases hplan.2.2
    trivial
  · rename_i hnone
    rw [ensure_bind_eq_ok_iff, bind_eq_ok_iff] at hplan
    obtain ⟨-, body, hbody, hplan⟩ := hplan
    rw [ensure_bind_eq_ok_iff] at hplan
    obtain ⟨hcapacity, hplan⟩ := hplan
    obtain ⟨hlength, rfl⟩ := stateRecordBytes_ok.mp hbody
    rw [hasCapacity_iff h.fits] at hcapacity
    cases hplan
    have hstate : maximumStateBytes = 65536 := rfl
    have hentry : maximumEntryBytes = 50331648 := rfl
    exact ⟨soundInstall_first h hnone hbinding hlength (by omega) (fun _ => by omega), trivial⟩

/-- What `appendDispatch` checked of the new record. -/
theorem soundRecord_marker {dispatch : DispatchRecord}
    (hauthority : validateDispatchAuthority codec config.policy binding store.entries dispatch = .ok ())
    (hsequence : dispatch.sequence = store.entries.length + 1)
    (htransition : validateDispatchTransition store.entries dispatch = .ok ())
    (hcloned : ValidateJSONDocument layout (.entry ⟨dispatch, none⟩) maximumEntryBytes)
    (hbounded : layout.length (.record ⟨1, dispatch.sequence, ⟨dispatch, none⟩⟩) ≤ maximumEntryBytes) :
    SoundRecord codec layout config binding store.entries ⟨1, dispatch.sequence, ⟨dispatch, none⟩⟩ :=
  ⟨hcloned, hbounded, rfl, hsequence, rfl, hauthority, htransition, (fun hcontra => by cases hcontra)⟩

theorem appendDispatch_sound (h : store.Sound codec layout config)
    (hbinding : validateBinding codec config.policy binding)
    {dispatch : DispatchRecord}
    (hauthority : validateDispatchAuthority codec config.policy binding store.entries dispatch = .ok ())
    (hbound : ∀ state ∈ store.state, bindingsEqual layout state.binding binding)
    (hplan : store.appendDispatch layout config binding dispatch = .ok installs) :
    SoundPlan codec layout config store installs := by
  unfold Store.appendDispatch at hplan
  rw [ensure_bind_eq_ok_iff, ensure_bind_eq_ok_iff] at hplan
  obtain ⟨hunrevoked, ⟨hsequence, hcount, htransition⟩, hplan⟩ := hplan
  rw [bind_eq_ok_iff] at hplan
  obtain ⟨entryBody, hentryBody, hplan⟩ := hplan
  obtain ⟨hcloned, hbounded, rfl⟩ := entryRecordBytes_ok.mp hentryBody
  have hsound := soundRecord_marker hauthority hsequence htransition hcloned hbounded
  rw [bind_eq_ok_iff] at hplan
  obtain ⟨pending, hpending, hplan⟩ := hplan
  change (ensure _ _ >>= fun _ => _) = _ at hplan
  rw [ensure_bind_eq_ok_iff, hasCapacity_iff h.fits] at hplan
  obtain ⟨hcapacity, hplan⟩ := hplan
  cases hplan
  have hstateMax : maximumStateBytes = 65536 := rfl
  unfold Store.firstState at hpending
  split at hpending
  · -- The journal is bound: only the marker is installed.
    rename_i state hstate
    cases hpending
    have heq := (hbound state hstate).2
    rw [← heq] at hsound
    refine ⟨soundInstall_marker h hstate hsound rfl hcount ?_, trivial⟩
    simp only [Store.stateGrowthHeadroom, Option.map_none, Option.getD_none] at hcapacity
    split at hcapacity <;> omega
  · -- The first dispatch binds the journal before its marker.
    rename_i hnone
    rw [ensure_bind_eq_ok_iff, bind_eq_ok_iff] at hpending
    obtain ⟨-, body, hbody, hpending⟩ := hpending
    obtain ⟨hlength, rfl⟩ := stateRecordBytes_ok.mp hbody
    cases hpending
    simp only [Store.stateGrowthHeadroom, Option.map_some, Option.getD_some] at hcapacity
    have hentryMax : maximumEntryBytes = 50331648 := rfl
    have hfirst := soundInstall_first h hnone hbinding hlength
      (by split at hcapacity <;> omega) (fun _ => by split at hcapacity <;> omega)
    have hentries := h.unbound hnone
    have hbytes : store.stateBytes = 0 := by
      rw [h.stateBytes, hnone]
      rfl
    refine ⟨hfirst, soundInstall_marker hfirst.sound rfl hsound rfl hcount ?_, trivial⟩
    simp only [Store.install]
    split at hcapacity <;> omega

theorem begin_sound (h : store.Sound codec layout config) (hbinding : validateBinding codec config.policy binding)
    {dispatch : DispatchRecord} (hplan : store.Begin codec layout config binding dispatch = .ok installs) :
    SoundPlan codec layout config store installs := by
  unfold Store.Begin at hplan
  rw [ensure_bind_eq_ok_iff, check_bind_eq_ok_iff, ensure_bind_eq_ok_iff] at hplan
  obtain ⟨-, hauthority, hbound, hplan⟩ := hplan
  split at hplan
  · rw [ensure_bind_eq_ok_iff] at hplan
    cases hplan.2
    trivial
  · exact appendDispatch_sound h hbinding hauthority hbound hplan

/-- The usage check does not count the marker that the completed entry replaces. -/
theorem validateCompletedUsage_marker {policy : InferencePolicy} {front : List EntryRecord} {current : EntryRecord}
    {next : JournalEntry} (hsequence : current.sequence = next.dispatch.sequence) :
    validateCompletedUsage policy binding (front ++ [current]) next =
      validateCompletedUsage policy binding front next := by
  unfold validateCompletedUsage
  rw [List.filter_append]
  simp [hsequence]

theorem replaceMarker_sound (h : store.Sound codec layout config) {state : StateRecord}
    (hstate : store.state = some state)
    (heq : state.binding = binding) {entry : JournalEntry}
    (hvalid : validateCompletedEntry codec config.policy state.binding entry) {current : EntryRecord}
    (hcurrent : store.entries[entry.dispatch.sequence - 1]? = some current)
    (hopen : current.entry.completed = false) (hcompleted : entry.completed = true)
    (hplan : store.replaceMarker layout config binding state current entry = .ok installs) :
    SoundPlan codec layout config store installs := by
  unfold Store.replaceMarker at hplan
  rw [ensure_bind_eq_ok_iff, ensure_bind_eq_ok_iff, bind_eq_ok_iff] at hplan
  obtain ⟨hunrevoked, ⟨hsequence, hdispatch⟩, body, hbody, hplan⟩ := hplan
  obtain ⟨hcloned, hbounded, rfl⟩ := entryRecordBytes_ok.mp hbody
  rw [check_bind_eq_ok_iff, ensure_bind_eq_ok_iff] at hplan
  obtain ⟨husage, -, hplan⟩ := hplan
  cases hplan
  have haccepted := h.accepted
  rw [loadBinding_some hstate, heq] at haccepted
  have hmarker := haccepted.get hcurrent
  have hlt : entry.dispatch.sequence - 1 < store.entries.length := (List.getElem?_eq_some_iff.mp hcurrent).1
  -- The open marker is the last record.
  obtain ⟨front, hentries⟩ : ∃ front, store.entries = front ++ [current] := by
    rcases List.eq_nil_or_concat store.entries with hnil | ⟨front, last, hlast⟩
    · rw [hnil] at hlt
      cases hlt
    · rw [List.concat_eq_append] at hlast
      refine ⟨front, ?_⟩
      rw [hsequence, hlast, List.length_append, List.length_singleton, Nat.add_sub_cancel,
        List.getElem?_concat_length] at hcurrent
      rw [hlast, Option.some.inj hcurrent]
  rw [hentries] at haccepted
  have hlast := haccepted.last
  have hnumber : entry.dispatch.sequence = front.length + 1 := by
    rw [hsequence, hentries, List.length_append, List.length_singleton]
  have hrecord : SoundRecord codec layout config binding front
      ⟨current.generation + 1, entry.dispatch.sequence, entry⟩ := by
    refine ⟨hcloned, hbounded, ?_, hnumber, rfl, ?_, ?_, ?_⟩
    · have hgeneration := hlast.generation
      rw [hopen] at hgeneration
      show current.generation + 1 = _
      rw [hgeneration, hcompleted]
      rfl
    · rw [← hdispatch]
      exact hlast.authority
    · rw [← hdispatch]
      exact hlast.transition
    · intro _
      rw [hentries, validateCompletedUsage_marker (by rw [hlast.sequence, hnumber])] at husage
      rw [heq] at hvalid
      exact ⟨hvalid, husage⟩
  rw [← heq] at hrecord
  exact ⟨soundInstall_completion h hstate hunrevoked hentries hopen hrecord hcompleted, trivial⟩

theorem complete_sound (h : store.Sound codec layout config) {entry : JournalEntry}
    (hcompleted : entry.completed = true)
    (hplan : store.Complete codec layout config binding entry = .ok installs) :
    SoundPlan codec layout config store installs := by
  unfold Store.Complete at hplan
  split at hplan
  · cases hplan
  · rename_i state hstate
    rw [ensure_bind_eq_ok_iff, ensure_bind_eq_ok_iff, ensure_bind_eq_ok_iff] at hplan
    obtain ⟨⟨-, hvalid⟩, hbound, -, hplan⟩ := hplan
    split at hplan
    · cases hplan
    · rename_i current hcurrent
      split at hplan
      · rw [ensure_bind_eq_ok_iff] at hplan
        cases hplan.2
        trivial
      · rename_i hopen
        exact replaceMarker_sound h hstate hbound.2 hvalid hcurrent (by simpa using hopen) hcompleted hplan

theorem revoke_sound (h : store.Sound codec layout config) (hbinding : validateBinding codec config.policy binding)
    (hplan : store.Revoke layout config binding = .ok installs) : SoundPlan codec layout config store installs := by
  unfold Store.Revoke at hplan
  split at hplan
  · rename_i state hstate
    rw [ensure_bind_eq_ok_iff] at hplan
    obtain ⟨-, hplan⟩ := hplan
    split at hplan
    · cases hplan
      trivial
    · rename_i hopen
      rw [bind_eq_ok_iff] at hplan
      obtain ⟨body, hbody, hplan⟩ := hplan
      rw [ensure_bind_eq_ok_iff, hasCapacity_iff h.fits] at hplan
      obtain ⟨hcapacity, hplan⟩ := hplan
      obtain ⟨hlength, rfl⟩ := stateRecordBytes_ok.mp hbody
      cases hplan
      have hphysical := h.physical
      have hfits := h.fits
      refine ⟨soundInstall_revoke h hstate (by simpa using hopen) hlength ?_, trivial⟩
      unfold replacementDelta at hcapacity
      split at hcapacity <;> omega
  · rename_i hnone
    rw [ensure_bind_eq_ok_iff, bind_eq_ok_iff] at hplan
    obtain ⟨-, body, hbody, hplan⟩ := hplan
    rw [ensure_bind_eq_ok_iff, hasCapacity_iff h.fits] at hplan
    obtain ⟨hcapacity, hplan⟩ := hplan
    obtain ⟨hlength, rfl⟩ := stateRecordBytes_ok.mp hbody
    cases hplan
    have hbytes : store.stateBytes = 0 := by
      rw [h.stateBytes, hnone]
      rfl
    refine ⟨soundInstall_first h hnone hbinding hlength ?_ (fun hcontra => by cases hcontra), trivial⟩
    unfold replacementDelta at hcapacity
    split at hcapacity <;> omega

/-- Whatever an admissible call decides to install keeps the store sound, step by step. -/
theorem plan_sound (h : store.Sound codec layout config) {call : Call} (hadmissible : call.admissible codec config)
    (hplan : store.plan codec layout config call = .ok installs) : SoundPlan codec layout config store installs := by
  obtain ⟨hcompletes, hbinding⟩ := hadmissible
  cases call with
  | load binding => exact load_sound hplan
  | bind binding => exact bind_sound h hbinding hplan
  | begin binding dispatch => exact begin_sound h hbinding hplan
  | complete binding entry => exact complete_sound h hcompletes hplan
  | revoke binding => exact revoke_sound h hbinding hplan

end Plans

end DittoSubnet.Coding

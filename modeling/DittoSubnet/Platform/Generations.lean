import DittoSubnet.Platform.Voids

/-!
# Generations of voided samples

Appends and voids run at the same time, statement by statement. A committed generation is voided before the next one is
stored, whatever was read when.

* `Contiguous`: what the tables keep. The stored generations of a key are `0..n`, and all but possibly the last are
  voided.
* `Underway`: what a running call knows. Its facts speak of committed rows, which never change, so that the commits of
  others keep them.
* `confirmation_generations`: what holds after every run.
-/

namespace DittoSubnet.Platform

open Kit Kit.ReadCommitted

variable {F : Type} {samples samples' : Samples F} {key : SampleKey}

/-! ## What the tables keep -/

/-- A sample of a key is stored, or set aside. -/
def Stored (samples : Samples F) (key : SampleKey) (generation : ℕ) (sample : Sample F) : Prop :=
  Dict.get? samples ⟨.score, key, generation⟩ = some sample

def Voided (samples : Samples F) (key : SampleKey) (generation : ℕ) (sample : Sample F) : Prop :=
  Dict.get? samples ⟨.void, key, generation⟩ = some sample

/-- A void names a stored sample, a sample below a stored one is voided, and its run is not stored again. -/
structure Contiguous (samples : Samples F) : Prop where
  nodup : (Dict.keys samples).Nodup
  names : ∀ {key generation void}, Voided samples key generation void →
    ∃ sample, Stored samples key generation sample ∧ sample.runId = void.runId ∧ sample.composite = void.composite
  below : ∀ {key generation sample}, Stored samples key generation sample → ∀ earlier < generation,
    ∃ void, Voided samples key earlier void ∧ void.runId ≠ sample.runId

theorem contiguous_nil : Contiguous ([] : Samples F) where
  nodup := List.nodup_nil
  names := fun h => nomatch h
  below := fun h => nomatch h

/-- The voided generations are closed downwards. -/
theorem Contiguous.voided_below (h : Contiguous samples) {generation : ℕ} {void : Sample F}
    (hvoid : Voided samples key generation void) {earlier : ℕ} (hlt : earlier < generation) :
    ∃ void, Voided samples key earlier void := by
  obtain ⟨sample, hstored, -⟩ := h.names hvoid
  obtain ⟨void', hvoid', -⟩ := h.below hstored earlier hlt
  exact ⟨void', hvoid'⟩

theorem Contiguous.stored_below (h : Contiguous samples) {generation : ℕ} {sample : Sample F}
    (hstored : Stored samples key generation sample) {earlier : ℕ} (hlt : earlier < generation) :
    ∃ sample, Stored samples key earlier sample := by
  obtain ⟨void, hvoid, -⟩ := h.below hstored earlier hlt
  obtain ⟨sample', hstored', -⟩ := h.names hvoid
  exact ⟨sample', hstored'⟩

theorem mem_voidsOn (h : (Dict.keys samples).Nodup) {generation : ℕ} {void : Sample F} :
    (generation, void) ∈ voidsOn samples key ↔ Voided samples key generation void := by
  simp only [voidsOn, List.mem_map, List.mem_filter, decide_eq_true_eq, Prod.mk.injEq, Voided]
  constructor
  · rintro ⟨⟨⟨table, key', generation'⟩, void'⟩, ⟨hmem, rfl, rfl⟩, rfl, rfl⟩
    exact Dict.get?_of_mem h hmem
  · intro hget
    exact ⟨(⟨.void, key, generation⟩, void), ⟨Dict.mem_of_get? hget, rfl, rfl⟩, rfl, rfl⟩

/-- A list of distinct numbers that holds every smaller number is an initial segment. -/
theorem mem_iff_lt_length {l : List ℕ} (hnodup : l.Nodup) (hclosed : ∀ n ∈ l, ∀ m < n, m ∈ l) (n : ℕ) :
    n ∈ l ↔ n < l.length := by
  have hsegment : ∀ m, m ∈ l → m < l.length := by
    intro m hm
    have hsub : List.range (m + 1) ⊆ l := by
      intro k hk
      rcases Nat.lt_succ_iff_lt_or_eq.1 (List.mem_range.1 hk) with hlt | rfl
      · exact hclosed m hm k hlt
      · exact hm
    have hlen := (List.nodup_range.subperm hsub).length_le
    rw [List.length_range] at hlen
    omega
  refine ⟨hsegment n, fun hn => ?_⟩
  by_contra hnot
  -- Everything in the list is below the first number that is missing.
  have hsub : l ⊆ List.range n := by
    intro m hm
    rw [List.mem_range]
    by_contra hle
    rcases Nat.lt_or_eq_of_le (Nat.le_of_not_lt hle) with hlt | rfl
    · exact hnot (hclosed m hm n hlt)
    · exact hnot hm
  have hlen := (hnodup.subperm hsub).length_le
  rw [List.length_range] at hlen
  omega

/-- The number of voids on a key says which generations are voided. -/
theorem Contiguous.voided_iff (h : Contiguous samples) (generation : ℕ) :
    (∃ void, Voided samples key generation void) ↔ generation < (voidsOn samples key).length := by
  have hmem : ∀ g, g ∈ (voidsOn samples key).map Prod.fst ↔ ∃ void, Voided samples key g void := by
    intro g
    simp only [List.mem_map, Prod.exists, mem_voidsOn h.nodup, exists_and_right, exists_eq_right]
  have hnodup : ((voidsOn samples key).map Prod.fst).Nodup := by
    rw [voidsOn, List.map_map]
    have hkeys : ((samples.filter fun row => row.1.table = .void ∧ row.1.key = key).map Prod.fst).Nodup :=
      h.nodup.sublist (List.filter_sublist.map Prod.fst)
    have hmap := hkeys.map_on (f := RowKey.voidGeneration) ?_
    · rwa [List.map_map] at hmap
    · intro a ha b hb heq
      obtain ⟨row, hrow, rfl⟩ := List.mem_map.1 ha
      obtain ⟨row', hrow', rfl⟩ := List.mem_map.1 hb
      simp only [List.mem_filter, decide_eq_true_eq] at hrow hrow'
      obtain ⟨⟨table, k, g⟩, sample⟩ := row
      obtain ⟨⟨table', k', g'⟩, sample'⟩ := row'
      simp only at hrow hrow' heq
      rw [hrow.2.1, hrow.2.2, hrow'.2.1, hrow'.2.2, heq]
  rw [← hmem, mem_iff_lt_length hnodup, List.length_map]
  intro g hg m hlt
  obtain ⟨void, hvoid⟩ := (hmem g).1 hg
  exact (hmem m).2 (h.voided_below hvoid hlt)

/-- The stored generations of a key are `0..n` without a gap, and all but possibly the last are voided. -/
theorem Contiguous.segments (h : Contiguous samples) (key : SampleKey) : ∃ stored voided,
    (∀ generation, (∃ sample, Stored samples key generation sample) ↔ generation < stored) ∧
    (∀ generation, (∃ void, Voided samples key generation void) ↔ generation < voided) ∧
    voided ≤ stored ∧ stored ≤ voided + 1 := by
  set voided := (voidsOn samples key).length with hvoided
  have hvoid : ∀ generation, (∃ void, Voided samples key generation void) ↔ generation < voided := h.voided_iff
  have hstored : ∀ generation < voided, ∃ sample, Stored samples key generation sample := by
    intro generation hlt
    obtain ⟨void, hv⟩ := (hvoid generation).2 hlt
    obtain ⟨sample, hs, -⟩ := h.names hv
    exact ⟨sample, hs⟩
  have hbound : ∀ generation, (∃ sample, Stored samples key generation sample) → generation ≤ voided := by
    rintro generation ⟨sample, hs⟩
    by_contra hlt
    obtain ⟨void, hv, -⟩ := h.below hs voided (by omega)
    exact absurd ((hvoid voided).1 ⟨void, hv⟩) (by omega)
  by_cases hlast : ∃ sample, Stored samples key voided sample
  · refine ⟨voided + 1, voided, fun generation => ⟨fun hs => ?_, fun hlt => ?_⟩, hvoid, by omega, by omega⟩
    · have := hbound generation hs
      omega
    · rcases Nat.lt_succ_iff_lt_or_eq.1 hlt with hlt | rfl
      exacts [hstored generation hlt, hlast]
  · refine ⟨voided, voided, fun generation => ⟨fun hs => ?_, hstored generation⟩, hvoid, by omega, by omega⟩
    have hle := hbound generation hs
    rcases Nat.lt_or_eq_of_le hle with hlt | rfl
    · exact hlt
    · exact absurd hs hlast

/-! ## What a running call knows -/

/-- Committed rows are never changed. -/
def Extends (samples samples' : Samples F) : Prop :=
  ∀ row sample, Dict.get? samples row = some sample → Dict.get? samples' row = some sample

/-- A row that an append may store: every generation below is voided, with another run. -/
structure Storable (samples : Samples F) (call : AppendCall F) (value : RowKey × Sample F) : Prop where
  score : value.1.table = .score
  below : ∀ earlier < value.1.voidGeneration, ∃ void, Voided samples value.1.key earlier void ∧
    void.runId ≠ value.2.runId
  rerun : value.1.voidGeneration ≠ 0 → value.1.key.seed ∈ call.rerunSeeds

theorem Storable.mono {call : AppendCall F} {value : RowKey × Sample F} (h : Storable samples call value)
    (hext : Extends samples samples') : Storable samples' call value := by
  refine ⟨h.score, fun earlier hlt => ?_, h.rerun⟩
  obtain ⟨void, hvoid, hrun⟩ := h.below earlier hlt
  exact ⟨void, hext _ _ hvoid, hrun⟩

/-- The values of an append, given the voids it read, may be stored. -/
theorem AppendCall.storable (h : Contiguous samples) {call : AppendCall F} {value : RowKey × Sample F}
    (hvalue : value ∈ call.values samples) : Storable samples call value := by
  obtain ⟨row, hrow, rfl⟩ := List.mem_map.1 hvalue
  have haccept := of_decide_eq_true (List.mem_filter.1 hrow).2
  refine ⟨rfl, ?_, ?_⟩
  · intro earlier hlt
    obtain ⟨void, hvoid⟩ := (h.voided_iff earlier).2 hlt
    refine ⟨void, hvoid, fun hrun => haccept ⟨?_, .inl ?_⟩⟩
    · exact Nat.ne_of_gt (Nat.lt_of_le_of_lt (Nat.zero_le _) hlt)
    · exact List.mem_map.2 ⟨(earlier, void), (mem_voidsOn h.nodup).2 hvoid, hrun⟩
  · intro hgeneration
    by_contra hseed
    exact haccept ⟨hgeneration, .inr hseed⟩

/-- The void row of an applied outcome. -/
def VoidOutcome.row (call : VoidCall F) (outcome : VoidOutcome F) : Option RowKey :=
  match outcome.disposition, outcome.voidGeneration with
  | .applied, some generation => some ⟨.void, outcome.request.key call.benchVersion, generation⟩
  | _, _ => none

/-- What a void call has written: the voids of its applied outcomes, each naming a committed sample. -/
structure Voiding (samples : Samples F) (call : VoidCall F) (outcomes : List (VoidOutcome F)) (writes : Samples F) :
    Prop where
  applied : Dict.keys writes = outcomes.filterMap (VoidOutcome.row call)
  apply : call.apply = false → writes = []
  names : ∀ row void, Dict.get? writes row = some void → row.table = .void ∧
    ∃ sample, Stored samples row.key row.voidGeneration sample ∧ sample.runId = void.runId ∧
      sample.composite = void.composite

theorem Voiding.mono {call : VoidCall F} {outcomes : List (VoidOutcome F)} {writes : Samples F}
    (h : Voiding samples call outcomes writes) (hext : Extends samples samples') :
    Voiding samples' call outcomes writes := by
  refine ⟨h.applied, h.apply, fun row void hwrite => ?_⟩
  obtain ⟨htable, sample, hstored, hsame⟩ := h.names row void hwrite
  exact ⟨htable, sample, hext _ _ hstored, hsame⟩

/-- What a call knows at its next statement. -/
def Knows (samples writes : Samples F) : Sampling F → Prop
  | .append _ => writes = []
  | .insert call values rest _ => (∀ value ∈ values, Storable samples call value) ∧ (∀ value ∈ rest, value ∈ values) ∧
      (∀ row sample, Dict.get? writes row = some sample → (row, sample) ∈ values) ∧
      ∀ value ∈ values, value ∈ rest ∨ value.1 ∈ Dict.keys (view samples writes)
  | .void call _ outcomes => Voiding samples call outcomes writes
  | .missed call _ _ outcomes => Voiding samples call outcomes writes
  | .lockTarget call request _ outcomes generation target => Voiding samples call outcomes writes ∧
      Stored samples (request.key call.benchVersion) generation target
  | .gate call request _ outcomes generation target => Voiding samples call outcomes writes ∧
      Stored samples (request.key call.benchVersion) generation target
  | .flush call request _ outcomes generation target => Voiding samples call outcomes writes ∧
      Stored samples (request.key call.benchVersion) generation target ∧ call.apply = true

/-- A running call: its rows are new, and it knows what its next statement needs. -/
structure Underway (samples : Samples F) (tx : Tx RowKey (Sample F) (Sampling F)) : Prop where
  fresh : ∀ row ∈ Dict.keys tx.writes, Dict.get? samples row = none
  knows : Knows samples tx.writes tx.code

theorem mem_keys_view {writes : Samples F} (hnodup : (Dict.keys writes).Nodup) {row : RowKey} :
    row ∈ Dict.keys (view samples writes) ↔ row ∈ Dict.keys writes ∨ row ∈ Dict.keys samples := by
  rw [Dict.mem_keys_iff, Dict.mem_keys_iff, Dict.mem_keys_iff, get?_view hnodup]
  cases Dict.get? writes row <;> simp

/-- New rows leave the committed ones as they are. -/
theorem extends_view {writes : Samples F} (hnodup : (Dict.keys writes).Nodup)
    (hfresh : ∀ row ∈ Dict.keys writes, Dict.get? samples row = none) : Extends samples (view samples writes) := by
  intro row sample hget
  rw [get?_view hnodup]
  have hnot : row ∉ Dict.keys writes := by
    intro hmem
    rw [hfresh row hmem] at hget
    cases hget
  rw [Dict.get?_eq_none_iff.2 hnot, Option.none_or]
  exact hget

theorem Knows.mono {writes : Samples F} (hnodup : (Dict.keys writes).Nodup) (hext : Extends samples samples')
    {code : Sampling F} (h : Knows samples writes code) : Knows samples' writes code := by
  cases code with
  | append call => exact h
  | insert call values rest inserted =>
    obtain ⟨hstorable, hrest, hwrites, hdone⟩ := h
    refine ⟨fun value hv => (hstorable value hv).mono hext, hrest, hwrites, fun value hv => ?_⟩
    rcases hdone value hv with hleft | hmem
    · exact .inl hleft
    · rw [mem_keys_view hnodup] at hmem ⊢
      refine .inr (hmem.imp_right fun hcommitted => ?_)
      obtain ⟨sample, hget⟩ := Dict.mem_keys_iff.1 hcommitted
      exact Dict.mem_keys_iff.2 ⟨sample, hext _ _ hget⟩
  | void call requests outcomes => exact Voiding.mono h hext
  | missed call request requests outcomes => exact Voiding.mono h hext
  | lockTarget call request requests outcomes generation target => exact ⟨h.1.mono hext, hext _ _ h.2⟩
  | gate call request requests outcomes generation target => exact ⟨h.1.mono hext, hext _ _ h.2⟩
  | flush call request requests outcomes generation target => exact ⟨h.1.mono hext, hext _ _ h.2.1, h.2.2⟩

/-! ## Commits -/

/-- Storing the rows of an append keeps the tables contiguous. -/
theorem contiguous_append (h : Contiguous samples) {call : AppendCall F} {values : List (RowKey × Sample F)}
    {writes : Samples F} (hnodup : (Dict.keys writes).Nodup)
    (hfresh : ∀ row ∈ Dict.keys writes, Dict.get? samples row = none)
    (hstorable : ∀ value ∈ values, Storable samples call value)
    (hwrites : ∀ row sample, Dict.get? writes row = some sample → (row, sample) ∈ values) :
    Contiguous (view samples writes) := by
  have hext := extends_view hnodup hfresh
  have hvoids : ∀ {key generation void}, Voided (view samples writes) key generation void →
      Voided samples key generation void := by
    intro key generation void hvoid
    rw [Voided, get?_view hnodup] at hvoid
    cases hget : Dict.get? writes ⟨.void, key, generation⟩ with
    | none => rwa [hget, Option.none_or] at hvoid
    | some sample =>
      have hscore := (hstorable _ (hwrites _ _ hget)).score
      cases hscore
  refine ⟨keys_view_nodup h.nodup writes, ?_, ?_⟩
  · intro key generation void hvoid
    obtain ⟨sample, hstored, hsame⟩ := h.names (hvoids hvoid)
    exact ⟨sample, hext _ _ hstored, hsame⟩
  · intro key generation sample hstored earlier hlt
    rw [Stored, get?_view hnodup] at hstored
    cases hget : Dict.get? writes ⟨.score, key, generation⟩ with
    | none =>
      rw [hget, Option.none_or] at hstored
      obtain ⟨void, hvoid, hrun⟩ := h.below hstored earlier hlt
      exact ⟨void, hext _ _ hvoid, hrun⟩
    | some sample' =>
      rw [hget, Option.some_or] at hstored
      obtain rfl := Option.some.inj hstored
      obtain ⟨void, hvoid, hrun⟩ := (hstorable _ (hwrites _ _ hget)).below earlier hlt
      exact ⟨void, hext _ _ hvoid, hrun⟩

/-- Setting samples aside keeps the tables contiguous. -/
theorem contiguous_void (h : Contiguous samples) {call : VoidCall F} {outcomes : List (VoidOutcome F)}
    {writes : Samples F} (hnodup : (Dict.keys writes).Nodup)
    (hfresh : ∀ row ∈ Dict.keys writes, Dict.get? samples row = none)
    (hvoiding : Voiding samples call outcomes writes) : Contiguous (view samples writes) := by
  have hext := extends_view hnodup hfresh
  refine ⟨keys_view_nodup h.nodup writes, ?_, ?_⟩
  · intro key generation void hvoid
    rw [Voided, get?_view hnodup] at hvoid
    cases hget : Dict.get? writes ⟨.void, key, generation⟩ with
    | none =>
      rw [hget, Option.none_or] at hvoid
      obtain ⟨sample, hstored, hsame⟩ := h.names hvoid
      exact ⟨sample, hext _ _ hstored, hsame⟩
    | some void' =>
      rw [hget, Option.some_or] at hvoid
      obtain rfl := Option.some.inj hvoid
      obtain ⟨-, sample, hstored, hsame⟩ := hvoiding.names _ _ hget
      exact ⟨sample, hext _ _ hstored, hsame⟩
  · intro key generation sample hstored earlier hlt
    have hold : Stored samples key generation sample := by
      rw [Stored, get?_view hnodup] at hstored
      cases hget : Dict.get? writes ⟨.score, key, generation⟩ with
      | none => rwa [hget, Option.none_or] at hstored
      | some sample' =>
        have htable := (hvoiding.names _ _ hget).1
        cases htable
    obtain ⟨void, hvoid, hrun⟩ := h.below hold earlier hlt
    exact ⟨void, hext _ _ hvoid, hrun⟩

/-! ## Statements -/

theorem stored_of_voidTarget (hnodup : (Dict.keys samples).Nodup) {generation : ℕ} {target : Sample F}
    (h : voidTarget samples key = some (generation, target)) : Stored samples key generation target := by
  have hmem := mem_sortOn.1 (List.mem_of_mem_head? h)
  obtain ⟨⟨⟨table, key', generation'⟩, target'⟩, hrow, heq⟩ := List.mem_map.1 hmem
  simp only [List.mem_filter, decide_eq_true_eq] at hrow
  obtain ⟨hin, rfl, rfl, -⟩ := hrow
  cases heq
  exact Dict.get?_of_mem hnodup hin

theorem not_voided_of_voidTarget {generation : ℕ} {target : Sample F}
    (h : voidTarget samples key = some (generation, target)) :
    Dict.get? samples ⟨.void, key, generation⟩ = none := by
  have hmem := mem_sortOn.1 (List.mem_of_mem_head? h)
  obtain ⟨⟨⟨table, key', generation'⟩, target'⟩, hrow, heq⟩ := List.mem_map.1 hmem
  simp only [List.mem_filter, decide_eq_true_eq] at hrow
  cases heq
  exact Option.isNone_iff_eq_none.1 hrow.2.2.2

/-- A void call only sees score rows that are committed. -/
theorem Voiding.stored_of_view {call : VoidCall F} {outcomes : List (VoidOutcome F)} {writes : Samples F}
    (h : Voiding samples call outcomes writes) (hnodup : (Dict.keys writes).Nodup) {generation : ℕ} {target : Sample F}
    (hstored : Stored (view samples writes) key generation target) : Stored samples key generation target := by
  rw [Stored, get?_view hnodup] at hstored
  cases hget : Dict.get? writes ⟨.score, key, generation⟩ with
  | none => rwa [hget, Option.none_or] at hstored
  | some sample =>
    have htable := (h.names _ _ hget).1
    cases htable

/-- An outcome other than `applied` writes nothing. -/
theorem Voiding.skip {call : VoidCall F} {outcomes : List (VoidOutcome F)} {writes : Samples F}
    (h : Voiding samples call outcomes writes) {outcome : VoidOutcome F} (hnone : outcome.row call = none) :
    Voiding samples call (outcomes ++ [outcome]) writes := by
  refine ⟨?_, h.apply, h.names⟩
  rw [List.filterMap_append, h.applied]
  simp [hnone]

/-- An applied outcome writes the void of its target. -/
theorem Voiding.write {call : VoidCall F} {request : VoidRequest F} {outcomes : List (VoidOutcome F)}
    {writes : Samples F} (h : Voiding samples call outcomes writes) {generation : ℕ} {target : Sample F}
    (hstored : Stored samples (request.key call.benchVersion) generation target) (happly : call.apply = true)
    (hnew : ⟨.void, request.key call.benchVersion, generation⟩ ∉ Dict.keys writes) :
    Voiding samples call (outcomes ++ [⟨request, .applied, some generation⟩])
      (Dict.set writes ⟨.void, request.key call.benchVersion, generation⟩
        ⟨target.runId, target.composite, call.now⟩) := by
  refine ⟨?_, fun hfalse => ?_, fun row void hwrite => ?_⟩
  · rw [Dict.set_of_not_mem hnew, List.filterMap_append, Dict.keys, List.map_append, ← h.applied]
    rfl
  · rw [happly] at hfalse
    cases hfalse
  · rw [Dict.get?_set] at hwrite
    split at hwrite
    · next heq =>
      obtain rfl := heq
      obtain rfl := Option.some.inj hwrite
      exact ⟨rfl, target, hstored, rfl, rfl⟩
    · exact h.names row void hwrite

variable [DecidableEq F]

/-- An append stores the next of its rows, unless the row is there. -/
theorem underway_insert {held : RowKey → Prop} {call : AppendCall F} {values rest : List (RowKey × Sample F)}
    {value : RowKey × Sample F} {inserted : ℕ} {writes : Samples F} {input : Option RetestSampleInference}
    (hnodup : (Dict.keys writes).Nodup) (h : Underway samples ⟨.insert call values (value :: rest) inserted, writes⟩) :
    Keeps id Contiguous (fun _ => Underway) held samples ⟨.insert call values (value :: rest) inserted, writes⟩
      (sampling (view samples writes) (.insert call values (value :: rest) inserted) input) := by
  obtain ⟨hfresh, hstorable, hrest, hwrites, hdone⟩ := h
  obtain ⟨row, sample⟩ := value
  have hrest' : ∀ value ∈ rest, value ∈ values := fun value hvalue => hrest value (List.mem_cons_of_mem _ hvalue)
  simp only [sampling]
  split
  · next hconflict =>
    refine ⟨hfresh, hstorable, hrest', hwrites, fun value hvalue => ?_⟩
    rcases hdone value hvalue with hleft | hmem
    · rcases List.mem_cons.1 hleft with rfl | hleft
      · exact .inr (Dict.mem_keys_iff.2 (Option.isSome_iff_exists.1 hconflict))
      · exact .inl hleft
    · exact .inr hmem
  · intro hnone
    have hset : ∀ {row'}, row' ∈ Dict.keys (Dict.set writes row sample) ↔ row' = row ∨ row' ∈ Dict.keys writes :=
      mem_keys_set
    have hnodup' := Dict.keys_set_nodup hnodup row sample
    refine ⟨?_, hstorable, hrest', ?_, ?_⟩
    · intro row' hrow'
      rcases hset.1 hrow' with rfl | hrow'
      · rw [get?_view hnodup, Option.or_eq_none_iff] at hnone
        exact hnone.2
      · exact hfresh row' hrow'
    · intro row' sample' hget
      rw [Dict.get?_set] at hget
      split at hget
      · next heq =>
        obtain rfl := heq
        obtain rfl := Option.some.inj hget
        exact hrest _ List.mem_cons_self
      · exact hwrites row' sample' hget
    · intro value hvalue
      rw [mem_keys_view hnodup', hset]
      rcases hdone value hvalue with hleft | hmem
      · rcases List.mem_cons.1 hleft with rfl | hleft
        · exact .inr (.inl (.inl rfl))
        · exact .inl hleft
      · exact .inr (((mem_keys_view hnodup).1 hmem).imp_left .inr)

/-- Every statement keeps what its call knows. -/
theorem underway_own {held : RowKey → Prop} {tx : Tx RowKey (Sample F) (Sampling F)}
    {input : Option RetestSampleInference} (h : Contiguous samples) (hguarded : Guarded id held tx)
    (hlocal : Underway samples tx) :
    Keeps id Contiguous (fun _ => Underway) held samples tx (sampling (view samples tx.writes) tx.code input) := by
  obtain ⟨code, writes⟩ := tx
  obtain ⟨hfresh, hknows⟩ := hlocal
  have hnodup := hguarded.nodup
  have hviewNodup : (Dict.keys (view samples writes)).Nodup := keys_view_nodup h.nodup writes
  cases code with
  | append call =>
    obtain rfl : writes = [] := hknows
    refine ⟨hfresh, ?_⟩
    have hview : view samples [] = samples := rfl
    simp only [hview]
    refine ⟨fun value hvalue => AppendCall.storable h hvalue, fun value hvalue => hvalue, ?_,
      fun value hvalue => .inl hvalue⟩
    intro row sample hget
    cases hget
  | insert call values rest inserted =>
    cases rest with
    | nil => exact contiguous_append h hnodup hfresh hknows.1 hknows.2.2.1
    | cons value rest => exact underway_insert hnodup ⟨hfresh, hknows⟩
  | void call requests outcomes =>
    cases requests with
    | nil => exact contiguous_void h hnodup hfresh hknows
    | cons request requests =>
      simp only [sampling]
      split
      · exact ⟨hfresh, hknows⟩
      · next generation target htarget =>
        exact ⟨hfresh, hknows, Voiding.stored_of_view hknows hnodup (stored_of_voidTarget hviewNodup htarget)⟩
  | missed call request requests outcomes =>
    refine ⟨hfresh, Voiding.skip hknows ?_⟩
    simp only [VoidOutcome.row]
    split
    · next heq _ => split at heq <;> cases heq
    · rfl
  | lockTarget call request requests outcomes generation target => exact ⟨hfresh, hknows⟩
  | gate call request requests outcomes generation target =>
    simp only [sampling]
    split
    · exact ⟨hfresh, hknows.1.skip rfl⟩
    · split
      · exact ⟨hfresh, hknows.1.skip rfl⟩
      · split
        · exact ⟨hfresh, hknows.1.skip rfl⟩
        · next happly => exact ⟨hfresh, hknows.1, hknows.2, by simpa using happly⟩
  | flush call request requests outcomes generation target =>
    intro hnone
    rw [get?_view hnodup, Option.or_eq_none_iff] at hnone
    refine ⟨?_, hknows.1.write hknows.2.1 hknows.2.2 (Dict.get?_eq_none_iff.1 hnone.1)⟩
    intro row hrow
    rcases mem_keys_set.1 hrow with rfl | hrow
    · exact hnone.2
    · exact hfresh row hrow

/-- The rules of the two calls under READ COMMITTED. -/
theorem sampling_rules : Rules id (sampling (F := F)) Sampling.Fresh (fun _ _ _ => True) Contiguous
    (fun _ => Underway) where
  begin := by
    intro samples code hfresh
    refine ⟨(fun row hrow => nomatch hrow), ?_⟩
    cases code with
    | append call => rfl
    | void call requests outcomes =>
      obtain ⟨-, rfl⟩ := hfresh
      exact ⟨rfl, fun _ => rfl, (fun row void hget => nomatch hget)⟩
    | insert => exact hfresh.elim
    | missed => exact hfresh.elim
    | lockTarget => exact hfresh.elim
    | gate => exact hfresh.elim
    | flush => exact hfresh.elim
  mono := fun _ h => h
  own := fun h hguarded hlocal _ => underway_own h hguarded hlocal
  interfere := by
    intro held held' samples tx tx' input hdisjoint _ hguarded hlocal hguarded' hlocal' _ _
    have hext := extends_view hguarded'.nodup hlocal'.fresh
    refine ⟨fun row hrow => ?_, hlocal.knows.mono hguarded.nodup hext⟩
    -- The other call holds the locks of its own rows.
    have hnot : row ∉ Dict.keys tx'.writes := by
      intro hrow'
      exact hdisjoint row (hguarded.locked row hrow) (hguarded'.locked row hrow')
    rw [get?_view_of_not_mem hguarded'.nodup hnot]
    exact hlocal.fresh row hrow

/-! ## Runs -/

variable {T : Type} [DecidableEq T]

/-- The tables after a run that starts with empty ones. -/
def sampled (actions : List (Action T (Sampling F) (Option RetestSampleInference))) :
    System T RowKey RowKey (Sample F) (Sampling F) :=
  actions.foldl (act id sampling) (start [])

/-- Every transaction of a run is one call. -/
def Calls (actions : List (Action T (Sampling F) (Option RetestSampleInference))) : Prop :=
  ∀ t code, Action.begin t code ∈ actions → code.Fresh

theorem allowedRun_of_calls : ∀ (actions : List (Action T (Sampling F) (Option RetestSampleInference)))
    (s : System T RowKey RowKey (Sample F) (Sampling F)), Calls actions →
      AllowedRun id sampling Sampling.Fresh (fun _ _ _ => True) s actions := by
  intro actions
  induction actions with
  | nil => intro s _; trivial
  | cons a actions ih =>
    intro s hcalls
    refine ⟨?_, ih _ fun t code hmem => hcalls t code (List.mem_cons_of_mem _ hmem)⟩
    cases a with
    | begin t code => exact hcalls t code List.mem_cons_self
    | next t input => exact fun _ _ => trivial
    | abort t => trivial

theorem sampled_inv {actions : List (Action T (Sampling F) (Option RetestSampleInference))} (h : Calls actions) :
    Inv id Contiguous (fun _ => Underway) (sampled actions) :=
  inv_run id sampling sampling_rules actions (Inv.start id contiguous_nil) (allowedRun_of_calls actions _ h)

/-- One step changes no committed row. -/
theorem extends_act {s : System T RowKey RowKey (Sample F) (Sampling F)}
    (h : Inv id Contiguous (fun _ => Underway) s) (a : Action T (Sampling F) (Option RetestSampleInference)) :
    Extends s.rows (act id sampling s a).rows := by
  rcases act_rows id sampling s a with hrows | ⟨t, tx, input, -, hrun, -, hrows⟩
  · rw [hrows]
    exact fun _ _ hget => hget
  · rw [hrows]
    exact extends_view (h.guarded t tx hrun).nodup (h.good t tx hrun).fresh

theorem extends_sampled (actions : List (Action T (Sampling F) (Option RetestSampleInference))) :
    ∀ more, Calls (actions ++ more) → Extends (sampled actions).rows (sampled (actions ++ more)).rows := by
  intro more
  induction more using List.reverseRecOn with
  | nil =>
    intro _
    rw [List.append_nil]
    exact fun _ _ hget => hget
  | append_singleton more a ih =>
    intro hcalls
    rw [← List.append_assoc] at hcalls ⊢
    have hbefore : Calls (actions ++ more) := fun t code hmem => hcalls t code (List.mem_append_left _ hmem)
    have hlast : sampled (actions ++ more ++ [a]) = act id sampling (sampled (actions ++ more)) a := by
      rw [sampled, List.foldl_append]
      rfl
    rw [hlast]
    exact fun row sample hget => extends_act (sampled_inv hbefore) a row sample (ih hbefore row sample hget)

/-- Only a finished append and a finished void call commit. -/
theorem sampling_eq_commit {samples : Samples F} {code : Sampling F} {input : Option RetestSampleInference}
    (h : sampling samples code input = .commit) : (∃ call values inserted, code = .insert call values [] inserted) ∨
      ∃ call outcomes, code = .void call [] outcomes := by
  cases code with
  | append => cases h
  | insert call values rest inserted =>
    cases rest with
    | nil => exact .inl ⟨call, values, inserted, rfl⟩
    | cons value rest =>
      simp only [sampling] at h
      split at h <;> cases h
  | void call requests outcomes =>
    cases requests with
    | nil => exact .inr ⟨call, outcomes, rfl⟩
    | cons request requests =>
      simp only [sampling] at h
      split at h <;> cases h
  | missed => cases h
  | lockTarget => cases h
  | gate =>
    simp only [sampling] at h
    split at h
    · cases h
    · split at h
      · cases h
      · split at h <;> cases h
  | flush => cases h

/-- Which call committed a new row. -/
theorem new_row_from {s : System T RowKey RowKey (Sample F) (Sampling F)}
    (h : Inv id Contiguous (fun _ => Underway) s) {a : Action T (Sampling F) (Option RetestSampleInference)}
    {row : RowKey} {sample : Sample F} (hnew : Dict.get? (act id sampling s a).rows row = some sample)
    (hold : Dict.get? s.rows row = none) : ∃ t input, a = .next t input ∧
      ((∃ call values inserted writes, s.running t = some ⟨.insert call values [] inserted, writes⟩ ∧
        (row, sample) ∈ values ∧ Storable s.rows call (row, sample)) ∨
      ∃ call outcomes writes, s.running t = some ⟨.void call [] outcomes, writes⟩ ∧ row ∈ Dict.keys writes ∧
        row.table = .void) := by
  rcases act_rows id sampling s a with hrows | ⟨t, ⟨code, writes⟩, input, rfl, hrun, hcommit, hrows⟩
  · rw [hrows, hold] at hnew
    cases hnew
  have hguarded := h.guarded t _ hrun
  have hgood := h.good t _ hrun
  have hwrite : Dict.get? writes row = some sample := by
    rw [hrows, get?_view hguarded.nodup, hold, Option.or_none] at hnew
    exact hnew
  refine ⟨t, input, rfl, ?_⟩
  rcases sampling_eq_commit hcommit with ⟨call, values, inserted, rfl⟩ | ⟨call, outcomes, rfl⟩
  · obtain ⟨hstorable, -, hwrites, -⟩ := hgood.knows
    have hvalue := hwrites row sample hwrite
    exact .inl ⟨call, values, inserted, writes, hrun, hvalue, hstorable _ hvalue⟩
  · have hnames := (Voiding.names hgood.knows row sample hwrite).1
    exact .inr ⟨call, outcomes, writes, hrun, Dict.mem_keys_iff.2 ⟨sample, hwrite⟩, hnames⟩

/-- After every run of appends and voids, interleaved statement by statement:
the stored generations of a key are `0..n` and all but possibly the last are voided; stored rows never change; a voided
run is not stored again; a voided key gains a row only from an append that re-runs its seed; a void call writes the
voids of its applied outcomes and nothing when it does not apply; and an append stores a row at the generation of each
result that the voids it read do not refuse. -/
theorem confirmation_generations (actions more : List (Action T (Sampling F) (Option RetestSampleInference)))
    (hcalls : Calls (actions ++ more)) :
    (∀ key, ∃ stored voided,
      (∀ generation, (∃ sample, Stored (sampled actions).rows key generation sample) ↔ generation < stored) ∧
      (∀ generation, (∃ void, Voided (sampled actions).rows key generation void) ↔ generation < voided) ∧
      voided ≤ stored ∧ stored ≤ voided + 1) ∧
    (∀ key generation sample, Stored (sampled actions).rows key generation sample →
      Stored (sampled (actions ++ more)).rows key generation sample) ∧
    (∀ key generation void, Voided (sampled actions).rows key generation void → ∀ later sample,
      Stored (sampled (actions ++ more)).rows key later sample →
      (∀ sample', ¬ Stored (sampled actions).rows key later sample') → sample.runId ≠ void.runId) ∧
    (∀ key generation void, Voided (sampled actions).rows key generation void → ∀ a later sample,
      Stored (act id sampling (sampled actions) a).rows key later sample →
      (∀ sample', ¬ Stored (sampled actions).rows key later sample') →
      ∃ t input call values inserted writes, a = .next t input ∧
        (sampled actions).running t = some ⟨.insert call values [] inserted, writes⟩ ∧
        key.seed ∈ call.rerunSeeds) ∧
    (∀ t call outcomes writes, (sampled actions).running t = some ⟨.void call [] outcomes, writes⟩ →
      ∀ input, (call.apply = false →
        (act id sampling (sampled actions) (.next t input)).rows = (sampled actions).rows) ∧
          ∀ row, (Dict.get? (act id sampling (sampled actions) (.next t input)).rows row).isSome = true →
            Dict.get? (sampled actions).rows row = none → row ∈ outcomes.filterMap (VoidOutcome.row call)) ∧
    (∀ t call writes, (sampled actions).running t = some ⟨.append call, writes⟩ → ∀ input,
      (act id sampling (sampled actions) (.next t input)).running t = some
        ⟨.insert call (call.values (sampled actions).rows) (call.values (sampled actions).rows) 0, []⟩) ∧
    (∀ t call values inserted writes, (sampled actions).running t = some ⟨.insert call values [] inserted, writes⟩ →
      ∀ input, ∀ value ∈ values, (Dict.get? (act id sampling (sampled actions) (.next t input)).rows value.1).isSome =
        true) := by
  have hbefore : Calls actions := fun t code hmem => hcalls t code (List.mem_append_left _ hmem)
  have hinv := sampled_inv hbefore
  have hext := extends_sampled actions more hcalls
  have hlaterInv := sampled_inv hcalls
  -- A row that is new on a voided key lies above every void of the key.
  have habove : ∀ {key generation void later}, Voided (sampled actions).rows key generation void →
      (∀ sample', ¬ Stored (sampled actions).rows key later sample') → generation < later := by
    intro key generation void later hvoid hnew
    obtain ⟨sample, hstored, -⟩ := hinv.rows_good.names hvoid
    by_contra hle
    rcases Nat.lt_or_eq_of_le (Nat.le_of_not_lt hle) with hlt | rfl
    · obtain ⟨sample', hstored'⟩ := hinv.rows_good.stored_below hstored hlt
      exact hnew sample' hstored'
    · exact hnew sample hstored
  refine ⟨fun key => hinv.rows_good.segments key, fun key generation sample hstored => hext _ _ hstored, ?_, ?_, ?_, ?_,
    ?_⟩
  · intro key generation void hvoid later sample hstored hnew hrun
    obtain ⟨void', hvoid', hne⟩ := hlaterInv.rows_good.below hstored generation (habove hvoid hnew)
    have hsame : void' = void := Option.some.inj (hvoid'.symm.trans (hext _ _ hvoid))
    exact hne (hsame ▸ hrun.symm)
  · intro key generation void hvoid a later sample hstored hnew
    have hnone : Dict.get? (sampled actions).rows ⟨.score, key, later⟩ = none :=
      Option.eq_none_iff_forall_ne_some.2 hnew
    obtain ⟨t, input, rfl, hfrom⟩ := new_row_from hinv hstored hnone
    rcases hfrom with ⟨call, values, inserted, writes, hrun, -, hstorable⟩ | ⟨_, _, _, _, _, htable⟩
    · refine ⟨t, input, call, values, inserted, writes, rfl, hrun, hstorable.rerun ?_⟩
      have := habove hvoid hnew
      show later ≠ 0
      omega
    · cases htable
  · intro t call outcomes writes hrun input
    have hvoiding : Voiding (sampled actions).rows call outcomes writes := (hinv.good t _ hrun).knows
    have hrows : (act id sampling (sampled actions) (.next t input)).rows = view (sampled actions).rows writes := by
      simp only [act, hrun]
      rfl
    refine ⟨fun hfalse => ?_, fun row hsome hnone => ?_⟩
    · rw [hrows, hvoiding.apply hfalse]
      rfl
    · rw [hrows, get?_view (hinv.guarded t _ hrun).nodup, hnone, Option.or_none] at hsome
      rw [← hvoiding.applied]
      exact Dict.mem_keys_iff.2 (Option.isSome_iff_exists.1 hsome)
  · intro t call writes hrun input
    have hwrites : writes = [] := (hinv.good t _ hrun).knows
    subst hwrites
    simp only [act, hrun, System.perform, sampling, System.goOn, Function.update_self]
    rfl
  · intro t call values inserted writes hrun input value hvalue
    obtain ⟨-, -, -, hdone⟩ := (hinv.good t _ hrun).knows
    have hrows : (act id sampling (sampled actions) (.next t input)).rows = view (sampled actions).rows writes := by
      simp only [act, hrun]
      rfl
    rw [hrows]
    rcases hdone value hvalue with hleft | hmem
    · cases hleft
    · exact Option.isSome_iff_exists.2 (Dict.mem_keys_iff.1 hmem)

/-- A result, its void after an outage, and the re-run. -/
def sampleAppend (runId : String) : AppendCall ℚ where
  rows := [⟨"agent", "validator", 7, 1 / 2, runId⟩]
  benchVersion := 12
  createdAt := 0
  rerunSeeds := [7]

def sampleVoid : VoidCall ℚ where
  requests := [⟨"agent", "validator", 7, "first", 1 / 2⟩]
  benchVersion := 12
  now := 1
  apply := true

def voidedRun : List (Action ℕ (Sampling ℚ) (Option RetestSampleInference)) :=
  [.begin 0 (.append (sampleAppend "first")), .next 0 none, .next 0 none, .next 0 none,
   .begin 1 (.void sampleVoid sampleVoid.requests []), .next 1 none, .next 1 none,
   .next 1 (some ⟨40, [("upstream_http_402", 20)]⟩), .next 1 none, .next 1 none]

def rerunRun : List (Action ℕ (Sampling ℚ) (Option RetestSampleInference)) :=
  [.begin 2 (.append (sampleAppend "second")), .next 2 none, .next 2 none, .next 2 none]

theorem confirmation_generations_rerun :
    (Dict.get? (sampled (voidedRun ++ rerunRun)).rows ⟨.score, ⟨"agent", 12, "validator", 7⟩, 1⟩).isSome = true ∧
    ∃ stored voided, (∀ generation, (∃ sample, Stored (sampled voidedRun).rows ⟨"agent", 12, "validator", 7⟩ generation
        sample) ↔ generation < stored) ∧
      (∀ generation, (∃ void, Voided (sampled voidedRun).rows ⟨"agent", 12, "validator", 7⟩ generation void) ↔
        generation < voided) ∧
      voided ≤ stored ∧ stored ≤ voided + 1 := by
  have hcalls : Calls (voidedRun ++ rerunRun) := by
    intro t code hmem
    simp only [voidedRun, rerunRun, List.cons_append, List.nil_append, List.mem_cons, Action.begin.injEq, reduceCtorEq,
      false_or, or_false, List.not_mem_nil] at hmem
    rcases hmem with ⟨-, rfl⟩ | ⟨-, rfl⟩ | ⟨-, rfl⟩
    exacts [trivial, ⟨rfl, rfl⟩, trivial]
  exact ⟨by decide +kernel, (confirmation_generations voidedRun rerunRun hcalls).1 _⟩

end DittoSubnet.Platform

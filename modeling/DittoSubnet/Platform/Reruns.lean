import DittoSubnet.Platform.Generations

/-!
# Replacements of voided samples

A voided seed is owed one replacement for each void. The count of `outstandingVoidRerunDebts` subtracts the fresh
results that are newer than the oldest unpaid void, so it can forget a replacement in two ways: when a re-run pays the
oldest void, and when the fresh result is voided itself.

* `owed_void`, `owed_fresh`, `owed_rerun`: what a void, a fresh result and a re-run make of the count.
* `void_debts_balanced_iff`: every replacement lowers the count by one and every void raises it by one, so that the
  replacements never outnumber the voids, exactly when no step of the history forgets a replacement.
* `rerun_forgets_fresh_result`: three replacements of two voids.
-/

namespace DittoSubnet.Platform

open Kit Kit.ReadCommitted

/-! ## The count of one seed -/

variable {group rows : List Stamp}

/-- The fresh results that the count subtracts. -/
def counted (group rows : List Stamp) : List Stamp :=
  rows.filter fun row => row.validator ∉ group.map Stamp.validator ∧ row.generation = 0 ∧
    ∃ void ∈ unpaidVoids group rows, void.createdAt ≤ row.createdAt

/-- The reported count. -/
def owed (group rows : List Stamp) : ℤ := max 0 ((unpaidVoids group rows).length - (counted group rows).length)

theorem foldl_min_le_iff : ∀ (others : List ℤ) (first t : ℤ),
    others.foldl min first ≤ t ↔ ∃ x ∈ first :: others, x ≤ t := by
  intro others
  induction others with
  | nil => simp
  | cons x others ih =>
    intro first t
    rw [List.foldl_cons, ih]
    simp only [List.mem_cons, exists_eq_or_imp, min_le_iff]
    tauto

theorem freshReplacements_oldest {first : ℤ} {others : List ℤ}
    (h : (unpaidVoids group rows).map Stamp.createdAt = first :: others) :
    freshReplacements group rows (others.foldl min first) = counted group rows := by
  refine List.filter_congr fun row _ => ?_
  rw [decide_eq_decide, foldl_min_le_iff, ← h]
  simp only [List.mem_map, exists_exists_and_eq_and]

/-- A debt is reported when something is owed, and names the unpaid and the scored validators. -/
theorem seedDebt_eq (group rows : List Stamp) (benchVersion : ℕ) (agentSeed : String × ℤ) :
    (∀ debt, seedDebt benchVersion agentSeed group rows = some debt → 0 < owed group rows ∧
      debt.agentId = agentSeed.1 ∧ debt.seed = agentSeed.2 ∧ debt.outstanding = owed group rows ∧
      debt.rerunValidators = (unpaidVoids group rows).map Stamp.validator ∧
      debt.scoredValidators = rows.map Stamp.validator) ∧
    (seedDebt benchVersion agentSeed group rows = none → owed group rows = 0) := by
  rw [seedDebt]
  split
  · next h =>
    have hunpaid := List.map_eq_nil_iff.1 h
    refine ⟨(fun debt hdebt => nomatch hdebt), fun _ => ?_⟩
    rw [owed, counted, hunpaid]
    simp
  · next first others h =>
    simp only [freshReplacements_oldest h]
    split
    · next hle =>
      refine ⟨(fun debt hdebt => nomatch hdebt), fun _ => ?_⟩
      rw [owed]
      exact max_eq_left hle
    · next hlt =>
      have howed : owed group rows = (unpaidVoids group rows).length - (counted group rows).length := by
        rw [owed]
        exact max_eq_right (by omega)
      refine ⟨fun debt hdebt => ?_, (fun hdebt => nomatch hdebt)⟩
      obtain rfl := Option.some.inj hdebt
      exact ⟨by omega, rfl, rfl, howed.symm, rfl, rfl⟩

/-- What the stamps of a seed keep: generations are voided in turn, and no more fresh results are counted than voids are
unpaid. -/
structure Books (group rows : List Stamp) : Prop where
  voids : (group.map fun void => (void.validator, void.generation)).Nodup
  names : ∀ void ∈ group, ∃ row ∈ rows, row.validator = void.validator ∧ row.generation = void.generation
  below : ∀ row ∈ rows, ∀ earlier < row.generation, ∃ void ∈ group, void.validator = row.validator ∧
    void.generation = earlier
  enough : (counted group rows).length ≤ (unpaidVoids group rows).length

theorem Books.owed_eq (h : Books group rows) :
    owed group rows = (unpaidVoids group rows).length - (counted group rows).length := by
  have := h.enough
  rw [owed]
  exact max_eq_right (by omega)

theorem length_filter_eq_iff {α : Type} (p : α → Bool) (l : List α) :
    (l.filter p).length = l.length ↔ ∀ a ∈ l, p a = true := List.length_filter_eq_length_iff

/-! ## A void -/

section Void

variable {void : Stamp}

theorem unpaidVoids_void (hbooks : Books group rows)
    (hnew : ∀ other ∈ group, ¬ (other.validator = void.validator ∧ other.generation = void.generation)) :
    unpaidVoids (group ++ [void]) rows = unpaidVoids group rows ++ [void] := by
  rw [unpaidVoids, List.filter_append, ← unpaidVoids]
  refine congrArg _ (List.filter_eq_self.2 ?_)
  intro x hx
  obtain rfl := List.mem_singleton.1 hx
  rw [decide_eq_true_eq]
  rintro ⟨row, hrow, hvalidator, hgeneration⟩
  obtain ⟨other, hother, hsame⟩ := hbooks.below row hrow x.generation (by omega)
  exact hnew other hother ⟨hsame.1.trans hvalidator, hsame.2⟩

/-- A void stops the count of its validator's fresh result. -/
theorem counted_void (hbooks : Books group rows) (hlater : ∀ row ∈ rows, row.createdAt < void.createdAt)
    (hnew : ∀ other ∈ group, ¬ (other.validator = void.validator ∧ other.generation = void.generation)) :
    counted (group ++ [void]) rows = (counted group rows).filter fun row => row.validator ≠ void.validator := by
  rw [counted, counted, List.filter_filter, unpaidVoids_void hbooks hnew]
  refine List.filter_congr fun row hrow => ?_
  have hrow' := hlater row hrow
  rw [← Bool.decide_and, decide_eq_decide]
  simp only [List.map_append, List.mem_append, List.map_cons, List.map_nil, List.mem_singleton, not_or]
  constructor
  · rintro ⟨⟨hnot, hne⟩, hzero, other, hother | rfl, hle⟩
    · exact ⟨hne, hnot, hzero, other, hother, hle⟩
    · omega
  · rintro ⟨hne, hnot, hzero, other, hother, hle⟩
    exact ⟨⟨hnot, hne⟩, hzero, other, .inl hother, hle⟩

theorem Books.addVoid (hbooks : Books group rows) (hlater : ∀ row ∈ rows, row.createdAt < void.createdAt)
    (hnew : ∀ other ∈ group, ¬ (other.validator = void.validator ∧ other.generation = void.generation))
    (hrow : ∃ row ∈ rows, row.validator = void.validator ∧ row.generation = void.generation) :
    Books (group ++ [void]) rows := by
  refine ⟨?_, ?_, ?_, ?_⟩
  · rw [List.map_append, List.nodup_append_comm]
    refine List.nodup_cons.2 ⟨?_, hbooks.voids⟩
    intro hmem
    obtain ⟨other, hother, heq⟩ := List.mem_map.1 hmem
    exact hnew other hother ⟨congrArg Prod.fst heq, congrArg Prod.snd heq⟩
  · intro other hother
    rcases List.mem_append.1 hother with hother | hother
    · exact hbooks.names other hother
    · obtain rfl := List.mem_singleton.1 hother
      exact hrow
  · intro row hr earlier hlt
    obtain ⟨other, hother, hsame⟩ := hbooks.below row hr earlier hlt
    exact ⟨other, List.mem_append_left _ hother, hsame⟩
  · rw [counted_void hbooks hlater hnew, unpaidVoids_void hbooks hnew, List.length_append]
    have hle := List.length_filter_le (fun row : Stamp => decide (row.validator ≠ void.validator)) (counted group rows)
    have := hbooks.enough
    omega

/-- A void raises the count by one unless the count forgets a fresh result of its validator. -/
theorem owed_void (hbooks : Books group rows) (hlater : ∀ row ∈ rows, row.createdAt < void.createdAt)
    (hnew : ∀ other ∈ group, ¬ (other.validator = void.validator ∧ other.generation = void.generation))
    (hrow : ∃ row ∈ rows, row.validator = void.validator ∧ row.generation = void.generation) :
    owed (group ++ [void]) rows = owed group rows + 1 ↔
      ∀ row ∈ counted group rows, row.validator ≠ void.validator := by
  rw [hbooks.owed_eq, (hbooks.addVoid hlater hnew hrow).owed_eq, counted_void hbooks hlater hnew,
    unpaidVoids_void hbooks hnew, List.length_append, List.length_singleton]
  have hiff := length_filter_eq_iff (fun row : Stamp => decide (row.validator ≠ void.validator)) (counted group rows)
  simp only [decide_eq_true_eq] at hiff
  rw [← hiff]
  omega

end Void

/-! ## A result -/

section Result

variable {row : Stamp}

theorem counted_append (hunpaid : unpaidVoids group (rows ++ [row]) = unpaidVoids group rows)
    (hcounts : row.validator ∉ group.map Stamp.validator ∧ row.generation = 0 ∧
      ∃ void ∈ unpaidVoids group rows, void.createdAt ≤ row.createdAt) :
    counted group (rows ++ [row]) = counted group rows ++ [row] := by
  rw [counted, hunpaid, List.filter_append, ← counted]
  refine congrArg _ (List.filter_eq_self.2 ?_)
  intro x hx
  obtain rfl := List.mem_singleton.1 hx
  rw [decide_eq_true_eq]
  exact hcounts

/-- A first result pays for no void of its own validator. -/
theorem unpaidVoids_first (hzero : row.generation = 0) :
    unpaidVoids group (rows ++ [row]) = unpaidVoids group rows := by
  refine List.filter_congr fun void _ => ?_
  rw [decide_eq_decide, not_iff_not]
  constructor
  · rintro ⟨r, hr, hsame⟩
    rcases List.mem_append.1 hr with hr | hr
    · exact ⟨r, hr, hsame⟩
    · obtain rfl := List.mem_singleton.1 hr
      omega
  · rintro ⟨r, hr, hsame⟩
    exact ⟨r, List.mem_append_left _ hr, hsame⟩

theorem Books.validator_of_void (hbooks : Books group rows) {validator : String}
    (h : validator ∈ group.map Stamp.validator) : validator ∈ rows.map Stamp.validator := by
  obtain ⟨void, hvoid, rfl⟩ := List.mem_map.1 h
  obtain ⟨r, hr, hsame⟩ := hbooks.names void hvoid
  exact List.mem_map.2 ⟨r, hr, hsame.1⟩

theorem names_append (hbooks : Books group rows) : ∀ void ∈ group, ∃ r ∈ rows ++ [row],
    r.validator = void.validator ∧ r.generation = void.generation := by
  intro void hvoid
  obtain ⟨r, hr, hsame⟩ := hbooks.names void hvoid
  exact ⟨r, List.mem_append_left _ hr, hsame⟩

theorem below_append (hbooks : Books group rows) (hrow : ∀ earlier < row.generation, ∃ void ∈ group,
    void.validator = row.validator ∧ void.generation = earlier) : ∀ r ∈ rows ++ [row], ∀ earlier < r.generation,
      ∃ void ∈ group, void.validator = r.validator ∧ void.generation = earlier := by
  intro r hr earlier hlt
  rcases List.mem_append.1 hr with hr | hr
  · exact hbooks.below r hr earlier hlt
  · obtain rfl := List.mem_singleton.1 hr
    exact hrow earlier hlt

/-- A fresh result lowers the count by one. -/
theorem owed_fresh (hbooks : Books group rows) (howed : 0 < owed group rows)
    (hlater : ∀ void ∈ group, void.createdAt < row.createdAt) (hnew : row.validator ∉ rows.map Stamp.validator)
    (hzero : row.generation = 0) :
    Books group (rows ++ [row]) ∧ owed group (rows ++ [row]) = owed group rows - 1 := by
  have hunpaid : unpaidVoids group (rows ++ [row]) = unpaidVoids group rows := unpaidVoids_first hzero
  rw [hbooks.owed_eq] at howed ⊢
  obtain ⟨void, hvoid⟩ : ∃ void, void ∈ unpaidVoids group rows := by
    apply List.exists_mem_of_ne_nil
    intro hnil
    rw [hnil, List.length_nil] at howed
    omega
  have hcounted : counted group (rows ++ [row]) = counted group rows ++ [row] := by
    refine counted_append hunpaid ⟨fun hmem => hnew (hbooks.validator_of_void hmem), hzero, void, hvoid, ?_⟩
    exact le_of_lt (hlater void (List.mem_of_mem_filter hvoid))
  have hbooks' : Books group (rows ++ [row]) := by
    refine ⟨hbooks.voids, names_append hbooks, below_append hbooks (by omega), ?_⟩
    rw [hunpaid, hcounted, List.length_append, List.length_singleton]
    omega
  refine ⟨hbooks', ?_⟩
  rw [hbooks'.owed_eq, hunpaid, hcounted, List.length_append, List.length_singleton]
  omega

/-- A result before the first void leaves nothing owed. -/
theorem owed_unvoided (hbooks : Books [] rows) (hzero : row.generation = 0) :
    Books [] (rows ++ [row]) ∧ owed [] (rows ++ [row]) = owed [] rows := by
  have hnone : ∀ rs : List Stamp, unpaidVoids [] rs = [] ∧ counted [] rs = [] := by
    intro rs
    refine ⟨rfl, List.filter_eq_nil_iff.2 fun r _ => ?_⟩
    rw [decide_eq_true_eq]
    rintro ⟨-, -, void, hvoid, -⟩
    cases hvoid
  refine ⟨⟨hbooks.voids, names_append hbooks, below_append hbooks (by omega), ?_⟩, ?_⟩
  · rw [(hnone _).1, (hnone _).2]
  · rw [owed, owed, (hnone _).1, (hnone _).2, (hnone rows).1, (hnone rows).2]

/-- The unpaid void of a validator is its newest one. -/
theorem Books.le_of_unpaid (hbooks : Books group rows) {void other : Stamp} (hvoid : void ∈ unpaidVoids group rows)
    (hother : other ∈ group) (hsame : other.validator = void.validator) : other.generation ≤ void.generation := by
  have hlast := (List.mem_filter.1 hvoid).2
  rw [decide_eq_true_eq] at hlast
  by_contra hlt
  obtain ⟨r, hr, hrsame⟩ := hbooks.names other hother
  rcases Nat.lt_or_eq_of_le (show void.generation + 1 ≤ other.generation by omega) with hlt' | heq
  · obtain ⟨next, hnext, hnsame⟩ := hbooks.below r hr (void.generation + 1) (by omega)
    obtain ⟨r', hr', hr'same⟩ := hbooks.names next hnext
    exact hlast ⟨r', hr', by rw [hr'same.1, hnsame.1, hrsame.1, hsame], by rw [hr'same.2, hnsame.2]⟩
  · exact hlast ⟨r, hr, by rw [hrsame.1, hsame], by omega⟩

/-- A re-run pays for the one unpaid void of its validator. -/
theorem unpaidVoids_rerun (hbooks : Books group rows) {void : Stamp} (hvoid : void ∈ unpaidVoids group rows)
    (hvalidator : row.validator = void.validator) (hgeneration : row.generation = void.generation + 1) :
    unpaidVoids group (rows ++ [row]) = (unpaidVoids group rows).filter (fun other => other.validator ≠ row.validator) ∧
      ((unpaidVoids group rows).filter fun other => other.validator ≠ row.validator).length + 1 =
        (unpaidVoids group rows).length := by
  have hunpaid : ∀ other, other ∈ unpaidVoids group rows ↔ other ∈ group ∧
      ¬ ∃ r ∈ rows, r.validator = other.validator ∧ r.generation = other.generation + 1 := by
    intro other
    rw [unpaidVoids, List.mem_filter, decide_eq_true_eq]
  -- Two unpaid voids of one validator: the lower generation was followed by a stored one.
  have honly : ∀ other ∈ unpaidVoids group rows, other.validator = row.validator → other = void := by
    intro other hother hsame
    have hin := List.mem_of_mem_filter hother
    have hin' := List.mem_of_mem_filter hvoid
    have hval : other.validator = void.validator := hsame.trans hvalidator
    have hgen : other.generation = void.generation :=
      le_antisymm (hbooks.le_of_unpaid hvoid hin hval) (hbooks.le_of_unpaid hother hin' hval.symm)
    exact List.inj_on_of_nodup_map hbooks.voids hin hin' (Prod.ext hval hgen)
  constructor
  · rw [unpaidVoids, unpaidVoids, List.filter_filter]
    refine List.filter_congr fun other hother => ?_
    rw [← Bool.decide_and, decide_eq_decide]
    constructor
    · intro hlast
      have hstill : ¬ ∃ r ∈ rows, r.validator = other.validator ∧ r.generation = other.generation + 1 :=
        fun ⟨r, hr, hsame⟩ => hlast ⟨r, List.mem_append_left _ hr, hsame⟩
      refine ⟨fun hsame => ?_, hstill⟩
      have heq := honly other ((hunpaid other).2 ⟨hother, hstill⟩) hsame
      exact hlast ⟨row, List.mem_append_right _ List.mem_cons_self, hsame.symm, heq ▸ hgeneration⟩
    · rintro ⟨hne, hstill⟩ ⟨r, hr, hsame⟩
      rcases List.mem_append.1 hr with hr | hr
      · exact hstill ⟨r, hr, hsame⟩
      · obtain rfl := List.mem_singleton.1 hr
        exact hne hsame.1.symm
  · have hnodup : (unpaidVoids group rows).Nodup := (hbooks.voids.of_map _).filter _
    have herase : (unpaidVoids group rows).filter (fun other => other.validator ≠ row.validator) =
        (unpaidVoids group rows).erase void := by
      rw [hnodup.erase_eq_filter]
      refine List.filter_congr fun other hother => ?_
      rw [Bool.eq_iff_iff, decide_eq_true_eq, bne_iff_ne, not_iff_not]
      exact ⟨honly other hother, fun heq => heq ▸ hvalidator.symm⟩
    rw [herase, List.length_erase_of_mem hvoid]
    have := List.length_pos_of_mem hvoid
    omega

/-- A re-run lowers the count by one unless the count forgets a fresh result older than every other unpaid void. -/
theorem owed_rerun (hbooks : Books group rows) (howed : 0 < owed group rows) {void : Stamp}
    (hvoid : void ∈ unpaidVoids group rows) (hvalidator : row.validator = void.validator)
    (hgeneration : row.generation = void.generation + 1) :
    Books group (rows ++ [row]) ∧ (owed group (rows ++ [row]) = owed group rows - 1 ↔
      ∀ fresh ∈ counted group rows, ∃ other ∈ unpaidVoids group rows, other.validator ≠ row.validator ∧
        other.createdAt ≤ fresh.createdAt) := by
  obtain ⟨hunpaid, hlength⟩ := unpaidVoids_rerun hbooks hvoid hvalidator hgeneration
  have hcounted : counted group (rows ++ [row]) = (counted group rows).filter fun fresh =>
      ∃ other ∈ unpaidVoids group rows, other.validator ≠ row.validator ∧ other.createdAt ≤ fresh.createdAt := by
    have hlast : ([row].filter fun r => decide (r.validator ∉ group.map Stamp.validator ∧ r.generation = 0 ∧
        ∃ void ∈ unpaidVoids group (rows ++ [row]), void.createdAt ≤ r.createdAt)) = [] := by
      refine List.filter_eq_nil_iff.2 fun r hr => ?_
      obtain rfl := List.mem_singleton.1 hr
      rw [decide_eq_true_eq]
      omega
    rw [counted, List.filter_append, hlast, List.append_nil, counted, List.filter_filter]
    refine List.filter_congr fun r _ => ?_
    rw [← Bool.decide_and, decide_eq_decide, hunpaid]
    simp only [List.mem_filter, decide_eq_true_eq]
    constructor
    · rintro ⟨hnot, hzero, other, ⟨hother, hne⟩, hle⟩
      exact ⟨⟨other, hother, hne, hle⟩, hnot, hzero, other, hother, hle⟩
    · rintro ⟨⟨other, hother, hne, hle⟩, hnot, hzero, -⟩
      exact ⟨hnot, hzero, other, ⟨hother, hne⟩, hle⟩
  rw [hbooks.owed_eq] at howed ⊢
  have hle := List.length_filter_le (fun fresh : Stamp => decide (∃ other ∈ unpaidVoids group rows,
    other.validator ≠ row.validator ∧ other.createdAt ≤ fresh.createdAt)) (counted group rows)
  have hbooks' : Books group (rows ++ [row]) := by
    refine ⟨hbooks.voids, names_append hbooks, below_append hbooks ?_, ?_⟩
    · intro earlier hlt
      have hin := List.mem_of_mem_filter hvoid
      rcases Nat.lt_or_eq_of_le (show earlier ≤ void.generation by omega) with hlt' | rfl
      · obtain ⟨r, hr, hsame⟩ := hbooks.names void hin
        obtain ⟨other, hother, hosame⟩ := hbooks.below r hr earlier (by omega)
        exact ⟨other, hother, by rw [hosame.1, hsame.1, hvalidator], hosame.2⟩
      · exact ⟨void, hin, hvalidator.symm, rfl⟩
    · rw [hcounted, hunpaid]
      omega
  refine ⟨hbooks', ?_⟩
  rw [hbooks'.owed_eq, hcounted, hunpaid]
  have hiff := length_filter_eq_iff (fun fresh : Stamp => decide (∃ other ∈ unpaidVoids group rows,
    other.validator ≠ row.validator ∧ other.createdAt ≤ fresh.createdAt)) (counted group rows)
  simp only [decide_eq_true_eq] at hiff
  rw [← hiff]
  omega

end Result

/-! ## Histories -/

variable {F : Type}

/-- One agent, version and seed, and the agents that the report is asked for. -/
structure SeedScope where
  agentId : String
  benchVersion : ℕ
  seed : ℤ
  scoredOrLive : String → Bool
  agentIds : Option (List String)
  live : scoredOrLive agentId = true
  asked : ∀ ids, agentIds = some ids → agentId ∈ ids

def SeedScope.key (scope : SeedScope) (validator : String) : SampleKey :=
  ⟨scope.agentId, scope.benchVersion, validator, scope.seed⟩

/-- The rows of the seed in one table. -/
def SeedScope.stamps (scope : SeedScope) (samples : Samples F) (table : SampleTable) : List Stamp :=
  (samples.filter fun row => row.1.table = table ∧ row.1.key = scope.key row.1.key.validatorHotkey).map fun row =>
    ⟨row.1.key.validatorHotkey, row.1.voidGeneration, row.2.createdAt⟩

/-- The debt that is reported for the seed. -/
def SeedScope.debt (scope : SeedScope) (samples : Samples F) : Option VoidRerunDebt :=
  (outstandingVoidRerunDebts samples scope.scoredOrLive scope.benchVersion scope.agentIds).find?
    fun debt => debt.agentId = scope.agentId ∧ debt.seed = scope.seed

def SeedScope.outstanding (scope : SeedScope) (samples : Samples F) : ℤ :=
  (scope.debt samples).elim 0 VoidRerunDebt.outstanding

variable {scope : SeedScope} {samples : Samples F}

theorem key_eq_scope_iff {key : SampleKey} : key = scope.key key.validatorHotkey ↔
    key.benchVersion = scope.benchVersion ∧ (key.agentId, key.seed) = (scope.agentId, scope.seed) := by
  obtain ⟨agentId, benchVersion, validator, seed⟩ := key
  simp only [SeedScope.key, SampleKey.mk.injEq, Prod.mk.injEq]
  tauto

/-- The rows of one agent and seed are one group. -/
theorem valuesOf_stamps (table : SampleTable) (wanted : SampleKey → Bool)
    (hwanted : ∀ key, (key.agentId, key.seed) = (scope.agentId, scope.seed) →
      wanted key = decide (key.benchVersion = scope.benchVersion)) :
    valuesOf (scope.agentId, scope.seed) ((samples.filter fun row => row.1.table = table ∧ wanted row.1.key = true).map
      fun row => ((row.1.key.agentId, row.1.key.seed),
        (⟨row.1.key.validatorHotkey, row.1.voidGeneration, row.2.createdAt⟩ : Stamp))) =
    scope.stamps samples table := by
  rw [valuesOf, List.filter_map, List.filter_filter, List.map_map, SeedScope.stamps]
  refine congrArg (List.map _) (List.filter_congr fun row _ => ?_)
  simp only [Function.comp_apply]
  rw [← Bool.decide_and, decide_eq_decide, key_eq_scope_iff]
  constructor
  · rintro ⟨hscope, htable, hw⟩
    rw [hwanted _ hscope, decide_eq_true_eq] at hw
    exact ⟨htable, hw, hscope⟩
  · rintro ⟨htable, hversion, hscope⟩
    refine ⟨hscope, htable, ?_⟩
    rw [hwanted _ hscope, decide_eq_true_eq]
    exact hversion

/-- The report of a seed is the debt of its own rows. -/
theorem SeedScope.debt_eq (scope : SeedScope) (samples : Samples F) : scope.debt samples =
    seedDebt scope.benchVersion (scope.agentId, scope.seed) (scope.stamps samples .void)
      (scope.stamps samples .score) := by
  set asked : SampleKey → Bool := fun key => decide (key.benchVersion = scope.benchVersion) &&
    scope.scoredOrLive key.agentId && scope.agentIds.all fun ids => decide (key.agentId ∈ ids) with hasked
  set voids := stampsBySeed samples .void asked with hvoids
  set paired : SampleKey → Bool := fun key => decide (key.benchVersion = scope.benchVersion) &&
    decide ((key.agentId, key.seed) ∈ Dict.keys voids) with hpaired
  set rows := stampsBySeed samples .score paired with hrows
  set debts := voids.filterMap fun group =>
    seedDebt scope.benchVersion group.1 group.2 ((Dict.get? rows group.1).getD []) with hdebts
  -- The seed has one group, and its rows are those of the seed.
  have hgroup : ∀ group, ((scope.agentId, scope.seed), group) ∈ voids ↔
      group = scope.stamps samples .void ∧ scope.stamps samples .void ≠ [] := by
    intro group
    have hvalues : valuesOf (scope.agentId, scope.seed) _ = scope.stamps samples .void :=
      valuesOf_stamps .void asked fun key hkey => by
        have hagent : key.agentId = scope.agentId := congrArg Prod.fst hkey
        have hids : (scope.agentIds.all fun ids => decide (scope.agentId ∈ ids)) = true := by
          cases hask : scope.agentIds with
          | none => rfl
          | some ids => exact decide_eq_true (scope.asked ids hask)
        rw [hasked]
        simp only [hagent, scope.live, hids, Bool.and_true]
    rw [hvoids, stampsBySeed, mem_groupOn, hvalues]
  have hseedRows : scope.stamps samples .void ≠ [] →
      (Dict.get? rows (scope.agentId, scope.seed)).getD [] = scope.stamps samples .score := by
    intro hne
    have hkey : (scope.agentId, scope.seed) ∈ Dict.keys voids :=
      List.mem_map.2 ⟨_, (hgroup (scope.stamps samples .void)).2 ⟨rfl, hne⟩, rfl⟩
    rw [hrows, stampsBySeed, getD_get?_groupOn]
    refine valuesOf_stamps .score paired fun key hscope => ?_
    rw [hpaired]
    simp only [hscope, hkey, decide_true, Bool.and_true]
  -- The reported debts of the seed are that of its group.
  have hmem : ∀ debt, debt ∈ debts ∧ debt.agentId = scope.agentId ∧ debt.seed = scope.seed ↔
      seedDebt scope.benchVersion (scope.agentId, scope.seed) (scope.stamps samples .void)
        (scope.stamps samples .score) = some debt := by
    intro debt
    rw [hdebts, List.mem_filterMap]
    constructor
    · rintro ⟨⟨⟨agentSeed, group⟩, hin, hdebt⟩, hagent, hseed⟩
      obtain ⟨-, hagent', hseed', -⟩ := (seedDebt_eq _ _ _ _).1 debt hdebt
      obtain rfl : agentSeed = (scope.agentId, scope.seed) :=
        Prod.ext (hagent'.symm.trans hagent) (hseed'.symm.trans hseed)
      obtain ⟨rfl, hne⟩ := (hgroup group).1 hin
      rw [hseedRows hne] at hdebt
      exact hdebt
    · intro hdebt
      obtain ⟨-, hagent, hseed, -⟩ := (seedDebt_eq _ _ _ _).1 debt hdebt
      have hne : scope.stamps samples .void ≠ [] := by
        intro hnil
        rw [hnil] at hdebt
        cases hdebt
      refine ⟨⟨_, (hgroup _).2 ⟨rfl, hne⟩, ?_⟩, hagent, hseed⟩
      rw [hseedRows hne]
      exact hdebt
  have hdebt : scope.debt samples = (sortOn (fun debt : VoidRerunDebt =>
      toLex (debt.oldestVoidAt, toLex (debt.agentId, debt.seed))) debts).find?
      fun debt => debt.agentId = scope.agentId ∧ debt.seed = scope.seed := rfl
  rw [hdebt]
  cases hfind : (sortOn (fun debt : VoidRerunDebt =>
      toLex (debt.oldestVoidAt, toLex (debt.agentId, debt.seed))) debts).find?
      (fun debt => debt.agentId = scope.agentId ∧ debt.seed = scope.seed) with
  | some debt =>
    have hscope := List.find?_some hfind
    rw [decide_eq_true_eq] at hscope
    exact ((hmem debt).1 ⟨mem_sortOn.1 (List.mem_of_find?_eq_some hfind), hscope⟩).symm
  | none =>
    cases hseed : seedDebt scope.benchVersion (scope.agentId, scope.seed) (scope.stamps samples .void)
      (scope.stamps samples .score) with
    | none => rfl
    | some debt =>
      obtain ⟨hin, hscope⟩ := (hmem debt).2 hseed
      have hnot := List.find?_eq_none.1 hfind debt (mem_sortOn.2 hin)
      rw [decide_eq_true_eq] at hnot
      exact absurd hscope hnot

theorem SeedScope.outstanding_eq (scope : SeedScope) (samples : Samples F) :
    scope.outstanding samples = owed (scope.stamps samples .void) (scope.stamps samples .score) := by
  rw [SeedScope.outstanding, scope.debt_eq]
  have hspec := seedDebt_eq (scope.stamps samples .void) (scope.stamps samples .score) scope.benchVersion
    (scope.agentId, scope.seed)
  cases hdebt : seedDebt scope.benchVersion (scope.agentId, scope.seed) (scope.stamps samples .void)
    (scope.stamps samples .score) with
  | none => exact (hspec.2 hdebt).symm
  | some debt => exact (hspec.1 debt hdebt).2.2.2.1

/-- What happens to the seed: a validator's result is stored, or its newest sample is voided. -/
inductive SampleEvent (F : Type)
  | append (validator : String) (sample : Sample F)
  | void (validator : String) (now : ℤ)

/-- The generation at which a validator's result is stored. -/
def SeedScope.next (scope : SeedScope) (samples : Samples F) (validator : String) : ℕ :=
  (voidsOn samples (scope.key validator)).length

def SeedScope.apply (scope : SeedScope) (samples : Samples F) : SampleEvent F → Samples F
  | .append validator sample => Dict.set samples ⟨.score, scope.key validator, scope.next samples validator⟩ sample
  | .void validator now =>
    match voidTarget samples (scope.key validator) with
    | none => samples
    | some (generation, target) =>
      Dict.set samples ⟨.void, scope.key validator, generation⟩ ⟨target.runId, target.composite, now⟩

/-- A reported debt names a validator for a replacement. -/
def Names (validator : String) : Option VoidRerunDebt → Prop
  | none => False
  | some debt => validator ∈ debt.rerunValidators ∨ validator ∉ debt.scoredValidators

instance (validator : String) : ∀ debt, Decidable (Names validator debt)
  | none => .isFalse id
  | some debt => inferInstanceAs (Decidable (validator ∈ debt.rerunValidators ∨ validator ∉ debt.scoredValidators))

/-- The events of a history: times increase, voids set un-voided samples aside, and after the first void a result is a
replacement that a reported debt asks for. -/
def SeedScope.Valid (scope : SeedScope) (samples : Samples F) : SampleEvent F → Prop
  | .append validator sample =>
    (∀ stamp ∈ scope.stamps samples .score ++ scope.stamps samples .void, stamp.createdAt < sample.createdAt) ∧
      (Dict.get? samples ⟨.score, scope.key validator, scope.next samples validator⟩).isNone = true ∧
      (scope.stamps samples .void = [] ∨ Names validator (scope.debt samples))
  | .void validator now =>
    (∀ stamp ∈ scope.stamps samples .score ++ scope.stamps samples .void, stamp.createdAt < now) ∧
      (voidTarget samples (scope.key validator)).isSome = true

/-- An event forgets no replacement: a void does not hit a counted fresh result, and a re-run leaves every counted fresh
result an unpaid void that is not newer. -/
def SeedScope.Settled (scope : SeedScope) (samples : Samples F) : SampleEvent F → Prop
  | .append validator _ => scope.stamps samples .void = [] ∨
      validator ∉ (scope.stamps samples .score).map Stamp.validator ∨
      ∀ fresh ∈ counted (scope.stamps samples .void) (scope.stamps samples .score),
        ∃ other ∈ unpaidVoids (scope.stamps samples .void) (scope.stamps samples .score),
          other.validator ≠ validator ∧ other.createdAt ≤ fresh.createdAt
  | .void validator _ => ∀ fresh ∈ counted (scope.stamps samples .void) (scope.stamps samples .score),
      fresh.validator ≠ validator

/-- A void raises the count by one, and a replacement lowers it by one. -/
def SeedScope.Exact (scope : SeedScope) (samples : Samples F) : SampleEvent F → Prop
  | .append validator sample => scope.outstanding (scope.apply samples (.append validator sample)) =
      scope.outstanding samples - if scope.stamps samples .void = [] then 0 else 1
  | .void validator now => scope.outstanding (scope.apply samples (.void validator now)) = scope.outstanding samples + 1

/-- Every event of a history has a property where it happens. -/
def SeedScope.Follows (scope : SeedScope) (P : Samples F → SampleEvent F → Prop) :
    Samples F → List (SampleEvent F) → Prop
  | _, [] => True
  | samples, event :: events => P samples event ∧ scope.Follows P (scope.apply samples event) events

def SeedScope.run (scope : SeedScope) (samples : Samples F) (events : List (SampleEvent F)) : Samples F :=
  events.foldl scope.apply samples

def voidEvents : List (SampleEvent F) → ℕ
  | [] => 0
  | .append _ _ :: events => voidEvents events
  | .void _ _ :: events => voidEvents events + 1

/-- The results stored after the first void. -/
def SeedScope.replacements (scope : SeedScope) : Samples F → List (SampleEvent F) → ℕ
  | _, [] => 0
  | samples, .append validator sample :: events => (if scope.stamps samples .void = [] then 0 else 1) +
      scope.replacements (scope.apply samples (.append validator sample)) events
  | samples, .void validator now :: events => scope.replacements (scope.apply samples (.void validator now)) events

/-! ## Steps -/

/-- A new row is one more stamp of its table. -/
theorem stamps_set {table : SampleTable} {validator : String} {generation : ℕ} {sample : Sample F}
    (hnew : Dict.get? samples ⟨table, scope.key validator, generation⟩ = none) (other : SampleTable) :
    scope.stamps (Dict.set samples ⟨table, scope.key validator, generation⟩ sample) other =
      scope.stamps samples other ++ if table = other then [⟨validator, generation, sample.createdAt⟩] else [] := by
  rw [Dict.set_of_not_mem (Dict.get?_eq_none_iff.1 hnew), SeedScope.stamps, List.filter_append, List.map_append,
    SeedScope.stamps]
  refine congrArg _ ?_
  by_cases htable : table = other
  · simp [htable, SeedScope.key]
  · simp [htable]

theorem mem_stamps (hnodup : (Dict.keys samples).Nodup) {table : SampleTable} {stamp : Stamp} :
    stamp ∈ scope.stamps samples table ↔ ∃ sample, Dict.get? samples
      ⟨table, scope.key stamp.validator, stamp.generation⟩ = some sample ∧ sample.createdAt = stamp.createdAt := by
  simp only [SeedScope.stamps, List.mem_map, List.mem_filter, decide_eq_true_eq]
  constructor
  · rintro ⟨⟨⟨table', key, generation⟩, sample⟩, ⟨hmem, rfl, hkey⟩, rfl⟩
    refine ⟨sample, ?_, rfl⟩
    simp only at hkey ⊢
    rw [← hkey]
    exact Dict.get?_of_mem hnodup hmem
  · rintro ⟨sample, hget, htime⟩
    refine ⟨(_, sample), ⟨Dict.mem_of_get? hget, rfl, rfl⟩, ?_⟩
    obtain ⟨validator, generation, createdAt⟩ := stamp
    simp only [SeedScope.key] at htime ⊢
    rw [htime]

/-- The generation of a result follows the newest void of its validator. -/
theorem next_eq (hbooks : Books (scope.stamps samples .void) (scope.stamps samples .score)) (validator : String) :
    (∀ void ∈ unpaidVoids (scope.stamps samples .void) (scope.stamps samples .score), void.validator = validator →
      scope.next samples validator = void.generation + 1) ∧
    (validator ∉ (scope.stamps samples .void).map Stamp.validator → scope.next samples validator = 0) := by
  set group := scope.stamps samples .void with hgroup
  have hlength : scope.next samples validator =
      ((group.filter fun void => void.validator = validator).map Stamp.generation).length := by
    rw [SeedScope.next, voidsOn, hgroup, SeedScope.stamps, List.length_map, List.length_map, List.filter_map,
      List.length_map, List.filter_filter]
    refine congrArg List.length (List.filter_congr fun row _ => ?_)
    simp only [Function.comp_apply]
    rw [← Bool.decide_and, decide_eq_decide]
    constructor
    · rintro ⟨htable, hkey⟩
      refine ⟨by rw [hkey]; rfl, htable, by rw [hkey]; rfl⟩
    · rintro ⟨hvalidator, htable, hkey⟩
      exact ⟨htable, by rw [hkey, hvalidator]⟩
  have hmem : ∀ generation, generation ∈ (group.filter fun void => void.validator = validator).map Stamp.generation ↔
      ∃ void ∈ group, void.validator = validator ∧ void.generation = generation := by
    intro generation
    simp only [List.mem_map, List.mem_filter, decide_eq_true_eq, and_assoc]
  have hnodup : ((group.filter fun void => void.validator = validator).map Stamp.generation).Nodup := by
    refine List.Nodup.map_on ?_ ((hbooks.voids.of_map _).filter _)
    intro a ha b hb heq
    simp only [List.mem_filter, decide_eq_true_eq] at ha hb
    exact List.inj_on_of_nodup_map hbooks.voids ha.1 hb.1 (Prod.ext (ha.2.trans hb.2.symm) heq)
  have hclosed : ∀ n ∈ (group.filter fun void => void.validator = validator).map Stamp.generation, ∀ m < n,
      m ∈ (group.filter fun void => void.validator = validator).map Stamp.generation := by
    intro n hn m hlt
    obtain ⟨void, hvoid, hvalidator, rfl⟩ := (hmem n).1 hn
    obtain ⟨row, hrow, hsame⟩ := hbooks.names void hvoid
    obtain ⟨void', hvoid', hsame'⟩ := hbooks.below row hrow m (by omega)
    exact (hmem m).2 ⟨void', hvoid', by rw [hsame'.1, hsame.1, hvalidator], hsame'.2⟩
  have hiff := mem_iff_lt_length hnodup hclosed
  rw [← hlength] at hiff
  constructor
  · intro void hunpaid hvalidator
    have hin := (hiff void.generation).1 ((hmem _).2 ⟨void, List.mem_of_mem_filter hunpaid, hvalidator, rfl⟩)
    have hout : ¬ void.generation + 1 < scope.next samples validator := by
      intro hlt
      obtain ⟨other, hother, hsame, hgeneration⟩ := (hmem _).1 ((hiff _).2 hlt)
      have := hbooks.le_of_unpaid hunpaid hother (hsame.trans hvalidator.symm)
      omega
    omega
  · intro hnone
    by_contra hpos
    obtain ⟨void, hvoid, hvalidator, -⟩ := (hmem 0).1 ((hiff 0).2 (Nat.pos_of_ne_zero hpos))
    exact hnone (List.mem_map.2 ⟨void, hvoid, hvalidator⟩)

/-- What a history keeps. -/
structure SeedInv (scope : SeedScope) (samples : Samples F) : Prop where
  nodup : (Dict.keys samples).Nodup
  books : Books (scope.stamps samples .void) (scope.stamps samples .score)

/-- A void keeps the books, and is exact when it hits no counted fresh result. -/
theorem SeedInv.step_void (h : SeedInv scope samples) {validator : String} {now : ℤ}
    (hvalid : scope.Valid samples (.void validator now)) :
    SeedInv scope (scope.apply samples (.void validator now)) ∧
      (scope.Exact samples (.void validator now) ↔ scope.Settled samples (.void validator now)) := by
  obtain ⟨hlater, htarget⟩ := hvalid
  obtain ⟨⟨generation, target⟩, htarget⟩ := Option.isSome_iff_exists.1 htarget
  have hstored := stored_of_voidTarget h.nodup htarget
  have hunvoided := not_voided_of_voidTarget htarget
  set void : Stamp := ⟨validator, generation, now⟩ with hvoid
  have happly : scope.apply samples (.void validator now) =
      Dict.set samples ⟨.void, scope.key validator, generation⟩ ⟨target.runId, target.composite, now⟩ := by
    simp only [SeedScope.apply, htarget]
  have hvoids : scope.stamps (scope.apply samples (.void validator now)) .void = scope.stamps samples .void ++
      [void] := by
    rw [happly, stamps_set hunvoided, if_pos rfl]
  have hscores : scope.stamps (scope.apply samples (.void validator now)) .score = scope.stamps samples .score := by
    rw [happly, stamps_set hunvoided, if_neg (fun hne => nomatch hne), List.append_nil]
  have hrows : ∀ row ∈ scope.stamps samples .score, row.createdAt < void.createdAt :=
    fun row hrow => hlater row (List.mem_append_left _ hrow)
  have hnew : ∀ other ∈ scope.stamps samples .void,
      ¬ (other.validator = void.validator ∧ other.generation = void.generation) := by
    rintro other hother ⟨hsame, hgeneration⟩
    obtain ⟨sample, hget, -⟩ := (mem_stamps h.nodup).1 hother
    rw [hsame, hgeneration, hunvoided] at hget
    cases hget
  have hrow : ∃ row ∈ scope.stamps samples .score, row.validator = void.validator ∧
      row.generation = void.generation :=
    ⟨⟨validator, generation, target.createdAt⟩, (mem_stamps h.nodup).2 ⟨target, hstored, rfl⟩, rfl, rfl⟩
  refine ⟨⟨?_, ?_⟩, ?_⟩
  · rw [happly]
    exact Dict.keys_set_nodup h.nodup _ _
  · rw [hvoids, hscores]
    exact h.books.addVoid hrows hnew hrow
  · rw [SeedScope.Exact, SeedScope.outstanding_eq, SeedScope.outstanding_eq, hvoids, hscores]
    exact owed_void h.books hrows hnew hrow

/-- A result keeps the books, and a replacement is exact when it leaves every counted fresh result counted. -/
theorem SeedInv.step_append (h : SeedInv scope samples) {validator : String} {sample : Sample F}
    (hvalid : scope.Valid samples (.append validator sample)) :
    SeedInv scope (scope.apply samples (.append validator sample)) ∧
      (scope.Exact samples (.append validator sample) ↔ scope.Settled samples (.append validator sample)) := by
  obtain ⟨hlater, hfree, hdebt⟩ := hvalid
  have hnone := Option.isNone_iff_eq_none.1 hfree
  set row : Stamp := ⟨validator, scope.next samples validator, sample.createdAt⟩ with hrow
  have hvoids : scope.stamps (scope.apply samples (.append validator sample)) .void = scope.stamps samples .void := by
    rw [SeedScope.apply, stamps_set hnone, if_neg (fun hne => nomatch hne), List.append_nil]
  have hscores : scope.stamps (scope.apply samples (.append validator sample)) .score =
      scope.stamps samples .score ++ [row] := by
    rw [SeedScope.apply, stamps_set hnone, if_pos rfl]
  have hnodup : (Dict.keys (scope.apply samples (.append validator sample))).Nodup := Dict.keys_set_nodup h.nodup _ _
  have hspec := next_eq h.books validator
  rw [SeedScope.Exact, SeedScope.outstanding_eq, SeedScope.outstanding_eq, hvoids, hscores, SeedScope.Settled]
  have hgoal : ∀ {P : Prop}, Books (scope.stamps samples .void) (scope.stamps samples .score ++ [row]) ∧ P →
      SeedInv scope (scope.apply samples (.append validator sample)) ∧ P := by
    rintro P ⟨hbooks, hp⟩
    refine ⟨⟨hnodup, ?_⟩, hp⟩
    rw [hvoids, hscores]
    exact hbooks
  apply hgoal
  by_cases hempty : scope.stamps samples .void = []
  · have hbooks := h.books
    rw [hempty] at hbooks hspec ⊢
    have hzero : row.generation = 0 := hspec.2 (by simp)
    obtain ⟨hbooks', howed⟩ := owed_unvoided hbooks hzero
    refine ⟨hbooks', ?_⟩
    rw [if_pos rfl, howed]
    simp
  -- After the first void a debt asks for the result.
  have hnames := hdebt.resolve_left hempty
  rw [SeedScope.debt_eq] at hnames
  cases hseed : seedDebt scope.benchVersion (scope.agentId, scope.seed) (scope.stamps samples .void)
      (scope.stamps samples .score) with
  | none =>
    rw [hseed] at hnames
    exact hnames.elim
  | some debt =>
    rw [hseed] at hnames
    obtain ⟨howed, -, -, -, hrerun, hscored⟩ := (seedDebt_eq _ _ _ _).1 debt hseed
    simp only [Names, hrerun, hscored] at hnames
    rw [if_neg hempty]
    by_cases hfresh : validator ∉ (scope.stamps samples .score).map Stamp.validator
    · have hzero : row.generation = 0 := hspec.2 fun hvoided => hfresh (h.books.validator_of_void hvoided)
      have htimes : ∀ void ∈ scope.stamps samples .void, void.createdAt < row.createdAt :=
        fun void hvoid => hlater void (List.mem_append_right _ hvoid)
      obtain ⟨hbooks', hexact⟩ := owed_fresh h.books howed htimes hfresh hzero
      exact ⟨hbooks', iff_of_true hexact (.inr (.inl hfresh))⟩
    · obtain ⟨void, hvoid, hvalidator⟩ := List.mem_map.1 (hnames.resolve_right hfresh)
      have hgeneration : row.generation = void.generation + 1 := hspec.1 void hvoid hvalidator
      obtain ⟨hbooks', hexact⟩ := owed_rerun h.books howed hvoid hvalidator.symm hgeneration
      refine ⟨hbooks', hexact.trans ⟨fun hall => .inr (.inr hall), ?_⟩⟩
      rintro (hnil | hnot | hall)
      exacts [absurd hnil hempty, absurd hnot hfresh, hall]

theorem SeedInv.step (h : SeedInv scope samples) {event : SampleEvent F} (hvalid : scope.Valid samples event) :
    SeedInv scope (scope.apply samples event) ∧ (scope.Exact samples event ↔ scope.Settled samples event) := by
  cases event with
  | append validator sample => exact h.step_append hvalid
  | void validator now => exact h.step_void hvalid

/-! ## Runs -/

/-- Every event of a history is exact if and only if none forgets a replacement. -/
theorem SeedInv.follows_iff : ∀ {events : List (SampleEvent F)} {samples : Samples F}, SeedInv scope samples →
    scope.Follows scope.Valid samples events →
      (scope.Follows scope.Exact samples events ↔ scope.Follows scope.Settled samples events) := by
  intro events
  induction events with
  | nil => exact fun _ _ => Iff.rfl
  | cons event events ih =>
    intro samples h hvalid
    obtain ⟨hnext, hiff⟩ := h.step hvalid.1
    exact and_congr hiff (ih hnext hvalid.2)

/-- Along an exact history the count and the replacements make up the voids. -/
theorem outstanding_add_replacements (scope : SeedScope) : ∀ (events : List (SampleEvent F)) (samples : Samples F),
    scope.Follows scope.Exact samples events →
      scope.outstanding (scope.run samples events) + scope.replacements samples events =
        scope.outstanding samples + voidEvents events := by
  intro events
  induction events with
  | nil =>
    intro samples _
    simp [SeedScope.run, SeedScope.replacements, voidEvents]
  | cons event events ih =>
    intro samples hexact
    have hrest := ih _ hexact.2
    have hstep := hexact.1
    have hrun : scope.run samples (event :: events) = scope.run (scope.apply samples event) events := rfl
    rw [hrun]
    cases event with
    | append validator sample =>
      simp only [SeedScope.Exact] at hstep
      simp only [SeedScope.replacements, voidEvents]
      split at hstep
      · next hempty =>
        rw [if_pos hempty]
        push_cast
        omega
      · next hne =>
        rw [if_neg hne]
        push_cast
        omega
    | void validator now =>
      simp only [SeedScope.Exact] at hstep
      simp only [SeedScope.replacements, voidEvents]
      push_cast
      omega

theorem follows_append (scope : SeedScope) {P : Samples F → SampleEvent F → Prop} :
    ∀ (before after : List (SampleEvent F)) (samples : Samples F),
      scope.Follows P samples (before ++ after) → scope.Follows P samples before := by
  intro before after
  induction before with
  | nil => intro _ _; trivial
  | cons event before ih =>
    intro samples h
    exact ⟨h.1, ih _ h.2⟩

theorem outstanding_nonneg (scope : SeedScope) (samples : Samples F) : 0 ≤ scope.outstanding samples := by
  rw [scope.outstanding_eq]
  exact le_max_left _ _

/-- For every history of one seed: each replacement lowers the count by one and each void raises it by one, so that the
replacements never outnumber the voids, the count is zero exactly when they are equal, and it never exceeds the voids,
if and only if no event forgets a replacement. -/
theorem void_debts_balanced_iff (scope : SeedScope) (start : Samples F) (hnodup : (Dict.keys start).Nodup)
    (hstart : ∀ table, scope.stamps start table = []) (events : List (SampleEvent F))
    (hvalid : scope.Follows scope.Valid start events) :
    (scope.Follows scope.Exact start events ∧ ∀ before after, events = before ++ after →
      scope.replacements start before ≤ voidEvents before ∧
      (scope.outstanding (scope.run start before) = 0 ↔ scope.replacements start before = voidEvents before) ∧
      scope.outstanding (scope.run start before) ≤ voidEvents before) ↔
    scope.Follows scope.Settled start events := by
  have hbooks : Books (scope.stamps start .void) (scope.stamps start .score) := by
    rw [hstart, hstart]
    exact ⟨by simp, by simp, by simp, by simp [counted]⟩
  have hinv : SeedInv scope start := ⟨hnodup, hbooks⟩
  have hzero : scope.outstanding start = 0 := by
    rw [scope.outstanding_eq, hstart, hstart]
    rfl
  rw [← hinv.follows_iff hvalid]
  refine ⟨fun h => h.1, fun hexact => ⟨hexact, ?_⟩⟩
  intro before after hsplit
  rw [hsplit] at hexact
  have hsum := outstanding_add_replacements scope before start (follows_append scope before after start hexact)
  have hnonneg := outstanding_nonneg scope (scope.run start before)
  rw [hzero] at hsum
  omega

/-! ## A forgotten replacement -/

instance (scope : SeedScope) (samples : Samples F) : ∀ event, Decidable (scope.Valid samples event)
  | .append _ _ => inferInstanceAs (Decidable (_ ∧ _ ∧ _))
  | .void _ _ => inferInstanceAs (Decidable (_ ∧ _))

instance (scope : SeedScope) (samples : Samples F) : ∀ event, Decidable (scope.Settled samples event)
  | .append _ _ => inferInstanceAs (Decidable (_ ∨ _ ∨ _))
  | .void _ _ => inferInstanceAs (Decidable (∀ fresh ∈ counted _ _, _))

instance decidableFollows (scope : SeedScope) (P : Samples F → SampleEvent F → Prop)
    [∀ samples event, Decidable (P samples event)] :
    ∀ (samples : Samples F) (events : List (SampleEvent F)), Decidable (scope.Follows P samples events)
  | _, [] => inferInstanceAs (Decidable True)
  | samples, event :: events =>
    have := decidableFollows scope P (scope.apply samples event) events
    inferInstanceAs (Decidable (_ ∧ _))

/-- One seed of one live agent. -/
def sampleScope : SeedScope where
  agentId := "agent"
  benchVersion := 12
  seed := 7
  scoredOrLive := fun _ => true
  agentIds := none
  live := rfl
  asked := fun _ h => nomatch h

/-- Two results, a void that a third validator replaces, the other void, and then both validators run again. -/
def forgetfulHistory : List (SampleEvent ℚ) :=
  [.append "a" ⟨"a1", 1 / 2, 1⟩, .append "b" ⟨"b1", 1 / 2, 2⟩, .void "a" 3, .append "c" ⟨"c1", 1 / 2, 4⟩, .void "b" 5,
   .append "a" ⟨"a2", 1 / 2, 6⟩, .append "b" ⟨"b2", 1 / 2, 7⟩]

/-- The re-run of the first validator does not lower the count, and three replacements answer two voids. -/
theorem rerun_forgets_fresh_result : sampleScope.Follows sampleScope.Valid [] forgetfulHistory ∧
    sampleScope.outstanding (sampleScope.run [] (forgetfulHistory.take 5)) = 1 ∧
    sampleScope.outstanding (sampleScope.run [] (forgetfulHistory.take 6)) = 1 ∧
    sampleScope.replacements [] forgetfulHistory = 3 ∧ voidEvents forgetfulHistory = 2 := by
  decide +kernel

/-- Each validator runs its own void again. -/
def settledHistory : List (SampleEvent ℚ) :=
  [.append "a" ⟨"a1", 1 / 2, 1⟩, .append "b" ⟨"b1", 1 / 2, 2⟩, .void "a" 3, .void "b" 4, .append "a" ⟨"a2", 1 / 2, 5⟩,
   .append "c" ⟨"c1", 1 / 2, 6⟩]

theorem void_debts_balanced_settled : sampleScope.Follows sampleScope.Exact [] settledHistory ∧
    sampleScope.replacements [] settledHistory ≤ voidEvents settledHistory := by
  have hbalanced := (void_debts_balanced_iff sampleScope [] List.nodup_nil (fun _ => rfl) settledHistory
    (by decide +kernel)).2 (by decide +kernel)
  exact ⟨hbalanced.1, (hbalanced.2 settledHistory [] (List.append_nil _).symm).1⟩

end DittoSubnet.Platform

import DittoSubnet.Kit.Transaction
import DittoSubnet.Validator.Emission

/-!
# The fold with a treasury

`service_first_weights` of `treasury_weight_math.py` reserves the services before the miners are paid, and
`owner_burn_destination_required` of `weights.py` says beforehand whether the folded vector will need the burn hotkey.
Here with the service share, in exact arithmetic.

* `serviceFirstWeights_eq`: the folded vector in three parts, of the miners, of the collector and of the burn.
* `ownerBurnDestinationRequired_iff`: the prediction is the sign of the residual.
* `burn_destination_exact`: the prediction and the two folds agree.
-/

namespace DittoSubnet.Validator.ServiceFold

open Kit

variable {K : Type} [ExactArith K]

/-! ## The two functions -/

/-- What the miners get: each weight over the greatest one first, then over the sum. -/
def payMiners (miners : Dict String K) (miner : K) : Dict String K :=
  let maximum := ((miners.map Prod.snd).max?).getD 0
  let scaled : Dict String K := miners.map fun hw => (hw.1, hw.2 / maximum)
  let total := scaled.total
  scaled.map fun hw => (hw.1, hw.2 / total * miner)

/-- Reserves services first and burns only what is left of the miner share. -/
def serviceFirstWeights (weights : Dict String K) (serviceBps : ℤ) (burnShare : K) (collectorHotkey : String)
    (collectorVerified : Bool) (burnHotkey : String) (paidMinerFraction : K) : Except String (Dict String K) := do
  ensure (0 ≤ serviceBps ∧ serviceBps ≤ 10000) "service allocation must be between 0 and 10000 bps"
  ensure ((0 ≤ burnShare ∧ burnShare ≤ 1) ∧ 0 ≤ paidMinerFraction ∧ paidMinerFraction ≤ 1)
    "invalid burn or paid miner share"
  ensure (¬ (serviceBps ≠ 0 ∧ (collectorVerified = false ∨ collectorHotkey = "" ∨ collectorHotkey = burnHotkey)))
    "service collector identity is not independently verified"
  ensure (∀ hw ∈ weights, 0 ≤ hw.2) "invalid miner vector"
  let excluded := (if burnHotkey ≠ "" then [burnHotkey] else []) ++
    (if collectorHotkey ≠ "" then [collectorHotkey] else [])
  let miners := weights.filter fun hw => hw.1 ∉ excluded ∧ 0 < hw.2
  let service : K := bpsShare serviceBps
  let miner := if miners = [] then 0 else (1 - service) * (1 - burnShare) * paidMinerFraction
  let result := if miner ≠ 0 then payMiners miners miner else []
  let result := if service ≠ 0 then result.set collectorHotkey service else result
  let residual := 1 - service - miner
  if 0 < residual then do
    ensure (burnHotkey ≠ "") "burn hotkey is required"
    pure (result.set burnHotkey residual)
  else pure result

/-- Whether the submitted vector will contain the burn hotkey; a value that is out of range requires it. -/
def ownerBurnDestinationRequired (weights : Dict String K) (minerShare paidMinerFraction : K) (serviceBps : ℤ) : Bool :=
  if ¬ (0 ≤ minerShare ∧ minerShare ≤ 1) ∨ ¬ (0 ≤ paidMinerFraction ∧ paidMinerFraction ≤ 1) ∨
      ¬ (0 ≤ serviceBps ∧ serviceBps ≤ 10000) then true
  else
    let service : K := bpsShare serviceBps
    let paid := if hasPositiveWeight weights then (1 - service) * minerShare * paidMinerFraction else 0
    0 < 1 - service - paid

/-! ## The folded vector -/

/-- The shares that a fold is given. -/
structure FoldShares (serviceBps : ℤ) (burnShare paidMinerFraction : K) : Prop where
  service : 0 ≤ serviceBps ∧ serviceBps ≤ 10000
  burn : 0 ≤ burnShare ∧ burnShare ≤ 1
  paid : 0 ≤ paidMinerFraction ∧ paidMinerFraction ≤ 1

/-- What is left for the miners. -/
def minerShareOf (weights : Dict String K) (serviceBps : ℤ) (burnShare paidMinerFraction : K) : K :=
  if weights.positives = [] then 0 else (1 - bpsShare serviceBps) * (1 - burnShare) * paidMinerFraction

section Shares

variable {weights : Dict String K} {serviceBps : ℤ} {burnShare paidMinerFraction : K}

theorem bpsShare_mem (h : FoldShares serviceBps burnShare paidMinerFraction) :
    (0 : K) ≤ bpsShare serviceBps ∧ (bpsShare serviceBps : K) ≤ 1 := by
  have hscale : (0 : K) < (BASIS_POINT_SCALE : K) := by norm_num [BASIS_POINT_SCALE]
  constructor
  · exact div_nonneg (Int.cast_nonneg h.service.1) hscale.le
  · refine (div_le_one hscale).2 ?_
    have hle : serviceBps ≤ BASIS_POINT_SCALE := h.service.2
    exact_mod_cast hle

/-- The miners get no more than the services leave. -/
theorem minerShareOf_mem (h : FoldShares serviceBps burnShare paidMinerFraction) :
    0 ≤ minerShareOf weights serviceBps burnShare paidMinerFraction ∧
      minerShareOf weights serviceBps burnShare paidMinerFraction ≤ 1 - bpsShare serviceBps := by
  obtain ⟨hservice, hservice'⟩ := bpsShare_mem h
  have hleft : (0 : K) ≤ 1 - bpsShare serviceBps := sub_nonneg.2 hservice'
  have hburn : 0 ≤ 1 - burnShare := sub_nonneg.2 h.burn.2
  have hburn' : 1 - burnShare ≤ 1 := sub_le_self 1 h.burn.1
  unfold minerShareOf
  split
  · exact ⟨le_refl 0, hleft⟩
  · refine ⟨mul_nonneg (mul_nonneg hleft hburn) h.paid.1, ?_⟩
    calc (1 - bpsShare serviceBps) * (1 - burnShare) * paidMinerFraction
        ≤ (1 - bpsShare serviceBps) * (1 - burnShare) := mul_le_of_le_one_right (mul_nonneg hleft hburn) h.paid.2
      _ ≤ 1 - bpsShare serviceBps := mul_le_of_le_one_right hleft hburn'

theorem positives_eq_nil_iff : weights.positives = [] ↔ hasPositiveWeight weights = false := by
  unfold Dict.positives hasPositiveWeight
  rw [List.filter_eq_nil_iff, List.any_eq_false]

/-- The prediction is the sign of the residual. -/
theorem ownerBurnDestinationRequired_iff (h : FoldShares serviceBps burnShare paidMinerFraction) :
    ownerBurnDestinationRequired weights (1 - burnShare) paidMinerFraction serviceBps = true ↔
      0 < 1 - bpsShare serviceBps - minerShareOf weights serviceBps burnShare paidMinerFraction := by
  have hminer : 0 ≤ 1 - burnShare ∧ 1 - burnShare ≤ 1 := ⟨sub_nonneg.2 h.burn.2, sub_le_self 1 h.burn.1⟩
  unfold ownerBurnDestinationRequired minerShareOf
  rw [if_neg (by simp only [not_or, not_not]; exact ⟨hminer, h.paid, h.service⟩)]
  by_cases hpositive : hasPositiveWeight weights = true
  · have hne : weights.positives ≠ [] := by
      rw [Ne, positives_eq_nil_iff, hpositive]
      decide
    simp [hpositive, hne]
  · have hnil : weights.positives = [] := positives_eq_nil_iff.2 (by simpa using hpositive)
    simp [hpositive, hnil]

end Shares

/-! ## The miners' part -/

section Miners

variable {miners : Dict String K} {miner : K}

theorem max_pos (hne : miners ≠ []) (hpos : ∀ hw ∈ miners, 0 < hw.2) : 0 < ((miners.map Prod.snd).max?).getD 0 := by
  obtain ⟨m, hm⟩ : ∃ m, (miners.map Prod.snd).max? = some m := by
    cases hmax : (miners.map Prod.snd).max? with
    | none => exact absurd (by simpa using List.max?_eq_none_iff.1 hmax) hne
    | some m => exact ⟨m, rfl⟩
  obtain ⟨hw, hmem, hw2⟩ := List.mem_map.1 (List.max?_mem hm)
  rw [hm, Option.getD_some, ← hw2]
  exact hpos hw hmem

/-- Scaling first changes nothing in exact arithmetic. -/
theorem payMiners_eq (hne : miners ≠ []) (hpos : ∀ hw ∈ miners, 0 < hw.2) (miner : K) :
    payMiners miners miner = miners.map fun hw => (hw.1, hw.2 * (miner / miners.total)) := by
  have hmax := max_pos hne hpos
  have htotal := Dict.total_pos hne hpos
  have hscaled : Dict.total (miners.map fun hw => (hw.1, hw.2 / ((miners.map Prod.snd).max?).getD 0)) =
      miners.total / ((miners.map Prod.snd).max?).getD 0 := by
    simp only [div_eq_mul_inv]
    exact Dict.total_map_mul _ miners
  unfold payMiners
  simp only [hscaled, List.map_map]
  refine List.map_congr_left ?_
  intro hw _
  simp only [Function.comp_apply, Prod.mk.injEq, true_and]
  field_simp

theorem keys_payMiners (hne : miners ≠ []) (hpos : ∀ hw ∈ miners, 0 < hw.2) :
    (payMiners miners miner).keys = miners.keys := by
  rw [payMiners_eq hne hpos]
  exact Dict.keys_map miners fun _ w => w * (miner / miners.total)

theorem total_payMiners (hne : miners ≠ []) (hpos : ∀ hw ∈ miners, 0 < hw.2) :
    (payMiners miners miner).total = miner := by
  have htotal := Dict.total_pos hne hpos
  rw [payMiners_eq hne hpos, Dict.total_map_mul, mul_div_cancel₀ _ htotal.ne']

theorem amount_payMiners (hne : miners ≠ []) (hpos : ∀ hw ∈ miners, 0 < hw.2) (k : String) :
    (payMiners miners miner).amount k = miners.amount k * (miner / miners.total) := by
  rw [payMiners_eq hne hpos]
  exact Dict.amount_map_value (fun w => w * (miner / miners.total)) (zero_mul _) miners k

end Miners

/-! ## The whole vector -/

/-- The miners of a vector with their part of the share. -/
def minersPart (weights : Dict String K) (miner : K) : Dict String K :=
  if miner ≠ 0 then payMiners weights.positives miner else []

/-- One recipient with what it gets, if that is anything. -/
def onePart (hotkey : String) (share : K) : Dict String K := if share ≠ 0 then [(hotkey, share)] else []

theorem amount_onePart (hotkey k : String) (share : K) :
    (onePart hotkey share).amount k = if hotkey = k then share else 0 := by
  unfold onePart
  by_cases hshare : share = 0
  · simp [hshare]
  · rw [if_pos hshare, Dict.amount_cons, Dict.amount_nil]

theorem total_onePart (hotkey : String) (share : K) : (onePart hotkey share).total = share := by
  unfold onePart
  by_cases hshare : share = 0
  · simp [hshare]
  · simp [hshare]

theorem keys_onePart {hotkey k : String} {share : K} (h : k ∈ (onePart hotkey share).keys) : k = hotkey := by
  unfold onePart at h
  split at h
  · simpa [Dict.keys] using h
  · simp [Dict.keys] at h

section Whole

variable {weights : Dict String K} {serviceBps : ℤ} {burnShare paidMinerFraction : K} {collector burn : String}

/-- The vector that the fold gives, in three parts. -/
def folded (weights : Dict String K) (serviceBps : ℤ) (burnShare paidMinerFraction : K) (collector burn : String) :
    Dict String K :=
  minersPart weights (minerShareOf weights serviceBps burnShare paidMinerFraction) ++
    onePart collector (bpsShare serviceBps) ++
    onePart burn (1 - bpsShare serviceBps - minerShareOf weights serviceBps burnShare paidMinerFraction)

theorem keys_minersPart {miner : K} (hminer : miner ≠ 0 → weights.positives ≠ []) {k : String}
    (h : k ∈ (minersPart weights miner).keys) : k ∈ weights.keys := by
  unfold minersPart at h
  split at h
  · rename_i hne
    rw [keys_payMiners (hminer hne) (positives_pos weights)] at h
    exact (List.filter_sublist.map Prod.fst).subset h
  · simp [Dict.keys] at h

theorem positives_ne_nil_of_minerShareOf (h : minerShareOf weights serviceBps burnShare paidMinerFraction ≠ 0) :
    weights.positives ≠ [] := by
  intro hnil
  exact h (by rw [minerShareOf, if_pos hnil])

/-- A miner vector: distinct hotkeys, none of them the collector, with weights that are not negative. -/
structure MinerVector (weights : Dict String K) (collector : String) : Prop where
  keys_nodup : weights.keys.Nodup
  nonneg : ∀ hw ∈ weights, 0 ≤ hw.2
  collector : collector ≠ "" ∧ collector ∉ weights.keys

/-- What the fold pays as its miners. -/
theorem miners_eq (h : MinerVector weights collector) (hburn : burn ∉ weights.keys) :
    (weights.filter fun hw => decide (hw.1 ∉ (if burn ≠ "" then [burn] else []) ++
      (if collector ≠ "" then [collector] else []) ∧ 0 < hw.2)) = weights.positives := by
  refine List.filter_congr ?_
  intro hw hmem
  have hkey : hw.1 ∈ weights.keys := List.mem_map.2 ⟨hw, hmem, rfl⟩
  have hkept : hw.1 ∉ (if burn ≠ "" then [burn] else []) ++ (if collector ≠ "" then [collector] else []) := by
    intro hex
    rcases List.mem_append.1 hex with hex | hex
    · split at hex
      · exact hburn (List.mem_singleton.1 hex ▸ hkey)
      · cases hex
    · split at hex
      · exact h.collector.2 (List.mem_singleton.1 hex ▸ hkey)
      · cases hex
  simp only [hkept, not_false_eq_true, true_and]

/-- The fold with a verified collector: it fails where a residual has no burn hotkey, and is otherwise in three
parts. -/
theorem serviceFirstWeights_eq (h : MinerVector weights collector)
    (hshares : FoldShares serviceBps burnShare paidMinerFraction) (hburn : burn ∉ weights.keys)
    (hdistinct : collector ≠ burn) :
    serviceFirstWeights weights serviceBps burnShare collector true burn paidMinerFraction =
      if 0 < 1 - bpsShare serviceBps - minerShareOf weights serviceBps burnShare paidMinerFraction ∧ burn = "" then
        .error "burn hotkey is required"
      else .ok (folded weights serviceBps burnShare paidMinerFraction collector burn) := by
  have hverified : ¬ (serviceBps ≠ 0 ∧ (true = false ∨ collector = "" ∨ collector = burn)) := by
    rintro ⟨-, h' | h' | h'⟩
    · cases h'
    · exact h.collector.1 h'
    · exact hdistinct h'
  have hminer : (if weights.positives =
      [] then 0 else (1 - bpsShare serviceBps) * (1 - burnShare) * paidMinerFraction) =
        minerShareOf weights serviceBps burnShare paidMinerFraction := rfl
  have hnonneg := @minerShareOf_mem K _ weights _ _ _ hshares
  unfold serviceFirstWeights folded
  rw [ensure_bind_pos hshares.service, ensure_bind_pos ⟨hshares.burn, hshares.paid⟩, ensure_bind_pos hverified,
    ensure_bind_pos h.nonneg]
  simp only [miners_eq h hburn, hminer]
  set miner := minerShareOf weights serviceBps burnShare paidMinerFraction with hminerDef
  have hparts : ∀ k, k ∉ weights.keys → k ∉ (minersPart weights miner).keys := fun k hk hmem =>
    hk (keys_minersPart positives_ne_nil_of_minerShareOf hmem)
  have hfirst : (if miner ≠ 0 then payMiners weights.positives miner else []) = minersPart weights miner := rfl
  have hsecond : (if bpsShare serviceBps ≠ (0 : K) then (minersPart weights miner).set collector (bpsShare serviceBps)
      else minersPart weights miner) = minersPart weights miner ++ onePart collector (bpsShare serviceBps) := by
    unfold onePart
    by_cases hservice : (bpsShare serviceBps : K) = 0
    · rw [if_neg (not_not.2 hservice), if_neg (not_not.2 hservice), List.append_nil]
    · rw [if_pos hservice, if_pos hservice, Dict.set_of_not_mem (hparts collector h.collector.2)]
  rw [hfirst, hsecond]
  by_cases hresidual : 0 < 1 - bpsShare serviceBps - miner
  · rw [if_pos hresidual]
    by_cases hempty : burn = ""
    · rw [if_pos ⟨hresidual, hempty⟩]
      rw [ensure_bind_neg (not_not.2 hempty)]
    · have hnew : burn ∉ Dict.keys (minersPart weights miner ++ onePart collector (bpsShare serviceBps)) := by
        intro hmem
        rw [Dict.keys, List.map_append] at hmem
        rcases List.mem_append.1 hmem with hmem | hmem
        · exact hparts burn hburn hmem
        · exact hdistinct (keys_onePart hmem).symm
      have hburnPart : onePart burn (1 - bpsShare serviceBps - miner) = [(burn, 1 - bpsShare serviceBps - miner)] :=
        if_pos hresidual.ne'
      rw [if_neg fun h' => hempty h'.2, ensure_bind_pos hempty, Dict.set_of_not_mem hnew, hburnPart]
      rfl
  · have hzero : 1 - bpsShare serviceBps - miner = 0 := by
      have hle := hnonneg.2
      have : 0 ≤ 1 - bpsShare serviceBps - miner := sub_nonneg.2 hle
      exact le_antisymm (not_lt.1 hresidual) this
    have hburnPart : onePart burn (1 - bpsShare serviceBps - miner) = [] := if_neg (not_not.2 hzero)
    rw [if_neg hresidual, if_neg fun h' => hresidual h'.1, hburnPart, List.append_nil]
    rfl

/-! ## What it pays -/

theorem not_mem_onePart {hotkey k : String} {share : K} (h : k ≠ hotkey) : k ∉ (onePart hotkey share).keys :=
  fun hmem => h (keys_onePart hmem)

/-- What a miner gets. -/
theorem amount_folded_miner (h : MinerVector weights collector) {k : String} (hk : k ≠ collector)
    (hk' : k ≠ burn) :
    (folded weights serviceBps burnShare paidMinerFraction collector burn).amount k =
      weights.amount k * (minerShareOf weights serviceBps burnShare paidMinerFraction / weights.positives.total) := by
  rw [folded, Dict.amount_append _ _ (not_mem_onePart hk'), Dict.amount_append _ _ (not_mem_onePart hk)]
  unfold minersPart
  split
  · rename_i hne
    rw [amount_payMiners (positives_ne_nil_of_minerShareOf hne) (positives_pos weights),
      Dict.amount_positives h.nonneg h.keys_nodup]
  · rename_i hzero
    rw [not_not.1 hzero, Dict.amount_nil, zero_div, mul_zero]

theorem amount_folded_collector (h : MinerVector weights collector) (hdistinct : collector ≠ burn) :
    (folded weights serviceBps burnShare paidMinerFraction collector burn).amount collector = bpsShare serviceBps := by
  have hnot : collector ∉ (minersPart weights (minerShareOf weights serviceBps burnShare paidMinerFraction)).keys :=
    fun hmem => h.collector.2 (keys_minersPart positives_ne_nil_of_minerShareOf hmem)
  rw [folded, Dict.amount_append _ _ (not_mem_onePart hdistinct), Dict.amount_append_right _ _ hnot, amount_onePart,
    if_pos rfl]

theorem amount_folded_burn (hburn : burn ∉ weights.keys) (hdistinct : collector ≠ burn) :
    (folded weights serviceBps burnShare paidMinerFraction collector burn).amount burn =
      1 - bpsShare serviceBps - minerShareOf weights serviceBps burnShare paidMinerFraction := by
  have hnot : burn ∉ Dict.keys (minersPart weights (minerShareOf weights serviceBps burnShare paidMinerFraction) ++
      onePart collector (bpsShare serviceBps)) := by
    intro hmem
    rw [Dict.keys, List.map_append] at hmem
    rcases List.mem_append.1 hmem with hmem | hmem
    · exact hburn (keys_minersPart positives_ne_nil_of_minerShareOf hmem)
    · exact hdistinct (keys_onePart hmem).symm
  rw [folded, Dict.amount_append_right _ _ hnot, amount_onePart, if_pos rfl]

theorem total_folded (weights : Dict String K) (serviceBps : ℤ) (burnShare paidMinerFraction : K)
    (collector burn : String) : (folded weights serviceBps burnShare paidMinerFraction collector burn).total = 1 := by
  have hminers : (minersPart weights (minerShareOf weights serviceBps burnShare paidMinerFraction)).total =
      minerShareOf weights serviceBps burnShare paidMinerFraction := by
    unfold minersPart
    split
    · rename_i hne
      exact total_payMiners (positives_ne_nil_of_minerShareOf hne) (positives_pos weights)
    · rename_i hzero
      rw [not_not.1 hzero, Dict.total_nil]
  rw [folded, Dict.total_append, Dict.total_append, hminers, total_onePart, total_onePart]
  ring

theorem folded_nonneg (hshares : FoldShares serviceBps burnShare paidMinerFraction) :
    ∀ hw ∈ folded weights serviceBps burnShare paidMinerFraction collector burn, 0 ≤ hw.2 := by
  have hminer := @minerShareOf_mem K _ weights _ _ _ hshares
  have hone : ∀ {hotkey : String} {share : K}, 0 ≤ share → ∀ hw ∈ onePart hotkey share, 0 ≤ hw.2 := by
    intro hotkey share hshare hw hmem
    unfold onePart at hmem
    split at hmem
    · rw [List.mem_singleton.1 hmem]
      exact hshare
    · cases hmem
  intro hw hmem
  rcases List.mem_append.1 hmem with hmem | hmem
  · rcases List.mem_append.1 hmem with hmem | hmem
    · unfold minersPart at hmem
      split at hmem
      · rename_i hne
        have hpositives := positives_ne_nil_of_minerShareOf hne
        rw [payMiners_eq hpositives (positives_pos weights)] at hmem
        obtain ⟨hw', hmem', rfl⟩ := List.mem_map.1 hmem
        exact mul_nonneg (positives_pos weights hw' hmem').le
          (div_nonneg hminer.1 (Dict.total_pos hpositives (positives_pos weights)).le)
      · cases hmem
    · exact hone (bpsShare_mem hshares).1 hw hmem
  · exact hone (sub_nonneg.2 hminer.2) hw hmem

/-! ## The plain cap -/

/-- The cap looks at positive weights only. -/
theorem applyMinerEmissionCap_positives (weights : Dict String K) (share : K) (burn : String) :
    applyMinerEmissionCap weights.positives share burn = applyMinerEmissionCap weights share burn := by
  have hminers : weights.positives.filter (fun hw => decide (hw.1 ≠ burn ∧ 0 < hw.2)) =
      weights.filter fun hw => decide (hw.1 ≠ burn ∧ 0 < hw.2) := by
    rw [Dict.positives, List.filter_filter]
    refine List.filter_congr ?_
    intro hw _
    by_cases hpos : 0 < hw.2 <;> simp [hpos]
  simp only [applyMinerEmissionCap, hminers]

/-- Without a service share the cap is the fold. -/
theorem applyMinerEmissionCap_folded (h : MinerVector weights collector)
    (hshares : FoldShares 0 burnShare paidMinerFraction) (hburn : burn ∉ weights.keys) (hdistinct : collector ≠ burn)
    (hneeded : burn = "" → ¬ 0 < 1 - bpsShare 0 - minerShareOf weights 0 burnShare paidMinerFraction) :
    ∃ w, applyMinerEmissionCap weights ((1 - burnShare) * paidMinerFraction) burn = .ok w ∧
      ∀ k, w.amount k = (folded weights 0 burnShare paidMinerFraction collector burn).amount k := by
  have hservice : (bpsShare 0 : K) = 0 := by simp [bpsShare]
  have hshare : 0 ≤ (1 - burnShare) * paidMinerFraction :=
    mul_nonneg (sub_nonneg.2 hshares.burn.2) hshares.paid.1
  have hshare' : (1 - burnShare) * paidMinerFraction ≤ 1 :=
    mul_le_one₀ (sub_le_self 1 hshares.burn.1) hshares.paid.1 hshares.paid.2
  rw [← applyMinerEmissionCap_positives]
  rw [hservice] at hneeded
  by_cases hnil : weights.positives = []
  · -- An empty pool burns as a whole.
    have hminer : minerShareOf weights 0 burnShare paidMinerFraction = 0 := if_pos hnil
    have hnonempty : burn ≠ "" := by
      intro he
      refine hneeded he ?_
      rw [hminer]
      norm_num
    refine ⟨[(burn, 1)], ?_, ?_⟩
    · simp [applyMinerEmissionCap, hnil, hshare, hshare', hnonempty]
    · intro k
      have hfolded : folded weights 0 burnShare paidMinerFraction collector burn = [(burn, 1)] := by
        simp [folded, minersPart, onePart, hminer, hservice]
      rw [hfolded]
  · have hminer : minerShareOf weights 0 burnShare paidMinerFraction = (1 - burnShare) * paidMinerFraction := by
      rw [minerShareOf, if_neg hnil, hservice, sub_zero, one_mul]
    have hnodup : weights.positives.keys.Nodup := Dict.keys_filter_nodup h.keys_nodup _
    have htotal := Dict.total_pos hnil (positives_pos weights)
    have hburn' : burn ∉ weights.positives.keys := fun hmem => hburn ((List.filter_sublist.map Prod.fst).subset hmem)
    have hempty : burn = "" → 0 < weights.positives.total ∧ (1 - burnShare) * paidMinerFraction = 1 := by
      intro he
      have hle := hneeded he
      rw [hminer, sub_zero] at hle
      exact ⟨htotal, le_antisymm hshare' (sub_nonpos.1 (not_lt.1 hle))⟩
    obtain ⟨w, hw, -, -, -, hminers, hrest⟩ := applyMinerEmissionCap_spec hnodup (positives_pos weights) hshare hshare'
      (fun h0 => absurd h0 htotal.ne') hburn' hempty
    refine ⟨w, hw, ?_⟩
    intro k
    by_cases hk : k = burn
    · rw [hk, hrest, amount_folded_burn hburn hdistinct, hminer, hservice, sub_zero]
    · by_cases hk' : k = collector
      · rw [hk', hminers collector hdistinct, amount_folded_collector h hdistinct, hservice,
          Dict.amount_positives h.nonneg h.keys_nodup, Dict.amount_of_not_mem h.collector.2, zero_div, zero_mul]
      · rw [hminers k hk, amount_folded_miner h hk' hk, hminer, Dict.amount_positives h.nonneg h.keys_nodup]
        ring

/-! ## The agreement -/

/-- The prediction is exact, and the two folds agree: the burn hotkey gets something exactly when it was required;
when it was not, neither fold needs one; without a service share they pay the same; and the folded vector is a whole,
with the services first and the miners in proportion. -/
theorem burn_destination_exact (h : MinerVector weights collector)
    (hshares : FoldShares serviceBps burnShare paidMinerFraction) :
    (∀ burn, burn ≠ "" → burn ≠ collector → burn ∉ weights.keys →
      ∃ v, serviceFirstWeights weights serviceBps burnShare collector true burn paidMinerFraction = .ok v ∧
        (ownerBurnDestinationRequired weights (1 - burnShare) paidMinerFraction serviceBps = true ↔ 0 < v.amount burn) ∧
        (serviceBps = 0 → ∃ w, applyMinerEmissionCap weights ((1 - burnShare) * paidMinerFraction) burn = .ok w ∧
          ∀ k, w.amount k = v.amount k)) ∧
    (ownerBurnDestinationRequired weights (1 - burnShare) paidMinerFraction serviceBps = false → "" ∉ weights.keys →
      ∃ v, serviceFirstWeights weights serviceBps burnShare collector true "" paidMinerFraction = .ok v ∧
        (serviceBps = 0 → ∃ w, applyMinerEmissionCap weights ((1 - burnShare) * paidMinerFraction) "" = .ok w ∧
          ∀ k, w.amount k = v.amount k)) ∧
    ∀ burn v, burn ≠ collector → burn ∉ weights.keys →
      serviceFirstWeights weights serviceBps burnShare collector true burn paidMinerFraction = .ok v →
      (∀ hw ∈ v, 0 ≤ hw.2) ∧ v.total = 1 ∧ v.amount collector = bpsShare serviceBps ∧
        ∃ scale, ∀ k ∈ weights.keys, v.amount k = weights.amount k * scale := by
  have hrequired := @ownerBurnDestinationRequired_iff K _ weights _ _ _ hshares
  refine ⟨?_, ?_, ?_⟩
  · intro burn hnonempty hne hburn
    refine ⟨folded weights serviceBps burnShare paidMinerFraction collector burn, ?_, ?_, ?_⟩
    · rw [serviceFirstWeights_eq h hshares hburn hne.symm, if_neg fun h' => hnonempty h'.2]
    · rw [hrequired, amount_folded_burn hburn hne.symm]
    · rintro rfl
      exact applyMinerEmissionCap_folded h hshares hburn hne.symm fun he => absurd he hnonempty
  · intro hfalse hburn
    have hresidual : ¬ 0 < 1 - bpsShare serviceBps - minerShareOf weights serviceBps burnShare paidMinerFraction := by
      rw [← hrequired, hfalse]
      exact Bool.false_ne_true
    refine ⟨folded weights serviceBps burnShare paidMinerFraction collector "", ?_, ?_⟩
    · rw [serviceFirstWeights_eq h hshares hburn h.collector.1, if_neg fun h' => hresidual h'.1]
    · rintro rfl
      exact applyMinerEmissionCap_folded h hshares hburn h.collector.1 fun _ => hresidual
  · intro burn v hne hburn hv
    rw [serviceFirstWeights_eq h hshares hburn hne.symm] at hv
    split at hv
    · cases hv
    · obtain rfl := Except.ok.inj hv
      refine ⟨folded_nonneg hshares, total_folded _ _ _ _ _ _, amount_folded_collector h hne.symm,
        minerShareOf weights serviceBps burnShare paidMinerFraction / weights.positives.total, ?_⟩
      intro k hk
      have hkc : k ≠ collector := fun he => h.collector.2 (he ▸ hk)
      have hkb : k ≠ burn := fun he => hburn (he ▸ hk)
      exact amount_folded_miner h hkc hkb

end Whole

theorem burn_destination_exact_sample : ∃ v : Dict String ℚ,
    serviceFirstWeights [("a", 3), ("b", 1), ("c", 0)] 500 (1 / 2) "collector" true "burn" 1 = .ok v ∧
      (ownerBurnDestinationRequired [("a", (3 : ℚ)), ("b", 1), ("c", 0)] (1 - 1 / 2) 1 500 = true ↔
        0 < v.amount "burn") := by
  have hvector : MinerVector [("a", (3 : ℚ)), ("b", 1), ("c", 0)] "collector" :=
    ⟨by decide, by decide, by decide, by decide⟩
  have hshares : FoldShares 500 (1 / 2 : ℚ) 1 := ⟨by decide, by norm_num, by norm_num⟩
  obtain ⟨hfold, -, -⟩ := burn_destination_exact hvector hshares
  obtain ⟨v, hv, hrequired, -⟩ := hfold "burn" (by decide) (by decide) (by decide)
  exact ⟨v, hv, hrequired⟩

end DittoSubnet.Validator.ServiceFold

import DittoSubnet.Validator.Fold

/-!
# First-seen protection

Where no row carries seeds, a standard error or an efficiency transform, one row dethrones another by clearing a bar:
the other's score plus the margin scaled by the versioned decay (`beats_iff`). The decay makes the band shrink as the
score rises, but slower than the score itself (`bar_monotone`), so the bar of the running champion only rises. What
follows for `_champion` is `first_seen_protects`: each change of the crown raises the score over the band, nobody in the
pool beats the champion, and a later copy of a score in the pool changes nothing.
-/

namespace DittoSubnet.Validator

open Kit

variable {p : MemoryFoldParams ℝ} {v : ℕ} {entries : List (LedgerEntry ℝ)}

/-- A row of version `v` without usable seeds, standard error or efficiency transform. -/
structure PlainRow (v : ℕ) (e : LedgerEntry ℝ) : Prop where
  version : entryVersion e = v
  noSeeds : entrySeedComposites e none = none
  noStderr : entryStderr e = none
  noEfficiency : efficiencyMultiplier e = 1

/-- A fold without incumbent, crown gate or ceiling clamp, whose margin is small against the decay. -/
structure UnpairedFold (p : MemoryFoldParams ℝ) : Prop where
  noIncumbent : p.incumbentAgentId = none
  noGate : p.crownGate = none
  noClamp : p.ceilingBandClamp = false
  margin_pos : 0 < p.margin
  margin_decay : 2 * p.margin * KOTH_BAND_DECAY_RATE ≤ 1

/-! ## The bar -/

/-- The band scale between two rows of version `v`. -/
noncomputable def versionBandScale (v : ℕ) (s : ℝ) : ℝ :=
  if v < KOTH_BAND_DECAY_MIN_BENCH_VERSION then 1
  else
    Real.exp (-KOTH_BAND_DECAY_RATE * (min (max s KOTH_BAND_DECAY_START_COMPOSITE) 1 - KOTH_BAND_DECAY_START_COMPOSITE))

/-- The score a challenger has to exceed. -/
noncomputable def bar (p : MemoryFoldParams ℝ) (v : ℕ) (s : ℝ) : ℝ := s + p.margin * versionBandScale v s

theorem versionBandScale_pos (v : ℕ) (s : ℝ) : 0 < versionBandScale v s := by
  unfold versionBandScale
  split
  · exact one_pos
  · exact Real.exp_pos _

theorem dethroneBandScale_eq {a b : LedgerEntry ℝ} (ha : PlainRow v a) (hb : PlainRow v b) (s : ℝ) :
    dethroneBandScale a b s = versionBandScale v s := by
  simp only [dethroneBandScale, ha.version, hb.version, min_self]
  rfl

/-- Below `0` the exponential falls no faster than its argument. -/
theorem exp_sub_exp_le {x y : ℝ} (hx : x ≤ 0) (hyx : y ≤ x) : Real.exp x - Real.exp y ≤ x - y := by
  have hsplit : Real.exp y = Real.exp x * Real.exp (y - x) := by rw [← Real.exp_add, add_sub_cancel]
  have htangent : y - x + 1 ≤ Real.exp (y - x) := Real.add_one_le_exp _
  have hpos : 0 < Real.exp x := Real.exp_pos x
  have hone : Real.exp x ≤ 1 := Real.exp_le_one_iff.2 hx
  calc Real.exp x - Real.exp y = Real.exp x * (1 - Real.exp (y - x)) := by rw [hsplit]; ring
    _ ≤ Real.exp x * (x - y) := mul_le_mul_of_nonneg_left (by linarith) hpos.le
    _ ≤ 1 * (x - y) := mul_le_mul_of_nonneg_right hone (by linarith)
    _ = x - y := one_mul _

/-- A clamped score moves no further than the score. -/
theorem clamp_sub_le {s t a b : ℝ} (hst : s ≤ t) :
    min (max s a) b ≤ min (max t a) b ∧ min (max t a) b - min (max s a) b ≤ t - s := by
  constructor
  · exact min_le_min_right b (max_le_max_right a hst)
  · have h₁ : max t a - max s a ≤ t - s := by
      rcases max_cases s a with ⟨h, _⟩ | ⟨h, _⟩ <;> rcases max_cases t a with ⟨h', _⟩ | ⟨h', _⟩ <;> rw [h, h'] <;>
          linarith
    have h₂ : max s a ≤ max t a := max_le_max_right a hst
    rcases min_cases (max s a) b with ⟨h, _⟩ | ⟨h, _⟩ <;> rcases min_cases (max t a) b with ⟨h', _⟩ | ⟨h', _⟩ <;>
      rw [h, h'] <;> linarith

theorem versionBandScale_sub_le (v : ℕ) {s t : ℝ} (hst : s ≤ t) :
    versionBandScale v s - versionBandScale v t ≤ KOTH_BAND_DECAY_RATE * (t - s) := by
  unfold versionBandScale
  split
  · simp only [sub_self, KOTH_BAND_DECAY_RATE]
    linarith
  · set start : ℝ := KOTH_BAND_DECAY_START_COMPOSITE with hstart
    obtain ⟨hle, hsub⟩ := clamp_sub_le (a := start) (b := 1) hst
    have hlow : start ≤ min (max s start) 1 :=
        le_min (le_max_right _ _) (by rw [hstart, KOTH_BAND_DECAY_START_COMPOSITE]; norm_num)
    refine (exp_sub_exp_le ?_ ?_).trans ?_ <;> simp only [KOTH_BAND_DECAY_RATE] <;> linarith

theorem bar_monotone (hp : UnpairedFold p) : Monotone (bar p v) := by
  intro s t hst
  have hscale := versionBandScale_sub_le v hst
  have hmargin : p.margin * (versionBandScale v s - versionBandScale v t) ≤
      p.margin * (KOTH_BAND_DECAY_RATE * (t - s)) :=
    mul_le_mul_of_nonneg_left hscale hp.margin_pos.le
  have hdecay := hp.margin_decay
  simp only [KOTH_BAND_DECAY_RATE] at hmargin hdecay
  have hhalf : p.margin * (2 * (t - s)) ≤ t - s := by nlinarith
  unfold bar
  linarith

theorem lt_bar (hp : UnpairedFold p) (s : ℝ) : s < bar p v s :=
  lt_add_of_pos_right s (mul_pos hp.margin_pos (versionBandScale_pos v s))

/-! ## The comparison -/

theorem dethroneComposite_eq {e : LedgerEntry ℝ} (he : PlainRow v e) (qualityPrimary : Bool) :
    dethroneComposite e qualityPrimary = effectiveComposite e := by
  have hid : effectiveComposite e = qualityComposite e := by
    have hm := he.noEfficiency
    unfold effectiveComposite efficiencyAdjustedComposite
    cases hf : boundedEfficiencyFactor e with
    | none => simp [hm]
    | some factor =>
      have h1 : factor = 1 := by simpa [efficiencyMultiplier, hf] using hm
      simp [h1]
  unfold dethroneComposite
  split
  · exact hid.symm
  · rfl

theorem pairedDethrone_eq_none {a b : LedgerEntry ℝ} (hv : v < DUELING_MIN_BENCH_VERSION) (ha : PlainRow v a)
    (dethroneZ : ℝ) : pairedDethrone a b dethroneZ = none := by
  have hduel : isDuelingEntry a = false := by simpa [isDuelingEntry, isDuelingBenchVersion, ha.version] using hv
  simp [pairedDethrone, pairedStatistic, pairedSeedMaps, hduel, ha.noSeeds]

theorem dethroneScores_eq {a b : LedgerEntry ℝ} (hp : UnpairedFold p) (hv : v < DUELING_MIN_BENCH_VERSION)
    (ha : PlainRow v a) (hb : PlainRow v b) :
    dethroneScores p a b = (effectiveComposite a, bar p v (effectiveComposite b)) := by
  have hstat : unpairedStatisticalBand a b p.dethroneZ = none := by simp [unpairedStatisticalBand, ha.noStderr]
  simp only [dethroneScores, pairedDethrone_eq_none hv ha, dethroneComposite_eq ha, dethroneComposite_eq hb, hstat,
    indifferenceBand, ceilingCappedBand, hp.noClamp, dethroneBandScale_eq ha hb, bar]
  rfl

/-- One row dethrones another by clearing its bar. -/
theorem beats_iff {a b : LedgerEntry ℝ} (hp : UnpairedFold p) (hv : v < DUELING_MIN_BENCH_VERSION) (ha : PlainRow v a)
    (hb : PlainRow v b) : beats p a b = true ↔ bar p v (effectiveComposite b) < effectiveComposite a := by
  have hduel : isDuelingEntry a = false := by simpa [isDuelingEntry, isDuelingBenchVersion, ha.version] using hv
  have hcomparable : duelingIncomparable a b = false := by simp [duelingIncomparable, hduel]
  simp [beats, hcomparable, hp.noGate, clearsBand, dethroneScores_eq hp hv ha hb]

theorem beatsOverBar (hp : UnpairedFold p) (hv : v < DUELING_MIN_BENCH_VERSION) (h : ∀ e ∈ entries, PlainRow v e) :
    BeatsOverBar (beats p) effectiveComposite (bar p v) entries :=
  fun _ ha _ hb => beats_iff hp hv (h _ ha) (h _ hb)

/-! ## The walk -/

theorem find_incumbent (hp : UnpairedFold p) (entries : List (LedgerEntry ℝ)) :
    (entries.find? fun e => decide (some e.agentId = p.incumbentAgentId)) = none := by
  rw [hp.noIncumbent, List.find?_eq_none]
  simp

theorem opener_of_nil (hp : UnpairedFold p) (hs : sortOn seniorityKey entries = []) :
    opener entries p.incumbentAgentId = none := by
  simp only [opener, find_incumbent hp, hs]

/-- Without incumbent the earliest lineage opens the walk and the others challenge in order. -/
theorem opener_of_cons (hp : UnpairedFold p) {o : LedgerEntry ℝ} {es : List (LedgerEntry ℝ)}
    (hs : sortOn seniorityKey entries = o :: es) : opener entries p.incumbentAgentId = some (o, es) := by
  simp only [opener, find_incumbent hp, hs]

theorem champion_of_cons (hp : UnpairedFold p) {o : LedgerEntry ℝ} {es : List (LedgerEntry ℝ)}
    (hs : sortOn seniorityKey entries = o :: es) : champion p entries = some (walk (beats p) o es) := by
  simp only [champion, opener_of_cons hp hs, hp.noGate]

/-- The crown moved from `champ` to a row whose score is higher by more than the decayed band. -/
def RisesOverBand (p : MemoryFoldParams ℝ) (champ next : LedgerEntry ℝ) : Prop :=
  0 < p.margin * dethroneBandScale next champ (effectiveComposite champ) ∧
    effectiveComposite champ + p.margin * dethroneBandScale next champ (effectiveComposite champ) <
      effectiveComposite next

theorem walk_rises (hp : UnpairedFold p) (hv : v < DUELING_MIN_BENCH_VERSION) {o : LedgerEntry ℝ}
    {es : List (LedgerEntry ℝ)} (h : ∀ e ∈ o :: es, PlainRow v e) (k : ℕ) :
    walk (beats p) o (es.take (k + 1)) = walk (beats p) o (es.take k) ∨
      RisesOverBand p (walk (beats p) o (es.take k)) (walk (beats p) o (es.take (k + 1))) := by
  refine (walk_take_succ (beatsOverBar hp hv h) k).imp_right fun hbar => ?_
  have hplain (n : ℕ) : PlainRow v (walk (beats p) o (es.take n)) :=
    h _ (List.cons_subset_cons _ (List.take_subset n es) (walk_mem_cons o _))
  rw [RisesOverBand, dethroneBandScale_eq (hplain _) (hplain _)]
  exact ⟨mul_pos hp.margin_pos (versionBandScale_pos v _), hbar⟩

theorem champion_unbeaten (hp : UnpairedFold p) (hv : v < DUELING_MIN_BENCH_VERSION) (h : ∀ e ∈ entries, PlainRow v e)
    {champ e : LedgerEntry ℝ} (hc : champion p entries = some champ) (he : e ∈ entries) : beats p e champ = false := by
  cases hs : sortOn seniorityKey entries with
  | nil => simp [champion, opener_of_nil hp hs] at hc
  | cons o es =>
    rw [champion_of_cons hp hs] at hc
    cases hc
    have hsorted : ∀ e ∈ o :: es, PlainRow v e := fun e he => h e (mem_sortOn.1 (hs ▸ he))
    have hover := beatsOverBar hp hv hsorted
    have he' : e ∈ o :: es := hs ▸ mem_sortOn.2 he
    exact hover.eq_false he' (walk_mem_cons o es)
      (score_le_bar_walk (bar_monotone hp) (fun s => (lt_bar hp s).le) hover e he')

/-- A copy walks after the row it copies, whose score the running champion's bar already covers. -/
theorem champion_insert_copy (hp : UnpairedFold p) (hv : v < DUELING_MIN_BENCH_VERSION)
    {pre post : List (LedgerEntry ℝ)} {x e : LedgerEntry ℝ} (h : ∀ y ∈ pre ++ x :: post, PlainRow v y)
    (he : e ∈ pre ++ post) (hlater : seniorityKey e < seniorityKey x)
    (hcopy : effectiveComposite x = effectiveComposite e) :
      champion p (pre ++ x :: post) = champion p (pre ++ post) := by
  obtain ⟨xs, ys, hwith, hwithout⟩ := sortOn_insert seniorityKey x post pre
  have hex : e ∈ xs := by
    have hmem : e ∈ xs ++ ys := hwithout ▸ mem_sortOn.2 he
    refine (List.mem_append.1 hmem).resolve_right fun hys => ?_
    have hsorted := pairwise_sortOn seniorityKey (pre ++ x :: post)
    rw [hwith, List.pairwise_append, List.pairwise_cons] at hsorted
    exact absurd (hsorted.2.1.1 e hys) hlater.not_ge
  cases xs with
  | nil => cases hex
  | cons o xs =>
    rw [champion_of_cons hp hwith, champion_of_cons hp hwithout]
    have hplain : ∀ y ∈ x :: o :: xs, PlainRow v y := fun y hy => by
      refine h y ((sortOn_perm seniorityKey _).mem_iff.1 ?_)
      rw [hwith]
      simp only [List.mem_cons, List.mem_append] at hy ⊢
      tauto
    have hover := beatsOverBar hp hv hplain
    have hbar := score_le_bar_walk (bar_monotone hp) (fun s => (lt_bar hp s).le)
      (hover.subset (List.subset_cons_self x _)) e hex
    refine congrArg some (walk_insert (hover.eq_false List.mem_cons_self ?_ (hcopy ▸ hbar)))
    exact List.mem_cons_of_mem _ (walk_mem_cons o xs)

/-! ## First-seen protection -/

/-- What first-seen protection says of a pool of version `v`. -/
structure FirstSeenProtected (p : MemoryFoldParams ℝ) (v : ℕ) (entries : List (LedgerEntry ℝ)) : Prop where
  /-- Along the walk each change of the crown raises the score by more than the decayed band. -/
  rises : ∀ o es, opener entries p.incumbentAgentId = some (o, es) → ∀ k,
    walk (beats p) o (es.take (k + 1)) = walk (beats p) o (es.take k) ∨
      RisesOverBand p (walk (beats p) o (es.take k)) (walk (beats p) o (es.take (k + 1)))
  /-- No entry of the pool beats the champion. -/
  unbeaten : ∀ champ, champion p entries = some champ → ∀ e ∈ entries, beats p e champ = false
  /-- A later entry with the score of an entry of the pool does not change the champion, wherever it is inserted. -/
  copy : ∀ pre post x e, entries = pre ++ post → PlainRow v x → e ∈ entries → seniorityKey e < seniorityKey x →
    effectiveComposite x = effectiveComposite e → champion p (pre ++ x :: post) = champion p entries

theorem first_seen_protects (p : MemoryFoldParams ℝ) (hp : UnpairedFold p) (v : ℕ) (hv : v < DUELING_MIN_BENCH_VERSION)
    (entries : List (LedgerEntry ℝ)) (h : ∀ e ∈ entries, PlainRow v e) : FirstSeenProtected p v entries where
  rises o es ho k := by
    cases hs : sortOn seniorityKey entries with
    | nil =>
      rw [opener_of_nil hp hs] at ho
      cases ho
    | cons o' es' =>
      rw [opener_of_cons hp hs] at ho
      cases ho
      exact walk_rises hp hv (fun e he => h e (mem_sortOn.1 (hs ▸ he))) k
  unbeaten champ hc e he := champion_unbeaten hp hv h hc he
  copy pre post x e hpool hx he hlater hcopy := by
    subst hpool
    refine champion_insert_copy hp hv (fun y hy => ?_) he hlater hcopy
    have hy' : y = x ∨ y ∈ pre ++ post := by
      simp only [List.mem_append, List.mem_cons] at hy ⊢
      tauto
    rcases hy' with rfl | hy'
    · exact hx
    · exact h y hy'

/-- A row that is known by its composite only. -/
noncomputable def compositeRow (hotkey : String) (id : Uuid) (firstSeen : Timestamp) (hundredths : Fin 101) :
    LedgerEntry ℝ where
  minerHotkey := hotkey
  agentId := id
  composite := (hundredths : ℕ) / 100
  n := 100
  firstSeen := firstSeen
  benchVersion := some 9
  scoreProofs := []
  compositeStderr := none
  confirmationComposites := none
  confirmationSeeds := none
  confirmationHistory := none
  duelHistory := none
  continualAggregateMethod := none
  efficiencyBonus := none
  efficiencyFactor := none
  efficiencyCurveVersion := none
  v9Confirmation := none
  duelingSeasonId := none
  dueling := none
  composite_mem := by
    have h : (hundredths : ℕ) ≤ 100 := Nat.le_of_lt_succ hundredths.isLt
    have h' : ((hundredths : ℕ) : ℝ) ≤ 100 := by exact_mod_cast h
    constructor
    · positivity
    · linarith
  benchVersion_pos := by simp
  compositeStderr_nonneg := compositeStderr_absent ℝ
  efficiencyBonus_mem := efficiencyBonus_absent ℝ
  efficiencyFactor_pos := efficiencyFactor_absent ℝ
  efficiencyCurveVersion_ge := efficiencyCurveVersion_absent

theorem plainRow_compositeRow (hotkey : String) (id : Uuid) (firstSeen : Timestamp) (hundredths : Fin 101) :
    PlainRow 9 (compositeRow hotkey id firstSeen hundredths) where
  version := rfl
  noSeeds := rfl
  noStderr := rfl
  noEfficiency := rfl

/-- The compiled constants, without pooling, incumbent and gate. -/
noncomputable def unpairedParams : MemoryFoldParams ℝ where
  margin := KOTH_MARGIN
  tailSize := KOTH_TAIL_SIZE
  rankShares := KOTH_RANK_SHARES
  dethroneZ := KOTH_DETHRONE_Z
  tiePooling := false
  ceilingBandClamp := false
  statisticalBandCap := true
  incumbentAgentId := none
  unpaidAgentId := none
  crownGate := none

theorem unpairedFold_unpairedParams : UnpairedFold unpairedParams where
  noIncumbent := rfl
  noGate := rfl
  noClamp := rfl
  margin_pos := by norm_num [unpairedParams, KOTH_MARGIN]
  margin_decay := by norm_num [unpairedParams, KOTH_MARGIN, KOTH_BAND_DECAY_RATE]

/-- An early row, a row inside its band and one above it. -/
noncomputable def bandPool : List (LedgerEntry ℝ) :=
  [compositeRow "a" 1 10 80, compositeRow "b" 2 20 80, compositeRow "c" 3 30 90]

theorem first_seen_protects_bandPool : FirstSeenProtected unpairedParams 9 bandPool :=
  first_seen_protects unpairedParams unpairedFold_unpairedParams 9 (by decide) bandPool fun e he => by
    simp only [bandPool, List.mem_cons, List.not_mem_nil, or_false] at he
    rcases he with rfl | rfl | rfl
    · exact plainRow_compositeRow _ _ _ _
    · exact plainRow_compositeRow _ _ _ _
    · exact plainRow_compositeRow _ _ _ _

end DittoSubnet.Validator

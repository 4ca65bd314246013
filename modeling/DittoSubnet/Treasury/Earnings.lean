import DittoSubnet.Treasury.Changes

/-!
# Attribution of earnings

On a transfer journal the contiguous scanner (`tick`, `observe_earnings`) and the out-of-order prober
(`observe_earning_source`) insert into one table. When every answer of the chain about a block is the value of one
partial function, each block up to the cursor has exactly its receipt, each receipt ahead of the cursor was probed,
and the attribution events are the receipts in the order of their inserts (`Attributed`). A call moves the cursor only
over blocks that it has examined, and inserts behind the receipts that are there (`Examines`). Both hold in every run
(`earnings_attributed`), whichever calls abort.
-/

namespace DittoSubnet.Treasury

open Kit Relation

/-! ## Receipts and their events -/

/-- The receipts of a journal by block, in the order of their inserts. -/
def Journal.receipts (journal : Journal) : List (ℕ × FinalizedEarnings) :=
  journal.earnings.map fun row => (row.block, row.receipt)

def Event.attribution? : Event → Option (ℕ × String × FinalizedEarnings)
  | .emissionAttributed block policy earned => some (block, policy, earned)
  | _ => none

/-- The attribution events, in order. -/
def Journal.attributions (journal : Journal) : List (ℕ × String × FinalizedEarnings) :=
  journal.events.filterMap Event.attribution?

/-- The attribution that goes with a receipt. -/
def attributionOf (custody : Custody) (receipt : ℕ × FinalizedEarnings) : ℕ × String × FinalizedEarnings :=
  (receipt.1, custody.policy.digest, receipt.2)

/-- Each receipt is that of its block, with one event, and a block has at most one. -/
structure Proved (custody : Custody) (earnings : ℕ → Option FinalizedEarnings) (journal : Journal) : Prop where
  distinct : (journal.receipts.map Prod.fst).Nodup
  proved : ∀ r ∈ journal.receipts, custody.policy.startBlock ≤ r.1 ∧ earnings r.1 = some r.2
  attributed : journal.attributions = journal.receipts.map (attributionOf custody)

/-- The state of the ledger: up to the cursor every earning is attributed, and beyond it only what was probed. -/
structure Attributed (custody : Custody) (earnings : ℕ → Option FinalizedEarnings) (journal : Journal) : Prop
    extends Proved custody earnings journal where
  start : custody.policy.startBlock ≤ journal.cursor + 1
  complete : ∀ b, custody.policy.startBlock ≤ b → b ≤ journal.cursor → ∀ r, earnings b = some r →
    (b, r) ∈ journal.receipts
  ahead : ∀ r ∈ journal.receipts, journal.cursor < r.1 →
    .manualSourceProbed custody.policy.digest r.1 ∈ journal.events

/-- What a call may do to the ledger: the cursor passes examined blocks only, and inserts come behind. -/
structure Examines (chain : CollectorChain) (journal journal' : Journal) : Prop where
  cursor : journal.cursor ≤ journal'.cursor
  examined : ∀ b, journal.cursor < b → b ≤ journal'.cursor → ∃ earned, chain.earnings b = .ok earned
  receipts : journal.receipts <+: journal'.receipts
  events : journal.events <+: journal'.events

/-- A call that examines what it passes, and keeps the ledger attributed. -/
structure Accounts (custody : Custody) (earnings : ℕ → Option FinalizedEarnings) (chain : CollectorChain)
    (journal journal' : Journal) : Prop extends Examines chain journal journal' where
  keeps : Attributed custody earnings journal → Attributed custody earnings journal'

/-- The answers of the chain about blocks are those of a function. -/
def Answers (chain : CollectorChain) (earnings : ℕ → Option FinalizedEarnings) : Prop :=
  ∀ b earned, chain.earnings b = .ok earned → earned = earnings b

variable {custody : Custody} {earnings : ℕ → Option FinalizedEarnings} {chain : CollectorChain}
  {journal journal' : Journal}

/-- A write that leaves cursor, receipts and attributions alone. -/
structure Quiet (journal journal' : Journal) : Prop where
  cursor : journal'.cursor = journal.cursor
  receipts : journal'.receipts = journal.receipts
  attributions : journal'.attributions = journal.attributions
  events : journal.events <+: journal'.events

namespace Quiet

theorem refl (journal : Journal) : Quiet journal journal := ⟨rfl, rfl, rfl, List.prefix_rfl⟩

theorem trans {written : Journal} (h : Quiet journal written) (h' : Quiet written journal') : Quiet journal journal' :=
  ⟨h'.cursor.trans h.cursor, h'.receipts.trans h.receipts, h'.attributions.trans h.attributions,
    h.events.trans h'.events⟩

/-- An event that attributes nothing. -/
theorem event (h : Quiet journal journal') {e : Event} (he : e.attribution? = none) :
    Quiet journal (journal'.event e) where
  cursor := h.cursor
  receipts := h.receipts
  attributions := by
    rw [← h.attributions]
    simp [Journal.attributions, Journal.event, List.filterMap_append, he]
  events := h.events.trans (List.prefix_append _ _)

/-- The operations and the completion of receipts are no part of the ledger. -/
theorem of_tables (hcursor : journal'.cursor = journal.cursor) (hevents : journal'.events = journal.events)
    (hreceipts : journal'.receipts = journal.receipts) : Quiet journal journal' :=
  ⟨hcursor, hreceipts, by rw [Journal.attributions, hevents, Journal.attributions], hevents ▸ List.prefix_rfl⟩

theorem accounts (h : Quiet journal journal') : Accounts custody earnings chain journal journal' where
  cursor := h.cursor.ge
  examined := by
    intro b hlt hle
    have := h.cursor
    omega
  receipts := h.receipts ▸ List.prefix_rfl
  events := h.events
  keeps := by
    intro hledger
    refine ⟨⟨?_, ?_, ?_⟩, ?_, ?_, ?_⟩
    · rw [h.receipts]
      exact hledger.distinct
    · rw [h.receipts]
      exact hledger.proved
    · rw [h.attributions, h.receipts]
      exact hledger.attributed
    · rw [h.cursor]
      exact hledger.start
    · rw [h.cursor, h.receipts]
      exact hledger.complete
    · rw [h.cursor, h.receipts]
      exact fun r hr hlt => h.events.subset (hledger.ahead r hr hlt)

end Quiet

namespace Accounts

theorem refl (journal : Journal) : Accounts custody earnings chain journal journal := (Quiet.refl journal).accounts

theorem trans {written : Journal} (h : Accounts custody earnings chain journal written)
    (h' : Accounts custody earnings chain written journal') : Accounts custody earnings chain journal journal' where
  cursor := h.cursor.trans h'.cursor
  examined := by
    intro b hlt hle
    by_cases hmid : b ≤ written.cursor
    · exact h.examined b hlt hmid
    · exact h'.examined b (by omega) hle
  receipts := h.receipts.trans h'.receipts
  events := h.events.trans h'.events
  keeps := fun hledger => h'.keeps (h.keeps hledger)

end Accounts

/-! ## One block -/

/-- What `recordEarning` does for a block. -/
structure BlockRecorded (custody : Custody) (earnings : ℕ → Option FinalizedEarnings) (block : ℕ)
    (journal journal' : Journal) : Prop where
  cursor : journal'.cursor = journal.cursor
  receipts : journal.receipts <+: journal'.receipts
  events : journal.events <+: journal'.events
  only : ∀ r ∈ journal'.receipts, r ∈ journal.receipts ∨ r.1 = block
  keeps : Proved custody earnings journal → Proved custody earnings journal'
  recorded : Proved custody earnings journal → ∀ r, earnings block = some r → (block, r) ∈ journal'.receipts

theorem mem_receipts_of_earning? {block : ℕ} {row : EarningsRow} (h : journal.earning? block = some row) :
    (block, row.receipt) ∈ journal.receipts := by
  have hblock : row.block = block := by simpa using List.find?_some h
  exact List.mem_map.2 ⟨row, List.mem_of_find?_eq_some h, by rw [hblock]⟩

theorem not_mem_of_earning?_none {block : ℕ} (h : journal.earning? block = none) :
    block ∉ journal.receipts.map Prod.fst := by
  intro hmem
  simp only [Journal.receipts, List.map_map, List.mem_map] at hmem
  obtain ⟨row, hrow, hblock⟩ := hmem
  exact absurd hblock (by simpa using List.find?_eq_none.1 h row hrow)

theorem recordEarning_blockRecorded {block : ℕ} (hblock : custody.policy.startBlock ≤ block)
    (h : recordEarning custody journal block (earnings block) = .ok journal') :
    BlockRecorded custody earnings block journal journal' := by
  unfold recordEarning at h
  split at h
  · rename_i previous hprevious
    simp only [bind_eq_ok_iff, ensure_eq_ok_iff, exists_and_left, exists_const, pure_eq_ok_iff] at h
    obtain ⟨hsame, rfl⟩ := h
    refine ⟨rfl, List.prefix_rfl, List.prefix_rfl, fun r hr => .inl hr, id, fun _ r hr => ?_⟩
    obtain rfl : previous.receipt = r := Option.some.inj (hsame.symm.trans hr)
    exact mem_receipts_of_earning? hprevious
  · rename_i hnew
    cases hearned : earnings block with
    | none =>
      rw [hearned] at h
      obtain rfl := pure_eq_ok_iff.1 h
      refine ⟨rfl, List.prefix_rfl, List.prefix_rfl, fun r hr => .inl hr, id, ?_⟩
      intro _ r hr
      rw [hearned] at hr
      cases hr
    | some earned =>
      rw [hearned] at h
      simp only [bind_eq_ok_iff, ensure_eq_ok_iff, exists_and_left, exists_const, pure_eq_ok_iff] at h
      obtain ⟨-, h⟩ := h
      have hreceipts : journal'.receipts = journal.receipts ++ [(block, earned)] := by
        rw [← h]
        simp [Journal.receipts, EarningsRow.receipt]
      have hattributions : journal'.attributions =
          journal.attributions ++ [(block, custody.policy.digest, earned)] := by
        rw [← h]
        simp [Journal.attributions, List.filterMap_append, Event.attribution?]
      have hevents : journal.events <+: journal'.events := by
        rw [← h]
        exact List.prefix_append _ _
      refine ⟨by rw [← h]; rfl, hreceipts ▸ List.prefix_append _ _, hevents, ?_, ?_, ?_⟩
      · intro r hr
        rw [hreceipts] at hr
        rcases List.mem_append.1 hr with hr | hr
        · exact .inl hr
        · exact .inr (by rw [List.mem_singleton.1 hr])
      · intro hproved
        refine ⟨?_, ?_, ?_⟩
        · rw [hreceipts, List.map_append, List.nodup_append]
          refine ⟨hproved.distinct, List.nodup_singleton _, ?_⟩
          intro b hb b' hb' heq
          rw [List.mem_singleton.1 hb'] at heq
          have hsame : b = block := heq
          exact not_mem_of_earning?_none hnew (hsame ▸ hb)
        · intro r hr
          rw [hreceipts] at hr
          rcases List.mem_append.1 hr with hr | hr
          · exact hproved.proved r hr
          · rw [List.mem_singleton.1 hr]
            exact ⟨hblock, hearned⟩
        · rw [hattributions, hreceipts, hproved.attributed, List.map_append]
          rfl
      · intro _ r hr
        rw [hearned] at hr
        rw [hreceipts, Option.some.inj hr]
        exact List.mem_append_right _ List.mem_cons_self

/-- The scan of the block after the cursor. -/
theorem scanBlock_accounts (hchain : Answers chain earnings)
    (h : scanBlock custody chain journal (journal.cursor + 1) = .ok journal') :
    (Attributed custody earnings journal → Accounts custody earnings chain journal journal') ∧
      journal'.cursor = journal.cursor + 1 := by
  unfold scanBlock at h
  simp only [bind_eq_ok_iff, pure_eq_ok_iff] at h
  obtain ⟨earned, hearned, recorded, hrecorded, rfl⟩ := h
  refine ⟨fun hledger => ?_, rfl⟩
  rw [hchain _ _ hearned] at hrecorded
  have hrec := recordEarning_blockRecorded hledger.start hrecorded
  refine ⟨⟨Nat.le_succ _, ?_, hrec.receipts, hrec.events⟩, fun _ => ?_⟩
  · intro b hlt hle
    obtain rfl : b = journal.cursor + 1 := by
      simp only at hle
      omega
    exact ⟨earned, hearned⟩
  · refine { toProved := ?_, start := ?_, complete := ?_, ahead := ?_ }
    · exact ⟨(hrec.keeps hledger.toProved).distinct, (hrec.keeps hledger.toProved).proved,
        (hrec.keeps hledger.toProved).attributed⟩
    · exact hledger.start.trans (Nat.le_succ _)
    · intro b hstart hle r hr
      rcases Nat.le_succ_iff.1 hle with hle | rfl
      · exact hrec.receipts.subset (hledger.complete b hstart hle r hr)
      · exact hrec.recorded hledger.toProved r hr
    · intro r hr hlt
      simp only at hlt
      rcases hrec.only r hr with hr | hblock
      · exact hrec.events.subset (hledger.ahead r hr (by omega))
      · omega

theorem scanBlocks_accounts (hchain : Answers chain earnings) (count : ℕ) : ∀ {journal journal' : Journal},
    Attributed custody earnings journal →
    (List.range' (journal.cursor + 1) count).foldlM (scanBlock custody chain) journal = .ok journal' →
    Accounts custody earnings chain journal journal' := by
  induction count with
  | zero =>
    intro journal journal' _ h
    obtain rfl := pure_eq_ok_iff.1 h
    exact .refl journal
  | succ count ih =>
    intro journal journal' hledger h
    rw [List.range'_succ, List.foldlM_cons, bind_eq_ok_iff] at h
    obtain ⟨scanned, hscanned, h⟩ := h
    obtain ⟨haccounts, hcursor⟩ := scanBlock_accounts hchain hscanned
    have hstep := haccounts hledger
    rw [← hcursor] at h
    exact hstep.trans (ih (hstep.keeps hledger) h)

theorem scanFinalizedEarnings_accounts (hchain : Answers chain earnings) (hledger : Attributed custody earnings journal)
    {finalized maxBlocks : ℕ} (h : scanFinalizedEarnings custody chain journal finalized maxBlocks = .ok journal') :
    Accounts custody earnings chain journal journal' :=
  scanBlocks_accounts hchain _ hledger h

/-- A probe records its block and says so. -/
theorem observeEarningSource_accounts (hchain : Answers chain earnings) (hledger : Attributed custody earnings journal)
    {block : ℕ} {result : Unit} (h : observeEarningSource custody chain block journal = .ok (journal', result)) :
    Accounts custody earnings chain journal journal' := by
  unfold observeEarningSource at h
  simp only [bind_eq_ok_iff, ensure_eq_ok_iff, exists_and_left, exists_const] at h
  obtain ⟨-, h⟩ := h
  split at h
  · cases h
  · simp only [bind_eq_ok_iff, ensure_eq_ok_iff, exists_and_left, exists_const, pure_eq_ok_iff, Prod.mk.injEq] at h
    obtain ⟨-, -, -, observed, -, ⟨hstart, -⟩, earned, hearned, recorded, hrecorded, rfl, -⟩ := h
    rw [hchain _ _ hearned] at hrecorded
    have hrec := recordEarning_blockRecorded hstart hrecorded
    have hprobed : Quiet recorded (recorded.event (.manualSourceProbed custody.policy.digest block)) :=
      (Quiet.refl recorded).event rfl
    have hproved := hrec.keeps hledger.toProved
    refine ⟨⟨hrec.cursor.ge, ?_, hrec.receipts, hrec.events.trans hprobed.events⟩, fun _ => ?_⟩
    · intro b hlt hle
      rw [hprobed.cursor, hrec.cursor] at hle
      omega
    · refine { toProved := ⟨hproved.distinct, hproved.proved, ?_⟩, start := ?_, complete := ?_, ahead := ?_ }
      · rw [hprobed.attributions]
        exact hproved.attributed
      · rw [hprobed.cursor, hrec.cursor]
        exact hledger.start
      · intro b hb hle r hr
        rw [hprobed.cursor, hrec.cursor] at hle
        exact hrec.receipts.subset (hledger.complete b hb hle r hr)
      · intro r hr hlt
        rw [hprobed.cursor, hrec.cursor] at hlt
        rcases hrec.only r hr with hr | hblock
        · exact hprobed.events.subset (hrec.events.subset (hledger.ahead r hr hlt))
        · rw [hblock]
          exact List.mem_append_right _ List.mem_cons_self

/-! ## The plan of a tick -/

variable {plan : TickPlan} {observed : Observation} {bound : Option TransferCanary} {manual : List ManualTransfer}

/-- A plan accounts for what it wrote. -/
def PlanAccounts (custody : Custody) (earnings : ℕ → Option FinalizedEarnings) (chain : CollectorChain)
    (journal : Journal) : TickPlan → Prop
  | .done written _ => Accounts custody earnings chain journal written
  | .reserve noted _ _ => Quiet journal noted

theorem quiet_updateOperation (journal : Journal) (id : ℕ) (f : Operation → Operation) :
    Quiet journal (journal.updateOperation id f) := .of_tables rfl rfl rfl

theorem quiet_complete (journal : Journal) (block : ℕ) : Quiet journal (journal.complete block) := by
  refine .of_tables rfl rfl ?_
  rw [Journal.receipts, Journal.receipts, Journal.complete, List.map_map]
  refine List.map_congr_left fun row _ => ?_
  simp only [Function.comp_apply]
  split <;> rfl

theorem settlePending_accounts {pending : Operation} (h : settlePending chain journal observed pending = .ok plan) :
    PlanAccounts custody earnings chain journal plan := by
  unfold settlePending at h
  rw [bind_eq_ok_iff] at h
  obtain ⟨result, -, h⟩ := h
  split at h
  · cases hthrough : result.scannedThrough with
    | none =>
      rw [hthrough, pure_eq_ok_iff] at h
      rw [← h]
      exact .refl journal
    | some through =>
      simp only [hthrough, bind_eq_ok_iff, ensure_eq_ok_iff, exists_and_left, exists_const, pure_eq_ok_iff] at h
      rw [← h.2]
      exact (quiet_updateOperation _ _ _).accounts
  · split at h
    · simp only [bind_eq_ok_iff, ensure_eq_ok_iff, exists_and_left, exists_const, pure_eq_ok_iff] at h
      rw [← h.2]
      exact (((quiet_updateOperation _ _ _).event rfl).event rfl).accounts
    · rw [pure_eq_ok_iff] at h
      rw [← h]
      exact ((quiet_updateOperation _ _ _).event rfl).accounts

theorem planLeg_accounts {intent : Option ManualTransfer} {replacement : Option CanaryReplacement} {row : EarningsRow}
    (h : planLeg custody journal bound intent replacement observed row = .ok plan) :
    PlanAccounts custody earnings chain journal plan := by
  unfold planLeg at h
  simp only [bind_eq_ok_iff, ensure_eq_ok_iff, exists_and_left, exists_const] at h
  obtain ⟨-, parts, -, operations, -, remaining, -, -, -, h⟩ := h
  split at h
  · rw [pure_eq_ok_iff] at h
    rw [← h]
    exact ((quiet_complete journal row.block).event rfl).accounts
  · simp only [bind_eq_ok_iff, ensure_eq_ok_iff, exists_and_left, exists_const] at h
    rw [reserveClaim_eq h.2]
    cases bound with
    | none => exact .refl journal
    | some c => exact (Quiet.refl journal).event rfl

theorem planReceipt_accounts (hchain : Answers chain earnings) (hledger : Attributed custody earnings journal)
    {intent : Option ManualTransfer} {manualRequestId : Option String}
    (h : planReceipt custody chain journal bound intent manualRequestId observed = .ok plan) :
    PlanAccounts custody earnings chain journal plan := by
  unfold planReceipt at h
  rw [bind_eq_ok_iff] at h
  obtain ⟨replacement, -, h⟩ := h
  split at h
  · rw [← pure_eq_ok_iff.1 h]
    exact .refl journal
  · split at h
    · rw [← pure_eq_ok_iff.1 h]
      exact .refl journal
    · rw [bind_eq_ok_iff] at h
      obtain ⟨row, -, h⟩ := h
      cases row with
      | none =>
        simp only [bind_eq_ok_iff, pure_eq_ok_iff] at h
        obtain ⟨scanned, hscanned, rfl⟩ := h
        exact scanFinalizedEarnings_accounts hchain hledger hscanned
      | some row =>
        simp only at h
        split at h
        · rw [← pure_eq_ok_iff.1 h]
          exact .refl journal
        · exact planLeg_accounts h

theorem planBatch_accounts {intent : ManualTransfer} {batch : ManualBatch} {manualRequestId : Option String}
    (h : planBatch custody chain journal intent batch manualRequestId observed = .ok plan) :
    PlanAccounts custody earnings chain journal plan := by
  unfold planBatch at h
  split at h
  · rw [← pure_eq_ok_iff.1 h]
    exact .refl journal
  · split at h
    · rw [← pure_eq_ok_iff.1 h]
      exact .refl journal
    · simp only [bind_eq_ok_iff, ensure_eq_ok_iff, exists_and_left, exists_const] at h
      obtain ⟨destination, -, observed', -, -, h⟩ := h
      split at h
      · rw [← pure_eq_ok_iff.1 h]
        exact .refl journal
      · simp only [bind_eq_ok_iff, ensure_eq_ok_iff, exists_and_left, exists_const] at h
        rw [reserveClaim_eq h.2]
        exact Quiet.refl journal

theorem planTransfer_accounts (hchain : Answers chain earnings) (hledger : Attributed custody earnings journal)
    {manualRequestId : Option String}
    (h : planTransfer custody chain journal bound manual manualRequestId observed = .ok plan) :
    PlanAccounts custody earnings chain journal plan := by
  unfold planTransfer at h
  simp only [bind_eq_ok_iff, ensure_eq_ok_iff, exists_and_left, exists_const] at h
  obtain ⟨-, h⟩ := h
  split at h
  · exact planReceipt_accounts hchain hledger h
  · split at h
    · exact planBatch_accounts h
    · exact planReceipt_accounts hchain hledger h

/-! ## Calls -/

theorem tick_accounts (hchain : Answers chain earnings) (hledger : Attributed custody earnings journal)
    {input : TickInput} {result : TickStatus × Option SignedOperation}
    (h : tick custody chain input journal = .ok (journal', result)) :
    Accounts custody earnings chain journal journal' := by
  unfold tick at h
  split at h
  · rw [pure_eq_ok_iff, Prod.mk.injEq] at h
    rw [← h.1]
    exact .refl journal
  · rw [bind_eq_ok_iff] at h
    obtain ⟨plan, hplan, h⟩ := h
    obtain ⟨opened, hopened, -, hcases⟩ := tickPlan_cases hplan
    have hopened : Quiet journal opened := by
      rcases hopened with rfl | ⟨canary, -, rfl⟩
      · exact .refl _
      · exact (Quiet.refl journal).event rfl
    have haccounts : Accounts custody earnings chain journal opened := hopened.accounts
    have hopenedLedger : Attributed custody earnings opened := haccounts.keeps hledger
    have hplanned : PlanAccounts custody earnings chain opened plan := by
      rcases hcases with rfl | ⟨pending, observed, -, -, hsettle⟩ | ⟨bound, manual, observed, -, hplan⟩
      · exact .refl opened
      · exact settlePending_accounts hsettle
      · cases hrole : input.role with
        | registration =>
          rw [hrole] at hplan
          rcases planRegistration_cases hplan with ⟨status, rfl⟩ | ⟨claim, intent, rfl⟩
          · exact .refl opened
          · exact Quiet.refl opened
        | transfer =>
          rw [hrole] at hplan
          exact planTransfer_accounts hchain hopenedLedger hplan
    cases plan with
    | done written status =>
      rw [pure_eq_ok_iff, Prod.mk.injEq] at h
      rw [← h.1]
      exact haccounts.trans hplanned
    | reserve noted claim intent =>
      simp only [bind_eq_ok_iff, pure_eq_ok_iff, Prod.mk.injEq] at h
      obtain ⟨⟨reserved, signed⟩, hsigned, rfl, -⟩ := h
      rw [reserveSigned_eq hsigned]
      have hinsert : Quiet noted (noted.insertOperation claim input.role signed) := .of_tables rfl rfl rfl
      exact ((hopened.trans hplanned).trans (hinsert.event rfl)).accounts

theorem replaceFailedCanary_quiet {requested : TransferCanary} {reason : String} {result : Unit}
    (h : replaceFailedCanary custody chain requested reason journal = .ok (journal', result)) :
    Quiet journal journal' := by
  unfold replaceFailedCanary at h
  simp only [bind_eq_ok_iff, ensure_eq_ok_iff, exists_and_left, exists_const] at h
  obtain ⟨-, -, replacement, -, -, ⟨same, bound⟩, hcanary, -, h⟩ := h
  obtain rfl := transferCanary_none hcanary
  split at h
  · cases h
  · simp only [bind_eq_ok_iff, ensure_eq_ok_iff, exists_and_left, exists_const, pure_eq_ok_iff, Prod.mk.injEq] at h
    obtain ⟨-, proof, -, -, row, -, earned, -, -, rfl, -⟩ := h
    exact (Quiet.refl _).event rfl

theorem expireUnsignedManual_quiet {requestId reason : String} {proof : UnsignedExpiry}
    (h : expireUnsignedManual custody chain requestId reason journal = .ok (journal', proof)) :
    Quiet journal journal' := by
  unfold expireUnsignedManual at h
  simp only [bind_eq_ok_iff, ensure_eq_ok_iff, exists_and_left, exists_const] at h
  obtain ⟨-, -, manual, -, h⟩ := h
  split at h
  · cases h
  · simp only [bind_eq_ok_iff, ensure_eq_ok_iff, exists_and_left, exists_const] at h
    obtain ⟨-, h⟩ := h
    split at h
    · cases h
    · simp only [bind_eq_ok_iff, ensure_eq_ok_iff, exists_and_left, exists_const, pure_eq_ok_iff, Prod.mk.injEq] at h
      obtain ⟨-, -, observed, -, -, -, -, rfl, -⟩ := h
      exact (Quiet.refl journal).event rfl

theorem observeEarnings_accounts (hchain : Answers chain earnings) (hledger : Attributed custody earnings journal)
    {maxBlocks : ℕ} {result : Bool} (h : observeEarnings custody chain maxBlocks journal = .ok (journal', result)) :
    Accounts custody earnings chain journal journal' := by
  unfold observeEarnings at h
  simp only [bind_eq_ok_iff, ensure_eq_ok_iff, exists_and_left, exists_const] at h
  obtain ⟨-, h⟩ := h
  split at h
  · rw [pure_eq_ok_iff, Prod.mk.injEq] at h
    rw [← h.1]
    exact .refl journal
  · simp only [bind_eq_ok_iff, ensure_eq_ok_iff, exists_and_left, exists_const, pure_eq_ok_iff, Prod.mk.injEq] at h
    obtain ⟨-, observed, -, scanned, hscanned, rfl, -⟩ := h
    exact scanFinalizedEarnings_accounts hchain hledger hscanned

/-- One call, committed or aborted. -/
theorem step_accounts (hchain : Answers chain earnings) (hledger : Attributed custody earnings journal)
    (call : CollectorCall) : Accounts custody earnings chain journal (step custody journal (chain, call)) := by
  cases call with
  | tick input => exact commit_rel (.refl journal) fun _ _ h => tick_accounts hchain hledger h
  | armManualTransfer requested record =>
    refine commit_rel (.refl journal) fun _ _ h => ?_
    rcases armManualTransfer_cases h with heq | ⟨heq, -⟩
    · rw [heq]
      exact .refl journal
    · rw [heq]
      exact ((Quiet.refl journal).event rfl).accounts
  | replaceFailedCanary requested reason =>
    exact commit_rel (.refl journal) fun _ _ h => (replaceFailedCanary_quiet h).accounts
  | expireUnsignedManual requestId reason =>
    exact commit_rel (.refl journal) fun _ _ h => (expireUnsignedManual_quiet h).accounts
  | observeEarnings maxBlocks => exact commit_rel (.refl journal) fun _ _ h => observeEarnings_accounts hchain hledger h
  | observeEarningSource block =>
    exact commit_rel (.refl journal) fun _ _ h => observeEarningSource_accounts hchain hledger h

/-! ## Runs -/

theorem attributed_initial (custody : Custody) (earnings : ℕ → Option FinalizedEarnings) :
    Attributed custody earnings (initialJournal custody .transfer) where
  distinct := List.nodup_nil
  proved := fun _ hr => nomatch hr
  attributed := rfl
  start := by
    simp only [initialJournal]
    omega
  complete := by
    intro b hstart hle
    simp only [initialJournal] at hle
    have := (custody.policy.bounded custody.policy.startBlock (by simp)).1
    omega
  ahead := fun _ hr => nomatch hr

theorem attributed_reachable {calls : List (CollectorChain × CollectorCall)}
    (hchain : ∀ input ∈ calls, Answers input.1 earnings) :
    Attributed custody earnings (reachable custody .transfer calls) :=
  run_inv_mem (fun _ input hinput hledger => (step_accounts (hchain input hinput) hledger input.2).keeps hledger)
    (attributed_initial custody earnings)

/-- **Exactly-once attribution.** When the chain answers about blocks as one partial function does, every reachable
ledger is attributed, and every call of a run examines the blocks that the cursor passes and only adds receipts. -/
theorem earnings_attributed (custody : Custody) (earnings : ℕ → Option FinalizedEarnings)
    (calls : List (CollectorChain × CollectorCall)) (hchain : ∀ input ∈ calls, Answers input.1 earnings) :
    Attributed custody earnings (reachable custody .transfer calls) ∧
      ∀ before input after, calls = before ++ input :: after →
        Examines input.1 (reachable custody .transfer before) (reachable custody .transfer (before ++ [input])) := by
  refine ⟨attributed_reachable hchain, ?_⟩
  rintro before ⟨chain, call⟩ after rfl
  have hbefore : Attributed custody earnings (reachable custody .transfer before) :=
    attributed_reachable fun input hinput => hchain input (List.mem_append_left _ hinput)
  have hlast : reachable custody .transfer (before ++ [(chain, call)]) =
      step custody (reachable custody .transfer before) (chain, call) := by
    rw [reachable, run_append]
    rfl
  rw [hlast]
  exact (step_accounts (hchain _ (by simp)) hbefore call).toExamines

/-- What the sample chain answers about blocks. -/
def sampleEarnings (block : ℕ) : Option FinalizedEarnings := if block = 10 then some ⟨100, "hash", "digest"⟩ else none

/-- A scan of the sample chain attributes its one earning. -/
theorem sample_attributed :
    Attributed sampleCustody sampleEarnings
        (reachable sampleCustody .transfer [(sampleChain 11, .observeEarnings 32)]) ∧
      (reachable sampleCustody .transfer [(sampleChain 11, .observeEarnings 32)]).receipts =
        [(10, ⟨100, "hash", "digest"⟩)] := by
  have hanswers : ∀ input ∈ [(sampleChain 11, CollectorCall.observeEarnings 32)], Answers input.1 sampleEarnings := by
    intro input hinput b earned h
    rw [List.mem_singleton.1 hinput] at h
    exact (Except.ok.inj h).symm
  exact ⟨(earnings_attributed sampleCustody sampleEarnings _ hanswers).1, by decide +kernel⟩

end DittoSubnet.Treasury

import DittoSubnet.Treasury.Dispatch

/-!
# The scan for a broadcast transaction

`reconcile` of `ditto/treasury/collector_chain.py`: from where the last call stopped, at most 32 finalized blocks are
searched for the hash of the signed transaction. A match settles the operation, or raises; without a match the result
is a later position, or the end of its mortality.

The finalized blocks are one function of the block number (`finalized`); a node may refuse any answer. `logged` runs
the collector on such nodes and logs which block was examined for which operation.

* `reconcile_cases`: what a call answers, and what it has examined.
* `reconciliation_complete`: no block is skipped, and an operation expires only after its whole mortality was examined
  without a match.
-/

namespace DittoSubnet.Treasury

open Kit

/-! ## The adapter -/

/-- The `result` of `ProxyExecuted`. -/
inductive ProxyResult
  | ok
  | err
  | unsupported
  deriving DecidableEq, Repr

/-- A runtime event, as far as the scan reads it. -/
structure ChainEvent where
  extrinsicIdx : Option ℕ
  phase : String
  moduleId : String
  eventId : String
  result : Option ProxyResult
  registered : Option (ℕ × ℕ × String)
  deriving DecidableEq, Repr

/-- What a node answers during one call, the bodies of finalized blocks apart. -/
structure ChainNode where
  blockHash : ℕ → Except String String
  guardRuntime : ℕ → Except String String
  receiptRuntime : String → String → Except String Unit
  getBlock : ℕ → Except String Unit
  events : ℕ → Except String (List ChainEvent)
  feeEvidence : Role → List ChainEvent → Except String Unit
  identity : ℕ → Bool → Except String (Option ℕ)
  transferEffect : List ChainEvent → ℕ → Option String → ℕ → Except String Unit
  alpha : Option String → ℕ → Except String ℕ

/-- A matched transaction that was applied. -/
def settleApplied (node : ChainNode) (hotkey : String) (operation : Operation) (block : ℕ) (blockHash : String)
    (index : ℕ) (events : List ChainEvent) : Except String Settlement := do
  let uid ← node.identity block false
  match operation.role with
  | .registration => do
    let before ← node.identity (block - 1) true
    ensure (uid.isSome = true ∧ before = none) "registration effect/binding unproved"
    match events.filter fun e => e.moduleId = "SubtensorModule" ∧ e.eventId = "NeuronRegistered" with
    | [e] => do
      ensure (∃ u ∈ uid, e.registered = some (118, u, hotkey)) "missing exact registration effect event"
      pure ⟨.finalized, some block, some blockHash, uid, none, none, none⟩
    | _ => throw "missing exact registration effect event"
  | .transfer => do
    node.transferEffect events index operation.destination operation.amount
    ensure (uid.isSome = true) "finalized UID binding unavailable"
    let _ ← node.alpha operation.destination block
    pure ⟨.finalized, some block, some blockHash, uid, none, some index, some operation.signed.extrinsicHash⟩

/-- The outcome of the transaction at one position of a block. -/
def settleMatch (node : ChainNode) (hotkey : String) (operation : Operation) (block : ℕ) (blockHash : String)
    (index : ℕ) : Except String Settlement := do
  let all ← node.events block
  let events := all.filter fun e => e.extrinsicIdx = some index
  ensure (∀ e ∈ events, e.phase = "ApplyExtrinsic") "extrinsic event phase differs from dispatch"
  let inner := events.filter fun e => e.moduleId = "Proxy" ∧ e.eventId = "ProxyExecuted"
  let outer := events.filter fun e => e.moduleId = "System" ∧ e.eventId = "ExtrinsicSuccess"
  node.feeEvidence operation.role events
  let failed : Settlement :=
    ⟨.failed, some block, some blockHash, none, none, some index, some operation.signed.extrinsicHash⟩
  if outer = [] then do
    ensure ((events.filter fun e => e.moduleId = "System" ∧ e.eventId = "ExtrinsicFailed").length = 1)
      "unknown outer outcome; retain durable claim"
    pure failed
  else do
    ensure (outer.length = 1 ∧ inner.length = 1) "missing or ambiguous inner proxy result"
    match inner.head?.bind (·.result) with
    | none => throw "unsupported proxy result schema"
    | some .ok => settleApplied node hotkey operation block blockHash index events
    | some .err => pure failed
    | some .unsupported => throw "unsupported inner result; retain durable claim"

section Scan

variable (blake : String → String) (finalized : ℕ → List String)

/-- The transactions of a block with a hash. -/
def matchesAt (hash : String) (block : ℕ) : List ℕ :=
  ((finalized block).zipIdx.filter fun e => blake e.1 = hash).map Prod.snd

/-- The loop over the blocks: a settlement at the first match, with the blocks examined. -/
def scanMatches (node : ChainNode) (hotkey : String) (operation : Operation) :
    List ℕ → String → Except String (Option Settlement × List ℕ)
  | [], _ => pure (none, [])
  | block :: blocks, parentCode => do
    let blockHash ← node.blockHash block
    let code ← node.guardRuntime block
    node.receiptRuntime parentCode code
    node.getBlock block
    match matchesAt blake finalized operation.signed.extrinsicHash block with
    | [] => do
      let (result, examined) ← scanMatches node hotkey operation blocks code
      pure (result, block :: examined)
    | [index] => do
      let settlement ← settleMatch node hotkey operation block blockHash index
      pure (some settlement, [block])
    | _ => throw "duplicate extrinsic hash"

/-- Where the scan of a call starts. -/
def scanStart (operation : Operation) : ℕ := max operation.signed.startBlock operation.reconciledThrough

/-- Where the scan of a call ends. -/
def scanEnd (operation : Operation) (observed : Observation) : ℕ :=
  min (min observed.block operation.signed.expiresBlock) (scanStart operation + 32)

/-- The runtime at the start of a scan, read only when there is a block to scan. -/
def startRuntime (node : ChainNode) (start last : ℕ) : Except String String :=
  if start < last then node.guardRuntime start else pure ""

/-- `reconcile`, with the blocks it examined. -/
def reconcileTrace (node : ChainNode) (hotkey : String) (operation : Operation) (observed : Observation) :
    Except String (Settlement × List ℕ) := do
  let start := scanStart operation
  let last := scanEnd operation observed
  let parentCode ← startRuntime node start last
  let (result, examined) ← scanMatches blake finalized node hotkey operation (List.range' (start + 1) (last - start))
    parentCode
  match result with
  | some settlement => pure (settlement, examined)
  | none =>
    let status := if operation.signed.expiresBlock < observed.block ∧ last = operation.signed.expiresBlock then
      SettlementStatus.expired else .pending
    pure (⟨status, none, none, none, some last, none, none⟩, examined)

/-- `reconcile`. -/
def reconcile (node : ChainNode) (hotkey : String) (operation : Operation) (observed : Observation) :
    Except String Settlement :=
  (reconcileTrace blake finalized node hotkey operation observed).map Prod.fst

end Scan

/-! ## What one scan examines -/

section Spec

variable {blake : String → String} {finalized : ℕ → List String} {node : ChainNode} {hotkey : String}
  {operation : Operation} {observed : Observation}

theorem matchesAt_eq_nil_iff {hash : String} {block : ℕ} :
    matchesAt blake finalized hash block = [] ↔ hash ∉ (finalized block).map blake := by
  unfold matchesAt
  rw [List.map_eq_nil_iff, List.filter_eq_nil_iff]
  constructor
  · rintro h hmem
    obtain ⟨raw, hraw, heq⟩ := List.mem_map.1 hmem
    rw [← List.zipIdx_map_fst 0 (finalized block)] at hraw
    obtain ⟨e, he, hfst⟩ := List.mem_map.1 hraw
    exact h e he (by rw [hfst, heq]; exact decide_eq_true rfl)
  · intro h e he hdec
    rw [decide_eq_true_eq] at hdec
    refine h (List.mem_map.2 ⟨e.1, ?_, hdec⟩)
    rw [← List.zipIdx_map_fst 0 (finalized block)]
    exact List.mem_map_of_mem he

/-- A match is settled as applied or failed, never as expired or pending. -/
theorem settleMatch_status {block index : ℕ} {blockHash : String} {settlement : Settlement}
    (h : settleMatch node hotkey operation block blockHash index = .ok settlement) :
    settlement.status = .finalized ∨ settlement.status = .failed := by
  unfold settleMatch at h
  simp only [bind_eq_ok_iff, ensure_eq_ok_iff, exists_and_left, exists_const] at h
  obtain ⟨all, -, -, -, -, h⟩ := h
  split at h
  · simp only [bind_eq_ok_iff, ensure_eq_ok_iff, exists_and_left, exists_const, pure_eq_ok_iff] at h
    rw [← h.2]
    exact .inr rfl
  · simp only [bind_eq_ok_iff, ensure_eq_ok_iff, exists_and_left, exists_const] at h
    obtain ⟨-, h⟩ := h
    split at h
    · cases h
    · unfold settleApplied at h
      rw [bind_eq_ok_iff] at h
      obtain ⟨uid, -, h⟩ := h
      split at h
      · simp only [bind_eq_ok_iff, ensure_eq_ok_iff, exists_and_left, exists_const] at h
        obtain ⟨before, -, -, h⟩ := h
        split at h
        · simp only [bind_eq_ok_iff, ensure_eq_ok_iff, exists_and_left, exists_const, pure_eq_ok_iff] at h
          rw [← h.2]
          exact .inl rfl
        · cases h
      · simp only [bind_eq_ok_iff, ensure_eq_ok_iff, exists_and_left, exists_const, pure_eq_ok_iff] at h
        obtain ⟨-, -, -, -, -, h⟩ := h
        rw [← h]
        exact .inl rfl
    · rw [← pure_eq_ok_iff.1 h]
      exact .inr rfl
    · cases h

/-- A scan without a match has examined every block, and the hash is in none of them. -/
theorem scanMatches_cases {blocks : List ℕ} : ∀ {parentCode : String} {result : Option Settlement} {examined : List ℕ},
    scanMatches blake finalized node hotkey operation blocks parentCode = .ok (result, examined) →
    (result = none ∧ examined = blocks ∧
      ∀ block ∈ blocks, operation.signed.extrinsicHash ∉ (finalized block).map blake) ∨
    ∃ settlement, result = some settlement ∧ (settlement.status = .finalized ∨ settlement.status = .failed) := by
  induction blocks with
  | nil =>
    intro parentCode result examined h
    rw [scanMatches, pure_eq_ok_iff, Prod.mk.injEq] at h
    exact .inl ⟨h.1.symm, h.2.symm, by simp⟩
  | cons block blocks ih =>
    intro parentCode result examined h
    unfold scanMatches at h
    simp only [bind_eq_ok_iff] at h
    obtain ⟨blockHash, -, code, -, -, -, -, -, h⟩ := h
    split at h
    · rename_i hnone
      simp only [bind_eq_ok_iff, pure_eq_ok_iff, Prod.mk.injEq] at h
      obtain ⟨⟨rest, examined'⟩, hrest, rfl, rfl⟩ := h
      rcases ih hrest with ⟨hresult, hexamined, hall⟩ | hsome
      · refine .inl ⟨hresult, by rw [hexamined], ?_⟩
        intro b hb
        rcases List.mem_cons.1 hb with rfl | hb
        · exact matchesAt_eq_nil_iff.1 hnone
        · exact hall b hb
      · exact .inr hsome
    · simp only [bind_eq_ok_iff, pure_eq_ok_iff, Prod.mk.injEq] at h
      obtain ⟨settlement, hsettle, rfl, -⟩ := h
      exact .inr ⟨settlement, rfl, settleMatch_status hsettle⟩
    · cases h

/-- What a call answers: a settlement at a match, or a position with every block up to it examined without one. -/
theorem reconcile_cases {settlement : Settlement} {examined : List ℕ}
    (h : reconcileTrace blake finalized node hotkey operation observed = .ok (settlement, examined)) :
    (settlement.status = .finalized ∨ settlement.status = .failed) ∨
    (settlement.scannedThrough = some (scanEnd operation observed) ∧
      (∀ block, scanStart operation < block → block ≤ scanEnd operation observed →
        block ∈ examined ∧ operation.signed.extrinsicHash ∉ (finalized block).map blake) ∧
      (settlement.status = .pending ∨
        settlement.status = .expired ∧ scanEnd operation observed = operation.signed.expiresBlock)) := by
  unfold reconcileTrace at h
  simp only [bind_eq_ok_iff] at h
  obtain ⟨parentCode, -, ⟨result, examined'⟩, hscan, h⟩ := h
  rcases scanMatches_cases hscan with ⟨rfl, rfl, hall⟩ | ⟨settled, rfl, hstatus⟩
  · rw [pure_eq_ok_iff, Prod.mk.injEq] at h
    obtain ⟨rfl, rfl⟩ := h
    refine .inr ⟨rfl, ?_, ?_⟩
    · intro block hlt hle
      have hmem : block ∈ List.range' (scanStart operation + 1) (scanEnd operation observed - scanStart operation) := by
        rw [List.mem_range'_1]
        omega
      exact ⟨hmem, hall block hmem⟩
    · split
      · rename_i hexpired
        exact .inr ⟨rfl, hexpired.2⟩
      · exact .inl rfl
  · rw [pure_eq_ok_iff, Prod.mk.injEq] at h
    rw [← h.1]
    exact .inl hstatus

end Spec

/-! ## What a tick does with the answer -/

variable {custody : Custody} {journal journal' : Journal}

/-- What is planned with the answer of `reconcile`. -/
theorem settlePending_cases {chain : CollectorChain} {observed : Observation} {pending : Operation} {plan : TickPlan}
    (h : settlePending chain journal observed pending = .ok plan) : ∃ result,
    chain.reconcile pending observed = .ok result ∧
    ((∃ status, plan = .done journal status) ∨
      (result.status = .pending ∧ ∃ through, result.scannedThrough = some through ∧ plan = .done
        (journal.updateOperation pending.id fun op => { op with reconciledThrough := through }) (.settled .pending)) ∨
      ∃ state status written, result.status.state? = some state ∧ written.operations =
        (journal.updateOperation pending.id fun op =>
          { op with state := state, settlement := some result }).operations ∧
        plan = .done written (.settled status)) := by
  unfold settlePending at h
  rw [bind_eq_ok_iff] at h
  obtain ⟨result, hresult, h⟩ := h
  refine ⟨result, hresult, ?_⟩
  split at h
  · rename_i hnone
    have hstatus : result.status = .pending := by
      cases hs : result.status <;> rw [hs] at hnone <;> first | rfl | cases hnone
    cases hthrough : result.scannedThrough with
    | none =>
      rw [hthrough, pure_eq_ok_iff] at h
      exact .inl ⟨_, h.symm⟩
    | some through =>
      simp only [hthrough, bind_eq_ok_iff, ensure_eq_ok_iff, exists_and_left, exists_const, pure_eq_ok_iff] at h
      exact .inr (.inl ⟨hstatus, through, rfl, h.2.symm⟩)
  · rename_i state hstate
    split at h
    · simp only [bind_eq_ok_iff, ensure_eq_ok_iff, exists_and_left, exists_const, pure_eq_ok_iff] at h
      refine .inr (.inr ⟨state, result.status, _, hstate, ?_, h.2.symm⟩)
      rfl
    · rw [pure_eq_ok_iff] at h
      refine .inr (.inr ⟨state, result.status, _, hstate, ?_, h.symm⟩)
      rfl

/-- With an unresolved operation a committed tick leaves the operations alone, or writes what `reconcile` answered. -/
theorem tick_reconciles {chain : CollectorChain} {input : TickInput} {pending : Operation} {status : TickStatus}
    {signed : Option SignedOperation} (hpending : journal.dispatching? = some pending)
    (h : tick custody chain input journal = .ok (journal', status, signed)) :
    journal'.operations = journal.operations ∨ ∃ observed result settled,
      status = .settled settled ∧ chain.observe input.role 0 = .ok observed ∧
      chain.reconcile pending observed = .ok result ∧
      (result.status = .pending ∧ (∃ through, result.scannedThrough = some through ∧ journal'.operations =
          (journal.updateOperation pending.id fun op => { op with reconciledThrough := through }).operations) ∨
        ∃ state, result.status.state? = some state ∧ journal'.operations =
          (journal.updateOperation pending.id fun op =>
            { op with state := state, settlement := some result }).operations) := by
  unfold tick at h
  split at h
  · rw [pure_eq_ok_iff, Prod.mk.injEq] at h
    exact .inl (by rw [← h.1])
  rw [bind_eq_ok_iff] at h
  obtain ⟨plan, hplan, h⟩ := h
  obtain ⟨opened, hopened, -, hcases⟩ := tickPlan_cases hplan
  have hops := opened_operations hopened
  have hopenedPending : opened.dispatching? = some pending := by
    rw [Journal.dispatching?, hops]
    exact hpending
  rcases hcases with rfl | ⟨pending', observed, hpending', hobserved, hsettle⟩ | ⟨bound, manual, observed, hq, -⟩
  · rw [pure_eq_ok_iff, Prod.mk.injEq] at h
    exact .inl (by rw [← h.1, hops])
  · rw [hopenedPending, Option.some.injEq] at hpending'
    subst hpending'
    obtain ⟨result, hresult, hwritten⟩ := settlePending_cases hsettle
    rcases hwritten with ⟨status', rfl⟩ | ⟨hstatus, through, hthrough, rfl⟩ | ⟨state, status', written, hstate, hw, rfl⟩
    · rw [pure_eq_ok_iff, Prod.mk.injEq] at h
      exact .inl (by rw [← h.1, hops])
    · rw [pure_eq_ok_iff, Prod.mk.injEq, Prod.mk.injEq] at h
      obtain ⟨rfl, rfl, -⟩ := h
      refine .inr ⟨observed, result, _, rfl, hobserved, hresult, .inl ⟨hstatus, through, hthrough, ?_⟩⟩
      simp only [Journal.updateOperation, hops]
    · rw [pure_eq_ok_iff, Prod.mk.injEq, Prod.mk.injEq] at h
      obtain ⟨rfl, rfl, -⟩ := h
      refine .inr ⟨observed, result, _, rfl, hobserved, hresult, .inr ⟨state, hstate, ?_⟩⟩
      rw [hw]
      simp only [Journal.updateOperation, hops]
  · have hquiesced := hq.quiesced
    rw [hopenedPending] at hquiesced
    cases hquiesced

/-! ## Runs with a log -/

section Logged

variable (custody : Custody) (blake : String → String) (finalized : ℕ → List String)

/-- The chain adapter of a call: `reconcile` on a node, the other answers as given. -/
def adapter (answers : CollectorChain × ChainNode) : CollectorChain :=
  { answers.1 with reconcile := reconcile blake finalized answers.2 custody.policy.collectorHotkey }

/-- The blocks that a committed call examined, with the number of the operation. -/
def examinedBy (journal : Journal) (input : (CollectorChain × ChainNode) × CollectorCall) : List (ℕ × ℕ) :=
  match input.2 with
  | .tick tickInput =>
    match tick custody (adapter custody blake finalized input.1) tickInput journal, journal.dispatching?,
      input.1.1.observe tickInput.role 0 with
    | .ok (_, .settled _, _), some pending, .ok observed =>
      match reconcileTrace blake finalized input.1.2 custody.policy.collectorHotkey pending observed with
      | .ok (_, examined) => examined.map fun block => (pending.id, block)
      | .error _ => []
    | _, _, _ => []
  | _ => []

/-- One call on a journal and the log of what was examined. -/
def logStep (state : Journal × List (ℕ × ℕ)) (input : (CollectorChain × ChainNode) × CollectorCall) :
    Journal × List (ℕ × ℕ) :=
  (step custody state.1 (adapter custody blake finalized input.1, input.2),
    state.2 ++ examinedBy custody blake finalized state.1 input)

/-- The journal of a role and the log after a sequence of calls. -/
def logged (role : Role) (calls : List ((CollectorChain × ChainNode) × CollectorCall)) : Journal × List (ℕ × ℕ) :=
  run (logStep custody blake finalized) (initialJournal custody role, []) calls

end Logged

section Complete

variable {blake : String → String} {finalized : ℕ → List String} {log log' : List (ℕ × ℕ)}

/-- The blocks of an operation up to a position were examined, without a match. -/
def Cleared (blake : String → String) (finalized : ℕ → List String) (log : List (ℕ × ℕ)) (op : Operation)
    (through : ℕ) : Prop :=
  ∀ block, op.signed.startBlock < block → block ≤ through →
    (op.id, block) ∈ log ∧ op.signed.extrinsicHash ∉ (finalized block).map blake

/-- What the rows say about the log. -/
structure Accounted (blake : String → String) (finalized : ℕ → List String) (log : List (ℕ × ℕ)) (op : Operation) :
    Prop where
  progress : Cleared blake finalized log op op.reconciledThrough
  expired : op.state = .expired → Cleared blake finalized log op op.signed.expiresBlock

theorem Cleared.mono {op : Operation} {through : ℕ} (h : Cleared blake finalized log op through)
    (hlog : log ⊆ log') : Cleared blake finalized log' op through := by
  intro block hlt hle
  obtain ⟨hmem, hnot⟩ := h block hlt hle
  exact ⟨hlog hmem, hnot⟩

theorem Accounted.mono {op : Operation} (h : Accounted blake finalized log op) (hlog : log ⊆ log') :
    Accounted blake finalized log' op :=
  ⟨h.progress.mono hlog, fun hstate => (h.expired hstate).mono hlog⟩

/-- A new row has no progress. -/
theorem Accounted.inserted {claim : Claim} {id : ℕ} {role : Role} {bytes : SignedOperation} :
    Accounted blake finalized log (claim.operation id role bytes) := by
  constructor
  · intro block hlt hle
    exact absurd (hlt.trans_le hle) (Nat.not_lt_zero _)
  · intro hstate
    cases hstate

/-- What a scan examines extends what was examined before it. -/
theorem Cleared.extend {op : Operation} {observed : Observation} {examined : List ℕ}
    (h : Cleared blake finalized log op op.reconciledThrough)
    (hscan : ∀ block, scanStart op < block → block ≤ scanEnd op observed →
      block ∈ examined ∧ op.signed.extrinsicHash ∉ (finalized block).map blake) :
    Cleared blake finalized (log ++ examined.map fun block => (op.id, block)) op (scanEnd op observed) := by
  intro block hlt hle
  by_cases hprior : block ≤ op.reconciledThrough
  · obtain ⟨hmem, hnot⟩ := h block hlt hprior
    exact ⟨List.mem_append_left _ hmem, hnot⟩
  · have hstart : scanStart op < block := max_lt hlt (Nat.lt_of_not_le hprior)
    obtain ⟨hmem, hnot⟩ := hscan block hstart hle
    exact ⟨List.mem_append_right _ (List.mem_map_of_mem hmem), hnot⟩

theorem reconcile_eq_ok_iff {node : ChainNode} {hotkey : String} {op : Operation} {observed : Observation}
    {result : Settlement} : reconcile blake finalized node hotkey op observed = .ok result ↔
      ∃ examined, reconcileTrace blake finalized node hotkey op observed = .ok (result, examined) := by
  unfold reconcile
  cases h : reconcileTrace blake finalized node hotkey op observed with
  | error e => simp [Except.map]
  | ok traced =>
    obtain ⟨settlement, examined⟩ := traced
    simp [Except.map]

/-- The rows after the unresolved one was rewritten. -/
theorem accounted_updateOperation {pending : Operation} {f : Operation → Operation} (hflight : InFlight journal)
    (hpending : pending ∈ journal.operations) (hlog : log ⊆ log')
    (h : ∀ op ∈ journal.operations, Accounted blake finalized log op)
    (hnew : Accounted blake finalized log' (f pending)) :
    ∀ op ∈ (journal.updateOperation pending.id f).operations, Accounted blake finalized log' op := by
  intro op hop
  obtain ⟨old, hold, rfl⟩ := List.mem_map.1 hop
  split
  · rename_i hid
    rw [operation_inj hflight.ids hold hpending hid]
    exact hnew
  · exact (h old hold).mono hlog

theorem InFlight.step (h : InFlight journal) (input : CollectorChain × CollectorCall) :
    InFlight (step custody journal input) := by
  obtain ⟨chain, call⟩ := input
  by_cases hcall : ∃ tickInput, call = .tick tickInput
  · obtain ⟨tickInput, rfl⟩ := hcall
    apply commit_rel (R := fun _ written => InFlight written) h
    rintro written ⟨status, signed⟩ htick
    have hcommit : transaction custody journal (chain, .tick tickInput) =
        .ok (written, signed.map fun bytes => (written.maximum, bytes.encoded)) := by
      simp only [transaction, htick, bind_eq_ok_iff, pure_eq_ok_iff]
      exact ⟨_, rfl, rfl⟩
    exact (ticketed custody).preserves h hcommit
  · have hops := @step_operations custody journal chain call fun tickInput heq => hcall ⟨tickInput, heq⟩
    exact ⟨by rw [hops]; exact h.ids, by rw [hops]; exact h.single⟩

/-- The scan of a committed tick is in the log. -/
theorem examinedBy_tick {answers : CollectorChain × ChainNode} {input : TickInput} {pending : Operation}
    {settled : SettlementStatus} {signed : Option SignedOperation} {observed : Observation} {result : Settlement}
    {examined : List ℕ}
    (htick : tick custody (adapter custody blake finalized answers) input journal =
      .ok (journal', .settled settled, signed))
    (hpending : journal.dispatching? = some pending) (hobserved : answers.1.observe input.role 0 = .ok observed)
    (hscan : reconcileTrace blake finalized answers.2 custody.policy.collectorHotkey pending observed =
      .ok (result, examined)) :
    examinedBy custody blake finalized journal (answers, .tick input) =
      examined.map fun block => (pending.id, block) := by
  simp only [examinedBy, htick, hpending, hobserved, hscan]

/-- A committed tick keeps the account of an unresolved operation. -/
theorem accounted_pending {answers : CollectorChain × ChainNode} {input : TickInput} {pending : Operation}
    {status : TickStatus} {signed : Option SignedOperation} (hflight : InFlight journal)
    (h : ∀ op ∈ journal.operations, Accounted blake finalized log op)
    (hpending : journal.dispatching? = some pending)
    (htick : tick custody (adapter custody blake finalized answers) input journal = .ok (journal', status, signed)) :
    ∀ op ∈ journal'.operations,
      Accounted blake finalized (log ++ examinedBy custody blake finalized journal (answers, .tick input)) op := by
  have hmem : pending ∈ journal.operations := List.mem_of_find?_eq_some hpending
  have hunsettled : pending.state = .dispatching := by simpa using List.find?_some hpending
  rcases tick_reconciles hpending htick with hops | ⟨observed, result, settled, rfl, hobserved, hresult, hwritten⟩
  · rw [hops]
    intro op hop
    exact (h op hop).mono (List.subset_append_left _ _)
  obtain ⟨examined, hscan⟩ := reconcile_eq_ok_iff.1 hresult
  rw [examinedBy_tick htick hpending hobserved hscan]
  have hprogress := (h pending hmem).progress
  have hlog : log ⊆ log ++ examined.map fun block => (pending.id, block) := List.subset_append_left _ _
  rcases hwritten with ⟨hstatus, through, hthrough, hops⟩ | ⟨state, hstate, hops⟩
  · rw [hops]
    refine accounted_updateOperation hflight hmem hlog h ⟨?_, ?_⟩
    · -- the new position is the end of the scan
      rcases reconcile_cases hscan with hmatch | ⟨hend, hall, -⟩
      · rw [hstatus] at hmatch
        rcases hmatch with hmatch | hmatch <;> cases hmatch
      · rw [hthrough, Option.some.injEq] at hend
        subst hend
        exact hprogress.extend hall
    · intro hexpired
      rw [hunsettled] at hexpired
      cases hexpired
  · rw [hops]
    refine accounted_updateOperation hflight hmem hlog h ⟨hprogress.mono hlog, ?_⟩
    -- an expired operation was scanned to the end of its mortality
    rintro rfl
    rcases reconcile_cases hscan with hmatch | ⟨-, hall, hpend | ⟨-, hend⟩⟩
    · rcases hmatch with hmatch | hmatch <;> rw [hmatch] at hstate <;> cases hstate
    · rw [hpend] at hstate
      cases hstate
    · have hcleared := hprogress.extend hall
      rw [hend] at hcleared
      exact hcleared

/-- One call keeps the accounts. -/
theorem accounted_step (hflight : InFlight journal)
    (h : ∀ op ∈ journal.operations, Accounted blake finalized log op)
    (input : (CollectorChain × ChainNode) × CollectorCall) :
    ∀ op ∈ (logStep custody blake finalized (journal, log) input).1.operations,
      Accounted blake finalized (logStep custody blake finalized (journal, log) input).2 op := by
  obtain ⟨answers, call⟩ := input
  have hsame : ∀ op ∈ journal.operations,
      Accounted blake finalized (log ++ examinedBy custody blake finalized journal (answers, call)) op :=
    fun op hop => (h op hop).mono (List.subset_append_left _ _)
  by_cases hcall : ∃ tickInput, call = .tick tickInput
  · obtain ⟨tickInput, rfl⟩ := hcall
    simp only [logStep, step]
    rcases commit_cases (tick custody (adapter custody blake finalized answers) tickInput) journal with
      heq | ⟨⟨status, signed⟩, htick⟩
    · rw [heq]
      exact hsame
    cases hpending : journal.dispatching? with
    | some pending => exact accounted_pending hflight h hpending htick
    | none =>
      rcases tick_quiesced hpending htick with ⟨-, hops⟩ | ⟨bytes, claim, -, hops⟩
      · rw [hops]
        exact hsame
      · rw [hops]
        intro op hop
        rcases List.mem_append.1 hop with hop | hop
        · exact hsame op hop
        · rw [List.mem_singleton.1 hop]
          exact .inserted
  · simp only [logStep, step_operations fun tickInput heq => hcall ⟨tickInput, heq⟩]
    exact hsame

/-- What every run with a log keeps. -/
theorem accounted_logged (custody : Custody) (blake : String → String) (finalized : ℕ → List String) (role : Role)
    (calls : List ((CollectorChain × ChainNode) × CollectorCall)) :
    InFlight (logged custody blake finalized role calls).1 ∧
      ∀ op ∈ (logged custody blake finalized role calls).1.operations,
        Accounted blake finalized (logged custody blake finalized role calls).2 op := by
  unfold logged
  apply run_inv (P := fun state : Journal × List (ℕ × ℕ) =>
    InFlight state.1 ∧ ∀ op ∈ state.1.operations, Accounted blake finalized state.2 op)
  · rintro ⟨journal, log⟩ input ⟨hflight, h⟩
    exact ⟨hflight.step _, accounted_step hflight h input⟩
  · refine ⟨⟨rfl, Nat.zero_le 1⟩, ?_⟩
    intro op hop
    cases hop

/-- In every run on immutable finalized blocks: an expired operation was searched for in every block of its mortality,
and is in none; an operation that is in a block of its mortality is not expired; and every block up to the position of a
scan was examined. -/
theorem reconciliation_complete (custody : Custody) (blake : String → String) (finalized : ℕ → List String)
    (role : Role) (calls : List ((CollectorChain × ChainNode) × CollectorCall)) (op : Operation)
    (hop : op ∈ (logged custody blake finalized role calls).1.operations) :
    (op.state = .expired → ∀ block, op.signed.startBlock < block → block ≤ op.signed.expiresBlock →
      (op.id, block) ∈ (logged custody blake finalized role calls).2 ∧
        op.signed.extrinsicHash ∉ (finalized block).map blake) ∧
    ((∃ block, op.signed.startBlock < block ∧ block ≤ op.signed.expiresBlock ∧
        op.signed.extrinsicHash ∈ (finalized block).map blake) → op.state ≠ .expired) ∧
    (∀ block, op.signed.startBlock < block → block ≤ op.reconciledThrough →
      (op.id, block) ∈ (logged custody blake finalized role calls).2) := by
  have haccounted := (accounted_logged custody blake finalized role calls).2 op hop
  refine ⟨haccounted.expired, ?_, ?_⟩
  · rintro ⟨block, hlt, hle, hmem⟩ hstate
    exact (haccounted.expired hstate block hlt hle).2 hmem
  · intro block hlt hle
    exact (haccounted.progress block hlt hle).1

/-- A node that answers everything, and whose blocks are empty. -/
def sampleNode : ChainNode where
  blockHash _ := .ok "block"
  guardRuntime _ := .ok "code"
  receiptRuntime _ _ := .ok ()
  getBlock _ := .ok ()
  events _ := .ok []
  feeEvidence _ _ := .ok ()
  identity _ _ := .ok (some 7)
  transferEffect _ _ _ _ := .ok ()
  alpha _ _ := .ok 0

/-- A leg that is signed at block 13 and never included. -/
def lostCalls : List ((CollectorChain × ChainNode) × CollectorCall) :=
  [((sampleChain 12, sampleNode), .observeEarnings 32), ((sampleChain 13, sampleNode), .tick ⟨.transfer, none, none⟩),
    ((sampleChain 90, sampleNode), .tick ⟨.transfer, none, none⟩),
    ((sampleChain 90, sampleNode), .tick ⟨.transfer, none, none⟩)]

theorem reconciliation_complete_lost :
    ∃ op ∈ (logged sampleCustody id (fun _ => []) .transfer lostCalls).1.operations,
      op.state = .expired ∧ op.signed.startBlock = 13 ∧ op.signed.expiresBlock = 77 ∧
        (op.id, 50) ∈ (logged sampleCustody id (fun _ => []) .transfer lostCalls).2 := by
  have hop : ∃ op ∈ (logged sampleCustody id (fun _ => []) .transfer lostCalls).1.operations,
      op.state = .expired ∧ op.signed.startBlock = 13 ∧ op.signed.expiresBlock = 77 := by decide +kernel
  obtain ⟨op, hmem, hstate, hstart, hexpires⟩ := hop
  have hcomplete := (reconciliation_complete sampleCustody id (fun _ => []) .transfer lostCalls op hmem).1 hstate 50
    (by rw [hstart]; decide) (by rw [hexpires]; decide)
  exact ⟨op, hmem, hstate, hstart, hexpires, hcomplete.1⟩

end Complete

end DittoSubnet.Treasury

import DittoSubnet.Treasury.Collector

/-!
# What a call changes

Everything that a call can do to the journal of a transfer signer, with what the call has checked before: `Change` has
one constructor for each kind of write, `step_changes` says that a call is a chain of such writes or arms one intent.
The invariants of the journal are proved over `Change` and `Armable`, and no later proof opens a call again.
-/

namespace DittoSubnet.Treasury

open Kit Relation

variable {custody : Custody} {journal journal' : Journal}

/-! ## Writes and their guards -/

/-- The events that no authority is read from. -/
def Event.isNote : Event → Bool
  | .transferCanaryArmed _ _ | .transferCanaryReplaced _ | .manualTransferArmed _ _ | .manualUnsignedExpired _ => false
  | _ => true

/-- Appends notes. -/
def Journal.note (journal : Journal) (notes : List Event) : Journal :=
  { journal with events := journal.events ++ notes }

/-- A first canary, at the quiesced current journal. -/
structure NewCanary (custody : Custody) (journal : Journal) (canary : TransferCanary) : Prop where
  first : canaryRecords journal.events = []
  unreplaced : canaryReplacement custody journal = .ok none
  baseline : journal.maximum = canary.afterOperation
  quiesced : journal.dispatching? = none

/-- The bound that `transferCanary` answers, with the checked history. -/
inductive InForce (custody : Custody) (journal : Journal) (manual : List ManualTransfer) :
    Option TransferCanary → Prop
  | free (hnone : canaryRecords journal.events = []) (hunreplaced : canaryReplacement custody journal = .ok none) :
      InForce custody journal manual none
  | bound {policy : String} {canary existing : TransferCanary} {replacement : Option CanaryReplacement}
      (hcanary : canaryRecords journal.events = [(policy, canary)])
      (hreplacement : canaryReplacement custody journal = .ok replacement)
      (hexisting : boundCanary journal canary replacement = .ok existing) :
      InForce custody journal manual (some (match manual.getLast? with | some last => last.bound | none => existing))

/-- The part of a receipt that a leg is paid from, with the fields of its claim. -/
structure LegClaim (custody : Custody) (journal : Journal) (bound : Option TransferCanary)
    (intent : Option ManualTransfer) (claim : Claim) (row : EarningsRow) (remaining : List ServiceDistribution)
    (part : ServiceDistribution) : Prop where
  row_mem : row ∈ journal.earnings
  row_open : row.completed = false
  owed : remainingSource custody journal row = .ok remaining
  part_mem : part ∈ remaining
  single : ∀ i ∈ intent, i.batch = none ∧ row.block = i.sourceBlock ∧ part.bucketId = i.bucketId ∧
    i.amountRao ≤ part.alphaRao
  amount : claim.amount = legAmount bound intent part
  sourceBlock : claim.sourceBlock = some row.block
  bucket : claim.bucket = some part.bucketId
  destination : claim.destination = some part.holdingColdkey

/-- The claim of a batch whose sources were all checked. -/
structure BatchClaim (custody : Custody) (journal : Journal) (intent : ManualTransfer) (claim : Claim)
    (batch : ManualBatch) (chain : CollectorChain) (observed : Observation) (destination : String) : Prop where
  isBatch : intent.batch = some batch
  validated : validateBatch custody chain journal intent batch observed = .ok destination
  amount : claim.amount = intent.amountRao
  sourceBlock : claim.sourceBlock = some intent.sourceBlock
  bucket : claim.bucket = some intent.bucketId
  wallet : claim.destination = some destination

/-- What a tick has checked when it reserves a claim. -/
structure Reservable (custody : Custody) (journal : Journal) (claim : Claim) (bound : Option TransferCanary)
    (manual : List ManualTransfer) : Prop where
  history : manualTransferHistory custody journal = .ok manual
  inForce : InForce custody journal manual bound
  unspent : ∀ c ∈ bound, ∀ op ∈ journal.operations, c.afterOperation < op.id → op.state = .dispatching
  quiesced : journal.dispatching? = none
  kind : (∃ row remaining part, LegClaim custody journal bound manual.getLast? claim row remaining part) ∨
    ∃ intent batch chain observed destination, manual.getLast? = some intent ∧
      BatchClaim custody journal intent claim batch chain observed destination

/-- What a tick has checked when it completes a receipt. -/
structure Exhausted (custody : Custody) (journal : Journal) (row : EarningsRow) (bound : Option TransferCanary)
    (manual : List ManualTransfer) : Prop where
  inForce : InForce custody journal manual bound
  row_mem : row ∈ journal.earnings
  owed : remainingSource custody journal row = .ok []

/-- What a replacement has checked. -/
structure Replaceable (custody : Custody) (journal : Journal) (canary existing : TransferCanary)
    (manual : List ManualTransfer) : Prop where
  history : manualTransferHistory custody journal = .ok manual
  inForce : InForce custody journal manual (some existing)
  first : canaryReplacement custody journal = .ok none
  current : canary.afterOperation = journal.maximum
  spent : journal.maximum = existing.afterOperation + 1

/-- What a retirement has checked. -/
structure Retirable (custody : Custody) (journal : Journal) (requestId : String) (request : ManualTransfer)
    (manual : List ManualTransfer) : Prop where
  history : manualTransferHistory custody journal = .ok manual
  latest : manual.getLast? = some request
  named : request.requestId = requestId
  unspent : journal.maximum = request.afterOperation

/-- What arming an intent has checked. -/
structure Armable (custody : Custody) (journal : Journal) (request : ManualTransfer) (existing : TransferCanary)
    (manual : List ManualTransfer) : Prop where
  unexpired : request.requestId ∉ expiredIds journal.events
  history : manualTransferHistory custody journal = .ok manual
  fresh : ∀ r ∈ manual, r.requestId ≠ request.requestId
  inForce : InForce custody journal manual (some existing)
  current : journal.maximum = request.afterOperation
  spent : journal.maximum = existing.afterOperation + 1
  finalized : ∃ previous, journal.operation? journal.maximum = some previous ∧ previous.state = .finalized

/-- One write of a call. -/
inductive Change (custody : Custody) : Journal → Journal → Prop
  | note {journal : Journal} (notes : List Event) (hnotes : ∀ e ∈ notes, e.isNote = true) :
      Change custody journal (journal.note notes)
  | canary {journal : Journal} {canary : TransferCanary} (h : NewCanary custody journal canary) :
      Change custody journal (journal.event (.transferCanaryArmed custody.policy.digest canary))
  | earn {journal : Journal} {row : EarningsRow} (hnew : journal.earning? row.block = none)
      (hopen : row.completed = false) : Change custody journal { journal with earnings := journal.earnings ++ [row] }
  | cursor {journal : Journal} (block : ℕ) : Change custody journal { journal with cursor := block }
  | progress {journal : Journal} {pending : Operation} {through : ℕ} (hpending : journal.dispatching? = some pending)
      (hle : pending.reconciledThrough ≤ through) : Change custody journal
        (journal.updateOperation pending.id fun op => { op with reconciledThrough := through })
  | settle {journal : Journal} {pending : Operation} {state : OperationState} {result : Settlement}
      (hpending : journal.dispatching? = some pending) (hstate : result.status.state? = some state) :
      Change custody journal
        (journal.updateOperation pending.id fun op => { op with state := state, settlement := some result })
  | complete {journal : Journal} {row : EarningsRow} {bound : Option TransferCanary} {manual : List ManualTransfer}
      (h : Exhausted custody journal row bound manual) : Change custody journal (journal.complete row.block)
  | reserve {journal : Journal} {claim : Claim} {bound : Option TransferCanary} {manual : List ManualTransfer}
      (signed : SignedOperation) (notes : List Event) (hnotes : ∀ e ∈ notes, e.isNote = true)
      (h : Reservable custody journal claim bound manual) :
      Change custody journal ((journal.insertOperation claim .transfer signed).note notes)
  | replace {journal : Journal} {replacement : CanaryReplacement} {existing : TransferCanary}
      {manual : List ManualTransfer} (h : Replaceable custody journal replacement.canary existing manual) :
      Change custody journal (journal.event (.transferCanaryReplaced replacement))
  | expire {journal : Journal} {expiry : UnsignedExpiry} {request : ManualTransfer} {manual : List ManualTransfer}
      (h : Retirable custody journal expiry.requestId request manual) :
      Change custody journal (journal.event (.manualUnsignedExpired expiry))

/-- A chain of writes. -/
abbrev Changes (custody : Custody) : Journal → Journal → Prop := ReflTransGen (Change custody)

theorem Change.pin_eq (h : Change custody journal journal') : journal'.pin = journal.pin := by
  cases h <;> rfl

/-- A single note. -/
theorem Change.event_note {e : Event} (he : e.isNote = true) : Change custody journal (journal.event e) := by
  apply Change.note [e]
  intro e' he'
  rw [List.mem_singleton.1 he']
  exact he

/-! ## The bound -/

theorem canaryRecords_append (a b : List Event) : canaryRecords (a ++ b) = canaryRecords a ++ canaryRecords b :=
  List.filterMap_append

/-- The replacement is read from its own events. -/
theorem canaryReplacement_congr (h : journal'.events.filterMap Event.replacement? =
    journal.events.filterMap Event.replacement?) :
    canaryReplacement custody journal' = canaryReplacement custody journal := by
  unfold canaryReplacement
  rw [h]

/-- A call for the bound records a first canary or leaves the journal as it is. -/
theorem requestedCanary_cases {role : Role} {requested bound : Option TransferCanary}
    (h : requestedCanary custody journal role requested = .ok (journal', bound)) :
    (journal' = journal ∧ ((bound = none ∧ canaryRecords journal.events = [] ∧
        canaryReplacement custody journal = .ok none) ∨
      ∃ policy canary replacement existing, bound = some existing ∧ canaryRecords journal.events = [(policy, canary)] ∧
        canaryReplacement custody journal = .ok replacement ∧ boundCanary journal canary replacement = .ok existing)) ∨
    ∃ canary, requested = some canary ∧ bound = some canary ∧ NewCanary custody journal canary ∧
      journal' = journal.event (.transferCanaryArmed custody.policy.digest canary) := by
  unfold requestedCanary at h
  split at h
  · rename_i hrecords
    simp only [bind_eq_ok_iff, ensure_eq_ok_iff, exists_and_left, exists_const] at h
    obtain ⟨replacement, hreplacement, rfl, h⟩ := h
    cases requested with
    | none =>
      rw [pure_eq_ok_iff, Prod.mk.injEq] at h
      exact .inl ⟨h.1.symm, .inl ⟨h.2.symm, hrecords, hreplacement⟩⟩
    | some canary =>
      simp only [bind_eq_ok_iff, ensure_eq_ok_iff, exists_and_left, exists_const, pure_eq_ok_iff, Prod.mk.injEq] at h
      obtain ⟨-, ⟨hbaseline, hquiesced⟩, rfl, rfl⟩ := h
      exact .inr ⟨canary, rfl, rfl, ⟨hrecords, hreplacement, hbaseline, hquiesced⟩, rfl⟩
  · rename_i policy canary hrecords
    simp only [bind_eq_ok_iff, ensure_eq_ok_iff, exists_and_left, exists_const, pure_eq_ok_iff, Prod.mk.injEq] at h
    obtain ⟨-, replacement, hreplacement, existing, hexisting, -, -, rfl, rfl⟩ := h
    exact .inl ⟨rfl, .inr ⟨policy, canary, replacement, existing, rfl, hrecords, hreplacement, hexisting⟩⟩
  · cases h

theorem transferCanary_cases {role : Role} {requested bound : Option TransferCanary}
    (h : transferCanary custody journal role requested = .ok (journal', bound)) :
    (journal' = journal ∨ ∃ canary, requested = some canary ∧ NewCanary custody journal canary ∧
      journal' = journal.event (.transferCanaryArmed custody.policy.digest canary)) ∧
    ∀ manual, manualTransferHistory custody journal' = .ok manual → InForce custody journal' manual bound := by
  unfold transferCanary at h
  rw [bind_eq_ok_iff] at h
  obtain ⟨⟨journal₁, bound₁⟩, hrequested, h⟩ := h
  have hjournal : journal' = journal₁ := by
    cases bound₁ with
    | none =>
      have h := pure_eq_ok_iff.1 h
      exact (congrArg Prod.fst h).symm
    | some canary =>
      simp only [bind_eq_ok_iff, ensure_eq_ok_iff, exists_and_left, exists_const, pure_eq_ok_iff] at h
      obtain ⟨manual, -, -, h⟩ := h
      exact (congrArg Prod.fst h).symm
  subst hjournal
  have hcases := requestedCanary_cases hrequested
  refine ⟨?_, ?_⟩
  · rcases hcases with ⟨hsame, -⟩ | ⟨canary, hreq, -, hnew, heq⟩
    · exact .inl hsame
    · exact .inr ⟨canary, hreq, hnew, heq⟩
  · intro manual hmanual
    cases bound₁ with
    | none =>
      have hbound : none = bound := congrArg Prod.snd (pure_eq_ok_iff.1 h)
      rcases hcases with ⟨rfl, ⟨-, hrecords, hunreplaced⟩ | ⟨_, _, _, _, hsome, -⟩⟩ | ⟨_, -, hsome, -⟩
      · rw [← hbound]
        exact .free hrecords hunreplaced
      · cases hsome
      · cases hsome
    | some canary =>
      simp only [bind_eq_ok_iff, ensure_eq_ok_iff, exists_and_left, exists_const, pure_eq_ok_iff, Prod.mk.injEq] at h
      obtain ⟨manual', hmanual', -, -, hbound⟩ := h
      obtain rfl : manual' = manual := Except.ok.inj (hmanual'.symm.trans hmanual)
      rw [← hbound]
      rcases hcases with ⟨rfl, ⟨hnone, -⟩ | ⟨policy, recorded, replacement, existing, hsome, hrecords, hrep, hex⟩⟩ |
        ⟨recorded, -, hsome, hnew, heq⟩
      · cases hnone
      · cases hsome
        exact .bound hrecords hrep hex
      · cases hsome
        have hrep : canaryReplacement custody journal' = .ok none := by
          rw [← hnew.unreplaced]
          apply canaryReplacement_congr
          rw [heq, Journal.event_events, List.filterMap_append]
          exact List.append_nil _
        refine @InForce.bound custody journal' manual' custody.policy.digest canary canary none ?_ hrep rfl
        rw [heq, Journal.event_events, canaryRecords_append, hnew.first]
        rfl

/-- A bound is answered only over a history that was checked. -/
theorem transferCanary_history {role : Role} {requested : Option TransferCanary} {existing : TransferCanary}
    (h : transferCanary custody journal role requested = .ok (journal', some existing)) :
    ∃ manual, manualTransferHistory custody journal' = .ok manual := by
  unfold transferCanary at h
  rw [bind_eq_ok_iff] at h
  obtain ⟨⟨journal₁, bound₁⟩, -, h⟩ := h
  cases bound₁ with
  | none => cases (Prod.mk.inj (pure_eq_ok_iff.1 h)).2
  | some canary =>
    simp only [bind_eq_ok_iff, ensure_eq_ok_iff, exists_and_left, exists_const, pure_eq_ok_iff, Prod.mk.injEq] at h
    obtain ⟨manual, hmanual, -, rfl, -⟩ := h
    exact ⟨manual, hmanual⟩

/-- A call without a canary of its own does not record one. -/
theorem transferCanary_none {bound : Option TransferCanary} {role : Role}
    (h : transferCanary custody journal role none = .ok (journal', bound)) : journal' = journal := by
  rcases (transferCanary_cases h).1 with hsame | ⟨_, hnone, -⟩
  · exact hsame
  · cases hnone

/-! ## Earnings -/

/-- Writes that leave the operations alone. -/
structure Silent (custody : Custody) (journal journal' : Journal) : Prop where
  changes : Changes custody journal journal'
  operations : journal'.operations = journal.operations

namespace Silent

theorem refl (custody : Custody) (journal : Journal) : Silent custody journal journal := ⟨.refl, rfl⟩

theorem of_eq (h : journal' = journal) : Silent custody journal journal' := h ▸ refl custody journal

theorem single (h : Change custody journal journal') (hoperations : journal'.operations = journal.operations) :
    Silent custody journal journal' := ⟨.single h, hoperations⟩

theorem trans {written : Journal} (h : Silent custody journal written) (h' : Silent custody written journal') :
    Silent custody journal journal' := ⟨h.changes.trans h'.changes, h'.operations.trans h.operations⟩

theorem note (h : Silent custody journal journal') {e : Event} (he : e.isNote = true) :
    Silent custody journal (journal'.event e) := h.trans (single (.event_note he) rfl)

end Silent

theorem recordEarning_silent {block : ℕ} {earned : Option FinalizedEarnings}
    (h : recordEarning custody journal block earned = .ok journal') : Silent custody journal journal' := by
  unfold recordEarning at h
  split at h
  · simp only [bind_eq_ok_iff, ensure_eq_ok_iff, exists_and_left, exists_const, pure_eq_ok_iff] at h
    exact .of_eq h.2.symm
  · rename_i hnew
    cases earned with
    | none => exact .of_eq (pure_eq_ok_iff.1 h).symm
    | some earned =>
      simp only [bind_eq_ok_iff, ensure_eq_ok_iff, exists_and_left, exists_const, pure_eq_ok_iff] at h
      rw [← h.2]
      exact (Silent.single (.earn hnew rfl) rfl).note rfl

theorem scanBlock_silent {chain : CollectorChain} {block : ℕ}
    (h : scanBlock custody chain journal block = .ok journal') : Silent custody journal journal' := by
  unfold scanBlock at h
  simp only [bind_eq_ok_iff, pure_eq_ok_iff] at h
  obtain ⟨earned, -, recorded, hrecorded, rfl⟩ := h
  exact (recordEarning_silent hrecorded).trans (.single (.cursor block) rfl)

theorem scanFinalizedEarnings_silent {chain : CollectorChain} {finalized maxBlocks : ℕ}
    (h : scanFinalizedEarnings custody chain journal finalized maxBlocks = .ok journal') :
    Silent custody journal journal' := by
  unfold scanFinalizedEarnings at h
  refine foldlM_inv (P := fun _ scanned => Silent custody journal scanned) ?_ _ [] (.refl custody journal) h
  intro done scanned scanned' block hscanned hblock
  exact hscanned.trans (scanBlock_silent hblock)

/-! ## The plan of a tick -/

/-- A plan leaves the operations alone, or adds notes to a journal at which its claim can be reserved. -/
def PlanChanges (custody : Custody) (journal : Journal) : TickPlan → Prop
  | .done journal' _ => Silent custody journal journal'
  | .reserve journal' claim _ => ∃ notes bound manual, (∀ e ∈ notes, e.isNote = true) ∧ journal' = journal.note notes ∧
      Reservable custody journal claim bound manual

variable {chain : CollectorChain} {observed : Observation} {plan : TickPlan}

/-- What a tick does to an unresolved operation: nothing, a later scan position, or its settlement. -/
inductive Resolves (pending : Operation) (journal : Journal) : Journal → Prop
  | unchanged : Resolves pending journal journal
  | progress (through : ℕ) (hle : pending.reconciledThrough ≤ through) : Resolves pending journal
      (journal.updateOperation pending.id fun op => { op with reconciledThrough := through })
  | settle (state : OperationState) (result : Settlement) (hstate : result.status.state? = some state) :
      Resolves pending journal
        (journal.updateOperation pending.id fun op => { op with state := state, settlement := some result })

/-- With an unresolved operation a tick resolves it, and adds notes. -/
theorem settlePending_resolves {pending : Operation}
    (h : settlePending chain journal observed pending = .ok plan) : ∃ resolved notes status,
      Resolves pending journal resolved ∧ (∀ e ∈ notes, e.isNote = true) ∧
        plan = .done (resolved.note notes) status := by
  unfold settlePending at h
  rw [bind_eq_ok_iff] at h
  obtain ⟨result, -, h⟩ := h
  split at h
  · cases hthrough : result.scannedThrough with
    | none =>
      rw [hthrough, pure_eq_ok_iff] at h
      exact ⟨journal, [], _, .unchanged, by simp, by rw [← h, Journal.note, List.append_nil]⟩
    | some through =>
      simp only [hthrough, bind_eq_ok_iff, ensure_eq_ok_iff, exists_and_left, exists_const, pure_eq_ok_iff] at h
      obtain ⟨⟨hle, -⟩, rfl⟩ := h
      exact ⟨_, [], _, .progress through hle, by simp, by rw [Journal.note, List.append_nil]⟩
  · rename_i state hstate
    split at h
    · simp only [bind_eq_ok_iff, ensure_eq_ok_iff, exists_and_left, exists_const, pure_eq_ok_iff] at h
      refine ⟨_, [.settlement pending.id result, .collectorUidRebound result], .settled result.status,
        .settle state result hstate, ?_, ?_⟩
      · simp [Event.isNote]
      · rw [← h.2]
        simp [Journal.event, Journal.note]
    · rw [pure_eq_ok_iff] at h
      refine ⟨_, [.settlement pending.id result], .settled result.status, .settle state result hstate, ?_, h.symm⟩
      simp [Event.isNote]

theorem Resolves.changes {pending : Operation} (h : Resolves pending journal journal')
    (hpending : journal.dispatching? = some pending) : Changes custody journal journal' := by
  cases h with
  | unchanged => exact .refl
  | progress through hle => exact .single (.progress hpending hle)
  | settle state result hstate => exact .single (.settle hpending hstate)

theorem reserveClaim_eq {claim : Claim} {intent : Option ManualTransfer}
    (h : reserveClaim custody journal claim intent = .ok plan) : plan = .reserve journal claim intent := by
  unfold reserveClaim at h
  simp only [bind_eq_ok_iff, ensure_eq_ok_iff, exists_and_left, exists_const, pure_eq_ok_iff] at h
  exact h.2.symm

/-- A selected receipt is open, and an intent's receipt is the one it names. -/
theorem selectRow_spec {intent : Option ManualTransfer} {replacement : Option CanaryReplacement} {row : EarningsRow}
    (h : selectRow custody journal observed intent replacement = .ok (some row)) :
    row ∈ journal.earnings ∧ row.completed = false ∧ ∀ i ∈ intent, row.block = i.sourceBlock := by
  unfold selectRow at h
  split at h
  · rename_i hnone
    have hrow : matureRow custody journal observed = some row := pure_eq_ok_iff.1 h
    have hmem := mem_sortOn.1 (List.mem_of_head? hrow)
    rw [List.mem_filter, decide_eq_true_eq] at hmem
    refine ⟨hmem.1, hmem.2.2.1, ?_⟩
    intro i hi
    rw [Option.mem_def] at hi
    rw [hi] at hnone
    cases hnone
  · rename_i selected hselected
    split at h
    · cases h
    · rename_i row' hrow
      obtain rfl : row' = row := Option.some.inj (pure_eq_ok_iff.1 h)
      have hfound := List.find?_some hrow
      rw [decide_eq_true_eq] at hfound
      refine ⟨List.mem_of_find?_eq_some hrow, hfound.2.1, ?_⟩
      intro i hi
      rw [Option.mem_def] at hi
      rw [hi] at hselected
      rw [hfound.1, ← Option.some.inj hselected]

/-- What the branches of a tick share. -/
structure Quiesced (custody : Custody) (journal : Journal) (bound : Option TransferCanary)
    (manual : List ManualTransfer) : Prop where
  history : manualTransferHistory custody journal = .ok manual
  inForce : InForce custody journal manual bound
  unspent : ∀ c ∈ bound, ∀ op ∈ journal.operations, c.afterOperation < op.id → op.state = .dispatching
  quiesced : journal.dispatching? = none

variable {bound : Option TransferCanary} {manual : List ManualTransfer}

theorem planLeg_changes (hq : Quiesced custody journal bound manual)
    {replacement : Option CanaryReplacement} {row : EarningsRow}
    (hreplacement : canaryReplacement custody journal = .ok replacement)
    (hrow : row ∈ journal.earnings ∧ row.completed = false ∧ ∀ i ∈ manual.getLast?, row.block = i.sourceBlock)
    (hsingle : ∀ i ∈ manual.getLast?, i.batch = none)
    (h : planLeg custody journal bound manual.getLast? replacement observed row = .ok plan) :
    PlanChanges custody journal plan := by
  unfold planLeg at h
  simp only [bind_eq_ok_iff, ensure_eq_ok_iff, exists_and_left, exists_const] at h
  obtain ⟨-, parts, hparts, operations, hoperations, remaining, hremaining, -, hpart, h⟩ := h
  have howed : remainingSource custody journal row = .ok remaining := by
    unfold remainingSource
    simp only [bind_eq_ok_iff]
    exact ⟨parts, hparts, replacement, hreplacement, operations, hoperations, hremaining⟩
  split at h
  · rename_i hnone
    rw [pure_eq_ok_iff] at h
    rw [← h]
    -- with an intent its part would have been found, so nothing is left for any bucket
    have hintent : manual.getLast? = none := by
      cases hlast : manual.getLast? with
      | none => rfl
      | some i =>
        obtain ⟨p, hp, -⟩ := hpart i (by rw [hlast]; rfl)
        rw [hnone] at hp
        cases hp
    have hempty : remaining = [] := by
      rw [hintent] at hnone
      cases remaining with
      | nil => rfl
      | cons p rest => simp at hnone
    rw [hempty] at howed
    exact (Silent.single (.complete ⟨hq.inForce, hrow.1, howed⟩) rfl).note rfl
  · rename_i part hfound
    simp only [bind_eq_ok_iff, ensure_eq_ok_iff, exists_and_left, exists_const] at h
    rw [reserveClaim_eq h.2]
    have hfit := List.find?_some hfound
    rw [decide_eq_true_eq] at hfit
    have hleg : LegClaim custody journal bound manual.getLast?
        ⟨legAmount bound manual.getLast? part, some row.block, some part.bucketId, some part.holdingColdkey,
          transferCall custody part.holdingColdkey (legAmount bound manual.getLast? part), observed⟩
        row remaining part := by
      refine ⟨hrow.1, hrow.2.1, howed, List.mem_of_find?_eq_some hfound, ?_, rfl, rfl, rfl, rfl⟩
      intro i hi
      obtain ⟨p, hp, hle⟩ := hpart i hi
      rw [hfound, Option.mem_some_iff] at hp
      rw [hp]
      exact ⟨hsingle i hi, hrow.2.2 i hi, hp ▸ hfit i hi, hle⟩
    have hreservable := Reservable.mk hq.history hq.inForce hq.unspent hq.quiesced (.inl ⟨row, remaining, part, hleg⟩)
    cases bound with
    | none => exact ⟨[], none, manual, by simp, (by simp [Journal.note]), hreservable⟩
    | some c =>
      refine ⟨[.canaryReceiptReserved (canaryReceipt row remaining part (legAmount (some c) manual.getLast? part))],
        some c, manual, ?_, rfl, hreservable⟩
      intro e he
      rw [List.mem_singleton.1 he]
      rfl

theorem planReceipt_changes (hq : Quiesced custody journal bound manual) {manualRequestId : Option String}
    (hsingle : ∀ i ∈ manual.getLast?, i.batch = none)
    (h : planReceipt custody chain journal bound manual.getLast? manualRequestId observed = .ok plan) :
    PlanChanges custody journal plan := by
  unfold planReceipt at h
  rw [bind_eq_ok_iff] at h
  obtain ⟨replacement, hreplacement, h⟩ := h
  split at h
  · rw [← pure_eq_ok_iff.1 h]
    exact .refl custody journal
  · split at h
    · rw [← pure_eq_ok_iff.1 h]
      exact .refl custody journal
    · rw [bind_eq_ok_iff] at h
      obtain ⟨row, hselected, h⟩ := h
      cases row with
      | none =>
        simp only [bind_eq_ok_iff, pure_eq_ok_iff] at h
        obtain ⟨scanned, hscanned, rfl⟩ := h
        exact scanFinalizedEarnings_silent hscanned
      | some row =>
        simp only at h
        split at h
        · rw [← pure_eq_ok_iff.1 h]
          exact .refl custody journal
        · exact planLeg_changes hq hreplacement (selectRow_spec hselected) hsingle h

theorem planBatch_changes (hq : Quiesced custody journal bound manual) {intent : ManualTransfer} {batch : ManualBatch}
    {manualRequestId : Option String} (hlast : manual.getLast? = some intent) (hbatch : intent.batch = some batch)
    (h : planBatch custody chain journal intent batch manualRequestId observed = .ok plan) :
    PlanChanges custody journal plan := by
  unfold planBatch at h
  split at h
  · rw [← pure_eq_ok_iff.1 h]
    exact .refl custody journal
  · split at h
    · rw [← pure_eq_ok_iff.1 h]
      exact .refl custody journal
    · simp only [bind_eq_ok_iff, ensure_eq_ok_iff, exists_and_left, exists_const] at h
      obtain ⟨destination, hvalidated, observed', -, -, h⟩ := h
      split at h
      · rw [← pure_eq_ok_iff.1 h]
        exact .refl custody journal
      · simp only [bind_eq_ok_iff, ensure_eq_ok_iff, exists_and_left, exists_const] at h
        rw [reserveClaim_eq h.2]
        refine ⟨[], bound, manual, by simp, by simp [Journal.note], hq.history, hq.inForce, hq.unspent, hq.quiesced, ?_⟩
        exact .inr ⟨intent, batch, chain, observed, destination, hlast, hbatch, hvalidated, rfl, rfl, rfl, rfl⟩

theorem planTransfer_changes (hq : Quiesced custody journal bound manual) {manualRequestId : Option String}
    (h : planTransfer custody chain journal bound manual manualRequestId observed = .ok plan) :
    PlanChanges custody journal plan := by
  unfold planTransfer at h
  simp only [bind_eq_ok_iff, ensure_eq_ok_iff, exists_and_left, exists_const] at h
  obtain ⟨-, h⟩ := h
  cases hlast : manual.getLast? with
  | none =>
    simp only [hlast] at h
    rw [← hlast] at h
    apply planReceipt_changes hq _ h
    intro i hi
    rw [hlast] at hi
    cases hi
  | some intent =>
    simp only [hlast] at h
    split at h
    · rename_i batch hbatch
      exact planBatch_changes hq hlast hbatch h
    · rename_i hbatch
      rw [← hlast] at h
      apply planReceipt_changes hq _ h
      intro i hi
      rw [hlast, Option.mem_some_iff] at hi
      rw [← hi]
      exact hbatch

/-- The registration branch writes nothing. -/
theorem planRegistration_cases (h : planRegistration custody journal manual observed = .ok plan) :
    (∃ status, plan = .done journal status) ∨ ∃ claim intent, plan = .reserve journal claim intent := by
  unfold planRegistration at h
  split at h
  · exact .inl ⟨_, (pure_eq_ok_iff.1 h).symm⟩
  · split at h
    · exact .inl ⟨_, (pure_eq_ok_iff.1 h).symm⟩
    · simp only [bind_eq_ok_iff, ensure_eq_ok_iff, exists_and_left, exists_const] at h
      exact .inr ⟨_, _, reserveClaim_eq h.2.2⟩

/-- A tick may record its canary. Then it stops at a spent bound, resolves the unresolved operation, or plans. -/
theorem tickPlan_cases {input : TickInput} (h : tickPlan custody chain input journal = .ok plan) :
    ∃ opened, (opened = journal ∨ ∃ canary, NewCanary custody journal canary ∧
        opened = journal.event (.transferCanaryArmed custody.policy.digest canary)) ∧
      journal.pin = (custody.policy.digest, input.role) ∧
      (plan = .done opened .canarySpent ∨
        (∃ pending observed, opened.dispatching? = some pending ∧ chain.observe input.role 0 = .ok observed ∧
          settlePending chain opened observed pending = .ok plan) ∨
        ∃ bound manual observed, Quiesced custody opened bound manual ∧
          match input.role with
          | .registration => planRegistration custody opened manual observed = .ok plan
          | .transfer => planTransfer custody chain opened bound manual input.manualRequestId observed = .ok plan) := by
  unfold tickPlan at h
  simp only [bind_eq_ok_iff, ensure_eq_ok_iff, exists_and_left, exists_const] at h
  obtain ⟨hpin, ⟨opened, bound⟩, hcanary, manual, hmanual, -, h⟩ := h
  obtain ⟨hopened, hforce⟩ := transferCanary_cases hcanary
  refine ⟨opened, ?_, hpin, ?_⟩
  · rcases hopened with heq | ⟨canary, -, hnew, heq⟩
    · exact .inl heq
    · exact .inr ⟨canary, hnew, heq⟩
  split at h
  · exact .inl (pure_eq_ok_iff.1 h).symm
  · rename_i hunspent
    rw [bind_eq_ok_iff] at h
    obtain ⟨observed, hobserved, h⟩ := h
    split at h
    · rename_i pending hpending
      exact .inr (.inl ⟨pending, observed, hpending, hobserved, h⟩)
    · rename_i hquiesced
      refine .inr (.inr ⟨bound, manual, observed, ⟨hmanual, hforce manual hmanual, ?_, hquiesced⟩, ?_⟩)
      · intro c hc op hop hlt
        by_contra hstate
        exact hunspent ⟨c, hc, op, hop, hlt, hstate⟩
      · cases hrole : input.role with
        | registration =>
          rw [hrole] at h
          exact h
        | transfer =>
          rw [hrole] at h
          exact h

theorem reserveSigned_eq {role : Role} {claim : Claim} {intent : Option ManualTransfer} {signed : SignedOperation}
    (h : reserveSigned custody chain role journal claim intent = .ok (journal', signed)) :
    journal' = (journal.insertOperation claim role signed).event
      (.dispatchReserved signed.extrinsicHash custody.policy.digest role) := by
  unfold reserveSigned at h
  simp only [bind_eq_ok_iff, ensure_eq_ok_iff, exists_and_left, exists_const, pure_eq_ok_iff, Prod.mk.injEq] at h
  obtain ⟨signed', -, -, -, rfl, rfl⟩ := h
  rfl

/-! ## Calls -/

/-- The reservation of a claim, with the notes before it. -/
theorem reserveSigned_change {claim : Claim} {intent : Option ManualTransfer} {signed : SignedOperation}
    {notes : List Event} (hnotes : ∀ e ∈ notes, e.isNote = true)
    (hreservable : Reservable custody journal claim bound manual)
    (h : reserveSigned custody chain .transfer (journal.note notes) claim intent = .ok (journal', signed)) :
    Change custody journal journal' := by
  have hall : ∀ e ∈ notes ++ [Event.dispatchReserved signed.extrinsicHash custody.policy.digest .transfer],
      e.isNote = true := by
    intro e he
    rcases List.mem_append.1 he with he | he
    · exact hnotes e he
    · rw [List.mem_singleton.1 he]
      rfl
  have hreserve := Change.reserve signed _ hall hreservable
  rw [Journal.note, ← List.append_assoc] at hreserve
  rw [reserveSigned_eq h]
  exact hreserve

/-- A committed tick of a transfer signer is a chain of writes. -/
theorem tick_changes {input : TickInput} {result : TickStatus × Option SignedOperation}
    (hpin : journal.pin = (custody.policy.digest, .transfer))
    (h : tick custody chain input journal = .ok (journal', result)) : Changes custody journal journal' := by
  unfold tick at h
  split at h
  · rw [pure_eq_ok_iff, Prod.mk.injEq] at h
    rw [h.1]
  · rw [bind_eq_ok_iff] at h
    obtain ⟨plan, hplan, h⟩ := h
    obtain ⟨opened, hopened, hrole, hcases⟩ := tickPlan_cases hplan
    rw [hpin, Prod.mk.injEq] at hrole
    have hopened : Changes custody journal opened := by
      rcases hopened with rfl | ⟨canary, hnew, rfl⟩
      · exact .refl
      · exact .single (.canary hnew)
    rw [← hrole.2] at hcases
    rcases hcases with rfl | ⟨pending, observed, hpending, -, hsettle⟩ | ⟨bound, manual, observed, hq, hplan⟩
    · rw [pure_eq_ok_iff, Prod.mk.injEq] at h
      rw [← h.1]
      exact hopened
    · obtain ⟨resolved, notes, status, hresolves, hnotes, rfl⟩ := settlePending_resolves hsettle
      rw [pure_eq_ok_iff, Prod.mk.injEq] at h
      rw [← h.1]
      exact (hopened.trans (hresolves.changes hpending)).tail (.note notes hnotes)
    · have hchanges := planTransfer_changes hq hplan
      cases plan with
      | done written status =>
        rw [pure_eq_ok_iff, Prod.mk.injEq] at h
        rw [← h.1]
        exact hopened.trans hchanges.changes
      | reserve noted claim intent =>
        simp only [bind_eq_ok_iff, pure_eq_ok_iff, Prod.mk.injEq] at h
        obtain ⟨⟨reserved, signed⟩, hsigned, rfl, -⟩ := h
        obtain ⟨notes, bound', manual', hnotes, rfl, hreservable⟩ := hchanges
        rw [← hrole.2] at hsigned
        exact hopened.tail (reserveSigned_change hnotes hreservable hsigned)

theorem validateIntent_spec {requested : ManualTransfer} {u : Unit}
    (h : validateIntent custody chain journal requested bound = .ok u) :
    ∃ existing, bound = some existing ∧ journal.maximum = requested.afterOperation ∧
      journal.maximum = existing.afterOperation + 1 ∧
      ∃ previous, journal.operation? journal.maximum = some previous ∧ previous.state = .finalized := by
  unfold validateIntent at h
  split at h
  · cases h
  · rename_i existing
    simp only [bind_eq_ok_iff, ensure_eq_ok_iff, exists_and_left, exists_const] at h
    obtain ⟨hcurrent, hspent, h⟩ := h
    split at h
    · cases h
    · rename_i previous hprevious
      simp only [bind_eq_ok_iff, ensure_eq_ok_iff, exists_and_left, exists_const] at h
      exact ⟨existing, rfl, hcurrent, hspent, previous, hprevious, h.1.1⟩

/-- Arming an intent writes that intent, or nothing. -/
theorem armManualTransfer_cases {requested : ManualTransfer} {record : Bool} {status : ArmStatus}
    (h : armManualTransfer custody chain requested record journal = .ok (journal', status)) :
    journal' = journal ∨ (journal' = journal.event (.manualTransferArmed custody.policy.digest requested) ∧
      ∃ existing manual, Armable custody journal requested existing manual) := by
  unfold armManualTransfer at h
  simp only [bind_eq_ok_iff, ensure_eq_ok_iff, exists_and_left, exists_const] at h
  obtain ⟨-, -, -, -, hunexpired, -, manual, hmanual, h⟩ := h
  split at h
  · simp only [bind_eq_ok_iff, ensure_eq_ok_iff, exists_and_left, exists_const, pure_eq_ok_iff, Prod.mk.injEq] at h
    exact .inl h.2.1.symm
  · rename_i hfresh
    simp only [bind_eq_ok_iff] at h
    obtain ⟨⟨same, bound⟩, hcanary, u, hvalid, h⟩ := h
    obtain rfl := transferCanary_none hcanary
    obtain ⟨existing, rfl, hcurrent, hspent, hfinalized⟩ := validateIntent_spec hvalid
    have hforce := (transferCanary_cases hcanary).2 manual hmanual
    split at h
    · rw [pure_eq_ok_iff, Prod.mk.injEq] at h
      refine .inr ⟨h.1.symm, existing, manual, hunexpired, hmanual, ?_, hforce, hcurrent, hspent, hfinalized⟩
      intro r hr
      simpa using List.find?_eq_none.1 hfresh r hr
    · rw [pure_eq_ok_iff, Prod.mk.injEq] at h
      exact .inl h.1.symm

theorem replaceFailedCanary_silent {requested : TransferCanary} {reason : String} {result : Unit}
    (h : replaceFailedCanary custody chain requested reason journal = .ok (journal', result)) :
    Silent custody journal journal' := by
  unfold replaceFailedCanary at h
  simp only [bind_eq_ok_iff, ensure_eq_ok_iff, exists_and_left, exists_const] at h
  obtain ⟨-, -, replacement, hreplacement, rfl, ⟨same, bound⟩, hcanary, ⟨existing, hexisting, hcurrent, hspent, -⟩,
      h⟩ := h
  obtain rfl := transferCanary_none hcanary
  obtain rfl : bound = some existing := hexisting
  obtain ⟨manual, hmanual⟩ := transferCanary_history hcanary
  have hforce := (transferCanary_cases hcanary).2 manual hmanual
  split at h
  · cases h
  · simp only [bind_eq_ok_iff, ensure_eq_ok_iff, exists_and_left, exists_const, pure_eq_ok_iff, Prod.mk.injEq] at h
    obtain ⟨-, proof, -, -, row, -, -, -, -, rfl, -⟩ := h
    exact .single (.replace ⟨hmanual, hforce, hreplacement, hcurrent, hspent⟩) rfl

theorem expireUnsignedManual_silent {requestId reason : String} {proof : UnsignedExpiry}
    (h : expireUnsignedManual custody chain requestId reason journal = .ok (journal', proof)) :
    Silent custody journal journal' := by
  unfold expireUnsignedManual at h
  simp only [bind_eq_ok_iff, ensure_eq_ok_iff, exists_and_left, exists_const] at h
  obtain ⟨-, -, manual, hmanual, h⟩ := h
  split at h
  · cases h
  · rename_i request hlast
    simp only [bind_eq_ok_iff, ensure_eq_ok_iff, exists_and_left, exists_const] at h
    obtain ⟨hnamed, h⟩ := h
    split at h
    · cases h
    · simp only [bind_eq_ok_iff, ensure_eq_ok_iff, exists_and_left, exists_const, pure_eq_ok_iff, Prod.mk.injEq] at h
      obtain ⟨-, ⟨hunspent, -⟩, observed, -, -, -, -, rfl, -⟩ := h
      exact .single (.expire ⟨hmanual, hlast, hnamed, hunspent⟩) rfl

theorem observeEarnings_silent {maxBlocks : ℕ} {result : Bool}
    (h : observeEarnings custody chain maxBlocks journal = .ok (journal', result)) :
    Silent custody journal journal' := by
  unfold observeEarnings at h
  simp only [bind_eq_ok_iff, ensure_eq_ok_iff, exists_and_left, exists_const] at h
  obtain ⟨-, h⟩ := h
  split at h
  · rw [pure_eq_ok_iff, Prod.mk.injEq] at h
    exact .of_eq h.1.symm
  · simp only [bind_eq_ok_iff, ensure_eq_ok_iff, exists_and_left, exists_const, pure_eq_ok_iff, Prod.mk.injEq] at h
    obtain ⟨-, observed, -, scanned, hscanned, rfl, -⟩ := h
    exact scanFinalizedEarnings_silent hscanned

theorem observeEarningSource_silent {block : ℕ} {result : Unit}
    (h : observeEarningSource custody chain block journal = .ok (journal', result)) :
    Silent custody journal journal' := by
  unfold observeEarningSource at h
  simp only [bind_eq_ok_iff, ensure_eq_ok_iff, exists_and_left, exists_const] at h
  obtain ⟨-, h⟩ := h
  split at h
  · cases h
  · simp only [bind_eq_ok_iff, ensure_eq_ok_iff, exists_and_left, exists_const, pure_eq_ok_iff, Prod.mk.injEq] at h
    obtain ⟨-, -, -, observed, -, -, earned, -, recorded, hrecorded, rfl, -⟩ := h
    exact (recordEarning_silent hrecorded).note rfl

/-- A call other than a tick leaves the operations alone, or arms one intent. -/
theorem step_silent {call : CollectorCall} (hcall : ∀ input, call ≠ .tick input) :
    Silent custody journal (step custody journal (chain, call)) ∨ ∃ request existing manual,
      step custody journal (chain, call) = journal.event (.manualTransferArmed custody.policy.digest request) ∧
        Armable custody journal request existing manual := by
  cases call with
  | tick input => exact absurd rfl (hcall input)
  | armManualTransfer requested record =>
    rcases commit_cases (armManualTransfer custody chain requested record) journal with hsame | ⟨status, h⟩
    · exact .inl (.of_eq hsame)
    · rcases armManualTransfer_cases h with hsame | ⟨harmed, existing, manual, harmable⟩
      · exact .inl (.of_eq hsame)
      · exact .inr ⟨requested, existing, manual, harmed, harmable⟩
  | replaceFailedCanary requested reason =>
    exact .inl (commit_rel (.refl custody journal) fun _ _ h => replaceFailedCanary_silent h)
  | expireUnsignedManual requestId reason =>
    exact .inl (commit_rel (.refl custody journal) fun _ _ h => expireUnsignedManual_silent h)
  | observeEarnings maxBlocks =>
    exact .inl (commit_rel (.refl custody journal) fun _ _ h => observeEarnings_silent h)
  | observeEarningSource block =>
    exact .inl (commit_rel (.refl custody journal) fun _ _ h => observeEarningSource_silent h)

/-- What one call does to the journal of a transfer signer. -/
theorem step_changes (hpin : journal.pin = (custody.policy.digest, .transfer))
    (input : CollectorChain × CollectorCall) :
    Changes custody journal (step custody journal input) ∨ ∃ request existing manual,
      step custody journal input = journal.event (.manualTransferArmed custody.policy.digest request) ∧
        Armable custody journal request existing manual := by
  obtain ⟨chain, call⟩ := input
  by_cases hcall : ∃ input, call = .tick input
  · obtain ⟨input, rfl⟩ := hcall
    exact .inl (commit_rel .refl fun _ _ h => tick_changes hpin h)
  · rcases step_silent fun input heq => hcall ⟨input, heq⟩ with hsilent | harmed
    · exact .inl hsilent.changes
    · exact .inr harmed

/-- What every write keeps, and every armed intent, holds of every reachable journal of a transfer signer. -/
theorem reachable_inv {P : Journal → Prop} (hinit : P (initialJournal custody .transfer))
    (hchange : ∀ j j', P j → Change custody j j' → P j')
    (harm : ∀ j request existing manual, P j → Armable custody j request existing manual →
      P (j.event (.manualTransferArmed custody.policy.digest request)))
    (calls : List (CollectorChain × CollectorCall)) :
    P (reachable custody .transfer calls) ∧
      (reachable custody .transfer calls).pin = (custody.policy.digest, .transfer) := by
  refine run_inv (P := fun j => P j ∧ j.pin = (custody.policy.digest, .transfer)) ?_ calls ⟨hinit, rfl⟩
  rintro journal input ⟨hP, hpin⟩
  rcases step_changes hpin input with hchanges | ⟨request, existing, manual, heq, harmable⟩
  · generalize step custody journal input = journal' at hchanges
    induction hchanges with
    | refl => exact ⟨hP, hpin⟩
    | tail _ hlast ih => exact ⟨hchange _ _ ih.1 hlast, hlast.pin_eq.trans ih.2⟩
  · rw [heq]
    exact ⟨harm journal request existing manual hP harmable, hpin⟩

/-- The pin of a transfer signer never changes. -/
theorem pin_reachable (custody : Custody) (calls : List (CollectorChain × CollectorCall)) :
    (reachable custody .transfer calls).pin = (custody.policy.digest, .transfer) :=
  (reachable_inv (P := fun _ => True) trivial (fun _ _ _ _ => trivial) (fun _ _ _ _ _ _ => trivial) calls).2

end DittoSubnet.Treasury

import DittoSubnet.Kit.Outbox
import DittoSubnet.Treasury.Authority

/-!
# One claim in flight

Any number of processes run the collector on one journal of either role. The transaction of a call is serialized; the
bytes that a tick signed are broadcast after its commit, when the lock is released, and a process may crash at any point
(`Kit.Outbox`). A ticket is the number of the row that a tick inserted, with its bytes.

* `tick_pending`: with an unresolved row a tick signs nothing and only resolves that row.
* `tick_quiesced`: else it inserts at most one row, the next one.
* `single_flight`: at most one row is unresolved, and every broadcast is for a committed row, at most one for a row.
-/

namespace DittoSubnet.Treasury

open Kit

variable {custody : Custody} {journal journal' : Journal} {chain : CollectorChain} {input : TickInput}

/-! ## What a tick does to the operations -/

/-- A tick asks for a signature exactly when its plan is a reservation. -/
def CallsPrepare (custody : Custody) (chain : CollectorChain) (input : TickInput) (journal : Journal) : Prop :=
  custody.policy.enabled = true ∧
    ∃ reserved claim intent, tickPlan custody chain input journal = .ok (.reserve reserved claim intent)

/-- With an unresolved operation a tick plans to resolve it, or nothing. -/
theorem tickPlan_pending {pending : Operation} {plan : TickPlan} (hpending : journal.dispatching? = some pending)
    (h : tickPlan custody chain input journal = .ok plan) : ∃ resolved notes status,
      Resolves pending journal resolved ∧ (∀ e ∈ notes, e.isNote = true) ∧
        plan = .done (resolved.note notes) status := by
  obtain ⟨opened, hopened, -, hcases⟩ := tickPlan_cases h
  -- a canary is recorded at a quiesced journal only
  have hsame : opened = journal := by
    rcases hopened with heq | ⟨canary, hnew, -⟩
    · exact heq
    · have hquiesced := hnew.quiesced
      rw [hpending] at hquiesced
      cases hquiesced
  subst hsame
  rcases hcases with rfl | ⟨pending', observed, hpending', -, hsettle⟩ | ⟨bound, manual, observed, hq, -⟩
  · exact ⟨opened, [], _, .unchanged, by simp, by rw [Journal.note, List.append_nil]⟩
  · rw [hpending, Option.some.injEq] at hpending'
    subst hpending'
    exact settlePending_resolves hsettle
  · have hquiesced := hq.quiesced
    rw [hpending] at hquiesced
    cases hquiesced

/-- With an unresolved operation no signature is asked for. -/
theorem not_callsPrepare {pending : Operation} (hpending : journal.dispatching? = some pending) :
    ¬ CallsPrepare custody chain input journal := by
  rintro ⟨-, reserved, claim, intent, hplan⟩
  obtain ⟨resolved, notes, status, -, -, heq⟩ := tickPlan_pending hpending hplan
  cases heq

/-- With an unresolved operation a tick signs nothing and only resolves that operation. -/
theorem tick_pending {pending : Operation} {status : TickStatus} {signed : Option SignedOperation}
    (hpending : journal.dispatching? = some pending)
    (h : tick custody chain input journal = .ok (journal', status, signed)) :
    signed = none ∧ ∃ resolved notes, Resolves pending journal resolved ∧ (∀ e ∈ notes, e.isNote = true) ∧
      journal' = resolved.note notes := by
  unfold tick at h
  split at h
  · rw [pure_eq_ok_iff, Prod.mk.injEq, Prod.mk.injEq] at h
    obtain ⟨rfl, -, rfl⟩ := h
    exact ⟨rfl, journal, [], .unchanged, by simp, by rw [Journal.note, List.append_nil]⟩
  · rw [bind_eq_ok_iff] at h
    obtain ⟨plan, hplan, h⟩ := h
    obtain ⟨resolved, notes, status', hresolves, hnotes, rfl⟩ := tickPlan_pending hpending hplan
    rw [pure_eq_ok_iff, Prod.mk.injEq, Prod.mk.injEq] at h
    obtain ⟨rfl, -, rfl⟩ := h
    exact ⟨rfl, resolved, notes, hresolves, hnotes, rfl⟩

/-- A recorded canary leaves the operations alone. -/
theorem opened_operations {opened : Journal} (h : opened = journal ∨ ∃ canary, NewCanary custody journal canary ∧
    opened = journal.event (.transferCanaryArmed custody.policy.digest canary)) :
    opened.operations = journal.operations := by
  rcases h with rfl | ⟨canary, -, rfl⟩
  · rfl
  · rfl

/-- Without an unresolved operation a plan leaves the operations alone. -/
theorem tickPlan_quiesced {plan : TickPlan} (hquiesced : journal.dispatching? = none)
    (h : tickPlan custody chain input journal = .ok plan) :
    match plan with
    | .done written _ => written.operations = journal.operations
    | .reserve noted _ _ => noted.operations = journal.operations := by
  obtain ⟨opened, hopened, -, hcases⟩ := tickPlan_cases h
  have hops := opened_operations hopened
  rw [← hops]
  rcases hcases with rfl | ⟨pending, observed, hpending, -, -⟩ | ⟨bound, manual, observed, hq, hplan⟩
  · rfl
  · rw [Journal.dispatching?, hops] at hpending
    rw [Journal.dispatching?, hpending] at hquiesced
    cases hquiesced
  · cases hrole : input.role with
    | registration =>
      rw [hrole] at hplan
      rcases planRegistration_cases hplan with ⟨status, rfl⟩ | ⟨claim, intent, rfl⟩
      · rfl
      · rfl
    | transfer =>
      rw [hrole] at hplan
      have hchanges := planTransfer_changes hq hplan
      cases plan with
      | done written status => exact hchanges.operations
      | reserve noted claim intent =>
        obtain ⟨notes, _, _, -, rfl, -⟩ := hchanges
        rfl

/-- Without an unresolved operation a tick inserts at most the next one, and signs only what it inserts. -/
theorem tick_quiesced {status : TickStatus} {signed : Option SignedOperation} (hquiesced : journal.dispatching? = none)
    (h : tick custody chain input journal = .ok (journal', status, signed)) :
    (signed = none ∧ journal'.operations = journal.operations) ∨ ∃ bytes claim, signed = some bytes ∧
      journal'.operations = journal.operations ++ [Claim.operation claim (journal.maximum + 1) input.role bytes] := by
  unfold tick at h
  split at h
  · rw [pure_eq_ok_iff, Prod.mk.injEq, Prod.mk.injEq] at h
    obtain ⟨rfl, -, rfl⟩ := h
    exact .inl ⟨rfl, rfl⟩
  · rw [bind_eq_ok_iff] at h
    obtain ⟨plan, hplan, h⟩ := h
    have hops := tickPlan_quiesced hquiesced hplan
    cases plan with
    | done written status' =>
      rw [pure_eq_ok_iff, Prod.mk.injEq, Prod.mk.injEq] at h
      obtain ⟨rfl, -, rfl⟩ := h
      exact .inl ⟨rfl, hops⟩
    | reserve noted claim intent =>
      simp only [bind_eq_ok_iff, pure_eq_ok_iff, Prod.mk.injEq] at h
      obtain ⟨⟨reserved, bytes⟩, hreserved, rfl, -, rfl⟩ := h
      refine .inr ⟨bytes, claim, rfl, ?_⟩
      simp only [reserveSigned_eq hreserved, Journal.event_operations, Journal.insertOperation, Journal.maximum, hops]

/-! ## Processes -/

/-- The transaction of a call. A tick that signed leaves the number of its row and the bytes to broadcast. -/
def transaction (custody : Custody) (journal : Journal) (input : CollectorChain × CollectorCall) :
    Except String (Journal × Option (ℕ × String)) :=
  match input.2 with
  | .tick tickInput => do
    let (journal, _, signed) ← tick custody input.1 tickInput journal
    pure (journal, signed.map fun bytes => (journal.maximum, bytes.encoded))
  | _ => pure (step custody journal input, none)

/-- Operations are numbered in order and at most one is unresolved. -/
structure InFlight (journal : Journal) : Prop where
  ids : journal.operations.map (·.id) = List.range' 1 journal.operations.length
  single : (journal.operations.filter fun op => op.state = .dispatching).length ≤ 1

/-- The row of a ticket holds its bytes. -/
def Stored (journal : Journal) (ticket : ℕ × String) : Prop :=
  ∃ op ∈ journal.operations, op.id = ticket.1 ∧ op.signed.encoded = ticket.2

theorem Resolves.ids {pending : Operation} (h : Resolves pending journal journal') :
    journal'.operations.map (fun op => (op.id, op.signed)) = journal.operations.map fun op => (op.id, op.signed) := by
  cases h with
  | unchanged => rfl
  | progress through hle => exact map_updateOperation journal _ fun _ => rfl
  | settle state result hstate => exact map_updateOperation journal _ fun _ => rfl

theorem length_filter_updateOperation {f : Operation → Operation} {id : ℕ}
    (hf : ∀ op, (f op).state = .dispatching → op.state = .dispatching) :
    ((journal.updateOperation id f).operations.filter fun op => op.state = .dispatching).length ≤
      (journal.operations.filter fun op => op.state = .dispatching).length := by
  rw [← List.countP_eq_length_filter, ← List.countP_eq_length_filter, Journal.updateOperation, List.countP_map]
  apply List.countP_mono_left
  intro op _ hnew
  simp only [Function.comp_apply, decide_eq_true_eq] at hnew ⊢
  split at hnew
  · exact hf op hnew
  · exact hnew

theorem Resolves.single {pending : Operation} (h : Resolves pending journal journal') :
    (journal'.operations.filter fun op => op.state = .dispatching).length ≤
      (journal.operations.filter fun op => op.state = .dispatching).length := by
  cases h with
  | unchanged => exact le_rfl
  | progress through hle => exact length_filter_updateOperation fun _ hstate => hstate
  | settle state result hstate =>
    apply length_filter_updateOperation
    rintro op rfl
    cases hstatus : result.status <;> rw [hstatus] at hstate <;> cases hstate

/-- Only a tick writes operations. -/
theorem step_operations {call : CollectorCall} (hcall : ∀ tickInput, call ≠ .tick tickInput) :
    (step custody journal (chain, call)).operations = journal.operations := by
  rcases step_silent hcall with hsilent | ⟨request, existing, manual, heq, -⟩
  · exact hsilent.operations
  · rw [heq]
    rfl

/-- A transaction leaves the operations alone, resolves the unresolved one, or inserts and signs the next one. -/
theorem transaction_cases {input : CollectorChain × CollectorCall} {ticket : Option (ℕ × String)}
    (h : transaction custody journal input = .ok (journal', ticket)) :
    (ticket = none ∧ journal'.operations = journal.operations) ∨
    (ticket = none ∧ ∃ pending resolved, Resolves pending journal resolved ∧
      journal'.operations = resolved.operations) ∨
    (∃ role bytes claim, ticket = some (journal'.maximum, SignedOperation.encoded bytes) ∧
      journal.dispatching? = none ∧
      journal'.operations = journal.operations ++ [Claim.operation claim (journal.maximum + 1) role bytes]) := by
  obtain ⟨chain, call⟩ := input
  by_cases hcall : ∃ tickInput, call = .tick tickInput
  · obtain ⟨tickInput, rfl⟩ := hcall
    simp only [transaction, bind_eq_ok_iff, pure_eq_ok_iff, Prod.mk.injEq] at h
    obtain ⟨⟨committed, status, signed⟩, htick, rfl, rfl⟩ := h
    cases hpending : journal.dispatching? with
    | some pending =>
      obtain ⟨rfl, resolved, notes, hresolves, -, rfl⟩ := tick_pending hpending htick
      exact .inr (.inl ⟨rfl, pending, resolved, hresolves, rfl⟩)
    | none =>
      rcases tick_quiesced hpending htick with ⟨rfl, hops⟩ | ⟨bytes, claim, rfl, hops⟩
      · exact .inl ⟨rfl, hops⟩
      · exact .inr (.inr ⟨tickInput.role, bytes, claim, rfl, rfl, hops⟩)
  · have hstep : transaction custody journal (chain, call) = pure (step custody journal (chain, call), none) := by
      cases call with
      | tick tickInput => exact absurd ⟨tickInput, rfl⟩ hcall
      | _ => rfl
    rw [hstep, pure_eq_ok_iff, Prod.mk.injEq] at h
    obtain ⟨rfl, rfl⟩ := h
    exact .inl ⟨rfl, step_operations fun tickInput heq => hcall ⟨tickInput, heq⟩⟩

theorem ids_congr (h : journal'.operations.map (fun op => (op.id, op.signed)) =
    journal.operations.map fun op => (op.id, op.signed)) :
    journal'.operations.map (·.id) = journal.operations.map (·.id) ∧
      journal'.operations.length = journal.operations.length := by
  constructor
  · simpa [Function.comp_def] using congrArg (List.map Prod.fst) h
  · simpa using congrArg List.length h

/-- A row keeps its number and its bytes. -/
theorem Stored.congr {ticket : ℕ × String} (h : Stored journal ticket)
    (hops : journal'.operations.map (fun op => (op.id, op.signed)) =
      journal.operations.map fun op => (op.id, op.signed)) : Stored journal' ticket := by
  obtain ⟨op, hop, hid, hbytes⟩ := h
  have hmem := List.mem_map_of_mem (f := fun op : Operation => (op.id, op.signed)) hop
  rw [← hops] at hmem
  obtain ⟨new, hnew, heq⟩ := List.mem_map.1 hmem
  rw [Prod.mk.injEq] at heq
  exact ⟨new, hnew, heq.1.trans hid, by rw [heq.2]; exact hbytes⟩

/-- An inserted row is the only unresolved one. -/
theorem InFlight.insert (h : InFlight journal) {claim : Claim} {role : Role} {bytes : SignedOperation}
    (hquiesced : journal.dispatching? = none)
    (hops : journal'.operations = journal.operations ++ [claim.operation (journal.maximum + 1) role bytes]) :
    InFlight journal' ∧ journal'.maximum = journal.maximum + 1 := by
  have hids : journal'.operations.map (·.id) = List.range' 1 journal'.operations.length := by
    rw [hops, List.map_append, h.ids, List.length_append, List.map_singleton, List.length_singleton,
      List.range'_1_concat, maximum_eq_length h.ids]
    simp only [Claim.operation, Nat.add_comm]
  refine ⟨⟨hids, ?_⟩, ?_⟩
  · have hnone : (journal.operations.filter fun op => op.state = .dispatching) = [] := by
      rw [List.filter_eq_nil_iff]
      intro op hop
      simpa using not_dispatching hquiesced hop
    rw [hops, List.filter_append, hnone]
    exact le_rfl
  · rw [maximum_eq_length hids, maximum_eq_length h.ids, hops, List.length_append, List.length_singleton]

/-- The transactions of a collector issue tickets: the row of a broadcast is committed, and the next one. -/
theorem ticketed (custody : Custody) :
    Outbox.Ticketed (transaction custody) InFlight Journal.maximum Stored := by
  refine ⟨?_, ?_, ?_, ?_⟩
  · intro journal journal' input ticket h hcommit
    rcases transaction_cases hcommit with ⟨-, hops⟩ | ⟨-, pending, resolved, hresolves, hops⟩ |
      ⟨role, bytes, claim, -, hquiesced, hops⟩
    · exact ⟨by rw [hops]; exact h.ids, by rw [hops]; exact h.single⟩
    · obtain ⟨hids, hlen⟩ := ids_congr hresolves.ids
      refine ⟨?_, ?_⟩
      · rw [hops, hids, hlen]
        exact h.ids
      · rw [hops]
        exact hresolves.single.trans h.single
    · exact (h.insert hquiesced hops).1
  · intro journal journal' input ticket stored h hcommit hstored
    rcases transaction_cases hcommit with ⟨-, hops⟩ | ⟨-, pending, resolved, hresolves, hops⟩ |
      ⟨role, bytes, claim, -, hquiesced, hops⟩
    · exact hstored.congr (by rw [hops])
    · exact hstored.congr (by rw [hops]; exact hresolves.ids)
    · obtain ⟨op, hop, hrow⟩ := hstored
      exact ⟨op, by rw [hops]; exact List.mem_append_left _ hop, hrow⟩
  · intro journal journal' input ticket h hcommit
    rcases transaction_cases hcommit with ⟨-, hops⟩ | ⟨-, pending, resolved, hresolves, hops⟩ |
      ⟨role, bytes, claim, -, hquiesced, hops⟩
    · rw [Journal.maximum, Journal.maximum, hops]
    · rw [Journal.maximum, Journal.maximum, hops, (ids_congr hresolves.ids).1]
    · rw [(h.insert hquiesced hops).2]
      exact Nat.le_succ _
  · intro journal journal' input ticket h hcommit
    rcases transaction_cases hcommit with ⟨hnone, -⟩ | ⟨hnone, -⟩ | ⟨role, bytes, claim, hticket, hquiesced, hops⟩
    · cases hnone
    · cases hnone
    · rw [Option.some.injEq] at hticket
      subst hticket
      have hmaximum := (h.insert hquiesced hops).2
      refine ⟨by rw [hmaximum]; exact Nat.lt_succ_self _, le_rfl, ?_⟩
      refine ⟨claim.operation (journal.maximum + 1) role bytes, ?_, hmaximum.symm, rfl⟩
      rw [hops]
      exact List.mem_append_right _ (List.mem_singleton_self _)

/-- The processes, their journal and the broadcasts after some steps. -/
def interleaved {P : Type} [DecidableEq P] (custody : Custody) (role : Role)
    (actions : List (Outbox.Action P (CollectorChain × CollectorCall))) : Outbox.System P Journal String :=
  run (Outbox.act (transaction custody)) (Outbox.start (initialJournal custody role)) actions

/-- For every interleaving of processes that run the collector and crash at any point: at most one operation is
unresolved; what a process is about to broadcast and what was broadcast is stored in a committed row, at most one
broadcast for a row; and while an operation is unresolved a tick asks for no signature and only resolves that
operation. -/
theorem single_flight {P : Type} [DecidableEq P] (custody : Custody) (role : Role)
    (actions : List (Outbox.Action P (CollectorChain × CollectorCall))) :
    ((interleaved custody role actions).state.operations.filter fun op => op.state = .dispatching).length ≤ 1 ∧
    (∀ p ticket, (interleaved custody role actions).held p = some ticket →
      Stored (interleaved custody role actions).state ticket) ∧
    (∀ ticket ∈ (interleaved custody role actions).sent, Stored (interleaved custody role actions).state ticket) ∧
    ((interleaved custody role actions).sent.map Prod.fst).Nodup ∧
    (∀ pending, (interleaved custody role actions).state.dispatching? = some pending → ∀ chain input,
      ¬ CallsPrepare custody chain input (interleaved custody role actions).state ∧
      ∀ journal' status signed,
        tick custody chain input (interleaved custody role actions).state = .ok (journal', status, signed) →
        signed = none ∧ ∃ resolved notes, Resolves pending (interleaved custody role actions).state resolved ∧
          (∀ e ∈ notes, e.isNote = true) ∧ journal' = resolved.note notes) := by
  have hinit : InFlight (initialJournal custody role) := ⟨rfl, Nat.zero_le 1⟩
  have hinv : Outbox.Inv InFlight Journal.maximum Stored (interleaved custody role actions) :=
    Outbox.inv_run (ticketed custody) hinit actions
  refine ⟨hinv.state_good.single, ?_, ?_, hinv.sent_once, ?_⟩
  · intro p ticket hheld
    exact (hinv.held_stored p ticket hheld).1
  · intro ticket hsent
    exact (hinv.sent_stored ticket hsent).1
  · intro pending hpending chain input
    refine ⟨not_callsPrepare hpending, ?_⟩
    intro journal' status signed htick
    exact tick_pending hpending htick

end DittoSubnet.Treasury

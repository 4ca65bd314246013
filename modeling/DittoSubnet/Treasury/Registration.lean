import DittoSubnet.Treasury.Dispatch

/-!
# The lifetime budget of registrations

On the journal of a registration signer every attempt is charged when it is reserved, with its burn limit and its fee
ceiling, and keeps its charge whatever becomes of it. An attempt is reserved only at `recovery_cooldown_blocks` or
more above the highest block of the attempts before it. So, whatever heads the chain shows and wherever a process
stops, the charges never exceed `registration_budget_rao`, the attempts are spaced, and each charge covers its call
(`registration_budget`).
-/

namespace DittoSubnet.Treasury

open Kit Relation

variable {custody : Custody} {journal journal' : Journal} {chain : CollectorChain}

/-! ## Charges -/

/-- What an operation is charged for: nothing of it changes after the insert. -/
structure Charge where
  id : ℕ
  amount : ℕ
  atBlock : ℕ
  call : Call
  feeRao : ℕ
  deriving DecidableEq

def Operation.charge (op : Operation) : Charge := ⟨op.id, op.amount, op.atBlock, op.call, op.signed.feeRao⟩

/-- The charges of every operation ever inserted. -/
def Journal.charges (journal : Journal) : List Charge := journal.operations.map Operation.charge

/-- A charge covers the burn limit of its call with the fee ceiling, and the fee is under the ceiling. -/
def Charge.Covered (policy : CollectorPolicy) (charge : Charge) : Prop :=
  ∃ limit, charge.call = .registerLimit 118 policy.collectorHotkey limit ∧
    limit + policy.maxFeeRao ≤ charge.amount ∧ charge.feeRao ≤ policy.maxFeeRao

/-- The charges of a registration signer. -/
structure Charged (policy : CollectorPolicy) (charges : List Charge) : Prop where
  budget : (charges.map (·.amount)).sum ≤ policy.registrationBudgetRao
  spaced : charges.Pairwise fun a b => a.atBlock + policy.recoveryCooldownBlocks ≤ b.atBlock
  covered : ∀ c ∈ charges, c.Covered policy

/-- A charge that a tick may add. -/
structure Chargeable (policy : CollectorPolicy) (charges : List Charge) (charge : Charge) : Prop where
  budget : (charges.map (·.amount)).sum + charge.amount ≤ policy.registrationBudgetRao
  cooled : ∀ c ∈ charges, c.atBlock + policy.recoveryCooldownBlocks ≤ charge.atBlock
  covered : charge.Covered policy

theorem Charged.append {policy : CollectorPolicy} {charges : List Charge} {charge : Charge}
    (h : Charged policy charges) (hnew : Chargeable policy charges charge) : Charged policy (charges ++ [charge]) where
  budget := by
    simp only [List.map_append, List.map_cons, List.map_nil, List.sum_append, List.sum_singleton]
    exact hnew.budget
  spaced := by
    rw [List.pairwise_append]
    refine ⟨h.spaced, List.pairwise_singleton _ _, ?_⟩
    intro a ha b hb
    rw [List.mem_singleton.1 hb]
    exact hnew.cooled a ha
  covered := by
    intro c hc
    rcases List.mem_append.1 hc with hc | hc
    · exact h.covered c hc
    · rw [List.mem_singleton.1 hc]
      exact hnew.covered

/-! ## The calls of a registration signer -/

/-- An observed block that no attempt forbids lies above every attempt by the cooldown. -/
theorem cooled_of_max {blocks : List ℕ} {block cooldown : ℕ}
    (h : ¬ ∃ last ∈ blocks.max?, block < last + cooldown) : ∀ b ∈ blocks, b + cooldown ≤ block := by
  intro b hb
  cases hmax : blocks.max? with
  | none =>
    rw [List.max?_eq_none_iff.1 hmax] at hb
    cases hb
  | some last =>
    have hle : b ≤ last := (List.max?_eq_some_iff.1 hmax).2 b hb
    have hlast : ¬ block < last + cooldown := fun hlt => h ⟨last, hmax, hlt⟩
    omega

/-- A registration that is planned can be charged. -/
theorem planRegistration_charge {manual : List ManualTransfer} {observed : Observation} {noted : Journal}
    {claim : Claim} {intent : Option ManualTransfer}
    (h : planRegistration custody journal manual observed = .ok (.reserve noted claim intent)) : noted = journal ∧
      claim.amount = custody.policy.maxRegistrationBurnRao + custody.policy.maxFeeRao ∧
      claim.call = .registerLimit 118 custody.policy.collectorHotkey custody.policy.maxRegistrationBurnRao ∧
      (journal.operations.map (·.amount)).sum + claim.amount ≤ custody.policy.registrationBudgetRao ∧
      ∀ op ∈ journal.operations, op.atBlock + custody.policy.recoveryCooldownBlocks ≤ claim.observed.block := by
  unfold planRegistration at h
  split at h
  · cases pure_eq_ok_iff.1 h
  · split at h
    · cases pure_eq_ok_iff.1 h
    · rename_i hcooled
      simp only [bind_eq_ok_iff, ensure_eq_ok_iff, exists_and_left, exists_const] at h
      obtain ⟨⟨-, hbudget⟩, -, hreserve⟩ := h
      injection reserveClaim_eq hreserve with hnoted hclaim hintent
      rw [hnoted, hclaim]
      refine ⟨rfl, rfl, rfl, ?_, ?_⟩
      · rw [add_comm]
        exact hbudget
      · intro op hop
        exact cooled_of_max hcooled _ (List.mem_map_of_mem hop)

theorem Resolves.charges {pending : Operation} (h : Resolves pending journal journal') :
    journal'.charges = journal.charges ∧ journal'.pin = journal.pin := by
  cases h with
  | unchanged => exact ⟨rfl, rfl⟩
  | progress through hle => exact ⟨map_updateOperation journal _ fun _ => rfl, rfl⟩
  | settle state result hstate => exact ⟨map_updateOperation journal _ fun _ => rfl, rfl⟩

/-- A signed claim keeps its fee under the ceiling. -/
theorem reserveSigned_fee {role : Role} {claim : Claim} {intent : Option ManualTransfer} {signed : SignedOperation}
    (h : reserveSigned custody chain role journal claim intent = .ok (journal', signed)) :
    signed.feeRao ≤ custody.policy.maxFeeRao := by
  unfold reserveSigned at h
  simp only [bind_eq_ok_iff, ensure_eq_ok_iff, exists_and_left, exists_const, pure_eq_ok_iff, Prod.mk.injEq] at h
  obtain ⟨signed', -, hfee, -, -, rfl⟩ := h
  exact hfee

/-- What a call does to the charges of a registration signer: nothing, or one charge more. -/
def Charges (custody : Custody) (journal journal' : Journal) : Prop :=
  journal'.pin = journal.pin ∧ (journal'.charges = journal.charges ∨
    ∃ charge, Chargeable custody.policy journal.charges charge ∧ journal'.charges = journal.charges ++ [charge])

/-- A tick of a registration signer. -/
theorem tick_registration {input : TickInput} {result : TickStatus × Option SignedOperation}
    (hpin : journal.pin = (custody.policy.digest, .registration))
    (h : tick custody chain input journal = .ok (journal', result)) : Charges custody journal journal' := by
  unfold tick at h
  split at h
  · rw [pure_eq_ok_iff, Prod.mk.injEq] at h
    rw [← h.1]
    exact ⟨rfl, .inl rfl⟩
  · rw [bind_eq_ok_iff] at h
    obtain ⟨plan, hplan, h⟩ := h
    obtain ⟨opened, hopened, hrole, hcases⟩ := tickPlan_cases hplan
    have hops := opened_operations hopened
    have hopenedPin : opened.pin = journal.pin := by
      rcases hopened with rfl | ⟨canary, -, rfl⟩
      · rfl
      · rfl
    have hopenedCharges : opened.charges = journal.charges := by rw [Journal.charges, hops, Journal.charges]
    rw [hpin, Prod.mk.injEq] at hrole
    rw [← hrole.2] at hcases
    rcases hcases with rfl | ⟨pending, observed, hpending, -, hsettle⟩ | ⟨bound, manual, observed, -, hplan⟩
    · rw [pure_eq_ok_iff, Prod.mk.injEq] at h
      rw [← h.1]
      exact ⟨hopenedPin, .inl hopenedCharges⟩
    · obtain ⟨resolved, notes, status, hresolves, -, rfl⟩ := settlePending_resolves hsettle
      rw [pure_eq_ok_iff, Prod.mk.injEq] at h
      rw [← h.1]
      exact ⟨hresolves.charges.2.trans hopenedPin, .inl (hresolves.charges.1.trans hopenedCharges)⟩
    · rcases planRegistration_cases hplan with ⟨status, rfl⟩ | ⟨claim, intent, rfl⟩
      · rw [pure_eq_ok_iff, Prod.mk.injEq] at h
        rw [← h.1]
        exact ⟨hopenedPin, .inl hopenedCharges⟩
      · simp only [bind_eq_ok_iff, pure_eq_ok_iff, Prod.mk.injEq] at h
        obtain ⟨⟨reserved, signed⟩, hsigned, rfl, -⟩ := h
        obtain ⟨-, hamount, hcall, hbudget, hcooled⟩ := planRegistration_charge hplan
        rw [reserveSigned_eq hsigned]
        refine ⟨hopenedPin, .inr ⟨⟨opened.maximum + 1, claim.amount, claim.observed.block, claim.call,
          signed.feeRao⟩, ⟨?_, ?_, ?_⟩, ?_⟩⟩
        · have hsum : (journal.charges.map (·.amount)).sum = (opened.operations.map (·.amount)).sum := by
            rw [hops, Journal.charges, List.map_map]
            rfl
          rw [hsum]
          exact hbudget
        · intro c hc
          obtain ⟨op, hop, rfl⟩ := List.mem_map.1 hc
          exact hcooled op (hops ▸ hop)
        · exact ⟨_, hcall, hamount.ge, reserveSigned_fee hsigned⟩
        · rw [← hopenedCharges]
          simp [Journal.charges, Journal.insertOperation, Operation.charge, Claim.operation]

/-- A call of a registration signer. -/
theorem step_registration (hpin : journal.pin = (custody.policy.digest, .registration))
    (input : CollectorChain × CollectorCall) : Charges custody journal (step custody journal input) := by
  obtain ⟨chain, call⟩ := input
  by_cases hcall : ∃ tickInput, call = .tick tickInput
  · obtain ⟨tickInput, rfl⟩ := hcall
    exact commit_rel ⟨rfl, .inl rfl⟩ fun _ _ h => tick_registration hpin h
  · rcases step_silent fun tickInput heq => hcall ⟨tickInput, heq⟩ with hsilent | ⟨request, existing, manual, heq, -⟩
    · refine ⟨?_, .inl (congrArg (List.map Operation.charge) hsilent.operations)⟩
      have hchanges := hsilent.changes
      generalize step custody journal (chain, call) = written at hchanges
      induction hchanges with
      | refl => rfl
      | tail _ hlast ih => exact hlast.pin_eq.trans ih
    · rw [heq]
      exact ⟨rfl, .inl rfl⟩

/-! ## Runs -/

/-- A run from a charged journal of a registration signer keeps it charged, and keeps its charges in front. -/
theorem run_registration (calls : List (CollectorChain × CollectorCall)) :
    ∀ {journal : Journal}, journal.pin = (custody.policy.digest, .registration) →
      Charged custody.policy journal.charges →
      (run (step custody) journal calls).pin = (custody.policy.digest, .registration) ∧
        Charged custody.policy (run (step custody) journal calls).charges ∧
        journal.charges <+: (run (step custody) journal calls).charges := by
  induction calls with
  | nil => exact fun hpin hcharged => ⟨hpin, hcharged, List.prefix_rfl⟩
  | cons input calls ih =>
    intro journal hpin hcharged
    obtain ⟨hpin', hcharges⟩ := step_registration hpin input
    rcases hcharges with heq | ⟨charge, hnew, heq⟩
    · rw [← heq] at hcharged ⊢
      exact ih (hpin'.trans hpin) hcharged
    · obtain ⟨hlast, hall, hfront⟩ := ih (hpin'.trans hpin) (heq ▸ hcharged.append hnew)
      exact ⟨hlast, hall, (List.prefix_append journal.charges [charge]).trans (heq ▸ hfront)⟩

/-- **The lifetime budget.** In every run on the journal of a registration signer the charges of all operations ever
inserted stay within the budget, spaced by the cooldown, and cover their calls; no charge is dropped or changed. -/
theorem registration_budget (custody : Custody) (calls more : List (CollectorChain × CollectorCall)) :
    Charged custody.policy (reachable custody .registration calls).charges ∧
      (reachable custody .registration calls).charges <+:
        (reachable custody .registration (calls ++ more)).charges := by
  have hinit : Charged custody.policy (initialJournal custody .registration).charges :=
    ⟨Nat.zero_le _, List.Pairwise.nil, fun _ hc => nomatch hc⟩
  obtain ⟨hpin, hcharged, -⟩ := run_registration calls rfl hinit
  refine ⟨hcharged, ?_⟩
  have happend : reachable custody .registration (calls ++ more) =
      run (step custody) (reachable custody .registration calls) more := run_append _ _ _ _
  rw [happend]
  exact (run_registration more hpin hcharged).2.2

end DittoSubnet.Treasury

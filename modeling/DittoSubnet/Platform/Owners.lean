import DittoSubnet.Kit.Memo
import DittoSubnet.Kit.Walk
import DittoSubnet.Platform.Tickets
import Mathlib.Data.Prod.Lex

/-!
# Owners in the scoring queue

Which submissions count as one owner's, after `ditto/db/queries/queue_order.py`: `OwnerLinkage` and its resolvers,
the reads that the capacity gate asks of an owner (`selectedOwnerAgentId`, `ownerLiveLeaseAgentIds`), the gate
itself (`ownerCapacityGate`) and the queue preview.

The batch resolver of the preview agrees with the allocator's (`resolveOwnerLinkageBatch_eq`). Both callers of the
gate ask the two reads once for each tuple of lock keys. Linkages with the same keys share their coldkeys, yet an
attestation may give one of them a hotkey that the other lacks, and an unpaid submission of that hotkey then belongs
to one of them only (`Straddles`). So the memoised answers are those of each candidate exactly when no such
submission is leased, or pinned first (`owner_memo_exact_iff`), and there are tables where they differ
(`sibling_order_matters`).
-/

namespace DittoSubnet.Platform.Queue

open Kit

/-! ## Linkage -/

/-- Every key that counts as the same miner for capacity serialization. -/
structure OwnerLinkage where
  hotkey : String
  coldkeys : Finset String
  hotkeys : Finset String
  deriving DecidableEq

/-- `advisory_lock_keys`: the owner identities to lock. -/
def OwnerLinkage.advisoryLockKeys (linkage : OwnerLinkage) : List String :=
  if linkage.coldkeys ≠ ∅ then (sorted linkage.coldkeys).map ("coldkey:" ++ ·) else ["hotkey:" ++ linkage.hotkey]

/-- The columns of `agents` that the queue reads of an owner. -/
structure Agent where
  agentId : String
  minerHotkey : String
  evaluating : Bool
  createdAt : ℤ
  deriving DecidableEq

/-- A row of `evaluation_payments`. A payment that waits for another artifact has no agent. -/
structure EvaluationPayment where
  agentId : Option String
  minerHotkey : String
  minerColdkey : String
  deriving DecidableEq

structure OwnerAttestation where
  netuid : ℕ
  hotkeyLo : String
  hotkeyHi : String
  revokedAt : Option ℤ
  deriving DecidableEq

structure Score (K : Type) where
  agentId : String
  benchVersion : ℕ
  validatorHotkey : String
  composite : K
  createdAt : ℤ

/-- The tables, with the keys that the schema enforces. -/
structure Tables (K : Type) where
  agents : List Agent
  payments : List EvaluationPayment
  attestations : List OwnerAttestation
  tickets : Tickets
  scores : List (Score K)
  agents_pkey : (agents.map (·.agentId)).Nodup
  payments_agent_id_key : (payments.filterMap (·.agentId)).Nodup
  payments_agent_id_miner_hotkey_fkey :
    ∀ p ∈ payments, ∀ id ∈ p.agentId, ∃ a ∈ agents, a.agentId = id ∧ a.minerHotkey = p.minerHotkey

/-- `same_owner_predicate`, with the payment that is outer-joined to the agent. -/
def OwnerLinkage.SameOwner (linkage : OwnerLinkage) (agent : Agent) (payment : Option EvaluationPayment) : Prop :=
  if linkage.coldkeys ≠ ∅ then
    (∃ p ∈ payment, p.minerColdkey ∈ linkage.coldkeys) ∨ (payment = none ∧ agent.minerHotkey ∈ linkage.hotkeys)
  else payment = none ∧ agent.minerHotkey = linkage.hotkey

instance (linkage : OwnerLinkage) (agent : Agent) (payment : Option EvaluationPayment) :
    Decidable (linkage.SameOwner agent payment) := by
  unfold OwnerLinkage.SameOwner; infer_instance

section Linkage

variable {K : Type} (t : Tables K) (netuid : ℕ)

/-- The payment of an agent. -/
def Tables.paymentOf (agentId : String) : Option EvaluationPayment :=
  t.payments.find? fun p => p.agentId = some agentId

/-- The hotkeys that an attestation in force links to a hotkey. -/
def Tables.directlyAttested (hotkey : String) : Finset String :=
  ((t.attestations.filter fun a =>
      a.netuid = netuid ∧ a.revokedAt = none ∧ (a.hotkeyLo = hotkey ∨ a.hotkeyHi = hotkey)).map
    fun a => if a.hotkeyLo = hotkey then a.hotkeyHi else a.hotkeyLo).toFinset

/-- The linkage of an agent's row. -/
def Tables.ownerLinkage (agent : Agent) : OwnerLinkage :=
  let ownerHotkeys := insert agent.minerHotkey (t.directlyAttested netuid agent.minerHotkey)
  let linked := ((t.payments.filter fun p => p.minerHotkey ∈ ownerHotkeys).map (·.minerColdkey)).toFinset
  let coldkeys := match t.paymentOf agent.agentId with
    | some p => insert p.minerColdkey linked
    | none => linked
  { hotkey := agent.minerHotkey
    coldkeys := coldkeys
    hotkeys := if coldkeys ≠ ∅ then
        ownerHotkeys ∪ ((t.payments.filter fun p => p.minerColdkey ∈ coldkeys).map (·.minerHotkey)).toFinset
      else ownerHotkeys }

/-- `resolve_owner_linkage`; an unknown agent is an error. -/
def Tables.resolveOwnerLinkage (agentId : String) : Option OwnerLinkage :=
  (t.agents.find? fun a => a.agentId = agentId).map (t.ownerLinkage netuid)

/-- The hotkeys on the other side of a hotkey in rows that were read. -/
def directLinks (rows : List OwnerAttestation) (hotkey : String) : Finset String :=
  ((rows.filter fun a => a.hotkeyLo = hotkey).map (·.hotkeyHi)).toFinset ∪
    ((rows.filter fun a => a.hotkeyHi = hotkey).map (·.hotkeyLo)).toFinset

/-- `resolve_owner_linkage_batch`. -/
def Tables.resolveOwnerLinkageBatch (requested : List String) : List (String × OwnerLinkage) :=
  let agentRows := t.agents.filter fun a => a.agentId ∈ requested
  let ownerHotkeys := (agentRows.map (·.minerHotkey)).toFinset
  let links := t.attestations.filter fun a =>
    a.netuid = netuid ∧ a.revokedAt = none ∧ (a.hotkeyLo ∈ ownerHotkeys ∨ a.hotkeyHi ∈ ownerHotkeys)
  let paymentScopeHotkeys := ownerHotkeys ∪ ownerHotkeys.biUnion (directLinks links)
  -- hop one: every coldkey ever observed for these hotkeys
  let scopeRows := t.payments.filter fun p => p.minerHotkey ∈ paymentScopeHotkeys
  let reachableColdkeys := (scopeRows.map (·.minerColdkey)).toFinset ∪
    (agentRows.filterMap fun a => (t.paymentOf a.agentId).map (·.minerColdkey)).toFinset
  -- hop two: every hotkey those coldkeys have funded
  let fundedRows := t.payments.filter fun p => p.minerColdkey ∈ reachableColdkeys
  agentRows.map fun a =>
    let directlyAttested := directLinks links a.minerHotkey
    let coldkeysByHotkey := fun hotkey =>
      ((scopeRows.filter fun p => p.minerHotkey = hotkey).map (·.minerColdkey)).toFinset
    let linked := coldkeysByHotkey a.minerHotkey ∪ directlyAttested.biUnion coldkeysByHotkey
    let coldkeys := match t.paymentOf a.agentId with
      | some p => insert p.minerColdkey linked
      | none => linked
    let hotkeys := insert a.minerHotkey directlyAttested ∪ coldkeys.biUnion fun coldkey =>
      ((fundedRows.filter fun p => p.minerColdkey = coldkey).map (·.minerHotkey)).toFinset
    (a.agentId, OwnerLinkage.mk a.minerHotkey coldkeys hotkeys)

end Linkage

/-! ## Agreement of the two resolvers -/

section Resolvers

variable {K : Type} {t : Tables K} {netuid : ℕ}

theorem mem_directlyAttested {hotkey h : String} :
    h ∈ t.directlyAttested netuid hotkey ↔ ∃ a ∈ t.attestations, a.netuid = netuid ∧ a.revokedAt = none ∧
      ((a.hotkeyLo = hotkey ∧ a.hotkeyHi = h) ∨ (a.hotkeyHi = hotkey ∧ a.hotkeyLo = h)) := by
  simp only [Tables.directlyAttested, List.mem_toFinset, List.mem_map, List.mem_filter, decide_eq_true_eq]
  constructor
  · rintro ⟨a, ⟨ha, hnet, hlive, hside⟩, rfl⟩
    refine ⟨a, ha, hnet, hlive, ?_⟩
    by_cases hlo : a.hotkeyLo = hotkey
    · exact .inl ⟨hlo, by rw [if_pos hlo]⟩
    · exact .inr ⟨hside.resolve_left hlo, by rw [if_neg hlo]⟩
  · rintro ⟨a, ha, hnet, hlive, ⟨hlo, rfl⟩ | ⟨hhi, rfl⟩⟩
    · exact ⟨a, ⟨ha, hnet, hlive, .inl hlo⟩, if_pos hlo⟩
    · refine ⟨a, ⟨ha, hnet, hlive, .inr hhi⟩, ?_⟩
      by_cases hlo : a.hotkeyLo = hotkey
      · rw [if_pos hlo, hhi, hlo]
      · rw [if_neg hlo]

variable (t netuid) in
/-- The links read for a page of hotkeys are, at each of them, the links of that hotkey. -/
theorem directLinks_eq {owners : Finset String} {hotkey : String} (h : hotkey ∈ owners) :
    directLinks (t.attestations.filter fun a =>
      a.netuid = netuid ∧ a.revokedAt = none ∧ (a.hotkeyLo ∈ owners ∨ a.hotkeyHi ∈ owners)) hotkey =
      t.directlyAttested netuid hotkey := by
  ext k
  simp only [directLinks, Finset.mem_union, List.mem_toFinset, List.mem_map, List.mem_filter, decide_eq_true_eq,
    mem_directlyAttested]
  constructor
  · rintro (⟨a, ⟨⟨ha, hnet, hlive, -⟩, hlo⟩, rfl⟩ | ⟨a, ⟨⟨ha, hnet, hlive, -⟩, hhi⟩, rfl⟩)
    · exact ⟨a, ha, hnet, hlive, .inl ⟨hlo, rfl⟩⟩
    · exact ⟨a, ha, hnet, hlive, .inr ⟨hhi, rfl⟩⟩
  · rintro ⟨a, ha, hnet, hlive, ⟨hlo, rfl⟩ | ⟨hhi, rfl⟩⟩
    · exact .inl ⟨a, ⟨⟨ha, hnet, hlive, .inl (hlo ▸ h)⟩, hlo⟩, rfl⟩
    · exact .inr ⟨a, ⟨⟨ha, hnet, hlive, .inr (hhi ▸ h)⟩, hhi⟩, rfl⟩

/-- Coldkeys looked up hotkey by hotkey are those of the payments of these hotkeys. -/
theorem linkedColdkeys_eq {scope directly : Finset String} {hotkey : String}
    (hscope : insert hotkey directly ⊆ scope) :
    (((t.payments.filter fun p => p.minerHotkey ∈ scope).filter fun p => p.minerHotkey = hotkey).map
        (·.minerColdkey)).toFinset ∪
      directly.biUnion (fun h => (((t.payments.filter fun p => p.minerHotkey ∈ scope).filter fun p =>
        p.minerHotkey = h).map (·.minerColdkey)).toFinset) =
      ((t.payments.filter fun p => p.minerHotkey ∈ insert hotkey directly).map (·.minerColdkey)).toFinset := by
  ext k
  simp only [Finset.mem_union, Finset.mem_biUnion, List.mem_toFinset, List.mem_map, List.mem_filter,
    decide_eq_true_eq, Finset.mem_insert]
  constructor
  · rintro (⟨p, ⟨⟨hp, -⟩, hh⟩, rfl⟩ | ⟨h, hd, p, ⟨⟨hp, -⟩, hh⟩, rfl⟩)
    · exact ⟨p, ⟨hp, .inl hh⟩, rfl⟩
    · exact ⟨p, ⟨hp, .inr (hh ▸ hd)⟩, rfl⟩
  · rintro ⟨p, ⟨hp, hh | hd⟩, rfl⟩
    · exact .inl ⟨p, ⟨⟨hp, hscope (Finset.mem_insert.2 (.inl hh))⟩, hh⟩, rfl⟩
    · exact .inr ⟨_, hd, p, ⟨⟨hp, hscope (Finset.mem_insert.2 (.inr hd))⟩, rfl⟩, rfl⟩

/-- Hotkeys looked up coldkey by coldkey are those that these coldkeys have funded. -/
theorem fundedHotkeys_eq {reachable coldkeys own : Finset String} (hreach : coldkeys ⊆ reachable) :
    own ∪ coldkeys.biUnion (fun coldkey => (((t.payments.filter fun p => p.minerColdkey ∈ reachable).filter fun p =>
        p.minerColdkey = coldkey).map (·.minerHotkey)).toFinset) =
      if coldkeys ≠ ∅ then
        own ∪ ((t.payments.filter fun p => p.minerColdkey ∈ coldkeys).map (·.minerHotkey)).toFinset
      else own := by
  have hfunded : coldkeys.biUnion (fun coldkey => (((t.payments.filter fun p => p.minerColdkey ∈ reachable).filter
      fun p => p.minerColdkey = coldkey).map (·.minerHotkey)).toFinset) =
      ((t.payments.filter fun p => p.minerColdkey ∈ coldkeys).map (·.minerHotkey)).toFinset := by
    ext k
    simp only [Finset.mem_biUnion, List.mem_toFinset, List.mem_map, List.mem_filter, decide_eq_true_eq]
    constructor
    · rintro ⟨c, hc, p, ⟨⟨hp, -⟩, rfl⟩, rfl⟩
      exact ⟨p, ⟨hp, hc⟩, rfl⟩
    · rintro ⟨p, ⟨hp, hc⟩, rfl⟩
      exact ⟨_, hc, p, ⟨⟨hp, hreach hc⟩, rfl⟩, rfl⟩
  rw [hfunded]
  split
  · rfl
  · rename_i hempty
    rw [not_not] at hempty
    simp [hempty]

theorem get?_map_agents (l : List Agent) (f : Agent → OwnerLinkage) (agentId : String) :
    Dict.get? (l.map fun a => (a.agentId, f a)) agentId = (l.find? fun a => a.agentId = agentId).map f := by
  induction l with
  | nil => rfl
  | cons a l ih =>
    by_cases h : a.agentId = agentId
    · simp [Dict.get?, h]
    · simpa [Dict.get?, h] using ih

/-- The page resolver answers each requested agent as the allocator's resolver does. -/
theorem resolveOwnerLinkageBatch_eq {requested : List String} {agentId : String} (h : agentId ∈ requested) :
    Dict.get? (t.resolveOwnerLinkageBatch netuid requested) agentId = t.resolveOwnerLinkage netuid agentId := by
  rw [Tables.resolveOwnerLinkageBatch, get?_map_agents, Tables.resolveOwnerLinkage,
    find?_filter_of_imp fun a ha => decide_eq_true (of_decide_eq_true ha ▸ h)]
  cases hfind : t.agents.find? fun a => decide (a.agentId = agentId) with
  | none => rfl
  | some a =>
    have hid : a.agentId = agentId := by simpa using List.find?_some hfind
    have hrow : a ∈ t.agents.filter fun a => a.agentId ∈ requested :=
      List.mem_filter.2 ⟨List.mem_of_find?_eq_some hfind, decide_eq_true (hid ▸ h)⟩
    simp only [Option.map_some, Option.some.injEq]
    generalize t.agents.filter (fun a => a.agentId ∈ requested) = rows at hrow ⊢
    have hown : a.minerHotkey ∈ (rows.map (·.minerHotkey)).toFinset :=
      List.mem_toFinset.2 (List.mem_map_of_mem hrow)
    generalize (rows.map (·.minerHotkey)).toFinset = owners at hown ⊢
    -- the page reads the links and the payments of every hotkey that the linkage of `a` needs
    have hdirect := directLinks_eq t netuid hown
    generalize t.attestations.filter (fun a => a.netuid = netuid ∧ a.revokedAt = none ∧
      (a.hotkeyLo ∈ owners ∨ a.hotkeyHi ∈ owners)) = links at hdirect ⊢
    have hscope : insert a.minerHotkey (directLinks links a.minerHotkey) ⊆
        owners ∪ owners.biUnion (directLinks links) :=
      Finset.insert_subset (Finset.mem_union_left _ hown)
        ((Finset.subset_biUnion_of_mem (directLinks links) hown).trans Finset.subset_union_right)
    generalize owners ∪ owners.biUnion (directLinks links) = scope at hscope ⊢
    rw [linkedColdkeys_eq hscope, hdirect, fundedHotkeys_eq]
    · rfl
    · have hlinked : ((t.payments.filter fun p =>
          p.minerHotkey ∈ insert a.minerHotkey (t.directlyAttested netuid a.minerHotkey)).map
            (·.minerColdkey)).toFinset ⊆
          ((t.payments.filter fun p => p.minerHotkey ∈ scope).map (·.minerColdkey)).toFinset := by
        intro k hk
        simp only [List.mem_toFinset, List.mem_map, List.mem_filter, decide_eq_true_eq] at hk ⊢
        obtain ⟨p, ⟨hp, hh⟩, rfl⟩ := hk
        exact ⟨p, ⟨hp, hscope (hdirect.symm ▸ hh)⟩, rfl⟩
      cases hpay : t.paymentOf a.agentId with
      | none => exact hlinked.trans Finset.subset_union_left
      | some p =>
        refine Finset.insert_subset (Finset.mem_union_right _ ?_) (hlinked.trans Finset.subset_union_left)
        exact List.mem_toFinset.2 (List.mem_filterMap.2 ⟨a, hrow, by rw [hpay]; rfl⟩)

end Resolvers

/-! ## What the gate asks of an owner -/

/-- What the reads are asked with. `admits` is what the admission predicates of other tables answer. -/
structure Asking (K : Type) where
  benchVersion : ℕ
  now : ℤ
  provisionalContenderFloor : Option K
  capableValidatorHotkeys : Finset String
  admits : Agent → Bool

/-- The answers that the gate takes of an owner: its pinned generation and its live leases. -/
structure OwnerFacts where
  selected : Option String
  liveLeases : Finset String
  deriving DecidableEq

section Reads

variable {K : Type} [LE K] [DecidableLE K] (t : Tables K) (asking : Asking K)

/-- An agent has a live lease that occupies its owner's capacity. -/
def Tables.HoldsLease (now : ℤ) (agent : Agent) : Prop :=
  ∃ row ∈ t.tickets, row.1.agentId = agent.agentId ∧ row.2.Live now ∧ row.2.purpose ≠ .continualRetest ∧
    row.2.purpose ≠ .benchmarkCanary ∧ row.2.purpose ≠ .generatorRound

instance (now : ℤ) (agent : Agent) : Decidable (t.HoldsLease now agent) :=
  inferInstanceAs (Decidable (∃ row ∈ t.tickets, _))

/-- `owner_live_lease_agent_ids`. -/
def Tables.ownerLiveLeaseAgentIds (linkage : OwnerLinkage) (now : ℤ) : Finset String :=
  ((t.agents.filter fun a => t.HoldsLease now a ∧ linkage.SameOwner a (t.paymentOf a.agentId)).map
    (·.agentId)).toFinset

/-- The scoring tickets of an agent at the version asked for. -/
def Tables.versionTickets (agentId : String) : List (TicketKey × Ticket) :=
  t.tickets.filter fun row =>
    row.1.agentId = agentId ∧ row.2.purpose ≠ .benchmarkCanary ∧ row.1.benchVersion = asking.benchVersion

def Tables.ownerProgressStartedAt (agentId : String) : Option ℤ :=
  (((t.versionTickets asking agentId).filter fun row => row.2.Decided asking.now).map (·.2.issuedAt)).min?

def Tables.ownerFirstScore (agentId : String) : Option K :=
  (sortOn (fun s => toLex (s.createdAt, s.validatorHotkey)) (t.scores.filter fun s =>
    s.agentId = agentId ∧ s.benchVersion = asking.benchVersion)).head?.map (·.composite)

def Tables.ownerScoredCount (agentId : String) : ℕ :=
  (((t.versionTickets asking agentId).filter fun row => row.2.status = .scored).map
    (·.1.validatorHotkey)).toFinset.card

def Tables.ownerSpentCapable (agentId : String) : ℕ :=
  (((t.versionTickets asking agentId).filter fun row =>
    row.1.validatorHotkey ∈ asking.capableValidatorHotkeys ∧
      (row.2.status = .scored ∨ (row.2.status = .expired ∧ row.2.RetryBudgetSpent))).map
    (·.1.validatorHotkey)).toFinset.card

/-- The capable fleet, when it is large enough to tell, can still bring an agent to its quorum. -/
def Tables.OwnerQuorumReachable (agentId : String) : Prop :=
  scoringQuorum ≤ asking.capableValidatorHotkeys.card →
    scoringQuorum ≤ t.ownerScoredCount asking agentId +
      (asking.capableValidatorHotkeys.card - t.ownerSpentCapable asking agentId)

instance (agentId : String) : Decidable (t.OwnerQuorumReachable asking agentId) :=
  inferInstanceAs (Decidable (_ → _))

/-- A generation that can hold its owner's place, whoever the owner is. -/
def Tables.Pinnable (agent : Agent) : Prop :=
  agent.evaluating = true ∧ (t.ownerProgressStartedAt asking agent.agentId).isSome = true ∧
    t.OwnerQuorumReachable asking agent.agentId ∧
    (∀ floor ∈ asking.provisionalContenderFloor, ∃ s ∈ t.ownerFirstScore asking agent.agentId, floor ≤ s) ∧
    asking.admits agent = true

instance (agent : Agent) : Decidable (t.Pinnable asking agent) :=
  inferInstanceAs (Decidable (_ ∧ _ ∧ _ ∧ _ ∧ _))

/-- The order in which generations claim their owner's place. -/
def Tables.pinKey (agent : Agent) : ℤ ×ₗ ℤ ×ₗ String :=
  toLex ((t.ownerProgressStartedAt asking agent.agentId).getD 0, toLex (agent.createdAt, agent.agentId))

/-- `selected_owner_agent_id`. -/
def Tables.selectedOwnerAgentId (linkage : OwnerLinkage) : Option String :=
  (sortOn (t.pinKey asking) (t.agents.filter fun a =>
    t.Pinnable asking a ∧ linkage.SameOwner a (t.paymentOf a.agentId))).head?.map (·.agentId)

/-- Both reads, for one linkage. -/
def Tables.ownerFacts (linkage : OwnerLinkage) : OwnerFacts where
  selected := t.selectedOwnerAgentId asking linkage
  liveLeases := t.ownerLiveLeaseAgentIds linkage asking.now

/-- `issue_ticket`'s reads of the owner of a candidate: each tuple of lock keys is asked once. -/
def Tables.askOwner (netuid : ℕ) (ownerFacts : Dict (List String) OwnerFacts) (agent : Agent) :
    OwnerFacts × Dict (List String) OwnerFacts :=
  Memo.ask (fun a => (t.ownerLinkage netuid a).advisoryLockKeys)
    (fun a => t.ownerFacts asking (t.ownerLinkage netuid a)) ownerFacts agent

/-- The answers that a walk over candidates uses. -/
def Tables.walkFacts (netuid : ℕ) (walk : List Agent) : List (Agent × OwnerFacts) :=
  Memo.answers (fun a => (t.ownerLinkage netuid a).advisoryLockKeys)
    (fun a => t.ownerFacts asking (t.ownerLinkage netuid a)) [] walk

end Reads

/-! ## The capacity gate and the preview -/

/-- Why a ranked submission cannot be leased on the next poll. -/
inductive QueueGate
  | previousGeneration
  | ownerSerialized
  | similaritySerialized
  | notLeasable
  deriving DecidableEq

/-- `OWNER_CONCURRENT_SUBMISSION_LIMIT_DEFAULT`. -/
def ownerConcurrentSubmissionLimitDefault : ℤ := 2

/-- `owner_capacity_gate`. -/
def ownerCapacityGate (agentId : String) (facts : OwnerFacts) (concurrentSubmissionLimit : ℤ) (lastResort : Bool)
    (similarLeases : Finset String) (similarityLimit : ℤ) : Option QueueGate :=
  if facts.selected = some agentId then none
  else if (if lastResort then max 1 concurrentSubmissionLimit else 1) < (facts.liveLeases.erase agentId).card + 1 then
    some .ownerSerialized
  else if lastResort = false ∧ facts.selected ≠ none then some .ownerSerialized
  else if max 1 similarityLimit < (similarLeases.erase agentId).card + 1 then some .similaritySerialized
  else none

section Preview

variable {K : Type} [LE K] [DecidableLE K] (t : Tables K) (netuid : ℕ) (asking : Asking K)

/-- The rows that a preview ranks, in queue order, with what other tables answer about them. -/
structure Preview where
  requested : List String
  ordered : List Agent
  previousGeneration : List String
  offered : Agent → Bool
  twins : String → Finset String
  similarityLimit : ℤ
  ordered_requested : ∀ a ∈ ordered, a ∈ t.agents ∧ a.agentId ∈ requested

/-- A row of the preview, with the answers about its owner that it used. -/
structure PreviewRow where
  agent : Agent
  facts : Option OwnerFacts
  gate : Option QueueGate

variable {t}

/-- Places of the quorum of an agent are free, and the candidate filter admits it. -/
def Preview.Leasable (p : Preview t) (agent : Agent) : Prop :=
  ((t.versionTickets asking agent.agentId).filter fun row => row.2.Decided asking.now).length < scoringQuorum ∧
    p.offered agent = true

instance (p : Preview t) (agent : Agent) : Decidable (p.Leasable asking agent) := inferInstanceAs (Decidable (_ ∧ _))

/-- The loop of `preview_queue_order`; both memo tables are one. -/
def Preview.rows (p : Preview t) : Dict (List String) OwnerFacts → List Agent → List PreviewRow
  | _, [] => []
  | memo, agent :: rest =>
    if agent.agentId ∈ p.previousGeneration then ⟨agent, none, some .previousGeneration⟩ :: p.rows memo rest
    else if ¬ p.Leasable asking agent then ⟨agent, none, some .notLeasable⟩ :: p.rows memo rest
    else match Dict.get? (t.resolveOwnerLinkageBatch netuid p.requested) agent.agentId with
      | none =>
        ⟨agent, none, ownerCapacityGate agent.agentId ⟨none, ∅⟩ ownerConcurrentSubmissionLimitDefault false
            (p.twins agent.agentId) p.similarityLimit⟩ ::
          p.rows memo rest
      | some linkage =>
        let answer := Memo.ask OwnerLinkage.advisoryLockKeys (t.ownerFacts asking) memo linkage
        ⟨agent, some answer.1,
          ownerCapacityGate agent.agentId answer.1 ownerConcurrentSubmissionLimitDefault false
            (p.twins agent.agentId) p.similarityLimit⟩ ::
          p.rows answer.2 rest

/-- The rows whose owner a preview asks about. -/
def Preview.asked (p : Preview t) : List Agent :=
  p.ordered.filter fun a => a.agentId ∉ p.previousGeneration ∧ p.Leasable asking a

end Preview

/-! ## The submissions that tell two linkages apart -/

section Straddling

variable {K : Type} {t : Tables K} {netuid : ℕ}

theorem hotkey_ne_coldkey (a b : String) : "hotkey:" ++ a ≠ "coldkey:" ++ b := by
  intro h
  have hl := congrArg (fun s => s.toList.head?) h
  simp at hl

/-- Lock keys tell the coldkeys, and the hotkey of a linkage that has none. -/
theorem advisoryLockKeys_eq_iff {linkage other : OwnerLinkage} :
    linkage.advisoryLockKeys = other.advisoryLockKeys ↔
      linkage.coldkeys = other.coldkeys ∧ (linkage.coldkeys = ∅ → linkage.hotkey = other.hotkey) := by
  simp only [OwnerLinkage.advisoryLockKeys]
  by_cases hl : linkage.coldkeys = ∅ <;> by_cases ho : other.coldkeys = ∅
  · rw [if_neg (not_not.2 hl), if_neg (not_not.2 ho)]
    constructor
    · intro h
      exact ⟨hl.trans ho.symm, fun _ => (String.append_right_inj _).1 (List.head_eq_of_cons_eq h)⟩
    · rintro ⟨-, h⟩
      rw [h hl]
  · rw [if_neg (not_not.2 hl), if_pos ho]
    refine iff_of_false (fun h => ?_) fun h => ho (h.1 ▸ hl)
    cases hs : sorted other.coldkeys with
    | nil => exact sorted_ne_nil ho hs
    | cons k ks =>
      rw [hs] at h
      exact hotkey_ne_coldkey _ _ (List.head_eq_of_cons_eq h)
  · rw [if_pos hl, if_neg (not_not.2 ho)]
    refine iff_of_false (fun h => ?_) fun h => hl (h.1.trans ho)
    cases hs : sorted linkage.coldkeys with
    | nil => exact sorted_ne_nil hl hs
    | cons k ks =>
      rw [hs] at h
      exact hotkey_ne_coldkey _ _ (List.head_eq_of_cons_eq h).symm
  · rw [if_pos hl, if_pos ho]
    constructor
    · intro h
      have hsorted := List.map_injective_iff.2 (fun _ _ => (String.append_right_inj "coldkey:").1) h
      exact ⟨sorted_inj.1 hsorted, fun hempty => absurd hempty hl⟩
    · rintro ⟨h, -⟩
      rw [h]

/-- An unpaid submission of a hotkey that only one of two linkages counts. -/
def Tables.Straddles (t : Tables K) (linkage other : OwnerLinkage) (agent : Agent) : Prop :=
  t.paymentOf agent.agentId = none ∧ ¬ (agent.minerHotkey ∈ linkage.hotkeys ↔ agent.minerHotkey ∈ other.hotkeys)

instance (linkage other : OwnerLinkage) (agent : Agent) : Decidable (t.Straddles linkage other agent) :=
  inferInstanceAs (Decidable (_ ∧ _))

/-- Without coldkeys, the hotkeys of a linkage are the hotkey and those attested with it. -/
theorem hotkeys_of_no_coldkeys {agent : Agent} (h : (t.ownerLinkage netuid agent).coldkeys = ∅) :
    (t.ownerLinkage netuid agent).hotkeys =
      insert agent.minerHotkey (t.directlyAttested netuid agent.minerHotkey) := by
  have hcold : (t.ownerLinkage netuid agent).hotkeys = if (t.ownerLinkage netuid agent).coldkeys ≠ ∅ then _ else _ :=
    rfl
  rw [hcold, if_neg (not_not.2 h)]

/-- Two linkages with the same lock keys own the same submissions, up to those that straddle them. -/
theorem sameOwner_iff_iff_not_straddles {a b s : Agent}
    (hkeys : (t.ownerLinkage netuid a).advisoryLockKeys = (t.ownerLinkage netuid b).advisoryLockKeys) :
    ((t.ownerLinkage netuid a).SameOwner s (t.paymentOf s.agentId) ↔
      (t.ownerLinkage netuid b).SameOwner s (t.paymentOf s.agentId)) ↔
      ¬ t.Straddles (t.ownerLinkage netuid a) (t.ownerLinkage netuid b) s := by
  obtain ⟨hcold, hhot⟩ := advisoryLockKeys_eq_iff.1 hkeys
  by_cases hempty : (t.ownerLinkage netuid a).coldkeys = ∅
  · have hsame : a.minerHotkey = b.minerHotkey := hhot hempty
    have hhotkeys : (t.ownerLinkage netuid a).hotkeys = (t.ownerLinkage netuid b).hotkeys := by
      rw [hotkeys_of_no_coldkeys hempty, hotkeys_of_no_coldkeys (hcold ▸ hempty), hsame]
    refine iff_of_true ?_ fun h => h.2 (by rw [hhotkeys])
    rw [OwnerLinkage.SameOwner, OwnerLinkage.SameOwner, if_neg (not_not.2 hempty),
      if_neg (not_not.2 (hcold ▸ hempty)), hhot hempty]
  · rw [OwnerLinkage.SameOwner, OwnerLinkage.SameOwner, if_pos hempty, if_pos (hcold ▸ hempty), ← hcold]
    cases hpay : t.paymentOf s.agentId with
    | some p => simp [Tables.Straddles, hpay]
    | none => simp [Tables.Straddles, hpay]

theorem agentId_inj {a b : Agent} (ha : a ∈ t.agents) (hb : b ∈ t.agents) (h : a.agentId = b.agentId) : a = b :=
  List.inj_on_of_nodup_map t.agents_pkey ha hb h

/-- The live leases of two linkages with the same lock keys. -/
theorem ownerLiveLeaseAgentIds_eq_iff {a b : Agent} {now : ℤ}
    (hkeys : (t.ownerLinkage netuid a).advisoryLockKeys = (t.ownerLinkage netuid b).advisoryLockKeys) :
    t.ownerLiveLeaseAgentIds (t.ownerLinkage netuid a) now = t.ownerLiveLeaseAgentIds (t.ownerLinkage netuid b) now ↔
      ∀ s ∈ t.agents, t.HoldsLease now s → ¬ t.Straddles (t.ownerLinkage netuid a) (t.ownerLinkage netuid b) s := by
  have hmem : ∀ (linkage : OwnerLinkage) {s : Agent}, s ∈ t.agents → t.HoldsLease now s →
      (s.agentId ∈ t.ownerLiveLeaseAgentIds linkage now ↔ linkage.SameOwner s (t.paymentOf s.agentId)) := by
    intro linkage s hs hlease
    simp only [Tables.ownerLiveLeaseAgentIds, List.mem_toFinset, List.mem_map, List.mem_filter, decide_eq_true_eq]
    constructor
    · rintro ⟨s', ⟨hs', -, hown⟩, hid⟩
      rwa [agentId_inj hs' hs hid] at hown
    · intro hown
      exact ⟨s, ⟨hs, hlease, hown⟩, rfl⟩
  constructor
  · intro heq s hs hlease
    rw [← sameOwner_iff_iff_not_straddles hkeys, ← hmem _ hs hlease, ← hmem _ hs hlease, heq]
  · intro hclear
    ext id
    simp only [Tables.ownerLiveLeaseAgentIds, List.mem_toFinset, List.mem_map, List.mem_filter, decide_eq_true_eq]
    constructor
    · rintro ⟨s, ⟨hs, hlease, hown⟩, rfl⟩
      exact ⟨s, ⟨hs, hlease, ((sameOwner_iff_iff_not_straddles hkeys).2 (hclear s hs hlease)).1 hown⟩, rfl⟩
    · rintro ⟨s, ⟨hs, hlease, hown⟩, rfl⟩
      exact ⟨s, ⟨hs, hlease, ((sameOwner_iff_iff_not_straddles hkeys).2 (hclear s hs hlease)).2 hown⟩, rfl⟩

/-- The row of an agent is found by its id. -/
theorem resolveOwnerLinkage_of_mem {a : Agent} (ha : a ∈ t.agents) :
    t.resolveOwnerLinkage netuid a.agentId = some (t.ownerLinkage netuid a) := by
  rw [Tables.resolveOwnerLinkage]
  cases hfind : t.agents.find? fun b => decide (b.agentId = a.agentId) with
  | none => exact absurd (decide_eq_true rfl) (List.find?_eq_none.1 hfind a ha)
  | some b =>
    have hid : b.agentId = a.agentId := by simpa using List.find?_some hfind
    rw [agentId_inj (List.mem_of_find?_eq_some hfind) ha hid]
    rfl

variable [LE K] [DecidableLE K] {asking : Asking K}

/-- Neither a leased submission nor the first pinnable one straddles two linkages. -/
structure Tables.Agree (t : Tables K) (asking : Asking K) (linkage other : OwnerLinkage) : Prop where
  leases : ∀ a ∈ t.agents, t.HoldsLease asking.now a → ¬ t.Straddles linkage other a
  pin : ∀ a ∈ (sortOn (t.pinKey asking) (t.agents.filter fun a => t.Pinnable asking a)).find? (fun a =>
    decide (linkage.SameOwner a (t.paymentOf a.agentId)) || decide (other.SameOwner a (t.paymentOf a.agentId))),
    ¬ t.Straddles linkage other a

/-- The pinned generation is the first of an owner's in the order in which generations claim a place. -/
theorem selectedOwnerAgentId_eq (linkage : OwnerLinkage) :
    t.selectedOwnerAgentId asking linkage =
      ((sortOn (t.pinKey asking) (t.agents.filter fun a => t.Pinnable asking a)).find? fun a =>
        linkage.SameOwner a (t.paymentOf a.agentId)).map (·.agentId) := by
  have hinj : ∀ a ∈ t.agents.filter fun a => t.Pinnable asking a, ∀ b ∈ t.agents.filter fun a => t.Pinnable asking a,
      t.pinKey asking a = t.pinKey asking b → a = b := by
    intro a ha b hb h
    have hid : a.agentId = b.agentId := congrArg (fun k => (ofLex (ofLex k).2).2) h
    exact agentId_inj (List.mem_filter.1 ha).1 (List.mem_filter.1 hb).1 hid
  have hfilter : (t.agents.filter fun a =>
      decide (t.Pinnable asking a ∧ linkage.SameOwner a (t.paymentOf a.agentId))) =
      (t.agents.filter fun a => t.Pinnable asking a).filter fun a =>
        linkage.SameOwner a (t.paymentOf a.agentId) := by
    rw [List.filter_filter]
    simp only [Bool.decide_and, Bool.and_comm]
  rw [Tables.selectedOwnerAgentId, hfilter, ← filter_sortOn hinj, List.head?_filter]

/-- The pinned generations of two linkages with the same lock keys. -/
theorem selectedOwnerAgentId_eq_iff {a b : Agent}
    (hkeys : (t.ownerLinkage netuid a).advisoryLockKeys = (t.ownerLinkage netuid b).advisoryLockKeys) :
    t.selectedOwnerAgentId asking (t.ownerLinkage netuid a) = t.selectedOwnerAgentId asking (t.ownerLinkage netuid b) ↔
      ∀ s ∈ (sortOn (t.pinKey asking) (t.agents.filter fun a => t.Pinnable asking a)).find? (fun s =>
        decide ((t.ownerLinkage netuid a).SameOwner s (t.paymentOf s.agentId)) ||
          decide ((t.ownerLinkage netuid b).SameOwner s (t.paymentOf s.agentId))),
        ¬ t.Straddles (t.ownerLinkage netuid a) (t.ownerLinkage netuid b) s := by
  have hrows : ∀ s ∈ sortOn (t.pinKey asking) (t.agents.filter fun a => t.Pinnable asking a), s ∈ t.agents :=
    fun s hs => (List.mem_filter.1 (mem_sortOn.1 hs)).1
  -- agents of the table are told apart by their ids
  have hmap : ∀ {p q : Agent → Bool} {l : List Agent}, (∀ s ∈ l, s ∈ t.agents) →
      ((l.find? p).map (·.agentId) = (l.find? q).map (·.agentId) ↔ l.find? p = l.find? q) := by
    intro p q l hl
    constructor
    · intro h
      cases hp : l.find? p with
      | none =>
        rw [hp] at h
        exact (Option.map_eq_none_iff.1 h.symm).symm
      | some s =>
        rw [hp] at h
        obtain ⟨s', hs', hid⟩ := Option.map_eq_some_iff.1 h.symm
        rw [hs', agentId_inj (hl s' (List.mem_of_find?_eq_some hs')) (hl s (List.mem_of_find?_eq_some hp)) hid]
    · intro h
      rw [h]
  rw [selectedOwnerAgentId_eq, selectedOwnerAgentId_eq, hmap hrows, find?_eq_find?_iff]
  refine forall₂_congr fun s _ => ?_
  rw [← sameOwner_iff_iff_not_straddles hkeys, decide_eq_decide]

/-- Two linkages with the same lock keys give the gate the same answers exactly when they agree. -/
theorem ownerFacts_eq_iff {a b : Agent}
    (hkeys : (t.ownerLinkage netuid a).advisoryLockKeys = (t.ownerLinkage netuid b).advisoryLockKeys) :
    t.ownerFacts asking (t.ownerLinkage netuid a) = t.ownerFacts asking (t.ownerLinkage netuid b) ↔
      t.Agree asking (t.ownerLinkage netuid a) (t.ownerLinkage netuid b) := by
  rw [Tables.ownerFacts, Tables.ownerFacts, OwnerFacts.mk.injEq, selectedOwnerAgentId_eq_iff hkeys,
    ownerLiveLeaseAgentIds_eq_iff hkeys]
  exact ⟨fun h => ⟨h.2, h.1⟩, fun h => ⟨h.pin, h.leases⟩⟩

end Straddling

/-! ## Exactness of the memo -/

section Exactness

variable {K : Type} [LE K] [DecidableLE K]

/-- The agents of a walk with the same lock keys have linkages that agree. -/
def Tables.Agreeing (t : Tables K) (netuid : ℕ) (asking : Asking K) (walk : List Agent) : Prop :=
  ∀ a ∈ walk, ∀ b ∈ walk, (t.ownerLinkage netuid a).advisoryLockKeys = (t.ownerLinkage netuid b).advisoryLockKeys →
    t.Agree asking (t.ownerLinkage netuid a) (t.ownerLinkage netuid b)

variable {t : Tables K} {netuid : ℕ} {asking : Asking K}

theorem walkFacts_exact_iff {walk : List Agent} :
    (∀ used ∈ t.walkFacts asking netuid walk, used.2 = t.ownerFacts asking (t.ownerLinkage netuid used.1)) ↔
      t.Agreeing netuid asking walk := by
  rw [Tables.walkFacts, Memo.answers_exact_iff]
  refine forall₂_congr fun a _ => forall₂_congr fun b _ => forall_congr' fun hkeys => ?_
  exact ownerFacts_eq_iff hkeys

/-- The answers that the rows of a preview use are those of a walk over the rows asked about. -/
theorem rows_facts (p : Preview t) : ∀ {l : List Agent} {memo : Dict (List String) OwnerFacts},
    (∀ a ∈ l, a ∈ t.agents ∧ a.agentId ∈ p.requested) →
    ((p.rows netuid asking memo l).filterMap fun row => row.facts.map fun facts => (row.agent, facts)) =
      Memo.answers (fun a => (t.ownerLinkage netuid a).advisoryLockKeys)
        (fun a => t.ownerFacts asking (t.ownerLinkage netuid a)) memo
        (l.filter fun a => a.agentId ∉ p.previousGeneration ∧ p.Leasable asking a) := by
  intro l
  induction l with
  | nil => intro memo _; rfl
  | cons a l ih =>
    intro memo hl
    obtain ⟨ha, hreq⟩ := hl a List.mem_cons_self
    have hrest := fun memo => @ih memo fun b hb => hl b (List.mem_cons_of_mem _ hb)
    rw [Preview.rows]
    by_cases hprev : a.agentId ∈ p.previousGeneration
    · rw [if_pos hprev, List.filterMap_cons_none rfl, hrest, List.filter_cons_of_neg (by simp [hprev])]
    · by_cases hlease : p.Leasable asking a
      · rw [if_neg hprev, if_neg (not_not.2 hlease), resolveOwnerLinkageBatch_eq hreq, resolveOwnerLinkage_of_mem ha,
          List.filter_cons_of_pos (by simp [hprev, hlease])]
        simp only [List.filterMap_cons, Option.map_some, hrest]
        rfl
      · rw [if_neg hprev, if_pos hlease, List.filterMap_cons_none rfl, hrest,
          List.filter_cons_of_neg (by simp [hlease])]

theorem preview_exact_iff (p : Preview t) :
    (∀ row ∈ p.rows netuid asking [] p.ordered, ∀ facts ∈ row.facts,
      facts = t.ownerFacts asking (t.ownerLinkage netuid row.agent)) ↔ t.Agreeing netuid asking (p.asked asking) := by
  rw [← walkFacts_exact_iff, Tables.walkFacts, Preview.asked, ← rows_facts p p.ordered_requested]
  simp only [List.mem_filterMap, Option.map_eq_some_iff, forall_exists_index, and_imp]
  constructor
  · intro h used row hrow facts hfacts hused
    rw [← hused]
    exact h row hrow facts hfacts
  · intro h row hrow facts hfacts
    exact h _ row hrow facts hfacts rfl

/-- The allocator and the preview answer every candidate as its own linkage would exactly when, among the candidates
they ask about, linkages with the same lock keys agree: no unpaid submission that is leased, or that would be pinned
first, has a hotkey that only one of them counts. -/
theorem owner_memo_exact_iff (t : Tables K) (netuid : ℕ) (asking : Asking K) :
    (∀ walk : List Agent,
      (∀ used ∈ t.walkFacts asking netuid walk, used.2 = t.ownerFacts asking (t.ownerLinkage netuid used.1)) ↔
        t.Agreeing netuid asking walk) ∧
    ∀ p : Preview t,
      (∀ row ∈ p.rows netuid asking [] p.ordered, ∀ facts ∈ row.facts,
        facts = t.ownerFacts asking (t.ownerLinkage netuid row.agent)) ↔
        t.Agreeing netuid asking (p.asked asking) :=
  ⟨fun _ => walkFacts_exact_iff, preview_exact_iff⟩

/-- `alice` and `bob` are paid for by one coldkey, and `alice` has attested `carol`, whose unpaid submission holds a
lease. -/
def sampleTables : Tables ℕ where
  agents := [⟨"a", "alice", true, 1⟩, ⟨"b", "bob", true, 2⟩, ⟨"c", "carol", true, 0⟩]
  payments := [⟨some "a", "alice", "cold"⟩, ⟨some "b", "bob", "cold"⟩]
  attestations := [⟨118, "alice", "carol", none⟩]
  tickets := [(⟨"c", 14, "validator"⟩,
    Lease.ticket ⟨"validator", "slot-0", 10, 90, 14⟩ .canonicalQuorum none none 1)]
  scores := []
  agents_pkey := by decide
  payments_agent_id_key := by decide
  payments_agent_id_miner_hotkey_fkey := by decide

/-- A read at a time when `carol`'s lease is live. -/
def sampleAsking : Asking ℕ where
  benchVersion := 14
  now := 20
  provisionalContenderFloor := none
  capableValidatorHotkeys := ∅
  admits := fun _ => true

/-- Visited after `alice`, `bob` is answered with the lease of `carol`, which his own linkage does not count. -/
theorem sibling_order_matters :
    ¬ ∀ used ∈ sampleTables.walkFacts sampleAsking 118 [⟨"a", "alice", true, 1⟩, ⟨"b", "bob", true, 2⟩],
      used.2 = sampleTables.ownerFacts sampleAsking (sampleTables.ownerLinkage 118 used.1) := by
  decide +kernel

/-- A preview of the three submissions, with no room for `carol`'s. -/
def samplePreview : Preview sampleTables where
  requested := ["a", "b", "c"]
  ordered := sampleTables.agents
  previousGeneration := []
  offered := fun a => a.agentId ≠ "c"
  twins := fun _ => ∅
  similarityLimit := 1
  ordered_requested := by decide

/-- It gates `bob`'s submission by the lease of `carol`. -/
example :
    (samplePreview.rows 118 sampleAsking [] samplePreview.ordered).map (fun row => (row.agent.agentId, row.gate)) =
      [("a", some .ownerSerialized), ("b", some .ownerSerialized), ("c", some .notLeasable)] := by
  decide +kernel

end Exactness

end DittoSubnet.Platform.Queue

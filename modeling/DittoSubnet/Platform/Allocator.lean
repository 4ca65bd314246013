import DittoSubnet.Platform.Owners

/-!
# The allocator

`issue_ticket` of `ditto/db/queries/tickets.py` run alone: the deadline sweep, the leases that its slot may already
hold, and the selection loop with its skip sets, the memo of owner answers and the second, last-resort walk. What
other tables answer is the `Call`: the queue in its order, the similarity matches, the fleet, the floor.

The loop ends, with the first candidate in queue order that the gate lets through, on the ordinary pass or else on the
last-resort one (`select_eq_pick`). The gate is asked there with the memoised answers, those of the first candidate
with the same lock keys. So a call that is admitted keeps to the law exactly when every candidate that the law comes to
is judged alike with its own linkage and with that candidate's (`issueTicket_law_iff`); in particular when linkages with
the same lock keys agree, in the sense of `owner_memo_exact_iff`.
-/

namespace DittoSubnet.Platform.Queue

open Kit

/-! ## The call -/

/-- `MIN_OWNER_CONCURRENT_SUBMISSION_LIMIT`. -/
def minOwnerConcurrentSubmissionLimit : ℤ := 1

/-- The arguments of `issue_ticket`, with what the tables that are not modelled answer during the call. -/
structure Call (K : Type) where
  lease : Lease
  completionFirst : Bool
  /-- No confirmation bundle holds the slot, and the scorer cohort pin allows the validator. -/
  admitted : Bool
  /-- The screening and rollout predicates of a lease to resume. -/
  resumes : TicketKey → Bool
  /-- `maybe_force_expire_lease`. -/
  forceExpires : Bool
  /-- The rows of the candidate filter, in queue order. -/
  queue : List Agent
  provisionalContenderFloor : Option K
  capableValidatorHotkeys : Finset String
  admits : Agent → Bool
  ownerConcurrentSubmissionLimit : ℤ
  /-- The live leases that are near-identical to a submission. -/
  twins : String → Finset String
  similarityConcurrentSubmissionLimit : ℤ
  queue_nodup : (queue.map (·.agentId)).Nodup

/-- What the owner reads are asked with. -/
def Call.asking {K : Type} (call : Call K) : Asking K where
  benchVersion := call.lease.benchVersion
  now := call.lease.now
  provisionalContenderFloor := call.provisionalContenderFloor
  capableValidatorHotkeys := call.capableValidatorHotkeys
  admits := call.admits

/-! ## The selection loop -/

/-- The state of the loop. -/
structure Loop where
  skipped : List String
  ownerCapacitySkips : List String
  lastResort : Bool
  reconsidered : Option (List String)
  ownerFacts : Dict (List String) OwnerFacts

def Loop.init : Loop := ⟨[], [], false, none, []⟩

/-- How a round of the loop ends. -/
inductive Round
  | next (s : Loop)
  | leased (agent : Agent)
  | nothing

section Selection

variable {K : Type} [LE K] [DecidableLE K] (t : Tables K) (netuid : ℕ) (call : Call K)

/-- This validator's candidates, in queue order. -/
def Call.candidates : List Agent :=
  call.queue.filter fun a => call.completionFirst = true ∨ ¬ alreadyMine t.tickets call.lease a.agentId

/-- `eligible_candidates`. -/
def Call.eligible (s : Loop) : List Agent := (call.candidates t).filter fun a => a.agentId ∉ s.skipped

/-- The row that a round locks. -/
def Call.candidate (s : Loop) : Option Agent :=
  ((call.eligible t s).filter fun a => ∀ ids ∈ s.reconsidered, a.agentId ∈ ids).head?

/-- The gate of an agent, with some answers about its owner. -/
def Call.gate (facts : OwnerFacts) (lastResort : Bool) (agent : Agent) : Option QueueGate :=
  ownerCapacityGate agent.agentId facts call.ownerConcurrentSubmissionLimit lastResort (call.twins agent.agentId)
    call.similarityConcurrentSubmissionLimit

/-- The checks after the gate. -/
def Call.Servable (agent : Agent) : Prop :=
  occupied t.tickets agent.agentId call.lease.benchVersion < scoringQuorum ∧
    ¬ (call.completionFirst = true ∧ alreadyMine t.tickets call.lease agent.agentId) ∧
    ¬ liveTicketForAgentOnValidator t.tickets call.lease (.issueTicket call.completionFirst) agent.agentId

instance (agent : Agent) : Decidable (call.Servable t agent) := inferInstanceAs (Decidable (_ ∧ _ ∧ _))

/-- The round of a locked row. -/
def Call.examine (s : Loop) (agent : Agent) : Round :=
  let answer := t.askOwner call.asking netuid s.ownerFacts agent
  match call.gate answer.1 s.lastResort agent with
  | some gate => .next
      { s with
        skipped := s.skipped ++ [agent.agentId]
        ownerCapacitySkips := if s.lastResort = false ∧ gate = .ownerSerialized then
            s.ownerCapacitySkips ++ [agent.agentId] else s.ownerCapacitySkips
        ownerFacts := answer.2 }
  | none =>
    if call.Servable t agent then .leased agent
    else .next { s with skipped := s.skipped ++ [agent.agentId], ownerFacts := answer.2 }

/-- One round. When no row is left, those that only the owner ceiling refused are offered once more. -/
def Call.round (s : Loop) : Round :=
  match call.candidate t s with
  | some agent => call.examine t netuid s agent
  | none =>
    if s.lastResort = true ∨ s.ownerCapacitySkips = [] ∨
        call.ownerConcurrentSubmissionLimit ≤ minOwnerConcurrentSubmissionLimit then .nothing
    else if (call.eligible t s).head?.isSome = true then .nothing
    else .next { s with lastResort := true, reconsidered := some s.ownerCapacitySkips, skipped := [] }

/-- The loop, for at most `fuel` rounds; the agent comes with the mode it is leased in. -/
def Call.select : ℕ → Loop → Option (Option (Bool × Agent))
  | 0, _ => none
  | fuel + 1, s =>
    match call.round t netuid s with
    | .next s' => Call.select fuel s'
    | .leased agent => some (some (s.lastResort, agent))
    | .nothing => some none

end Selection

/-! ## The ticket -/

/-- What a call returns: the live lease of its slot, or a new one with the mode and the agent it was selected in. -/
inductive Issued
  | resumed (key : TicketKey) (ticket : Ticket)
  | leased (lastResort : Bool) (agent : Agent) (ticket : Ticket)
  deriving DecidableEq

section Issue

variable {K : Type} [LE K] [DecidableLE K] (t : Tables K) (netuid : ℕ) (call : Call K)

/-- `expire_overdue_tickets`. -/
def Tables.expireOverdueTickets (now : ℤ) : Tables K :=
  { t with tickets := t.tickets.map fun row => (row.1, if row.2.Overdue now then sweepTicket row.2 else row.2) }

/-- The row of the lease that a selected agent gets. -/
def Call.leaseOf (agent : Agent) : Ticket :=
  match Dict.get? t.tickets (call.lease.key agent.agentId) with
  | none => Lane.newTicket call.lease (.issueTicket call.completionFirst)
  | some ticket => Lane.restamp call.lease (.issueTicket call.completionFirst) ticket

/-- The selection and the lease of what it selects. -/
def Call.allocate (fuel : ℕ) : Option (Option Issued) :=
  (call.select t netuid fuel Loop.init).map fun choice =>
    choice.map fun c => .leased c.1 c.2 (call.leaseOf t c.2)

/-- `issue_ticket`, run alone. -/
def issueTicket (fuel : ℕ) : Option (Option Issued) :=
  let swept := t.expireOverdueTickets call.lease.now
  let existing := (sortOn (fun row => toLex (row.2.issuedAt, row.1.agentId)) (swept.tickets.filter fun row =>
    Probe.existing.Matches call.lease none row.1 row.2 ∧ call.resumes row.1 = true)).head?
  let incompatible := swept.tickets.find? fun row => Probe.incompatible.Matches call.lease none row.1 row.2
  if call.admitted = false then some none
  else match existing, incompatible with
    | some row, _ => some (some (.resumed row.1 row.2))
    | none, some row =>
      if row.2.purpose = .canonicalQuorum ∧ 0 < row.2.purposeRevision ∧ call.forceExpires = true then
        call.allocate { swept with tickets := Dict.set swept.tickets row.1 (forceExpire row.2 call.lease.now) } netuid
          fuel
      else some none
    | none, none => call.allocate swept netuid fuel

end Issue

/-! ## The selection law -/

section Law

variable {K : Type} [LE K] [DecidableLE K] (t : Tables K) (netuid : ℕ) (call : Call K)

/-- The answers of an agent's own linkage. -/
def Call.ownFacts (agent : Agent) : OwnerFacts := t.ownerFacts call.asking (t.ownerLinkage netuid agent)

/-- The first candidate with the lock keys of an agent. -/
def Call.firstSibling (agent : Agent) : Agent :=
  (Memo.first (fun a => (t.ownerLinkage netuid a).advisoryLockKeys) (call.candidates t) agent).getD agent

/-- The answers of the first candidate with the same lock keys. -/
def Call.sharedFacts (agent : Agent) : OwnerFacts := call.ownFacts t netuid (call.firstSibling t netuid agent)

/-- With some answers about owners, the gate lets an agent through, and it can be leased. -/
def Call.Passes (facts : Agent → OwnerFacts) (lastResort : Bool) (agent : Agent) : Prop :=
  call.gate (facts agent) lastResort agent = none ∧ call.Servable t agent

instance (facts : Agent → OwnerFacts) (lastResort : Bool) (agent : Agent) :
    Decidable (call.Passes t facts lastResort agent) := inferInstanceAs (Decidable (_ ∧ _))

/-- The owner ceiling alone refuses an agent on the ordinary pass, and the raised ceiling lets it through. -/
def Call.PassesRelaxed (facts : Agent → OwnerFacts) (agent : Agent) : Prop :=
  call.gate (facts agent) false agent = some .ownerSerialized ∧ call.Passes t facts true agent

instance (facts : Agent → OwnerFacts) (agent : Agent) : Decidable (call.PassesRelaxed t facts agent) :=
  inferInstanceAs (Decidable (_ ∧ _))

/-- The law: the first candidate that passes, or else the first that passes as a last resort. -/
def Call.pick (facts : Agent → OwnerFacts) : Option (Bool × Agent) :=
  match (call.candidates t).find? fun a => call.Passes t facts false a with
  | some agent => some (false, agent)
  | none =>
    if minOwnerConcurrentSubmissionLimit < call.ownerConcurrentSubmissionLimit then
      ((call.candidates t).find? fun a => call.PassesRelaxed t facts a).map fun agent => (true, agent)
    else none

/-- The candidates before an agent. -/
def Call.before (agent : Agent) : List Agent := (call.candidates t).takeWhile (· ≠ agent)

/-- Every candidate that the law comes to is judged alike with the answers about its own linkage and with those about
the linkage of the first candidate with its lock keys. -/
structure Call.JudgedAlike : Prop where
  ordinary : ∀ a ∈ call.candidates t, (∀ b ∈ call.before t a, ¬ call.Passes t (call.ownFacts t netuid) false b) →
    (call.Passes t (call.ownFacts t netuid) false a ↔ call.Passes t (call.sharedFacts t netuid) false a)
  lastResort : minOwnerConcurrentSubmissionLimit < call.ownerConcurrentSubmissionLimit →
    (∀ a ∈ call.candidates t, ¬ call.Passes t (call.ownFacts t netuid) false a) →
    ∀ a ∈ call.candidates t, (∀ b ∈ call.before t a, ¬ call.PassesRelaxed t (call.ownFacts t netuid) b) →
      (call.PassesRelaxed t (call.ownFacts t netuid) a ↔ call.PassesRelaxed t (call.sharedFacts t netuid) a)

/-- No candidate passes. -/
def Call.NonePasses : Prop :=
  ∀ a ∈ call.candidates t, ¬ call.Passes t (call.ownFacts t netuid) false a ∧
    (minOwnerConcurrentSubmissionLimit < call.ownerConcurrentSubmissionLimit →
      ¬ call.PassesRelaxed t (call.ownFacts t netuid) a)

variable {t netuid call}

theorem find?_decide_iff {l : List Agent} {p q : Agent → Prop} [DecidablePred p] [DecidablePred q] :
    l.find? (fun a => p a) = l.find? (fun a => q a) ↔
      ∀ a ∈ l, (∀ b ∈ l.takeWhile (· ≠ a), ¬ p b) → (p a ↔ q a) := by
  rw [find?_eq_iff_reached]
  refine forall₂_congr fun a _ => ?_
  simp only [decide_eq_false_iff_not, decide_eq_decide]

omit [LE K] [DecidableLE K] in
theorem find?_none_iff {facts : Agent → OwnerFacts} :
    (call.candidates t).find? (fun a => decide (call.Passes t facts false a)) = none ↔
      ∀ a ∈ call.candidates t, ¬ call.Passes t facts false a := by
  simp [List.find?_eq_none]

theorem pick_eq_none_iff : call.pick t (call.ownFacts t netuid) = none ↔ call.NonePasses t netuid := by
  constructor
  · intro h a ha
    cases hfind : (call.candidates t).find? fun a => decide (call.Passes t (call.ownFacts t netuid) false a) with
    | some b => simp [Call.pick, hfind] at h
    | none =>
      refine ⟨find?_none_iff.1 hfind a ha, fun hlimit => ?_⟩
      simp only [Call.pick, hfind, if_pos hlimit, Option.map_eq_none_iff, List.find?_eq_none] at h
      exact fun hrelaxed => h a ha (decide_eq_true hrelaxed)
  · intro h
    have hfind := find?_none_iff.2 fun a ha => (h a ha).1
    by_cases hlimit : minOwnerConcurrentSubmissionLimit < call.ownerConcurrentSubmissionLimit
    · have hrelaxed : (call.candidates t).find? (fun a =>
          decide (call.PassesRelaxed t (call.ownFacts t netuid) a)) = none := by
        rw [List.find?_eq_none]
        intro a ha
        simpa using (h a ha).2 hlimit
      simp only [Call.pick, hfind, if_pos hlimit, hrelaxed, Option.map_none]
    · simp only [Call.pick, hfind, if_neg hlimit]

/-- The law gives the same lease for the shared answers exactly when the candidates are judged alike. -/
theorem pick_eq_iff : call.pick t (call.ownFacts t netuid) = call.pick t (call.sharedFacts t netuid) ↔
    call.JudgedAlike t netuid := by
  have hsnd : ∀ {o o' : Option Agent}, o.map (fun agent => (true, agent)) = o'.map (fun agent => (true, agent)) ↔
      o = o' := by
    intro o o'
    exact (Option.map_injective fun _ _ h => (Prod.mk.inj h).2).eq_iff
  constructor
  · intro h
    have hord : (call.candidates t).find? (fun a => decide (call.Passes t (call.ownFacts t netuid) false a)) =
        (call.candidates t).find? (fun a => decide (call.Passes t (call.sharedFacts t netuid) false a)) := by
      cases hf : (call.candidates t).find? fun a => decide (call.Passes t (call.ownFacts t netuid) false a) with
      | some a =>
        cases hf' : (call.candidates t).find? fun a => decide (call.Passes t (call.sharedFacts t netuid) false a) with
        | some b => simpa [Call.pick, hf, hf'] using h
        | none =>
          simp only [Call.pick, hf, hf'] at h
          split at h <;> simp at h
      | none =>
        cases hf' : (call.candidates t).find? fun a => decide (call.Passes t (call.sharedFacts t netuid) false a) with
        | some b =>
          simp only [Call.pick, hf, hf'] at h
          split at h <;> simp at h
        | none => rfl
    refine ⟨find?_decide_iff.1 hord, fun hlimit hno => find?_decide_iff.1 ?_⟩
    have hf := find?_none_iff.2 hno
    have hf' := hord ▸ hf
    simp only [Call.pick, hf, hf', if_pos hlimit] at h
    exact hsnd.1 h
  · rintro ⟨hord, hlast⟩
    have hsame := find?_decide_iff.2 hord
    rw [Call.pick, Call.pick, hsame]
    cases hf' : (call.candidates t).find? fun a => decide (call.Passes t (call.sharedFacts t netuid) false a) with
    | some b => rfl
    | none =>
      by_cases hlimit : minOwnerConcurrentSubmissionLimit < call.ownerConcurrentSubmissionLimit
      · simp only [if_pos hlimit]
        rw [find?_decide_iff.2 (hlast hlimit (find?_none_iff.1 (hsame.trans hf')))]
      · simp only [if_neg hlimit]

/-- Where linkages with the same lock keys agree, the shared answers are each candidate's own. -/
theorem sharedFacts_eq_of_agreeing (h : t.Agreeing netuid call.asking (call.candidates t)) {a : Agent}
    (ha : a ∈ call.candidates t) : call.sharedFacts t netuid a = call.ownFacts t netuid a := by
  rw [Call.sharedFacts, Call.firstSibling]
  cases hfirst : Memo.first (fun a => (t.ownerLinkage netuid a).advisoryLockKeys) (call.candidates t) a with
  | none => rfl
  | some b =>
    have hkey : (t.ownerLinkage netuid b).advisoryLockKeys = (t.ownerLinkage netuid a).advisoryLockKeys := by
      simpa using List.find?_some hfirst
    exact (ownerFacts_eq_iff hkey).2 (h b (List.mem_of_find?_eq_some hfirst) a ha hkey)

theorem judgedAlike_of_agreeing (h : t.Agreeing netuid call.asking (call.candidates t)) :
    call.JudgedAlike t netuid := by
  constructor
  · intro a ha _
    rw [Call.Passes, Call.Passes, sharedFacts_eq_of_agreeing h ha]
  · intro _ _ a ha _
    rw [Call.PassesRelaxed, Call.PassesRelaxed, Call.Passes, Call.Passes, sharedFacts_eq_of_agreeing h ha]

end Law

/-! ## The loop follows the law -/

section Walk

variable {K : Type} [LE K] [DecidableLE K] {t : Tables K} {netuid : ℕ} {call : Call K}

/-- A table holds the answers for the agents asked about. -/
abbrev Call.Asked (t : Tables K) (netuid : ℕ) (call : Call K) (asked : List Agent)
    (memo : Dict (List String) OwnerFacts) : Prop :=
  Memo.Holds (fun a => (t.ownerLinkage netuid a).advisoryLockKeys) (call.ownFacts t netuid) asked memo

/-- The candidates that only the owner ceiling refuses on the ordinary pass. -/
def Call.refused (t : Tables K) (netuid : ℕ) (call : Call K) (l : List Agent) : List Agent :=
  l.filter fun a => call.gate (call.sharedFacts t netuid a) false a = some .ownerSerialized

/-- A skip list that is the front of a list leaves the rest. -/
theorem filter_not_skipped {front back : List Agent} (h : ((front ++ back).map (·.agentId)).Nodup) :
    (front ++ back).filter (fun a => a.agentId ∉ front.map (·.agentId)) = back := by
  rw [List.map_append, List.nodup_append] at h
  rw [List.filter_append, List.filter_eq_nil_iff.2, List.filter_eq_self.2, List.nil_append]
  · intro a ha
    rw [decide_eq_true_eq]
    intro hmem
    exact h.2.2 _ hmem _ (List.mem_map_of_mem ha) rfl
  · intro a ha
    simpa using ⟨a, ha, rfl⟩

omit [LE K] [DecidableLE K] in
theorem candidates_nodup : ((call.candidates t).map (·.agentId)).Nodup :=
  call.queue_nodup.sublist (List.filter_sublist.map _)

/-- The answer for an agent after a front of the candidates, and after all of them, is the shared one. -/
theorem askOwner_eq {asked rest : List Agent} {memo : Dict (List String) OwnerFacts} {a : Agent}
    (hasked : call.Asked t netuid asked memo)
    (hfirst : Memo.first (fun a => (t.ownerLinkage netuid a).advisoryLockKeys) (asked ++ [a] ++ rest) a =
      Memo.first (fun a => (t.ownerLinkage netuid a).advisoryLockKeys) (call.candidates t) a) :
    (t.askOwner call.asking netuid memo a).1 = call.sharedFacts t netuid a ∧
      call.Asked t netuid (asked ++ [a]) (t.askOwner call.asking netuid memo a).2 := by
  obtain ⟨hanswer, hnext⟩ := Memo.ask_of hasked a
  refine ⟨?_, hnext⟩
  rw [Memo.first_append_of_mem rest (by simp)] at hfirst
  rw [hfirst] at hanswer
  obtain ⟨b, hb, hbf⟩ := Option.map_eq_some_iff.1 hanswer
  rw [Call.sharedFacts, Call.firstSibling, hb, Option.getD_some, hbf]
  rfl

/-- The state of the ordinary pass after a front of the candidates. -/
def Call.ordinaryState (t : Tables K) (netuid : ℕ) (call : Call K) (front : List Agent)
    (memo : Dict (List String) OwnerFacts) : Loop :=
  ⟨front.map (·.agentId), (call.refused t netuid front).map (·.agentId), false, none, memo⟩

/-- The state of the last-resort pass after a front of the refused candidates. -/
def Call.lastResortState (t : Tables K) (netuid : ℕ) (call : Call K) (front : List Agent)
    (memo : Dict (List String) OwnerFacts) : Loop :=
  ⟨front.map (·.agentId), (call.refused t netuid (call.candidates t)).map (·.agentId), true,
    some ((call.refused t netuid (call.candidates t)).map (·.agentId)), memo⟩

theorem candidate_ordinary {front back : List Agent} (hsplit : call.candidates t = front ++ back)
    (memo : Dict (List String) OwnerFacts) :
    call.candidate t (call.ordinaryState t netuid front memo) = back.head? := by
  have hnodup : ((call.candidates t).map (·.agentId)).Nodup := candidates_nodup
  rw [hsplit] at hnodup
  have heligible : call.eligible t (call.ordinaryState t netuid front memo) = back := by
    rw [Call.eligible, hsplit]
    exact filter_not_skipped hnodup
  rw [Call.candidate, heligible]
  simp [Call.ordinaryState]

theorem candidate_lastResort {front back : List Agent}
    (hsplit : call.refused t netuid (call.candidates t) = front ++ back) (memo : Dict (List String) OwnerFacts) :
    call.candidate t (call.lastResortState t netuid front memo) = back.head? := by
  have hnodup : ((call.refused t netuid (call.candidates t)).map (·.agentId)).Nodup :=
    candidates_nodup.sublist (List.filter_sublist.map _)
  have hback := hsplit ▸ hnodup
  -- the rows reconsidered are the refused ones: ids tell the candidates apart
  have hrefused : (call.candidates t).filter (fun a =>
      a.agentId ∈ (call.refused t netuid (call.candidates t)).map (·.agentId)) =
      call.refused t netuid (call.candidates t) := by
    refine List.filter_congr fun a ha => ?_
    rw [decide_eq_decide]
    constructor
    · intro hmem
      obtain ⟨b, hb, hid⟩ := List.mem_map.1 hmem
      have hba : b = a := List.inj_on_of_nodup_map candidates_nodup (List.mem_filter.1 hb).1 ha hid
      exact of_decide_eq_true (hba ▸ (List.mem_filter.1 hb).2)
    · intro hgate
      exact List.mem_map_of_mem (List.mem_filter.2 ⟨ha, decide_eq_true hgate⟩)
  have heligible : ((call.candidates t).filter fun a => a.agentId ∉ front.map (·.agentId)).filter (fun a =>
      a.agentId ∈ (call.refused t netuid (call.candidates t)).map (·.agentId)) = back := by
    rw [List.filter_comm, hrefused, hsplit, filter_not_skipped hback]
  rw [Call.candidate, ← heligible]
  refine congrArg List.head? (List.filter_congr fun a _ => decide_eq_decide.2 ?_)
  simp [Call.lastResortState]

theorem refused_append_singleton (l : List Agent) (a : Agent) : call.refused t netuid (l ++ [a]) =
    if call.gate (call.sharedFacts t netuid a) false a = some .ownerSerialized then call.refused t netuid l ++ [a]
    else call.refused t netuid l := by
  by_cases h : call.gate (call.sharedFacts t netuid a) false a = some .ownerSerialized <;>
    simp [Call.refused, List.filter_append, h]

/-- A locked row is leased when it passes with the shared answers, and is skipped otherwise. -/
theorem examine_eq {s : Loop} {a : Agent}
    (hanswer : (t.askOwner call.asking netuid s.ownerFacts a).1 = call.sharedFacts t netuid a) :
    (call.Passes t (call.sharedFacts t netuid) s.lastResort a → call.examine t netuid s a = .leased a) ∧
    (¬ call.Passes t (call.sharedFacts t netuid) s.lastResort a → call.examine t netuid s a = .next
      { s with
        skipped := s.skipped ++ [a.agentId]
        ownerCapacitySkips := if s.lastResort = false ∧
            call.gate (call.sharedFacts t netuid a) s.lastResort a = some .ownerSerialized then
          s.ownerCapacitySkips ++ [a.agentId] else s.ownerCapacitySkips
        ownerFacts := (t.askOwner call.asking netuid s.ownerFacts a).2 }) := by
  rw [Call.examine, Call.Passes]
  simp only [hanswer]
  cases hgate : call.gate (call.sharedFacts t netuid a) s.lastResort a with
  | some gate =>
    refine ⟨(fun h => nomatch h.1), fun _ => ?_⟩
    simp only [Option.some.injEq]
  | none =>
    by_cases hserve : call.Servable t a
    · exact ⟨fun _ => if_pos hserve, fun h => absurd ⟨rfl, hserve⟩ h⟩
    · refine ⟨fun h => absurd h.2 hserve, fun _ => ?_⟩
      rw [if_neg hserve]
      simp

/-- A round of the ordinary pass leases its row or moves past it. -/
theorem round_ordinary {front back : List Agent} {a : Agent} {memo : Dict (List String) OwnerFacts}
    (hsplit : call.candidates t = front ++ a :: back) (hasked : call.Asked t netuid front memo) :
    (call.Passes t (call.sharedFacts t netuid) false a →
      call.round t netuid (call.ordinaryState t netuid front memo) = .leased a) ∧
    (¬ call.Passes t (call.sharedFacts t netuid) false a → ∃ memo', call.Asked t netuid (front ++ [a]) memo' ∧
      call.round t netuid (call.ordinaryState t netuid front memo) =
        .next (call.ordinaryState t netuid (front ++ [a]) memo')) := by
  have hfirst : Memo.first (fun a => (t.ownerLinkage netuid a).advisoryLockKeys) (front ++ [a] ++ back) a =
      Memo.first (fun a => (t.ownerLinkage netuid a).advisoryLockKeys) (call.candidates t) a := by
    rw [hsplit, ← List.append_cons]
  obtain ⟨hfacts, hnext⟩ := askOwner_eq hasked hfirst
  have hround : call.round t netuid (call.ordinaryState t netuid front memo) =
      call.examine t netuid (call.ordinaryState t netuid front memo) a := by
    rw [Call.round, candidate_ordinary hsplit]
    rfl
  obtain ⟨hlease, hskip⟩ := examine_eq (s := call.ordinaryState t netuid front memo) hfacts
  refine ⟨fun h => hround.trans (hlease h), fun h => ⟨_, hnext, ?_⟩⟩
  rw [hround, hskip h]
  simp only [Call.ordinaryState, refused_append_singleton, true_and, List.map_append, List.map_cons, List.map_nil]
  split <;> simp

/-- A round of the last-resort pass leases its row or moves past it. -/
theorem round_lastResort {front back : List Agent} {a : Agent} {asked : List Agent}
    {memo : Dict (List String) OwnerFacts} (hsplit : call.refused t netuid (call.candidates t) = front ++ a :: back)
    (hasked : call.Asked t netuid (call.candidates t ++ asked) memo) :
    (call.Passes t (call.sharedFacts t netuid) true a →
      call.round t netuid (call.lastResortState t netuid front memo) = .leased a) ∧
    (¬ call.Passes t (call.sharedFacts t netuid) true a →
      ∃ memo', call.Asked t netuid (call.candidates t ++ (asked ++ [a])) memo' ∧
        call.round t netuid (call.lastResortState t netuid front memo) =
          .next (call.lastResortState t netuid (front ++ [a]) memo')) := by
  have ha : a ∈ call.candidates t := by
    have : a ∈ call.refused t netuid (call.candidates t) := by rw [hsplit]; simp
    exact (List.mem_filter.1 this).1
  have hfirst : Memo.first (fun a => (t.ownerLinkage netuid a).advisoryLockKeys)
      (call.candidates t ++ asked ++ [a] ++ []) a =
      Memo.first (fun a => (t.ownerLinkage netuid a).advisoryLockKeys) (call.candidates t) a := by
    rw [List.append_nil, List.append_assoc]
    exact Memo.first_append_of_mem _ ha
  obtain ⟨hfacts, hnext⟩ := askOwner_eq hasked hfirst
  rw [List.append_assoc] at hnext
  have hround : call.round t netuid (call.lastResortState t netuid front memo) =
      call.examine t netuid (call.lastResortState t netuid front memo) a := by
    rw [Call.round, candidate_lastResort hsplit]
    rfl
  obtain ⟨hlease, hskip⟩ := examine_eq (s := call.lastResortState t netuid front memo) hfacts
  refine ⟨fun h => hround.trans (hlease h), fun h => ⟨_, hnext, ?_⟩⟩
  rw [hround, hskip h]
  simp [Call.lastResortState]

/-- The last-resort pass leases the first refused candidate that passes with the raised ceiling. -/
theorem select_lastResort : ∀ {back front asked : List Agent} {memo : Dict (List String) OwnerFacts} {fuel : ℕ},
    call.refused t netuid (call.candidates t) = front ++ back →
    call.Asked t netuid (call.candidates t ++ asked) memo → back.length + 1 ≤ fuel →
    call.select t netuid fuel (call.lastResortState t netuid front memo) =
      some ((back.find? fun a => call.Passes t (call.sharedFacts t netuid) true a).map fun a => (true, a)) := by
  intro back
  induction back with
  | nil =>
    intro front asked memo fuel hsplit _ hfuel
    obtain ⟨fuel, rfl⟩ : ∃ n, fuel = n + 1 := ⟨fuel - 1, by omega⟩
    rw [Call.select, Call.round, candidate_lastResort hsplit]
    simp [Call.lastResortState]
  | cons a back ih =>
    intro front asked memo fuel hsplit hasked hfuel
    obtain ⟨fuel, rfl⟩ : ∃ n, fuel = n + 1 := ⟨fuel - 1, by omega⟩
    rw [List.length_cons] at hfuel
    obtain ⟨hlease, hskip⟩ := round_lastResort hsplit hasked
    by_cases hpass : call.Passes t (call.sharedFacts t netuid) true a
    · rw [Call.select, hlease hpass, List.find?_cons_of_pos (by simpa using hpass)]
      rfl
    · obtain ⟨memo', hasked', hround⟩ := hskip hpass
      rw [Call.select, hround, List.find?_cons_of_neg (by simpa using hpass)]
      exact ih (by rw [hsplit, List.append_cons]) hasked' (by omega)

theorem find?_refused : (call.refused t netuid (call.candidates t)).find? (fun a =>
      call.Passes t (call.sharedFacts t netuid) true a) =
    (call.candidates t).find? fun a => call.PassesRelaxed t (call.sharedFacts t netuid) a := by
  rw [Call.refused, List.find?_filter]
  refine congrArg (fun p => (call.candidates t).find? p) (funext fun a => ?_)
  rw [Bool.eq_iff_iff]
  simp only [decide_eq_true_eq]
  rfl

/-- The whole loop, from any point of the ordinary pass. -/
theorem select_ordinary : ∀ {back front : List Agent} {memo : Dict (List String) OwnerFacts} {fuel : ℕ},
    call.candidates t = front ++ back → call.Asked t netuid front memo →
    back.length + (call.candidates t).length + 2 ≤ fuel →
    call.select t netuid fuel (call.ordinaryState t netuid front memo) =
      some (match back.find? fun a => call.Passes t (call.sharedFacts t netuid) false a with
        | some agent => some (false, agent)
        | none =>
          if minOwnerConcurrentSubmissionLimit < call.ownerConcurrentSubmissionLimit then
            ((call.candidates t).find? fun a => call.PassesRelaxed t (call.sharedFacts t netuid) a).map
              fun agent => (true, agent)
          else none) := by
  intro back
  induction back with
  | nil =>
    intro front memo fuel hsplit hasked hfuel
    obtain ⟨fuel, rfl⟩ : ∃ n, fuel = n + 1 := ⟨fuel - 1, by omega⟩
    rw [List.append_nil] at hsplit
    subst hsplit
    rw [Call.select, Call.round, candidate_ordinary (List.append_nil _).symm]
    simp only [List.head?_nil, List.find?_nil]
    have heligible : call.eligible t (call.ordinaryState t netuid (call.candidates t) memo) = [] := by
      simpa [Call.eligible, Call.ordinaryState] using fun a _ => ⟨a, ‹_›, rfl⟩
    by_cases hlimit : minOwnerConcurrentSubmissionLimit < call.ownerConcurrentSubmissionLimit
    · rw [if_pos hlimit, ← find?_refused]
      by_cases hskips : call.refused t netuid (call.candidates t) = []
      · simp [Call.ordinaryState, hskips]
      · rw [if_neg (by simp [Call.ordinaryState, hskips, hlimit]), if_neg (by simp [heligible])]
        have hstart : call.refused t netuid (call.candidates t) = [] ++ call.refused t netuid (call.candidates t) := rfl
        have hasked' : call.Asked t netuid (call.candidates t ++ []) memo := by rwa [List.append_nil]
        refine select_lastResort hstart hasked' ?_
        have := List.length_filter_le
          (fun a => decide (call.gate (call.sharedFacts t netuid a) false a = some .ownerSerialized))
          (call.candidates t)
        rw [Call.refused]
        omega
    · rw [if_neg hlimit, if_pos (.inr (.inr (not_lt.1 hlimit)))]
  | cons a back ih =>
    intro front memo fuel hsplit hasked hfuel
    obtain ⟨fuel, rfl⟩ : ∃ n, fuel = n + 1 := ⟨fuel - 1, by omega⟩
    rw [List.length_cons] at hfuel
    obtain ⟨hlease, hskip⟩ := round_ordinary hsplit hasked
    by_cases hpass : call.Passes t (call.sharedFacts t netuid) false a
    · rw [Call.select, hlease hpass, List.find?_cons_of_pos (by simpa using hpass)]
      rfl
    · obtain ⟨memo', hasked', hround⟩ := hskip hpass
      rw [Call.select, hround, List.find?_cons_of_neg (by simpa using hpass)]
      exact ih (by rw [hsplit, List.append_cons]) hasked' (by omega)

/-- The loop ends, with the choice of the law for the shared answers. -/
theorem select_eq_pick {fuel : ℕ} (hfuel : 2 * call.queue.length + 2 ≤ fuel) :
    call.select t netuid fuel Loop.init = some (call.pick t (call.sharedFacts t netuid)) := by
  have hlength : (call.candidates t).length ≤ call.queue.length := List.length_filter_le _ _
  have hstart : call.candidates t = [] ++ call.candidates t := rfl
  exact select_ordinary hstart Memo.holds_nil (by omega)

omit [LE K] [DecidableLE K] in
/-- The sweep leaves no live lease that was not one before. -/
theorem live_of_expireOverdueTickets {now : ℤ} {row : TicketKey × Ticket}
    (hrow : row ∈ (t.expireOverdueTickets now).tickets) (hlive : row.2.Live now) : row ∈ t.tickets := by
  obtain ⟨stored, hstored, rfl⟩ := List.mem_map.1 hrow
  by_cases hover : stored.2.Overdue now
  · simp only [if_pos hover] at hlive
    exact absurd hlive.1 (by simp [sweepTicket])
  · simpa [hover] using hstored

theorem issueTicket_eq (hadmitted : call.admitted = true)
    (hslot : ∀ row ∈ t.tickets, row.1.validatorHotkey = call.lease.validatorHotkey →
      row.2.slotId = call.lease.slotId → ¬ row.2.Live call.lease.now) (fuel : ℕ) :
    issueTicket t netuid call fuel = call.allocate (t.expireOverdueTickets call.lease.now) netuid fuel := by
  have hnone : ∀ row ∈ (t.expireOverdueTickets call.lease.now).tickets,
      row.1.validatorHotkey = call.lease.validatorHotkey → row.2.slotId = call.lease.slotId →
      ¬ row.2.Live call.lease.now :=
    fun row hrow hval hid hlive => hslot row (live_of_expireOverdueTickets hrow hlive) hval hid hlive
  have hexisting : ((t.expireOverdueTickets call.lease.now).tickets.filter fun row =>
      Probe.existing.Matches call.lease none row.1 row.2 ∧ call.resumes row.1 = true) = [] := by
    refine List.filter_eq_nil_iff.2 fun row hrow h => ?_
    obtain ⟨⟨hval, hlive, hselects⟩, -⟩ := of_decide_eq_true h
    exact hnone row hrow hval hselects.1 hlive
  have hincompatible : ((t.expireOverdueTickets call.lease.now).tickets.find? fun row =>
      Probe.incompatible.Matches call.lease none row.1 row.2) = none := by
    refine List.find?_eq_none.2 fun row hrow h => ?_
    obtain ⟨hval, hlive, hselects⟩ := of_decide_eq_true h
    exact hnone row hrow hval hselects hlive
  rw [issueTicket]
  simp only [hadmitted, hexisting, hincompatible]
  rfl

/-- A call that an entry gate refuses returns nothing. -/
theorem issueTicket_of_not_admitted (h : call.admitted = false) (fuel : ℕ) :
    issueTicket t netuid call fuel = some none := by
  simp [issueTicket, h]

/-- The lease of the law: of the first candidate that passes with the answers about its own linkage. -/
def Call.lawful (t : Tables K) (netuid : ℕ) (call : Call K) : Option Issued :=
  (call.pick t (call.ownFacts t netuid)).map fun choice => .leased choice.1 choice.2 (call.leaseOf t choice.2)

/-- **The selection law.** On a free slot the call ends. One that is admitted leases what the law picks exactly when the
candidates are judged alike, in particular when linkages with the same lock keys agree; one that is not keeps to the law
exactly when no candidate passes. -/
theorem issueTicket_law_iff (t : Tables K) (netuid : ℕ) (call : Call K)
    (hslot : ∀ row ∈ t.tickets, row.1.validatorHotkey = call.lease.validatorHotkey →
      row.2.slotId = call.lease.slotId → ¬ row.2.Live call.lease.now)
    (fuel : ℕ) (hfuel : 2 * call.queue.length + 2 ≤ fuel) :
    let swept := t.expireOverdueTickets call.lease.now
    (issueTicket t netuid call fuel).isSome = true ∧
    (issueTicket t netuid call fuel = some (call.lawful swept netuid) ↔
      (call.admitted = true ∧ call.JudgedAlike swept netuid) ∨
        (call.admitted = false ∧ call.NonePasses swept netuid)) ∧
    (call.admitted = true → swept.Agreeing netuid call.asking (call.candidates swept) →
      issueTicket t netuid call fuel = some (call.lawful swept netuid)) := by
  intro swept
  cases hadmitted : call.admitted with
  | false =>
    rw [issueTicket_of_not_admitted hadmitted]
    refine ⟨rfl, ?_, fun h => nomatch h⟩
    rw [← pick_eq_none_iff, Call.lawful]
    simp [eq_comm]
  | true =>
    have hselected : issueTicket t netuid call fuel = some ((call.pick swept (call.sharedFacts swept netuid)).map
        fun choice => .leased choice.1 choice.2 (call.leaseOf swept choice.2)) := by
      rw [issueTicket_eq hadmitted hslot, Call.allocate, select_eq_pick hfuel]
      rfl
    have hinj : Function.Injective (Option.map fun choice : Bool × Agent =>
        Issued.leased choice.1 choice.2 (call.leaseOf swept choice.2)) := by
      refine Option.map_injective fun c c' h => ?_
      injection h with hmode hagent
      exact Prod.ext hmode hagent
    have hlaw : issueTicket t netuid call fuel = some (call.lawful swept netuid) ↔ call.JudgedAlike swept netuid := by
      rw [hselected, Call.lawful, Option.some.injEq, hinj.eq_iff, ← pick_eq_iff, eq_comm]
    refine ⟨by rw [hselected]; rfl, ?_, fun _ hagree => hlaw.2 (judgedAlike_of_agreeing hagree)⟩
    rw [hlaw]
    simp

end Walk

def alice : Agent := ⟨"a", "alice", true, 1⟩

def bob : Agent := ⟨"b", "bob", true, 2⟩

/-- A submission that is near-identical to a live lease. -/
def dave : Agent := ⟨"d", "dave", true, 3⟩

/-- A poll of another validator. -/
def sampleCall (queue : List Agent) (h : (queue.map (·.agentId)).Nodup) : Call ℕ where
  lease := ⟨"other", "slot-0", 20, 90, 14⟩
  completionFirst := false
  admitted := true
  resumes := fun _ => true
  forceExpires := false
  queue := queue
  provisionalContenderFloor := none
  capableValidatorHotkeys := ∅
  admits := fun _ => true
  ownerConcurrentSubmissionLimit := 2
  twins := fun id => if id = "d" then {"x"} else ∅
  similarityConcurrentSubmissionLimit := 1
  queue_nodup := h

/-- The queue offers `alice`'s submission before `bob`'s: `bob`'s passes the ordinary pass, and `alice`'s is leased as a
last resort. -/
theorem alice_leased_before_bob :
    let call := sampleCall [alice, bob] (by decide)
    let swept := sampleTables.expireOverdueTickets 20
    (issueTicket sampleTables 118 call 6).map (Option.map fun i => match i with
        | .leased lastResort agent _ => (lastResort, agent)
        | .resumed _ _ => (false, bob)) = some (some (true, alice)) ∧
      call.pick swept (call.ownFacts swept 118) = some (false, bob) := by
  decide +kernel

/-- `dave`'s submission is refused for its twin, `bob`'s passes, and `alice`'s is not come to. -/
theorem bob_leased :
    let call := sampleCall [dave, bob, alice] (by decide)
    let swept := sampleTables.expireOverdueTickets 20
    issueTicket sampleTables 118 call 8 = some (call.lawful swept 118) ∧
      call.pick swept (call.ownFacts swept 118) = some (false, bob) := by
  refine ⟨?_, by decide +kernel⟩
  refine (issueTicket_law_iff sampleTables 118 (sampleCall [dave, bob, alice] (by decide)) (by decide +kernel) 8
    (by decide)).2.1.2 (.inl ⟨rfl, ?_, ?_⟩)
  · decide +kernel
  · decide +kernel

end DittoSubnet.Platform.Queue

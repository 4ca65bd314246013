import DittoSubnet.Kit.Window
import DittoSubnet.Treasury.Changes
import DittoSubnet.Treasury.Receipts

/-!
# A canary and its successors

Once a canary is recorded, every later claim needs an authority: the canary, its replacement or an armed intent that is
not retired (`authorities`). `Governed` is the invariant: the authorities form a chain of one-claim grants from the
canary's baseline (`Kit.Chained`), and a claim that follows an authority keeps within it.

* `Governed.last`: the bound in force is the last authority.
* `governed_reachable`: every reachable journal of a transfer signer is governed.
* `authorities_bound_claims`: each later operation has exactly one authority and is bounded by it.
-/

namespace DittoSubnet.Treasury

open Kit Relation

variable {custody : Custody} {journal journal' : Journal}

/-! ## Authorities -/

inductive Authority
  | canary (canary : TransferCanary)
  | replacement (replacement : CanaryReplacement)
  | intent (request : ManualTransfer)
  deriving DecidableEq

/-- The ceiling and the baseline of an authority. -/
def Authority.bound : Authority → TransferCanary
  | .canary c => c
  | .replacement r => r.canary
  | .intent request => request.bound

def Authority.intent? : Authority → Option ManualTransfer
  | .intent request => some request
  | _ => none

/-- An operation keeps within its authority: below a ceiling, or exactly an intent. -/
def Authority.Within (custody : Custody) : Authority → Operation → Prop
  | .canary c, op => op.role = .transfer ∧ 0 < op.amount ∧ op.amount ≤ c.maxAlphaRao
  | .replacement r, op => op.role = .transfer ∧ 0 < op.amount ∧ op.amount ≤ r.canary.maxAlphaRao
  | .intent request, op => exactClaim custody request op

def Event.authority? : Event → Option Authority
  | .transferCanaryArmed _ canary => some (.canary canary)
  | .transferCanaryReplaced replacement => some (.replacement replacement)
  | .manualTransferArmed _ request => some (.intent request)
  | _ => none

/-- Only an intent can be retired. -/
def Authority.live (expired : List String) : Authority → Bool
  | .intent request => decide (request.requestId ∉ expired)
  | _ => true

/-- The authorities that are not retired, in the order of their events. -/
def authorities (events : List Event) : List Authority :=
  (events.filterMap Event.authority?).filter fun a => a.live (expiredIds events)

/-- The baselines of the authorities. -/
def lows (events : List Event) : List ℕ := (authorities events).map (·.bound.afterOperation)

theorem expiredIds_append (a b : List Event) : expiredIds (a ++ b) = expiredIds a ++ expiredIds b := by
  simp [expiredIds]

/-- An event that retires nothing adds its own authority at most. -/
theorem authorities_append {events added : List Event} (h : expiredIds added = []) :
    authorities (events ++ added) = authorities events ++
      (added.filterMap Event.authority?).filter fun a => a.live (expiredIds events) := by
  unfold authorities
  rw [expiredIds_append, h, List.append_nil, List.filterMap_append, List.filter_append]

theorem expiredIds_notes {notes : List Event} (h : ∀ e ∈ notes, e.isNote = true) : expiredIds notes = [] := by
  have hnone : notes.filterMap Event.expiry? = [] := by
    rw [List.filterMap_eq_nil_iff]
    intro e he
    have := h e he
    cases e <;> first | rfl | cases this
  rw [expiredIds, hnone, List.map_nil]

theorem authority_notes {notes : List Event} (h : ∀ e ∈ notes, e.isNote = true) :
    notes.filterMap Event.authority? = [] := by
  rw [List.filterMap_eq_nil_iff]
  intro e he
  have := h e he
  cases e <;> first | rfl | cases this

theorem canaryRecords_notes {notes : List Event} (h : ∀ e ∈ notes, e.isNote = true) : canaryRecords notes = [] := by
  rw [canaryRecords, List.filterMap_eq_nil_iff]
  intro e he
  have := h e he
  cases e <;> first | rfl | cases this

theorem replacement_notes {notes : List Event} (h : ∀ e ∈ notes, e.isNote = true) :
    notes.filterMap Event.replacement? = [] := by
  rw [List.filterMap_eq_nil_iff]
  intro e he
  have := h e he
  cases e <;> first | rfl | cases this

theorem authorities_notes (events : List Event) {notes : List Event} (h : ∀ e ∈ notes, e.isNote = true) :
    authorities (events ++ notes) = authorities events := by
  rw [authorities_append (expiredIds_notes h), authority_notes h, List.filter_nil, List.append_nil]

/-- A retirement takes its intent away. -/
theorem authorities_expire (events : List Event) (expiry : UnsignedExpiry) :
    authorities (events ++ [.manualUnsignedExpired expiry]) =
      (authorities events).filter fun a => a.live [expiry.requestId] := by
  unfold authorities
  rw [expiredIds_append, List.filterMap_append, List.filter_append, List.filter_filter]
  have hnew : [Event.manualUnsignedExpired expiry].filterMap Event.authority? = [] := rfl
  rw [hnew, List.filter_nil, List.append_nil]
  apply List.filter_congr
  intro a _
  cases a with
  | canary | replacement => rfl
  | intent request =>
    have hids : expiredIds [.manualUnsignedExpired expiry] = [expiry.requestId] := rfl
    simp only [Authority.live, hids, List.mem_append, not_or]
    by_cases h₁ : request.requestId ∈ expiredIds events
    · simp [h₁]
    · simp [h₁]

theorem filterMap_intent (events : List Event) : (authorities events).filterMap Authority.intent? =
    liveIntents events := by
  unfold authorities liveIntents
  rw [List.filterMap_filter, List.filterMap_filterMap, List.filter_filterMap]
  congr 1
  funext e
  cases e with
  | manualTransferArmed policy request =>
    by_cases hlive : request.requestId ∈ expiredIds events
    · simp [Event.authority?, Event.armed?, Authority.live, Option.filter, hlive]
    · simp [Event.authority?, Event.armed?, Authority.live, Authority.intent?, Option.filter, hlive]
  | _ => rfl

theorem canary_mem_iff {events : List Event} {canary : TransferCanary} :
    Authority.canary canary ∈ authorities events ↔ ∃ policy, (policy, canary) ∈ canaryRecords events := by
  unfold authorities canaryRecords
  simp only [List.mem_filter, List.mem_filterMap]
  constructor
  · rintro ⟨⟨e, he, heq⟩, -⟩
    cases e with
    | transferCanaryArmed policy c =>
      rw [Event.authority?, Option.some.injEq, Authority.canary.injEq] at heq
      exact ⟨policy, _, he, by rw [heq]⟩
    | _ => cases heq
  · rintro ⟨policy, e, he, heq⟩
    cases e with
    | transferCanaryArmed policy' c =>
      simp only [Option.some.injEq, Prod.mk.injEq] at heq
      exact ⟨⟨_, he, by rw [Event.authority?, heq.2]⟩, rfl⟩
    | _ => cases heq

theorem replacement_mem_iff {events : List Event} {replacement : CanaryReplacement} :
    Authority.replacement replacement ∈ authorities events ↔ replacement ∈ events.filterMap Event.replacement? := by
  unfold authorities
  simp only [List.mem_filter, List.mem_filterMap]
  constructor
  · rintro ⟨⟨e, he, heq⟩, -⟩
    cases e with
    | transferCanaryReplaced r =>
      rw [Event.authority?, Option.some.injEq, Authority.replacement.injEq] at heq
      exact ⟨_, he, by rw [Event.replacement?, heq]⟩
    | _ => cases heq
  · rintro ⟨e, he, heq⟩
    cases e with
    | transferCanaryReplaced r =>
      rw [Event.replacement?, Option.some.injEq] at heq
      exact ⟨⟨_, he, by rw [Event.authority?, heq]⟩, rfl⟩
    | _ => cases heq

theorem intent_mem_iff {events : List Event} {request : ManualTransfer} :
    Authority.intent request ∈ authorities events ↔ request ∈ liveIntents events := by
  rw [← filterMap_intent, List.mem_filterMap]
  constructor
  · intro h
    exact ⟨_, h, rfl⟩
  · rintro ⟨a, ha, heq⟩
    cases a with
    | intent r => rwa [← Option.some.inj heq]
    | canary | replacement => cases heq

/-! ## The invariant -/

/-- Operations are numbered in order; from a canary on, the authorities are a chain of grants that bound the claims. -/
structure Governed (custody : Custody) (journal : Journal) : Prop where
  ids : journal.operations.map (·.id) = List.range' 1 journal.operations.length
  quiet : canaryRecords journal.events = [] → authorities journal.events = []
  single : (canaryRecords journal.events).length ≤ 1
  replaced : (journal.events.filterMap Event.replacement?).length ≤ 1
  chained : ∀ policy canary, canaryRecords journal.events = [(policy, canary)] →
    Chained canary.afterOperation journal.operations.length (lows journal.events)
  within : ∀ a ∈ authorities journal.events, ∀ op ∈ journal.operations, op.id = a.bound.afterOperation + 1 →
    a.Within custody op

theorem foldl_max_range' (n : ℕ) : (List.range' 1 n).foldl max 0 = n := by
  induction n with
  | zero => rfl
  | succ n ih =>
    rw [List.range'_1_concat, List.foldl_append, ih, List.foldl_cons, List.foldl_nil]
    omega

section Numbering

variable (hids : journal.operations.map (·.id) = List.range' 1 journal.operations.length)
include hids

/-- The largest id is the number of operations. -/
theorem maximum_eq_length : journal.maximum = journal.operations.length := by
  unfold Journal.maximum
  rw [hids, foldl_max_range']

theorem id_mem {op : Operation} (hop : op ∈ journal.operations) : 1 ≤ op.id ∧ op.id ≤ journal.operations.length := by
  have hmem : op.id ∈ journal.operations.map (·.id) := List.mem_map_of_mem hop
  rw [hids, List.mem_range'_1] at hmem
  omega

theorem operation_of_id (id : ℕ) (hpos : 1 ≤ id) (hle : id ≤ journal.operations.length) :
    ∃ op ∈ journal.operations, op.id = id := by
  have hmem : id ∈ journal.operations.map (·.id) := by
    rw [hids, List.mem_range'_1]
    omega
  exact List.mem_map.1 hmem

theorem operation_inj {op op' : Operation} (hop : op ∈ journal.operations) (hop' : op' ∈ journal.operations)
    (h : op.id = op'.id) : op = op' := by
  have hnodup : (journal.operations.map (·.id)).Nodup := by
    rw [hids]
    exact List.nodup_range'
  exact List.inj_on_of_nodup_map hnodup hop hop' h

end Numbering

/-- An update of one operation that leaves a part of every operation alone. -/
theorem map_updateOperation {β : Type} {f : Operation → Operation} {g : Operation → β} (journal : Journal) (id : ℕ)
    (h : ∀ op, g (f op) = g op) : (journal.updateOperation id f).operations.map g = journal.operations.map g := by
  simp only [Journal.updateOperation, List.map_map]
  apply List.map_congr_left
  intro op _
  simp only [Function.comp_apply]
  split
  · exact h op
  · rfl

/-- What the invariant reads of the journal. -/
theorem Governed.congr (h : Governed custody journal)
    (hops : journal'.operations.map (fun op => (op.id, op.role, op.amount, op.sourceBlock, op.bucket, op.destination)) =
      journal.operations.map fun op => (op.id, op.role, op.amount, op.sourceBlock, op.bucket, op.destination))
    (hcanary : canaryRecords journal'.events = canaryRecords journal.events)
    (hauthorities : authorities journal'.events = authorities journal.events)
    (hreplaced : journal'.events.filterMap Event.replacement? = journal.events.filterMap Event.replacement?) :
    Governed custody journal' := by
  have hlen : journal'.operations.length = journal.operations.length := by
    simpa using congrArg List.length hops
  have hid : journal'.operations.map (·.id) = journal.operations.map (·.id) := by
    simpa [Function.comp_def] using congrArg (List.map Prod.fst) hops
  refine ⟨?_, ?_, ?_, ?_, ?_, ?_⟩
  · rw [hid, hlen]
    exact h.ids
  · rw [hcanary, hauthorities]
    exact h.quiet
  · rw [hcanary]
    exact h.single
  · rw [hreplaced]
    exact h.replaced
  · rw [hcanary, hlen, lows, hauthorities]
    exact h.chained
  · intro a ha op hop hop_id
    rw [hauthorities] at ha
    have hmem := List.mem_map_of_mem (f := fun op : Operation =>
      (op.id, op.role, op.amount, op.sourceBlock, op.bucket, op.destination)) hop
    rw [hops] at hmem
    obtain ⟨old, hold, heq⟩ := List.mem_map.1 hmem
    simp only [Prod.mk.injEq] at heq
    obtain ⟨h₁, h₂, h₃, h₄, h₅, h₆⟩ := heq
    have hwithin := h.within a ha old hold (h₁.trans hop_id)
    cases a with
    | canary c | replacement r =>
      simp only [Authority.Within] at hwithin ⊢
      rwa [← h₂, ← h₃]
    | intent request =>
      simp only [Authority.Within, exactClaim] at hwithin ⊢
      rwa [← h₂, ← h₃, ← h₄, ← h₅, ← h₆]

/-- The bound in force is the last authority, and the last intent is it or nothing. -/
theorem Governed.last (h : Governed custody journal) {manual : List ManualTransfer} {bound : TransferCanary}
    (hforce : InForce custody journal manual (some bound)) (hmanual : manual = liveIntents journal.events) :
    ∃ front a, authorities journal.events = front ++ [a] ∧ a.bound = bound ∧ manual.getLast? = a.intent? := by
  obtain ⟨policy, canary, existing, replacement, hcanary, hreplacement, hexisting, hbound⟩ :
      ∃ policy canary existing replacement, canaryRecords journal.events = [(policy, canary)] ∧
        canaryReplacement custody journal = .ok replacement ∧ boundCanary journal canary replacement = .ok existing ∧
        bound = manual.getLast?.elim existing (·.bound) := by
    cases hforce with
    | bound h₁ h₂ h₃ =>
      refine ⟨_, _, _, _, h₁, h₂, h₃, ?_⟩
      cases manual.getLast? <;> rfl
  have hchained := h.chained policy canary hcanary
  have hmem : Authority.canary canary ∈ authorities journal.events := by
    rw [canary_mem_iff]
    exact ⟨policy, by rw [hcanary]; exact List.mem_singleton_self _⟩
  have hne : authorities journal.events ≠ [] := List.ne_nil_of_mem hmem
  obtain ⟨front, a, hauth⟩ := (List.eq_nil_or_concat' _).resolve_left hne
  have hlows : lows journal.events = front.map (·.bound.afterOperation) ++ [a.bound.afterOperation] := by
    rw [lows, hauth, List.map_append, List.map_singleton]
  have hafter : a.bound.afterOperation = canary.afterOperation + front.length := by
    have hlast := hchained.getLast? (by rw [hlows]; simp)
    rw [hlows, List.getLast?_append, List.length_append, List.length_map] at hlast
    simpa using hlast
  have hlive : manual = front.filterMap Authority.intent? ++ a.intent?.toList := by
    rw [hmanual, ← filterMap_intent, hauth, List.filterMap_append]
    cases a <;> rfl
  have hreplaced := canaryReplacement_cases hreplacement
  refine ⟨front, a, hauth, ?_⟩
  cases a with
  | intent request =>
    have hlast : manual.getLast? = some request := by
      rw [hlive]
      simp [Authority.intent?]
    rw [hlast] at hbound ⊢
    exact ⟨hbound.symm, rfl⟩
  | canary c =>
    -- the canary is the first of the chain, so it stands alone
    have hc : c = canary := by
      have hmem : Authority.canary c ∈ authorities journal.events := by simp [hauth]
      obtain ⟨policy', hrecord⟩ := canary_mem_iff.1 hmem
      rw [hcanary, List.mem_singleton, Prod.mk.injEq] at hrecord
      exact hrecord.2
    subst hc
    have hfront : front = [] := by
      apply List.eq_nil_of_length_eq_zero
      simp only [Authority.bound] at hafter
      omega
    have hnone : manual = [] := by
      rw [hlive, hfront]
      rfl
    have hunreplaced : replacement = none := by
      cases replacement with
      | none => rfl
      | some r =>
        have hr : Authority.replacement r ∈ authorities journal.events := by
          rw [replacement_mem_iff, hreplaced]
          exact List.mem_singleton_self _
        rw [hauth, hfront] at hr
        simp at hr
    rcases boundCanary_cases hexisting with ⟨-, rfl⟩ | ⟨r, _, hsome, -⟩
    · rw [hnone] at hbound ⊢
      exact ⟨hbound.symm, rfl⟩
    · rw [hunreplaced] at hsome
      cases hsome
  | replacement r =>
    -- a replacement in force follows the canary at once, so there is no intent
    have hr : replacement = some r := by
      have hmem : r ∈ journal.events.filterMap Event.replacement? := by
        rw [← replacement_mem_iff, hauth]
        simp
      rw [hreplaced] at hmem
      exact Option.mem_toList.1 hmem
    rcases boundCanary_cases hexisting with ⟨hnone, -⟩ | ⟨r', old, hsome, rfl, hnext, -⟩
    · rw [hr] at hnone
      cases hnone
    · rw [hr, Option.some.injEq] at hsome
      subst hsome
      have hfront : front.length = 1 := by
        simp only [Authority.bound] at hafter
        omega
      obtain ⟨x, rfl⟩ := List.length_eq_one_iff.1 hfront
      have hx : x = .canary canary := by
        rw [hauth] at hmem
        have hcase : Authority.canary canary = x := by simpa using hmem
        exact hcase.symm
      have hnone : manual = [] := by
        rw [hlive, hx]
        rfl
      rw [hnone] at hbound ⊢
      exact ⟨hbound.symm, rfl⟩

/-! ## Writes keep the invariant -/

/-- With a bound in force a canary is recorded. -/
theorem InForce.canary {manual : List ManualTransfer} {bound : TransferCanary}
    (h : InForce custody journal manual (some bound)) :
    ∃ policy canary, canaryRecords journal.events = [(policy, canary)] := by
  cases h with
  | bound hcanary _ _ => exact ⟨_, _, hcanary⟩

theorem lows_append_singleton {events : List Event} {front : List Authority} {a : Authority}
    (h : authorities events = front ++ [a]) : (lows events).getLast? = some a.bound.afterOperation := by
  rw [lows, h, List.map_append, List.map_singleton, List.getLast?_append]
  rfl

/-- A new authority on top of a spent one. -/
theorem Governed.grant (h : Governed custody journal) {manual : List ManualTransfer} {existing : TransferCanary}
    {e : Event} {a : Authority} (hforce : InForce custody journal manual (some existing))
    (hmanual : manual = liveIntents journal.events) (hspent : journal.maximum = existing.afterOperation + 1)
    (hcurrent : a.bound.afterOperation = journal.maximum)
    (hauthority : e.authority? = some a) (hlive : a.live (expiredIds journal.events) = true)
    (hexpiry : expiredIds [e] = []) (hcanary : canaryRecords [e] = [])
    (hreplaced : (journal.events.filterMap Event.replacement? ++ [e].filterMap Event.replacement?).length ≤ 1) :
    Governed custody (journal.event e) := by
  have hmaximum := maximum_eq_length h.ids
  have hauthorities : authorities (journal.events ++ [e]) = authorities journal.events ++ [a] := by
    rw [authorities_append hexpiry]
    simp [hauthority, hlive]
  have hrecords : canaryRecords (journal.events ++ [e]) = canaryRecords journal.events := by
    rw [canaryRecords_append, hcanary, List.append_nil]
  obtain ⟨front, last, hauth, hbound, -⟩ := h.last hforce hmanual
  refine ⟨h.ids, ?_, ?_, ?_, ?_, ?_⟩
  · intro hnone
    obtain ⟨policy, canary, hsome⟩ := hforce.canary
    rw [Journal.event_events, hrecords, hsome] at hnone
    cases hnone
  · rw [Journal.event_events, hrecords]
    exact h.single
  · rw [Journal.event_events, List.filterMap_append]
    exact hreplaced
  · intro policy canary hsome
    rw [Journal.event_events, hrecords] at hsome
    have hgrant := (h.chained policy canary hsome).grant (lows_append_singleton hauth)
      (by rw [hbound, ← hspent, hmaximum])
    rw [Journal.event_operations, Journal.event_events, lows, hauthorities, List.map_append, List.map_singleton,
      hcurrent, hmaximum]
    exact hgrant
  · intro b hb op hop hid
    rw [Journal.event_events, hauthorities, List.mem_append, List.mem_singleton] at hb
    rcases hb with hb | rfl
    · exact h.within b hb op hop hid
    · -- the new authority is for the next operation
      have hle := (id_mem h.ids hop).2
      omega

theorem Governed.newCanary (h : Governed custody journal) {canary : TransferCanary}
    (hnew : NewCanary custody journal canary) :
    Governed custody (journal.event (.transferCanaryArmed custody.policy.digest canary)) := by
  have hmaximum := maximum_eq_length h.ids
  have hauthorities : authorities (journal.events ++ [.transferCanaryArmed custody.policy.digest canary]) =
      [.canary canary] := by
    rw [authorities_append rfl, h.quiet hnew.first]
    rfl
  have hrecords : canaryRecords (journal.events ++ [.transferCanaryArmed custody.policy.digest canary]) =
      [(custody.policy.digest, canary)] := by
    rw [canaryRecords_append, hnew.first]
    rfl
  refine ⟨h.ids, ?_, ?_, ?_, ?_, ?_⟩
  · intro hnone
    rw [Journal.event_events, hrecords] at hnone
    cases hnone
  · rw [Journal.event_events, hrecords]
    exact le_rfl
  · have hnone := canaryReplacement_cases hnew.unreplaced
    rw [Journal.event_events, List.filterMap_append, hnone]
    exact Nat.zero_le 1
  · intro policy c hsome
    rw [Journal.event_events, hrecords, List.singleton_inj, Prod.mk.injEq] at hsome
    rw [Journal.event_operations, Journal.event_events, lows, hauthorities, ← hsome.2, ← hmaximum, hnew.baseline]
    exact Chained.single _
  · intro a ha op hop hid
    rw [Journal.event_events, hauthorities, List.mem_singleton] at ha
    have hle := (id_mem h.ids hop).2
    have hbaseline := hnew.baseline
    subst ha
    simp only [Authority.bound] at hid
    omega

/-- A live intent was armed. -/
theorem mem_armed {events : List Event} {request : ManualTransfer} (h : Authority.intent request ∈ authorities events) :
    request ∈ events.filterMap Event.armed? := by
  rw [intent_mem_iff, liveIntents] at h
  exact List.mem_of_mem_filter h

/-- An authority for the next operation is the last one. -/
theorem last_unspent {events : List Event} {base top : ℕ} {a : Authority} (hchained : Chained base top (lows events))
    (ha : a ∈ authorities events) (htop : a.bound.afterOperation = top) :
      ∃ front, authorities events = front ++ [a] := by
  obtain ⟨front, b, hauth⟩ := (List.eq_nil_or_concat' _).resolve_left (List.ne_nil_of_mem ha)
  have hb : b ∈ authorities events := by
    rw [hauth]
    exact List.mem_append_right _ (List.mem_singleton_self b)
  have hlow : a.bound.afterOperation ∈ lows events := List.mem_map_of_mem ha
  have hrange := hchained.mem_iff.1 hlow
  have hlast := hchained.top_of_last (lows_append_singleton hauth)
  have hlen := hchained.getLast? (List.ne_nil_of_mem hlow)
  have hgranted := hchained.granted
  rw [lows_append_singleton hauth, Option.some.injEq] at hlen
  have hsame : b.bound.afterOperation = a.bound.afterOperation := by omega
  have heq : b = a := List.inj_on_of_nodup_map hchained.nodup hb ha hsame
  exact ⟨front, by rw [hauth, heq]⟩

/-- The unspent last intent is taken back. -/
theorem Governed.retire (h : Governed custody journal) {expiry : UnsignedExpiry} {request : ManualTransfer}
    {manual : List ManualTransfer} (hretire : Retirable custody journal expiry.requestId request manual) :
    Governed custody (journal.event (.manualUnsignedExpired expiry)) := by
  have hmaximum := maximum_eq_length h.ids
  obtain ⟨hmanual, hnodup⟩ := manualTransferHistory_spec hretire.history
  have hrequest : Authority.intent request ∈ authorities journal.events := by
    rw [intent_mem_iff, ← hmanual]
    exact List.mem_of_getLast? hretire.latest
  have hauthorities := authorities_expire journal.events expiry
  have hrecords : canaryRecords (journal.events ++ [.manualUnsignedExpired expiry]) =
      canaryRecords journal.events := by
    rw [canaryRecords_append]
    exact List.append_nil _
  refine ⟨h.ids, ?_, ?_, ?_, ?_, ?_⟩
  · intro hnone
    rw [Journal.event_events, hrecords] at hnone
    rw [h.quiet hnone] at hrequest
    cases hrequest
  · rw [Journal.event_events, hrecords]
    exact h.single
  · rw [Journal.event_events, List.filterMap_append]
    have hnone : [Event.manualUnsignedExpired expiry].filterMap Event.replacement? = [] := rfl
    rw [hnone, List.append_nil]
    exact h.replaced
  · intro policy canary hsome
    rw [Journal.event_events, hrecords] at hsome
    have hchained := h.chained policy canary hsome
    obtain ⟨front, hauth⟩ := last_unspent hchained hrequest (by rw [← hmaximum]; exact hretire.unspent.symm)
    have hdistinct : (authorities journal.events).Nodup := List.Nodup.of_map _ hchained.nodup
    have hfront : (authorities journal.events).filter (fun a => a.live [expiry.requestId]) = front := by
      rw [hauth, List.filter_append, List.filter_eq_self.2, List.filter_eq_nil_iff.2, List.append_nil]
      · intro a ha
        rw [List.mem_singleton.1 ha]
        simp [Authority.live, hretire.named]
      · intro a ha
        cases a with
        | canary | replacement => rfl
        | intent other =>
          -- another intent with the same request id would be the same intent
          simp only [Authority.live, List.mem_singleton, decide_eq_true_eq]
          intro hsame
          have hother : Authority.intent other ∈ authorities journal.events := by
            rw [hauth]
            exact List.mem_append_left _ ha
          have heq : other = request := List.inj_on_of_nodup_map hnodup (mem_armed hother) (mem_armed hrequest)
            (hsame.trans hretire.named.symm)
          rw [hauth] at hdistinct
          exact (List.nodup_append.1 hdistinct).2.2 _ (heq ▸ ha) _ (List.mem_singleton_self _) rfl
    have hlows : lows journal.events = front.map (·.bound.afterOperation) ++ [journal.operations.length] := by
      rw [lows, hauth, List.map_append, List.map_singleton, ← hmaximum, hretire.unspent]
      rfl
    rw [hlows] at hchained
    rw [Journal.event_operations, Journal.event_events, lows, hauthorities, hfront]
    exact hchained.revoke
  · intro a ha op hop hid
    rw [Journal.event_events, hauthorities] at ha
    exact h.within a (List.mem_of_mem_filter ha) op hop hid

/-- A reserved claim keeps within the last authority. -/
theorem Reservable.within {claim : Claim} {bound : TransferCanary} {manual : List ManualTransfer} {a : Authority}
    (h : Reservable custody journal claim (some bound) manual) (hbound : a.bound = bound)
    (hlast : manual.getLast? = a.intent?) (id : ℕ) (signed : SignedOperation) :
    a.Within custody (claim.operation id .transfer signed) := by
  have hceiling : a.intent? = none → claim.amount ≤ bound.maxAlphaRao ∧ 0 < claim.amount := by
    intro hnone
    rcases h.kind with ⟨row, remaining, part, hleg⟩ | ⟨intent, _, _, _, _, hsome, -⟩
    · have hpos := (mem_remainingSource hleg.owed hleg.part_mem).1
      have hmax := bound.maxAlphaRao_mem.1
      have hamount : claim.amount = min part.alphaRao bound.maxAlphaRao := by
        rw [hleg.amount, hlast, hnone]
        rfl
      omega
    · rw [hlast, hnone] at hsome
      cases hsome
  cases a with
  | canary c =>
    obtain ⟨hle, hpos⟩ := hceiling rfl
    rw [← hbound] at hle
    exact ⟨rfl, hpos, hle⟩
  | replacement r =>
    obtain ⟨hle, hpos⟩ := hceiling rfl
    rw [← hbound] at hle
    exact ⟨rfl, hpos, hle⟩
  | intent request =>
    rcases h.kind with ⟨row, remaining, part, hleg⟩ | ⟨intent, batch, chain, observed, destination, hsome, hclaim⟩
    · have hwallet := (mem_remainingSource hleg.owed hleg.part_mem).2
      obtain ⟨-, hblock, hbucket, -⟩ := hleg.single request hlast
      have hamount := hleg.amount
      rw [hlast] at hamount
      refine ⟨rfl, hamount, ?_, ?_, ?_⟩
      · rw [← hblock]
        exact hleg.sourceBlock
      · rw [← hbucket]
        exact hleg.bucket
      · rw [← hbucket, hwallet]
        exact hleg.destination
    · rw [hlast, Authority.intent?, Option.some.injEq] at hsome
      subst hsome
      refine ⟨rfl, hclaim.amount, hclaim.sourceBlock, hclaim.bucket, ?_⟩
      rw [(validateBatch_spec hclaim.validated).1]
      exact hclaim.wallet

/-- Nothing is unresolved. -/
theorem not_dispatching (h : journal.dispatching? = none) {op : Operation} (hop : op ∈ journal.operations) :
    op.state ≠ .dispatching := by
  intro hstate
  have hnone := List.find?_eq_none.1 h op hop
  simp [hstate] at hnone

/-- A claim is reserved at the baseline of the bound in force. -/
theorem Reservable.baseline {claim : Claim} {bound : TransferCanary} {manual : List ManualTransfer}
    (h : Reservable custody journal claim (some bound) manual) (hgoverned : Governed custody journal) :
    ∃ front a, authorities journal.events = front ++ [a] ∧ a.bound = bound ∧ manual.getLast? = a.intent? ∧
      bound.afterOperation = journal.operations.length := by
  obtain ⟨front, a, hauth, hbound, hlast⟩ := hgoverned.last h.inForce (manualTransferHistory_spec h.history).1
  obtain ⟨policy, canary, hcanary⟩ := h.inForce.canary
  refine ⟨front, a, hauth, hbound, hlast, ?_⟩
  have hchained := hgoverned.chained policy canary hcanary
  rcases hchained.top_of_last (lows_append_singleton hauth) with htop | htop
  · rw [htop, hbound]
  · -- else the operation after the bound is unresolved
    rw [hbound] at htop
    obtain ⟨op, hop, hid⟩ := operation_of_id hgoverned.ids journal.operations.length (by omega) le_rfl
    have hstate := h.unspent bound rfl op hop (by omega)
    exact absurd hstate (not_dispatching h.quiesced hop)

theorem Governed.reserve (h : Governed custody journal) {claim : Claim} {bound : Option TransferCanary}
    {manual : List ManualTransfer} {notes : List Event} (signed : SignedOperation)
    (hnotes : ∀ e ∈ notes, e.isNote = true) (hreserve : Reservable custody journal claim bound manual) :
    Governed custody ((journal.insertOperation claim .transfer signed).note notes) := by
  have hmaximum := maximum_eq_length h.ids
  have hauthorities := authorities_notes journal.events hnotes
  have hrecords : canaryRecords (journal.events ++ notes) = canaryRecords journal.events := by
    rw [canaryRecords_append, canaryRecords_notes hnotes, List.append_nil]
  have hreplaced : (journal.events ++ notes).filterMap Event.replacement? =
      journal.events.filterMap Event.replacement? := by
    rw [List.filterMap_append, replacement_notes hnotes, List.append_nil]
  have hbound : canaryRecords journal.events ≠ [] → ∃ b, bound = some b := by
    intro hne
    cases hforce : hreserve.inForce with
    | free hnone _ => exact absurd hnone hne
    | bound _ _ _ => exact ⟨_, rfl⟩
  refine ⟨?_, ?_, ?_, ?_, ?_, ?_⟩
  · simp only [Journal.note, Journal.insertOperation, List.map_append, List.length_append, List.map_singleton,
      List.length_singleton, h.ids, hmaximum, Claim.operation]
    rw [List.range'_1_concat, Nat.add_comm 1]
  · simp only [Journal.note, Journal.insertOperation, hrecords, hauthorities]
    exact h.quiet
  · simp only [Journal.note, Journal.insertOperation, hrecords]
    exact h.single
  · simp only [Journal.note, Journal.insertOperation, hreplaced]
    exact h.replaced
  · intro policy canary hcanary
    simp only [Journal.note, Journal.insertOperation, hrecords] at hcanary
    obtain ⟨b, rfl⟩ := hbound (by rw [hcanary]; simp)
    obtain ⟨front, a, hauth, hb, -, htop⟩ := hreserve.baseline h
    have hlast := lows_append_singleton hauth
    rw [hb, htop] at hlast
    simp only [Journal.note, Journal.insertOperation, lows, hauthorities, List.length_append, List.length_singleton]
    exact (h.chained policy canary hcanary).claim hlast
  · intro a ha op hop hid
    simp only [Journal.note, Journal.insertOperation, hauthorities] at ha
    simp only [Journal.note, Journal.insertOperation, List.mem_append, List.mem_singleton] at hop
    rcases hop with hop | rfl
    · exact h.within a ha op hop hid
    · -- the new claim follows the last authority
      have hne : canaryRecords journal.events ≠ [] := by
        intro hnone
        rw [h.quiet hnone] at ha
        cases ha
      obtain ⟨b, rfl⟩ := hbound hne
      obtain ⟨front, last, hauth, hb, hintent, htop⟩ := hreserve.baseline h
      obtain ⟨policy, canary, hcanary⟩ := hreserve.inForce.canary
      have hchained := h.chained policy canary hcanary
      have hlast : last ∈ authorities journal.events := by
        rw [hauth]
        exact List.mem_append_right _ (List.mem_singleton_self last)
      have hsame : a.bound.afterOperation = last.bound.afterOperation := by
        simp only [Claim.operation] at hid
        rw [hb, htop]
        omega
      have heq : a = last := List.inj_on_of_nodup_map hchained.nodup ha hlast hsame
      rw [heq]
      exact hreserve.within hb hintent _ signed

/-- One write keeps the invariant. -/
theorem Governed.change (h : Governed custody journal) (hchange : Change custody journal journal') :
    Governed custody journal' := by
  cases hchange with
  | note notes hnotes =>
    refine h.congr rfl ?_ (authorities_notes journal.events hnotes) ?_
    · rw [Journal.note, canaryRecords_append, canaryRecords_notes hnotes, List.append_nil]
    · rw [Journal.note, List.filterMap_append, replacement_notes hnotes, List.append_nil]
  | canary hnew => exact h.newCanary hnew
  | earn _ _ => exact h.congr rfl rfl rfl rfl
  | cursor block => exact h.congr rfl rfl rfl rfl
  | progress hpending hle => exact h.congr (map_updateOperation _ _ fun _ => rfl) rfl rfl rfl
  | settle hpending hstate => exact h.congr (map_updateOperation _ _ fun _ => rfl) rfl rfl rfl
  | complete _ => exact h.congr rfl rfl rfl rfl
  | reserve signed notes hnotes hreserve => exact h.reserve signed hnotes hreserve
  | @replace replacement existing manual hreplace =>
    have hmanual := (manualTransferHistory_spec hreplace.history).1
    refine h.grant (a := .replacement replacement) hreplace.inForce hmanual hreplace.spent hreplace.current rfl rfl rfl
      rfl ?_
    rw [canaryReplacement_cases hreplace.first]
    exact le_rfl
  | expire hretire => exact h.retire hretire

/-- Arming an intent keeps the invariant. -/
theorem Governed.arm (h : Governed custody journal) {request : ManualTransfer} {existing : TransferCanary}
    {manual : List ManualTransfer} (harm : Armable custody journal request existing manual) :
    Governed custody (journal.event (.manualTransferArmed custody.policy.digest request)) := by
  have hmanual := (manualTransferHistory_spec harm.history).1
  refine h.grant (a := .intent request) harm.inForce hmanual harm.spent harm.current.symm rfl ?_ rfl rfl ?_
  · simp [Authority.live, harm.unexpired]
  · have hnone : [Event.manualTransferArmed custody.policy.digest request].filterMap Event.replacement? = [] := rfl
    rw [hnone, List.append_nil]
    exact h.replaced

/-- Every reachable journal of a transfer signer is governed. -/
theorem governed_reachable (custody : Custody) (calls : List (CollectorChain × CollectorCall)) :
    Governed custody (reachable custody .transfer calls) := by
  have hinit : Governed custody (initialJournal custody .transfer) := by
    refine ⟨rfl, fun _ => rfl, Nat.zero_le 1, Nat.zero_le 1, ?_, ?_⟩
    · intro policy canary hnone
      cases hnone
    · intro a ha
      cases ha
  exact (reachable_inv hinit (fun _ _ h hchange => h.change hchange) (fun _ _ _ _ h harm => h.arm harm) calls).1

/-! ## The claims after a canary -/

theorem armed_append_notes (events : List Event) {notes : List Event} (h : ∀ e ∈ notes, e.isNote = true) :
    (events ++ notes).filterMap Event.armed? = events.filterMap Event.armed? := by
  have hnone : notes.filterMap Event.armed? = [] := by
    rw [List.filterMap_eq_nil_iff]
    intro e he
    have := h e he
    cases e <;> first | rfl | cases this
  rw [List.filterMap_append, hnone, List.append_nil]

/-- The writes other than an armed intent arm none. -/
theorem Change.armed_eq (h : Change custody journal journal') :
    journal'.events.filterMap Event.armed? = journal.events.filterMap Event.armed? := by
  cases h with
  | note notes hnotes => exact armed_append_notes _ hnotes
  | reserve signed notes hnotes _ => exact armed_append_notes _ hnotes
  | canary _ | replace _ | expire _ =>
    rw [Journal.event_events, List.filterMap_append]
    exact List.append_nil _
  | _ => rfl

/-- A call arms an intent only when the current operation is finalized. -/
theorem armed_after_finalized (hpin : journal.pin = (custody.policy.digest, .transfer))
    (input : CollectorChain × CollectorCall)
    (h : (step custody journal input).events.filterMap Event.armed? ≠ journal.events.filterMap Event.armed?) :
    ∃ previous, journal.operation? journal.maximum = some previous ∧ previous.state = .finalized := by
  rcases step_changes hpin input with hchanges | ⟨request, existing, manual, -, harmable⟩
  · refine absurd ?_ h
    generalize step custody journal input = journal' at hchanges
    induction hchanges with
    | refl => rfl
    | tail _ hlast ih => exact hlast.armed_eq.trans ih
  · exact harmable.finalized

/-- After a canary is recorded, every later operation is covered by exactly one authority: the canary, its single
replacement, or one armed intent that is not retired. An authority covers at most one operation, which keeps within it,
and a new intent is armed only when the previous operation is finalized. -/
theorem authorities_bound_claims (custody : Custody) (calls : List (CollectorChain × CollectorCall)) (policy : String)
    (canary : TransferCanary)
    (hcanary : Event.transferCanaryArmed policy canary ∈ (reachable custody .transfer calls).events) :
    (∀ op ∈ (reachable custody .transfer calls).operations, canary.afterOperation < op.id →
      ∃! i, Covers (lows (reachable custody .transfer calls).events) i op.id) ∧
    (∀ i, ∀ op ∈ (reachable custody .transfer calls).operations,
      ∀ op' ∈ (reachable custody .transfer calls).operations,
      Covers (lows (reachable custody .transfer calls).events) i op.id →
      Covers (lows (reachable custody .transfer calls).events) i op'.id → op = op') ∧
    (∀ i, ∀ op ∈ (reachable custody .transfer calls).operations,
      Covers (lows (reachable custody .transfer calls).events) i op.id →
      ∃ a, (authorities (reachable custody .transfer calls).events)[i]? = some a ∧ a.Within custody op) ∧
    (canaryRecords (reachable custody .transfer calls).events = [(policy, canary)] ∧
      ((reachable custody .transfer calls).events.filterMap Event.replacement?).length ≤ 1) ∧
    (∀ input, (step custody (reachable custody .transfer calls) input).events.filterMap Event.armed? ≠
        (reachable custody .transfer calls).events.filterMap Event.armed? →
      ∃ previous, (reachable custody .transfer calls).operation? (reachable custody .transfer calls).maximum =
        some previous ∧ previous.state = .finalized) := by
  have hgoverned := governed_reachable custody calls
  have hpin := pin_reachable custody calls
  generalize reachable custody .transfer calls = journal at hcanary hgoverned hpin ⊢
  have hrecord : canaryRecords journal.events = [(policy, canary)] := by
    have hmem : (policy, canary) ∈ canaryRecords journal.events := List.mem_filterMap.2 ⟨_, hcanary, rfl⟩
    obtain ⟨record, hrecord⟩ := List.length_eq_one_iff.1
      (le_antisymm hgoverned.single (List.length_pos_of_mem hmem))
    rw [hrecord, List.mem_singleton] at hmem
    rw [hrecord, hmem]
  have hchained := hgoverned.chained policy canary hrecord
  refine ⟨?_, ?_, ?_, ⟨hrecord, hgoverned.replaced⟩, ?_⟩
  · intro op hop hlt
    exact hchained.existsUnique hlt (id_mem hgoverned.ids hop).2
  · intro i op hop op' hop' hc hc'
    exact operation_inj hgoverned.ids hop hop'
      (hchained.covers_inj (id_mem hgoverned.ids hop).2 (id_mem hgoverned.ids hop').2 hc hc')
  · intro i op hop hc
    obtain ⟨hi, hid⟩ := (hchained.covers_iff (id_mem hgoverned.ids hop).2).1 hc
    have hlow := hchained.getElem? hi
    rw [lows, List.getElem?_map, Option.map_eq_some_iff] at hlow
    obtain ⟨a, ha, hafter⟩ := hlow
    refine ⟨a, ha, hgoverned.within a (List.mem_of_getElem? ha) op hop ?_⟩
    rw [hid, hafter]
  · intro input harmed
    exact armed_after_finalized hpin input harmed

theorem sampleCanary_mem : 0 < 40 ∧ 40 < 2 ^ 63 := by decide

theorem sampleCanary_after : 0 < 2 ^ 63 := by decide

/-- A canary of 40 above an empty journal. -/
def sampleCanary : TransferCanary := ⟨40, 0, sampleCanary_mem, sampleCanary_after⟩

/-- One receipt, a leg of it under the canary, and a batch that is armed after the leg is finalized and then paid. -/
def canaryCalls : List (CollectorChain × CollectorCall) :=
  let intent := sampleIntent (sampleLimit "policy" "collector")
  [(sampleChain 12, .observeEarnings 32), (sampleChain 13, .tick ⟨.transfer, some sampleCanary, none⟩),
    (sampleChain 20, .tick ⟨.transfer, none, none⟩), (approvedChain 21, .armManualTransfer intent true),
    (approvedChain 22, .tick ⟨.transfer, none, some intent.requestId⟩),
    (approvedChain 30, .tick ⟨.transfer, none, none⟩)]

/-- The canary is recorded once, and the leg of 40 and the batch of 30 have an authority each. -/
theorem authorities_bound_claims_canary :
    canaryRecords (reachable sampleCustody .transfer canaryCalls).events = [("policy", sampleCanary)] ∧
    ∀ amount ∈ [40, 30],
      ∃ op ∈ (reachable sampleCustody .transfer canaryCalls).operations, op.amount = amount ∧ op.state = .finalized ∧
        ∃! i, Covers (lows (reachable sampleCustody .transfer canaryCalls).events) i op.id := by
  have hcanary : Event.transferCanaryArmed "policy" sampleCanary ∈
      (reachable sampleCustody .transfer canaryCalls).events := by decide +kernel
  have hops : ∀ amount ∈ [40, 30], ∃ op ∈ (reachable sampleCustody .transfer canaryCalls).operations,
      op.amount = amount ∧ op.state = .finalized ∧ sampleCanary.afterOperation < op.id := by decide +kernel
  obtain ⟨hcovers, -, -, hrecorded, -⟩ :=
    authorities_bound_claims sampleCustody canaryCalls "policy" sampleCanary hcanary
  refine ⟨hrecorded.1, fun amount hamount => ?_⟩
  obtain ⟨op, hmem, hop, hstate, hlt⟩ := hops amount hamount
  exact ⟨op, hmem, hop, hstate, hcovers op hmem hlt⟩

end DittoSubnet.Treasury

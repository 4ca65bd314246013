import DittoSubnet.Treasury.TopUp

/-!
# Safety of the top-up store

What every run of operations from the empty store keeps (`Safe`, `safe_step`): one open plan, plans within the alpha
allocated up to each policy revision, and for each plan a record of its events that matches its row (`Tracked`).

* `topup_store_safe`: at most one plan is open; up to each revision the plans are within the allocations; the dispatches
  of a plan are its legs in order, each approved by an independent reviewer since the dispatch before it, made while the
  store is not paused, and of the amount that the leg before it has reconciled; the chain verifies; and an operation
  that raises changes nothing.
-/

namespace DittoSubnet.Treasury.TopUp

open Kit

variable {hashing : Hashing} {db db' : Database} {key key' : String} {row : PlanRow} {events : List Event} {e : Event}

/-! ## What the events say about a plan -/

/-- The leg and the amount that an event dispatches for a plan. -/
def dispatchOf (key : String) (e : Event) : Option (Leg × ℤ) :=
  match e.body.entry with
  | .dispatchStarted leg amount => if e.body.planKey = some key then some (leg, amount) else none
  | _ => none

/-- The reviewer of an event that approves a leg of a plan. -/
def approvalOf (key : String) (e : Event) : Option String :=
  match e.body.entry with
  | .approved reviewer _ => if e.body.planKey = some key then some reviewer else none
  | .nextLegApproved reviewer _ _ _ => if e.body.planKey = some key then some reviewer else none
  | _ => none

/-- The leg that an event finalizes for a plan, and what it leaves for the next one. -/
def finalizationOf (key : String) (e : Event) : Option (Leg × Option ℤ) :=
  match e.body.entry with
  | .legFinalized leg _ _ next => if e.body.planKey = some key then some (leg, next) else none
  | _ => none

def dispatches (key : String) (events : List Event) : List (Leg × ℤ) := events.filterMap (dispatchOf key)

def finalizations (key : String) (events : List Event) : List (Leg × Option ℤ) := events.filterMap (finalizationOf key)

/-- The reviewers that have approved a plan since its last dispatch. -/
def approversSince (key : String) (events : List Event) : List String :=
  events.foldl (fun reviewers e =>
    if (dispatchOf key e).isSome then [] else reviewers ++ (approvalOf key e).toList) []

/-- The pause switch after some events; a store starts paused. -/
def pausedAfter (events : List Event) : Bool :=
  events.foldl (fun paused e =>
    match e.body.entry with
    | .pause .. => true
    | .unpause .. => false
    | _ => paused) true

/-- A dispatch that the events before it justify. -/
structure SoundDispatch (key : String) (plan : PaymentPlan) (before : List Event) (amount : ℤ) : Prop where
  approved : ∃ reviewer ∈ approversSince key before, reviewer ≠ plan.operator
  running : pausedAfter before = false
  first : dispatches key before = [] → amount = plan.intent.sourceAlphaRao
  later : ∀ previous ∈ (dispatches key before).getLast?,
    (finalizations key before).getLast? = some (previous.1, some amount)

/-- Every dispatch of a plan is justified. -/
def SoundDispatches (key : String) (plan : PaymentPlan) (events : List Event) : Prop :=
  Chain.Everywhere (fun before e => ∀ leg amount, dispatchOf key e = some (leg, amount) →
    SoundDispatch key plan before amount) events

theorem dispatches_append : dispatches key (events ++ [e]) = dispatches key events ++ (dispatchOf key e).toList := by
  unfold dispatches
  rw [List.filterMap_append]
  cases h : dispatchOf key e <;> simp [h]

theorem finalizations_append :
    finalizations key (events ++ [e]) = finalizations key events ++ (finalizationOf key e).toList := by
  unfold finalizations
  rw [List.filterMap_append]
  cases h : finalizationOf key e <;> simp [h]

theorem approversSince_append : approversSince key (events ++ [e]) =
    if (dispatchOf key e).isSome then [] else approversSince key events ++ (approvalOf key e).toList := by
  unfold approversSince
  rw [List.foldl_append]
  rfl

theorem pausedAfter_append : pausedAfter (events ++ [e]) =
    match e.body.entry with
    | .pause .. => true
    | .unpause .. => false
    | _ => pausedAfter events := by
  unfold pausedAfter
  rw [List.foldl_append]
  rfl

/-- An event of another plan, or of none, says nothing about a plan. -/
theorem silent_of_ne (h : e.body.planKey ≠ some key) :
    dispatchOf key e = none ∧ approvalOf key e = none ∧ finalizationOf key e = none := by
  unfold dispatchOf approvalOf finalizationOf
  cases e.body.entry <;> simp [h]

/-! ## The record of a plan -/

/-- The number of legs that a row says have been dispatched. -/
def dispatchedLegs (row : PlanRow) : ℕ := if row.state = .dispatching then row.legIndex + 1 else row.legIndex

/-- The events of a plan match its row. -/
structure Tracked (key : String) (row : PlanRow) (events : List Event) : Prop where
  legs : (dispatches key events).map Prod.fst = (TopUp.legs row.route).take (dispatchedLegs row)
  sound : SoundDispatches key row.plan events
  approved : row.state = .approved → ∃ reviewer ∈ approversSince key events, reviewer ≠ row.plan.operator
  finalized : ∀ n, row.legIndex = n + 1 → ∃ leg, (TopUp.legs row.route)[n]? = some leg ∧
    (finalizations key events).getLast? = some (leg, row.amountForNextLegRao)
  source : row.sourceAlphaRao = row.plan.intent.sourceAlphaRao
  positive : 0 < row.sourceAlphaRao

/-- An event that is silent about a plan leaves its record. -/
theorem Tracked.silent (h : Tracked key row events) (hne : e.body.planKey ≠ some key) :
    Tracked key row (events ++ [e]) := by
  obtain ⟨hdispatch, happroval, hfinalization⟩ := silent_of_ne hne
  refine ⟨?_, ?_, ?_, ?_, h.source, h.positive⟩
  · rw [dispatches_append, hdispatch, Option.toList_none, List.append_nil]
    exact h.legs
  · refine Chain.everywhere_append.2 ⟨h.sound, fun leg amount hsome => ?_⟩
    rw [hdispatch] at hsome
    cases hsome
  · rw [approversSince_append, hdispatch, happroval]
    simpa using h.approved
  · rw [finalizations_append, hfinalization, Option.toList_none, List.append_nil]
    exact h.finalized

/-! ## Amounts -/

/-- The source alpha of the plans up to a revision that are not cancelled. -/
def reservedUpTo (db : Database) (revision : ℤ) : ℤ :=
  Dict.sumRows (fun _ row => if row.state ≠ .cancelled ∧ row.policyRevision ≤ revision then row.sourceAlphaRao else 0)
    db.plans

/-- The GM alpha that is allocated up to a revision. -/
def allocatedUpTo (db : Database) (revision : ℤ) : ℤ :=
  Dict.sumRows (fun _ allocation => if allocation.policyRevision ≤ revision then allocation.gmAlphaRao else 0)
    db.allocations

theorem sqlSum_eq {values : List ℤ} {total : ℤ} (h : sqlSum values = .ok total) : total = values.sum := by
  have hsum := foldlM_inv (P := fun done total => total = done.sum) (f := fun total value => do
      ensure (SqlInteger (total + value)) Raised.overflowError
      return total + value) (by
    intro done s s' a hs hstep
    simp only [bind_eq_ok_iff, ensure_eq_ok_iff, pure_eq_ok_iff, exists_and_left, exists_const] at hstep
    rw [List.sum_append, List.sum_singleton, ← hs]
    exact hstep.2.symm) values [] rfl h
  simpa using hsum

theorem sum_filter_eq {κ ν : Type} (P : κ × ν → Prop) [DecidablePred P] (f : ν → ℤ) (d : Dict κ ν) :
    ((d.filter fun row => P row).map fun row => f row.2).sum =
      Dict.sumRows (fun k v => if P (k, v) then f v else 0) d := by
  unfold Dict.sumRows
  induction d with
  | nil => rfl
  | cons row d ih =>
    rw [List.filter_cons, List.map_cons, List.sum_cons]
    by_cases hrow : P row
    · simp only [hrow, decide_true, if_true, List.map_cons, List.sum_cons, ih]
    · simp only [hrow, decide_false, Bool.false_eq_true, if_false, zero_add]
      exact ih

/-! ## The invariant -/

/-- What every reachable store keeps. -/
structure Safe (hashing : Hashing) (db : Database) : Prop where
  nodup : (Dict.keys db.plans).Nodup
  single : ∀ key key' row row', Dict.get? db.plans key = some row → Dict.get? db.plans key' = some row' →
    Open row → Open row' → key = key'
  bounded : ∀ revision, reservedUpTo db revision ≤ allocatedUpTo db revision
  allocated : ∀ row ∈ db.allocations, 0 ≤ row.2.gmAlphaRao
  named : ∀ e ∈ db.events, ∀ key, e.body.planKey = some key → ∃ row, Dict.get? db.plans key = some row
  paused : db.paused = pausedAfter db.events
  verified : Chain.Verified hashing.event genesis journalBreaks db.events
  tracked : ∀ key row, Dict.get? db.plans key = some row → Tracked key row db.events

theorem safe_empty : Safe hashing Database.empty where
  nodup := List.nodup_nil
  single := by
    intro key key' row row' h
    cases h
  bounded := fun _ => le_rfl
  allocated := by
    intro row h
    cases h
  named := by
    intro e h
    cases h
  paused := rfl
  verified := Chain.verified_nil
  tracked := by
    intro key row h
    cases h

/-- What `_event` writes. -/
theorem event_eq_ok {planKey : Option String} {entry : Entry} {now : Datetime}
    (h : event hashing db planKey entry now = .ok db') :
    ∃ e : Event, e.body = ⟨planKey, entry, now.instant⟩ ∧ db' = { db with events := db.events ++ [e] } ∧
      ∀ {broken : ℕ → Raised}, Chain.Verified hashing.event genesis broken db.events →
        Chain.Verified hashing.event genesis broken (db.events ++ [e]) := by
  unfold event timestamp at h
  simp only [bind_eq_ok_iff, ensure_eq_ok_iff, pure_eq_ok_iff, exists_and_left, exists_const] at h
  obtain ⟨_, ⟨-, rfl⟩, rfl⟩ := h
  exact ⟨_, rfl, rfl, fun hchain => Chain.verified_append hchain _⟩

/-- An event about no plan keeps what the plans say. -/
theorem Safe.note {entry : Entry} {now : Datetime} {base : Database} (hdb : Safe hashing db)
    (h : event hashing base none entry now = .ok db') (hplans : base.plans = db.plans)
    (hevents : base.events = db.events)
    (hallocated : ∀ row ∈ base.allocations, 0 ≤ row.2.gmAlphaRao)
    (hbounded : ∀ revision, allocatedUpTo db revision ≤ allocatedUpTo base revision)
    (hpaused : ∀ e : Event, e.body.entry = entry → base.paused = pausedAfter (db.events ++ [e])) :
    Safe hashing db' := by
  obtain ⟨e, hbody, rfl, hverified⟩ := event_eq_ok h
  have hsilent : ∀ key, e.body.planKey ≠ some key := by
    intro key
    rw [hbody]
    exact nofun
  refine ⟨?_, ?_, ?_, hallocated, ?_, ?_, ?_, ?_⟩
  · simpa only [hplans] using hdb.nodup
  · simpa only [hplans] using hdb.single
  · intro revision
    have hreserved : reservedUpTo base revision = reservedUpTo db revision := by
      unfold reservedUpTo
      rw [hplans]
    calc reservedUpTo base revision = reservedUpTo db revision := hreserved
      _ ≤ allocatedUpTo db revision := hdb.bounded revision
      _ ≤ allocatedUpTo base revision := hbounded revision
  · intro e' he' key hkey
    simp only [hevents, List.mem_append, List.mem_singleton] at he'
    rcases he' with he' | rfl
    · simpa only [hplans] using hdb.named e' he' key hkey
    · exact absurd hkey (hsilent key)
  · rw [hevents]
    exact hpaused e (by rw [hbody])
  · apply hverified
    rw [hevents]
    exact hdb.verified
  · intro key row hrow
    simp only [hplans] at hrow
    rw [hevents]
    exact (hdb.tracked key row hrow).silent (hsilent key)

/-! ## The legs of a plan -/

/-- An entry that does not touch the pause switch. -/
def Steady (entry : Entry) : Prop :=
  match entry with
  | .pause .. => False
  | .unpause .. => False
  | _ => True

theorem pausedAfter_steady (h : Steady e.body.entry) : pausedAfter (events ++ [e]) = pausedAfter events := by
  rw [pausedAfter_append]
  unfold Steady at h
  cases hentry : e.body.entry with
  | pause => rw [hentry] at h; exact h.elim
  | unpause => rw [hentry] at h; exact h.elim
  | _ => rfl

/-- What an update of a plan keeps of its row. -/
structure Advances (row row' : PlanRow) : Prop where
  revision : row'.policyRevision = row.policyRevision
  source : row'.sourceAlphaRao = row.sourceAlphaRao
  stays : Open row' → Open row
  counted : row.state ≠ .cancelled

/-- An update of a plan with a matching record keeps the invariant. -/
theorem Safe.update (hdb : Safe hashing db) {row' : PlanRow} {entry : Entry} {now : Datetime}
    (h : update hashing db key row' entry now = .ok db') (hrow : Dict.get? db.plans key = some row)
    (hrow' : Advances row row') (hentry : Steady entry)
    (htracked : ∀ e : Event, e.body.planKey = some key → e.body.entry = entry → Tracked key row' (db.events ++ [e])) :
    Safe hashing db' := by
  obtain ⟨e, hbody, rfl, hverified⟩ := event_eq_ok h
  have hget : ∀ k, Dict.get? (Dict.set db.plans key row') k = if key = k then some row' else Dict.get? db.plans k :=
    fun k => Dict.get?_set db.plans key k row'
  refine ⟨Dict.keys_set_nodup hdb.nodup _ _, ?_, ?_, hdb.allocated, ?_, ?_, hverified hdb.verified, ?_⟩
  · -- every open row was open before
    have hopen : ∀ k r, Dict.get? (Dict.set db.plans key row') k = some r → Open r →
        ∃ r', Dict.get? db.plans k = some r' ∧ Open r' := by
      intro k r hr ho
      rw [hget] at hr
      split at hr
      · rename_i hk
        obtain rfl := Option.some.inj hr
        exact ⟨row, hk ▸ hrow, hrow'.stays ho⟩
      · exact ⟨r, hr, ho⟩
    intro k k' r r' hr hr' ho ho'
    obtain ⟨s, hs, hso⟩ := hopen k r hr ho
    obtain ⟨s', hs', hso'⟩ := hopen k' r' hr' ho'
    exact hdb.single k k' s s' hs hs' hso hso'
  · intro revision
    have hle : reservedUpTo { db with plans := Dict.set db.plans key row' } revision ≤ reservedUpTo db revision := by
      unfold reservedUpTo
      rw [Dict.sumRows_set hrow]
      have hpositive := (hdb.tracked key row hrow).positive
      have hcounted := hrow'.counted
      simp only [hrow'.revision, hrow'.source]
      by_cases hrevision : row.policyRevision ≤ revision
      · simp only [hcounted, hrevision, ne_eq, not_false_eq_true, and_true, if_true]
        split
        · omega
        · omega
      · simp only [hrevision, and_false, if_false]
        omega
    exact hle.trans (hdb.bounded revision)
  · intro e' he' k hk
    show ∃ r, Dict.get? (Dict.set db.plans key row') k = some r
    rw [hget]
    split
    · exact ⟨row', rfl⟩
    · rename_i hne
      rcases List.mem_append.1 he' with he' | he'
      · exact hdb.named e' he' k hk
      · obtain rfl := List.mem_singleton.1 he'
        rw [hbody] at hk
        exact absurd (Option.some.inj hk) hne
  · show db.paused = pausedAfter (db.events ++ [e])
    rw [pausedAfter_steady (by rw [hbody]; exact hentry)]
    exact hdb.paused
  · intro k r hr
    have hr' : (if key = k then some row' else Dict.get? db.plans k) = some r := (hget k).symm.trans hr
    split at hr'
    · rename_i hk
      obtain rfl := Option.some.inj hr'
      exact hk ▸ htracked e (by rw [hbody]) (by rw [hbody])
    · rename_i hne
      refine (hdb.tracked k r hr').silent ?_
      rw [hbody]
      exact fun heq => hne (Option.some.inj heq)

/-- A record grows by an event that dispatches nothing. -/
theorem Tracked.record (h : Tracked key row events) {row' : PlanRow} (hdispatch : dispatchOf key e = none)
    (hplan : row'.plan = row.plan ∧ row'.route = row.route ∧ row'.sourceAlphaRao = row.sourceAlphaRao)
    (hlegs : dispatchedLegs row' = dispatchedLegs row)
    (happroved : row'.state = .approved → ∃ reviewer ∈ approvalOf key e, reviewer ≠ row.plan.operator)
    (hfinalized : (row'.legIndex = row.legIndex ∧ row'.amountForNextLegRao = row.amountForNextLegRao ∧
        finalizationOf key e = none) ∨
      ∃ leg, (TopUp.legs row.route)[row.legIndex]? = some leg ∧ row'.legIndex = row.legIndex + 1 ∧
        finalizationOf key e = some (leg, row'.amountForNextLegRao)) : Tracked key row' (events ++ [e]) := by
  obtain ⟨hplan, hroute, hsource⟩ := hplan
  refine ⟨?_, ?_, ?_, ?_, ?_, ?_⟩
  · rw [dispatches_append, hdispatch, Option.toList_none, List.append_nil, hroute, hlegs]
    exact h.legs
  · rw [hplan]
    refine Chain.everywhere_append.2 ⟨h.sound, fun leg amount hsome => ?_⟩
    rw [hdispatch] at hsome
    cases hsome
  · intro hstate
    obtain ⟨reviewer, hreviewer, hindependent⟩ := happroved hstate
    refine ⟨reviewer, ?_, by rw [hplan]; exact hindependent⟩
    rw [approversSince_append, hdispatch]
    simp [Option.mem_def.1 hreviewer]
  · intro n hn
    rw [hroute, finalizations_append]
    rcases hfinalized with ⟨hindex, hamount, hnone⟩ | ⟨leg, hleg, hindex, hsome⟩
    · rw [hnone, hamount, Option.toList_none, List.append_nil]
      exact h.finalized n (hindex ▸ hn)
    · obtain rfl : n = row.legIndex := by omega
      refine ⟨leg, hleg, ?_⟩
      rw [hsome]
      simp
  · rw [hsource, hplan]
    exact h.source
  · rw [hsource]
    exact h.positive

/-- A record grows by the dispatch of an approved leg. -/
theorem Tracked.dispatch (h : Tracked key row events) {leg : Leg} {amount : ℤ} (hstate : row.state = .approved)
    (hleg : (TopUp.legs row.route)[row.legIndex]? = some leg) (hpaused : pausedAfter events = false)
    (hamount : (if row.legIndex = 0 then some row.sourceAlphaRao else row.amountForNextLegRao) = some amount)
    (hdispatch : dispatchOf key e = some (leg, amount)) (hfinalization : finalizationOf key e = none) :
    Tracked key { row with state := .dispatching } (events ++ [e]) := by
  have hlegs : (dispatches key events).map Prod.fst = (TopUp.legs row.route).take row.legIndex := by
    have hdone := h.legs
    unfold dispatchedLegs at hdone
    rwa [hstate, if_neg (by decide)] at hdone
  have hlength : row.legIndex < (TopUp.legs row.route).length := by
    obtain ⟨hlt, -⟩ := List.getElem?_eq_some_iff.1 hleg
    exact hlt
  refine ⟨?_, ?_, (fun happroved => nomatch happroved), ?_, h.source, h.positive⟩
  · show (dispatches key (events ++ [e])).map Prod.fst = (TopUp.legs row.route).take (row.legIndex + 1)
    rw [dispatches_append, hdispatch, List.map_append, hlegs, List.take_add_one, hleg]
    rfl
  · refine Chain.everywhere_append.2 ⟨h.sound, fun leg' amount' hsome => ?_⟩
    obtain ⟨-, rfl⟩ := Prod.mk.inj (Option.some.inj (hdispatch.symm.trans hsome))
    refine ⟨h.approved hstate, hpaused, fun hnone => ?_, fun previous hprevious => ?_⟩
    · -- the first leg takes the source of the plan
      have hzero : row.legIndex = 0 := by
        rw [hnone] at hlegs
        have hlen := congrArg List.length hlegs
        simp only [List.map_nil, List.length_nil, List.length_take] at hlen
        omega
      rw [if_pos hzero] at hamount
      rw [← h.source]
      exact (Option.some.inj hamount).symm
    · -- a later leg takes what the leg before it has left
      obtain ⟨n, hn⟩ : ∃ n, row.legIndex = n + 1 := by
        cases hindex : row.legIndex with
        | succ n => exact ⟨n, rfl⟩
        | zero =>
          rw [hindex, List.take_zero, List.map_eq_nil_iff] at hlegs
          rw [hlegs] at hprevious
          cases hprevious
      obtain ⟨leg', hleg', hlast⟩ := h.finalized n hn
      rw [hn, if_neg (Nat.succ_ne_zero n)] at hamount
      have hfst : previous.1 = leg' := by
        have hmap := congrArg List.getLast? hlegs
        rw [hn, List.take_add_one, hleg', List.getLast?_map, Option.mem_def.1 hprevious] at hmap
        simpa using hmap
      rw [hlast, hamount, hfst]
  · show ∀ n, row.legIndex = n + 1 → ∃ leg, (TopUp.legs row.route)[n]? = some leg ∧
      (finalizations key (events ++ [e])).getLast? = some (leg, row.amountForNextLegRao)
    rw [finalizations_append, hfinalization, Option.toList_none, List.append_nil]
    exact h.finalized

/-! ## Each operation -/

@[simp] theorem planRow_eq_ok_iff {message : String} :
    planRow db key message = .ok row ↔ Dict.get? db.plans key = some row := by
  unfold planRow
  cases Dict.get? db.plans key with
  | none => simp
  | some row => simp

@[simp] theorem currentLeg_eq_ok_iff {leg : Leg} :
    currentLeg row = .ok leg ↔ (legs row.route)[row.legIndex]? = some leg := by
  unfold currentLeg
  cases (legs row.route)[row.legIndex]? with
  | none => simp
  | some leg => simp

theorem legAmount_eq_ok {amount : ℤ} (h : legAmount row = .ok amount) :
    (if row.legIndex = 0 then some row.sourceAlphaRao else row.amountForNextLegRao) = some amount := by
  unfold legAmount at h
  split at h
  · cases h
  · rename_i stored hstored
    simp only [bind_eq_ok_iff, ensure_eq_ok_iff, pure_eq_ok_iff, exists_and_left, exists_const] at h
    rw [hstored, h.2]

theorem Safe.recordAllocation (hdb : Safe hashing db) {epoch : ℤ} {allocation : Allocation} {now : Datetime}
    (h : recordAllocation hashing db epoch allocation now = .ok db') : Safe hashing db' := by
  unfold TopUp.recordAllocation at h
  simp only [bind_eq_ok_iff, ensure_eq_ok_iff, exists_and_left, exists_const] at h
  obtain ⟨-, -, hamounts, -, -, hfresh, h⟩ := h
  have hgm : 0 ≤ allocation.gmAlphaRao := by
    by_contra hneg
    exact hamounts (.inl (not_le.1 hneg))
  refine hdb.note h rfl rfl ?_ ?_ ?_
  · intro row hrow
    rw [Dict.set_of_not_mem (Dict.get?_eq_none_iff.1 hfresh)] at hrow
    rcases List.mem_append.1 hrow with hrow | hrow
    · exact hdb.allocated row hrow
    · rw [List.mem_singleton.1 hrow]
      exact hgm
  · intro revision
    unfold allocatedUpTo
    rw [Dict.sumRows_insert hfresh]
    split
    · omega
    · omega
  · intro e hentry
    rw [pausedAfter_steady (by rw [hentry]; exact trivial)]
    exact hdb.paused

theorem Safe.setPause (hdb : Safe hashing db) {paused : Bool} {operator reason : String} {now : Datetime}
    {reviewer : Option String} (h : setPause hashing db paused operator reason now reviewer = .ok db') :
    Safe hashing db' := by
  unfold TopUp.setPause at h
  simp only [bind_eq_ok_iff, ensure_eq_ok_iff, exists_and_left, exists_const] at h
  obtain ⟨-, h⟩ := h
  cases paused with
  | true =>
    refine hdb.note h rfl rfl hdb.allocated (fun _ => le_rfl) (fun e hentry => ?_)
    rw [pausedAfter_append, hentry]
  | false =>
    simp only [Bool.false_eq_true, if_false, bind_eq_ok_iff, ensure_eq_ok_iff, exists_and_left, exists_const] at h
    obtain ⟨-, -, -, -, h⟩ := h
    refine hdb.note h rfl rfl hdb.allocated (fun _ => le_rfl) (fun e hentry => ?_)
    rw [pausedAfter_append, hentry]

theorem Safe.approve (hdb : Safe hashing db) {reviewer expectedPlanHash : String} {now : Datetime}
    (h : approve hashing db key reviewer expectedPlanHash now = .ok db') : Safe hashing db' := by
  unfold TopUp.approve at h
  simp only [bind_eq_ok_iff, ensure_eq_ok_iff, planRow_eq_ok_iff, exists_and_left, exists_const] at h
  obtain ⟨row, hrow, hplanned, hreviewer, -, h⟩ := h
  have hstate : row.state = .planned := by
    by_contra hne
    exact hplanned (.inl hne)
  refine hdb.update h hrow ⟨rfl, rfl, fun _ => ?_, ?_⟩ trivial (fun e hkey hentry => ?_)
  · unfold Open
    rw [hstate]
    decide
  · rw [hstate]
    decide
  · refine (hdb.tracked key row hrow).record ?_ ⟨rfl, rfl, rfl⟩ ?_ (fun _ => ⟨reviewer, ?_, ?_⟩) (.inl ⟨rfl, rfl, ?_⟩)
    · simp [dispatchOf, hentry]
    · simp [dispatchedLegs, hstate]
    · simp [approvalOf, hentry, hkey]
    · exact fun heq => hreviewer (.inr heq)
    · simp [finalizationOf, hentry]

theorem Safe.approveNextLeg (hdb : Safe hashing db)
    {reviewer expectedPlanHash instructionsSha256 quoteBlockHash : String} {quoteObservedAt now : Datetime}
    (h : approveNextLeg hashing db key reviewer expectedPlanHash instructionsSha256 quoteBlockHash quoteObservedAt now =
      .ok db') : Safe hashing db' := by
  unfold TopUp.approveNextLeg at h
  simp only [bind_eq_ok_iff, ensure_eq_ok_iff, planRow_eq_ok_iff, exists_and_left, exists_const] at h
  obtain ⟨-, -, -, row, hrow, hawaiting, hreviewer, -, checkedAt, -, quotedAt, -, leg, -, h⟩ := h
  have hstate : row.state = .awaitingReview := by
    by_contra hne
    exact hawaiting (.inl hne)
  refine hdb.update h hrow ⟨rfl, rfl, fun _ => ?_, ?_⟩ trivial (fun e hkey hentry => ?_)
  · unfold Open
    rw [hstate]
    decide
  · rw [hstate]
    decide
  · refine (hdb.tracked key row hrow).record ?_ ⟨rfl, rfl, rfl⟩ ?_ (fun _ => ⟨reviewer, ?_, ?_⟩) (.inl ⟨rfl, rfl, ?_⟩)
    · simp [dispatchOf, hentry]
    · simp [dispatchedLegs, hstate]
    · simp [approvalOf, hentry, hkey]
    · exact fun heq => hreviewer (.inr heq)
    · simp [finalizationOf, hentry]

theorem Safe.claimLeg (hdb : Safe hashing db) {claim : Claim} {now : Datetime}
    (h : claimLeg hashing db key now = .ok (db', claim)) : Safe hashing db' := by
  unfold TopUp.claimLeg at h
  simp only [bind_eq_ok_iff, ensure_eq_ok_iff, planRow_eq_ok_iff, currentLeg_eq_ok_iff, pure_eq_ok_iff, exists_and_left,
    exists_const, Prod.mk.injEq] at h
  obtain ⟨hrunning, row, hrow, hstate, leg, hleg, -, -, amount, hamount, after, h, rfl, -⟩ := h
  refine hdb.update h hrow ⟨rfl, rfl, fun _ => ?_, ?_⟩ trivial (fun e hkey hentry => ?_)
  · unfold Open
    rw [hstate]
    decide
  · rw [hstate]
    decide
  · have hpaused : pausedAfter db.events = false := by
      rw [← hdb.paused]
      exact hrunning
    refine (hdb.tracked key row hrow).dispatch hstate hleg hpaused (legAmount_eq_ok hamount) ?_ ?_
    · simp [dispatchOf, hentry, hkey]
    · simp [finalizationOf, hentry]

theorem Safe.finalizeLeg (hdb : Safe hashing db) {leg : Leg} {extrinsicHash blockHash : String}
    {nextAmountRao : Option ℤ} {now : Datetime}
    (h : finalizeLeg hashing db key leg extrinsicHash blockHash nextAmountRao now = .ok db') : Safe hashing db' := by
  unfold TopUp.finalizeLeg at h
  simp only [bind_eq_ok_iff, ensure_eq_ok_iff, planRow_eq_ok_iff, currentLeg_eq_ok_iff, exists_and_left,
    exists_const] at h
  obtain ⟨-, row, hrow, hstate, current, hcurrent, rfl, -, -, -, -, h⟩ := h
  refine hdb.update h hrow ⟨rfl, rfl, fun _ => ?_, ?_⟩ trivial (fun e hkey hentry => ?_)
  · unfold Open
    rw [hstate]
    decide
  · rw [hstate]
    decide
  · refine (hdb.tracked key row hrow).record ?_ ⟨rfl, rfl, rfl⟩ ?_ ?_ (.inr ⟨current, hcurrent, rfl, ?_⟩)
    · simp [dispatchOf, hentry]
    · by_cases hfinal : row.legIndex + 1 = (TopUp.legs row.route).length
      · simp [dispatchedLegs, hstate, hfinal]
      · simp [dispatchedLegs, hstate, hfinal]
    · intro happroved
      change (if _ then State.awaitingGm else State.awaitingReview) = .approved at happroved
      split at happroved
      · cases happroved
      · cases happroved
    · simp [finalizationOf, hentry, hkey]

theorem Safe.reconcileGm (hdb : Safe hashing db) {observation : GmObservation} {now : Datetime}
    (h : reconcileGm hashing db key observation now = .ok db') : Safe hashing db' := by
  unfold TopUp.reconcileGm at h
  simp only [bind_eq_ok_iff, ensure_eq_ok_iff, planRow_eq_ok_iff, exists_and_left, exists_const] at h
  obtain ⟨-, row, hrow, hstate, -, h⟩ := h
  refine hdb.update h hrow ⟨rfl, rfl, fun hopen => absurd rfl hopen.1, ?_⟩ trivial (fun e hkey hentry => ?_)
  · rw [hstate]
    decide
  · refine (hdb.tracked key row hrow).record ?_ ⟨rfl, rfl, rfl⟩ ?_ (fun h => nomatch h) (.inl ⟨rfl, rfl, ?_⟩)
    · simp [dispatchOf, hentry]
    · simp [dispatchedLegs, hstate]
    · simp [finalizationOf, hentry]

theorem Safe.cancel (hdb : Safe hashing db) {operator reason : String} {now : Datetime}
    (h : cancel hashing db key operator reason now = .ok db') : Safe hashing db' := by
  unfold TopUp.cancel at h
  simp only [bind_eq_ok_iff, ensure_eq_ok_iff, planRow_eq_ok_iff, exists_and_left, exists_const] at h
  obtain ⟨-, row, hrow, hstate, h⟩ := h
  refine hdb.update h hrow ⟨rfl, rfl, fun hopen => absurd rfl hopen.2, ?_⟩ trivial (fun e hkey hentry => ?_)
  · rw [hstate]
    decide
  · refine (hdb.tracked key row hrow).record ?_ ⟨rfl, rfl, rfl⟩ ?_ (fun h => nomatch h) (.inl ⟨rfl, rfl, ?_⟩)
    · simp [dispatchOf, hentry]
    · simp [dispatchedLegs, hstate]
    · simp [finalizationOf, hentry]

/-- The record of a new plan. -/
theorem tracked_newRow {plan : PaymentPlan} {quotedAt observedAt createdAt : ℤ} {now : Datetime}
    {planHash operator : String}
    (habsent : ∀ e ∈ events, e.body.planKey ≠ some key) (hentry : e.body.entry = .planned planHash operator)
    (hpositive : 0 < plan.intent.sourceAlphaRao) :
    Tracked key (newRow hashing plan quotedAt observedAt createdAt now) (events ++ [e]) := by
  have hdispatch : dispatchOf key e = none := by simp [dispatchOf, hentry]
  have hnone : ∀ e' ∈ events ++ [e], dispatchOf key e' = none := by
    intro e' he'
    rcases List.mem_append.1 he' with he' | he'
    · exact (silent_of_ne (habsent e' he')).1
    · rw [List.mem_singleton.1 he']
      exact hdispatch
  refine ⟨?_, ?_, (fun happroved => nomatch happroved), (fun n hn => nomatch hn), rfl, hpositive⟩
  · show (dispatches key (events ++ [e])).map Prod.fst = []
    rw [List.map_eq_nil_iff]
    exact List.filterMap_eq_nil_iff.2 hnone
  · intro before e' after heq leg amount hsome
    have hmem : e' ∈ events ++ [e] := by
      rw [heq]
      simp
    rw [hnone e' hmem] at hsome
    cases hsome

/-- What the budget check of a new plan gives. -/
theorem reserved_le_allocated (hdb : Safe hashing db) {revision policyRevision allocated reserved : ℤ}
    (hrevision : policyRevision ≤ revision)
    (hallocated : sqlSum ((db.allocations.filter fun row => row.2.policyRevision ≤ policyRevision).map
      (·.2.gmAlphaRao)) = .ok allocated)
    (hreserved : sqlSum ((db.plans.filter fun row => row.2.state ≠ .cancelled).map (·.2.sourceAlphaRao)) =
      .ok reserved) :
    reservedUpTo db revision ≤ reserved ∧ allocated ≤ allocatedUpTo db revision := by
  have hreserved := sqlSum_eq hreserved
  have hallocated := sqlSum_eq hallocated
  rw [sum_filter_eq (fun row : String × PlanRow => row.2.state ≠ .cancelled) PlanRow.sourceAlphaRao] at hreserved
  rw [sum_filter_eq (fun row : ℤ × Allocation => row.2.policyRevision ≤ policyRevision) Allocation.gmAlphaRao]
    at hallocated
  constructor
  · rw [hreserved]
    apply Dict.sumRows_le_sumRows
    intro row hrow
    have hpositive := (hdb.tracked row.1 row.2 (Dict.get?_of_mem hdb.nodup hrow)).positive
    show (if row.2.state ≠ .cancelled ∧ _ then row.2.sourceAlphaRao else 0) ≤
      if row.2.state ≠ .cancelled then row.2.sourceAlphaRao else 0
    by_cases hstate : row.2.state ≠ .cancelled
    · rw [if_pos hstate]
      split
      · omega
      · omega
    · rw [if_neg hstate, if_neg fun h => hstate h.1]
  · rw [hallocated]
    apply Dict.sumRows_le_sumRows
    intro row hrow
    have hnonneg := hdb.allocated row hrow
    by_cases hle : row.2.policyRevision ≤ policyRevision
    · simp only [hle, hle.trans hrevision, if_true]
      exact le_rfl
    · simp only [hle, if_false]
      split
      · exact hnonneg
      · exact le_rfl

/-- A new plan is within what is allocated up to its revision. -/
theorem Safe.insertPlan (hdb : Safe hashing db) {plan : PaymentPlan} {bounds : TopUpBounds} {quotedAt observedAt : ℤ}
    {now : Datetime} (hfresh : Dict.get? db.plans plan.intent.idempotencyKey = none)
    (h : insertPlan hashing db plan bounds quotedAt observedAt now = .ok db') : Safe hashing db' := by
  unfold TopUp.insertPlan TopUp.preflight at h
  simp only [bind_eq_ok_iff, ensure_eq_ok_iff, exists_and_left, exists_const] at h
  obtain ⟨hclosed, spent, -, hpreflight, -, allocated, hallocated, reserved, hreserved, hbudget, createdAt, -, -, h⟩ :=
      h
  have hpositive : 0 < plan.intent.sourceAlphaRao := hpreflight.2.2.2.2.2.1.1
  obtain ⟨e, hbody, rfl, hverified⟩ := event_eq_ok h
  have hget : ∀ k, Dict.get? (Dict.set db.plans plan.intent.idempotencyKey
      (newRow hashing plan quotedAt observedAt createdAt now)) k =
        if plan.intent.idempotencyKey = k then some (newRow hashing plan quotedAt observedAt createdAt now)
        else Dict.get? db.plans k := fun k => Dict.get?_set _ _ k _
  have habsent : ∀ e ∈ db.events, e.body.planKey ≠ some plan.intent.idempotencyKey := by
    intro e he hkey
    obtain ⟨row, hrow⟩ := hdb.named e he _ hkey
    rw [hfresh] at hrow
    cases hrow
  refine ⟨Dict.keys_set_nodup hdb.nodup _ _, ?_, ?_, hdb.allocated, ?_, ?_, hverified hdb.verified, ?_⟩
  · -- only the new plan is open
    have honly : ∀ k r, Dict.get? (Dict.set db.plans plan.intent.idempotencyKey
        (newRow hashing plan quotedAt observedAt createdAt now)) k = some r → Open r →
          plan.intent.idempotencyKey = k := by
      intro k r hr hopen
      by_contra hne
      rw [hget, if_neg hne] at hr
      exact hclosed (k, r) (Dict.mem_of_get? hr) hopen
    intro k k' r r' hr hr' hopen hopen'
    exact (honly k r hr hopen).symm.trans (honly k' r' hr' hopen')
  · intro revision
    show Dict.sumRows _ (Dict.set db.plans _ _) ≤ allocatedUpTo db revision
    rw [Dict.sumRows_insert hfresh]
    split
    · rename_i hcounted
      obtain ⟨hle, hge⟩ := reserved_le_allocated hdb hcounted.2 hallocated hreserved
      calc Dict.sumRows _ db.plans + plan.intent.sourceAlphaRao ≤ reserved + plan.intent.sourceAlphaRao := by
            exact add_le_add_left hle _
        _ ≤ allocated := by omega
        _ ≤ allocatedUpTo db revision := hge
    · rw [add_zero]
      exact hdb.bounded revision
  · intro e' he' k hk
    show ∃ r, Dict.get? (Dict.set db.plans _ _) k = some r
    rw [hget]
    split
    · exact ⟨_, rfl⟩
    · rename_i hne
      rcases List.mem_append.1 he' with he' | he'
      · exact hdb.named e' he' k hk
      · obtain rfl := List.mem_singleton.1 he'
        rw [hbody] at hk
        exact absurd (Option.some.inj hk) hne
  · show db.paused = pausedAfter (db.events ++ [e])
    rw [pausedAfter_steady (by rw [hbody]; exact trivial)]
    exact hdb.paused
  · intro k r hr
    have hr' := (hget k).symm.trans hr
    split at hr'
    · rename_i hk
      obtain rfl := Option.some.inj hr'
      rw [← hk]
      exact tracked_newRow habsent (by rw [hbody]) hpositive
    · rename_i hne
      refine (hdb.tracked k r hr').silent ?_
      rw [hbody]
      exact fun heq => hne (Option.some.inj heq)

theorem Safe.createPlan (hdb : Safe hashing db) {plan : PaymentPlan} {bounds : TopUpBounds} {now : Datetime}
    {planHash : String} (h : createPlan hashing db plan bounds now = .ok (db', planHash)) : Safe hashing db' := by
  unfold TopUp.createPlan at h
  simp only [bind_eq_ok_iff, ensure_eq_ok_iff, exists_and_left, exists_const] at h
  obtain ⟨-, -, quotedAt, -, observedAt, -, -, h⟩ := h
  split at h
  · simp only [bind_eq_ok_iff, ensure_eq_ok_iff, pure_eq_ok_iff, exists_and_left, exists_const, Prod.mk.injEq] at h
    rw [← h.2.1]
    exact hdb
  · rename_i hfresh
    simp only [bind_eq_ok_iff, pure_eq_ok_iff, Prod.mk.injEq] at h
    obtain ⟨after, h, rfl, -⟩ := h
    exact hdb.insertPlan hfresh h

theorem map_fst_eq_ok {α β ε : Type} {x : Except ε (α × β)} {a : α} (h : Prod.fst <$> x = .ok a) :
    ∃ b, x = .ok (a, b) := by
  cases x with
  | error e => cases h
  | ok p =>
    obtain rfl := Except.ok.inj h
    exact ⟨p.2, rfl⟩

theorem safe_perform (hdb : Safe hashing db) {operation : Operation} (h : perform hashing db operation = .ok db') :
    Safe hashing db' := by
  cases operation with
  | recordAllocation epoch allocation now => exact hdb.recordAllocation h
  | setPause paused operator reason now reviewer => exact hdb.setPause h
  | createPlan plan bounds now =>
    obtain ⟨planHash, h⟩ := map_fst_eq_ok h
    exact hdb.createPlan h
  | approve key reviewer expectedPlanHash now => exact hdb.approve h
  | approveNextLeg key reviewer expectedPlanHash instructionsSha256 quoteBlockHash quoteObservedAt now =>
    exact hdb.approveNextLeg h
  | claimLeg key now =>
    obtain ⟨claim, h⟩ := map_fst_eq_ok h
    exact hdb.claimLeg h
  | finalizeLeg key leg extrinsicHash blockHash nextAmountRao now => exact hdb.finalizeLeg h
  | reconcileGm key observation now => exact hdb.reconcileGm h
  | cancel key operator reason now => exact hdb.cancel h

theorem step_cases (operation : Operation) :
    step hashing db operation = db ∨ perform hashing db operation = .ok (step hashing db operation) := by
  unfold step
  cases perform hashing db operation with
  | error e => exact .inl rfl
  | ok committed => exact .inr rfl

theorem safe_step (hdb : Safe hashing db) (operation : Operation) : Safe hashing (step hashing db operation) := by
  rcases @step_cases hashing db operation with heq | hok
  · rw [heq]
    exact hdb
  · exact safe_perform hdb hok

/-! ## Every run -/

/-- The store after a run of operations. -/
def storeAfter (hashing : Hashing) (operations : List Operation) : Database :=
  run (step hashing) Database.empty operations

theorem safe_storeAfter (operations : List Operation) : Safe hashing (storeAfter hashing operations) := by
  unfold storeAfter
  apply run_inv
  · intro db operation hdb
    exact safe_step hdb operation
  · exact safe_empty

/-- The dispatches of a plan name its legs in their order. -/
theorem Tracked.prefix_legs (h : Tracked key row events) :
    (dispatches key events).map Prod.fst <+: TopUp.legs row.route := by
  rw [h.legs]
  exact List.take_prefix _ _

/-- Safety of the store in every run. -/
theorem topup_store_safe (hashing : Hashing) (operations : List Operation) :
    let db := storeAfter hashing operations
    (∀ key key' row row', Dict.get? db.plans key = some row → Dict.get? db.plans key' = some row' →
      Open row → Open row' → key = key') ∧
    (∀ revision, reservedUpTo db revision ≤ allocatedUpTo db revision) ∧
    (∀ key row, Dict.get? db.plans key = some row →
      (dispatches key db.events).map Prod.fst <+: legs row.route ∧ (legs row.route).Nodup ∧
        SoundDispatches key row.plan db.events) ∧
    verify hashing db = .ok db.events.length ∧
    ∀ operation e, perform hashing db operation = .error e → step hashing db operation = db := by
  intro db
  have hdb : Safe hashing db := safe_storeAfter operations
  refine ⟨hdb.single, hdb.bounded, fun key row hrow => ?_, hdb.verified.verify, fun operation e herror => ?_⟩
  · have htracked := hdb.tracked key row hrow
    refine ⟨htracked.prefix_legs, ?_, htracked.sound⟩
    cases row.route <;> decide
  · unfold step
    rw [herror]

end DittoSubnet.Treasury.TopUp

import DittoSubnet.Relay.Books

/-!
# The relay against the platform

Both services write the same rows. The platform adds up with unbounded integers and counts by filtering tables; the
relay adds up 64-bit integers, counts in SQL and stamps `updated_at` on every update.

* `relay_agrees_iff`: on stored values up to 2^62, the admission of the relay is that of the platform unless the settled
  tokens of the chat lane wrap at the token wall, or the insert violates a constraint; the settlement unless the new sum
  wraps; the exchange unless it revokes a grant at another time than its last update.
* `relay_stamps_refusal`: an exchange after the deadline of the lease.
-/

namespace DittoSubnet.Relay

open Kit Platform

variable {db : Database} {bearerDigest : String → String}

/-! ## The parts of a gate -/

theorem laneOf_eq {grant : InferenceGrant} {kind : RequestKind} (h : kind ≠ .decision) :
    laneOf grant kind = grant.lane kind := by
  cases kind with
  | chat => rfl
  | embedding => rfl
  | decision => exact absurd rfl h

theorem setLaneOf_eq {grant : InferenceGrant} {kind : RequestKind} (h : kind ≠ .decision) (lane : LaneAccount) :
    setLaneOf grant kind lane = grant.setLane kind lane := by
  cases kind with
  | chat => rfl
  | embedding => rfl
  | decision => exact absurd rfl h

theorem limitsOf_eq {p : BeginParams} (h : p.kind ≠ .decision) : limitsOf p = p.limits := by
  unfold limitsOf BeginParams.limits
  cases hkind : p.kind with
  | chat => rfl
  | embedding => rfl
  | decision => exact absurd hkind h

theorem modelRefused_iff {grant : InferenceGrant} {p : BeginParams} (h : p.kind ≠ .decision) :
    ¬ modelRefused grant p ↔ modelPermitted grant p.model p.kind := by
  unfold modelRefused modelPermitted
  cases hkind : p.kind with
  | chat =>
    simp only [if_true, not_or, not_not]
    exact and_comm
  | embedding => simp
  | decision => exact absurd hkind h

theorem ticketGone_iff (ticket : Option Ticket) (grant : InferenceGrant) (now : ℤ) :
    ¬ ticketGone ticket grant now ↔ ticketLive ticket grant now := by
  cases ticket with
  | none => simp [ticketGone, ticketLive]
  | some ticket => simp [ticketGone, ticketLive, not_or]

theorem bearer_iff (stored : Option String) (digest : String) :
    (∃ d ∈ stored, d = digest) ↔ stored = some digest := by
  cases stored with
  | none => simp
  | some d => simp

/-! ## Stale requests -/

theorem countRequests_eq_length (P : RequestKey → InferenceRequest → Prop) [∀ key row, Decidable (P key row)] :
    countRequests db P = (db.requests.filter fun row => P row.1 row.2).length := by
  unfold countRequests Dict.sumRows
  induction db.requests with
  | nil => rfl
  | cons row requests ih =>
    rw [List.map_cons, List.sum_cons, ih, List.filter_cons]
    by_cases hrow : P row.1 row.2
    · simp only [hrow, if_true, decide_true, List.length_cons]
      push_cast
      omega
    · simp [hrow]

theorem stale_iff {p : BeginParams} (key : RequestKey) (row : InferenceRequest) :
    Stale p.grantId p.kind p.cutoff key row ↔
      key.grantId = p.grantId ∧ row.status = .started ∧ row.requestKind = p.kind ∧ row.startedAt < p.cutoff := by
  simp only [Stale, Running, and_assoc]

theorem recount_requests (hnodup : (Dict.keys db.requests).Nodup) (p : BeginParams) :
    cancelUnsettled db (staleRequests db p) p.now =
      db.cancelWhere p.now (Stale p.grantId p.kind p.cutoff) := by
  have hfold := Dict.foldl_set_filter (fun _ row => InferenceRequest.cancel row p.now)
    (fun key row => key.grantId = p.grantId ∧ row.status = .started ∧ row.requestKind = p.kind ∧
      row.startedAt < p.cutoff) hnodup
  simp only [cancelUnsettled, staleRequests, Database.cancelWhere, cancelRows, stale_iff]
  rw [hfold]

/-- Both count the stale requests of a lane again, and cancel them; the relay stamps the grant. -/
theorem recount_eq (hnodup : (Dict.keys db.requests).Nodup) {p : BeginParams} (hkind : p.kind ≠ .decision)
    (grant : InferenceGrant) :
    (recount db grant p).1.requests = (reclaimStale db grant p).1.requests ∧
      (recount db grant p).2 = { (reclaimStale db grant p).2 with updatedAt := grant.updatedAt } := by
  have hstale : staleRequests db p = [] ↔ countRequests db (Stale p.grantId p.kind p.cutoff) = 0 := by
    rw [countRequests_eq_length]
    simp only [staleRequests, stale_iff, Int.natCast_eq_zero, List.length_eq_zero_iff]
  unfold recount reclaimStale
  rw [recount_requests hnodup]
  by_cases hnone : staleRequests db p = []
  · rw [if_pos hnone, if_pos (hstale.1 hnone)]
    exact ⟨rfl, rfl⟩
  · rw [if_neg hnone, if_neg fun hzero => hnone (hstale.2 hzero)]
    refine ⟨rfl, ?_⟩
    simp only [setLaneOf_eq hkind, laneOf_eq hkind, countRequests_eq_length, InferenceGrant.setActive, Running]
    cases p.kind <;> rfl

/-! ## Rails -/

/-- A filter of the join, counted over the requests. -/
theorem length_filter_joined (Q : RequestKey → InferenceRequest → InferenceGrant → Prop)
    [∀ key row grant, Decidable (Q key row grant)] :
    ((joined db).filter fun row => Q row.1 row.2.1 row.2.2).length =
      (db.requests.filter fun row : RequestKey × InferenceRequest =>
        ∃ grant ∈ Dict.get? db.grants row.1.grantId, Q row.1 row.2 grant).length := by
  unfold joined
  induction db.requests with
  | nil => rfl
  | cons row requests ih =>
    rw [List.filterMap_cons, List.filter_cons]
    cases hgrant : Dict.get? db.grants row.1.grantId with
    | none => simpa using ih
    | some grant =>
      by_cases hQ : Q row.1 row.2 grant
      · simpa [hQ] using ih
      · simpa [hQ] using ih

/-- A condition on the status and the validator of the grant of an id. -/
theorem exists_grant_congr {grants grants' : Dict String InferenceGrant}
    (h : ∀ id, (Dict.get? grants' id).map (fun g => (g.status, g.validatorHotkey)) =
      (Dict.get? grants id).map fun g => (g.status, g.validatorHotkey)) (id : String)
    (Q : GrantStatus × String → Prop) :
    (∃ g ∈ Dict.get? grants' id, Q (g.status, g.validatorHotkey)) ↔
      ∃ g ∈ Dict.get? grants id, Q (g.status, g.validatorHotkey) := by
  have hmap : ∀ o : Option InferenceGrant, (∃ g ∈ o, Q (g.status, g.validatorHotkey)) ↔
      ∃ x ∈ o.map (fun g => (g.status, g.validatorHotkey)), Q x := by
    intro o
    cases o with
    | none => simp
    | some g => simp
  rw [hmap, hmap, h]

/-- The rails see the requests, and of the grants the status and the validator. -/
theorem gates_eq {db' : Database} {grant grant' : InferenceGrant} {p : BeginParams} (hkind : p.kind ≠ .decision)
    (hrequests : db'.requests = db.requests)
    (hgrants : ∀ id, (Dict.get? db'.grants id).map (fun g => (g.status, g.validatorHotkey)) =
      (Dict.get? db.grants id).map fun g => (g.status, g.validatorHotkey))
    (hvalidator : grant'.validatorHotkey = grant.validatorHotkey) : gates db' grant' p = rails db grant p := by
  have hjoined : ∀ (Q : InferenceRequest → GrantStatus × String → Prop) [∀ row x, Decidable (Q row x)]
      (P : RequestKey → InferenceRequest → Prop) [∀ key row, Decidable (P key row)],
      (∀ key row, (∃ g ∈ Dict.get? db.grants key.grantId, Q row (g.status, g.validatorHotkey)) ↔ P key row) →
      (((joined db').filter fun row => Q row.2.1 (row.2.2.status, row.2.2.validatorHotkey)).length : ℤ) =
        countRequests db P := by
    intro Q _ P _ hP
    rw [@length_filter_joined db' (fun _ row g => Q row (g.status, g.validatorHotkey)) _, countRequests_eq_length,
      hrequests]
    congr 2
    apply List.filter_congr
    intro row _
    simp only [decide_eq_decide]
    rw [exists_grant_congr hgrants row.1.grantId (Q row.2), hP]
  have hrows : ∀ (Q P : RequestKey → InferenceRequest → Prop) [∀ key row, Decidable (Q key row)]
      [∀ key row, Decidable (P key row)], (∀ key row, Q key row ↔ P key row) →
      ((db'.requests.filter fun row => Q row.1 row.2).length : ℤ) = countRequests db P := by
    intro Q P _ _ hP
    rw [countRequests_eq_length, hrequests]
    congr 2
    apply List.filter_congr
    intro row _
    simp only [hP]
  unfold gates rails
  simp only [List.filter_filter, limitsOf_eq hkind, hvalidator, ← Bool.decide_and]
  have hvalidatorActive := hjoined
    (fun row x => x.2 = grant.validatorHotkey ∧ x.1 = .active ∧ row.status = .started ∧ row.requestKind = p.kind ∧
      row.startedAt ≥ p.cutoff)
    (Fresh db p.kind p.cutoff (·.validatorHotkey = grant.validatorHotkey)) (by
      intro key row
      simp only [Fresh]
      constructor
      · rintro ⟨g, hg, hv, ha, hs, hk, hc⟩
        exact ⟨hs, hk, hc, g, hg, ha, hv⟩
      · rintro ⟨hs, hk, hc, g, hg, ha, hv⟩
        exact ⟨g, hg, hv, ha, hs, hk, hc⟩)
  have hglobalActive := hjoined
    (fun row x => x.1 = .active ∧ row.status = .started ∧ row.requestKind = p.kind ∧ row.startedAt ≥ p.cutoff)
    (Fresh db p.kind p.cutoff fun _ => True) (by
      intro key row
      simp only [Fresh]
      constructor
      · rintro ⟨g, hg, ha, hs, hk, hc⟩
        exact ⟨hs, hk, hc, g, hg, ha, trivial⟩
      · rintro ⟨hs, hk, hc, g, hg, ha, -⟩
        exact ⟨g, hg, ha, hs, hk, hc⟩)
  have hvalidatorRecent := hjoined
    (fun row x => x.2 = grant.validatorHotkey ∧ row.startedAt ≥ p.now - 60 * 1000000 ∧ row.requestKind = p.kind)
    (fun key row => Recent p.kind (minuteStart p.now) row ∧
      ∃ g ∈ Dict.get? db.grants key.grantId, g.validatorHotkey = grant.validatorHotkey) (by
      intro key row
      constructor
      · rintro ⟨g, hg, hv, hs, hk⟩
        exact ⟨⟨hk, hs⟩, g, hg, hv⟩
      · rintro ⟨⟨hk, hs⟩, g, hg, hv⟩
        exact ⟨g, hg, hv, hs, hk⟩)
  have hticketRecent := hrows
    (fun key row => key.grantId = p.grantId ∧ row.startedAt ≥ p.now - 60 * 1000000 ∧ row.requestKind = p.kind)
    (fun key row => key.grantId = p.grantId ∧ Recent p.kind (minuteStart p.now) row)
    (fun key row => and_congr_right fun _ => and_comm)
  have hglobalRecent := hrows (fun _ row => row.startedAt ≥ p.now - 60 * 1000000 ∧ row.requestKind = p.kind)
    (fun _ row => Recent p.kind (minuteStart p.now) row) (fun key row => and_comm)
  rw [hvalidatorActive, hglobalActive, hvalidatorRecent, hticketRecent, hglobalRecent]

/-! ## Admission -/

/-- A stored amount that the comparison is about. -/
def Stored (x : ℤ) : Prop := 0 ≤ x ∧ x ≤ 2 ^ 62

instance (x : ℤ) : Decidable (Stored x) := inferInstanceAs (Decidable (_ ∧ _))

/-- Distinct primary keys, and stored amounts up to 2^62. -/
structure InRange (db : Database) : Prop where
  nodup : (Dict.keys db.requests).Nodup
  grants : ∀ id grant, Dict.get? db.grants id = some grant → Stored grant.completionTokens ∧
    ∀ kind, Stored (grant.lane kind).tokens ∧ Stored (grant.lane kind).costMicrousd ∧
      Stored (grant.lane kind).tokenBudget
  requests : ∀ key row, Dict.get? db.requests key = some row → Stored row.promptTokens ∧ Stored row.completionTokens ∧
    Stored row.costMicrousd ∧ Stored row.maxChargeableTokens

/-- The settled tokens of the chat lane do not fit 64 bits. -/
def Wraps (grant : InferenceGrant) : Prop := 2 ^ 63 ≤ grant.chat.tokens + grant.completionTokens

instance (grant : InferenceGrant) : Decidable (Wraps grant) := inferInstanceAs (Decidable (_ ≤ _))

/-- The caller holds the bearer of an unexpired grant that permits the model. -/
def Authorized (bearerDigest : String → String) (grant : InferenceGrant) (p : BeginParams) : Prop :=
  grant.bearerDigest = some (bearerDigest p.bearer) ∧ p.now < grant.expiresAt ∧ modelPermitted grant p.model p.kind

instance (grant : InferenceGrant) (p : BeginParams) : Decidable (Authorized bearerDigest grant p) :=
  inferInstanceAs (Decidable (_ ∧ _))

/-- An active grant with a live ticket and requests left. -/
def AtTokenWall (db : Database) (grant : InferenceGrant) (p : BeginParams) : Prop :=
  grant.status = .active ∧ ticketLive (Dict.get? db.tickets grant.key) grant p.now ∧
    (grant.lane p.kind).requestCount < (grant.lane p.kind).requestBudget ∧ 1 ≤ p.tokenReservation

instance (grant : InferenceGrant) (p : BeginParams) : Decidable (AtTokenWall db grant p) :=
  inferInstanceAs (Decidable (_ ∧ _))

/-- The running requests of a lane: its counter, or what is in the recovery window when some requests are stale. -/
def liveRequests (db : Database) (grant : InferenceGrant) (p : BeginParams) : ℤ :=
  if countRequests db (Stale p.grantId p.kind p.cutoff) = 0 then (grant.lane p.kind).activeRequests
  else countRequests db fun key row => Running p.grantId p.kind key row ∧ ¬ row.startedAt < p.cutoff

/-- Tokens are left too, and every rail has room for a fresh nonce. -/
def AtInsert (db : Database) (grant : InferenceGrant) (p : BeginParams) : Prop :=
  AtTokenWall db grant p ∧ settledTokens grant p.kind < (grant.lane p.kind).tokenBudget ∧
    liveRequests db grant p < p.limits.perTicketConcurrency ∧ Dict.get? db.requests p.key = none ∧
    ∀ rail ∈ rails db grant p, rail.1 < rail.2

instance (grant : InferenceGrant) (p : BeginParams) : Decidable (AtInsert db grant p) :=
  inferInstanceAs (Decidable (_ ∧ _))

/-- Where the admissions differ: the settled tokens wrap on an exhausted grant or at the token wall, or a grant whose
generation is not positive reaches the insert. -/
def BeginDiverges (bearerDigest : String → String) (db : Database) (p : BeginParams) : Prop :=
  ∃ grant ∈ Dict.get? db.grants p.grantId, Authorized bearerDigest grant p ∧
    ((p.kind = .chat ∧ Wraps grant ∧ (grant.status = .exhausted ∨ AtTokenWall db grant p)) ∨
      (AtInsert db grant p ∧ grant.generation ≤ 0))

instance (p : BeginParams) : Decidable (BeginDiverges bearerDigest db p) :=
  inferInstanceAs (Decidable (∃ grant ∈ Dict.get? db.grants p.grantId, _))

section Admission

variable (bearerDigest)

/-- The gates of either service up to the token wall, with its own refusal of a grant that is not active. -/
def gatesUpToWall (declineOf : InferenceGrant → Decline) (db : Database) (p : BeginParams) :
    Except Refusal (Database × InferenceGrant) := do
  let locked ← require (Dict.get? db.grants p.grantId) (.declined .unattributed)
  ensure (locked.bearerDigest = some (bearerDigest p.bearer)) (.declined .unattributed)
  ensure (p.now < locked.expiresAt) (.declined .leaseExpired)
  ensure (modelPermitted locked p.model p.kind) (.declined .modelNotPermitted)
  ensure (locked.status = .active) (.declined (declineOf locked))
  ensure (ticketLive (Dict.get? db.tickets locked.key) locked p.now) (.declined .grantRevoked)
  ensure ((locked.lane p.kind).requestCount < (locked.lane p.kind).requestBudget) (.declined .budgetExhausted)
  ensure (¬ p.tokenReservation < 1) (.declined .unattributed)
  return (reclaimStale db locked p)

/-- The insert of either service, with its own reading of a violated constraint. -/
def insertAfterWall (violated : Refusal) (db : Database) (grant : InferenceGrant) (p : BeginParams) :
    Except Refusal (Database × InferenceGrant × InferenceRequest) := do
  ensure ((grant.lane p.kind).activeRequests < p.limits.perTicketConcurrency) (.declined .atCapacity)
  ensure (Dict.get? db.requests p.key = none) (.declined .nonceReplayed)
  ensure (∀ rail ∈ rails db grant p, rail.1 < rail.2) (.declined .atCapacity)
  ensure (0 < grant.generation) violated
  let after := admitted grant p.kind p.now
  ensure (Int4 (after.lane p.kind).requestCount ∧ Int4 (after.lane p.kind).activeRequests) .failed
  let request := newRequest grant p.kind p.model p.tokenReservation (max p.tokenReservation p.maxChargeableTokens) p.now
  return ((db.setRequest p.key request).setGrant p.grantId after, after, request)

/-- The token wall of either service, and what follows. -/
def fromWall (tokens : InferenceGrant → ℤ) (violated : Refusal) (db : Database) (grant : InferenceGrant)
    (p : BeginParams) : Except Refusal (Database × InferenceGrant × InferenceRequest) := do
  ensure (tokens grant < (grant.lane p.kind).tokenBudget) (.declined .tokenBudgetExhausted)
  insertAfterWall violated db grant p

/-- The admission of either service. -/
def admission (declineOf : InferenceGrant → Decline) (tokens : InferenceGrant → ℤ) (violated : Refusal)
    (db : Database) (p : BeginParams) : Except Refusal (Database × InferenceGrant × InferenceRequest) := do
  let (db, grant) ← gatesUpToWall bearerDigest declineOf db p
  fromWall tokens violated db grant p

/-- What the reclamation leaves of a grant. -/
theorem reclaimStale_grant (grant : InferenceGrant) (p : BeginParams) :
    SameAccounts grant (reclaimStale db grant p).2 ∧ (reclaimStale db grant p).2.key = grant.key ∧
      (reclaimStale db grant p).2.ticketDeadline = grant.ticketDeadline ∧
      (reclaimStale db grant p).2.status = grant.status ∧
      (reclaimStale db grant p).2.validatorHotkey = grant.validatorHotkey ∧
      (reclaimStale db grant p).2.generation = grant.generation := by
  unfold reclaimStale
  split
  · exact ⟨⟨rfl, fun _ => rfl⟩, rfl, rfl, rfl, rfl, rfl⟩
  · refine ⟨⟨?_, fun kind => ?_⟩, ?_, ?_, ?_, ?_, ?_⟩
    · cases p.kind <;> rfl
    · cases p.kind <;> cases kind <;> rfl
    · cases p.kind <;> rfl
    · cases p.kind <;> rfl
    · cases p.kind <;> rfl
    · cases p.kind <;> rfl
    · cases p.kind <;> rfl

theorem relay_admission (db : Database) (p : BeginParams) :
    beginInferenceRequest bearerDigest db p =
      admission bearerDigest (statusDecline · p) (spent · p.kind) .failed db p := by
  have hmax : (if p.tokenReservation < p.maxChargeableTokens then p.maxChargeableTokens else p.tokenReservation) =
      max p.tokenReservation p.maxChargeableTokens := by
    split
    · omega
    · omega
  simp only [beginInferenceRequest, beginGates, beginInsert, admission, gatesUpToWall, fromWall, insertAfterWall,
    bind_assoc, pure_bind, hmax]
  refine bind_congr fun locked => ?_
  obtain ⟨⟨-, hlanes⟩, hkey, hdeadline, -⟩ := @reclaimStale_grant db locked p
  have hlive : ticketLive (Dict.get? db.tickets (reclaimStale db locked p).2.key) (reclaimStale db locked p).2 p.now =
      ticketLive (Dict.get? db.tickets locked.key) locked p.now := by
    unfold ticketLive
    rw [hkey, hdeadline]
  have hcount : ((reclaimStale db locked p).2.lane p.kind).requestCount = (locked.lane p.kind).requestCount := by
    rw [hlanes]
  have hbudget : ((reclaimStale db locked p).2.lane p.kind).requestBudget = (locked.lane p.kind).requestBudget := by
    rw [hlanes]
  simp only [hlive, hcount, hbudget]

/-- The databases of both reclamations: canceled alike, up to the stamp of the grant. -/
theorem recount_db (hnodup : (Dict.keys db.requests).Nodup) {p : BeginParams} (grant : InferenceGrant) :
    (recount db grant p).1 = (reclaimStale db grant p).1 ∨
      ∃ canceled : Database, (recount db grant p).1 = canceled.setGrant p.grantId (recount db grant p).2 ∧
        (reclaimStale db grant p).1 = canceled.setGrant p.grantId (reclaimStale db grant p).2 := by
  have hstale : staleRequests db p = [] ↔ countRequests db (Stale p.grantId p.kind p.cutoff) = 0 := by
    rw [countRequests_eq_length]
    simp only [staleRequests, stale_iff, Int.natCast_eq_zero, List.length_eq_zero_iff]
  unfold recount reclaimStale
  rw [recount_requests hnodup]
  by_cases hnone : staleRequests db p = []
  · rw [if_pos hnone, if_pos (hstale.1 hnone)]
    exact .inl rfl
  · rw [if_neg hnone, if_neg fun hzero => hnone (hstale.2 hzero)]
    exact .inr ⟨_, rfl, rfl⟩

theorem firstExhaustedScope_eq_none_iff (gates : List (ℤ × ℤ)) :
    firstExhaustedScope gates = none ↔ ∀ gate ∈ gates, gate.1 < gate.2 := by
  unfold firstExhaustedScope
  simp

/-- Both insert the same rows. -/
theorem insertRequest_eq (hnodup : (Dict.keys db.requests).Nodup) {p : BeginParams} (hkind : p.kind ≠ .decision)
    (grant : InferenceGrant) :
    insertRequest (recount db grant p).1 (recount db grant p).2 p =
      insertAfterWall (.declined .nonceReplayed) (reclaimStale db grant p).1 (reclaimStale db grant p).2 p := by
  obtain ⟨hrequests, hgrant⟩ := recount_eq hnodup hkind grant
  have hlane : (recount db grant p).2.lane p.kind = (reclaimStale db grant p).2.lane p.kind := by
    rw [hgrant]
    cases p.kind <;> rfl
  have hsetLane : ∀ lane, { (recount db grant p).2.setLane p.kind lane with updatedAt := p.now } =
      { (reclaimStale db grant p).2.setLane p.kind lane with updatedAt := p.now } := by
    intro lane
    rw [hgrant]
    cases p.kind <;> rfl
  have hnew : ∀ maxChargeable, newRequest (recount db grant p).2 p.kind p.model p.tokenReservation maxChargeable p.now =
      newRequest (reclaimStale db grant p).2 p.kind p.model p.tokenReservation maxChargeable p.now := by
    intro maxChargeable
    rw [hgrant]
    rfl
  have hgeneration : (recount db grant p).2.generation = (reclaimStale db grant p).2.generation := by
    rw [hgrant]
  have hgates : gates (recount db grant p).1 (recount db grant p).2 p =
      rails (reclaimStale db grant p).1 (reclaimStale db grant p).2 p := by
    refine gates_eq hkind hrequests (fun id => ?_) (by rw [hgrant])
    rcases recount_db hnodup grant with heq | ⟨canceled, hrecount, hreclaim⟩
    · rw [heq]
    · rw [hrecount, hreclaim]
      simp only [Database.setGrant, Dict.get?_set]
      split
      · simp only [Option.map_some, hgrant]
      · rfl
  have hset : ∀ (request : InferenceRequest) (after : InferenceGrant),
      ((recount db grant p).1.setRequest p.key request).setGrant p.grantId after =
        ((reclaimStale db grant p).1.setRequest p.key request).setGrant p.grantId after := by
    intro request after
    rcases recount_db hnodup grant with heq | ⟨canceled, hrecount, hreclaim⟩
    · rw [heq]
    · rw [hrecount, hreclaim]
      simp only [Database.setGrant, Database.setRequest, Dict.set_set]
  have hlanes : ∀ lane : LaneAccount,
      ({ (reclaimStale db grant p).2.setLane p.kind lane with updatedAt := p.now } : InferenceGrant).lane p.kind =
        lane := by
    intro lane
    cases p.kind <;> rfl
  unfold insertRequest insertAfterWall
  simp only [hgates, hset, hrequests, firstExhaustedScope_eq_none_iff, limitsOf_eq hkind, setLaneOf_eq hkind,
    laneOf_eq hkind, not_le, ge_iff_le, Option.isSome_iff_ne_none, not_not, ne_eq, hlane, hsetLane, hnew, hgeneration,
    admitted, hlanes]

theorem platform_admission (hnodup : (Dict.keys db.requests).Nodup) {p : BeginParams} (hkind : p.kind ≠ .decision) :
    Platform.beginInferenceRequest bearerDigest db p =
      admission bearerDigest (statusDeclineOf · p) (spentOf · p.kind) (.declined .nonceReplayed) db p := by
  have hlanes : p.kind = .chat ∨ p.kind = .embedding := by
    cases hp : p.kind with
    | chat => exact .inl rfl
    | embedding => exact .inr rfl
    | decision => exact absurd hp hkind
  simp only [Platform.beginInferenceRequest, checkGates, admission, gatesUpToWall, fromWall, bind_assoc, pure_bind,
    insertRequest_eq hnodup hkind]
  have hchecked : ensure (p.kind = .chat ∨ p.kind = .embedding) (.declined .unattributed : Refusal) = pure () := by
    unfold ensure
    rw [if_pos hlanes]
    rfl
  rw [hchecked, pure_bind]
  refine bind_congr fun locked => ?_
  obtain ⟨-, hgrant⟩ := recount_eq hnodup hkind locked
  obtain ⟨⟨-, haccounts⟩, hkey, hdeadline, -⟩ := @reclaimStale_grant db locked p
  have hgone : ticketGone (Dict.get? db.tickets (recount db locked p).2.key) (recount db locked p).2 p.now ↔
      ticketGone (Dict.get? db.tickets locked.key) locked p.now := by
    rw [← not_iff_not, ticketGone_iff, ticketGone_iff, hgrant]
    unfold ticketLive
    rw [← hkey, ← hdeadline]
    rfl
  have hlane : (recount db locked p).2.lane p.kind = (reclaimStale db locked p).2.lane p.kind := by
    rw [hgrant]
    cases p.kind <;> rfl
  have hspent : spentOf (recount db locked p).2 p.kind = spentOf (reclaimStale db locked p).2 p.kind := by
    rw [hgrant]
    rfl
  have hcount : ((reclaimStale db locked p).2.lane p.kind).requestCount = (locked.lane p.kind).requestCount := by
    rw [haccounts]
  have hbudget : ((reclaimStale db locked p).2.lane p.kind).requestBudget = (locked.lane p.kind).requestBudget := by
    rw [haccounts]
  simp only [bearer_iff, modelRefused_iff hkind, hgone, ticketGone_iff, laneOf_eq hkind, hlane, hspent, hcount, hbudget,
    ge_iff_le, not_le, ne_eq, not_not]

theorem require_some_bind {α β : Type} (a : α) (refusal : Refusal) (f : α → Except Refusal β) :
    (require (some a) refusal >>= f) = f a := rfl

/-- The requests that the reclamation cancels. -/
theorem reclaimStale_requests (grant : InferenceGrant) (p : BeginParams) :
    (reclaimStale db grant p).1.requests = cancelRows db.requests p.now (Stale p.grantId p.kind p.cutoff) := by
  unfold reclaimStale
  split
  · rfl
  · rfl

/-- A count after the reclamation, as a count before. -/
theorem countRequests_reclaimStale {grant : InferenceGrant} {p : BeginParams}
    {P Q : RequestKey → InferenceRequest → Prop}
    [∀ key row, Decidable (P key row)] [∀ key row, Decidable (Q key row)]
    (hstale : ∀ key row, Stale p.grantId p.kind p.cutoff key row → (P key (row.cancel p.now) ↔ Q key row))
    (hkept : ∀ key row, ¬ Stale p.grantId p.kind p.cutoff key row → (P key row ↔ Q key row)) :
    countRequests (reclaimStale db grant p).1 P = countRequests db Q := by
  unfold countRequests
  rw [reclaimStale_requests, cancelRows, Dict.sumRows_mapRows]
  apply Dict.sumRows_congr
  intro row _
  by_cases hrow : Stale p.grantId p.kind p.cutoff row.1 row.2
  · simp only [if_pos hrow, hstale _ _ hrow]
  · simp only [if_neg hrow, hkept _ _ hrow]

theorem get?_reclaimStale_grants {grant : InferenceGrant} {p : BeginParams}
    (hgrant : Dict.get? db.grants p.grantId = some grant) (id : String) :
    (Dict.get? (reclaimStale db grant p).1.grants id).map (fun g => (g.status, g.validatorHotkey)) =
      (Dict.get? db.grants id).map fun g => (g.status, g.validatorHotkey) := by
  unfold reclaimStale
  split
  · rfl
  · simp only [Database.setGrant, Database.cancelWhere, Dict.get?_set]
    split
    · rename_i hid
      rw [← hid, hgrant, Option.map_some, Option.map_some]
      cases p.kind <;> rfl
    · rfl

theorem reclaimStale_live (grant : InferenceGrant) (p : BeginParams) :
    ((reclaimStale db grant p).2.lane p.kind).activeRequests = liveRequests db grant p := by
  have hcount : countRequests (reclaimStale db grant p).1 (Running p.grantId p.kind) =
      countRequests db fun key row => Running p.grantId p.kind key row ∧ ¬ row.startedAt < p.cutoff := by
    apply countRequests_reclaimStale
    · intro key row hstale
      exact iff_of_false (fun h => nomatch h.2.1) fun h => h.2 hstale.2
    · intro key row hkept
      exact ⟨fun h => ⟨h, fun hold => hkept ⟨h, hold⟩⟩, fun h => h.1⟩
  unfold liveRequests
  rw [← hcount]
  unfold reclaimStale
  split
  · rfl
  · simp only [InferenceGrant.setActive, countRequests, Database.setGrant]
    cases p.kind <;> rfl

theorem reclaimStale_nonce (grant : InferenceGrant) (p : BeginParams) (key : RequestKey) :
    Dict.get? (reclaimStale db grant p).1.requests key = none ↔ Dict.get? db.requests key = none := by
  rw [reclaimStale_requests, cancelRows, Dict.get?_mapRows, Option.map_eq_none_iff]

/-- The rails do not see what is reclaimed. -/
theorem rails_reclaimStale {grant : InferenceGrant} {p : BeginParams}
    (hgrant : Dict.get? db.grants p.grantId = some grant) :
    rails (reclaimStale db grant p).1 (reclaimStale db grant p).2 p = rails db grant p := by
  obtain ⟨-, -, -, -, hvalidator, -⟩ := @reclaimStale_grant db grant p
  have hfresh : ∀ (Q : String → Prop) [DecidablePred Q],
      countRequests (reclaimStale db grant p).1
        (Fresh (reclaimStale db grant p).1 p.kind p.cutoff (Q ·.validatorHotkey)) =
          countRequests db (Fresh db p.kind p.cutoff (Q ·.validatorHotkey)) := by
    intro Q _
    apply countRequests_reclaimStale
    · intro key row hstale
      exact iff_of_false (fun h => nomatch h.1) fun h => absurd hstale.2 (not_lt.2 h.2.2.1)
    · intro key row _
      simp only [Fresh]
      rw [exists_grant_congr (get?_reclaimStale_grants hgrant) key.grantId fun x => x.1 = .active ∧ Q x.2]
  have hticketRecent : countRequests (reclaimStale db grant p).1
      (fun key row => key.grantId = p.grantId ∧ Recent p.kind (minuteStart p.now) row) =
        countRequests db fun key row => key.grantId = p.grantId ∧ Recent p.kind (minuteStart p.now) row :=
    countRequests_reclaimStale (fun _ _ _ => Iff.rfl) fun _ _ _ => Iff.rfl
  have hglobalRecent : countRequests (reclaimStale db grant p).1
      (fun _ row => Recent p.kind (minuteStart p.now) row) =
        countRequests db fun _ row => Recent p.kind (minuteStart p.now) row :=
    countRequests_reclaimStale (fun _ _ _ => Iff.rfl) fun _ _ _ => Iff.rfl
  have hvalidatorRecent : countRequests (reclaimStale db grant p).1
      (fun key row => Recent p.kind (minuteStart p.now) row ∧
        ∃ g ∈ Dict.get? (reclaimStale db grant p).1.grants key.grantId, g.validatorHotkey = grant.validatorHotkey) =
        countRequests db fun key row => Recent p.kind (minuteStart p.now) row ∧
          ∃ g ∈ Dict.get? db.grants key.grantId, g.validatorHotkey = grant.validatorHotkey := by
    have hgrants : ∀ key : RequestKey, (∃ g ∈ Dict.get? (reclaimStale db grant p).1.grants key.grantId,
        g.validatorHotkey = grant.validatorHotkey) ↔
          ∃ g ∈ Dict.get? db.grants key.grantId, g.validatorHotkey = grant.validatorHotkey := fun key =>
      exists_grant_congr (get?_reclaimStale_grants hgrant) key.grantId (·.2 = grant.validatorHotkey)
    exact countRequests_reclaimStale (fun key _ _ => and_congr_right fun _ => hgrants key)
      fun key _ _ => and_congr_right fun _ => hgrants key
  unfold rails
  rw [hvalidator]
  simp only [hfresh (· = grant.validatorHotkey), hfresh fun _ => True, hticketRecent, hglobalRecent, hvalidatorRecent]

/-- The gates refuse alike, refuse a grant that is not active, or reach the token wall. -/
theorem gatesUpToWall_cases (db : Database) (p : BeginParams) :
    (∃ refusal, (∀ declineOf, gatesUpToWall bearerDigest declineOf db p = .error refusal) ∧
        ∀ grant ∈ Dict.get? db.grants p.grantId, Authorized bearerDigest grant p →
          grant.status = .active ∧ ¬ AtTokenWall db grant p) ∨
      ∃ grant ∈ Dict.get? db.grants p.grantId, Authorized bearerDigest grant p ∧
        ((grant.status ≠ .active ∧
            ∀ declineOf, gatesUpToWall bearerDigest declineOf db p = .error (.declined (declineOf grant))) ∨
          (AtTokenWall db grant p ∧
            ∀ declineOf, gatesUpToWall bearerDigest declineOf db p = .ok (reclaimStale db grant p))) := by
  unfold gatesUpToWall
  cases hgrant : Dict.get? db.grants p.grantId with
  | none => exact .inl ⟨.declined .unattributed, fun _ => rfl, fun grant h => nomatch h⟩
  | some locked =>
    simp only [require_some_bind, Option.mem_some_iff, forall_eq', exists_eq_left']
    by_cases hbearer : locked.bearerDigest = some (bearerDigest p.bearer)
    swap
    · exact .inl ⟨_, fun _ => ensure_bind_neg hbearer, fun h => absurd h.1 hbearer⟩
    by_cases hexpires : p.now < locked.expiresAt
    swap
    · refine .inl ⟨.declined .leaseExpired, fun _ => ?_, fun h => absurd h.2.1 hexpires⟩
      rw [ensure_bind_pos hbearer, ensure_bind_neg hexpires]
    by_cases hmodel : modelPermitted locked p.model p.kind
    swap
    · refine .inl ⟨.declined .modelNotPermitted, fun _ => ?_, fun h => absurd h.2.2 hmodel⟩
      rw [ensure_bind_pos hbearer, ensure_bind_pos hexpires, ensure_bind_neg hmodel]
    have hauthorized : Authorized bearerDigest locked p := ⟨hbearer, hexpires, hmodel⟩
    simp only [ensure_bind_pos hbearer, ensure_bind_pos hexpires, ensure_bind_pos hmodel]
    by_cases hactive : locked.status = .active
    swap
    · exact .inr ⟨hauthorized, .inl ⟨hactive, fun _ => ensure_bind_neg hactive⟩⟩
    simp only [ensure_bind_pos hactive]
    by_cases hlive : ticketLive (Dict.get? db.tickets locked.key) locked p.now
    swap
    · exact .inl ⟨_, fun _ => ensure_bind_neg hlive, fun _ => ⟨hactive, fun h => hlive h.2.1⟩⟩
    by_cases hcount : (locked.lane p.kind).requestCount < (locked.lane p.kind).requestBudget
    swap
    · refine .inl ⟨.declined .budgetExhausted, fun _ => ?_, fun _ => ⟨hactive, fun h => hcount h.2.2.1⟩⟩
      rw [ensure_bind_pos hlive, ensure_bind_neg hcount]
    by_cases hreservation : ¬ p.tokenReservation < 1
    swap
    · refine .inl ⟨.declined .unattributed, fun _ => ?_, fun _ => ⟨hactive, fun h => hreservation (not_lt.2 h.2.2.2)⟩⟩
      rw [ensure_bind_pos hlive, ensure_bind_pos hcount, ensure_bind_neg hreservation]
    refine .inr ⟨hauthorized, .inr ⟨⟨hactive, hlive, hcount, not_lt.1 hreservation⟩, fun _ => ?_⟩⟩
    rw [ensure_bind_pos hlive, ensure_bind_pos hcount, ensure_bind_pos hreservation]
    rfl

/-- After the wall the services differ in what a violated constraint answers. -/
theorem insertAfterWall_eq_iff {grant : InferenceGrant} {p : BeginParams} {violated violated' : Refusal}
    (hne : violated ≠ violated') :
    insertAfterWall violated db grant p = insertAfterWall violated' db grant p ↔
      ¬ ((grant.lane p.kind).activeRequests < p.limits.perTicketConcurrency ∧ Dict.get? db.requests p.key = none ∧
        (∀ rail ∈ rails db grant p, rail.1 < rail.2) ∧ grant.generation ≤ 0) := by
  unfold insertAfterWall
  by_cases hactive : (grant.lane p.kind).activeRequests < p.limits.perTicketConcurrency
  swap
  · rw [ensure_bind_neg hactive, ensure_bind_neg hactive]
    exact iff_of_true rfl fun h => hactive h.1
  by_cases hnonce : Dict.get? db.requests p.key = none
  swap
  · rw [ensure_bind_pos hactive, ensure_bind_pos hactive, ensure_bind_neg hnonce, ensure_bind_neg hnonce]
    exact iff_of_true rfl fun h => hnonce h.2.1
  by_cases hrails : ∀ rail ∈ rails db grant p, rail.1 < rail.2
  swap
  · simp only [ensure_bind_pos hactive, ensure_bind_pos hnonce]
    rw [ensure_bind_neg hrails, ensure_bind_neg hrails]
    exact iff_of_true rfl fun h => hrails h.2.2.1
  simp only [ensure_bind_pos hactive, ensure_bind_pos hnonce, ensure_bind_pos hrails]
  by_cases hgeneration : 0 < grant.generation
  · rw [ensure_bind_pos hgeneration, ensure_bind_pos hgeneration]
    exact iff_of_true rfl fun h => absurd hgeneration (not_lt.2 h.2.2.2)
  · rw [ensure_bind_neg hgeneration, ensure_bind_neg hgeneration]
    constructor
    · intro heq
      exact absurd (Except.error.inj heq) hne
    · intro hclear
      exact absurd ⟨hactive, hnonce, hrails, not_lt.1 hgeneration⟩ hclear

theorem insertAfterWall_ne {grant : InferenceGrant} {p : BeginParams} {violated : Refusal}
    (h : violated ≠ .declined .tokenBudgetExhausted) :
    insertAfterWall violated db grant p ≠ .error (.declined .tokenBudgetExhausted) := by
  unfold insertAfterWall
  refine ensure_bind_ne (by decide) (ensure_bind_ne (by decide) (ensure_bind_ne (by decide) (ensure_bind_ne h ?_)))
  exact ensure_bind_ne (by decide) fun heq => nomatch heq

/-! ## The 64-bit sum -/

/-- The stored amounts of a grant. -/
theorem wrap64_settled {grant : InferenceGrant} (htokens : Stored grant.chat.tokens)
    (hcompletion : Stored grant.completionTokens) :
    wrap64 (grant.chat.tokens + grant.completionTokens) =
      if Wraps grant then -2 ^ 63 else grant.chat.tokens + grant.completionTokens := by
  unfold Stored at htokens hcompletion
  by_cases hwraps : Wraps grant
  · rw [if_pos hwraps]
    unfold Wraps at hwraps
    have hsum : grant.chat.tokens + grant.completionTokens = 2 ^ 63 := by omega
    rw [hsum]
    decide
  · rw [if_neg hwraps]
    unfold Wraps at hwraps
    exact wrap64_of_int8 ⟨by omega, by omega⟩

/-- The relay's reading of a grant that is not active. -/
theorem statusDecline_eq_iff {grant : InferenceGrant} {p : BeginParams} (htokens : Stored grant.chat.tokens)
    (hcompletion : Stored grant.completionTokens) (hbudget : Stored grant.chat.tokenBudget) :
    statusDecline grant p = statusDeclineOf grant p ↔
      ¬ (p.kind = .chat ∧ Wraps grant ∧ grant.status = .exhausted) := by
  unfold statusDecline statusDeclineOf
  rw [wrap64_settled htokens hcompletion]
  unfold Stored at htokens hcompletion hbudget
  cases hstatus : grant.status with
  | pending => simp
  | active => simp
  | revoked => simp
  | exhausted =>
    by_cases hchat : p.kind = .chat
    swap
    · simp [hchat]
    by_cases hwraps : Wraps grant
    · have hover : grant.chat.tokenBudget ≤ grant.chat.tokens + grant.completionTokens := by
        unfold Wraps at hwraps
        omega
      have hunder : ¬ grant.chat.tokenBudget ≤ -2 ^ 63 := by omega
      simp only [hchat, hwraps, hover, hunder, if_true, if_false, and_false, and_self,
        not_true_eq_false, iff_false]
      decide
    · simp [hchat, hwraps]

/-- The token wall of both services. -/
theorem spent_lt_iff {grant : InferenceGrant} {kind : RequestKind} (htokens : Stored grant.chat.tokens)
    (hcompletion : Stored grant.completionTokens) (hbudget : Stored grant.chat.tokenBudget) :
    spent grant kind < (grant.lane kind).tokenBudget ↔
      (kind = .chat ∧ Wraps grant) ∨ settledTokens grant kind < (grant.lane kind).tokenBudget := by
  cases kind with
  | embedding => simp [spent, settledTokens]
  | decision => simp [spent, settledTokens]
  | chat =>
    simp only [spent, settledTokens, InferenceGrant.lane, wrap64_settled htokens hcompletion, true_and]
    unfold Stored at hbudget
    by_cases hwraps : Wraps grant
    · simp only [hwraps, if_true, true_or, iff_true]
      omega
    · simp only [hwraps, if_false, false_or]

theorem not_settled_of_wraps {grant : InferenceGrant} (hwraps : Wraps grant) (hbudget : Stored grant.chat.tokenBudget) :
    ¬ settledTokens grant .chat < grant.chat.tokenBudget := by
  unfold Wraps at hwraps
  unfold Stored at hbudget
  simp only [settledTokens]
  omega

theorem spentOf_eq {grant : InferenceGrant} {kind : RequestKind} (h : kind ≠ .decision) :
    spentOf grant kind = settledTokens grant kind := by
  cases kind with
  | chat => rfl
  | embedding => rfl
  | decision => exact absurd rfl h

theorem settledTokens_reclaimStale (grant : InferenceGrant) (p : BeginParams) (kind : RequestKind) :
    settledTokens (reclaimStale db grant p).2 kind = settledTokens grant kind ∧
      ((reclaimStale db grant p).2.lane kind).tokenBudget = (grant.lane kind).tokenBudget := by
  obtain ⟨⟨hcompletion, hlanes⟩, -⟩ := @reclaimStale_grant db grant p
  have htokens : ∀ kind, ((reclaimStale db grant p).2.lane kind).tokens = (grant.lane kind).tokens := by
    intro kind
    rw [hlanes]
  refine ⟨?_, by rw [hlanes]⟩
  cases kind with
  | chat => exact congrArg₂ (· + ·) (htokens .chat) hcompletion
  | embedding => exact htokens .embedding
  | decision => exact htokens .decision

/-- From the token wall on. -/
theorem wall_agrees_iff {grant : InferenceGrant} {p : BeginParams} (hkind : p.kind ≠ .decision)
    (htokens : Stored grant.chat.tokens) (hcompletion : Stored grant.completionTokens)
    (hbudget : Stored grant.chat.tokenBudget) :
    fromWall (spent · p.kind) .failed db grant p = fromWall (spentOf · p.kind) (.declined .nonceReplayed) db grant p ↔
      ¬ ((p.kind = .chat ∧ Wraps grant) ∨
        (settledTokens grant p.kind < (grant.lane p.kind).tokenBudget ∧
          (grant.lane p.kind).activeRequests < p.limits.perTicketConcurrency ∧ Dict.get? db.requests p.key = none ∧
          (∀ rail ∈ rails db grant p, rail.1 < rail.2) ∧ grant.generation ≤ 0)) := by
  have hspent := @spent_lt_iff grant p.kind htokens hcompletion hbudget
  simp only [fromWall, spentOf_eq hkind]
  by_cases hwraps : p.kind = .chat ∧ Wraps grant
  · -- the relay admits what the platform refuses
    have hwall : ¬ settledTokens grant p.kind < (grant.lane p.kind).tokenBudget := by
      rw [hwraps.1]
      exact not_settled_of_wraps hwraps.2 hbudget
    rw [ensure_bind_pos (hspent.2 (.inl hwraps)), ensure_bind_neg hwall]
    exact iff_of_false (insertAfterWall_ne (by decide)) (not_not.2 (.inl hwraps))
  by_cases hleft : settledTokens grant p.kind < (grant.lane p.kind).tokenBudget
  · rw [ensure_bind_pos (hspent.2 (.inr hleft)), ensure_bind_pos hleft, insertAfterWall_eq_iff (by decide)]
    simp only [hwraps, hleft, false_or, true_and]
  · have hwall : ¬ spent grant p.kind < (grant.lane p.kind).tokenBudget := fun h =>
      (hspent.1 h).elim hwraps hleft
    rw [ensure_bind_neg hwall, ensure_bind_neg hleft]
    exact iff_of_true rfl fun h => h.elim hwraps fun h => hleft h.1

/-- The admissions agree unless one of the defects is reached. -/
theorem begin_agrees_iff (hdb : InRange db) {p : BeginParams} (hkind : p.kind ≠ .decision) :
    beginInferenceRequest bearerDigest db p = Platform.beginInferenceRequest bearerDigest db p ↔
      ¬ BeginDiverges bearerDigest db p := by
  rw [relay_admission, platform_admission bearerDigest hdb.nodup hkind]
  unfold admission BeginDiverges
  rcases gatesUpToWall_cases bearerDigest db p with
    ⟨refusal, hrefused, hclear⟩ | ⟨grant, hgrant, hauthorized, ⟨hinactive, hgates⟩ | ⟨hwall, hgates⟩⟩
  · -- both refuse before they look at the tokens
    rw [hrefused, hrefused]
    refine iff_of_true rfl ?_
    rintro ⟨grant, hgrant, hauthorized, hdefect⟩
    obtain ⟨hactive, hnowall⟩ := hclear grant hgrant hauthorized
    rcases hdefect with ⟨-, -, hexhausted | hwall⟩ | ⟨hinsert, -⟩
    · rw [hactive] at hexhausted
      exact nomatch hexhausted
    · exact hnowall hwall
    · exact hnowall hinsert.1
  · obtain ⟨hcompletion, hlanes⟩ := hdb.grants _ _ hgrant
    have hdecline := @statusDecline_eq_iff grant p (hlanes .chat).1 hcompletion (hlanes .chat).2.2
    rw [hgates, hgates]
    show (.error (.declined (statusDecline grant p)) : Except Refusal _) =
      .error (.declined (statusDeclineOf grant p)) ↔ _
    rw [Except.error.injEq, Refusal.declined.injEq, hdecline]
    apply not_congr
    constructor
    · rintro ⟨hchat, hwraps, hexhausted⟩
      exact ⟨grant, hgrant, hauthorized, .inl ⟨hchat, hwraps, .inl hexhausted⟩⟩
    · rintro ⟨grant', hgrant', -, hdefect⟩
      obtain rfl : grant = grant' := Option.mem_unique hgrant hgrant'
      rcases hdefect with ⟨hchat, hwraps, hexhausted | hwall⟩ | ⟨hinsert, -⟩
      · exact ⟨hchat, hwraps, hexhausted⟩
      · exact absurd hwall.1 hinactive
      · exact absurd hinsert.1.1 hinactive
  · obtain ⟨hcompletion, hlanes⟩ := hdb.grants _ _ hgrant
    obtain ⟨⟨hcompletion', hlanes'⟩, -, -, -, -, hgeneration⟩ := @reclaimStale_grant db grant p
    have hsettled := @settledTokens_reclaimStale db grant p p.kind
    have htokens : (reclaimStale db grant p).2.chat.tokens = grant.chat.tokens := by
      have hlane := congrArg LaneAccount.tokens (hlanes' .chat)
      exact hlane
    have hbudget : (reclaimStale db grant p).2.chat.tokenBudget = grant.chat.tokenBudget :=
      (@settledTokens_reclaimStale db grant p .chat).2
    have hwrapsIff : Wraps (reclaimStale db grant p).2 ↔ Wraps grant := by
      unfold Wraps
      rw [htokens, hcompletion']
    have hagree := @wall_agrees_iff (reclaimStale db grant p).1 (reclaimStale db grant p).2 p hkind
      (by rw [htokens]; exact (hlanes .chat).1) (by rw [hcompletion']; exact hcompletion)
      (by rw [hbudget]; exact (hlanes .chat).2.2)
    rw [hwrapsIff, hsettled.1, hsettled.2, hgeneration, reclaimStale_live, reclaimStale_nonce,
      rails_reclaimStale hgrant] at hagree
    rw [hgates, hgates]
    refine hagree.trans (not_congr ?_)
    constructor
    · rintro (⟨hchat, hwraps⟩ | ⟨hleft, hactive, hnonce, hrails, hnonpos⟩)
      · exact ⟨grant, hgrant, hauthorized, .inl ⟨hchat, hwraps, .inr hwall⟩⟩
      · exact ⟨grant, hgrant, hauthorized, .inr ⟨⟨hwall, hleft, hactive, hnonce, hrails⟩, hnonpos⟩⟩
    · rintro ⟨grant', hgrant', -, hdefect⟩
      obtain rfl : grant = grant' := Option.mem_unique hgrant hgrant'
      rcases hdefect with ⟨hchat, hwraps, -⟩ | ⟨⟨-, hleft, hactive, hnonce, hrails⟩, hnonpos⟩
      · exact .inl ⟨hchat, hwraps⟩
      · exact .inr ⟨hleft, hactive, hnonce, hrails, hnonpos⟩

end Admission

/-! ## Settlement -/

/-- The settlement of either service, with its own exhaustion rule. -/
def settlement (exhaust : InferenceGrant → RequestKind → InferenceGrant) (db : Database) (grant : InferenceGrant)
    (request : InferenceRequest) (p : FinishParams) : Except Refusal (Database × Bool) :=
  if Settles request p then do
    let deliverable := decide (Deliverable (Dict.get? db.tickets grant.key) grant request p)
    let settled := settledGrant grant request p
    ensure (SettledInRange settled request.requestKind) .failed
    return ((db.setRequest p.key (settledRequest request p deliverable)).setGrant p.grantId
      (exhaust settled request.requestKind), deliverable)
  else return (db, false)

/-- What the arguments of a settlement are in the relay. -/
def FinishParams.Int64 (p : FinishParams) : Prop := Int8 p.promptTokens ∧ Int8 p.completionTokens ∧ Int8 p.costMicrousd

instance (p : FinishParams) : Decidable p.Int64 := inferInstanceAs (Decidable (_ ∧ _))

/-- Both clamp a report alike. -/
theorem clampUsage_eq {request : InferenceRequest} {p : FinishParams} (hceiling : Stored request.maxChargeableTokens)
    (hp : p.Int64) :
    (clampUsage request p).1 = charge request p ∧ ((clampUsage request p).2 = true ↔ ¬ overCeiling request p) := by
  obtain ⟨-, hcompletion, -⟩ := hp
  unfold Stored at hceiling
  unfold Int8 at hcompletion
  have hwrap : wrap64 (request.maxChargeableTokens - max 0 p.completionTokens) =
      request.maxChargeableTokens - max 0 p.completionTokens := wrap64_of_int8 ⟨by omega, by omega⟩
  have hover : overCeiling request p ↔ p.usageAvailable = true ∧
      max 0 p.promptTokens + max 0 p.completionTokens > request.maxChargeableTokens := by
    unfold overCeiling
    rw [hwrap]
    refine and_congr_right fun _ => ?_
    omega
  unfold clampUsage charge
  cases husage : p.usageAvailable with
  | false => simp [hover, husage]
  | true =>
    by_cases hexceeds : max 0 p.promptTokens + max 0 p.completionTokens > request.maxChargeableTokens
    · simp [hover, husage, hexceeds]
    · simp [hover, husage, hexceeds]

theorem relay_settlement {grant : InferenceGrant} {request : InferenceRequest} {p : FinishParams}
    (hgrant : Dict.get? db.grants p.grantId = some grant) (hrequest : Dict.get? db.requests p.key = some request) :
    finishInferenceRequest db p = settlement exhaust db grant request p := by
  unfold finishInferenceRequest settlement
  rw [hgrant, hrequest]

theorem settledRow_eq (request : InferenceRequest) (p : FinishParams) (deliverable : Bool) :
    settledRow request p (charge request p) deliverable = settledRequest request p deliverable := by
  have hphase : min 1 (max 0 p.fallbackPhase) =
      if p.fallbackPhase < 0 then 0 else if 1 < p.fallbackPhase then 1 else p.fallbackPhase := by
    split
    · omega
    · split
      · omega
      · omega
  simp only [settledRow, settledRequest, hphase]

theorem bookUsage_eq {grant : InferenceGrant} {request : InferenceRequest} {p : FinishParams}
    (hkind : request.requestKind ≠ .decision) :
    bookUsage grant request (charge request p) p.now = settledGrant grant request p := by
  unfold bookUsage settledGrant
  cases hchat : request.requestKind with
  | chat => rfl
  | embedding => rfl
  | decision => exact absurd hchat hkind

/-- The exhaustion rule writes no amount. -/
theorem inRange_closeSpent (grant : InferenceGrant) (kind : RequestKind) :
    (Int8 ((closeSpent grant kind).lane kind).tokens ∧ (kind = .chat → Int8 (closeSpent grant kind).completionTokens) ∧
      Int8 ((closeSpent grant kind).lane kind).costMicrousd) ↔ SettledInRange grant kind := by
  unfold closeSpent SettledInRange
  split
  · cases kind <;> rfl
  · rfl

theorem platform_settlement {grant : InferenceGrant} {request : InferenceRequest} {p : FinishParams}
    (hgrant : Dict.get? db.grants p.grantId = some grant) (hrequest : Dict.get? db.requests p.key = some request)
    (hkind : request.requestKind ≠ .decision) (hceiling : Stored request.maxChargeableTokens) (hp : p.Int64) :
    Platform.finishInferenceRequest db p = settlement closeSpent db grant request p := by
  obtain ⟨hcharge, hwithin⟩ := clampUsage_eq hceiling hp
  have hdeliverable : (decide (p.status = .completed ∧ p.usageAvailable ∧ grant.status = .active ∧
      grant.generation = p.generation ∧ request.status = .started ∧ grant.expiresAt > p.now ∧
      ¬ ticketGone (Dict.get? db.tickets grant.key) grant p.now) && (clampUsage request p).2) =
        decide (Deliverable (Dict.get? db.tickets grant.key) grant request p) := by
    rw [Bool.eq_iff_iff, Bool.and_eq_true, decide_eq_true_iff, decide_eq_true_iff, hwithin, ticketGone_iff]
    unfold Deliverable
    tauto
  unfold Platform.finishInferenceRequest settlement
  simp only [hgrant, hrequest]
  by_cases hsettles : Settles request p
  · have hopen : ¬ ((request.status ≠ .started ∧ request.status ≠ .canceled) ∨ request.generation ≠ p.generation) := by
      unfold Settles at hsettles
      tauto
    have hunused : ¬ (request.status ≠ .started ∧
        (request.promptTokens > 0 ∨ request.completionTokens > 0 ∨ request.costMicrousd > 0)) := by
      unfold Settles at hsettles
      tauto
    simp only [if_pos hsettles, if_neg hopen, if_neg hunused, hdeliverable, hcharge, bookUsage_eq hkind,
      settledRow_eq, laneOf_eq hkind, inRange_closeSpent]
  · rw [if_neg hsettles]
    unfold Settles at hsettles
    split
    · rfl
    · rw [if_pos (by tauto)]

/-- The tokens that a report books: none without a receipt, and never more than the ceiling of the request. -/
def bookedTokens (request : InferenceRequest) (p : FinishParams) : ℤ :=
  if p.usageAvailable = true then min (max 0 p.promptTokens + max 0 p.completionTokens) request.maxChargeableTokens else
    0

/-- Each amount of the chat lane still fits its column. -/
def ChargeFits (grant : InferenceGrant) (request : InferenceRequest) (p : FinishParams) : Prop :=
  Int8 (grant.chat.tokens + (charge request p).promptTokens) ∧
    Int8 (grant.completionTokens + (charge request p).completionTokens) ∧
    Int8 (grant.chat.costMicrousd + (charge request p).costMicrousd)

/-- Where the settlements differ: each column holds its amount and the sum of both does not fit 64 bits, on a grant that
is not exhausted yet. -/
def FinishDiverges (db : Database) (p : FinishParams) : Prop :=
  ∃ grant ∈ Dict.get? db.grants p.grantId, ∃ request ∈ Dict.get? db.requests p.key, Settles request p ∧
    request.requestKind = .chat ∧ grant.status ≠ .exhausted ∧ ChargeFits grant request p ∧
    2 ^ 63 ≤ grant.chat.tokens + grant.completionTokens + bookedTokens request p

/-- The amounts of a chat grant after a settlement. -/
theorem settledGrant_chat {grant : InferenceGrant} {request : InferenceRequest} {p : FinishParams}
    (hchat : request.requestKind = .chat) :
    (settledGrant grant request p).chat.tokens = grant.chat.tokens + (charge request p).promptTokens ∧
      (settledGrant grant request p).completionTokens = grant.completionTokens + (charge request p).completionTokens ∧
      (settledGrant grant request p).chat.costMicrousd = grant.chat.costMicrousd + (charge request p).costMicrousd ∧
      (settledGrant grant request p).chat.tokenBudget = grant.chat.tokenBudget ∧
      (settledGrant grant request p).status = grant.status := by
  unfold settledGrant
  rw [hchat]
  exact ⟨rfl, rfl, rfl, rfl, rfl⟩

/-- A charge is within the ceiling of its request. -/
theorem charge_stored {request : InferenceRequest} {p : FinishParams} (hceiling : Stored request.maxChargeableTokens)
    (hp : p.Int64) :
    0 ≤ (charge request p).promptTokens ∧ 0 ≤ (charge request p).completionTokens ∧
      (charge request p).promptTokens + (charge request p).completionTokens ≤ 2 ^ 62 := by
  rw [← (clampUsage_eq hceiling hp).1]
  unfold Stored at hceiling
  unfold clampUsage
  by_cases husage : p.usageAvailable = true
  swap
  · simp [husage]
  by_cases hover : max 0 p.promptTokens + max 0 p.completionTokens > request.maxChargeableTokens
  · simp only [husage, hover, not_true_eq_false, if_false, if_true]
    omega
  · simp only [husage, hover, not_true_eq_false, if_false]
    omega

theorem charge_total {request : InferenceRequest} {p : FinishParams} (hceiling : Stored request.maxChargeableTokens)
    (hp : p.Int64) :
    (charge request p).promptTokens + (charge request p).completionTokens = bookedTokens request p := by
  rw [← (clampUsage_eq hceiling hp).1]
  unfold clampUsage bookedTokens
  by_cases husage : p.usageAvailable = true
  swap
  · simp [husage]
  by_cases hover : max 0 p.promptTokens + max 0 p.completionTokens > request.maxChargeableTokens
  · simp only [husage, hover, not_true_eq_false, if_false, if_true]
    omega
  · simp only [husage, hover, not_true_eq_false, if_false, if_true]
    omega

/-- A sum past the range of a `bigint` turns negative. -/
theorem wrap64_neg {x : ℤ} (hlow : 2 ^ 63 ≤ x) (hhigh : x < 2 ^ 64) : wrap64 x < 0 := by
  unfold wrap64 Int.bmod
  norm_num
  split
  · omega
  · omega

/-- The exhaustion rules agree unless the sum wraps. -/
theorem exhaust_eq_iff {grant : InferenceGrant} {request : InferenceRequest} {p : FinishParams}
    (htokens : Stored grant.chat.tokens) (hcompletion : Stored grant.completionTokens)
    (hbudget : Stored grant.chat.tokenBudget) (hceiling : Stored request.maxChargeableTokens) (hp : p.Int64) :
    exhaust (settledGrant grant request p) request.requestKind =
        closeSpent (settledGrant grant request p) request.requestKind ↔
      ¬ (request.requestKind = .chat ∧ Wraps (settledGrant grant request p) ∧ grant.status ≠ .exhausted) := by
  by_cases hchat : request.requestKind = .chat
  swap
  · unfold exhaust closeSpent
    simp only [hchat, false_and, if_false, not_false_eq_true]
  obtain ⟨htokens', hcompletion', -, hbudget', hstatus⟩ := @settledGrant_chat grant request p hchat
  obtain ⟨hprompt, hcompleted, htotal⟩ := charge_stored hceiling hp
  unfold Stored at htokens hcompletion hbudget
  unfold exhaust closeSpent
  by_cases hwraps : Wraps (settledGrant grant request p)
  · unfold Wraps at hwraps
    have hover : (settledGrant grant request p).chat.tokenBudget ≤
        (settledGrant grant request p).chat.tokens + (settledGrant grant request p).completionTokens := by omega
    have hwrap : wrap64 ((settledGrant grant request p).chat.tokens +
        (settledGrant grant request p).completionTokens) < 0 := wrap64_neg hwraps (by omega)
    have hunder : ¬ (settledGrant grant request p).chat.tokenBudget ≤
        wrap64 ((settledGrant grant request p).chat.tokens + (settledGrant grant request p).completionTokens) := by
      omega
    rw [if_neg fun h => hunder h.2, if_pos ⟨hchat, hover⟩]
    constructor
    · rintro heq ⟨-, -, hopen⟩
      rw [heq] at hstatus
      exact hopen hstatus.symm
    · intro hclosed
      have hexhausted : (settledGrant grant request p).status = .exhausted := by
        rw [hstatus]
        by_contra hopen
        exact hclosed ⟨hchat, hwraps, hopen⟩
      rw [← hexhausted]
  · have hwrap : wrap64 ((settledGrant grant request p).chat.tokens +
        (settledGrant grant request p).completionTokens) = (settledGrant grant request p).chat.tokens +
          (settledGrant grant request p).completionTokens := by
      unfold Wraps at hwraps
      exact wrap64_of_int8 ⟨by omega, by omega⟩
    rw [hwrap]
    exact iff_of_true rfl fun h => hwraps h.2.1

theorem setGrant_inj {grantId : String} {grant grant' : InferenceGrant} :
    db.setGrant grantId grant = db.setGrant grantId grant' ↔ grant = grant' := by
  constructor
  · intro heq
    have hget := congrArg (fun d : Database => Dict.get? d.grants grantId) heq
    simpa [Database.setGrant, Dict.get?_set] using hget
  · rintro rfl
    rfl

/-- The settlements agree unless the new sum wraps. -/
theorem finish_agrees_iff (hdb : InRange db) {p : FinishParams} (hp : p.Int64)
    (hkind : ∀ request ∈ Dict.get? db.requests p.key, request.requestKind ≠ .decision) :
    finishInferenceRequest db p = Platform.finishInferenceRequest db p ↔ ¬ FinishDiverges db p := by
  unfold FinishDiverges
  cases hgrant : Dict.get? db.grants p.grantId with
  | none =>
    unfold finishInferenceRequest Platform.finishInferenceRequest
    rw [hgrant]
    exact iff_of_true rfl fun ⟨_, h, _⟩ => nomatch h
  | some grant =>
    cases hrequest : Dict.get? db.requests p.key with
    | none =>
      unfold finishInferenceRequest Platform.finishInferenceRequest
      rw [hgrant, hrequest]
      exact iff_of_true rfl fun ⟨_, _, _, h, _⟩ => nomatch h
    | some request =>
      obtain ⟨hcompletion, hlanes⟩ := hdb.grants _ _ hgrant
      obtain ⟨-, -, -, hceiling⟩ := hdb.requests _ _ hrequest
      have hrule := @exhaust_eq_iff grant request p (hlanes .chat).1 hcompletion (hlanes .chat).2.2 hceiling hp
      have hfits : request.requestKind = .chat →
          (SettledInRange (settledGrant grant request p) .chat ↔ ChargeFits grant request p) := by
        intro hchat
        obtain ⟨htokens', hcompletion', hcost', -⟩ := @settledGrant_chat grant request p hchat
        simp only [SettledInRange, ChargeFits, InferenceGrant.lane, htokens', hcompletion', hcost', forall_const]
      have hsum : request.requestKind = .chat → (Wraps (settledGrant grant request p) ↔
          2 ^ 63 ≤ grant.chat.tokens + grant.completionTokens + bookedTokens request p) := by
        intro hchat
        obtain ⟨htokens', hcompletion', -⟩ := @settledGrant_chat grant request p hchat
        unfold Wraps
        rw [htokens', hcompletion', ← charge_total hceiling hp]
        omega
      rw [relay_settlement hgrant hrequest, platform_settlement hgrant hrequest (hkind request hrequest) hceiling hp]
      simp only [Option.mem_some_iff, exists_eq_left']
      unfold settlement
      by_cases hsettles : Settles request p
      swap
      · rw [if_neg hsettles, if_neg hsettles]
        exact iff_of_true rfl fun h => hsettles h.1
      rw [if_pos hsettles, if_pos hsettles]
      by_cases hrange : SettledInRange (settledGrant grant request p) request.requestKind
      · simp only [ensure_bind_pos hrange]
        rw [show ∀ x y : Database × Bool, (pure x : Except Refusal _) = pure y ↔ x = y from fun x y => pure_eq_ok_iff,
          Prod.mk.injEq, and_iff_left rfl, setGrant_inj, hrule]
        apply not_congr
        constructor
        · rintro ⟨hchat, hwraps, hopen⟩
          rw [hchat] at hrange
          exact ⟨hsettles, hchat, hopen, (hfits hchat).1 hrange, (hsum hchat).1 hwraps⟩
        · rintro ⟨-, hchat, hopen, -, hwraps⟩
          exact ⟨hchat, (hsum hchat).2 hwraps, hopen⟩
      · simp only [ensure_bind_neg hrange]
        refine iff_of_true trivial ?_
        rintro ⟨-, hchat, -, hcharge, -⟩
        rw [hchat] at hrange
        exact hrange ((hfits hchat).2 hcharge)

/-! ## Exchange -/

/-- Where the exchanges differ: the grant is revoked at another time than its last update. -/
def ActivateDiverges (db : Database) (p : ActivateParams) : Prop :=
  ∃ grant ∈ Dict.get? db.grants p.grantId, grant.validatorHotkey = p.validatorHotkey ∧
    ¬ Exchangeable (Dict.get? db.tickets grant.key) grant p ∧ grant.updatedAt ≠ p.now

theorem trimBase64Padding_eq (s : String) :
    String.ofList (s.toList.rdropWhile (· = '=')) = trimBase64Padding s := rfl

/-- The platform's refusal of an exchange. -/
theorem not_exchangeable_iff (ticket : Ticket) (grant : InferenceGrant) (p : ActivateParams) :
    (grant.validatorHotkey ≠ p.validatorHotkey ∨ ticketGone (some ticket) grant p.now ∨
      (grant.status = .revoked ∨ grant.status = .exhausted)) ↔ ¬ Exchangeable (some ticket) grant p := by
  unfold Exchangeable
  rw [← ticketGone_iff]
  tauto

theorem cancelUnsettled_started (hnodup : (Dict.keys db.requests).Nodup) (grantId : String) (now : ℤ) :
    cancelUnsettled db (db.requests.filter fun row => row.1.grantId = grantId ∧ row.2.status = .started) now =
      db.cancelWhere now (Started grantId) := by
  have hfold := Dict.foldl_set_filter (fun _ row => InferenceRequest.cancel row now)
    (fun key row => key.grantId = grantId ∧ row.status = .started) hnodup
  simp only [cancelUnsettled, Database.cancelWhere, cancelRows, Started]
  rw [hfold]
  rfl

theorem started_any_iff (grantId : String) (cutoff : ℤ) :
    ((db.requests.filter fun row => row.1.grantId = grantId ∧ row.2.status = .started).any fun row =>
      row.2.startedAt ≥ cutoff) = true ↔
      ∃ row ∈ db.requests, Started grantId row.1 row.2 ∧ ¬ row.2.startedAt < cutoff := by
  rw [List.any_eq_true]
  simp only [List.mem_filter, decide_eq_true_eq, Started, not_lt, ge_iff_le, and_assoc]

/-- The revocation of the relay is the platform's only at the time of the last update. -/
theorem revocation_eq_iff {grant : InferenceGrant} {grantId : String} {now : ℤ} :
    (pure (db.setGrant grantId { grant with status := .revoked, updatedAt := now }, none) :
        Except Refusal (Database × Option InferenceGrant)) =
      pure (db.setGrant grantId { grant with status := .revoked }, none) ↔ grant.updatedAt = now := by
  constructor
  · intro heq
    have hpair := Except.ok.inj heq
    rw [Prod.mk.injEq, and_iff_left rfl, setGrant_inj] at hpair
    exact (congrArg InferenceGrant.updatedAt hpair).symm
  · rintro rfl
    rfl

/-- The exchanges agree unless the grant is revoked at another time than its last update. -/
theorem activate_agrees_iff (hdb : InRange db) (p : ActivateParams) :
    activateInferenceGrant bearerDigest db p = Platform.activateInferenceGrant bearerDigest db p ↔
      ¬ ActivateDiverges db p := by
  unfold activateInferenceGrant Platform.activateInferenceGrant ActivateDiverges
  cases hgrant : Dict.get? db.grants p.grantId with
  | none => exact iff_of_true rfl fun ⟨_, h, _⟩ => nomatch h
  | some grant =>
    simp only [Option.mem_some_iff, exists_eq_left']
    by_cases hvalidator : grant.validatorHotkey = p.validatorHotkey
    swap
    · rw [if_pos hvalidator, if_pos hvalidator]
      exact iff_of_true rfl fun h => hvalidator h.1
    have hsame : ¬ grant.validatorHotkey ≠ p.validatorHotkey := not_not.2 hvalidator
    have hdiverges : ∀ ticket, ¬ Exchangeable ticket grant p →
        (grant.updatedAt = p.now ↔ ¬ (grant.validatorHotkey = p.validatorHotkey ∧ ¬ Exchangeable ticket grant p ∧
          grant.updatedAt ≠ p.now)) := by
      intro ticket hgone
      tauto
    rw [if_neg hsame, if_neg hsame]
    cases hticket : Dict.get? db.tickets grant.key with
    | none =>
      have hgone : ¬ Exchangeable none grant p := by
        rintro ⟨-, ⟨t, ht, -⟩, -⟩
        cases ht
      exact revocation_eq_iff.trans (hdiverges none hgone)
    | some ticket =>
      by_cases hexchange : Exchangeable (some ticket) grant p
      · have hlive : ¬ ¬ Exchangeable (some ticket) grant p := not_not.2 hexchange
        have hrefused := mt (not_exchangeable_iff ticket grant p).1 hlive
        simp only [if_neg hrefused, if_neg hlive, started_any_iff, cancelUnsettled_started hdb.nodup,
          trimBase64Padding_eq]
        exact iff_of_true rfl fun h => h.2.1 hexchange
      · simp only [if_pos hexchange, if_pos ((not_exchangeable_iff ticket grant p).2 hexchange)]
        exact revocation_eq_iff.trans (hdiverges _ hexchange)

/-! ## The services agree -/

/-- On stored values up to 2^62 the relay does what the platform does, unless it reaches one of the defects. -/
theorem relay_agrees_iff (bearerDigest : String → String) (hdb : InRange db) :
    (∀ p : BeginParams, p.kind ≠ .decision →
      (beginInferenceRequest bearerDigest db p = Platform.beginInferenceRequest bearerDigest db p ↔
        ¬ BeginDiverges bearerDigest db p)) ∧
    (∀ p : FinishParams, p.Int64 → (∀ request ∈ Dict.get? db.requests p.key, request.requestKind ≠ .decision) →
      (finishInferenceRequest db p = Platform.finishInferenceRequest db p ↔ ¬ FinishDiverges db p)) ∧
    (∀ p : ActivateParams,
      (activateInferenceGrant bearerDigest db p = Platform.activateInferenceGrant bearerDigest db p ↔
        ¬ ActivateDiverges db p)) :=
  ⟨fun _ hkind => begin_agrees_iff bearerDigest hdb hkind, fun _ hp hkind => finish_agrees_iff hdb hp hkind,
    activate_agrees_iff hdb⟩

/-- A lease until 1000 with an active grant and one open request. -/
def leasedDatabase : Database where
  tickets := [(⟨"agent", 13, "alice"⟩,
    Lease.ticket ⟨"alice", "slot-0", 0, 1000, 13⟩ .canonicalQuorum none none 1)]
  grants := [("grant",
    { agentId := "agent", benchVersion := 13, validatorHotkey := "alice", slotId := "slot-0", ticketDeadline := 1000,
      status := .active, bearerDigest := some "bearer", brokerPublicKey := some "key", generation := 1,
      allowedModels := ["model"], embeddingModel := "embed", decisionModel := none, inferenceMode := .chat,
      chat := ⟨10, 100000, 1, 300, 40, 1⟩, completionTokens := 200, embedding := ⟨10, 100000, 0, 0, 0, 0⟩,
      decision := ⟨10, 100000, 0, 0, 0, 0⟩, expiresAt := 1000, createdAt := 0, updatedAt := 10 })]
  requests := [(⟨"grant", "open"⟩,
    { generation := 1, status := .started, requestKind := .chat, model := "model", reservedTokens := 80,
      maxChargeableTokens := 90, promptTokens := 0, completionTokens := 0, costMicrousd := 0, upstreamProvider := none,
      upstreamAttempts := 0, openrouterAttempts := 0, fallbackPhase := 0, terminalErrorCode := none, timedOut := false,
      latencyMs := none, startedAt := 10, completedAt := none })]

def leasedBegin : BeginParams :=
  let limits : LaneLimits := ⟨4, 4, 4, 60, 60, 60⟩
  ⟨"grant", "nonce", "bearer", "model", 5, 8, 20, .chat, ⟨90, limits, limits, limits⟩⟩

def leasedFinish : FinishParams :=
  ⟨"grant", "open", 1, .completed, 30, 40, 7, true, 30, some "openai", false, 900, 1, 1, 0, none⟩

def leasedExchange (now : ℤ) : ActivateParams := ⟨"grant", "alice", "key", now, 90, "drawn"⟩

theorem leasedDatabase_inRange : InRange leasedDatabase where
  nodup := by decide
  grants := by
    intro id grant hgrant
    by_cases hid : "grant" = id
    · subst hid
      obtain rfl := Option.some.inj hgrant
      refine ⟨by decide, fun kind => ?_⟩
      cases kind with
      | chat | embedding | decision => decide
    · simp [leasedDatabase, Dict.get?, hid] at hgrant
  requests := by
    intro key row hrow
    by_cases hkey : (⟨"grant", "open"⟩ : RequestKey) = key
    · subst hkey
      obtain rfl := Option.some.inj hrow
      decide
    · simp [leasedDatabase, Dict.get?, hkey] at hrow

/-- On the lease: an admission, a settlement, and the exchanges before and after its deadline. -/
theorem relay_agrees_iff_leased :
    beginInferenceRequest id leasedDatabase leasedBegin =
      Platform.beginInferenceRequest id leasedDatabase leasedBegin ∧
    finishInferenceRequest leasedDatabase leasedFinish = Platform.finishInferenceRequest leasedDatabase leasedFinish ∧
    activateInferenceGrant id leasedDatabase (leasedExchange 200) =
      Platform.activateInferenceGrant id leasedDatabase (leasedExchange 200) ∧
    activateInferenceGrant id leasedDatabase (leasedExchange 2000) ≠
      Platform.activateInferenceGrant id leasedDatabase (leasedExchange 2000) := by
  obtain ⟨hbegin, hfinish, hactivate⟩ := relay_agrees_iff id leasedDatabase_inRange
  refine ⟨(hbegin leasedBegin (by decide)).2 (by decide +kernel), (hfinish leasedFinish (by decide) ?_).2 ?_,
    (hactivate (leasedExchange 200)).2 ?_, fun h => (hactivate (leasedExchange 2000)).1 h ?_⟩
  · intro request hrequest
    obtain rfl := Option.some.inj hrequest
    decide
  · rintro ⟨grant, hgrant, request, hrequest, -, -, -, -, hwraps⟩
    obtain rfl := Option.some.inj hgrant
    obtain rfl := Option.some.inj hrequest
    exact absurd hwraps (by decide +kernel)
  · rintro ⟨grant, hgrant, -, hrefused, -⟩
    obtain rfl := Option.some.inj hgrant
    exact hrefused (by decide +kernel)
  · exact ⟨_, rfl, rfl, by decide +kernel, by decide⟩

/-- An exchange at 2000 of the lease until 1000: both services answer none and revoke the grant, and only the relay
moves `updated_at`. -/
theorem relay_stamps_refusal :
    InRange leasedDatabase ∧
    (∃ db, activateInferenceGrant id leasedDatabase (leasedExchange 2000) = .ok (db, none) ∧
      (Dict.get? db.grants "grant").map (fun grant => (grant.status, grant.updatedAt)) = some (.revoked, 2000)) ∧
    ∃ db, Platform.activateInferenceGrant id leasedDatabase (leasedExchange 2000) = .ok (db, none) ∧
      (Dict.get? db.grants "grant").map (fun grant => (grant.status, grant.updatedAt)) = some (.revoked, 10) :=
  ⟨leasedDatabase_inRange, ⟨_, rfl, by decide +kernel⟩, ⟨_, rfl, by decide +kernel⟩⟩

end DittoSubnet.Relay

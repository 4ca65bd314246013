import DittoSubnet.Platform.Inference

/-!
# The books of a grant

The counters on a grant repeat what its request rows say. Six operations of two services write them: increments at the
admission, differences at a settlement, a count taken again after stale requests are canceled, and zeros at a rotation,
a revocation and a resume.

`Conserved` is the invariant: the accounts of every grant are sums over its requests (`Booked`), and while it is active
its counters are its started requests (`Counted`). Each operation keeps it.
-/

namespace DittoSubnet.Relay

open Kit Platform

/-! ## Sums over the requests of a lane -/

/-- The sum of a value over the requests of a lane of a grant. -/
def laneSum (requests : Dict RequestKey InferenceRequest) (grantId : String) (kind : RequestKind)
    (f : InferenceRequest → ℤ) : ℤ :=
  Dict.sumRows (fun key row => if key.grantId = grantId ∧ row.requestKind = kind then f row else 0) requests

/-- One for a started request. -/
def running (row : InferenceRequest) : ℤ := if row.status = .started then 1 else 0

variable {db : Database} {requests : Dict RequestKey InferenceRequest} {grantId : String} {kind : RequestKind}
  {f : InferenceRequest → ℤ} {now : ℤ}

theorem laneSum_insert {key : RequestKey} (h : Dict.get? requests key = none) (row : InferenceRequest) :
    laneSum (Dict.set requests key row) grantId kind f =
      laneSum requests grantId kind f + if key.grantId = grantId ∧ row.requestKind = kind then f row else 0 :=
  Dict.sumRows_insert h row

theorem laneSum_update {key : RequestKey} {old : InferenceRequest} (h : Dict.get? requests key = some old)
    {row : InferenceRequest} (hkind : row.requestKind = old.requestKind) :
    laneSum (Dict.set requests key row) grantId kind f = laneSum requests grantId kind f +
      if key.grantId = grantId ∧ old.requestKind = kind then f row - f old else 0 := by
  unfold laneSum
  rw [Dict.sumRows_set h, hkind]
  split
  · omega
  · omega

theorem laneSum_cancelRows {P : RequestKey → InferenceRequest → Prop} [∀ key row, Decidable (P key row)]
    (h : ∀ row ∈ requests, row.1.grantId = grantId → row.2.requestKind = kind → P row.1 row.2 →
      f (row.2.cancel now) = f row.2) :
    laneSum (cancelRows requests now P) grantId kind f = laneSum requests grantId kind f := by
  unfold laneSum cancelRows
  rw [Dict.sumRows_mapRows]
  apply Dict.sumRows_congr
  intro row hrow
  by_cases hP : P row.1 row.2
  · simp only [hP, if_true]
    rw [show (row.2.cancel now).requestKind = row.2.requestKind from rfl]
    by_cases hlane : row.1.grantId = grantId ∧ row.2.requestKind = kind
    · rw [if_pos hlane, if_pos hlane]
      exact h row hrow hlane.1 hlane.2 hP
    · rw [if_neg hlane, if_neg hlane]
  · simp only [hP, if_false]

/-- Requests of other lanes are canceled. -/
theorem laneSum_cancel_other {P : RequestKey → InferenceRequest → Prop} [∀ key row, Decidable (P key row)]
    (h : ∀ key row, P key row → ¬ (key.grantId = grantId ∧ row.requestKind = kind)) :
    laneSum (cancelRows requests now P) grantId kind f = laneSum requests grantId kind f := by
  apply laneSum_cancelRows
  intro row _ hid hkind hP
  exact absurd ⟨hid, hkind⟩ (h row.1 row.2 hP)

/-- All started requests of a lane are canceled. -/
theorem running_cancel_all {P : RequestKey → InferenceRequest → Prop} [∀ key row, Decidable (P key row)]
    (h : ∀ key row, key.grantId = grantId → row.status = .started → P key row) :
    laneSum (cancelRows requests now P) grantId kind running = 0 := by
  unfold laneSum cancelRows
  rw [Dict.sumRows_mapRows]
  apply Dict.sumRows_eq_zero
  intro row _
  by_cases hP : P row.1 row.2
  · simp only [hP, if_true]
    split
    · rfl
    · rfl
  · simp only [hP, if_false]
    split
    · rename_i hlane
      simp only [running]
      exact if_neg fun hstarted => hP (h row.1 row.2 hlane.1 hstarted)
    · rfl

/-- The running requests of a lane, counted. -/
theorem countRequests_running : countRequests db (Running grantId kind) = laneSum db.requests grantId kind running := by
  apply Dict.sumRows_congr
  intro row _
  simp only [Running, running]
  by_cases hid : row.1.grantId = grantId
  · by_cases hkind : row.2.requestKind = kind
    · simp [hid, hkind]
    · simp [hkind]
  · simp [hid]

/-! ## The books -/

/-- A request row that is not above its ceiling, and not charged while it runs. -/
structure Row (row : InferenceRequest) : Prop where
  prompt_nonneg : 0 ≤ row.promptTokens
  completion_nonneg : 0 ≤ row.completionTokens
  cost_nonneg : 0 ≤ row.costMicrousd
  within : row.promptTokens + row.completionTokens ≤ row.maxChargeableTokens
  unused : row.status = .started → row.promptTokens = 0 ∧ row.completionTokens = 0 ∧ row.costMicrousd = 0

/-- The accounts of a grant are the sums over its requests. -/
structure Booked (requests : Dict RequestKey InferenceRequest) (grantId : String) (grant : InferenceGrant) : Prop where
  requestCount : ∀ kind, (grant.lane kind).requestCount = laneSum requests grantId kind fun _ => 1
  within : ∀ kind, (grant.lane kind).requestCount ≤ (grant.lane kind).requestBudget
  tokens : ∀ kind, (grant.lane kind).tokens = laneSum requests grantId kind (·.promptTokens)
  completions : grant.completionTokens = laneSum requests grantId .chat (·.completionTokens)
  cost : ∀ kind, (grant.lane kind).costMicrousd = laneSum requests grantId kind (·.costMicrousd)

/-- While a grant is active, the counters of its lanes are the started requests. -/
def Counted (requests : Dict RequestKey InferenceRequest) (grantId : String) (grant : InferenceGrant) : Prop :=
  grant.status = .active → ∀ kind, (grant.lane kind).activeRequests = laneSum requests grantId kind running

/-- The settled tokens of a lane. -/
def settledTokens (grant : InferenceGrant) : RequestKind → ℤ
  | .chat => grant.chat.tokens + grant.completionTokens
  | .embedding => grant.embedding.tokens
  | .decision => grant.decision.tokens

/-- What a call may be charged: a body has at most 8 MiB, and adds at most 65536 tokens of output, or 256 tokens for
each question of a decision. -/
def callCeiling : ℤ := 2 ^ 31

/-- What every state of the tables keeps. -/
structure Conserved (db : Database) : Prop where
  nodup : (Dict.keys db.requests).Nodup
  rows : ∀ key row, Dict.get? db.requests key = some row →
    Row row ∧ row.maxChargeableTokens ≤ callCeiling ∧ ∃ grant, Dict.get? db.grants key.grantId = some grant
  grants : ∀ id grant, Dict.get? db.grants id = some grant →
    Booked db.requests id grant ∧ Counted db.requests id grant ∧ ∀ kind, Int4 (grant.lane kind).requestBudget

theorem Conserved.row_of_mem (h : Conserved db) {row : RequestKey × InferenceRequest} (hrow : row ∈ db.requests) :
    Row row.2 := (h.rows row.1 row.2 (Dict.get?_of_mem h.nodup hrow)).1

/-- A canceled request keeps its usage. -/
theorem Row.cancel {row : InferenceRequest} (h : Row row) (hstarted : row.status = .started) (now : ℤ) :
    Row (row.cancel now) ∧ (row.cancel now).promptTokens = row.promptTokens := by
  obtain ⟨hprompt, hcompletion, hcost⟩ := h.unused hstarted
  refine ⟨⟨le_rfl, h.completion_nonneg, h.cost_nonneg, ?_, ?_⟩, hprompt.symm⟩
  · have hwithin := h.within
    simp only [InferenceRequest.cancel]
    omega
  · intro hstatus
    cases hstatus

/-! ## Writes that keep the books -/

/-- A write elsewhere keeps the books of a grant. -/
theorem Booked.congr {requests' : Dict RequestKey InferenceRequest} {grant : InferenceGrant}
    (h : Booked requests grantId grant)
    (hsum : ∀ kind f, laneSum requests' grantId kind f = laneSum requests grantId kind f) :
    Booked requests' grantId grant := by
  refine ⟨fun kind => ?_, h.within, fun kind => ?_, ?_, fun kind => ?_⟩
  · rw [hsum, h.requestCount]
  · rw [hsum, h.tokens]
  · rw [hsum, h.completions]
  · rw [hsum, h.cost]

theorem Counted.congr {requests' : Dict RequestKey InferenceRequest} {grant : InferenceGrant}
    (h : Counted requests grantId grant)
    (hsum : ∀ kind f, laneSum requests' grantId kind f = laneSum requests grantId kind f) :
    Counted requests' grantId grant := by
  intro hactive kind
  rw [hsum, h hactive]

/-- Started requests are canceled without a change of what a grant has booked. -/
theorem Booked.cancelRows {P : RequestKey → InferenceRequest → Prop} [∀ key row, Decidable (P key row)]
    (hrows : ∀ row ∈ requests, Row row.2) (hP : ∀ key row, P key row → row.status = .started)
    {grant : InferenceGrant} (h : Booked requests grantId grant) :
      Booked (cancelRows requests now P) grantId grant := by
  have hsum : ∀ {kind : RequestKind} {f : InferenceRequest → ℤ},
      (∀ row : InferenceRequest, (row.cancel now).promptTokens = row.promptTokens → f (row.cancel now) = f row) →
      laneSum (Relay.cancelRows requests now P) grantId kind f = laneSum requests grantId kind f := by
    intro kind f hf
    apply laneSum_cancelRows
    intro row hrow _ _ hrowP
    exact hf row.2 ((hrows row hrow).cancel (hP _ _ hrowP) now).2
  refine ⟨fun kind => ?_, h.within, fun kind => ?_, ?_, fun kind => ?_⟩
  · rw [hsum fun _ _ => rfl, h.requestCount]
  · rw [hsum fun _ hrow => hrow, h.tokens]
  · rw [hsum fun _ _ => rfl, h.completions]
  · rw [hsum fun _ _ => rfl, h.cost]

/-- A grant with the same accounts, apart from its running requests. -/
def SameAccounts (grant grant' : InferenceGrant) : Prop :=
  grant'.completionTokens = grant.completionTokens ∧
    ∀ kind, grant'.lane kind = { grant.lane kind with activeRequests := (grant'.lane kind).activeRequests }

theorem Booked.same {grant grant' : InferenceGrant} (h : Booked requests grantId grant)
    (hsame : SameAccounts grant grant') : Booked requests grantId grant' := by
  obtain ⟨hcompletions, hlanes⟩ := hsame
  refine ⟨fun kind => ?_, fun kind => ?_, fun kind => ?_, ?_, fun kind => ?_⟩
  · rw [hlanes kind]
    exact h.requestCount kind
  · rw [hlanes kind]
    exact h.within kind
  · rw [hlanes kind]
    exact h.tokens kind
  · rw [hcompletions]
    exact h.completions
  · rw [hlanes kind]
    exact h.cost kind

theorem lane_setLane (grant : InferenceGrant) (kind kind' : RequestKind) (lane : LaneAccount) :
    (grant.setLane kind lane).lane kind' = if kind' = kind then lane else grant.lane kind' := by
  cases kind <;> cases kind' <;> rfl

section Steps

variable (hdb : Conserved db)
include hdb

/-- A grant is written: its row exists, and the others keep theirs. -/
theorem exists_setGrant {key : RequestKey} {row : InferenceRequest} (hrow : Dict.get? db.requests key = some row)
    (id : String) (grant : InferenceGrant) :
    ∃ grant', Dict.get? (Dict.set db.grants id grant) key.grantId = some grant' := by
  obtain ⟨-, -, old, hold⟩ := hdb.rows key row hrow
  rw [Dict.get?_set]
  split
  · exact ⟨grant, rfl⟩
  · exact ⟨old, hold⟩

/-- The rows after started requests are canceled. -/
theorem rows_cancelRows {P : RequestKey → InferenceRequest → Prop} [∀ key row, Decidable (P key row)]
    (hP : ∀ key row, P key row → row.status = .started) {key : RequestKey} {row : InferenceRequest}
    (hrow : Dict.get? (cancelRows db.requests now P) key = some row) :
    Row row ∧ row.maxChargeableTokens ≤ callCeiling ∧ ∃ old, Dict.get? db.requests key = some old := by
  rw [cancelRows, Dict.get?_mapRows, Option.map_eq_some_iff] at hrow
  obtain ⟨old, hold, rfl⟩ := hrow
  obtain ⟨hgood, hceiling, -⟩ := hdb.rows key old hold
  split
  · rename_i hkey
    exact ⟨(hgood.cancel (hP key old hkey) now).1, hceiling, old, hold⟩
  · exact ⟨hgood, hceiling, old, hold⟩

/-- Started requests of one grant are canceled, and the grant is rewritten with the same accounts. -/
theorem Conserved.cancel_setGrant {P : RequestKey → InferenceRequest → Prop} [∀ key row, Decidable (P key row)]
    {id : String} (hP : ∀ key row, P key row → Started id key row)
    {grant grant' : InferenceGrant} (hgrant : Dict.get? db.grants id = some grant) (hsame : SameAccounts grant grant')
    (hcounted : Counted (cancelRows db.requests now P) id grant') :
    Conserved ((db.cancelWhere now P).setGrant id grant') := by
  have hstarted : ∀ key row, P key row → row.status = .started := fun key row hrow => (hP key row hrow).2
  refine ⟨?_, ?_, ?_⟩
  · simp only [Database.setGrant, Database.cancelWhere, cancelRows, Dict.keys_mapRows]
    exact hdb.nodup
  · intro key row hrow
    obtain ⟨hgood, hceiling, old, hold⟩ := rows_cancelRows hdb hstarted hrow
    exact ⟨hgood, hceiling, exists_setGrant hdb hold id grant'⟩
  · intro id' other hother
    simp only [Database.setGrant, Database.cancelWhere, Dict.get?_set] at hother
    split at hother
    · rename_i hid
      rw [Option.some.injEq] at hother
      subst hid hother
      obtain ⟨hbooked, -, hbudget⟩ := hdb.grants id grant hgrant
      refine ⟨(hbooked.cancelRows (fun row hrow => hdb.row_of_mem hrow) hstarted).same hsame, hcounted, ?_⟩
      intro kind
      rw [hsame.2 kind]
      exact hbudget kind
    · rename_i hid
      obtain ⟨hbooked, hactive, hbudget⟩ := hdb.grants id' other hother
      have hsum : ∀ kind f, laneSum (cancelRows db.requests now P) id' kind f = laneSum db.requests id' kind f := by
        intro kind f
        apply laneSum_cancel_other
        intro key row hrow hlane
        exact hid ((hP key row hrow).1.symm.trans hlane.1)
      exact ⟨hbooked.congr hsum, hactive.congr hsum, hbudget⟩

/-- A grant is rewritten with the same accounts. -/
theorem Conserved.setGrant {id : String} {grant grant' : InferenceGrant} (hgrant : Dict.get? db.grants id = some grant)
    (hsame : SameAccounts grant grant') (hcounted : Counted db.requests id grant') :
    Conserved (db.setGrant id grant') := by
  refine ⟨hdb.nodup, ?_, ?_⟩
  · intro key row hrow
    obtain ⟨hgood, hceiling, -⟩ := hdb.rows key row hrow
    exact ⟨hgood, hceiling, exists_setGrant hdb hrow id grant'⟩
  · intro id' other hother
    simp only [Database.setGrant, Dict.get?_set] at hother
    split at hother
    · rename_i hid
      rw [Option.some.injEq] at hother
      subst hid hother
      obtain ⟨hbooked, -, hbudget⟩ := hdb.grants id grant hgrant
      refine ⟨hbooked.same hsame, hcounted, ?_⟩
      intro kind
      rw [hsame.2 kind]
      exact hbudget kind
    · exact hdb.grants id' other hother

/-! ## The operations -/

theorem Conserved.revokeTicketInference (key : TicketKey) (now : ℤ) :
    Conserved (Platform.revokeTicketInference db key now) := by
  have hstarted : ∀ (k : RequestKey) (row : InferenceRequest),
      (row.status = .started ∧ ∃ grant ∈ Dict.get? db.grants k.grantId, OpenGrant key grant) →
      row.status = .started := fun k row hrow => hrow.1
  refine ⟨?_, ?_, ?_⟩
  · simp only [Platform.revokeTicketInference, Database.cancelWhere, cancelRows, Dict.keys_mapRows]
    exact hdb.nodup
  · intro k row hrow
    obtain ⟨hgood, hceiling, old, hold⟩ := rows_cancelRows hdb hstarted hrow
    obtain ⟨-, -, grant, hgrant⟩ := hdb.rows k old hold
    refine ⟨hgood, hceiling, ?_⟩
    simp only [Platform.revokeTicketInference, Dict.get?_mapRows, hgrant]
    exact ⟨_, rfl⟩
  · intro id grant' hgrant'
    simp only [Platform.revokeTicketInference, Dict.get?_mapRows, Option.map_eq_some_iff] at hgrant'
    obtain ⟨grant, hgrant, rfl⟩ := hgrant'
    obtain ⟨hbooked, hcounted, hbudget⟩ := hdb.grants id grant hgrant
    split
    · -- the grant is no longer active
      refine ⟨(hbooked.cancelRows (fun row hrow => hdb.row_of_mem hrow) hstarted).same ⟨rfl, fun kind => ?_⟩, ?_,
        fun kind => ?_⟩
      · cases kind <;> rfl
      · intro hactive
        cases hactive
      · cases kind
        · exact hbudget .chat
        · exact hbudget .embedding
        · exact hbudget .decision
    · rename_i hclosed
      have hsum : ∀ kind f, laneSum (Platform.revokeTicketInference db key now).requests id kind f =
          laneSum db.requests id kind f := by
        intro kind f
        show laneSum (cancelRows db.requests now fun k row => row.status = .started ∧
          ∃ grant ∈ Dict.get? db.grants k.grantId, OpenGrant key grant) id kind f = _
        apply laneSum_cancel_other
        rintro k row ⟨-, open', hopen', hisOpen⟩ hlane
        rw [hlane.1, Option.mem_def, hgrant, Option.some.injEq] at hopen'
        subst hopen'
        exact hclosed hisOpen
      exact ⟨hbooked.congr hsum, hcounted.congr hsum, hbudget⟩

theorem Conserved.resumeParkedGrant (key : TicketKey) (id : String) (nextDeadline now : ℤ) :
    Conserved (Platform.resumeParkedGrant db key id nextDeadline now) := by
  unfold Platform.resumeParkedGrant
  split
  · rename_i grant hgrant
    split
    · refine hdb.setGrant hgrant ⟨rfl, fun kind => ?_⟩ ?_
      · cases kind <;> rfl
      · intro hactive
        -- a resumed grant is pending, or stays exhausted
        exfalso
        by_cases hexhausted : grant.status = .exhausted
        · simp [resumed, hexhausted] at hactive
        · simp [resumed, hexhausted] at hactive
    · exact hdb
  · exact hdb

theorem Conserved.activateInferenceGrant {bearerDigest : String → String} {p : ActivateParams} {db' : Database}
    {answer : Option InferenceGrant} (h : Relay.activateInferenceGrant bearerDigest db p = .ok (db', answer)) :
    Conserved db' := by
  unfold Relay.activateInferenceGrant at h
  have hrevoke : ∀ grant, Dict.get? db.grants p.grantId = some grant →
      Conserved (db.setGrant p.grantId { grant with status := .revoked, updatedAt := p.now }) := by
    intro grant hgrant
    refine hdb.setGrant hgrant ⟨rfl, fun kind => ?_⟩ ?_
    · cases kind <;> rfl
    · intro hactive
      cases hactive
  split at h
  · cases h
    exact hdb
  rename_i grant hgrant
  split at h
  · cases h
    exact hdb
  split at h
  · cases h
    exact hrevoke grant hgrant
  rename_i ticket hticket
  split at h
  · cases h
    exact hrevoke grant hgrant
  split at h
  · cases h
    exact hdb
  simp only [bind_eq_ok_iff, ensure_eq_ok_iff, exists_and_left, exists_const, pure_eq_ok_iff, Prod.mk.injEq] at h
  obtain ⟨-, rfl, -⟩ := h
  refine hdb.cancel_setGrant (fun _ _ hrow => hrow) hgrant ⟨rfl, fun kind => ?_⟩ fun _ kind => ?_
  · cases kind <;> rfl
  · rw [running_cancel_all fun _ _ hid hstarted => ⟨hid, hstarted⟩]
    cases kind <;> rfl

end Steps

/-- Nothing satisfies a condition that no row is counted for. -/
theorem cancelRows_of_count_eq_zero {P : RequestKey → InferenceRequest → Prop} [∀ key row, Decidable (P key row)]
    (h : countRequests db P = 0) : cancelRows db.requests now P = db.requests := by
  have hnone : ∀ row ∈ db.requests, ¬ P row.1 row.2 := by
    intro row hrow hP
    have hle : (1 : ℤ) ≤ countRequests db P := by
      apply List.single_le_sum
      · intro x hx
        obtain ⟨other, -, rfl⟩ := List.mem_map.1 hx
        show (0 : ℤ) ≤ if P other.1 other.2 then 1 else 0
        split
        · omega
        · omega
      · exact List.mem_map.2 ⟨row, hrow, if_pos hP⟩
    omega
  apply List.map_congr_left (g := id) _ |>.trans (List.map_id _)
  intro row hrow
  show (row.1, if P row.1 row.2 then row.2.cancel now else row.2) = row
  rw [if_neg (hnone row hrow)]

/-- What the reclamation of stale requests leaves. -/
structure Reclaimed (db : Database) (locked : InferenceGrant) (p : BeginParams) (db' : Database)
    (grant : InferenceGrant) : Prop where
  conserved : Conserved db'
  stored : Dict.get? db'.grants p.grantId = some grant
  same : SameAccounts locked grant
  active : grant.status = .active

theorem reclaimStale_spec (hdb : Conserved db) {locked : InferenceGrant} {p : BeginParams}
    (hlocked : Dict.get? db.grants p.grantId = some locked) (hactive : locked.status = .active) :
    Reclaimed db locked p (reclaimStale db locked p).1 (reclaimStale db locked p).2 := by
  unfold reclaimStale
  split
  · rename_i hzero
    have hsame : db.cancelWhere p.now (Stale p.grantId p.kind p.cutoff) = db := by
      rw [Database.cancelWhere, cancelRows_of_count_eq_zero hzero]
    simp only [hsame]
    exact ⟨hdb, hlocked, ⟨rfl, fun _ => rfl⟩, hactive⟩
  · obtain ⟨-, hcounted, -⟩ := hdb.grants p.grantId locked hlocked
    have haccounts : SameAccounts locked { locked.setActive p.kind (countRequests
        (db.cancelWhere p.now (Stale p.grantId p.kind p.cutoff)) (Running p.grantId p.kind)) with
        updatedAt := p.now } := by
      refine ⟨?_, fun kind => ?_⟩
      · cases p.kind <;> rfl
      · cases p.kind <;> cases kind <;> rfl
    have hstatus : (locked.setActive p.kind (countRequests
        (db.cancelWhere p.now (Stale p.grantId p.kind p.cutoff)) (Running p.grantId p.kind))).status = .active := by
      rw [← hactive]
      cases p.kind <;> rfl
    refine ⟨hdb.cancel_setGrant (fun _ _ hrow => ⟨hrow.1.1, hrow.1.2.1⟩) hlocked haccounts ?_, ?_, haccounts, hstatus⟩
    · intro _ kind
      show ((locked.setLane p.kind _).lane kind).activeRequests = _
      rw [lane_setLane]
      split
      · rename_i hkind
        rw [hkind]
        exact countRequests_running
      · rename_i hkind
        rw [laneSum_cancel_other fun _ _ hrow hlane => hkind (hlane.2.symm.trans hrow.1.2.2)]
        exact hcounted hactive kind
    · simp only [Database.setGrant, Dict.get?_set, if_true]

/-! ## A request that is written -/

/-- The accounts of a grant after a request of one lane is written; `delta` is what it adds to a sum over the lane. -/
structure Entered (grant grant' : InferenceGrant) (kind : RequestKind) (delta : (InferenceRequest → ℤ) → ℤ) :
    Prop where
  others : ∀ kind', kind' ≠ kind → grant'.lane kind' = grant.lane kind'
  requestBudget : (grant'.lane kind).requestBudget = (grant.lane kind).requestBudget
  requestCount : (grant'.lane kind).requestCount = (grant.lane kind).requestCount + delta fun _ => 1
  within : (grant'.lane kind).requestCount ≤ (grant'.lane kind).requestBudget
  tokens : (grant'.lane kind).tokens = (grant.lane kind).tokens + delta (·.promptTokens)
  completions : grant'.completionTokens =
    grant.completionTokens + if kind = .chat then delta (·.completionTokens) else 0
  cost : (grant'.lane kind).costMicrousd = (grant.lane kind).costMicrousd + delta (·.costMicrousd)
  active : grant'.status = .active → grant.status = .active ∧
    (grant'.lane kind).activeRequests = (grant.lane kind).activeRequests + delta running

section Entered

variable {requests' : Dict RequestKey InferenceRequest} {grant grant' : InferenceGrant}
  {delta : (InferenceRequest → ℤ) → ℤ}
  (hsum : ∀ kind' f, laneSum requests' grantId kind' f =
    laneSum requests grantId kind' f + if kind = kind' then delta f else 0)

include hsum

/-- An account of the lanes that was a sum is the new sum. -/
theorem Entered.account (h : Entered grant grant' kind delta) {field : LaneAccount → ℤ}
    (hkind : field (grant'.lane kind) = field (grant.lane kind) + delta f)
    (hold : ∀ kind', field (grant.lane kind') = laneSum requests grantId kind' f) (kind' : RequestKind) :
    field (grant'.lane kind') = laneSum requests' grantId kind' f := by
  rw [hsum, ← hold]
  by_cases hsame : kind' = kind
  · rw [hsame, if_pos rfl, hkind]
  · rw [if_neg (Ne.symm hsame), h.others kind' hsame, add_zero]

theorem Booked.enter (h : Booked requests grantId grant) (hentered : Entered grant grant' kind delta) :
    Booked requests' grantId grant' := by
  refine ⟨?_, fun kind' => ?_, ?_, ?_, ?_⟩
  · exact hentered.account hsum hentered.requestCount h.requestCount
  · by_cases hsame : kind' = kind
    · rw [hsame]
      exact hentered.within
    · rw [hentered.others kind' hsame]
      exact h.within kind'
  · exact hentered.account hsum hentered.tokens h.tokens
  · rw [hsum, hentered.completions, h.completions]
  · exact hentered.account hsum hentered.cost h.cost

theorem Counted.enter (h : Counted requests grantId grant) (hentered : Entered grant grant' kind delta) :
    Counted requests' grantId grant' := by
  intro hactive
  obtain ⟨hwas, hrunning⟩ := hentered.active hactive
  exact hentered.account hsum hrunning (h hwas)

end Entered

/-- A request and its grant are written: the lane takes what the request adds, and everything else stands. -/
theorem Conserved.enter (hdb : Conserved db) (key : RequestKey) {row : InferenceRequest}
    {grant grant' : InferenceGrant} {delta : (InferenceRequest → ℤ) → ℤ}
    (hgrant : Dict.get? db.grants key.grantId = some grant)
    (hrow : Row row ∧ row.maxChargeableTokens ≤ callCeiling)
    (hsum : ∀ id kind f, laneSum (Dict.set db.requests key row) id kind f =
      laneSum db.requests id kind f + if key.grantId = id ∧ row.requestKind = kind then delta f else 0)
    (hentered : Entered grant grant' row.requestKind delta) :
    Conserved ((db.setRequest key row).setGrant key.grantId grant') := by
  refine ⟨Dict.keys_set_nodup hdb.nodup _ _, ?_, ?_⟩
  · intro key' row' hget
    simp only [Database.setGrant, Database.setRequest, Dict.get?_set] at hget
    split at hget
    · rename_i hkey
      rw [Option.some.injEq] at hget
      subst hkey hget
      refine ⟨hrow.1, hrow.2, ?_⟩
      simp only [Database.setGrant, Dict.get?_set, if_true]
      exact ⟨_, rfl⟩
    · obtain ⟨hgood, hceiling, -⟩ := hdb.rows key' row' hget
      exact ⟨hgood, hceiling, exists_setGrant hdb hget key.grantId _⟩
  · intro id other hother
    simp only [Database.setGrant, Database.setRequest, Dict.get?_set] at hother
    split at hother
    · rename_i hid
      rw [Option.some.injEq] at hother
      subst hid hother
      obtain ⟨hbooked, hcounted, hbudget⟩ := hdb.grants key.grantId grant hgrant
      have hlane : ∀ kind f, laneSum (Dict.set db.requests key row) key.grantId kind f =
          laneSum db.requests key.grantId kind f + if row.requestKind = kind then delta f else 0 := by
        intro kind f
        rw [hsum]
        simp only [true_and]
      refine ⟨hbooked.enter hlane hentered, hcounted.enter hlane hentered, fun kind => ?_⟩
      by_cases hkind : kind = row.requestKind
      · rw [hkind, hentered.requestBudget]
        exact hbudget _
      · rw [hentered.others kind hkind]
        exact hbudget kind
    · rename_i hid
      obtain ⟨hbooked, hcounted, hbudget⟩ := hdb.grants id other hother
      have hother' : ∀ kind f, laneSum (Dict.set db.requests key row) id kind f = laneSum db.requests id kind f := by
        intro kind f
        rw [hsum]
        simp [hid]
      exact ⟨hbooked.congr hother', hcounted.congr hother', hbudget⟩

theorem lane_admitted (grant : InferenceGrant) (kind kind' : RequestKind) (now : ℤ) :
    (admitted grant kind now).lane kind' = if kind' = kind then
      { grant.lane kind with
        requestCount := (grant.lane kind).requestCount + 1, activeRequests := (grant.lane kind).activeRequests + 1 }
    else grant.lane kind' := lane_setLane grant kind kind' _

/-- An admission counts the request. -/
theorem entered_admitted {grant : InferenceGrant} (hactive : grant.status = .active)
    (hroom : (grant.lane kind).requestCount < (grant.lane kind).requestBudget) (model : String)
    (tokenReservation maxChargeable now : ℤ) :
    Entered grant (admitted grant kind now) kind
      fun f => f (newRequest grant kind model tokenReservation maxChargeable now) := by
  have hlane : (admitted grant kind now).lane kind = { grant.lane kind with
      requestCount := (grant.lane kind).requestCount + 1, activeRequests := (grant.lane kind).activeRequests + 1 } := by
    rw [lane_admitted, if_pos rfl]
  refine ⟨fun kind' hkind => ?_, ?_, ?_, ?_, ?_, ?_, ?_, fun _ => ⟨hactive, ?_⟩⟩
  · rw [lane_admitted, if_neg hkind]
  · rw [hlane]
  · rw [hlane]
  · rw [hlane]
    show (grant.lane kind).requestCount + 1 ≤ (grant.lane kind).requestBudget
    omega
  · rw [hlane]
    exact (add_zero _).symm
  · have hsame : (admitted grant kind now).completionTokens = grant.completionTokens := by
      cases kind <;> rfl
    rw [hsame]
    simp [newRequest]
  · rw [hlane]
    exact (add_zero _).symm
  · rw [hlane]
    simp [newRequest, running]

/-- A new request on an active lane that has room. -/
theorem Conserved.admit (hdb : Conserved db) {grant : InferenceGrant} {p : BeginParams}
    (hgrant : Dict.get? db.grants p.grantId = some grant) (hactive : grant.status = .active)
    (hroom : (grant.lane p.kind).requestCount < (grant.lane p.kind).requestBudget)
    (hfree : Dict.get? db.requests p.key = none) {maxChargeable : ℤ}
    (hmax : 0 ≤ maxChargeable ∧ maxChargeable ≤ callCeiling) :
    Conserved ((db.setRequest p.key (newRequest grant p.kind p.model p.tokenReservation maxChargeable p.now)).setGrant
      p.grantId (admitted grant p.kind p.now)) := by
  have hrow : Row (newRequest grant p.kind p.model p.tokenReservation maxChargeable p.now) :=
    ⟨le_rfl, le_rfl, le_rfl, hmax.1, fun _ => ⟨rfl, rfl, rfl⟩⟩
  have hentered := entered_admitted hactive hroom p.model p.tokenReservation maxChargeable p.now
  exact hdb.enter p.key hgrant ⟨hrow, hmax.2⟩ (fun _ _ _ => laneSum_insert hfree _) hentered

/-- What an admission has checked, and what it leaves. -/
theorem beginInferenceRequest_cases {bearerDigest : String → String} {p : BeginParams} {db' : Database}
    {grant' : InferenceGrant} {request : InferenceRequest}
    (h : beginInferenceRequest bearerDigest db p = .ok (db', grant', request)) :
    ∃ locked, Dict.get? db.grants p.grantId = some locked ∧ locked.status = .active ∧
      ∃ reclaimed grant, reclaimStale db locked p = (reclaimed, grant) ∧
        (grant.lane p.kind).requestCount < (grant.lane p.kind).requestBudget ∧ 1 ≤ p.tokenReservation ∧
        spent grant p.kind < (grant.lane p.kind).tokenBudget ∧ Dict.get? reclaimed.requests p.key = none ∧
        db' = (reclaimed.setRequest p.key (newRequest grant p.kind p.model p.tokenReservation
          (if p.tokenReservation < p.maxChargeableTokens then p.maxChargeableTokens else p.tokenReservation)
          p.now)).setGrant p.grantId (admitted grant p.kind p.now) := by
  simp only [beginInferenceRequest, beginGates, beginInsert, bind_eq_ok_iff, ensure_eq_ok_iff, require_eq_ok_iff,
    exists_and_left, exists_const, pure_eq_ok_iff, Prod.mk.injEq] at h
  obtain ⟨⟨reclaimed, grant⟩, ⟨locked, hlocked, -, -, -, hactive, -, hroom, hreservation, hspent, heq⟩, -, hfree, -, -,
    -, hdb', -⟩ := h
  obtain ⟨hreclaimed, hgrant⟩ := Prod.mk.inj heq
  rw [hgrant] at hroom hspent
  exact ⟨locked, hlocked, hactive, reclaimed, grant, Prod.ext hreclaimed hgrant, hroom, by omega, hspent, hfree,
    hdb'.symm⟩

/-- A call as the endpoints make it: its estimate and its ceiling come from a bounded body. -/
def Received (p : BeginParams) : Prop := p.tokenReservation ≤ callCeiling ∧ p.maxChargeableTokens ≤ callCeiling

instance (p : BeginParams) : Decidable (Received p) := inferInstanceAs (Decidable (_ ∧ _))

theorem Conserved.beginInferenceRequest (hdb : Conserved db) {bearerDigest : String → String} {p : BeginParams}
    (hp : Received p) {db' : Database} {grant' : InferenceGrant} {request : InferenceRequest}
    (h : Relay.beginInferenceRequest bearerDigest db p = .ok (db', grant', request)) : Conserved db' := by
  obtain ⟨locked, hlocked, hactive, reclaimed, grant, heq, hroom, hreservation, -, hfree, rfl⟩ :=
    beginInferenceRequest_cases h
  have hspec := reclaimStale_spec hdb hlocked hactive
  rw [heq] at hspec
  apply hspec.conserved.admit hspec.stored hspec.active hroom hfree
  obtain ⟨hestimate, hceiling⟩ := hp
  split
  · constructor
    · omega
    · exact hceiling
  · constructor
    · omega
    · exact hestimate

/-! ## Settlement -/

/-- A settlement books what the request can have used. -/
theorem charge_within {request : InferenceRequest} (hrow : Row request)
    (hceiling : request.maxChargeableTokens ≤ callCeiling)
    {p : FinishParams} (hp : Int8 p.completionTokens) :
    0 ≤ (charge request p).promptTokens ∧ 0 ≤ (charge request p).completionTokens ∧
      0 ≤ (charge request p).costMicrousd ∧
      (charge request p).promptTokens + (charge request p).completionTokens ≤ request.maxChargeableTokens := by
  have hnonneg : 0 ≤ request.maxChargeableTokens := by
    have hprompt := hrow.prompt_nonneg
    have hcompletion := hrow.completion_nonneg
    have hwithin := hrow.within
    omega
  have hcost : 0 ≤ max 0 p.costMicrousd := le_max_left _ _
  have hprompt : 0 ≤ max 0 p.promptTokens := le_max_left _ _
  have hcompletion : 0 ≤ max 0 p.completionTokens := le_max_left _ _
  unfold charge
  split
  · exact ⟨le_rfl, le_rfl, hcost, by simpa using hnonneg⟩
  rename_i husage
  split
  · exact ⟨hnonneg, le_rfl, hcost, by simp⟩
  · rename_i hover
    refine ⟨hprompt, hcompletion, hcost, ?_⟩
    have hsmall : Int8 (request.maxChargeableTokens - max 0 p.completionTokens) := by
      unfold Int8 at hp ⊢
      unfold callCeiling at hceiling
      have hmax : max 0 p.completionTokens < 2 ^ 63 := by omega
      constructor
      · omega
      · omega
    simp only [overCeiling, wrap64_of_int8 hsmall] at hover
    have hle : ¬ request.maxChargeableTokens - max 0 p.completionTokens < max 0 p.promptTokens := by
      intro hlt
      exact hover ⟨by simpa using husage, hlt⟩
    show max 0 p.promptTokens + max 0 p.completionTokens ≤ _
    omega

/-- A request that a report settles has no usage. -/
theorem unused_of_settles {request : InferenceRequest} (hrow : Row request) {p : FinishParams}
    (h : Settles request p) :
    request.promptTokens = 0 ∧ request.completionTokens = 0 ∧ request.costMicrousd = 0 := by
  rcases h.2.2 with hstarted | hunused
  · exact hrow.unused hstarted
  · have hprompt := hrow.prompt_nonneg
    have hcompletion := hrow.completion_nonneg
    have hcost := hrow.cost_nonneg
    omega

theorem settledRequest_status {request : InferenceRequest} {p : FinishParams} {deliverable : Bool} :
    (settledRequest request p deliverable).status ≠ .started := by
  simp only [settledRequest]
  split
  · cases p.status
    · intro h
      cases h
    · intro h
      cases h
  · intro h
    cases h

theorem lane_settledGrant (grant : InferenceGrant) (request : InferenceRequest) (p : FinishParams)
    (kind : RequestKind) :
    (settledGrant grant request p).lane kind = if kind = request.requestKind then
      { grant.lane request.requestKind with
        activeRequests := if request.status = .started then
            max 0 ((grant.lane request.requestKind).activeRequests - 1)
          else (grant.lane request.requestKind).activeRequests
        tokens := (grant.lane request.requestKind).tokens + (charge request p).promptTokens
        costMicrousd := (grant.lane request.requestKind).costMicrousd + (charge request p).costMicrousd }
    else grant.lane kind := lane_setLane grant request.requestKind kind _

theorem lane_exhaust (grant : InferenceGrant) (kind kind' : RequestKind) :
    (exhaust grant kind).lane kind' = grant.lane kind' := by
  unfold exhaust
  split
  · cases kind' <;> rfl
  · rfl

/-- A started request is counted. -/
theorem one_le_running {key : RequestKey} {request : InferenceRequest} (h : Dict.get? requests key = some request)
    (hstarted : request.status = .started) : 1 ≤ laneSum requests key.grantId request.requestKind running := by
  apply List.single_le_sum
  · intro x hx
    obtain ⟨row, -, rfl⟩ := List.mem_map.1 hx
    show (0 : ℤ) ≤ if _ then running row.2 else 0
    simp only [running]
    split
    · split
      · omega
      · omega
    · omega
  · refine List.mem_map.2 ⟨(key, request), Dict.mem_of_get? h, ?_⟩
    simp [running, hstarted]

/-- A settlement books what the request adds to its usage. -/
theorem entered_settled (hdb : Conserved db) {grant : InferenceGrant} {request : InferenceRequest} {p : FinishParams}
    (hgrant : Dict.get? db.grants p.grantId = some grant) (hrequest : Dict.get? db.requests p.key = some request)
    (hsettles : Settles request p) (deliverable : Bool) :
    Entered grant (exhaust (settledGrant grant request p) request.requestKind) request.requestKind
      fun f => f (settledRequest request p deliverable) - f request := by
  obtain ⟨hrow, -, -⟩ := hdb.rows p.key request hrequest
  obtain ⟨hprompt, hcompletion, hcost⟩ := unused_of_settles hrow hsettles
  obtain ⟨hbooked, hcounted, -⟩ := hdb.grants p.grantId grant hgrant
  have hlane := lane_exhaust (settledGrant grant request p) request.requestKind request.requestKind
  rw [lane_settledGrant, if_pos rfl] at hlane
  refine ⟨fun kind hkind => ?_, ?_, ?_, ?_, ?_, ?_, ?_, fun hactive => ?_⟩
  · rw [lane_exhaust, lane_settledGrant, if_neg hkind]
  · rw [hlane]
  · rw [hlane]
    exact (add_zero _).symm
  · rw [hlane]
    exact hbooked.within _
  · simp only [hlane, hprompt, sub_zero]
    rfl
  · have hsame : (exhaust (settledGrant grant request p) request.requestKind).completionTokens =
        (settledGrant grant request p).completionTokens := by
      unfold exhaust
      split <;> rfl
    rw [hsame]
    simp only [hcompletion, sub_zero, settledGrant]
    split
    · rfl
    · rw [add_zero]
  · simp only [hlane, hcost, sub_zero]
    rfl
  · have hwas : grant.status = .active := by
      unfold exhaust at hactive
      split at hactive
      · cases hactive
      · rw [← hactive]
        cases hkind : request.requestKind <;> simp [settledGrant, InferenceGrant.setLane, hkind]
    refine ⟨hwas, ?_⟩
    have hrunning : running (settledRequest request p deliverable) = 0 := if_neg settledRequest_status
    have hcount := hcounted hwas request.requestKind
    rw [hlane]
    simp only [hrunning]
    by_cases hstarted : request.status = .started
    · -- a started request is counted, so that its counter does not stop at zero
      have hone : running request = 1 := if_pos hstarted
      have hpos := one_le_running hrequest hstarted
      simp only [FinishParams.key] at hpos
      simp only [hstarted, if_true, hone]
      omega
    · have hzero : running request = 0 := if_neg hstarted
      simp only [hstarted, if_false, hzero, sub_self, add_zero]

/-- A request is settled: its usage goes to its row and to its grant. -/
theorem Conserved.settle (hdb : Conserved db) {grant : InferenceGrant} {request : InferenceRequest}
    {p : FinishParams} (hp : Int8 p.completionTokens) (hgrant : Dict.get? db.grants p.grantId = some grant)
    (hrequest : Dict.get? db.requests p.key = some request) (hsettles : Settles request p) (deliverable : Bool) :
    Conserved ((db.setRequest p.key (settledRequest request p deliverable)).setGrant p.grantId
      (exhaust (settledGrant grant request p) request.requestKind)) := by
  obtain ⟨hrow, hceiling, -⟩ := hdb.rows p.key request hrequest
  obtain ⟨hprompt, hcompletion, hcost, hwithin⟩ := charge_within hrow hceiling hp
  have hsettled : Row (settledRequest request p deliverable) :=
    ⟨hprompt, hcompletion, hcost, hwithin, fun hstarted => absurd hstarted settledRequest_status⟩
  exact hdb.enter p.key hgrant ⟨hsettled, hceiling⟩ (fun _ _ _ => laneSum_update hrequest rfl)
    (entered_settled hdb hgrant hrequest hsettles deliverable)

end DittoSubnet.Relay

import DittoSubnet.Relay.Books

/-!
# The ledger is conserved

Runs of the operations on grants, in any order: admissions, reports (late, repeated or negative), rotations,
revocations and resumes of parked leases.

* `ledger_conserved`: in every reachable state the counters of every grant are the sums over its request rows, each
  request is charged at most once and within its ceiling and delivered at most once, and no request is admitted once
  its lane has spent its token budget.
-/

namespace DittoSubnet.Relay

open Kit Platform

variable {db : Database} {requests : Dict RequestKey InferenceRequest} {grantId : String} {kind : RequestKind}
  {f : InferenceRequest → ℤ} {now : ℤ}

/-! ## Finished requests -/

/-- A request with a positive charge. -/
def Used (row : InferenceRequest) : Prop := 0 < row.promptTokens ∨ 0 < row.completionTokens ∨ 0 < row.costMicrousd

instance (row : InferenceRequest) : Decidable (Used row) := inferInstanceAs (Decidable (_ ∨ _))

/-- Charged and completed rows are not written again. -/
def Kept (db db' : Database) : Prop :=
  ∀ key row, Dict.get? db.requests key = some row → (row.status = .completed ∨ Used row) →
    Dict.get? db'.requests key = some row

/-- A row that is done with is not running. -/
theorem Row.not_started {row : InferenceRequest} (h : Row row) (hdone : row.status = .completed ∨ Used row) :
    row.status ≠ .started := by
  intro hstarted
  rcases hdone with hcompleted | hused
  · rw [hstarted] at hcompleted
    cases hcompleted
  · obtain ⟨hprompt, hcompletion, hcost⟩ := h.unused hstarted
    unfold Used at hused
    omega

theorem kept_cancelWhere {P : RequestKey → InferenceRequest → Prop} [∀ key row, Decidable (P key row)]
    (hdb : Conserved db) (hP : ∀ key row, P key row → row.status = .started) : Kept db (db.cancelWhere now P) := by
  intro key row hrow hdone
  have hnot : ¬ P key row := fun hkey => (hdb.rows key row hrow).1.not_started hdone (hP key row hkey)
  rw [Database.cancelWhere, cancelRows, Dict.get?_mapRows, hrow, Option.map_some, if_neg hnot]

theorem kept_begin (hdb : Conserved db) {bearerDigest : String → String} {p : BeginParams} {db' : Database}
    {grant' : InferenceGrant} {request : InferenceRequest}
    (h : beginInferenceRequest bearerDigest db p = .ok (db', grant', request)) : Kept db db' := by
  obtain ⟨locked, -, -, reclaimed, grant, heq, -, -, -, hfree, rfl⟩ := beginInferenceRequest_cases h
  have hreclaimed : reclaimed.requests = (db.cancelWhere p.now (Stale p.grantId p.kind p.cutoff)).requests := by
    unfold reclaimStale at heq
    split at heq
    · rw [← (Prod.mk.inj heq).1]
    · rw [← (Prod.mk.inj heq).1]
      rfl
  intro key row hrow hdone
  have hstarted : ∀ key row, Stale p.grantId p.kind p.cutoff key row → row.status = .started :=
    fun _ _ hstale => hstale.1.2.1
  have hkept := @kept_cancelWhere db p.now _ _ hdb hstarted key row hrow hdone
  rw [← hreclaimed] at hkept
  show Dict.get? (Dict.set reclaimed.requests p.key _) key = some row
  rw [Dict.get?_set, if_neg]
  · exact hkept
  · rintro rfl
    rw [hfree] at hkept
    cases hkept

theorem kept_activate (hdb : Conserved db) {bearerDigest : String → String} {p : ActivateParams} {db' : Database}
    {answer : Option InferenceGrant} (h : activateInferenceGrant bearerDigest db p = .ok (db', answer)) :
    Kept db db' := by
  unfold activateInferenceGrant at h
  split at h
  · cases h
    exact fun _ _ hrow _ => hrow
  split at h
  · cases h
    exact fun _ _ hrow _ => hrow
  split at h
  · cases h
    exact fun _ _ hrow _ => hrow
  split at h
  · cases h
    exact fun _ _ hrow _ => hrow
  split at h
  · cases h
    exact fun _ _ hrow _ => hrow
  simp only [bind_eq_ok_iff, ensure_eq_ok_iff, exists_and_left, exists_const, pure_eq_ok_iff, Prod.mk.injEq] at h
  obtain ⟨-, rfl, -⟩ := h
  exact kept_cancelWhere hdb fun _ _ hstarted => hstarted.2

/-- A report is ignored, or it settles a request that is not done with. -/
theorem finishInferenceRequest_cases {p : FinishParams} {db' : Database} {deliverable : Bool}
    (h : finishInferenceRequest db p = .ok (db', deliverable)) :
    (db' = db ∧ deliverable = false ∧
      ∀ grant request, Dict.get? db.grants p.grantId = some grant → Dict.get? db.requests p.key = some request →
        ¬ Settles request p) ∨
      ∃ grant request, Dict.get? db.grants p.grantId = some grant ∧ Dict.get? db.requests p.key = some request ∧
        Settles request p ∧
        deliverable = decide (Deliverable (Dict.get? db.tickets grant.key) grant request p) ∧
        db' = (db.setRequest p.key (settledRequest request p deliverable)).setGrant p.grantId
          (exhaust (settledGrant grant request p) request.requestKind) := by
  unfold finishInferenceRequest at h
  split at h
  · rename_i grant request hgrant hrequest
    split at h
    · rename_i hsettles
      simp only [bind_eq_ok_iff, ensure_eq_ok_iff, exists_and_left, exists_const, pure_eq_ok_iff, Prod.mk.injEq] at h
      obtain ⟨-, rfl, rfl⟩ := h
      exact .inr ⟨grant, request, hgrant, hrequest, hsettles, rfl, rfl⟩
    · rename_i hnot
      obtain ⟨rfl, rfl⟩ := Prod.mk.inj (Except.ok.inj h)
      refine .inl ⟨rfl, rfl, ?_⟩
      intro grant' request' _ hrequest'
      rw [hrequest, Option.some.injEq] at hrequest'
      subst hrequest'
      exact hnot
  · rename_i hnone
    obtain ⟨rfl, rfl⟩ := Prod.mk.inj (Except.ok.inj h)
    refine .inl ⟨rfl, rfl, ?_⟩
    intro grant request hgrant hrequest
    exact absurd hrequest (hnone grant request hgrant)

theorem Conserved.finishInferenceRequest (hdb : Conserved db) {p : FinishParams} (hp : Int8 p.completionTokens)
    {db' : Database} {deliverable : Bool} (h : Relay.finishInferenceRequest db p = .ok (db', deliverable)) :
    Conserved db' := by
  rcases finishInferenceRequest_cases h with ⟨rfl, -⟩ | ⟨grant, request, hgrant, hrequest, hsettles, -, rfl⟩
  · exact hdb
  · exact hdb.settle hp hgrant hrequest hsettles deliverable

/-- A request that a report settles is neither charged nor completed. -/
theorem not_done_of_settles {request : InferenceRequest} (hrow : Row request) {p : FinishParams}
    (h : Settles request p) : ¬ (request.status = .completed ∨ Used request) := by
  obtain ⟨hprompt, hcompletion, hcost⟩ := unused_of_settles hrow h
  rintro (hcompleted | hused)
  · rcases h.1 with hstatus | hstatus
    · rw [hstatus] at hcompleted
      cases hcompleted
    · rw [hstatus] at hcompleted
      cases hcompleted
  · unfold Used at hused
    omega

theorem kept_finish (hdb : Conserved db) {p : FinishParams} {db' : Database} {deliverable : Bool}
    (h : finishInferenceRequest db p = .ok (db', deliverable)) : Kept db db' := by
  rcases finishInferenceRequest_cases h with ⟨rfl, -⟩ | ⟨grant, request, hgrant, hrequest, hsettles, -, rfl⟩
  · exact fun _ _ hrow _ => hrow
  · intro key row hrow hdone
    show Dict.get? (Dict.set db.requests p.key _) key = some row
    rw [Dict.get?_set, if_neg]
    · exact hrow
    · rintro rfl
      rw [hrequest, Option.some.injEq] at hrow
      subst hrow
      exact not_done_of_settles (hdb.rows p.key request hrequest).1 hsettles hdone

/-! ## Runs -/

/-- A committed operation. The platform's other code writes the tickets (`updateTicket`). -/
inductive Operation
  | ensureInferenceGrant (grantId : String) (grant : InferenceGrant)
  | updateTicket (key : TicketKey) (ticket : Ticket)
  | beginInferenceRequest (p : BeginParams)
  | finishInferenceRequest (p : FinishParams)
  | activateInferenceGrant (p : ActivateParams)
  | revokeTicketInference (key : TicketKey) (now : ℤ)
  | resumeParkedGrant (key : TicketKey) (grantId : String) (nextDeadline now : ℤ)

/-- The tables, the requests that a report has charged, and those whose answer was delivered. -/
structure Books where
  db : Database
  charged : List RequestKey
  delivered : List RequestKey

/-- A report that books a positive usage. -/
def Charges (db : Database) (p : FinishParams) : Prop :=
  ∃ request ∈ Dict.get? db.requests p.key, Settles request p ∧ Used (settledRequest request p false)

instance (db : Database) (p : FinishParams) : Decidable (Charges db p) :=
  inferInstanceAs (Decidable (∃ request ∈ Dict.get? db.requests p.key, _))

/-- One operation; what is refused is rolled back. -/
def Books.step (bearerDigest : String → String) (books : Books) : Operation → Books
  | .ensureInferenceGrant grantId grant =>
    { books with db := Platform.ensureInferenceGrant books.db grantId grant }
  | .updateTicket key ticket =>
    { books with db := { books.db with tickets := Dict.set books.db.tickets key ticket } }
  | .beginInferenceRequest p =>
    match beginInferenceRequest bearerDigest books.db p with
    | .ok (db, _, _) => { books with db := db }
    | .error _ => books
  | .finishInferenceRequest p =>
    match finishInferenceRequest books.db p with
    | .ok (db, deliverable) =>
      { db := db
        charged := if Charges books.db p then p.key :: books.charged else books.charged
        delivered := if deliverable then p.key :: books.delivered else books.delivered }
    | .error _ => books
  | .activateInferenceGrant p =>
    match activateInferenceGrant bearerDigest books.db p with
    | .ok (db, _) => { books with db := db }
    | .error _ => books
  | .revokeTicketInference key now => { books with db := Platform.revokeTicketInference books.db key now }
  | .resumeParkedGrant key grantId nextDeadline now =>
    { books with db := Platform.resumeParkedGrant books.db key grantId nextDeadline now }

/-- The arguments are what the endpoints can pass: calls within the ceiling, and 64-bit reports. -/
def Operation.Received : Operation → Prop
  | .beginInferenceRequest p => Relay.Received p
  | .finishInferenceRequest p => Int8 p.promptTokens ∧ Int8 p.completionTokens ∧ Int8 p.costMicrousd
  | _ => True

instance : ∀ operation : Operation, Decidable operation.Received
  | .beginInferenceRequest _ => inferInstanceAs (Decidable (Relay.Received _))
  | .finishInferenceRequest _ => inferInstanceAs (Decidable (_ ∧ _))
  | .ensureInferenceGrant _ _ => inferInstanceAs (Decidable True)
  | .updateTicket _ _ => inferInstanceAs (Decidable True)
  | .activateInferenceGrant _ => inferInstanceAs (Decidable True)
  | .revokeTicketInference _ _ => inferInstanceAs (Decidable True)
  | .resumeParkedGrant _ _ _ _ => inferInstanceAs (Decidable True)

/-- The books after some operations on empty tables. -/
def booksAfter (bearerDigest : String → String) (operations : List Operation) : Books :=
  run (Books.step bearerDigest) ⟨⟨[], [], []⟩, [], []⟩ operations

/-- What every run keeps. -/
structure Books.Good (books : Books) : Prop where
  conserved : Conserved books.db
  charged_nodup : books.charged.Nodup
  charged_used : ∀ key ∈ books.charged, ∃ row, Dict.get? books.db.requests key = some row ∧ Used row
  delivered_nodup : books.delivered.Nodup
  delivered_completed : ∀ key ∈ books.delivered,
    ∃ row, Dict.get? books.db.requests key = some row ∧ row.status = .completed

theorem Conserved.ensureInferenceGrant (hdb : Conserved db) (id : String) (grant : InferenceGrant) :
    Conserved (Platform.ensureInferenceGrant db id grant) := by
  unfold Platform.ensureInferenceGrant
  split
  · rename_i hnew
    obtain ⟨⟨hpending, -, -, -, hcompletions, hchat, hembedding, hdecision⟩, hfresh⟩ := hnew
    refine ⟨hdb.nodup, ?_, ?_⟩
    · intro key row hrow
      obtain ⟨hgood, hceiling, -⟩ := hdb.rows key row hrow
      exact ⟨hgood, hceiling, exists_setGrant hdb hrow id grant⟩
    · intro id' other hother
      simp only [Database.setGrant, Dict.get?_set] at hother
      split at hother
      · rename_i hid
        rw [Option.some.injEq] at hother
        subst hid hother
        -- a request of the new grant would name a grant that is not there
        have hzero : ∀ kind f, laneSum (db.setGrant id grant).requests id kind f = 0 := by
          intro kind f
          apply Dict.sumRows_eq_zero
          intro row hrow
          split
          · rename_i hlane
            obtain ⟨-, -, old, hold⟩ := hdb.rows row.1 row.2 (Dict.get?_of_mem hdb.nodup hrow)
            rw [hlane.1, hfresh] at hold
            cases hold
          · rfl
        have hlane : ∀ kind, NewLane (grant.lane kind) := by
          intro kind
          cases kind
          · exact hchat
          · exact hembedding
          · exact hdecision
        refine ⟨⟨fun kind => ?_, fun kind => ?_, fun kind => ?_, ?_, fun kind => ?_⟩, ?_, fun kind => (hlane kind).2.1⟩
        · rw [hzero, (hlane kind).2.2.1]
        · rw [(hlane kind).2.2.1]
          exact (hlane kind).1
        · rw [hzero, (hlane kind).2.2.2.1]
        · rw [hzero, hcompletions]
        · rw [hzero, (hlane kind).2.2.2.2.1]
        · intro hactive
          rw [hpending] at hactive
          cases hactive
      · exact hdb.grants id' other hother
  · exact hdb

/-- An operation that writes no usage. -/
theorem Books.Good.of_kept {books : Books} (h : books.Good) {db' : Database} (hdb' : Conserved db')
    (hkept : Kept books.db db') : Books.Good { books with db := db' } := by
  refine ⟨hdb', h.charged_nodup, ?_, h.delivered_nodup, ?_⟩
  · intro key hkey
    obtain ⟨row, hrow, hused⟩ := h.charged_used key hkey
    exact ⟨row, hkept key row hrow (.inr hused), hused⟩
  · intro key hkey
    obtain ⟨row, hrow, hcompleted⟩ := h.delivered_completed key hkey
    exact ⟨row, hkept key row hrow (.inl hcompleted), hcompleted⟩

theorem Books.Good.finish {books : Books} (h : books.Good) {p : FinishParams}
    (hp : (Operation.finishInferenceRequest p).Received) {db' : Database} {deliverable : Bool}
    (hfinish : finishInferenceRequest books.db p = .ok (db', deliverable)) :
    Books.Good ⟨db', if Charges books.db p then p.key :: books.charged else books.charged,
      if deliverable then p.key :: books.delivered else books.delivered⟩ := by
  have hgood := h.of_kept (h.conserved.finishInferenceRequest hp.2.1 hfinish) (kept_finish h.conserved hfinish)
  -- the keys of charged and delivered requests do not settle again
  have hnew : ∀ request, Dict.get? books.db.requests p.key = some request → Settles request p →
      p.key ∉ books.charged ∧ p.key ∉ books.delivered := by
    intro request hrequest hsettles
    have hnot := not_done_of_settles (h.conserved.rows p.key request hrequest).1 hsettles
    constructor
    · intro hmem
      obtain ⟨row, hrow, hused⟩ := h.charged_used _ hmem
      rw [hrequest, Option.some.injEq] at hrow
      subst hrow
      exact hnot (.inr hused)
    · intro hmem
      obtain ⟨row, hrow, hcompleted⟩ := h.delivered_completed _ hmem
      rw [hrequest, Option.some.injEq] at hrow
      subst hrow
      exact hnot (.inl hcompleted)
  rcases finishInferenceRequest_cases hfinish with ⟨rfl, rfl, hnone⟩ |
      ⟨grant, request, hgrant, hrequest, hsettles, hd, hdb'⟩
  · have hcharges : ¬ Charges books.db p := by
      rintro ⟨request, hrequest, hsettles, -⟩
      obtain ⟨-, -, grant, hgrant⟩ := h.conserved.rows p.key request hrequest
      exact hnone grant request hgrant hrequest hsettles
    simp only [hcharges, if_false, Bool.false_eq_true]
    exact hgood
  · obtain ⟨hcharged, hdelivered⟩ := hnew request hrequest hsettles
    have hrow : Dict.get? db'.requests p.key = some (settledRequest request p deliverable) := by
      rw [hdb']
      show Dict.get? (Dict.set books.db.requests p.key _) p.key = _
      rw [Dict.get?_set, if_pos rfl]
    refine ⟨hgood.conserved, ?_, ?_, ?_, ?_⟩
    · show (if Charges books.db p then p.key :: books.charged else books.charged).Nodup
      split
      · exact List.nodup_cons.2 ⟨hcharged, h.charged_nodup⟩
      · exact h.charged_nodup
    · intro key hkey
      simp only at hkey
      split at hkey
      · rename_i hcharges
        rcases List.mem_cons.1 hkey with rfl | hkey
        · obtain ⟨request', hrequest', -, hused⟩ := hcharges
          rw [Option.mem_def, hrequest, Option.some.injEq] at hrequest'
          subst hrequest'
          exact ⟨_, hrow, hused⟩
        · exact hgood.charged_used key hkey
      · exact hgood.charged_used key hkey
    · show (if deliverable then p.key :: books.delivered else books.delivered).Nodup
      split
      · exact List.nodup_cons.2 ⟨hdelivered, h.delivered_nodup⟩
      · exact h.delivered_nodup
    · intro key hkey
      simp only at hkey
      split at hkey
      · rename_i hdeliverable
        rcases List.mem_cons.1 hkey with rfl | hkey
        · refine ⟨_, hrow, ?_⟩
          have hdeliver : Deliverable (Dict.get? books.db.tickets grant.key) grant request p := by
            rw [hdeliverable, eq_comm, decide_eq_true_eq] at hd
            exact hd
          simp only [settledRequest, hdeliver.2.2.2.2.1, hdeliverable, true_or, and_self, if_true, hdeliver.1]
          rfl
        · exact hgood.delivered_completed key hkey
      · exact hgood.delivered_completed key hkey

/-- Every operation keeps the books. -/
theorem Books.Good.step {bearerDigest : String → String} {books : Books} (h : books.Good) {operation : Operation}
    (hoperation : operation.Received) : (books.step bearerDigest operation).Good := by
  have hsame : ∀ {db' : Database}, db'.requests = books.db.requests → Kept books.db db' := by
    intro db' heq key row hrow _
    rw [heq]
    exact hrow
  cases operation with
  | ensureInferenceGrant id grant =>
    refine h.of_kept (h.conserved.ensureInferenceGrant id grant) (hsame ?_)
    unfold Platform.ensureInferenceGrant
    split
    · rfl
    · rfl
  | updateTicket key ticket =>
    exact h.of_kept ⟨h.conserved.nodup, h.conserved.rows, h.conserved.grants⟩ (hsame rfl)
  | beginInferenceRequest p =>
    simp only [Books.step]
    split
    · rename_i db' grant request hbegin
      exact h.of_kept (h.conserved.beginInferenceRequest hoperation hbegin) (kept_begin h.conserved hbegin)
    · exact h
  | finishInferenceRequest p =>
    simp only [Books.step]
    split
    · rename_i db' deliverable hfinish
      exact h.finish hoperation hfinish
    · exact h
  | activateInferenceGrant p =>
    simp only [Books.step]
    split
    · rename_i db' answer hactivate
      exact h.of_kept (h.conserved.activateInferenceGrant hactivate) (kept_activate h.conserved hactivate)
    · exact h
  | revokeTicketInference key now =>
    have hkept : Kept books.db (books.db.cancelWhere now fun k row => row.status = .started ∧
        ∃ grant ∈ Dict.get? books.db.grants k.grantId, OpenGrant key grant) := by
      apply kept_cancelWhere h.conserved
      rintro k row ⟨hstarted, -⟩
      exact hstarted
    exact h.of_kept (h.conserved.revokeTicketInference key now) hkept
  | resumeParkedGrant key id nextDeadline now =>
    refine h.of_kept (h.conserved.resumeParkedGrant key id nextDeadline now) (hsame ?_)
    unfold Platform.resumeParkedGrant
    split
    · split
      · rfl
      · rfl
    · rfl

theorem laneSum_add (f g : InferenceRequest → ℤ) :
    laneSum requests grantId kind f + laneSum requests grantId kind g =
      laneSum requests grantId kind fun row => f row + g row := by
  unfold laneSum Dict.sumRows
  rw [← List.sum_map_add]
  congr 1
  apply List.map_congr_left
  intro row _
  dsimp only
  split
  · rfl
  · rfl

theorem laneSum_le {c : ℤ} (h : ∀ row ∈ requests, f row.2 ≤ c) :
    laneSum requests grantId kind f ≤ c * laneSum requests grantId kind fun _ => 1 := by
  unfold laneSum
  have hmul : c * Dict.sumRows (fun key row => if key.grantId = grantId ∧ row.requestKind = kind then (1 : ℤ) else 0)
      requests = Dict.sumRows (fun key row => c * if key.grantId = grantId ∧ row.requestKind = kind then 1 else 0)
      requests := by
    unfold Dict.sumRows
    rw [List.sum_map_mul_left]
  rw [hmul]
  apply Dict.sumRows_le_sumRows
  intro row hrow
  split
  · rw [mul_one]
    exact h row hrow
  · rw [mul_zero]

/-- The relay's 64-bit sum is the settled spend: a lane has fewer than 2^31 requests, each within the ceiling. -/
theorem spent_eq (hdb : Conserved db) {grant : InferenceGrant} (hgrant : Dict.get? db.grants grantId = some grant)
    (kind : RequestKind) : spent grant kind = settledTokens grant kind := by
  cases kind with
  | chat =>
    obtain ⟨hbooked, -, hbudget⟩ := hdb.grants grantId grant hgrant
    have hsum := @laneSum_add db.requests grantId .chat (·.promptTokens) (·.completionTokens)
    rw [← hbooked.completions] at hsum
    have htokens := hbooked.tokens .chat
    have hcount := hbooked.requestCount .chat
    have hwithin := hbooked.within .chat
    have hrange := hbudget .chat
    have hrow : ∀ row ∈ db.requests, 0 ≤ row.2.promptTokens + row.2.completionTokens ∧
        row.2.promptTokens + row.2.completionTokens ≤ callCeiling := by
      intro row hmem
      obtain ⟨hgood, hceiling, -⟩ := hdb.rows row.1 row.2 (Dict.get?_of_mem hdb.nodup hmem)
      exact ⟨add_nonneg hgood.prompt_nonneg hgood.completion_nonneg, hgood.within.trans hceiling⟩
    have hle := @laneSum_le db.requests grantId .chat (fun row => row.promptTokens + row.completionTokens) callCeiling
      (fun row hmem => (hrow row hmem).2)
    have hnonneg : 0 ≤ laneSum db.requests grantId .chat fun row => row.promptTokens + row.completionTokens := by
      apply List.sum_nonneg
      intro x hx
      obtain ⟨row, hmem, rfl⟩ := List.mem_map.1 hx
      show (0 : ℤ) ≤ if _ then row.2.promptTokens + row.2.completionTokens else 0
      split
      · exact (hrow row hmem).1
      · exact le_rfl
    apply wrap64_of_int8
    show Int8 ((grant.lane .chat).tokens + grant.completionTokens)
    unfold Int8 Int4 callCeiling at *
    constructor
    · omega
    · omega
  | embedding => rfl
  | decision => rfl

/-- In every state that the operations of the relay and the platform reach: the accounts of every grant are the sums
over its requests, within its request budget; while it is active its counters are its started requests; a request is
charged within its ceiling, with a positive usage at most once, and delivered at most once; and a request is admitted
only while the settled tokens of its lane are below the token budget. -/
theorem ledger_conserved (bearerDigest : String → String) (operations : List Operation)
    (hoperations : ∀ operation ∈ operations, operation.Received) :
    (∀ id grant, Dict.get? (booksAfter bearerDigest operations).db.grants id = some grant →
      Booked (booksAfter bearerDigest operations).db.requests id grant ∧
      Counted (booksAfter bearerDigest operations).db.requests id grant) ∧
    (∀ key row, Dict.get? (booksAfter bearerDigest operations).db.requests key = some row →
      0 ≤ row.promptTokens ∧ 0 ≤ row.completionTokens ∧
        row.promptTokens + row.completionTokens ≤ row.maxChargeableTokens) ∧
    (booksAfter bearerDigest operations).charged.Nodup ∧ (booksAfter bearerDigest operations).delivered.Nodup ∧
    (∀ p admission, beginInferenceRequest bearerDigest (booksAfter bearerDigest operations).db p = .ok admission →
      ∃ grant, Dict.get? (booksAfter bearerDigest operations).db.grants p.grantId = some grant ∧
        settledTokens grant p.kind < (grant.lane p.kind).tokenBudget) := by
  have hgood : (booksAfter bearerDigest operations).Good := by
    have hrun : ∀ (operations : List Operation) {books : Books}, (∀ operation ∈ operations, operation.Received) →
        books.Good → (run (Books.step bearerDigest) books operations).Good := by
      intro operations
      induction operations with
      | nil => exact fun _ h => h
      | cons operation operations ih =>
        intro books hreceived h
        exact ih (fun o ho => hreceived o (List.mem_cons_of_mem _ ho)) (h.step (hreceived _ List.mem_cons_self))
    refine hrun operations hoperations ⟨⟨List.nodup_nil, ?_, ?_⟩, List.nodup_nil, ?_, List.nodup_nil, ?_⟩
    · intro key row hrow
      cases hrow
    · intro id grant hgrant
      cases hgrant
    · intro key hkey
      cases hkey
    · intro key hkey
      cases hkey
  refine ⟨?_, ?_, hgood.charged_nodup, hgood.delivered_nodup, ?_⟩
  · intro id grant hgrant
    obtain ⟨hbooked, hcounted, -⟩ := hgood.conserved.grants id grant hgrant
    exact ⟨hbooked, hcounted⟩
  · intro key row hrow
    obtain ⟨hrow, -⟩ := hgood.conserved.rows key row hrow
    exact ⟨hrow.prompt_nonneg, hrow.completion_nonneg, hrow.within⟩
  · rintro p ⟨db', grant', request⟩ hbegin
    obtain ⟨locked, hlocked, hactive, reclaimed, grant, heq, -, -, hspent, -⟩ := beginInferenceRequest_cases hbegin
    have hspec := reclaimStale_spec hgood.conserved hlocked hactive
    rw [heq] at hspec
    refine ⟨locked, hlocked, ?_⟩
    rw [spent_eq hspec.conserved hspec.stored] at hspent
    obtain ⟨hcompletions, hlanes⟩ := hspec.same
    have hlane := hlanes p.kind
    cases hkind : p.kind with
    | chat =>
      rw [hkind] at hspent hlane
      simp only [settledTokens, InferenceGrant.lane] at hspent hlane ⊢
      rw [hlane, hcompletions] at hspent
      exact hspent
    | embedding =>
      rw [hkind] at hspent hlane
      simp only [settledTokens, InferenceGrant.lane] at hspent hlane ⊢
      rw [hlane] at hspent
      exact hspent
    | decision =>
      rw [hkind] at hspent hlane
      simp only [settledTokens, InferenceGrant.lane] at hspent hlane ⊢
      rw [hlane] at hspent
      exact hspent

/-! ## A settled call -/

/-- Two requests and ten tokens. -/
def sampleLane : LaneAccount := ⟨2, 10, 0, 0, 0, 0⟩

/-- A grant as it is created for a lease until 1000. -/
def sampleGrant : InferenceGrant where
  agentId := "agent"
  benchVersion := 13
  validatorHotkey := "alice"
  slotId := "slot-0"
  ticketDeadline := 1000
  status := .pending
  bearerDigest := none
  brokerPublicKey := none
  generation := 0
  allowedModels := ["model"]
  embeddingModel := "embed"
  decisionModel := none
  inferenceMode := .chat
  chat := sampleLane
  completionTokens := 0
  embedding := sampleLane
  decision := sampleLane
  expiresAt := 1000
  createdAt := 0
  updatedAt := 0

def sampleLimits : LaneLimits := ⟨4, 4, 4, 60, 60, 60⟩

def sampleConfig : ProxyConfig := ⟨90, sampleLimits, sampleLimits, sampleLimits⟩

/-- A chat call of at most 8 tokens. -/
def sampleBegin (nonce : String) (now : ℤ) : BeginParams :=
  ⟨"grant", nonce, "bearer", "model", 5, 8, now, .chat, sampleConfig⟩

/-- A report of a usage. -/
def sampleFinish (nonce : String) (promptTokens completionTokens now : ℤ) : FinishParams :=
  ⟨"grant", nonce, 1, .completed, promptTokens, completionTokens, 3, true, now, some "provider", false, 7, 1, 1, 0,
    none⟩

/-- A grant is exchanged; two calls start, the first settles within its ceiling and is reported again, the second
reports more than its ceiling. -/
def sampleOperations : List Operation :=
  [.updateTicket ⟨"agent", 13, "alice"⟩ (Lease.ticket ⟨"alice", "slot-0", 0, 1000, 13⟩ .canonicalQuorum none none 1),
    .ensureInferenceGrant "grant" sampleGrant, .activateInferenceGrant ⟨"grant", "alice", "key==", 10, 90, "bearer"⟩,
    .beginInferenceRequest (sampleBegin "first" 20), .beginInferenceRequest (sampleBegin "second" 21),
    .finishInferenceRequest (sampleFinish "first" 2 3 30), .finishInferenceRequest (sampleFinish "first" 2 3 31),
    .finishInferenceRequest (sampleFinish "second" 9 9 32)]

theorem ledger_conserved_settled :
    (∃ grant ∈ Dict.get? (booksAfter id sampleOperations).db.grants "grant",
      grant.chat.requestCount = 2 ∧ grant.chat.tokens = 10 ∧ grant.completionTokens = 3 ∧ grant.status = .exhausted ∧
        Booked (booksAfter id sampleOperations).db.requests "grant" grant) ∧
    (booksAfter id sampleOperations).charged = [⟨"grant", "second"⟩, ⟨"grant", "first"⟩] ∧
    (booksAfter id sampleOperations).delivered = [⟨"grant", "first"⟩] := by
  have hkept := ledger_conserved id sampleOperations (by decide +kernel)
  refine ⟨?_, by decide +kernel, by decide +kernel⟩
  obtain ⟨grant, hgrant, hfacts⟩ : ∃ grant ∈ Dict.get? (booksAfter id sampleOperations).db.grants "grant",
      grant.chat.requestCount = 2 ∧ grant.chat.tokens = 10 ∧ grant.completionTokens = 3 ∧
        grant.status = .exhausted := by decide +kernel
  exact ⟨grant, hgrant, hfacts.1, hfacts.2.1, hfacts.2.2.1, hfacts.2.2.2, (hkept.1 "grant" grant hgrant).1⟩

end DittoSubnet.Relay

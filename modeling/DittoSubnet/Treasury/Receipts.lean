import DittoSubnet.Treasury.Collector

/-!
# What the collector reads

One lemma for each function that reads the journal, for successful reads:

* `manualTransferHistory_spec`: the history is the live intents, and no request id was used twice;
* `canaryReplacement_cases`, `boundCanary_cases`: the canary, or the replacement that answers for its failed claim;
* `sourceOperations_eq`: the operations that draw on a receipt, each with its part for the block (`taken`);
* `remainingDistribution_spec`: all of them are finalized, and what is left of a bucket is its share less what was paid.
-/

namespace DittoSubnet.Treasury

open Kit

variable {custody : Custody} {journal : Journal}

/-! ## The manual history -/

theorem filterMap_zipIdx {α β : Type} (f : α → Option β) (l : List α) (n : ℕ) :
    (l.zipIdx n).filterMap (fun e => f e.1) = l.filterMap f := by
  have hcomp : (fun e : α × ℕ => f e.1) = f ∘ Prod.fst := rfl
  rw [hcomp, ← List.filterMap_map, List.zipIdx_map_fst]

theorem map_armedRecords (events : List Event) (n : ℕ) :
    (armedRecords (events.zipIdx n)).map (·.1.2) = events.filterMap Event.armed? := by
  rw [← filterMap_zipIdx _ _ n, armedRecords, List.map_filterMap]
  congr 1
  funext e
  obtain ⟨e, i⟩ := e
  cases e <;> rfl

theorem map_expiryRecords (events : List Event) (n : ℕ) :
    (expiryRecords (events.zipIdx n)).map (·.1.requestId) = expiredIds events := by
  rw [expiredIds, ← filterMap_zipIdx _ _ n, expiryRecords, List.map_filterMap, List.map_filterMap]
  congr 1
  funext e
  obtain ⟨e, i⟩ := e
  cases e <;> rfl

/-- The loop over the armed intents after a part of them. -/
structure HistoryInv (expired : List (UnsignedExpiry × ℕ)) (done : List ((String × ManualTransfer) × ℕ))
    (state : HistoryState) : Prop where
  requests : state.requests = (done.map (·.1.2)).filter fun r => r.requestId ∉ expired.map (·.1.requestId)
  ids : ∀ id, id ∈ state.ids ↔ id ∈ done.map (·.1.2.requestId)
  nodup : (done.map (·.1.2.requestId)).Nodup
  expired : ∀ c, c ∈ state.expired ↔ c ∈ expired ∧ c.1.requestId ∉ done.map (·.1.2.requestId)

theorem HistoryInv.step {events : List (Event × ℕ)} {expired : List (UnsignedExpiry × ℕ)}
    {done : List ((String × ManualTransfer) × ℕ)} {state state' : HistoryState}
    {record : (String × ManualTransfer) × ℕ} (hinv : HistoryInv expired done state)
    (h : historyStep custody events state record = .ok state') : HistoryInv expired (done ++ [record]) state' := by
  obtain ⟨⟨digest, request⟩, eventId⟩ := record
  unfold historyStep at h
  simp only [bind_eq_ok_iff, ensure_eq_ok_iff, exists_and_left, exists_const] at h
  obtain ⟨-, -, ⟨hnew, -⟩, -, -, -, h⟩ := h
  rw [hinv.ids] at hnew
  have hnodup : ((done ++ [((digest, request), eventId)]).map (·.1.2.requestId)).Nodup := by
    rw [List.map_append, List.nodup_append]
    refine ⟨hinv.nodup, by simp, ?_⟩
    intro a ha b hb hab
    rw [List.map_singleton, List.mem_singleton] at hb
    rw [hab, hb] at ha
    exact hnew ha
  split at h
  · rename_i hnone
    rw [pure_eq_ok_iff] at h
    subst h
    -- no closure names the request, so it is live
    have hlive : request.requestId ∉ expired.map (·.1.requestId) := by
      rintro hmem
      obtain ⟨c, hc, hid⟩ := List.mem_map.1 hmem
      have hopen := (hinv.expired c).2 ⟨hc, by rw [hid]; exact hnew⟩
      simpa [hid] using List.find?_eq_none.1 hnone c hopen
    refine ⟨?_, ?_, hnodup, ?_⟩
    · simp only [List.map_append, List.filter_append, hinv.requests, List.map_singleton]
      congr 1
      simp [hlive]
    · intro id
      simp only [List.mem_cons, hinv.ids, List.map_append, List.map_singleton, List.mem_append]
      tauto
    · intro c
      simp only [hinv.expired, List.map_append, List.map_singleton, List.mem_append, List.mem_singleton, not_or]
      refine and_congr_right fun hc => ⟨fun hdone => ⟨hdone, ?_⟩, And.left⟩
      rintro hid
      exact hlive (List.mem_map.2 ⟨c, hc, hid⟩)
  · rename_i closure closedAt hfound
    simp only [bind_eq_ok_iff, ensure_eq_ok_iff, exists_and_left, exists_const, pure_eq_ok_iff] at h
    obtain ⟨-, rfl⟩ := h
    have hclosed : request.requestId ∈ expired.map (·.1.requestId) := by
      have hmem := ((hinv.expired _).1 (List.mem_of_find?_eq_some hfound)).1
      have hid := List.find?_some hfound
      rw [decide_eq_true_eq] at hid
      exact List.mem_map.2 ⟨_, hmem, hid⟩
    refine ⟨?_, ?_, hnodup, ?_⟩
    · simp only [List.map_append, List.filter_append, hinv.requests, List.map_singleton]
      rw [List.filter_cons_of_neg (by simpa using hclosed), List.filter_nil, List.append_nil]
    · intro id
      simp only [List.mem_cons, hinv.ids, List.map_append, List.map_singleton, List.mem_append]
      tauto
    · intro c
      simp only [List.mem_filter, hinv.expired, List.map_append, List.map_singleton, List.mem_append,
        List.mem_singleton, not_or, decide_eq_true_eq]
      tauto

/-- A checked history is the live intents; request ids are unique and only armed ones are retired. -/
theorem manualTransferHistory_spec {manual : List ManualTransfer}
    (h : manualTransferHistory custody journal = .ok manual) :
    manual = liveIntents journal.events ∧ ((journal.events.filterMap Event.armed?).map (·.requestId)).Nodup := by
  unfold manualTransferHistory at h
  simp only [bind_eq_ok_iff, ensure_eq_ok_iff, exists_and_left, exists_const, pure_eq_ok_iff] at h
  obtain ⟨-, -, state, hloop, -, -, -, rfl⟩ := h
  have hinit : HistoryInv (expiryRecords (journal.events.zipIdx 1)) []
      ⟨[], expiryRecords (journal.events.zipIdx 1), [], 0, false, 0⟩ :=
    ⟨rfl, by simp, by simp, by simp⟩
  have hinv : HistoryInv (expiryRecords (journal.events.zipIdx 1)) (armedRecords (journal.events.zipIdx 1)) state :=
    foldlM_inv (fun _ _ _ _ hinv hstep => hinv.step hstep) _ [] hinit hloop
  have hrequests := hinv.requests
  have hnodup := hinv.nodup
  rw [show (fun r : (String × ManualTransfer) × ℕ => r.1.2.requestId) = (·.requestId) ∘ (·.1.2) from rfl,
    ← List.map_map, map_armedRecords] at hnodup
  rw [map_armedRecords, map_expiryRecords] at hrequests
  exact ⟨hrequests, hnodup⟩

/-! ## The canary in force -/

theorem canaryReplacement_cases {replacement : Option CanaryReplacement}
    (h : canaryReplacement custody journal = .ok replacement) :
    journal.events.filterMap Event.replacement? = replacement.toList := by
  unfold canaryReplacement at h
  split at h
  · rename_i hnil
    rw [← pure_eq_ok_iff.1 h, hnil]
    rfl
  · rename_i r hsingle
    simp only [bind_eq_ok_iff, ensure_eq_ok_iff, exists_and_left, exists_const, pure_eq_ok_iff] at h
    rw [← h.2, hsingle]
    rfl
  · cases h

/-- The bound is the canary, or a replacement that follows its failed claim. -/
theorem boundCanary_cases {canary existing : TransferCanary} {replacement : Option CanaryReplacement}
    (h : boundCanary journal canary replacement = .ok existing) :
    (replacement = none ∧ existing = canary) ∨ ∃ r old, replacement = some r ∧ existing = r.canary ∧
      r.canary.afterOperation = canary.afterOperation + 1 ∧
      journal.operation? r.canary.afterOperation = some old ∧ old.state = .failed := by
  unfold boundCanary at h
  split at h
  · exact .inl ⟨rfl, (pure_eq_ok_iff.1 h).symm⟩
  · rename_i r
    split at h
    · cases h
    · rename_i old hold
      simp only [bind_eq_ok_iff, ensure_eq_ok_iff, exists_and_left, exists_const, pure_eq_ok_iff] at h
      obtain ⟨⟨hfailed, -, -, hafter, -⟩, rfl⟩ := h
      exact .inr ⟨r, old, rfl, rfl, hafter, hold, hfailed⟩

/-! ## What draws on a receipt -/

/-- The live batch that an operation is bound to. -/
def boundBatch (events : List Event) (id : ℕ) : Option ManualTransfer :=
  ((liveIntents events).filter fun r => r.batch.isSome).find? fun r => r.afterOperation + 1 = id

/-- The sources of a batch intent. -/
def ManualTransfer.sources (request : ManualTransfer) : List ManualSourceClaim :=
  (request.batch.map (·.sources)).getD []

/-- What one operation takes from the receipt of a block. -/
def taken (events : List Event) (block : ℕ) (op : Operation) : List Operation :=
  match boundBatch events op.id with
  | some request => (request.sources.filter fun claim => claim.sourceBlock = block).map fun claim =>
      { op with amount := claim.amountRao }
  | none => if op.sourceBlock = some block then [op] else []

theorem batchClaims_get? {claims : Dict ℕ ManualTransfer} (h : batchClaims journal = .ok claims) (id : ℕ) :
    claims.get? id = boundBatch journal.events id := by
  unfold batchClaims at h
  refine foldlM_inv (P := fun done claims => claims.get? id = done.find? fun r => r.afterOperation + 1 = id)
    ?_ _ [] rfl h
  intro done claims claims' request hdone hstep
  simp only [bind_eq_ok_iff, ensure_eq_ok_iff, exists_and_left, exists_const, pure_eq_ok_iff] at hstep
  obtain ⟨hnew, rfl⟩ := hstep
  rw [Dict.get?_set, List.find?_append, ← hdone]
  by_cases hid : request.afterOperation + 1 = id
  · rw [hid] at hnew
    rw [if_pos hid, Dict.get?_eq_none_iff.2 hnew]
    simp [hid]
  · rw [if_neg hid]
    simp [hid]

theorem sourceOperation_eq {claims : Dict ℕ ManualTransfer} {block : ℕ} {op : Operation} {ops : List Operation}
    (hclaims : claims.get? op.id = boundBatch journal.events op.id)
    (h : sourceOperation claims block op = .ok ops) : ops = taken journal.events block op := by
  unfold sourceOperation at h
  unfold taken
  cases hget : claims.get? op.id with
  | some request =>
    simp only [hget, bind_eq_ok_iff, ensure_eq_ok_iff, exists_and_left, exists_const, pure_eq_ok_iff] at h
    rw [← hclaims, hget, ← h.2]
    simp only [ManualTransfer.sources]
    induction (request.batch.map (·.sources)).getD [] with
    | nil => rfl
    | cons claim rest ih =>
      by_cases hblock : claim.sourceBlock = block
      · simp [hblock, ih]
      · simp [hblock, ih]
  | none =>
    simp only [hget, pure_eq_ok_iff] at h
    rw [← hclaims, hget, ← h]

/-- The operations that draw on a receipt, in order. -/
theorem sourceOperations_eq {block : ℕ} {exclude : Option ℕ} {ops : List Operation}
    (h : sourceOperations journal block exclude = .ok ops) :
    ops = (journal.operations.filter fun op => some op.id ≠ exclude).flatMap (taken journal.events block) := by
  unfold sourceOperations at h
  rw [bind_eq_ok_iff] at h
  obtain ⟨claims, hclaims, h⟩ := h
  refine foldlM_inv (P := fun done result => result = done.flatMap (taken journal.events block)) ?_ _ [] rfl h
  intro done result result' op hresult hstep
  simp only [bind_eq_ok_iff, pure_eq_ok_iff] at hstep
  obtain ⟨part, hpart, rfl⟩ := hstep
  rw [sourceOperation_eq (batchClaims_get? hclaims op.id) hpart, hresult, List.flatMap_append, List.flatMap_singleton]

/-! ## What is left -/

/-- What operations pay into a bucket. -/
def paidInto (bucket : String) (ops : List Operation) : ℕ :=
  (ops.map fun op => if op.bucket = some bucket then op.amount else 0).sum

theorem paidInto_append (bucket : String) (a b : List Operation) :
    paidInto bucket (a ++ b) = paidInto bucket a + paidInto bucket b := by
  simp [paidInto]

/-- The loop over the paid legs. -/
structure PaidInv (parts : List ServiceDistribution) (done : List Operation) (paid : Dict String ℕ) : Prop where
  paid : ∀ bucket, paid.amount bucket = paidInto bucket done
  finalized : ∀ op ∈ done, op.state = .finalized
  planned : ∀ op ∈ done, ∃ part ∈ parts, op.bucket = some part.bucketId
  within : ∀ part ∈ parts, paidInto part.bucketId done ≤ part.alphaRao

theorem PaidInv.step {parts : List ServiceDistribution} (hparts : (parts.map (·.bucketId)).Nodup)
    {done : List Operation} {paid paid' : Dict String ℕ} {op : Operation} (hinv : PaidInv parts done paid)
    (h : paidStep parts paid op = .ok paid') : PaidInv parts (done ++ [op]) paid' := by
  unfold paidStep at h
  split at h
  · cases h
  · rename_i part hfound
    simp only [bind_eq_ok_iff, ensure_eq_ok_iff, exists_and_left, exists_const, pure_eq_ok_iff] at h
    obtain ⟨⟨-, hfinalized, -, -⟩, hle, rfl⟩ := h
    have hpart := List.mem_of_find?_eq_some hfound
    have hbucket : some part.bucketId = op.bucket := by simpa using List.find?_some hfound
    have hpaid : ∀ bucket, (paid.add part.bucketId op.amount).amount bucket = paidInto bucket (done ++ [op]) := by
      intro bucket
      rw [Dict.amount_add, hinv.paid, paidInto_append]
      simp [paidInto, ← hbucket]
    refine ⟨hpaid, ?_, ?_, ?_⟩
    · intro o ho
      rcases List.mem_append.1 ho with ho | ho
      · exact hinv.finalized o ho
      · rw [List.mem_singleton.1 ho]
        exact hfinalized
    · intro o ho
      rcases List.mem_append.1 ho with ho | ho
      · exact hinv.planned o ho
      · rw [List.mem_singleton.1 ho]
        exact ⟨part, hpart, hbucket.symm⟩
    · intro p hp
      by_cases hsame : p.bucketId = part.bucketId
      · have : p = part := List.inj_on_of_nodup_map hparts hp hpart hsame
        rw [this, ← hpaid]
        exact hle
      · have hzero : paidInto p.bucketId [op] = 0 := by
          have hne : op.bucket ≠ some p.bucketId := by
            rw [← hbucket]
            intro h
            exact hsame (Option.some.inj h).symm
          simp [paidInto, hne]
        rw [paidInto_append, hzero]
        exact hinv.within p hp

theorem amount_unpaid (parts : List ServiceDistribution) (bucket : String) :
    Dict.amount (parts.map fun part => (part.bucketId, 0)) bucket = 0 := by
  induction parts with
  | nil => rfl
  | cons part rest ih =>
    rw [List.map_cons, Dict.amount_cons, ih]
    exact ite_self _

/-- What is left of a receipt: every leg is finalized and planned, and a part is left with its share less what was
paid into its bucket. -/
theorem remainingDistribution_spec {parts remaining : List ServiceDistribution} {ops : List Operation}
    (hparts : (parts.map (·.bucketId)).Nodup) (h : remainingDistribution parts ops = .ok remaining) :
    (∀ op ∈ ops, op.state = .finalized) ∧ (∀ op ∈ ops, ∃ part ∈ parts, op.bucket = some part.bucketId) ∧
      (∀ part ∈ parts, paidInto part.bucketId ops ≤ part.alphaRao) ∧
      remaining = parts.filterMap fun part =>
        if paidInto part.bucketId ops < part.alphaRao then
          some { part with alphaRao := part.alphaRao - paidInto part.bucketId ops }
        else none := by
  unfold remainingDistribution at h
  simp only [bind_eq_ok_iff, pure_eq_ok_iff] at h
  obtain ⟨paid, hloop, rfl⟩ := h
  have hinv : PaidInv parts ops paid := by
    refine foldlM_inv (fun _ _ _ _ hinv hstep => hinv.step hparts hstep) _ [] ⟨amount_unpaid parts, ?_, ?_, ?_⟩ hloop
    · intro op hop
      cases hop
    · intro op hop
      cases hop
    · intro part _
      exact Nat.zero_le _
  refine ⟨hinv.finalized, hinv.planned, hinv.within, ?_⟩
  simp only [hinv.paid]

/-- The legs that `remaining_source` counts: those of the operations that were not replaced. -/
def legs (journal : Journal) (block : ℕ) (replacement : Option CanaryReplacement) : List Operation :=
  (journal.operations.filter fun op => some op.id ≠ replacement.map (·.canary.afterOperation)).flatMap
    (taken journal.events block)

theorem remainingSource_spec {row : EarningsRow} {remaining : List ServiceDistribution}
    (h : remainingSource custody journal row = .ok remaining) :
    ∃ replacement, canaryReplacement custody journal = .ok replacement ∧
      (∀ op ∈ legs journal row.block replacement, op.state = .finalized) ∧
      (∀ op ∈ legs journal row.block replacement, ∃ part ∈ splitService row.amount custody.policy.destinations,
        op.bucket = some part.bucketId) ∧
      (∀ part ∈ splitService row.amount custody.policy.destinations,
        paidInto part.bucketId (legs journal row.block replacement) ≤ part.alphaRao) ∧
      remaining = (splitService row.amount custody.policy.destinations).filterMap fun part =>
        if paidInto part.bucketId (legs journal row.block replacement) < part.alphaRao then
          some { part with alphaRao := part.alphaRao - paidInto part.bucketId (legs journal row.block replacement) }
        else none := by
  unfold remainingSource at h
  rw [planServiceDistribution_eq_ok custody.policy.destinations_valid] at h
  simp only [bind_eq_ok_iff] at h
  obtain ⟨parts, hparts, replacement, hreplacement, ops, hops, h⟩ := h
  obtain rfl := Except.ok.inj hparts
  rw [sourceOperations_eq hops] at h
  exact ⟨replacement, hreplacement,
    remainingDistribution_spec (nodup_splitService custody.policy.destinations_valid row.amount) h⟩

/-- The wallet of a destination's bucket is its own. -/
theorem bucketWallet_of_mem {d : ServiceDestination} (hd : d ∈ custody.policy.destinations) :
    bucketWallet custody d.bucketId = some d.holdingColdkey := by
  unfold bucketWallet
  cases hfound : custody.policy.destinations.find? fun d' => d'.bucketId = d.bucketId with
  | none =>
    have := List.find?_eq_none.1 hfound d hd
    simp at this
  | some d' =>
    have hd' : d'.bucketId = d.bucketId := by simpa using List.find?_some hfound
    have hsame : d' = d := List.inj_on_of_nodup_map custody.policy.destinations_valid.buckets
      (List.mem_of_find?_eq_some hfound) hd hd'
    rw [hsame, Option.map_some]

/-- What is left for a bucket is not empty and goes to its wallet. -/
theorem mem_remainingSource {row : EarningsRow} {remaining : List ServiceDistribution} {part : ServiceDistribution}
    (h : remainingSource custody journal row = .ok remaining) (hpart : part ∈ remaining) :
    0 < part.alphaRao ∧ bucketWallet custody part.bucketId = some part.holdingColdkey := by
  obtain ⟨replacement, -, -, -, -, heq⟩ := remainingSource_spec h
  rw [heq, List.mem_filterMap] at hpart
  obtain ⟨whole, hwhole, hsome⟩ := hpart
  split at hsome
  · rename_i hlt
    rw [Option.some.injEq] at hsome
    obtain ⟨-, d, hd, hbucket, hwallet, -⟩ := mem_splitService hwhole
    rw [← hsome]
    refine ⟨Nat.sub_pos_of_lt hlt, ?_⟩
    rw [← hbucket, ← hwallet]
    exact bucketWallet_of_mem hd
  · cases hsome

/-! ## Batches -/

/-- Every source of a validated batch is open and still owes its part, and the batch goes to the bucket's wallet. -/
theorem validateBatch_spec {chain : CollectorChain} {request : ManualTransfer} {batch : ManualBatch}
    {observed : Observation} {destination : String}
    (h : validateBatch custody chain journal request batch observed = .ok destination) :
    bucketWallet custody request.bucketId = some destination ∧ ∀ claim ∈ batch.sources, ∃ row remaining part,
      journal.openEarning? claim.sourceBlock = some row ∧ remainingSource custody journal row = .ok remaining ∧
        part ∈ remaining ∧ part.bucketId = request.bucketId ∧ claim.amountRao ≤ part.alphaRao := by
  unfold validateBatch at h
  simp only [bind_eq_ok_iff, ensure_eq_ok_iff, exists_and_left, exists_const] at h
  obtain ⟨-, -, -, -, -, h⟩ := h
  split at h
  · rename_i d hd
    simp only [bind_eq_ok_iff, pure_eq_ok_iff] at h
    obtain ⟨u, hsources, rfl⟩ := h
    have hmem : d ∈ custody.policy.destinations.filter fun d =>
        d.bucketId = request.bucketId ∧ 0 < d.allocationBps := by
      rw [hd]
      exact List.mem_singleton_self d
    rw [List.mem_filter, decide_eq_true_eq] at hmem
    refine ⟨?_, ?_⟩
    · rw [← hmem.2.1]
      exact bucketWallet_of_mem hmem.1
    · intro claim hclaim
      have hone := forM_ok hsources claim hclaim
      unfold validateSource at hone
      simp only [bind_eq_ok_iff, ensure_eq_ok_iff, exists_and_left, exists_const] at hone
      obtain ⟨-, hone⟩ := hone
      split at hone
      · cases hone
      · rename_i row hrow
        simp only [bind_eq_ok_iff, ensure_eq_ok_iff, exists_and_left, exists_const] at hone
        obtain ⟨-, -, -, remaining, hremaining, part, hpart, hbucket, -, hle⟩ := hone
        exact ⟨row, remaining, part, hrow, hremaining, hpart, hbucket, hle⟩
  · cases h

end DittoSubnet.Treasury

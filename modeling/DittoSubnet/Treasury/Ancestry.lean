import DittoSubnet.Treasury.Migration
import DittoSubnet.Treasury.Receipts

/-!
# The ancestry of a migrated journal

The links of an accepted ancestry lead from the current policy back, one revision at a time (`Descends`), so each policy
has one limit: the row that replaced it (`get?_limitsAlong`). A migration adds the newest link and changes nothing that
the manual history reads (`history_migrate`).

* `migration_keeps_history`: over any run of runtime migrations and of rows written under the policy pinned then, the
  manual history answers what it answered before the migrations; an earlier policy is admitted exactly below the row
  that replaced it; and another journal with an accepted ancestry of the same policy has the same newest links in the
  same rows, when the cold key signed no other manifest.
-/

namespace DittoSubnet.Treasury

open Kit

variable {seals : Seals} {old new policy : SignedPolicy} {rows : List Row} {ledger ledger' : Ledger}
  {approval : Manifest} {signature : List UInt8}

/-! ## Transitions -/

/-- A field that is not among the changed ones is the same. -/
theorem unchanged {α : Type} {x y : α} [Decidable (x ≠ y)] (f : PolicyField) (hfield : f ∉ changedFields old new)
    (hmem : (f, decide (x ≠ y)) ∈ policyDifferences old new) : y = x := by
  by_contra hne
  apply hfield
  refine List.mem_filterMap.2 ⟨_, hmem, ?_⟩
  rw [if_pos (decide_eq_true (Ne.symm hne))]

/-- A transition of the runtime changes no other field. -/
theorem policyTransition_runtime {u : Unit} (h : policyTransition old new = .ok u)
    (hruntime : old.runtimeCodeHash ≠ new.runtimeCodeHash) : RuntimeOnly old new := by
  unfold policyTransition at h
  split at h
  · assumption
  · simp only [bind_eq_ok_iff, ensure_eq_ok_iff, exists_and_left, exists_const] at h
    obtain ⟨⟨hchanged, -⟩, -⟩ := h
    have hsame : new.runtimeCodeHash = old.runtimeCodeHash :=
      unchanged .runtimeCodeHash (by rw [hchanged]; decide) (by simp [policyDifferences])
    exact absurd hsame.symm hruntime

theorem RuntimeOnly.transition (h : RuntimeOnly old new) : policyTransition old new = .ok () := by
  unfold policyTransition
  rw [if_pos h]
  rfl

/-- The collector reads the same fields under the new policy. -/
theorem RuntimeOnly.collector (h : RuntimeOnly old new) (digest : String) :
    new.collector digest = old.collector digest := by
  have hsame : ∀ f, f ∉ [PolicyField.runtimeCodeHash, .revision] → f ∉ changedFields old new := by
    intro f hf
    rw [h.1]
    exact hf
  simp only [SignedPolicy.collector, CollectorPolicy.mk.injEq]
  refine ⟨trivial, ?_, ?_, ?_, ?_, ?_, ?_, ?_, ?_, ?_, ?_, ?_, ?_⟩
  · exact unchanged .collectorColdkey (hsame _ (by decide)) (by simp [policyDifferences])
  · exact unchanged .collectorHotkey (hsame _ (by decide)) (by simp [policyDifferences])
  · exact unchanged .startBlock (hsame _ (by decide)) (by simp [policyDifferences])
  · exact unchanged .destinations (hsame _ (by decide)) (by simp [policyDifferences])
  · exact unchanged .maxRegistrationBurnRao (hsame _ (by decide)) (by simp [policyDifferences])
  · exact unchanged .registrationBudgetRao (hsame _ (by decide)) (by simp [policyDifferences])
  · exact unchanged .maxFeeRao (hsame _ (by decide)) (by simp [policyDifferences])
  · exact unchanged .feeReserveRao (hsame _ (by decide)) (by simp [policyDifferences])
  · exact unchanged .recoveryCooldownBlocks (hsame _ (by decide)) (by simp [policyDifferences])
  · exact unchanged .distributionIntervalBlocks (hsame _ (by decide)) (by simp [policyDifferences])
  · exact unchanged .maxDistributionRao (hsame _ (by decide)) (by simp [policyDifferences])
  · exact unchanged .enabled (hsame _ (by decide)) (by simp [policyDifferences])

/-- The runtimes, from the oldest on. -/
def runtimeOrder : List String :=
  [historicalCodeHash, v473CodeHash, v478CodeHash, v481CodeHash, v482CodeHash, auditedCodeHash]

/-- Transitions only lead to newer runtimes. -/
theorem runtime_newer : ∀ pair ∈ runtimeTransitions, runtimeOrder.idxOf pair.1 < runtimeOrder.idxOf pair.2 := by
  decide +kernel

/-! ## Accepted ancestries -/

/-- A link of the ancestry of a policy, in a row. -/
structure Link (seals : Seals) (policy : SignedPolicy) (body : RuntimeMigration) (rowId : ℕ) : Prop where
  current : body.toPolicy = policy
  runtime : RuntimeOnly body.fromPolicy body.toPolicy
  schema : body.manifest.schema = migrationSchema
  role : body.manifest.role = .transfer
  fromDigest : body.manifest.fromPolicyDigest = seals.digest body.fromPolicy
  toDigest : body.manifest.toPolicyDigest = seals.digest body.toPolicy
  count : body.manifest.counts.events = rowId - 1
  signed : seals.verify policy.collectorColdkey (seals.manifestDigest body.manifest) body.signature = true

/-- Links that lead back from a policy. -/
def Descends (seals : Seals) : SignedPolicy → List (Option RuntimeMigration × ℕ) → Prop
  | _, [] => True
  | policy, row :: rest => ∃ body, row.1 = some body ∧ Link seals policy body row.2 ∧
    Descends seals body.fromPolicy rest

/-- The limits after some links. -/
def limitsAlong (seals : Seals) (limits : Dict String (Option ℕ)) : List (Option RuntimeMigration × ℕ) →
    Dict String (Option ℕ)
  | [] => limits
  | (none, _) :: rest => limitsAlong seals limits rest
  | (some body, rowId) :: rest => limitsAlong seals (limits.set (seals.digest body.fromPolicy) (some rowId)) rest

theorem RuntimeOnly.hash_ne (h : RuntimeOnly old new) : old.runtimeCodeHash ≠ new.runtimeCodeHash := by
  intro heq
  have hlt := runtime_newer _ h.2.2.2.2.1
  rw [heq] at hlt
  exact Nat.lt_irrefl _ hlt

theorem ancestryStep_ok_iff {state state' : Ancestry} {row : Option RuntimeMigration × ℕ} :
    ancestryStep seals state row = .ok state' ↔ ∃ body, row.1 = some body ∧ Link seals state.current body row.2 ∧
      state' = ⟨body.fromPolicy, state.limits.set (seals.digest body.fromPolicy) (some row.2)⟩ := by
  obtain ⟨body, rowId⟩ := row
  cases body with
  | none => simp [ancestryStep]
  | some body =>
    simp only [ancestryStep, bind_eq_ok_iff, ensure_eq_ok_iff, exists_and_left, exists_const, pure_eq_ok_iff]
    constructor
    · rintro ⟨⟨hcurrent, hne, hschema, hrole, hfrom, hto, hcount⟩, u, htransition, hsigned, rfl⟩
      exact ⟨body, rfl, ⟨hcurrent, policyTransition_runtime htransition hne, hschema, hrole, hfrom, hto, hcount,
        hsigned⟩, rfl⟩
    · rintro ⟨_, ⟨⟩, h, rfl⟩
      exact ⟨⟨h.current, h.runtime.hash_ne, h.schema, h.role, h.fromDigest, h.toDigest, h.count⟩, (),
        h.runtime.transition, h.signed, rfl⟩

/-- The loop over the links. -/
theorem ancestry_loop {state : Ancestry} : ∀ {links : List (Option RuntimeMigration × ℕ)} {start : Ancestry},
    links.foldlM (ancestryStep seals) start = .ok state →
      Descends seals start.current links ∧ state.limits = limitsAlong seals start.limits links
  | [], start, h => by
    rw [List.foldlM_nil, pure_eq_ok_iff] at h
    rw [h]
    exact ⟨trivial, rfl⟩
  | (body, rowId) :: rest, start, h => by
    rw [List.foldlM_cons, bind_eq_ok_iff] at h
    obtain ⟨next, hstep, hrest⟩ := h
    obtain ⟨body, rfl, hlink, rfl⟩ := ancestryStep_ok_iff.1 hstep
    obtain ⟨hdescends, hlimits⟩ := ancestry_loop hrest
    exact ⟨⟨body, rfl, hlink, hdescends⟩, hlimits⟩

theorem ancestry_loop_ok : ∀ {links : List (Option RuntimeMigration × ℕ)} (start : Ancestry),
    Descends seals start.current links →
      ∃ state, links.foldlM (ancestryStep seals) start = .ok state ∧ state.limits = limitsAlong seals start.limits links
  | [], start, _ => ⟨start, rfl, rfl⟩
  | (body, rowId) :: rest, start, h => by
    obtain ⟨body, rfl, hlink, hrest⟩ := h
    obtain ⟨state, hloop, hlimits⟩ := ancestry_loop_ok
      ⟨body.fromPolicy, start.limits.set (seals.digest body.fromPolicy) (some rowId)⟩ hrest
    refine ⟨state, ?_, hlimits⟩
    rw [List.foldlM_cons, bind_eq_ok_iff]
    exact ⟨_, ancestryStep_ok_iff.2 ⟨body, rfl, hlink, rfl⟩, hloop⟩

/-- Each link is of an older runtime, so that there are few of them. -/
theorem Descends.length_le : ∀ {links : List (Option RuntimeMigration × ℕ)} {policy : SignedPolicy},
    Descends seals policy links → links.length ≤ runtimeOrder.idxOf policy.runtimeCodeHash
  | [], _, _ => Nat.zero_le _
  | row :: rest, policy, h => by
    obtain ⟨body, -, hlink, hrest⟩ := h
    have hshorter := hrest.length_le
    have hnewer := runtime_newer _ hlink.runtime.2.2.2.2.1
    rw [hlink.current] at hnewer
    rw [List.length_cons]
    exact Nat.lt_of_le_of_lt hshorter hnewer

/-- The newest links of a policy's ledger, newest first. -/
def linksOf (rows : List Row) : List (Option RuntimeMigration × ℕ) := (migrationRows rows).reverse

/-- The limits of a policy. -/
def limitsOf (seals : Seals) (policy : SignedPolicy) (rows : List Row) : Dict String (Option ℕ) :=
  limitsAlong seals [(seals.digest policy, none)] (linksOf rows)

theorem historicalPolicyLimits_ok (h : Descends seals policy (linksOf rows)) :
    historicalPolicyLimits seals policy rows = .ok (limitsOf seals policy rows) := by
  have hlength : (linksOf rows).length ≤ 16 := by
    have hle := h.length_le
    have hidx : runtimeOrder.idxOf policy.runtimeCodeHash ≤ runtimeOrder.length := List.idxOf_le_length
    have hsix : runtimeOrder.length = 6 := rfl
    omega
  obtain ⟨state, hloop, hlimits⟩ := ancestry_loop_ok ⟨policy, [(seals.digest policy, none)]⟩ h
  unfold historicalPolicyLimits
  simp only [bind_eq_ok_iff, ensure_eq_ok_iff, exists_and_left, exists_const, pure_eq_ok_iff]
  exact ⟨hlength, state, hloop, hlimits⟩

theorem historicalPolicyLimits_spec {limits : Dict String (Option ℕ)}
    (h : historicalPolicyLimits seals policy rows = .ok limits) :
    Descends seals policy (linksOf rows) ∧ limits = limitsOf seals policy rows := by
  unfold historicalPolicyLimits at h
  simp only [bind_eq_ok_iff, ensure_eq_ok_iff, exists_and_left, exists_const, pure_eq_ok_iff] at h
  obtain ⟨-, state, hloop, rfl⟩ := h
  exact ancestry_loop hloop

/-! ## One limit for each policy -/

/-- The revisions fall along the links. -/
theorem Descends.revision : ∀ {links : List (Option RuntimeMigration × ℕ)} {policy : SignedPolicy},
    Descends seals policy links → ∀ {body : RuntimeMigration} {rowId : ℕ}, (some body, rowId) ∈ links →
      body.toPolicy.revision ≤ policy.revision ∧ body.fromPolicy.revision < body.toPolicy.revision
  | row :: rest, policy, h, body, rowId, hmem => by
    obtain ⟨newest, hrow, hlink, hrest⟩ := h
    have hnext : newest.toPolicy.revision = newest.fromPolicy.revision + 1 := hlink.runtime.2.2.2.1
    rcases List.mem_cons.1 hmem with hhead | htail
    · rw [← hhead] at hrow
      cases hrow
      rw [hlink.current] at hnext ⊢
      omega
    · have hbelow := hrest.revision htail
      rw [hlink.current] at hnext
      omega

/-- A digest that no link names keeps its limit. -/
theorem get?_limitsAlong_of_ne {digest : String} : ∀ {links : List (Option RuntimeMigration × ℕ)}
    {limits : Dict String (Option ℕ)},
    (∀ body rowId, (some body, rowId) ∈ links → seals.digest body.fromPolicy ≠ digest) →
      (limitsAlong seals limits links).get? digest = limits.get? digest
  | [], _, _ => rfl
  | (none, _) :: rest, limits, h => by
    rw [limitsAlong]
    exact get?_limitsAlong_of_ne fun body rowId hmem => h body rowId (List.mem_cons_of_mem _ hmem)
  | (some newest, rowId) :: rest, limits, h => by
    rw [limitsAlong, get?_limitsAlong_of_ne fun body rowId hmem => h body rowId (List.mem_cons_of_mem _ hmem),
      Dict.get?_set, if_neg (h newest rowId List.mem_cons_self)]

/-- The limit of a replaced policy is the row that replaced it. -/
theorem get?_limitsAlong (hdigest : Function.Injective seals.digest) :
    ∀ {links : List (Option RuntimeMigration × ℕ)} {policy : SignedPolicy} {limits : Dict String (Option ℕ)},
      Descends seals policy links → ∀ {body : RuntimeMigration} {rowId : ℕ}, (some body, rowId) ∈ links →
        (limitsAlong seals limits links).get? (seals.digest body.fromPolicy) = some (some rowId)
  | row :: rest, policy, limits, h, body, rowId, hmem => by
    obtain ⟨newest, hrow, hlink, hrest⟩ := h
    obtain ⟨_, newestId⟩ := row
    cases hrow
    rw [limitsAlong]
    rcases List.mem_cons.1 hmem with hhead | htail
    · cases hhead
      rw [get?_limitsAlong_of_ne, Dict.get?_set, if_pos rfl]
      intro older olderId holder heq
      have hbelow := hrest.revision holder
      rw [hdigest heq] at hbelow
      omega
    · exact get?_limitsAlong hdigest hrest htail

section Limits

variable (hdigest : Function.Injective seals.digest) (h : Descends seals policy (linksOf rows))
include hdigest h

theorem get?_limitsOf_replaced {body : RuntimeMigration} {rowId : ℕ} (hmem : (some body, rowId) ∈ migrationRows rows) :
    (limitsOf seals policy rows).get? (seals.digest body.fromPolicy) = some (some rowId) :=
  get?_limitsAlong hdigest h (List.mem_reverse.2 hmem)

/-- The current policy has no limit. -/
theorem get?_limitsOf_current : (limitsOf seals policy rows).get? (seals.digest policy) = some none := by
  rw [limitsOf, get?_limitsAlong_of_ne]
  · simp [Dict.get?]
  · intro body rowId hmem heq
    have hbelow := h.revision hmem
    rw [hdigest heq] at hbelow
    omega

omit hdigest h in
/-- Only the current policy and replaced ones have limits. -/
theorem get?_limitsOf_cases {digest : String} {limit : Option ℕ}
    (hget : (limitsOf seals policy rows).get? digest = some limit) :
    digest = seals.digest policy ∨
      ∃ body rowId, (some body, rowId) ∈ migrationRows rows ∧ seals.digest body.fromPolicy = digest := by
  by_contra hnone
  push Not at hnone
  obtain ⟨hcurrent, hreplaced⟩ := hnone
  rw [limitsOf, linksOf, get?_limitsAlong_of_ne fun body rowId hmem =>
    hreplaced body rowId (List.mem_reverse.1 hmem)] at hget
  simp [Dict.get?, Ne.symm hcurrent] at hget

theorem admits_current (rowId : ℕ) : admits (limitsOf seals policy rows) (seals.digest policy) rowId = true := by
  unfold admits
  rw [get?_limitsOf_current hdigest h]

theorem admits_replaced {body : RuntimeMigration} {limit : ℕ} (hmem : (some body, limit) ∈ migrationRows rows)
    (rowId : ℕ) : admits (limitsOf seals policy rows) (seals.digest body.fromPolicy) rowId =
      decide (rowId < limit) := by
  unfold admits
  rw [get?_limitsOf_replaced hdigest h hmem]

/-- A replaced policy is not the current one. -/
theorem replaced_ne {body : RuntimeMigration} {limit : ℕ} (hmem : (some body, limit) ∈ migrationRows rows) :
    seals.digest body.fromPolicy ≠ seals.digest policy := by
  intro heq
  have hbelow := h.revision (List.mem_reverse.2 hmem)
  rw [hdigest heq] at hbelow
  omega

theorem historicalPolicyMatches_replaced {body : RuntimeMigration} {limit : ℕ}
    (hmem : (some body, limit) ∈ migrationRows rows) (rowId : ℕ) :
    historicalPolicyMatches seals policy rows (seals.digest body.fromPolicy) rowId = .ok (decide (rowId < limit)) := by
  unfold historicalPolicyMatches
  rw [if_neg (replaced_ne hdigest h hmem), historicalPolicyLimits_ok h]
  have hlimit := get?_limitsOf_replaced hdigest h hmem
  simp only [bind, Except.bind, hlimit]
  rfl

end Limits

/-! ## The rows of a migration and of a gain -/

theorem migrationRows_append (rows more : List Row) :
    migrationRows (rows ++ more) = migrationRows rows ++ (more.zipIdx (rows.length + 1)).filterMap Row.migration? := by
  unfold migrationRows
  rw [List.zipIdx_append, List.filterMap_append, Nat.add_comm]

theorem collectorEvents_append (rows more : List Row) :
    collectorEvents (rows ++ more) = collectorEvents rows ++ (more.zipIdx (rows.length + 1)).filterMap Row.event? := by
  unfold collectorEvents
  rw [List.zipIdx_append, List.filterMap_append, Nat.add_comm]

theorem armedRecords_append (events more : List (Event × ℕ)) :
    armedRecords (events ++ more) = armedRecords events ++ armedRecords more := List.filterMap_append

/-- Only a migration writes links. -/
theorem migrationRows_gain {more : List Row} {digest : String} (h : ∀ row ∈ more, row.WrittenUnder digest) :
    migrationRows (rows ++ more) = migrationRows rows := by
  rw [migrationRows_append, List.append_right_eq_self, List.filterMap_eq_nil_iff]
  rintro ⟨row, rowId⟩ hmem
  have hrow := h row (List.fst_mem_of_mem_zipIdx hmem)
  cases row with
  | event event => rfl
  | runtimeMigration body => exact hrow.elim
  | malformedMigration => exact hrow.elim
  | other => rfl

/-- The intents that are gained carry the pinned digest. -/
theorem armedRecords_gain {more : List Row} {digest : String} (h : ∀ row ∈ more, row.WrittenUnder digest)
    {record : (String × ManualTransfer) × ℕ} (hrecord : record ∈ armedRecords (collectorEvents (rows ++ more))) :
    record ∈ armedRecords (collectorEvents rows) ∨ record.1.1 = digest := by
  rw [collectorEvents_append, armedRecords_append, List.mem_append] at hrecord
  refine hrecord.imp id fun hrecord => ?_
  obtain ⟨⟨event, rowId⟩, hevent, hsome⟩ := List.mem_filterMap.1 hrecord
  obtain ⟨⟨row, rowId'⟩, hrow, hkind⟩ := List.mem_filterMap.1 hevent
  have hwritten := h row (List.fst_mem_of_mem_zipIdx hrow)
  cases row with
  | event written =>
    cases hkind
    cases event with
    | manualTransferArmed policy request =>
      cases hsome
      exact hwritten policy rfl
    | _ => cases hsome
  | _ => cases hkind

/-- The numbers of the rows. -/
theorem record_le {record : (String × ManualTransfer) × ℕ} (hrecord : record ∈ armedRecords (collectorEvents rows)) :
    record.2 ≤ rows.length := by
  obtain ⟨⟨event, rowId⟩, hevent, hsome⟩ := List.mem_filterMap.1 hrecord
  obtain ⟨⟨row, rowId'⟩, hrow, hkind⟩ := List.mem_filterMap.1 hevent
  have hlt := List.snd_lt_add_of_mem_zipIdx hrow
  have hids : record.2 = rowId' := by
    cases row with
    | event written =>
      cases hkind
      cases event with
      | manualTransferArmed policy request =>
        cases hsome
        rfl
      | _ => cases hsome
    | _ => cases hkind
  rw [hids]
  omega

/-- What a successful runtime migration has checked, and what it leaves. -/
structure Migrated (seals : Seals) (ledger : Ledger) (old new : SignedPolicy) (approval : Manifest)
    (signature : List UInt8) (ledger' : Ledger) : Prop where
  runtime : RuntimeOnly old new
  link : ledger.pin.2 = .transfer → Link seals new ⟨approval, signature, old, new⟩ (ledger.rows.length + 1)
  pin : ledger'.pin = (seals.digest new, ledger.pin.2)
  rows : ledger'.rows = ledger.rows ++ [.runtimeMigration ⟨approval, signature, old, new⟩]
  operations : ledger'.operations = ledger.operations

theorem migrate_spec (h : migrate seals ledger old new approval signature = .ok ledger')
    (hruntime : old.runtimeCodeHash ≠ new.runtimeCodeHash) :
    Migrated seals ledger old new approval signature ledger' := by
  unfold migrate describe at h
  simp only [bind_eq_ok_iff, ensure_eq_ok_iff, exists_and_left, exists_const, pure_eq_ok_iff] at h
  obtain ⟨hschema, -, hsigned, u, htransition, -, expected, hexpected, happroval, hledger⟩ := h
  obtain ⟨hpin, -, v, -, rfl⟩ := hexpected
  have honly := policyTransition_runtime htransition hruntime
  have hcoldkey : new.collectorColdkey = old.collectorColdkey :=
    congrArg CollectorPolicy.collectorColdkey (honly.collector "")
  refine ⟨honly, fun hrole => ?_, ?_, ?_, ?_⟩
  · have hrole' : approval.role = .transfer := by
      rw [hpin] at hrole
      exact hrole
    refine ⟨rfl, honly, hschema, hrole', ?_, ?_, ?_, ?_⟩
    · rw [happroval]
    · rw [happroval]
    · rw [happroval]
      rfl
    · rw [hcoldkey]
      exact hsigned
  · rw [← hledger]
  · rw [← hledger, migrationRow, if_pos hruntime]
  · rw [← hledger]

/-! ## The manual history across a migration -/

/-- Each intent carries the current digest or one that a link replaced. -/
def Known (seals : Seals) (policy : SignedPolicy) (rows : List Row) : Prop :=
  ∀ record ∈ armedRecords (collectorEvents rows), record.1.1 = seals.digest policy ∨
    ∃ body rowId, (some body, rowId) ∈ migrationRows rows ∧ seals.digest body.fromPolicy = record.1.1

/-- The history under some limits. -/
def historyUnder (seals : Seals) (policy : SignedPolicy) (limits : Dict String (Option ℕ)) (ledger : Ledger) :
    Except String (List ManualTransfer) := do
  let events := collectorEvents ledger.rows
  let records := armedRecords events
  ensure (records.length ≤ 100000) "manual history exceeds explicit bound"
  let expired := expiryRecords events
  ensure ((expired.map fun closure => closure.1.requestId).Nodup) "duplicate unsigned expiry"
  let state ← records.foldlM (ledgerStep (seals.custody policy) limits events) ⟨[], expired, [], 0, false, 0⟩
  ensure (state.expired = []) "unsigned expiry lacks its original manual intent"
  checkClaims (seals.custody policy) ledger.operations state.requests
  pure state.requests

theorem custody_under (seals : Seals) (policy : SignedPolicy) (digest : String) :
    (seals.custody policy).under digest = ⟨policy.collector digest, seals.requestDigest, seals.verifyLimit⟩ := rfl

/-- The claims are checked against the destinations only. -/
theorem checkClaims_under (custody : Custody) (digest : String) (operations : List Operation) :
    ∀ requests, checkClaims (custody.under digest) operations requests = checkClaims custody operations requests
  | [] => rfl
  | request :: rest => by
    rw [checkClaims, checkClaims, checkClaims_under custody digest operations rest]
    rfl

/-- Two ledgers with the same events and claims, under policies that the collector reads alike and limits that admit the
same intents, have the same history. -/
theorem historyUnder_congr {limits limits' : Dict String (Option ℕ)}
    (hevents : collectorEvents ledger'.rows = collectorEvents ledger.rows)
    (hoperations : ledger'.operations = ledger.operations)
    (hcollector : ∀ digest, new.collector digest = old.collector digest)
    (hlimits : ∀ record ∈ armedRecords (collectorEvents ledger.rows),
      admits limits' record.1.1 record.2 = admits limits record.1.1 record.2) :
    historyUnder seals new limits' ledger' = historyUnder seals old limits ledger := by
  have hstep : ∀ events state, ∀ record ∈ armedRecords (collectorEvents ledger.rows),
      ledgerStep (seals.custody new) limits' events state record =
        ledgerStep (seals.custody old) limits events state record := by
    intro events state record hrecord
    unfold ledgerStep
    rw [hlimits record hrecord, custody_under, hcollector, ← custody_under]
  have hclaims : ∀ requests, checkClaims (seals.custody new) ledger.operations requests =
      checkClaims (seals.custody old) ledger.operations requests := by
    intro requests
    rw [← checkClaims_under _ "", custody_under, hcollector, ← custody_under, checkClaims_under]
  unfold historyUnder
  rw [hevents, hoperations]
  simp only [hclaims]
  rw [foldlM_congr fun state record hrecord => hstep _ state record hrecord]

section History

variable (hdigest : Function.Injective seals.digest) (h : Descends seals policy (linksOf ledger.rows))
include hdigest h

/-- An intent that carries the current digest needs no ancestry. -/
theorem manualTransferHistory_eq :
    ledger.manualTransferHistory seals policy =
      historyUnder seals policy (limitsOf seals policy ledger.rows) ledger := by
  unfold Ledger.manualTransferHistory
  dsimp only
  split
  · rw [historicalPolicyLimits_ok h]
    rfl
  · rename_i hcurrent
    push Not at hcurrent
    have hsame : historyUnder seals policy [(seals.digest policy, none)] ledger =
        historyUnder seals policy (limitsOf seals policy ledger.rows) ledger := by
      refine historyUnder_congr rfl rfl (fun _ => rfl) fun record hrecord => ?_
      rw [hcurrent record hrecord, admits_current hdigest h]
      simp [admits, Dict.get?]
    rw [← hsame]
    rfl

/-- The intents of an accepted history are known. -/
theorem known_of_history {requests : List ManualTransfer}
    (hhistory : ledger.manualTransferHistory seals policy = .ok requests) : Known seals policy ledger.rows := by
  rw [manualTransferHistory_eq hdigest h] at hhistory
  unfold historyUnder at hhistory
  simp only [bind_eq_ok_iff, ensure_eq_ok_iff, exists_and_left, exists_const, pure_eq_ok_iff] at hhistory
  obtain ⟨-, -, state, hloop, -⟩ := hhistory
  have hadmitted : ∀ record ∈ armedRecords (collectorEvents ledger.rows),
      admits (limitsOf seals policy ledger.rows) record.1.1 record.2 = true := by
    refine foldlM_inv (P := fun done _ => ∀ record ∈ done,
      admits (limitsOf seals policy ledger.rows) record.1.1 record.2 = true) ?_ _ [] (by simp) hloop
    intro done s s' record hdone hstep other hother
    rcases List.mem_append.1 hother with hother | hother
    · exact hdone other hother
    · rw [List.mem_singleton.1 hother]
      unfold ledgerStep at hstep
      simp only [bind_eq_ok_iff, ensure_eq_ok_iff, exists_and_left, exists_const] at hstep
      exact hstep.2.1
  intro record hrecord
  have hadmit := hadmitted record hrecord
  unfold admits at hadmit
  cases hget : (limitsOf seals policy ledger.rows).get? record.1.1 with
  | none =>
    rw [hget] at hadmit
    cases hadmit
  | some limit => exact get?_limitsOf_cases hget

end History

/-- The links after a migration. -/
theorem Migrated.links (h : Migrated seals ledger old new approval signature ledger') :
    migrationRows ledger'.rows =
      migrationRows ledger.rows ++ [(some ⟨approval, signature, old, new⟩, ledger.rows.length + 1)] := by
  rw [h.rows, migrationRows_append]
  rfl

theorem Migrated.events (h : Migrated seals ledger old new approval signature ledger') :
    collectorEvents ledger'.rows = collectorEvents ledger.rows := by
  rw [h.rows, collectorEvents_append]
  exact List.append_nil _

theorem Migrated.descends (h : Migrated seals ledger old new approval signature ledger')
    (hrole : ledger.pin.2 = .transfer) (hdescends : Descends seals old (linksOf ledger.rows)) :
    Descends seals new (linksOf ledger'.rows) := by
  unfold linksOf
  rw [h.links, List.reverse_append]
  exact ⟨_, rfl, h.link hrole, hdescends⟩

/-- A migration changes nothing that the manual history answers. -/
theorem history_migrate (hdigest : Function.Injective seals.digest)
    (h : Migrated seals ledger old new approval signature ledger') (hrole : ledger.pin.2 = .transfer)
    (hdescends : Descends seals old (linksOf ledger.rows)) (hknown : Known seals old ledger.rows) :
    ledger'.manualTransferHistory seals new = ledger.manualTransferHistory seals old := by
  have hdescends' := h.descends hrole hdescends
  rw [manualTransferHistory_eq hdigest hdescends', manualTransferHistory_eq hdigest hdescends]
  refine historyUnder_congr h.events h.operations h.runtime.collector fun record hrecord => ?_
  rcases hknown record hrecord with hcurrent | ⟨body, rowId, hmem, hreplaced⟩
  · -- the policy that this migration replaces: every intent is in an earlier row
    have hnewest : (some ⟨approval, signature, old, new⟩, ledger.rows.length + 1) ∈ migrationRows ledger'.rows := by
      rw [h.links]
      exact List.mem_append_right _ (List.mem_singleton.2 rfl)
    have hbefore := record_le hrecord
    have hnew := admits_replaced hdigest hdescends' hnewest record.2
    rw [hcurrent, admits_current hdigest hdescends]
    rw [hnew, decide_eq_true_eq]
    omega
  · have hmem' : (some body, rowId) ∈ migrationRows ledger'.rows := by
      rw [h.links]
      exact List.mem_append_left _ hmem
    rw [← hreplaced, admits_replaced hdigest hdescends hmem, admits_replaced hdigest hdescends' hmem']

/-! ## Other journals -/

/-- What a link says: the policies, the signed manifest and the row. -/
def linkData (row : Option RuntimeMigration × ℕ) : Option (SignedPolicy × SignedPolicy × Manifest) × ℕ :=
  (row.1.map fun body => (body.fromPolicy, body.toPolicy, body.manifest), row.2)

/-- The row of a link follows from its manifest. -/
theorem Descends.positive : ∀ {links : List (Option RuntimeMigration × ℕ)} {policy : SignedPolicy},
    Descends seals policy links → ∀ row ∈ links, ∃ body, row.1 = some body ∧ Link seals body.toPolicy body row.2
  | newest :: rest, policy, h, row, hmem => by
    obtain ⟨body, hbody, hlink, hrest⟩ := h
    rcases List.mem_cons.1 hmem with rfl | htail
    · refine ⟨body, hbody, ?_⟩
      rw [hlink.current]
      exact hlink
    · exact hrest.positive row htail

/-- Links whose manifests are all among those of another ancestry of the same policy are its newest links. -/
theorem descends_prefix (hdigest : Function.Injective seals.digest) :
    ∀ {links links' : List (Option RuntimeMigration × ℕ)} {policy : SignedPolicy}, Descends seals policy links →
      Descends seals policy links' → (∀ row ∈ links, 0 < row.2) → (∀ row ∈ links', 0 < row.2) →
      (∀ body' rowId', (some body', rowId') ∈ links' →
        ∃ body rowId, (some body, rowId) ∈ links ∧ body.manifest = body'.manifest) →
      links'.map linkData <+: links.map linkData
  | links, [], _, _, _, _, _, _ => by
    rw [List.map_nil]
    exact List.nil_prefix
  | [], (_, rowId') :: _, _, _, h', _, _, hsigned => by
    obtain ⟨body', rfl, -⟩ := h'
    obtain ⟨_, _, hmem, -⟩ := hsigned body' rowId' List.mem_cons_self
    cases hmem
  | (_, rowId) :: rest, (_, rowId') :: rest', policy, h, h', hpos, hpos', hsigned => by
    obtain ⟨body, rfl, hlink, hrest⟩ := h
    obtain ⟨body', rfl, hlink', hrest'⟩ := h'
    have hnext : body.toPolicy.revision = body.fromPolicy.revision + 1 := hlink.runtime.2.2.2.1
    have hnext' : body'.toPolicy.revision = body'.fromPolicy.revision + 1 := hlink'.runtime.2.2.2.1
    -- a manifest that leads to the current policy is the newest one
    have hmanifest : body.manifest = body'.manifest := by
      obtain ⟨signed, signedId, hmem, heq⟩ := hsigned body' rowId' List.mem_cons_self
      rcases List.mem_cons.1 hmem with hhead | htail
      · cases hhead
        exact heq
      · obtain ⟨_, ⟨⟩, hsignedLink⟩ := hrest.positive _ htail
        have hto : seals.digest signed.toPolicy = seals.digest body'.toPolicy := by
          rw [← hsignedLink.toDigest, ← hlink'.toDigest, heq]
        have hbelow := hrest.revision htail
        rw [hdigest hto, hlink'.current, ← hlink.current] at hbelow
        omega
    have hfrom : body.fromPolicy = body'.fromPolicy := by
      apply hdigest
      rw [← hlink.fromDigest, ← hlink'.fromDigest, hmanifest]
    have hrow : rowId = rowId' := by
      have hcount := hlink.count
      have hcount' := hlink'.count
      rw [hmanifest] at hcount
      have hp := hpos _ List.mem_cons_self
      have hp' := hpos' _ List.mem_cons_self
      dsimp only at hcount hcount' hp hp'
      omega
    have hrestSigned : ∀ older' olderId', (some older', olderId') ∈ rest' →
        ∃ older olderId, (some older, olderId) ∈ rest ∧ older.manifest = older'.manifest := by
      intro older' olderId' holder'
      obtain ⟨older, olderId, hmem, heq⟩ := hsigned older' olderId' (List.mem_cons_of_mem _ holder')
      rcases List.mem_cons.1 hmem with hhead | htail
      · cases hhead
        obtain ⟨_, ⟨⟩, holderLink⟩ := hrest'.positive _ holder'
        have hto : seals.digest body.toPolicy = seals.digest older'.toPolicy := by
          rw [← hlink.toDigest, ← holderLink.toDigest, heq]
        have hbelow := hrest'.revision holder'
        rw [← hdigest hto, hlink.current, ← hlink'.current] at hbelow
        omega
      · exact ⟨older, olderId, htail, heq⟩
    have hprefix := descends_prefix hdigest hrest (hfrom ▸ hrest')
        (fun row hmem => hpos row (List.mem_cons_of_mem _ hmem))
      (fun row hmem => hpos' row (List.mem_cons_of_mem _ hmem)) hrestSigned
    have hhead : linkData (some body', rowId') = linkData (some body, rowId) := by
      simp only [linkData, Option.map_some, hrow, hmanifest, hfrom, hlink.current, hlink'.current]
    rw [List.map_cons, List.map_cons, hhead]
    exact List.prefix_cons_inj _ |>.2 hprefix

theorem migrationRows_pos {row : Option RuntimeMigration × ℕ} (hrow : row ∈ migrationRows rows) : 0 < row.2 := by
  obtain ⟨⟨written, rowId⟩, hmem, hkind⟩ := List.mem_filterMap.1 hrow
  have hle := List.le_snd_of_mem_zipIdx hmem
  cases written with
  | event | other => cases hkind
  | runtimeMigration body =>
    cases hkind
    exact hle
  | malformedMigration =>
    cases hkind
    exact hle

/-- The cold key of a policy has signed only the manifests of some rows. -/
def SignedOnly (seals : Seals) (policy : SignedPolicy) (rows : List Row) : Prop :=
  ∀ manifest signature, seals.verify policy.collectorColdkey (seals.manifestDigest manifest) signature = true →
    ∃ body rowId, (some body, rowId) ∈ migrationRows rows ∧ body.manifest = manifest

/-- The cold key is the same along the links. -/
theorem Descends.coldkey : ∀ {links : List (Option RuntimeMigration × ℕ)} {policy : SignedPolicy},
    Descends seals policy links → ∀ {body : RuntimeMigration} {rowId : ℕ}, (some body, rowId) ∈ links →
      seals.verify policy.collectorColdkey (seals.manifestDigest body.manifest) body.signature = true
  | (_, newestId) :: rest, policy, h, body, rowId, hmem => by
    obtain ⟨newest, rfl, hlink, hrest⟩ := h
    rcases List.mem_cons.1 hmem with hhead | htail
    · cases hhead
      exact hlink.signed
    · have hsame : newest.fromPolicy.collectorColdkey = policy.collectorColdkey := by
        rw [← hlink.current]
        exact (congrArg CollectorPolicy.collectorColdkey (hlink.runtime.collector "")).symm
      rw [← hsame]
      exact hrest.coldkey htail

/-- Another journal that is accepted for the same policy has the same newest links. -/
theorem suffix_of_accepted (hdigest : Function.Injective seals.digest) (h : Descends seals policy (linksOf rows))
    {rows' : List Row} (h' : Descends seals policy (linksOf rows')) (hsigned : SignedOnly seals policy rows) :
    (migrationRows rows').map linkData <:+ (migrationRows rows).map linkData := by
  have hprefix := descends_prefix hdigest h h' (fun row hmem => migrationRows_pos (List.mem_reverse.1 hmem))
    (fun row hmem => migrationRows_pos (List.mem_reverse.1 hmem)) fun body' rowId' hmem => by
      obtain ⟨body, rowId, hbody, heq⟩ := hsigned body'.manifest body'.signature (h'.coldkey hmem)
      exact ⟨body, rowId, List.mem_reverse.2 hbody, heq⟩
  unfold linksOf at hprefix
  rw [List.map_reverse, List.map_reverse] at hprefix
  exact List.reverse_prefix.1 hprefix

/-! ## Runs -/

/-- What a run of migrations keeps. -/
structure Sound (seals : Seals) (chronicle : Chronicle) : Prop where
  pin : chronicle.ledger.pin = (seals.digest chronicle.policy, .transfer)
  descends : Descends seals chronicle.policy (linksOf chronicle.ledger.rows)
  known : Known seals chronicle.policy chronicle.ledger.rows
  vetted : (chronicle.ledger.manualTransferHistory seals chronicle.policy).toOption = chronicle.vetted
  replaced : ∀ p n, (p, n) ∈ chronicle.replaced →
    ∃ body, (some body, n) ∈ migrationRows chronicle.ledger.rows ∧ body.fromPolicy = p

theorem Sound.gain {chronicle : Chronicle} (h : Sound seals chronicle) (gain : Gain) :
    Sound seals (migrationAct seals chronicle (.gain gain)) := by
  rw [migrationAct]
  split
  · rename_i hwritten
    have hlinks : migrationRows (chronicle.ledger.gain gain).rows = migrationRows chronicle.ledger.rows :=
      migrationRows_gain hwritten
    refine ⟨h.pin, ?_, ?_, rfl, ?_⟩
    · show Descends seals chronicle.policy (linksOf (chronicle.ledger.gain gain).rows)
      rw [linksOf, hlinks]
      exact h.descends
    · intro record hrecord
      rcases armedRecords_gain hwritten hrecord with hrecord | hrecord
      · rw [hlinks]
        exact h.known record hrecord
      · exact .inl hrecord
    · rw [hlinks]
      exact h.replaced
  · exact h

theorem Sound.migrate {chronicle : Chronicle} (hdigest : Function.Injective seals.digest) (h : Sound seals chronicle)
    (new : SignedPolicy) (approval : Manifest) (signature : List UInt8) :
    Sound seals (migrationAct seals chronicle (.migrate new approval signature)) := by
  rw [migrationAct]
  split
  · exact h
  · rename_i hruntime
    split
    · rename_i ledger' hmigrate
      have hmigrated := migrate_spec hmigrate hruntime
      have hrole : chronicle.ledger.pin.2 = .transfer := by
        rw [h.pin]
      refine ⟨?_, hmigrated.descends hrole h.descends, ?_, ?_, ?_⟩
      · rw [hmigrated.pin, hrole]
      · intro record hrecord
        rw [hmigrated.events] at hrecord
        rw [hmigrated.links]
        right
        rcases h.known record hrecord with hcurrent | ⟨body, rowId, hmem, hreplaced⟩
        · exact ⟨_, _, List.mem_append_right _ (List.mem_singleton.2 rfl), hcurrent.symm⟩
        · exact ⟨body, rowId, List.mem_append_left _ hmem, hreplaced⟩
      · rw [history_migrate hdigest hmigrated hrole h.descends h.known]
        exact h.vetted
      · intro p n hmem
        rw [hmigrated.links]
        rcases List.mem_append.1 hmem with hmem | hmem
        · obtain ⟨body, hbody, hfrom⟩ := h.replaced p n hmem
          exact ⟨body, List.mem_append_left _ hbody, hfrom⟩
        · cases List.mem_singleton.1 hmem
          exact ⟨_, List.mem_append_right _ (List.mem_singleton.2 rfl), rfl⟩
    · exact h

theorem sound_after (hdigest : Function.Injective seals.digest) (hpin : ledger.pin = (seals.digest policy, .transfer))
    {limits : Dict String (Option ℕ)} (hancestry : historicalPolicyLimits seals policy ledger.rows = .ok limits)
    {requests : List ManualTransfer} (haccepted : ledger.manualTransferHistory seals policy = .ok requests)
    (actions : List MigrationAction) : Sound seals (chronicleAfter seals policy ledger actions) := by
  have hdescends := (historicalPolicyLimits_spec hancestry).1
  refine run_inv (fun chronicle action h => ?_) actions
    ⟨hpin, hdescends, known_of_history hdigest hdescends haccepted, rfl, ?_⟩
  · cases action with
    | gain gain => exact h.gain gain
    | migrate new approval signature => exact h.migrate hdigest new approval signature
  · intro p n hmem
    cases hmem

/-- Migrations alone leave the vetted requests as they are. -/
theorem vetted_of_migrations {chronicle : Chronicle} : ∀ {actions : List MigrationAction},
    (∀ action ∈ actions, ∃ new approval signature, action = .migrate new approval signature) →
      (run (migrationAct seals) chronicle actions).vetted = chronicle.vetted := by
  intro actions hactions
  refine run_inv_mem (P := fun c : Chronicle => c.vetted = chronicle.vetted) (fun c action hmem h => ?_) rfl
  obtain ⟨new, approval, signature, rfl⟩ := hactions action hmem
  rw [migrationAct]
  split
  · exact h
  · split <;> exact h

/-- Over any run of runtime migrations and of rows written under the policy pinned then: the manual history answers what
it answered when the last row was written, so that migrations alone keep the accepted requests; an earlier policy is
admitted exactly below the row that replaced it; and when the cold key signed no other manifests, the ancestry of
another journal of the policy is accepted only with the same newest links in the same rows, and admits only the policies
that these links replace. -/
theorem migration_keeps_history (seals : Seals) (policy : SignedPolicy) (ledger : Ledger)
    (actions : List MigrationAction)
    (limits : Dict String (Option ℕ)) (requests : List ManualTransfer) (hdigest : Function.Injective seals.digest)
    (hpin : ledger.pin = (seals.digest policy, .transfer))
    (hancestry : historicalPolicyLimits seals policy ledger.rows = .ok limits)
    (haccepted : ledger.manualTransferHistory seals policy = .ok requests) :
    let now := chronicleAfter seals policy ledger actions
    (now.ledger.manualTransferHistory seals now.policy).toOption = now.vetted ∧
    ((∀ action ∈ actions, ∃ new approval signature, action = .migrate new approval signature) →
      now.ledger.manualTransferHistory seals now.policy = .ok requests) ∧
    (∃ limits, historicalPolicyLimits seals now.policy now.ledger.rows = .ok limits ∧
      ∀ p n, (p, n) ∈ now.replaced → ∀ rowId, (admits limits (seals.digest p) rowId = true ↔ rowId < n) ∧
        historicalPolicyMatches seals now.policy now.ledger.rows (seals.digest p) rowId = .ok (decide (rowId < n))) ∧
    (SignedOnly seals now.policy now.ledger.rows → ∀ rows' limits',
      historicalPolicyLimits seals now.policy rows' = .ok limits' →
      (migrationRows rows').map linkData <:+ (migrationRows now.ledger.rows).map linkData ∧
      ∀ p rowId, admits limits' (seals.digest p) rowId = true → p ≠ now.policy →
        ∃ body n, (some body, n) ∈ migrationRows rows' ∧ body.fromPolicy = p ∧ rowId < n) := by
  intro now
  have hsound : Sound seals now := sound_after hdigest hpin hancestry haccepted actions
  refine ⟨hsound.vetted, ?_, ?_, ?_⟩
  · intro hmigrations
    have hvetted : now.vetted = some requests := by
      have hsame : now.vetted = (openChronicle seals policy ledger).vetted := vetted_of_migrations hmigrations
      rw [hsame, openChronicle, haccepted]
      rfl
    have hhistory := hsound.vetted
    rw [hvetted] at hhistory
    cases hresult : now.ledger.manualTransferHistory seals now.policy with
    | error message =>
      rw [hresult] at hhistory
      cases hhistory
    | ok answered =>
      rw [hresult] at hhistory
      cases hhistory
      rfl
  · refine ⟨_, historicalPolicyLimits_ok hsound.descends, fun p n hmem rowId => ?_⟩
    obtain ⟨body, hbody, rfl⟩ := hsound.replaced p n hmem
    rw [admits_replaced hdigest hsound.descends hbody, decide_eq_true_eq]
    exact ⟨Iff.rfl, historicalPolicyMatches_replaced hdigest hsound.descends hbody rowId⟩
  · intro hsigned rows' limits' haccepted'
    obtain ⟨hdescends', rfl⟩ := historicalPolicyLimits_spec haccepted'
    refine ⟨suffix_of_accepted hdigest hsound.descends hdescends' hsigned, fun p rowId hadmits hne => ?_⟩
    have hget : ∃ limit, (limitsOf seals now.policy rows').get? (seals.digest p) = some limit := by
      cases hget : (limitsOf seals now.policy rows').get? (seals.digest p) with
      | none =>
        rw [admits, hget] at hadmits
        cases hadmits
      | some limit => exact ⟨limit, rfl⟩
    obtain ⟨limit, hget⟩ := hget
    rcases get?_limitsOf_cases hget with hcurrent | ⟨body, n, hmem, hfrom⟩
    · exact absurd (hdigest hcurrent) hne
    · obtain rfl := hdigest hfrom
      rw [admits_replaced hdigest hdescends' hmem, decide_eq_true_eq] at hadmits
      exact ⟨body, n, hmem, rfl, hadmits⟩

/-! ## A journal with a foreign row, and a journal without its link -/

section Sample

/-- The text of a number. -/
def sampleText (n : ℕ) : String := String.ofList (List.replicate n '0')

theorem sampleText_injective : Function.Injective sampleText := by
  intro m n h
  have hlist : List.replicate m '0' = List.replicate n '0' := by
    simpa [sampleText] using congrArg String.toList h
  simpa using congrArg List.length hlist

def sampleChars (s : String) : List ℕ := s.toList.map Char.toNat

theorem sampleChars_injective : Function.Injective sampleChars := by
  intro s t h
  exact String.toList_injective (List.map_injective_iff.2 (fun _ _ hc => Char.toNat_inj.1 hc) h)

/-- All fields of a policy. -/
def sampleKey (policy : SignedPolicy) : List (List ℕ) × List ℕ × List (List ℕ × ℕ × List ℕ) × Bool :=
  ([policy.genesisHash, policy.runtimeCodeHash, policy.collectorColdkey, policy.collectorHotkey,
      policy.registrationDelegate, policy.transferDelegate, policy.gcpProject, policy.registrationServiceAccount,
      policy.transferServiceAccount].map sampleChars,
    [policy.revision, policy.startBlock, policy.maxRegistrationBurnRao, policy.registrationBudgetRao, policy.maxFeeRao,
      policy.feeReserveRao, policy.recoveryCooldownBlocks, policy.distributionIntervalBlocks, policy.maxDistributionRao,
      policy.registrationSecretVersion, policy.transferSecretVersion],
    policy.destinations.map fun d => (sampleChars d.bucketId, d.allocationBps, sampleChars d.holdingColdkey),
    policy.enabled)

theorem sampleKey_injective : Function.Injective sampleKey := by
  intro p q h
  have hdest : Function.Injective fun d : ServiceDestination =>
      (sampleChars d.bucketId, d.allocationBps, sampleChars d.holdingColdkey) := by
    intro d e hde
    simp only [Prod.mk.injEq, sampleChars_injective.eq_iff] at hde
    cases d
    cases e
    simpa using hde
  simp only [sampleKey, Prod.mk.injEq, List.map_cons, List.map_nil, List.cons.injEq, sampleChars_injective.eq_iff,
    (List.map_injective_iff.2 hdest).eq_iff] at h
  cases p
  cases q
  simp only [SignedPolicy.mk.injEq]
  tauto

/-- The policies before and after a runtime migration. -/
def sampleRuntime (revision : ℕ) (runtimeCodeHash : String) : SignedPolicy where
  genesisHash := "0x2f0555cc76fc2840a25a6ea3b9637146806f1f44b090c175ffde2a7e5ab36c03"
  runtimeCodeHash := runtimeCodeHash
  collectorColdkey := "cold"
  collectorHotkey := "hot"
  registrationDelegate := "registration"
  transferDelegate := "transfer"
  revision := revision
  startBlock := 1
  destinations := [⟨"operations", 10000, "wallet"⟩]
  maxRegistrationBurnRao := 1
  registrationBudgetRao := 1
  maxFeeRao := 1
  feeReserveRao := 1
  recoveryCooldownBlocks := 1
  distributionIntervalBlocks := 1
  maxDistributionRao := 1000
  gcpProject := "sn118-gamma-custody"
  registrationServiceAccount := "sn118-collector-registration@sn118-gamma-custody.iam.gserviceaccount.com"
  transferServiceAccount := "sn118-collector-transfer@sn118-gamma-custody.iam.gserviceaccount.com"
  registrationSecretVersion := 1
  transferSecretVersion := 1
  enabled := true
  bounded := by decide
  reserve := by decide
  destinations_valid := ⟨by decide, by decide, by decide, by decide, by decide⟩

def sampleOld : SignedPolicy := sampleRuntime 1 historicalCodeHash
def sampleNew : SignedPolicy := sampleRuntime 2 v473CodeHash

/-- The two policies have short digests. -/
def sampleDigest (policy : SignedPolicy) : String :=
  if policy = sampleOld then "old"
  else if policy = sampleNew then "new"
  else sampleText (Encodable.encode (sampleKey policy))

theorem sampleDigest_old : sampleDigest sampleOld = "old" := if_pos rfl

theorem sampleText_ne {n : ℕ} {s : String} {c : Char} (hc : c ∈ s.toList) (hzero : c ≠ '0') : sampleText n ≠ s := by
  rintro rfl
  rw [sampleText, String.toList_ofList] at hc
  exact hzero (List.eq_of_mem_replicate hc)

theorem sampleDigest_injective : Function.Injective sampleDigest := by
  intro p q h
  have hold (n : ℕ) : sampleText n ≠ "old" := sampleText_ne (c := 'o') (by decide) (by decide)
  have hnew (n : ℕ) : sampleText n ≠ "new" := sampleText_ne (c := 'n') (by decide) (by decide)
  have hne : "old" ≠ "new" := by decide
  unfold sampleDigest at h
  split_ifs at h with hp hq hq hp' hq hq hq hq'
  · rw [hp, hq]
  · exact absurd h hne
  · exact absurd h.symm (hold _)
  · exact absurd h hne.symm
  · rw [hp', hq]
  · exact absurd h.symm (hnew _)
  · exact absurd h (hold _)
  · exact absurd h (hnew _)
  · exact sampleKey_injective (Encodable.encode_injective (sampleText_injective h))

/-- A journal of the first policy. -/
def sampleLedger (operations : List Operation) (rows : List Row) : Ledger :=
  ⟨("old", .transfer), 9, [], operations, rows⟩

/-- What the cold key signs for a journal. -/
def sampleApproval (ledger : Ledger) : Manifest :=
  ⟨migrationSchema, .transfer, "old", "new", sampleText ledger.rows.length, sampleText ledger.rows.length,
    ledger.cursor, ⟨1, ledger.earnings.length, ledger.operations.length, ledger.rows.length⟩, 0⟩

/-- A finalized transfer from block 10. -/
def samplePaid (id amount : ℕ) : Operation :=
  ⟨id, .finalized, .transfer, amount, some 10, some "operations", some "wallet",
    .transferStake "wallet" "hot" 118 118 amount, ⟨"bytes", "extrinsic", 20, 84, 1⟩, 20,
    some ⟨.finalized, some 21, some "block", none, none, some 0, some "extrinsic"⟩, 0⟩

/-- A claim under a canary, and a batch that is armed and then paid. -/
def paidLedger : Ledger :=
  sampleLedger [samplePaid 1 40, samplePaid 2 30]
    [.event (.transferCanaryArmed "old" ⟨40, 0, by decide, by decide⟩),
      .event (.dispatchReserved "extrinsic" "old" .transfer),
      .event (.manualTransferArmed "old" (sampleIntent (sampleLimit "old" "cold"))),
      .event (.dispatchReserved "extrinsic" "old" .transfer), .other]

/-- The journals of which the cold key has signed the migration. -/
def sampleLedgers : List Ledger := [sampleLedger [] [], sampleLedger [] [.malformedMigration], paidLedger]

def sampleSignature : List UInt8 := List.replicate 64 7

/-- The signed manifests are numbered. -/
def sampleSeals : Seals where
  digest := sampleDigest
  requestDigest request := request.requestId
  verifyLimit approval := approval.signature = "limit"
  manifestDigest manifest := sampleText ((sampleLedgers.map sampleApproval).idxOf manifest)
  verify coldkey message signature := decide (coldkey = "cold" ∧ signature = sampleSignature ∧
    message ∈ (List.range sampleLedgers.length).map sampleText)
  sourceSha256 ledger := sampleText ledger.rows.length
  historySha256 ledger := sampleText ledger.rows.length

/-- The journal after its migration. -/
def sampleMigrated (ledger : Ledger) : Ledger :=
  { ledger with
    pin := ("new", .transfer)
    rows := ledger.rows ++ [.runtimeMigration ⟨sampleApproval ledger, sampleSignature, sampleOld, sampleNew⟩] }

theorem sample_runtimeOnly : RuntimeOnly sampleOld sampleNew := by decide +kernel

theorem sample_migrate : ∀ ledger ∈ sampleLedgers,
    migrate sampleSeals ledger sampleOld sampleNew (sampleApproval ledger) sampleSignature =
      .ok (sampleMigrated ledger) := by
  decide +kernel

end Sample

/-- A journal with a row that is no migration of its policy is accepted, but after a migration its own policy is not
admitted below the row that replaced it; and a migrated journal is accepted without its only link. -/
theorem foreign_row_and_missed_link :
    Function.Injective sampleSeals.digest ∧
    ((sampleLedger [] [.malformedMigration]).manualTransferHistory sampleSeals sampleOld = .ok [] ∧
      migrate sampleSeals (sampleLedger [] [.malformedMigration]) sampleOld sampleNew
        (sampleApproval (sampleLedger [] [.malformedMigration])) sampleSignature =
        .ok (sampleMigrated (sampleLedger [] [.malformedMigration])) ∧
      historicalPolicyMatches sampleSeals sampleNew (sampleMigrated (sampleLedger [] [.malformedMigration])).rows
        (sampleSeals.digest sampleOld) 1 ≠ .ok true) ∧
    (migrate sampleSeals (sampleLedger [] []) sampleOld sampleNew (sampleApproval (sampleLedger [] []))
        sampleSignature = .ok (sampleMigrated (sampleLedger [] [])) ∧
      historicalPolicyLimits sampleSeals sampleNew [] = .ok [(sampleSeals.digest sampleNew, none)]) :=
  ⟨sampleDigest_injective,
    ⟨by decide +kernel, sample_migrate _ (.tail _ (.head _)), by decide +kernel⟩, sample_migrate _ (.head _), rfl⟩

theorem chronicleAfter_migrate {approval : Manifest} {signature : List UInt8}
    (hmigrate : migrate seals ledger old new approval signature = .ok ledger')
    (hruntime : old.runtimeCodeHash ≠ new.runtimeCodeHash) :
    chronicleAfter seals old ledger [.migrate new approval signature] =
      ⟨new, ledger', [(old, ledger.rows.length + 1)], (ledger.manualTransferHistory seals old).toOption⟩ := by
  have hact : chronicleAfter seals old ledger [.migrate new approval signature] =
      migrationAct seals (openChronicle seals old ledger) (.migrate new approval signature) := rfl
  rw [hact, migrationAct, openChronicle, if_neg hruntime, hmigrate]
  rfl

/-- The migration of the journal with an armed and paid intent: the intent stays accepted, and its policy is admitted
below the row of the migration. -/
theorem migration_keeps_history_sample :
    (chronicleAfter sampleSeals sampleOld paidLedger
      [.migrate sampleNew (sampleApproval paidLedger) sampleSignature]).policy = sampleNew ∧
    (sampleMigrated paidLedger).manualTransferHistory sampleSeals sampleNew =
      .ok [sampleIntent (sampleLimit "old" "cold")] ∧
    ∀ rowId, historicalPolicyMatches sampleSeals sampleNew (sampleMigrated paidLedger).rows "old" rowId =
      .ok (decide (rowId < 6)) := by
  have hmigrate := sample_migrate paidLedger (.tail _ (.tail _ (.head _)))
  have hpin : paidLedger.pin = (sampleSeals.digest sampleOld, .transfer) := by decide +kernel
  have hancestry : historicalPolicyLimits sampleSeals sampleOld paidLedger.rows =
      .ok [(sampleSeals.digest sampleOld, none)] := by decide +kernel
  have haccepted : paidLedger.manualTransferHistory sampleSeals sampleOld =
      .ok [sampleIntent (sampleLimit "old" "cold")] := by decide +kernel
  have hafter := chronicleAfter_migrate hmigrate sample_runtimeOnly.hash_ne
  have hkept := migration_keeps_history sampleSeals sampleOld paidLedger
    [.migrate sampleNew (sampleApproval paidLedger) sampleSignature] _ _ sampleDigest_injective hpin hancestry haccepted
  rw [hafter] at hkept ⊢
  obtain ⟨-, hhistory, ⟨limits, -, hadmits⟩, -⟩ := hkept
  refine ⟨rfl, hhistory fun action haction => ⟨_, _, _, List.mem_singleton.1 haction⟩, fun rowId => ?_⟩
  have hmatches := (hadmits sampleOld 6 (by decide +kernel) rowId).2
  rw [← sampleDigest_old]
  exact hmatches

end DittoSubnet.Treasury

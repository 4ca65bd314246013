import DittoSubnet.Treasury.Journal

/-!
# Offline migrations of a journal

`ditto/treasury/collector_migration.py` and the part of `ditto/treasury/collector.py` that reads its events: a migration
moves the pin of a journal to another policy under a cold signature (`migrate`), and a runtime migration leaves an event
that later admits the intents of the policy it replaced (`historicalPolicyLimits`).

A `Ledger` is a journal whose event table has also these rows. The manual history of a ledger
(`Ledger.manualTransferHistory`) is the one of a journal, with the policies of the ancestry instead of the current one.
Digests, signatures and the hash of the file are parameters (`Seals`). The checks of a policy's fields that no function
here reads are left out, so there are more policies here than in the source.
-/

namespace DittoSubnet.Treasury

open Kit

/-! ## Policies -/

/-- All fields of the signed policy of a collector. -/
structure SignedPolicy where
  genesisHash : String
  runtimeCodeHash : String
  collectorColdkey : String
  collectorHotkey : String
  registrationDelegate : String
  transferDelegate : String
  revision : ℕ
  startBlock : ℕ
  destinations : List ServiceDestination
  maxRegistrationBurnRao : ℕ
  registrationBudgetRao : ℕ
  maxFeeRao : ℕ
  feeReserveRao : ℕ
  recoveryCooldownBlocks : ℕ
  distributionIntervalBlocks : ℕ
  maxDistributionRao : ℕ
  gcpProject : String
  registrationServiceAccount : String
  transferServiceAccount : String
  registrationSecretVersion : ℕ
  transferSecretVersion : ℕ
  enabled : Bool
  bounded : ∀ v ∈ [startBlock, maxRegistrationBurnRao, registrationBudgetRao, maxFeeRao, feeReserveRao,
    recoveryCooldownBlocks, distributionIntervalBlocks, maxDistributionRao], 0 < v ∧ v < 2 ^ 63
  reserve : maxFeeRao ≤ feeReserveRao
  destinations_valid : ValidDestinations collectorColdkey destinations
  deriving DecidableEq

/-- The fields that the collector reads, with the digest of all of them. -/
def SignedPolicy.collector (policy : SignedPolicy) (digest : String) : CollectorPolicy where
  digest := digest
  collectorColdkey := policy.collectorColdkey
  collectorHotkey := policy.collectorHotkey
  startBlock := policy.startBlock
  destinations := policy.destinations
  maxRegistrationBurnRao := policy.maxRegistrationBurnRao
  registrationBudgetRao := policy.registrationBudgetRao
  maxFeeRao := policy.maxFeeRao
  feeReserveRao := policy.feeReserveRao
  recoveryCooldownBlocks := policy.recoveryCooldownBlocks
  distributionIntervalBlocks := policy.distributionIntervalBlocks
  maxDistributionRao := policy.maxDistributionRao
  enabled := policy.enabled
  bounded := policy.bounded
  reserve := policy.reserve
  destinations_valid := policy.destinations_valid

/-- The fields of a policy that can differ; the netuid is always 118. -/
inductive PolicyField
  | genesisHash
  | runtimeCodeHash
  | collectorColdkey
  | collectorHotkey
  | registrationDelegate
  | transferDelegate
  | revision
  | startBlock
  | destinations
  | maxRegistrationBurnRao
  | registrationBudgetRao
  | maxFeeRao
  | feeReserveRao
  | recoveryCooldownBlocks
  | distributionIntervalBlocks
  | maxDistributionRao
  | gcpProject
  | registrationServiceAccount
  | transferServiceAccount
  | registrationSecretVersion
  | transferSecretVersion
  | enabled
  deriving DecidableEq, Repr

/-- Each field, and whether two policies differ in it. -/
def policyDifferences (old new : SignedPolicy) : List (PolicyField × Bool) :=
  [(.genesisHash, old.genesisHash ≠ new.genesisHash), (.runtimeCodeHash, old.runtimeCodeHash ≠ new.runtimeCodeHash),
    (.collectorColdkey, old.collectorColdkey ≠ new.collectorColdkey),
    (.collectorHotkey, old.collectorHotkey ≠ new.collectorHotkey),
    (.registrationDelegate, old.registrationDelegate ≠ new.registrationDelegate),
    (.transferDelegate, old.transferDelegate ≠ new.transferDelegate), (.revision, old.revision ≠ new.revision),
    (.startBlock, old.startBlock ≠ new.startBlock), (.destinations, old.destinations ≠ new.destinations),
    (.maxRegistrationBurnRao, old.maxRegistrationBurnRao ≠ new.maxRegistrationBurnRao),
    (.registrationBudgetRao, old.registrationBudgetRao ≠ new.registrationBudgetRao),
    (.maxFeeRao, old.maxFeeRao ≠ new.maxFeeRao), (.feeReserveRao, old.feeReserveRao ≠ new.feeReserveRao),
    (.recoveryCooldownBlocks, old.recoveryCooldownBlocks ≠ new.recoveryCooldownBlocks),
    (.distributionIntervalBlocks, old.distributionIntervalBlocks ≠ new.distributionIntervalBlocks),
    (.maxDistributionRao, old.maxDistributionRao ≠ new.maxDistributionRao),
    (.gcpProject, old.gcpProject ≠ new.gcpProject),
    (.registrationServiceAccount, old.registrationServiceAccount ≠ new.registrationServiceAccount),
    (.transferServiceAccount, old.transferServiceAccount ≠ new.transferServiceAccount),
    (.registrationSecretVersion, old.registrationSecretVersion ≠ new.registrationSecretVersion),
      (.transferSecretVersion, old.transferSecretVersion ≠ new.transferSecretVersion),
        (.enabled, old.enabled ≠ new.enabled)]

/-- The fields that changed. -/
def changedFields (old new : SignedPolicy) : List PolicyField :=
  (policyDifferences old new).filterMap fun difference => if difference.2 then some difference.1 else none

def historicalCodeHash : String := "0x43bc67be9df30636d7e948e7bdb1ed065f2fb92029458cc939abf89d76d8ada3"
def v473CodeHash : String := "0x7773f5c0a6d6e9ea9ff347edcc491246eec08a5cf441d964ee96f40d7fa65a08"
def v478CodeHash : String := "0x7e722b3aa5c9192c98665a5d65fa91364bf9055e21fc90efce6d59bf4ef414e1"
def v481CodeHash : String := "0x5fb504c1c793a3ddb5456f189ddef98b5146853aea6ff998501f1b6c6eb720bc"
def v482CodeHash : String := "0x37d83888085e2f1b7c9c36c1341cfb6c0d6689f8efd6e0c6128e3666eb5d8b62"
def auditedCodeHash : String := "0x99856ec64a61eb8011999a803bd336979512275214a173fea583abd5c89952d2"

/-- The audited runtime transitions. -/
def runtimeTransitions : List (String × String) :=
  [(historicalCodeHash, v473CodeHash), (historicalCodeHash, v478CodeHash), (v473CodeHash, v478CodeHash),
    (historicalCodeHash, v482CodeHash), (v473CodeHash, v482CodeHash), (historicalCodeHash, v481CodeHash),
    (v473CodeHash, v481CodeHash), (v478CodeHash, v481CodeHash), (v478CodeHash, v482CodeHash),
    (v481CodeHash, v482CodeHash), (v482CodeHash, auditedCodeHash)]

/-- The signer accounts of the isolated project. -/
def IsolatedAccounts (policy : SignedPolicy) : Prop :=
  policy.registrationServiceAccount = "sn118-collector-registration@sn118-gamma-custody.iam.gserviceaccount.com" ∧
    policy.transferServiceAccount = "sn118-collector-transfer@sn118-gamma-custody.iam.gserviceaccount.com"

instance (policy : SignedPolicy) : Decidable (IsolatedAccounts policy) := inferInstanceAs (Decidable (_ ∧ _))

/-- The same custody under an audited newer runtime. -/
def RuntimeOnly (old new : SignedPolicy) : Prop :=
  changedFields old new = [.runtimeCodeHash, .revision] ∧ old.gcpProject = "sn118-gamma-custody" ∧
    new.gcpProject = "sn118-gamma-custody" ∧ new.revision = old.revision + 1 ∧
    (old.runtimeCodeHash, new.runtimeCodeHash) ∈ runtimeTransitions ∧ IsolatedAccounts new

instance (old new : SignedPolicy) : Decidable (RuntimeOnly old new) := inferInstanceAs (Decidable (_ ∧ _))

/-- `policy_transition`. -/
def policyTransition (old new : SignedPolicy) : Except String Unit :=
  if RuntimeOnly old new then pure ()
  else do
    ensure (changedFields old new = [.registrationDelegate, .transferDelegate, .revision, .gcpProject,
        .registrationServiceAccount, .transferServiceAccount] ∧ old.gcpProject = "ditto-app-dev" ∧
      new.gcpProject = "sn118-gamma-custody" ∧ new.revision = old.revision + 1)
      "unsupported custody-only policy transition"
    ensure (IsolatedAccounts new) "new signer account not isolated"
    ensure (∀ key ∈ [old.registrationDelegate, old.transferDelegate],
      key ∉ [new.registrationDelegate, new.transferDelegate]) "fresh delegates required"

/-! ## Ledgers -/

structure ManifestCounts where
  cursor : ℕ
  earnings : ℕ
  operations : ℕ
  events : ℕ
  deriving DecidableEq, Repr

/-- What the cold key signs. -/
structure Manifest where
  schema : String
  role : Role
  fromPolicyDigest : String
  toPolicyDigest : String
  sourceSha256 : String
  historySha256 : String
  cursor : ℕ
  counts : ManifestCounts
  registrationReservedRao : ℕ
  deriving DecidableEq, Repr

/-- The payload of `offline_approved_runtime_migration`; the signature is its decoded bytes. -/
structure RuntimeMigration where
  manifest : Manifest
  signature : List UInt8
  fromPolicy : SignedPolicy
  toPolicy : SignedPolicy
  deriving DecidableEq

/-- A row of the event table: an event of the collector, a runtime migration, one whose payload does not decode, or
another row that the functions here do not read. -/
inductive Row
  | event (event : Event)
  | runtimeMigration (body : RuntimeMigration)
  | malformedMigration
  | other
  deriving DecidableEq

/-- The tables of one signer's database, with the rows of migrations. Rows are numbered from 1 in insertion order. -/
structure Ledger where
  pin : String × Role
  cursor : ℕ
  earnings : List EarningsRow
  operations : List Operation
  rows : List Row
  deriving DecidableEq

/-- Digests and signature checks. -/
structure Seals where
  digest : SignedPolicy → String
  requestDigest : ManualTransfer → String
  verifyLimit : ManualLimitApproval → Bool
  manifestDigest : Manifest → String
  verify (coldkey manifestDigest : String) (signature : List UInt8) : Bool
  sourceSha256 : Ledger → String
  historySha256 : Ledger → String

section

variable (seals : Seals)

/-- The custody under a policy. -/
def Seals.custody (policy : SignedPolicy) : Custody :=
  ⟨policy.collector (seals.digest policy), seals.requestDigest, seals.verifyLimit⟩

/-- The custody as an intent of an earlier policy names it. -/
def Custody.under (custody : Custody) (digest : String) : Custody :=
  { custody with policy := { custody.policy with digest := digest } }

/-! ## Ancestry -/

def migrationSchema : String := "ditto-collector-custody-migration-v1"

/-- The runtime migration of a numbered row. -/
def Row.migration? : Row × ℕ → Option (Option RuntimeMigration × ℕ)
  | (.runtimeMigration body, rowId) => some (some body, rowId)
  | (.malformedMigration, rowId) => some (none, rowId)
  | _ => none

/-- The runtime migrations with the numbers of their rows. -/
def migrationRows (rows : List Row) : List (Option RuntimeMigration × ℕ) := (rows.zipIdx 1).filterMap Row.migration?

/-- The policy whose ancestry is left to check, and the policies admitted so far. -/
structure Ancestry where
  current : SignedPolicy
  limits : Dict String (Option ℕ)

/-- One link, from the newest on. -/
def ancestryStep (state : Ancestry) (row : Option RuntimeMigration × ℕ) : Except String Ancestry :=
  match row.1 with
  | none => throw "invalid runtime migration ancestry"
  | some body => do
    ensure (body.toPolicy = state.current ∧ body.fromPolicy.runtimeCodeHash ≠ body.toPolicy.runtimeCodeHash ∧
      body.manifest.schema = migrationSchema ∧ body.manifest.role = .transfer ∧
      body.manifest.fromPolicyDigest = seals.digest body.fromPolicy ∧
      body.manifest.toPolicyDigest = seals.digest body.toPolicy ∧ body.manifest.counts.events = row.2 - 1)
      "runtime migration ancestry differs from current pin"
    policyTransition body.fromPolicy body.toPolicy
    ensure (seals.verify state.current.collectorColdkey (seals.manifestDigest body.manifest) body.signature = true)
      "runtime migration ancestry lacks cold approval"
    pure ⟨body.fromPolicy, state.limits.set (seals.digest body.fromPolicy) (some row.2)⟩

/-- The digests that intents may carry: the current one, and each earlier one below the row that replaced it. -/
def historicalPolicyLimits (policy : SignedPolicy) (rows : List Row) : Except String (Dict String (Option ℕ)) := do
  let links := (migrationRows rows).reverse
  ensure (links.length ≤ 16) "runtime migration ancestry exceeds bound"
  let state ← links.foldlM (ancestryStep seals) ⟨policy, [(seals.digest policy, none)]⟩
  pure state.limits

/-- Whether the limits admit a digest in a row. -/
def admits (limits : Dict String (Option ℕ)) (digest : String) (rowId : ℕ) : Bool :=
  match limits.get? digest with
  | none => false
  | some none => true
  | some (some limit) => decide (rowId < limit)

/-- `historical_policy_matches`. -/
def historicalPolicyMatches (policy : SignedPolicy) (rows : List Row) (digest : String) (rowId : ℕ) :
    Except String Bool :=
  if digest = seals.digest policy then pure true
  else do
    let limits ← historicalPolicyLimits seals policy rows
    match limits.get? digest with
    | some (some limit) => pure (decide (rowId < limit))
    | _ => pure false

/-! ## The manual history of a ledger -/

/-- The collector's event of a numbered row. -/
def Row.event? : Row × ℕ → Option (Event × ℕ)
  | (.event written, rowId) => some (written, rowId)
  | _ => none

/-- The collector's events with the numbers of their rows. -/
def collectorEvents (rows : List Row) : List (Event × ℕ) := (rows.zipIdx 1).filterMap Row.event?

/-- One armed intent: the digest that it carries is admitted, and the other checks are made under that digest. -/
def ledgerStep (custody : Custody) (limits : Dict String (Option ℕ)) (events : List (Event × ℕ)) (state : HistoryState)
    (record : (String × ManualTransfer) × ℕ) : Except String HistoryState := do
  ensure (state.closedBefore < record.2) "manual intent advanced before unsigned expiry"
  ensure (admits limits record.1.1 record.2 = true) "manual transfer policy changed"
  historyStep (custody.under record.1.1) events state record

/-- `manual_transfer_history`. -/
def Ledger.manualTransferHistory (policy : SignedPolicy) (ledger : Ledger) : Except String (List ManualTransfer) := do
  let events := collectorEvents ledger.rows
  let records := armedRecords events
  ensure (records.length ≤ 100000) "manual history exceeds explicit bound"
  let limits ← if ∃ record ∈ records, record.1.1 ≠ seals.digest policy then
      historicalPolicyLimits seals policy ledger.rows
    else pure [(seals.digest policy, none)]
  let expired := expiryRecords events
  ensure ((expired.map fun closure => closure.1.requestId).Nodup) "duplicate unsigned expiry"
  let state ← records.foldlM (ledgerStep (seals.custody policy) limits events) ⟨[], expired, [], 0, false, 0⟩
  ensure (state.expired = []) "unsigned expiry lacks its original manual intent"
  checkClaims (seals.custody policy) ledger.operations state.requests
  pure state.requests

/-! ## The migration -/

/-- The settlement that a terminal state needs. -/
def OperationState.terminal? : OperationState → Option SettlementStatus
  | .dispatching => none
  | .finalized => some .finalized
  | .failed => some .failed
  | .expired => some .expired

/-- The manifest of a ledger. -/
def describe (ledger : Ledger) (old new : SignedPolicy) (role : Role) (sourceSha256 : String) :
    Except String Manifest := do
  ensure (ledger.pin = (seals.digest old, role)) "source policy or role mismatch"
  ensure (old.startBlock - 1 ≤ ledger.cursor ∧ ledger.cursor < 2 ^ 63) "invalid preserved cursor"
  ledger.operations.forM fun op => do
    ensure (op.state.terminal?.isSome = true ∧ op.role = role) "unresolved or invalid source operation"
    ensure (op.settlement.map (·.status) = op.state.terminal?) "terminal settlement mismatch"
  pure
    { schema := migrationSchema
      role := role
      fromPolicyDigest := seals.digest old
      toPolicyDigest := seals.digest new
      sourceSha256 := sourceSha256
      historySha256 := seals.historySha256 ledger
      cursor := ledger.cursor
      counts := ⟨1, ledger.earnings.length, ledger.operations.length, ledger.rows.length⟩
      registrationReservedRao := if role = .registration then (ledger.operations.map (·.amount)).sum else 0 }

/-- The row that a migration leaves. -/
def migrationRow (old new : SignedPolicy) (approval : Manifest) (signature : List UInt8) : Row :=
  if old.runtimeCodeHash ≠ new.runtimeCodeHash then .runtimeMigration ⟨approval, signature, old, new⟩ else .other

/-- `migrate`. -/
def migrate (ledger : Ledger) (old new : SignedPolicy) (approval : Manifest) (signature : List UInt8) :
    Except String Ledger := do
  ensure (approval.schema = migrationSchema) "malformed migration approval envelope"
  ensure (signature.length = 64) "invalid migration signature length"
  ensure (seals.verify old.collectorColdkey (seals.manifestDigest approval) signature = true)
    "migration lacks exact cold approval"
  policyTransition old new
  ensure (seals.sourceSha256 ledger = approval.sourceSha256) "snapshot hash or standalone format mismatch"
  let expected ← describe seals ledger old new approval.role approval.sourceSha256
  ensure (approval = expected) "cold-approved history manifest mismatch"
  pure { ledger with
    pin := (seals.digest new, ledger.pin.2)
    rows := ledger.rows ++ [migrationRow old new approval signature] }

/-! ## Runs -/

/-- The digest that an event of the collector carries. -/
def Event.policy? : Event → Option String
  | .transferCanaryArmed policy _ => some policy
  | .transferCanaryReplaced replacement => some replacement.policy
  | .manualTransferArmed policy _ => some policy
  | .manualUnsignedExpired expiry => some expiry.policy
  | .dispatchReserved _ policy _ => some policy
  | .emissionAttributed _ policy _ => some policy
  | .manualSourceProbed policy _ => some policy
  | _ => none

/-- A row that is written under a policy; only a migration writes the rows of migrations. -/
def Row.WrittenUnder (digest : String) : Row → Prop
  | .event written => ∀ policy ∈ written.policy?, policy = digest
  | .runtimeMigration _ => False
  | .malformedMigration => False
  | .other => True

instance (digest : String) : DecidablePred (Row.WrittenUnder digest)
  | .event written => inferInstanceAs (Decidable (∀ policy ∈ written.policy?, policy = digest))
  | .runtimeMigration _ => .isFalse id
  | .malformedMigration => .isFalse id
  | .other => .isTrue trivial

/-- What a ledger gains between two migrations: rows, and the changes of the other tables that go with them. -/
structure Gain where
  rows : List Row
  cursor : ℕ
  earnings : List EarningsRow
  operations : List Operation

/-- The ledger, its policy, the policies that its migrations replaced with the rows that did it, and what the manual
history answered when the ledger last gained something. -/
structure Chronicle where
  policy : SignedPolicy
  ledger : Ledger
  replaced : List (SignedPolicy × ℕ)
  vetted : Option (List ManualTransfer)

inductive MigrationAction
  | gain (gain : Gain)
  | migrate (new : SignedPolicy) (approval : Manifest) (signature : List UInt8)

/-- The ledger with a gain. -/
def Ledger.gain (ledger : Ledger) (gain : Gain) : Ledger :=
  { ledger with
    cursor := gain.cursor
    earnings := gain.earnings
    operations := gain.operations
    rows := ledger.rows ++ gain.rows }

/-- One step: rows under the pinned policy, or a runtime migration. -/
def migrationAct (chronicle : Chronicle) : MigrationAction → Chronicle
  | .gain gain =>
    if ∀ row ∈ gain.rows, row.WrittenUnder (seals.digest chronicle.policy) then
      let ledger := chronicle.ledger.gain gain
      { chronicle with
        ledger := ledger
        vetted := (ledger.manualTransferHistory seals chronicle.policy).toOption }
    else chronicle
  | .migrate new approval signature =>
    if chronicle.policy.runtimeCodeHash = new.runtimeCodeHash then chronicle
    else
      match migrate seals chronicle.ledger chronicle.policy new approval signature with
      | .ok ledger =>
        { chronicle with
          policy := new
          ledger := ledger
          replaced := chronicle.replaced ++ [(chronicle.policy, chronicle.ledger.rows.length + 1)] }
      | .error _ => chronicle

/-- A ledger before the migrations. -/
def openChronicle (policy : SignedPolicy) (ledger : Ledger) : Chronicle :=
  ⟨policy, ledger, [], (ledger.manualTransferHistory seals policy).toOption⟩

/-- The chronicle after some steps. -/
def chronicleAfter (policy : SignedPolicy) (ledger : Ledger) (actions : List MigrationAction) : Chronicle :=
  run (migrationAct seals) (openChronicle seals policy ledger) actions

end

end DittoSubnet.Treasury

import DittoSubnet.Protocol.Dueling

/-!
# The scoring ledger

The wire models of `api_models/validator.py` that the weight fold reads. A row carries the bounds that the wire model
checks on parsing as fields, so a row out of range cannot be built. Fields that no fold reads (digests, sizes,
signatures, the status) are left out; a read through `getattr` of a declared field is the field.
-/

namespace DittoSubnet

open Kit

/-- An agent id, ordered by its 128-bit integer value. -/
abbrev Uuid := Fin (2 ^ 128)

instance neZero_uuid : NeZero (2 ^ 128) := ⟨by decide⟩
instance lawfulBEq_uuid : LawfulBEq Uuid := inferInstance

/-- A timestamp in microseconds. -/
abbrev Timestamp := ℤ

/-- The activation marker of protocol 14. -/
inductive ContinualAggregateMethod
  | meanAfterQuorum
  deriving DecidableEq, Repr

variable (K : Type) [ExactArith K]

/-- One append-only shared-seed confirmation score. -/
structure ConfirmationScoreRecord where
  seed : ℤ
  composite : K
  benchVersion : ℕ
  dueling : Option (DuelingReport K)
  seed_nonneg : 0 ≤ seed
  composite_mem : 0 ≤ composite ∧ composite ≤ 1

/-- One validator's score receipt. -/
structure LedgerScoreProof where
  composite : K
  composite_mem : 0 ≤ composite ∧ composite ≤ 1

/-- The verified full-confirmation receipt. -/
structure V9ConfirmationReceipt where
  fullEffectiveMicros : ℕ
  fullEffectiveMicros_le : fullEffectiveMicros ≤ 1000000

/-- One miner's best eligible score, as `GET /scoring/scores` serves it. -/
structure LedgerEntry where
  minerHotkey : String
  agentId : Uuid
  composite : K
  /-- Cases scored in the winning run. -/
  n : ℕ
  firstSeen : Timestamp
  benchVersion : Option ℕ
  scoreProofs : List (LedgerScoreProof K)
  compositeStderr : Option K
  confirmationComposites : Option (List K)
  confirmationSeeds : Option (List ℤ)
  confirmationHistory : Option (List (ConfirmationScoreRecord K))
  duelHistory : Option (List (ConfirmationScoreRecord K))
  continualAggregateMethod : Option ContinualAggregateMethod
  efficiencyBonus : Option K
  efficiencyFactor : Option K
  efficiencyCurveVersion : Option ℕ
  v9Confirmation : Option V9ConfirmationReceipt
  duelingSeasonId : Option String
  dueling : Option (DuelingReport K)
  composite_mem : 0 ≤ composite ∧ composite ≤ 1
  benchVersion_pos : ∀ v ∈ benchVersion, 1 ≤ v
  compositeStderr_nonneg : ∀ v ∈ compositeStderr, 0 ≤ v
  efficiencyBonus_mem : ∀ v ∈ efficiencyBonus, 0 ≤ v ∧ v ≤ 1 / 10
  efficiencyFactor_pos : ∀ v ∈ efficiencyFactor, 0 < v
  efficiencyCurveVersion_ge : ∀ v ∈ efficiencyCurveVersion, 3 ≤ v

theorem compositeStderr_absent : ∀ v ∈ (none : Option K), 0 ≤ v := by simp

theorem efficiencyBonus_absent : ∀ v ∈ (none : Option K), 0 ≤ v ∧ v ≤ 1 / 10 := by simp

theorem efficiencyFactor_absent : ∀ v ∈ (none : Option K), 0 < v := by simp

theorem efficiencyCurveVersion_absent : ∀ v ∈ (none : Option ℕ), 3 ≤ v := by simp

theorem half_mem : 0 ≤ (1 / 2 : K) ∧ (1 / 2 : K) ≤ 1 := by norm_num

instance neZero_tenth : NeZero 11 := ⟨by decide⟩

theorem tenth_mem (k : Fin 11) : 0 ≤ ((k : ℕ) : ℚ) / 10 ∧ ((k : ℕ) : ℚ) / 10 ≤ 1 := by
  have h : (k : ℕ) ≤ 10 := Nat.le_of_lt_succ k.isLt
  have h' : ((k : ℕ) : ℚ) ≤ 10 := by exact_mod_cast h
  constructor
  · positivity
  · linarith

/-- The crown rules of protocol 34; `duelWindow` adds the title duel of protocol 35. -/
structure CrownGate where
  minSharedSeeds : ℤ
  standingRank : ℤ
  duelWindow : Option ℤ
  deriving DecidableEq, Repr

end DittoSubnet

import DittoSubnet.Kit.Digits
import DittoSubnet.Wire.Ledger

/-!
# The canonical comparator

`ditto/score_order.py` of the Platform: rows compare by primary score, secondary score, first arrival and the *text* of
the agent id. The validator compares agent ids as UUIDs, that is by their integer value; `uuidStr_le_iff` is the fact
that the two orders are one.
-/

namespace DittoSubnet.Platform

open Kit

/-! ## The text of an agent id -/

/-- The lower-case hexadecimal digits, ascending as characters. -/
def hexDigit (d : ℕ) : Char := "0123456789abcdef".toList.getD d '0'

theorem hexDigit_lt_iff {i j : ℕ} (hi : i < 16) (hj : j < 16) : hexDigit i < hexDigit j ↔ i < j := by
  have h : ∀ i j : Fin 16, hexDigit i < hexDigit j ↔ i < j := by decide
  exact h ⟨i, hi⟩ ⟨j, hj⟩

/-- `'%032x' % self.int`. -/
def uuidHex (u : Uuid) : List Char := digits hexDigit 16 32 u

/-- `str(agent_id)`: the 32 digits in groups of 8, 4, 4, 4 and 12. -/
def uuidStr (u : Uuid) : String :=
  let hex := uuidHex u
  String.ofList (hex.take 8 ++ '-' :: ((hex.drop 8).take 4 ++ '-' :: ((hex.drop 12).take 4 ++ '-' ::
    ((hex.drop 16).take 4 ++ '-' :: hex.drop 20))))

theorem uuidHex_lt_iff (u v : Uuid) : uuidHex u < uuidHex v ↔ u < v := by
  have hb : (16 : ℕ) ^ 32 = 2 ^ 128 := by norm_num
  exact digits_lt_iff (by norm_num) (fun _ _ hi hj => hexDigit_lt_iff hi hj) 32 u v
    (by rw [hb]; exact u.isLt) (by rw [hb]; exact v.isLt)

theorem uuidStr_lt_iff (u v : Uuid) : uuidStr u < uuidStr v ↔ u < v := by
  rw [← uuidHex_lt_iff, String.lt_iff_toList_lt]
  simp only [uuidStr, String.toList_ofList]
  have hu : (uuidHex u).length = 32 := length_digits _ _ _ _
  have hv : (uuidHex v).length = 32 := length_digits _ _ _ _
  generalize uuidHex u = a at *
  generalize uuidHex v = b at *
  -- the groups are glued back one separator at a time
  have glue : ∀ (l : List Char) (i k : ℕ), (l.drop i).take k ++ l.drop (i + k) = l.drop i := fun l i k => by
    rw [← List.drop_drop, List.take_append_drop]
  have step : ∀ (i k : ℕ) {x y : List Char}, (x < y ↔ a.drop (i + k) < b.drop (i + k)) →
      ((a.drop i).take k ++ '-' :: x < (b.drop i).take k ++ '-' :: y ↔ a.drop i < b.drop i) := fun i k x y h => by
    rw [lex_separator '-' (by simp [hu, hv]) h, glue, glue]
  have h := step 0 8 (step 8 4 (step 12 4 (step 16 4 Iff.rfl)))
  simpa only [List.drop_zero] using h

theorem uuidStr_le_iff (u v : Uuid) : uuidStr u ≤ uuidStr v ↔ u ≤ v := by
  rw [← not_lt, ← not_lt, uuidStr_lt_iff]

/-! ## The order -/

/-- The fields of a row that take a place in the order; no ranked row of the fold carries an `eligible` flag or a
second clock. -/
structure RankableRow (K : Type) where
  agentId : Uuid
  firstSeen : Timestamp
  composite : K

variable {K : Type} [ExactArith K]

/-- `(not eligible, -primary, -secondary, first_seen, str(agent_id))`. -/
def scoreOrderKey (row : RankableRow K) (score secondaryScore : Option K) : Bool ×ₗ K ×ₗ K ×ₗ Timestamp ×ₗ String :=
  let primary := score.getD row.composite
  let secondary := secondaryScore.getD primary
  toLex (false, toLex (-primary, toLex (-secondary, toLex (row.firstSeen, uuidStr row.agentId))))

/-- The rows in canonical order, scored by the two maps where they have a value. -/
def rankSubmissions {α : Type} (row : α → RankableRow K) (rows : List α) (scores secondaryScores : Dict Uuid K) :
    List α :=
  sortOn (fun r => scoreOrderKey (row r) (scores.get? (row r).agentId) (secondaryScores.get? (row r).agentId)) rows

end DittoSubnet.Platform

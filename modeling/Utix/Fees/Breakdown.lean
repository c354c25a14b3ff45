import Mathlib.Algebra.Order.BigOperators.Group.List
import Mathlib.Data.Rat.Floor
import Utix.Js.Text
import Utix.Lib.Dict

/-!
# Fee breakdowns

`core/fees/fees.ts`: a schedule charges an amount line by line, each line a rate in basis points
with an optional minimum, in whole units. `calculateFees_exact` says what a breakdown is worth: its
lines add up, each rate is rounded to the nearest unit, fees do not fall when the amount grows, and
a schedule without minimums is off by half a unit per line at most. Decimals and basis points are
whole numbers here; the source refuses others.

The source computes with bigints, and so do integers here: no figure is ever rounded but the rate,
and `tdiv` is the division of bigints. Rates are compared with `round`, the nearest integer with
ties upward, over the rationals. `SameFigures` says when a stored settlement agrees with a
breakdown, without going through the list of mismatches that `reconcileFees` builds;
`reconcileFees_eq_nil_iff` connects the two.

Refusals come in a fixed order, the asset before the amount before the schedule, and `Valid` is that
none of them applies.
-/

namespace Utix.Fees

open Js Lib List

structure FeeAsset where
  code : JsString
  decimals : ℤ

inductive FeeErrorCode
  | invalidAsset | invalidAssetPrecision | invalidAmount | invalidFeeSchedule | feesExceedAmount
  deriving DecidableEq

structure FeeLineDefinition where
  id : JsString
  label : JsString
  basisPoints : ℤ
  minimum : Option ℤ

inductive FeeBasis
  | rate | minimum | zero

structure FeeLineItem where
  id : JsString
  label : JsString
  basisPoints : ℤ
  rateAmount : ℤ
  minimum : ℤ
  amount : ℤ
  basis : FeeBasis

structure FeeBreakdown where
  asset : FeeAsset
  gross : ℤ
  lines : List FeeLineItem
  totalFees : ℤ
  net : ℤ

def validateAsset (asset : FeeAsset) : Option FeeErrorCode :=
  if asset.code = [] || 12 < asset.code.length || !asset.code.all isAlnum then some .invalidAsset
  else if asset.decimals < 0 || 18 < asset.decimals then some .invalidAssetPrecision
  else none

def validateSchedule (lines : List FeeLineDefinition) : Bool :=
  decide (lines.map FeeLineDefinition.id).Nodup && lines.all fun line ↦ line.id ≠ [] &&
    (0 ≤ line.basisPoints && line.basisPoints ≤ 10000) && line.minimum.all (0 ≤ ·)

/-- The floor of a line: its minimum, for positive amounts. -/
def floorOf (amount minimum : ℤ) : ℤ := if amount > 0 then minimum else 0

/-- One line of the breakdown. -/
def lineItem (amount : ℤ) (line : FeeLineDefinition) : FeeLineItem :=
  let minimum := line.minimum.getD 0
  let rateAmount := (amount * line.basisPoints + 5000).tdiv 10000
  let charged := if rateAmount > floorOf amount minimum then rateAmount else floorOf amount minimum
  ⟨line.id, line.label, line.basisPoints, rateAmount, minimum, charged,
    if charged = 0 then .zero else if charged > rateAmount then .minimum else .rate⟩

/-- The fees that the lines add up to. -/
def totalOf (items : List FeeLineItem) : ℤ := (items.map FeeLineItem.amount).sum

def breakdownOf (asset : FeeAsset) (amount : ℤ) (lines : List FeeLineDefinition) : FeeBreakdown :=
  let items := lines.map (lineItem amount)
  ⟨asset, amount, items, totalOf items, amount - totalOf items⟩

def calculateFees (asset : FeeAsset) (amount : ℤ) (lines : List FeeLineDefinition) :
    Except FeeErrorCode FeeBreakdown :=
  match validateAsset asset with
  | some code => .error code
  | none =>
    if amount < 0 then .error .invalidAmount
    else if !validateSchedule lines then .error .invalidFeeSchedule
    else if (breakdownOf asset amount lines).totalFees > amount then .error .feesExceedAmount
    else .ok (breakdownOf asset amount lines)

structure StoredFeeSettlement where
  gross : ℤ
  lines : Dict JsString ℤ
  net : ℤ

/-- `compare(field, expected, actual)`: the mismatch, if there is one. -/
def compare (field : JsString) (expected actual : Option ℤ) :
    List (JsString × Option ℤ × Option ℤ) :=
  if expected = actual then [] else [(field, expected, actual)]

/-- `reconcileFees(breakdown, stored)`: the mismatches; there is a match when there are none. -/
def reconcileFees (breakdown : FeeBreakdown) (stored : StoredFeeSettlement) :
    List (JsString × Option ℤ × Option ℤ) :=
  compare (js "gross") breakdown.gross stored.gross ++
    breakdown.lines.flatMap (fun line ↦
      compare (js "line:" ++ line.id) line.amount (stored.lines.get line.id)) ++
    (stored.lines.entries.filter fun entry ↦
      entry.1 ∉ breakdown.lines.map FeeLineItem.id).flatMap (fun entry ↦
        compare (js "line:" ++ entry.1) none entry.2) ++
    compare (js "net") breakdown.net stored.net

/-! ### Lines -/

/-- The fee that the rate of a line stands for. -/
def exactFee (amount : ℤ) (basisPoints : ℤ) : ℚ := amount * basisPoints / 10000

variable {asset : FeeAsset} {amount : ℤ} {line : FeeLineDefinition}
  {lines : List FeeLineDefinition} {b : FeeBreakdown}

/-- For amounts that are not negative the division is the floor. -/
theorem rateAmount_eq (hamount : 0 ≤ amount) (hline : 0 ≤ line.basisPoints) :
    (lineItem amount line).rateAmount = (amount * line.basisPoints + 5000) / 10000 :=
  Int.tdiv_eq_ediv_of_nonneg (by positivity)

/-- Half a unit is added before the division, so the floor rounds to the nearest unit. -/
theorem rateAmount_eq_round (hamount : 0 ≤ amount) (hline : 0 ≤ line.basisPoints) :
    (lineItem amount line).rateAmount = round (exactFee amount line.basisPoints) := by
  have hhalf : exactFee amount line.basisPoints + 1 / 2 =
      ((amount * line.basisPoints + 5000 : ℤ) : ℚ) / (10000 : ℕ) := by
    rw [exactFee]
    push_cast
    ring
  rw [rateAmount_eq hamount hline, round_eq, hhalf, Rat.floor_intCast_div_natCast]
  rfl

/-- A line charges its rate or its minimum, whichever is larger. -/
theorem amount_eq_max (amount : ℤ) (line : FeeLineDefinition) :
    (lineItem amount line).amount =
      max (lineItem amount line).rateAmount (floorOf amount (lineItem amount line).minimum) := by
  simp only [lineItem]
  rw [max_comm, max_def_lt]

/-! ### The breakdown -/

/-- What a line of the breakdown says about the line of the schedule. -/
structure LineExact (amount : ℤ) (line : FeeLineDefinition) (item : FeeLineItem) : Prop where
  id : item.id = line.id
  basisPoints : item.basisPoints = line.basisPoints
  minimum : item.minimum = line.minimum.getD 0
  rate : item.rateAmount = round (exactFee amount line.basisPoints)
  charged : item.amount = max item.rateAmount (floorOf amount item.minimum)

/-- The stored settlement has the gross, the net and the lines of the breakdown. -/
def SameFigures (b : FeeBreakdown) (stored : StoredFeeSettlement) : Prop :=
  stored.gross = b.gross ∧ stored.net = b.net ∧ ∀ id charged,
    stored.lines.get id = some charged ↔ ∃ item ∈ b.lines, item.id = id ∧ item.amount = charged

/-- The asset, the amount and the schedule pass the checks. -/
def Valid (asset : FeeAsset) (amount : ℤ) (lines : List FeeLineDefinition) : Prop :=
  validateAsset asset = none ∧ 0 ≤ amount ∧ validateSchedule lines = true

/-- What a breakdown says about the amount. -/
structure Exact (asset : FeeAsset) (amount : ℤ) (lines : List FeeLineDefinition)
    (b : FeeBreakdown) : Prop where
  gross : b.gross = amount
  sum : b.gross = b.net + totalOf b.lines
  net : 0 ≤ b.net
  items : List.Forall₂ (LineExact amount) lines b.lines
  monotone : ∀ amount' b', amount ≤ amount' → calculateFees asset amount' lines = .ok b' →
    totalOf b.lines ≤ totalOf b'.lines
  error : (∀ item ∈ b.lines, item.amount = item.rateAmount) →
    |(totalOf b.lines - (lines.map fun line ↦ exactFee amount line.basisPoints).sum : ℚ)| ≤
      lines.length / 2
  reconciled : ∀ stored, reconcileFees b stored = [] ↔ SameFigures b stored

/-- Rates and minimums of a valid schedule are not negative. -/
theorem valid_of_mem (h : validateSchedule lines = true) (hline : line ∈ lines) :
    0 ≤ line.basisPoints ∧ ∀ m ∈ line.minimum, 0 ≤ m := by
  simp only [validateSchedule, Bool.and_eq_true, all_eq_true, decide_eq_true_eq,
    Option.all_eq_true] at h
  exact ⟨(h.2 line hline).1.2.1, (h.2 line hline).2⟩

/-- When there is a breakdown, and which one it is. -/
theorem calculateFees_eq_ok_iff : calculateFees asset amount lines = .ok b ↔
    Valid asset amount lines ∧ totalOf (lines.map (lineItem amount)) ≤ amount ∧
      breakdownOf asset amount lines = b := by
  rw [calculateFees, Valid, validateAsset]
  split_ifs <;> simp_all [breakdownOf]

/-- Fees do not fall when the amount grows. -/
theorem totalOf_mono {amount' : ℤ} (hamount : 0 ≤ amount) (hle : amount ≤ amount')
    (h : validateSchedule lines = true) :
    totalOf (lines.map (lineItem amount)) ≤ totalOf (lines.map (lineItem amount')) := by
  rw [totalOf, totalOf, map_map, map_map]
  refine sum_le_sum fun line hline ↦ ?_
  obtain ⟨hpoints, hmin⟩ := valid_of_mem h hline
  change (lineItem amount line).amount ≤ (lineItem amount' line).amount
  rw [amount_eq_max, amount_eq_max, rateAmount_eq hamount hpoints,
    rateAmount_eq (hamount.trans hle) hpoints]
  refine max_le_max (Int.ediv_le_ediv (by norm_num) ?_) ?_
  · have := mul_le_mul_of_nonneg_right hle hpoints
    omega
  · have hfloor : 0 ≤ (lineItem amount line).minimum := by
      cases hm : line.minimum with
      | none => simp [lineItem, hm]
      | some m => simpa [lineItem, hm] using hmin m hm
    change floorOf amount _ ≤ floorOf amount' (lineItem amount line).minimum
    rw [floorOf, floorOf]
    split_ifs <;> omega

/-- Half a unit per line, by induction on the lines. -/
theorem error_le (hlines : ∀ line ∈ lines,
      ((lineItem amount line).amount : ℤ) = round (exactFee amount line.basisPoints)) :
    |(totalOf (lines.map (lineItem amount)) -
      (lines.map fun line ↦ exactFee amount line.basisPoints).sum : ℚ)| ≤ lines.length / 2 := by
  induction lines with
  | nil => simp [totalOf]
  | cons line lines ih =>
    obtain ⟨hline, hlines⟩ := forall_mem_cons.1 hlines
    have hrest := abs_le.1 (ih hlines)
    have hround := abs_le.1 (abs_sub_round (exactFee amount line.basisPoints))
    rw [← hline] at hround
    simp only [totalOf, map_cons, sum_cons, length_cons] at hrest ⊢
    rw [Int.cast_add, Nat.cast_add, Nat.cast_one]
    exact abs_le.2 ⟨by linarith [hrest.1, hround.2], by linarith [hrest.2, hround.1]⟩

/-- A figure is not reported exactly if it is the expected one. -/
theorem compare_eq_nil_iff {field : JsString} {expected actual : Option ℤ} :
    compare field expected actual = [] ↔ expected = actual := by
  rw [compare]
  split_ifs with h <;> simp [h]

/-- Nothing is reported exactly if gross, net and the map of the lines agree. -/
theorem reconcileFees_eq_nil_iff {stored : StoredFeeSettlement} :
    reconcileFees b stored = [] ↔ SameFigures b stored := by
  simp only [SameFigures, reconcileFees, append_eq_nil_iff, flatMap_eq_nil_iff, compare_eq_nil_iff,
    Option.some.injEq]
  constructor
  · rintro ⟨⟨⟨hgross, hlines⟩, hextra⟩, hnet⟩
    refine ⟨hgross.symm, hnet.symm, fun id charged ↦ ⟨fun hget ↦ ?_, ?_⟩⟩
    · by_contra hnone
      have hid : id ∉ b.lines.map FeeLineItem.id := fun hid ↦ by
        obtain ⟨item, hitem, rfl⟩ := mem_map.1 hid
        exact hnone ⟨item, hitem, rfl, Option.some.inj ((hlines item hitem).trans hget)⟩
      have hentry := Dict.mem_entries_iff.2 hget
      exact absurd (hextra _ (mem_filter.2 ⟨hentry, by simpa using hid⟩)) (by simp)
    · rintro ⟨item, hitem, rfl, rfl⟩
      exact (hlines item hitem).symm
  · rintro ⟨hgross, hnet, hmap⟩
    refine ⟨⟨⟨hgross.symm, fun item hitem ↦ ((hmap _ _).2 ⟨item, hitem, rfl, rfl⟩).symm⟩, ?_⟩,
      hnet.symm⟩
    rintro ⟨id, charged⟩ hentry
    obtain ⟨hentry, hid⟩ := mem_filter.1 hentry
    obtain ⟨item, hitem, rfl, -⟩ := (hmap id charged).1 (Dict.mem_entries_iff.1 hentry)
    exact absurd (mem_map.2 ⟨item, hitem, rfl⟩) (by simpa using hid)

/-- **Fees are exact**: fees that exceed the amount are refused, and nothing else is on that ground;
all other valid input is answered with a breakdown, and every breakdown adds up, rounds each rate to
the nearest unit and settles with the same figures only. -/
theorem calculateFees_exact (asset : FeeAsset) (amount : ℤ) (lines : List FeeLineDefinition) :
    ((∃ b, calculateFees asset amount lines = .ok b) ↔
      Valid asset amount lines ∧ totalOf (lines.map (lineItem amount)) ≤ amount) ∧
    (calculateFees asset amount lines = .error .feesExceedAmount ↔
      Valid asset amount lines ∧ amount < totalOf (lines.map (lineItem amount))) ∧
    ∀ b, calculateFees asset amount lines = .ok b → Exact asset amount lines b := by
  refine ⟨?_, ?_, fun b hb ↦ ?_⟩
  · simp only [calculateFees_eq_ok_iff, ← and_assoc, exists_eq_right']
  · rw [calculateFees, Valid, validateAsset]
    split_ifs <;> simp_all [breakdownOf]
  obtain ⟨⟨-, hamount, hlines⟩, hle, rfl⟩ := calculateFees_eq_ok_iff.1 hb
  have hpoints : ∀ line ∈ lines, 0 ≤ line.basisPoints := fun line hline ↦
    (valid_of_mem hlines hline).1
  refine ⟨rfl, (sub_add_cancel _ _).symm, sub_nonneg.2 hle, ?_, ?_, ?_, ?_⟩
  · refine forall₂_map_right_iff.2 (forall₂_same.2 fun line hline ↦ ?_)
    have hrate := rateAmount_eq_round hamount (hpoints line hline)
    exact ⟨rfl, rfl, rfl, hrate, amount_eq_max amount line⟩
  · intro amount' b' hle' hb'
    obtain ⟨-, -, rfl⟩ := calculateFees_eq_ok_iff.1 hb'
    exact totalOf_mono hamount hle' hlines
  · intro hrate
    refine error_le fun line hline ↦ ?_
    rw [← rateAmount_eq_round hamount (hpoints line hline)]
    exact hrate _ (mem_map.2 ⟨line, hline, rfl⟩)
  · exact fun stored ↦ reconcileFees_eq_nil_iff

end Utix.Fees

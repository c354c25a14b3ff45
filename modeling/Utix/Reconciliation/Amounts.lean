import Utix.Reconciliation.Snapshot

/-!
# Amounts as rational numbers

`amountsEqual` brings two decimal numerals to a common number of places and compares whole numbers.
Here a numeral is read the way it is written, digit by digit, as a rational number, and the
comparison is exact: it holds of two numerals iff they denote the same number, with any number of
digits, zeros at either end, or a negative zero.

A text that is no numeral is compared as it stands. Reading an amount looks at the trimmed text
only, so no numeral is equal to such a text, and `amountsEqual` is the equality of `meaning`.

The numbers of places of the two texts may differ by any amount: the smaller is filled up with
zeros, which is multiplication by a power of ten, and whole numbers of any size are compared. So
nothing is rounded on the way, which is the reason the source does not convert to numbers.
-/

namespace Utix.Reconciliation

open Js List Decimal

/-! ### Decimal numerals -/

/-- A text of the form `-?\d+(\.\d+)?`, with its parts; a numeral without a point has no
fraction. -/
structure IsNumeral (text : JsString) (negative : Bool) (whole fraction : JsString) : Prop where
  written : text = (if negative then [45] else []) ++ (whole ++
    if fraction = [] then [] else 46 :: fraction)
  nonempty : whole ≠ []
  whole_digits : whole.all isDigit = true
  fraction_digits : fraction.all isDigit = true

/-- The digits after the point, the first one in tenths. -/
def fractionValue : JsString → ℚ
  | [] => 0
  | c :: cs => ((c.toNat - 48 : ℕ) + fractionValue cs) / 10

/-- After trimming, the text is a decimal numeral that denotes `q`. -/
def Denotes (text : JsString) (q : ℚ) : Prop :=
  ∃ negative whole fraction, IsNumeral (trim text) negative whole fraction ∧
    q = (if negative then -1 else 1) * (Decimal.digitsValue whole + fractionValue fraction)

/-- The digits behind the point are a whole number over a power of ten. -/
theorem fractionValue_eq (fraction : JsString) :
    fractionValue fraction = digitsValue fraction / 10 ^ fraction.length := by
  induction fraction with
  | nil => simp [fractionValue, digitsValue]
  | cons c cs ih =>
    have hsplit : digitsValue (c :: cs) =
        (c.toNat - 48) * 10 ^ cs.length + digitsValue cs := by
      rw [← singleton_append, digitsValue_append]
      simp [digitsValue]
    rw [fractionValue, ih, hsplit, length_cons]
    push_cast
    field_simp
    ring

/-! ### The amount that is read -/

/-- The rational number of an amount. -/
def Amount.value (amount : Amount) : ℚ :=
  (if amount.negative then -1 else 1) * (amount.units / 10 ^ amount.places)

/-- Bringing an amount to more places does not change its value. -/
theorem Amount.scaled_eq (amount : Amount) {places : ℕ} (h : amount.places ≤ places) :
    (amount.scaled places : ℚ) = amount.value * 10 ^ places := by
  obtain ⟨more, rfl⟩ := Nat.exists_eq_add_of_le h
  rw [Amount.scaled, Amount.value, Nat.add_sub_cancel_left]
  push_cast
  field_simp
  ring

theorem Amount.scaled_eq_scaled_iff (a b : Amount) :
    a.scaled (max a.places b.places) = b.scaled (max a.places b.places) ↔ a.value = b.value := by
  rw [← Int.cast_inj (α := ℚ), a.scaled_eq (le_max_left ..), b.scaled_eq (le_max_right ..),
    mul_left_inj' (by positivity)]

/-- A numeral is read as its digits and the number of its places. -/
theorem IsNumeral.parse {text whole fraction : JsString} {negative : Bool}
    (h : IsNumeral (trim text) negative whole fraction) :
    Amount.parse text = some ⟨negative, digitsValue (whole ++ fraction), fraction.length⟩ := by
  obtain ⟨hwritten, hne, hdigits, hfraction⟩ := h
  have hwhole := all_eq_true.1 hdigits
  generalize hrest : (if fraction = [] then [] else 46 :: fraction) = rest at hwritten
  have hsign : startsWith (trim text) (js "-") = negative := by
    rw [hwritten, show js "-" = [45] by decide]
    cases negative with
    | true => simp [startsWith]
    | false =>
      obtain ⟨d, ds, rfl⟩ := exists_cons_of_ne_nil hne
      have hd : d ≠ 45 := by
        rintro rfl
        exact absurd (hwhole 45 mem_cons_self) (by decide)
      simp [startsWith, isPrefixOf, hd.symm]
  have hunsigned : (if negative then (trim text).drop 1 else trim text) = whole ++ rest := by
    rw [hwritten]
    cases negative <;> simp
  have hstop : rest.takeWhile isDigit = [] ∧ rest.dropWhile isDigit = rest := by
    rw [← hrest]
    split <;> simp [isDigit]
  rw [Amount.parse]
  simp only [hsign, hunsigned, takeWhile_append_of_pos hwhole,
    dropWhile_append_of_pos hwhole, hstop, append_nil, if_neg hne]
  subst hrest
  by_cases hnone : fraction = []
  · simp [hnone]
  · simp [hnone, hfraction]

/-- **What is read is what is denoted**. -/
theorem Denotes.parse {text : JsString} {q : ℚ} (h : Denotes text q) :
    ∃ amount, Amount.parse text = some amount ∧ amount.value = q := by
  obtain ⟨negative, whole, fraction, hnumeral, rfl⟩ := h
  refine ⟨_, hnumeral.parse, ?_⟩
  rw [Amount.value, digitsValue_append, fractionValue_eq]
  push_cast
  field_simp

/-! ### The comparison -/

/-- What the comparison looks at: the number of a numeral, the trimmed text of anything else. -/
def meaning (text : JsString) : ℚ ⊕ JsString :=
  match Amount.parse text with
  | some amount => .inl amount.value
  | none => .inr (trim text)

theorem parse_eq_of_trim_eq {left right : JsString} (h : trim left = trim right) :
    Amount.parse left = Amount.parse right := by
  rw [Amount.parse, Amount.parse, h]

/-- The comparison is the equality of what the texts mean. -/
theorem amountsEqual_iff_meaning (left right : JsString) :
    amountsEqual left right = true ↔ meaning left = meaning right := by
  rw [amountsEqual, meaning, meaning]
  cases hleft : Amount.parse left with
  | some a =>
    cases hright : Amount.parse right with
    | some b => simp [Amount.scaled_eq_scaled_iff]
    | none =>
      have hne : trim left ≠ trim right := fun h ↦ by
        simp [parse_eq_of_trim_eq h, hright] at hleft
      simp [hne]
  | none =>
    cases hright : Amount.parse right with
    | some b =>
      have hne : trim left ≠ trim right := fun h ↦ by
        simp [← parse_eq_of_trim_eq h, hleft] at hright
      simp [hne]
    | none => simp

/-- **Exact comparison of amounts**: two numerals are equal iff they denote the same rational
number, and over all texts the comparison is an equivalence relation. -/
theorem amountsEqual_exact :
    (∀ left right p q, Denotes left p → Denotes right q →
      (amountsEqual left right = true ↔ p = q)) ∧
    Equivalence fun left right ↦ amountsEqual left right = true := by
  refine ⟨fun left right p q hleft hright ↦ ?_, ?_⟩
  · obtain ⟨a, ha, rfl⟩ := hleft.parse
    obtain ⟨b, hb, rfl⟩ := hright.parse
    rw [amountsEqual_iff_meaning, meaning, meaning, ha, hb]
    exact Sum.inl_injective.eq_iff
  · simp only [amountsEqual_iff_meaning]
    exact eq_equivalence.comap meaning

/-- `" -0.50"` and `"-0.5"` are the same amount. -/
theorem amountsEqual_exact_half : amountsEqual (js " -0.50") (js "-0.5") = true := by
  have hlong : Denotes (js " -0.50") (-1 / 2) :=
    ⟨true, [48], [53, 48], ⟨by decide, by decide, by decide, by decide⟩, by decide +kernel⟩
  have hshort : Denotes (js "-0.5") (-1 / 2) :=
    ⟨true, [48], [53], ⟨by decide, by decide, by decide, by decide⟩, by decide +kernel⟩
  exact (amountsEqual_exact.1 _ _ _ _ hlong hshort).2 rfl

end Utix.Reconciliation

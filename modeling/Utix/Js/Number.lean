import Mathlib.Data.Nat.Digits.Lemmas
import Mathlib.Algebra.Order.Field.Power
import Mathlib.Tactic.FieldSimp
import Mathlib.Tactic.Positivity
import Utix.Js.Text

/-!
# JavaScript numbers as exact decimals

A finite number is kept as the decimal that `Number.prototype.toString` writes: an integer mantissa
not divisible by ten, times a power of ten. The normal form is a field of `Decimal`, so two decimals
with the same value are the same decimal (`value_injective`) and printing can be inverted.

Arithmetic is exact. Rounding to binary64 and overflow to infinity are not modelled; the two
infinities and `NaN` are there because a caller can pass them, and they absorb.

## Printing and reading

`Decimal.text` follows the four cases of `Number::toString` (plain integer, decimal point inside the
digits, leading `0.`, exponent form) and `parseNumber` is the number production of JSON. The round
trip `parseNumber_text` holds before any text that does not continue a number.
-/

namespace Js

open List

/-! ### Decimals in normal form -/

/-- `mantissa * 10 ^ exponent`, with no factor of ten left in the mantissa. -/
structure Decimal where
  /-- The digits, with their sign. -/
  mantissa : ℤ
  /-- The power of ten. -/
  exponent : ℤ
  /-- Zero has exponent zero, and any other mantissa ends in a digit that is not zero. -/
  normal : (mantissa = 0 ∧ exponent = 0) ∨ mantissa % 10 ≠ 0
  deriving DecidableEq

variable {fuel n : ℕ} {d : Decimal} {c : UInt16} {rest expo : JsString} {x : ℤ}

namespace Decimal

/-- Move factors of ten from the mantissa to the exponent, at most `fuel` of them. -/
def strip : ℕ → ℤ → ℤ → ℤ × ℤ
  | 0, m, e => (m, e)
  | fuel + 1, m, e => if m % 10 = 0 then strip fuel (m / 10) (e + 1) else (m, e)

/-- No factor ten is left. -/
theorem strip_fst_mod : ∀ {m e : ℤ}, m ≠ 0 → m.natAbs ≤ fuel →
    (strip fuel m e).1 % 10 ≠ 0 := by
  induction fuel with
  | zero => intro m e hm hle; omega
  | succ fuel ih =>
    intro m e hm hle
    rw [strip]
    split
    · next h => exact ih (by omega) (by omega)
    · next h => exact h

/-- Stripping does not change the value. -/
theorem strip_value : ∀ {m e : ℤ},
    ((strip fuel m e).1 : ℚ) * 10 ^ (strip fuel m e).2 = m * 10 ^ e := by
  induction fuel with
  | zero => intro m e; rfl
  | succ fuel ih =>
    intro m e
    rw [strip]
    split
    · next h =>
      have hm : (m : ℚ) = (m / 10 : ℤ) * 10 := by
        exact_mod_cast (Int.ediv_mul_cancel (Int.dvd_of_emod_eq_zero h)).symm
      rw [ih, hm, zpow_add_one₀ (by norm_num)]
      ring
    · rfl

theorem le_strip_snd : ∀ {m e : ℤ}, e ≤ (strip fuel m e).2 := by
  induction fuel with
  | zero => intro m e; exact le_rfl
  | succ fuel ih =>
    intro m e
    rw [strip]
    split
    · exact le_trans (by omega) ih
    · exact le_rfl

/-- The decimal with the value `m * 10 ^ e`. -/
def normalise (m e : ℤ) : Decimal :=
  if h : m = 0 then ⟨0, 0, .inl ⟨rfl, rfl⟩⟩
  else ⟨(strip m.natAbs m e).1, (strip m.natAbs m e).2, .inr (strip_fst_mod h le_rfl)⟩

/-- The value as a rational number. -/
def value (d : Decimal) : ℚ := d.mantissa * 10 ^ d.exponent

/-- The normal form has the value of what it is made from. -/
theorem value_normalise (m e : ℤ) : (normalise m e).value = m * 10 ^ e := by
  rw [normalise, value]
  split
  · next h => simp [h]
  · exact strip_value

/-- Equal values with exponents in this order: the larger exponent would put a factor of ten into
the other mantissa. -/
private theorem eq_of_value_eq_of_le {a b : Decimal} (h : a.value = b.value)
    (hle : a.exponent ≤ b.exponent) : a = b := by
  obtain ⟨k, hk⟩ := Int.le.dest hle
  have hmant : a.mantissa = b.mantissa * 10 ^ k := by
    have h10 : (10 : ℚ) ^ a.exponent ≠ 0 := zpow_ne_zero _ (by norm_num)
    have : (a.mantissa : ℚ) = b.mantissa * 10 ^ k := by
      rw [value, value, ← hk, zpow_add₀ (by norm_num), zpow_natCast] at h
      have h' : (a.mantissa : ℚ) * 10 ^ a.exponent = b.mantissa * 10 ^ k * 10 ^ a.exponent := by
        rw [h]; ring
      exact mul_right_cancel₀ h10 h'
    exact_mod_cast this
  rcases k with - | k
  · obtain ⟨am, ae, an⟩ := a
    obtain ⟨bm, be, bn⟩ := b
    simp only [pow_zero, mul_one, Nat.cast_zero, add_zero] at hmant hk
    subst hmant hk
    rfl
  · have hmod : a.mantissa % 10 = 0 := by
      rw [hmant, pow_succ, ← mul_assoc]
      exact Int.mul_emod_left _ _
    rcases a.normal with ⟨ha, hae⟩ | ha
    · have hb : b.mantissa = 0 := by
        rw [ha] at hmant
        rcases mul_eq_zero.1 hmant.symm with hb | hb
        · exact hb
        · exact absurd hb (pow_ne_zero _ (by norm_num))
      rcases b.normal with ⟨-, hbe⟩ | hb'
      · omega
      · rw [hb] at hb'; exact absurd rfl hb'
    · exact absurd hmod ha

/-- **The normal form is unique.** -/
theorem value_injective : Function.Injective value := by
  intro a b h
  rcases le_total a.exponent b.exponent with hle | hle
  · exact eq_of_value_eq_of_le h hle
  · exact (eq_of_value_eq_of_le h.symm hle).symm

theorem normalise_self (d : Decimal) : normalise d.mantissa d.exponent = d :=
  value_injective (value_normalise _ _)

/-- Factors of ten can be traded for the exponent. -/
theorem normalise_mul_pow (m e : ℤ) (k : ℕ) :
    normalise (m * 10 ^ k) (e - k) = normalise m e := by
  apply value_injective
  rw [value_normalise, value_normalise, zpow_sub₀ (by norm_num), zpow_natCast]
  push_cast
  field_simp

/-! ### Integers and addition -/

/-- `Number.isInteger(d)` -/
def isInteger (d : Decimal) : Bool := 0 ≤ d.exponent

/-- The decimal of an integer. -/
def ofInt (n : ℤ) : Decimal := normalise n 0

/-- `Math.trunc(d)`, as an integer. -/
def trunc (d : Decimal) : ℤ := (d.mantissa * 10 ^ d.exponent.toNat).tdiv (10 ^ (-d.exponent).toNat)

theorem value_ofInt (n : ℤ) : (ofInt n).value = n := by
  rw [ofInt, value_normalise]
  simp

theorem isInteger_ofInt (n : ℤ) : (ofInt n).isInteger = true := by
  rw [isInteger, ofInt, normalise, decide_eq_true_eq]
  split
  · exact le_rfl
  · exact le_strip_snd

/-- An integer decimal is the decimal of an integer. -/
theorem exists_ofInt (h : d.isInteger = true) : ∃ n : ℤ, d = ofInt n := by
  refine ⟨d.mantissa * 10 ^ d.exponent.toNat, value_injective ?_⟩
  have he : (d.exponent.toNat : ℤ) = d.exponent :=
    Int.toNat_of_nonneg (by simpa [isInteger] using h)
  rw [value_ofInt, value]
  conv_lhs => rw [← he]
  rw [zpow_natCast]
  push_cast
  ring

theorem ofInt_injective : Function.Injective ofInt := by
  intro a b h
  have hv : ((a : ℤ) : ℚ) = b := by rw [← value_ofInt a, ← value_ofInt b, h]
  exact_mod_cast hv

/-- The mantissa of `d` at the exponent `e`, for `e` no larger than the exponent of `d`. -/
def scaled (d : Decimal) (e : ℤ) : ℤ := d.mantissa * 10 ^ (d.exponent - e).toNat

/-- A decimal over a smaller power of ten has the same value. -/
theorem scaled_value {e : ℤ} (h : e ≤ d.exponent) : (d.scaled e : ℚ) * 10 ^ e = d.value := by
  obtain ⟨k, hk⟩ := Int.le.dest h
  rw [scaled, value, ← hk, show (e + (k : ℤ) - e).toNat = k by omega,
    zpow_add₀ (by norm_num), zpow_natCast]
  push_cast
  ring

section

variable (a b : Decimal)

/-- Exact addition. -/
def add : Decimal :=
  normalise (a.scaled (min a.exponent b.exponent) + b.scaled (min a.exponent b.exponent))
    (min a.exponent b.exponent)

/-- Addition is exact. -/
theorem value_add : (a.add b).value = a.value + b.value := by
  rw [add, value_normalise]
  push_cast
  rw [add_mul, scaled_value (min_le_left _ _), scaled_value (min_le_right _ _)]

theorem ofInt_add (a b : ℤ) : (ofInt a).add (ofInt b) = ofInt (a + b) := by
  apply value_injective
  rw [value_add, value_ofInt, value_ofInt, value_ofInt]
  push_cast
  ring

/-- `a < b` on values, decided at a common exponent. -/
def less : Bool :=
  a.scaled (min a.exponent b.exponent) < b.scaled (min a.exponent b.exponent)

/-- The order is that of the values. -/
theorem less_eq : a.less b = decide (a.value < b.value) := by
  have hpos : (0 : ℚ) < 10 ^ min a.exponent b.exponent := by positivity
  rw [less, ← scaled_value (min_le_left a.exponent b.exponent),
    ← scaled_value (min_le_right a.exponent b.exponent)]
  refine decide_eq_decide.2 ?_
  rw [mul_lt_mul_iff_of_pos_right hpos, Int.cast_lt]

end

/-! ### Digit strings -/

/-- The digits of a natural number, most significant first; none for zero. -/
def digitText (n : ℕ) : JsString := (Nat.digits 10 n).reverse.map fun d ↦ 48 + d.toUInt16

/-- The number a digit string stands for. -/
def digitsValue (s : JsString) : ℕ := s.foldl (fun acc c ↦ acc * 10 + (c.toNat - 48)) 0

theorem digitsValue_concat (s : JsString) (c : UInt16) :
    digitsValue (s ++ [c]) = digitsValue s * 10 + (c.toNat - 48) := by
  simp [digitsValue]

/-- The digits in front weigh more. -/
theorem digitsValue_append (s t : JsString) :
    digitsValue (s ++ t) = digitsValue s * 10 ^ t.length + digitsValue t := by
  induction t using reverseRecOn with
  | nil => simp [digitsValue]
  | append_singleton t c ih =>
    rw [← append_assoc, digitsValue_concat, ih, digitsValue_concat, length_append,
      length_singleton, pow_succ]
    ring

theorem digit_toNat {d : ℕ} (h : d < 10) : (48 + d.toUInt16 : UInt16).toNat = 48 + d := by
  rw [UInt16.toNat_add, Nat.toUInt16, UInt16.toNat_ofNat']
  simp only [UInt16.reduceToNat]
  omega

theorem isDigit_digit {d : ℕ} (h : d < 10) : isDigit (48 + d.toUInt16) = true := by
  have hn := digit_toNat h
  simp only [isDigit, Bool.and_eq_true, decide_eq_true_eq, UInt16.le_iff_toNat_le, hn]
  exact ⟨by simp, by simp only [UInt16.reduceToNat]; omega⟩

theorem digitsValue_replicate_zero (k : ℕ) : digitsValue (replicate k 48) = 0 := by
  induction k with
  | zero => rfl
  | succ k ih =>
    rw [replicate_succ', digitsValue_append, ih]
    rfl

/-- Printed digits denote the number they are the digits of. -/
theorem digitsValue_map_digits {l : List ℕ} (h : ∀ d ∈ l, d < 10) :
    digitsValue (l.reverse.map fun d ↦ 48 + d.toUInt16) = Nat.ofDigits 10 l := by
  induction l with
  | nil => rfl
  | cons d l ih =>
    have hd := digit_toNat (h d mem_cons_self)
    rw [reverse_cons, map_append, digitsValue_append,
      ih fun x hx ↦ h x (mem_cons_of_mem _ hx), Nat.ofDigits_cons]
    simp only [map_cons, map_nil, digitsValue, foldl_cons, foldl_nil, length_singleton, hd]
    omega

/-- **Reading back the digits of a number.** -/
theorem digitsValue_digitText (n : ℕ) : digitsValue (digitText n) = n := by
  rw [digitText, digitsValue_map_digits fun d hd ↦ Nat.digits_lt_base (by norm_num) hd,
    Nat.ofDigits_digits]

theorem isDigit_of_mem_digitText (h : c ∈ digitText n) : isDigit c = true := by
  obtain ⟨d, hd, rfl⟩ := mem_map.1 h
  exact isDigit_digit (Nat.digits_lt_base (by norm_num) (mem_reverse.1 hd))

theorem digitText_ne_nil (h : n ≠ 0) : digitText n ≠ [] := by
  simpa [digitText] using Nat.digits_ne_nil_iff_ne_zero.2 h

/-- The first digit of a number is not zero. -/
theorem digitText_head {cs : JsString} (h : digitText n = c :: cs) : c ≠ 48 := by
  have hn : n ≠ 0 := by
    rintro rfl
    simp [digitText] at h
  have hdig : Nat.digits 10 n ≠ [] := Nat.digits_ne_nil_iff_ne_zero.2 hn
  have hlast := Nat.getLast_digit_ne_zero 10 hn
  have hlt : (Nat.digits 10 n).getLast hdig < 10 :=
    Nat.digits_lt_base (by norm_num) (getLast_mem hdig)
  rw [digitText, ← dropLast_append_getLast hdig, reverse_append] at h
  simp only [reverse_cons, reverse_nil, nil_append, singleton_append, map_cons, cons.injEq] at h
  intro h0
  have hc := congrArg UInt16.toNat (h.1.trans h0)
  rw [digit_toNat hlt] at hc
  simp only [UInt16.reduceToNat] at hc
  omega

/-! ### Printing -/

/-- The fraction part of a number: nothing, or a point and its digits. -/
def fractionText (digits : JsString) : JsString := if digits = [] then [] else 46 :: digits

/-- The exponent part `e+x` or `e-x`. -/
def exponentText (x : ℤ) : JsString :=
  101 :: (if x < 0 then 45 else 43) :: digitText x.natAbs

/-- The text of a positive number with these digits and this exponent: `Number::toString` with its
four cases, where `n` is the position of the decimal point. -/
def magnitudeText (digits : JsString) (e : ℤ) : JsString :=
  let k : ℤ := digits.length
  let n := k + e
  if k ≤ n ∧ n ≤ 21 then digits ++ List.replicate e.toNat 48
  else if 0 < n ∧ n ≤ 21 then digits.take n.toNat ++ fractionText (digits.drop n.toNat)
  else if -6 < n ∧ n ≤ 0 then 48 :: fractionText (List.replicate (-n).toNat 48 ++ digits)
  else digits.take 1 ++ fractionText (digits.drop 1) ++ exponentText (n - 1)

/-- `String(d)` -/
def text (d : Decimal) : JsString :=
  if d.mantissa = 0 then [48]
  else (if d.mantissa < 0 then [45] else []) ++
    magnitudeText (digitText d.mantissa.natAbs) d.exponent

/-- The units of a number: digits, signs, the point and the mark of the exponent. -/
def isNumberUnit (c : UInt16) : Bool := isDigit c || c == 43 || c == 45 || c == 46 || c == 101

theorem isNumberUnit_of_isDigit (h : isDigit c = true) : isNumberUnit c = true := by
  simp [isNumberUnit, h]

/-! ### Reading -/

/-- A leading minus sign, and the text after it. -/
def splitMinus : JsString → Bool × JsString
  | [] => (false, [])
  | c :: cs => if c = 45 then (true, cs) else (false, c :: cs)

/-- The digits of an optional fraction part, and the text after it. -/
def parseFraction : JsString → Option (JsString × JsString)
  | [] => some ([], [])
  | c :: cs =>
    if c = 46 then
      if cs.takeWhile isDigit = [] then none
      else some (cs.takeWhile isDigit, cs.dropWhile isDigit)
    else some ([], c :: cs)

/-- The sign of an exponent, and the text after it. -/
def splitSign : JsString → Bool × JsString
  | [] => (false, [])
  | c :: cs => if c = 45 then (true, cs) else if c = 43 then (false, cs) else (false, c :: cs)

/-- The value of an optional exponent part, and the text after it. -/
def parseExponent : JsString → Option (ℤ × JsString)
  | [] => some (0, [])
  | c :: cs =>
    if c = 101 ∨ c = 69 then
      let (negative, s) := splitSign cs
      let x : ℤ := digitsValue (s.takeWhile isDigit)
      if s.takeWhile isDigit = [] then none
      else some (if negative then -x else x, s.dropWhile isDigit)
    else some (0, c :: cs)

/-- The integer part of a JSON number: `0`, or digits that do not start with zero. -/
def isIntegerPart (s : JsString) : Bool := s ≠ [] && (s.length = 1 || s.head? ≠ some 48)

/-- The number production of JSON, at the start of a text. -/
def parseNumber (s : JsString) : Option (Decimal × JsString) :=
  let (negative, s₁) := splitMinus s
  let int := s₁.takeWhile isDigit
  if isIntegerPart int then
    match parseFraction (s₁.dropWhile isDigit) with
    | none => none
    | some (frac, s₂) =>
      match parseExponent s₂ with
      | none => none
      | some (x, s₃) =>
        let m : ℤ := digitsValue (int ++ frac)
        some (normalise (if negative then -m else m) (x - frac.length), s₃)
  else none

/-! ### The round trip -/

/-- The text does not continue a number: it does not start with a digit, a point or an exponent
mark. -/
def EndsNumber (rest : JsString) : Prop :=
  ∀ c ∈ rest.head?, isDigit c = false ∧ c ≠ 46 ∧ c ≠ 101 ∧ c ≠ 69

/-- What the reader sees after digits that are followed by something else. -/
theorem takeWhile_digits {ds : JsString} (hds : ∀ c ∈ ds, isDigit c = true)
    (hrest : ∀ c ∈ rest.head?, isDigit c = false) :
    (ds ++ rest).takeWhile isDigit = ds ∧ (ds ++ rest).dropWhile isDigit = rest := by
  rw [takeWhile_append_of_pos hds, dropWhile_append_of_pos hds]
  rcases rest with - | ⟨c, cs⟩
  · simp
  · have hc : isDigit c = false := hrest c rfl
    simp [hc]

theorem splitMinus_eq_self {s : JsString} (h : ∀ c ∈ s.head?, c ≠ 45) :
    splitMinus s = (false, s) := by
  rcases s with - | ⟨c, cs⟩
  · rfl
  · rw [splitMinus, if_neg (h c rfl)]

/-- A fraction is read back. -/
theorem parseFraction_fractionText {frac : JsString} (hfrac : ∀ c ∈ frac, isDigit c = true)
    (hrest : ∀ c ∈ rest.head?, isDigit c = false ∧ c ≠ 46) :
    parseFraction (fractionText frac ++ rest) = some (frac, rest) := by
  rw [fractionText]
  split
  · next h =>
    subst h
    rcases rest with - | ⟨c, cs⟩
    · rfl
    · rw [nil_append, parseFraction, if_neg (hrest c rfl).2]
  · next h =>
    obtain ⟨htake, hdrop⟩ := takeWhile_digits hfrac fun c hc ↦ (hrest c hc).1
    rw [cons_append, parseFraction, if_pos rfl, htake, hdrop, if_neg h]

theorem parseExponent_none (hrest : EndsNumber rest) : parseExponent rest = some (0, rest) := by
  rcases rest with - | ⟨c, cs⟩
  · rfl
  · have hc := hrest c rfl
    rw [parseExponent, if_neg (by simp [hc])]

/-- **One number, read from its parts**: sign, integer part, fraction and exponent, in the order the
production reads them. The four cases of `magnitudeText` are instances. -/
theorem parseNumber_parts (negative : Bool) {int frac : JsString}
    (hint : ∀ c ∈ int, isDigit c = true) (hpart : isIntegerPart int = true)
    (hfrac : ∀ c ∈ frac, isDigit c = true)
    (hexpo : ∀ c ∈ (expo ++ rest).head?, isDigit c = false ∧ c ≠ 46)
    (hparse : parseExponent (expo ++ rest) = some (x, rest)) :
    parseNumber ((if negative then [45] else []) ++
      (int ++ (fractionText frac ++ (expo ++ rest)))) =
      some (normalise (if negative then -(digitsValue (int ++ frac) : ℤ)
        else digitsValue (int ++ frac)) (x - frac.length), rest) := by
  have hne : int ≠ [] := by
    rintro rfl
    simp [isIntegerPart] at hpart
  have hsplit : splitMinus ((if negative then [45] else []) ++
      (int ++ (fractionText frac ++ (expo ++ rest)))) =
        (negative, int ++ (fractionText frac ++ (expo ++ rest))) := by
    cases negative with
    | true => rfl
    | false =>
      refine splitMinus_eq_self fun c hc ↦ ?_
      obtain ⟨d, ds, rfl⟩ := exists_cons_of_ne_nil hne
      obtain rfl : d = c := by simpa using hc
      rintro rfl
      exact absurd (hint 45 mem_cons_self) (by decide)
  have hafter : ∀ c ∈ (fractionText frac ++ (expo ++ rest)).head?, isDigit c = false := by
    intro c hc
    rw [fractionText] at hc
    split at hc
    · exact (hexpo c (by simpa using hc)).1
    · obtain rfl : 46 = c := by simpa using hc
      decide
  obtain ⟨htake, hdrop⟩ := takeWhile_digits hint hafter
  rw [parseNumber, hsplit]
  simp only [htake, hdrop, hpart, if_true, parseFraction_fractionText hfrac hexpo, hparse]

/-- The exponent part that goes with the exponent `x`: none stands for zero. -/
def IsExponentText (x : ℤ) (expo : JsString) : Prop :=
  (x = 0 ∧ expo = []) ∨ (x ≠ 0 ∧ expo = exponentText x)

section

variable (h : IsExponentText x expo)
include h

/-- An exponent is read back. -/
theorem IsExponentText.parse (hrest : EndsNumber rest) :
    parseExponent (expo ++ rest) = some (x, rest) := by
  rcases h with ⟨rfl, rfl⟩ | ⟨hx, rfl⟩
  · exact parseExponent_none hrest
  · obtain ⟨htake, hdrop⟩ :=
      takeWhile_digits (fun c ↦ isDigit_of_mem_digitText (n := x.natAbs)) fun c hc ↦ (hrest c hc).1
    have hne : digitText x.natAbs ≠ [] := digitText_ne_nil (by omega)
    rw [exponentText, cons_append, parseExponent, if_pos (.inl rfl), cons_append]
    by_cases hneg : x < 0
    · rw [if_pos hneg, splitSign, if_pos rfl]
      simp only [htake, hdrop, if_neg hne, digitsValue_digitText, if_true]
      congr 2
      omega
    · rw [if_neg hneg, splitSign, if_neg (by decide), if_pos rfl]
      simp only [htake, hdrop, if_neg hne, digitsValue_digitText, Bool.false_eq_true, if_false]
      congr 2
      omega

theorem IsExponentText.head (hrest : EndsNumber rest) :
    ∀ c ∈ (expo ++ rest).head?, isDigit c = false ∧ c ≠ 46 := by
  rcases h with ⟨-, rfl⟩ | ⟨-, rfl⟩
  · exact fun c hc ↦ ⟨(hrest c hc).1, (hrest c hc).2.1⟩
  · intro c hc
    obtain rfl : 101 = c := by simpa [exponentText] using hc
    decide

theorem IsExponentText.isNumberUnit (hc : c ∈ expo) : isNumberUnit c = true := by
  rcases h with ⟨-, rfl⟩ | ⟨-, rfl⟩
  · cases hc
  rcases mem_cons.1 hc with rfl | hc
  · decide
  rcases mem_cons.1 hc with rfl | hc
  · split <;> decide
  · exact isNumberUnit_of_isDigit (isDigit_of_mem_digitText hc)

end

/-- **The parts of a printed magnitude.** The digits read back are those of `n` with `j` zeros, and
the exponent they are read with is `e - j`: only the plain integer case has `j ≠ 0`. -/
theorem magnitudeText_parts (hn : n ≠ 0) (e : ℤ) :
    ∃ int frac expo x, magnitudeText (digitText n) e = int ++ (fractionText frac ++ expo) ∧
      (∀ c ∈ int, isDigit c = true) ∧ isIntegerPart int = true ∧
      (∀ c ∈ frac, isDigit c = true) ∧ IsExponentText x expo ∧
      ∃ j : ℕ, digitsValue (int ++ frac) = n * 10 ^ j ∧ x - frac.length = e - j := by
  set ds := digitText n with hds
  have hdig : ∀ c ∈ ds, isDigit c = true := fun c hc ↦ isDigit_of_mem_digitText hc
  have hval : digitsValue ds = n := digitsValue_digitText n
  obtain ⟨c, cs, hcs⟩ := exists_cons_of_ne_nil (digitText_ne_nil hn)
  have hc : c ≠ 48 := digitText_head hcs
  have hlen : 0 < ds.length := by rw [hds, hcs]; exact Nat.succ_pos _
  have hzeros : ∀ k, ∀ z ∈ replicate k (48 : UInt16), isDigit z = true := by
    intro k z hz
    rw [eq_of_mem_replicate hz]
    decide
  rw [magnitudeText]
  split_ifs with h₁ h₂ h₃
  · refine ⟨ds ++ replicate e.toNat 48, [], [], 0, by simp [fractionText], ?_, ?_, by simp,
      .inl ⟨rfl, rfl⟩, e.toNat, ?_, ?_⟩
    · intro z hz
      rcases mem_append.1 hz with hz | hz
      · exact hdig z hz
      · exact hzeros _ z hz
    · rw [hds, hcs]
      simp [isIntegerPart, hc]
    · rw [append_nil, digitsValue_append, hval, digitsValue_replicate_zero, Nat.add_zero,
        length_replicate]
    · simp only [length_nil]
      omega
  · refine ⟨ds.take ((ds.length : ℤ) + e).toNat, ds.drop ((ds.length : ℤ) + e).toNat, [], 0,
      by simp, fun z hz ↦ hdig z (mem_of_mem_take hz), ?_,
      fun z hz ↦ hdig z (mem_of_mem_drop hz), .inl ⟨rfl, rfl⟩, 0, ?_, ?_⟩
    · obtain ⟨j, hj⟩ : ∃ j, ((ds.length : ℤ) + e).toNat = j + 1 :=
        ⟨((ds.length : ℤ) + e).toNat - 1, by omega⟩
      rw [hj, hds, hcs]
      simp [isIntegerPart, hc]
    · rw [take_append_drop, hval, pow_zero, Nat.mul_one]
    · rw [length_drop]
      omega
  · refine ⟨[48], replicate (-((ds.length : ℤ) + e)).toNat 48 ++ ds, [], 0, by simp,
      forall_mem_singleton.2 (by decide), by decide, ?_, .inl ⟨rfl, rfl⟩, 0, ?_, ?_⟩
    · intro z hz
      rcases mem_append.1 hz with hz | hz
      · exact hzeros _ z hz
      · exact hdig z hz
    · rw [digitsValue_append, digitsValue_append, digitsValue_replicate_zero, hval,
        show digitsValue [48] = 0 from rfl]
      simp
    · rw [length_append, length_replicate]
      omega
  · refine ⟨ds.take 1, ds.drop 1, exponentText ((ds.length : ℤ) + e - 1), (ds.length : ℤ) + e - 1,
      by simp, fun z hz ↦ hdig z (mem_of_mem_take hz), ?_,
      fun z hz ↦ hdig z (mem_of_mem_drop hz), .inr ⟨by omega, rfl⟩, 0, ?_, ?_⟩
    · rw [hds, hcs]
      simp [isIntegerPart]
    · rw [take_append_drop, hval, pow_zero, Nat.mul_one]
    · rw [length_drop]
      omega

/-- A printed number starts with a digit or a minus sign. -/
theorem text_head (d : Decimal) :
    ∃ c cs, d.text = c :: cs ∧ (isDigit c = true ∨ c = 45) := by
  rw [text]
  split
  · exact ⟨48, [], rfl, .inl (by decide)⟩
  next hm =>
  obtain ⟨int, frac, expo, x, htext, hint, hpart, -⟩ :=
    magnitudeText_parts (n := d.mantissa.natAbs) (by omega) d.exponent
  rw [htext]
  split
  · exact ⟨45, _, rfl, .inr rfl⟩
  · rcases int with - | ⟨c, cs⟩
    · simp [isIntegerPart] at hpart
    · exact ⟨c, _, rfl, .inl (hint c mem_cons_self)⟩

/-- **A number is written in the units of numbers.** -/
theorem isNumberUnit_of_mem_text (h : c ∈ d.text) : isNumberUnit c = true := by
  rw [text] at h
  split at h
  · rw [mem_singleton.1 h]
    decide
  next hm =>
  obtain ⟨int, frac, expo, x, htext, hint, -, hfrac, hexpo, -⟩ :=
    magnitudeText_parts (n := d.mantissa.natAbs) (by omega) d.exponent
  rw [htext] at h
  simp only [mem_append] at h
  rcases h with h | h | h | h
  · split at h
    · rw [mem_singleton.1 h]
      decide
    · cases h
  · exact isNumberUnit_of_isDigit (hint c h)
  · rw [fractionText] at h
    split at h
    · cases h
    · rcases mem_cons.1 h with rfl | h
      · decide
      · exact isNumberUnit_of_isDigit (hfrac c h)
  · exact hexpo.isNumberUnit h

/-- **Reading inverts printing**, in front of anything that does not continue the number. -/
theorem parseNumber_text (d : Decimal) (hrest : EndsNumber rest) :
    parseNumber (d.text ++ rest) = some (d, rest) := by
  rw [text]
  split
  · next hm =>
    have hd : d = normalise 0 0 := by
      rcases d.normal with ⟨-, he⟩ | h
      · conv_lhs => rw [← normalise_self d, hm, he]
      · rw [hm] at h; exact absurd rfl h
    have hexpo : IsExponentText 0 [] := .inl ⟨rfl, rfl⟩
    have hzero : ∀ c ∈ ([48] : JsString), isDigit c = true :=
      forall_mem_singleton.2 (by decide)
    have hnone : ∀ c ∈ ([] : JsString), isDigit c = true := forall_mem_nil _
    have h := parseNumber_parts false hzero (by decide) hnone (hexpo.head hrest)
      (hexpo.parse hrest)
    simpa [fractionText, digitsValue, ← hd] using h
  · next hm =>
    obtain ⟨int, frac, expo, x, htext, hint, hpart, hfrac, hexpo, j, hval, hx⟩ :=
      magnitudeText_parts (n := d.mantissa.natAbs) (by omega) d.exponent
    have h := parseNumber_parts (decide (d.mantissa < 0)) hint hpart hfrac
      (hexpo.head hrest) (hexpo.parse hrest)
    have hsigned : (if decide (d.mantissa < 0) = true then -((d.mantissa.natAbs * 10 ^ j : ℕ) : ℤ)
        else ((d.mantissa.natAbs * 10 ^ j : ℕ) : ℤ)) = d.mantissa * 10 ^ j := by
      by_cases hneg : d.mantissa < 0
      · rw [decide_eq_true hneg, if_pos rfl, Nat.cast_mul,
          show (d.mantissa.natAbs : ℤ) = -d.mantissa by omega]
        push_cast
        ring
      · rw [decide_eq_false hneg, if_neg Bool.false_ne_true, Nat.cast_mul,
          show (d.mantissa.natAbs : ℤ) = d.mantissa by omega]
        push_cast
        ring
    rw [hval, hsigned, hx, normalise_mul_pow, normalise_self] at h
    rw [htext]
    simpa only [append_assoc, decide_eq_true_eq] using h

end Decimal

/-! ### Numbers -/

/-- A number value: a finite decimal, an infinity, or `NaN`. Minus zero is not told apart from
zero. -/
inductive JsNum
  | nan
  | infinite (negative : Bool)
  | finite (d : Decimal)
  deriving DecidableEq

namespace JsNum

/-- A number literal of the source. -/
def ofInt (n : ℤ) : JsNum := .finite (Decimal.ofInt n)

/-- `Number.isFinite(x)` -/
def isFinite : JsNum → Bool
  | .finite _ => true
  | _ => false

/-- `Number.isInteger(x)` -/
def isInteger : JsNum → Bool
  | .finite d => d.isInteger
  | _ => false

/-- `String(x)` -/
def text : JsNum → JsString
  | .nan => js "NaN"
  | .infinite negative => if negative then js "-Infinity" else js "Infinity"
  | .finite d => d.text

/-- `x + y` -/
def add : JsNum → JsNum → JsNum
  | .finite a, .finite b => .finite (a.add b)
  | .infinite p, .finite _ => .infinite p
  | .finite _, .infinite p => .infinite p
  | .infinite p, .infinite q => if p = q then .infinite p else .nan
  | _, _ => .nan

/-- `x < y`; false when either side is `NaN`. -/
def less : JsNum → JsNum → Bool
  | .finite a, .finite b => a.less b
  | .infinite p, .finite _ => p
  | .finite _, .infinite p => !p
  | .infinite p, .infinite q => p && !q
  | _, _ => false

/-- `-x` -/
def neg : JsNum → JsNum
  | .finite d => .finite (Decimal.normalise (-d.mantissa) d.exponent)
  | .infinite p => .infinite !p
  | .nan => .nan

/-- `x - y` -/
def sub (x y : JsNum) : JsNum := x.add y.neg

/-- `10 * x` -/
def timesTen : JsNum → JsNum
  | .finite d => .finite (Decimal.normalise d.mantissa (d.exponent + 1))
  | x => x

/-- `x === y`; false when either side is `NaN`. -/
def equals (x y : JsNum) : Bool := x ≠ .nan && x = y

/-- `x <= y`; false when either side is `NaN`. -/
def atMost (x y : JsNum) : Bool := x.less y || x.equals y

/-- `Math.max(x, y)` -/
def max (x y : JsNum) : JsNum := if x = .nan ∨ y = .nan then .nan else if x.less y then y else x

/-- `Number.isSafeInteger(x)` -/
def isSafeInteger (x : JsNum) : Bool :=
  x.isInteger && (ofInt (-(2 ^ 53 - 1))).atMost x && x.atMost (ofInt (2 ^ 53 - 1))

variable {x : JsNum}

theorem exists_ofInt (h : x.isInteger = true) : ∃ n : ℤ, x = ofInt n := by
  cases x with
  | finite d =>
    obtain ⟨n, rfl⟩ := Decimal.exists_ofInt h
    exact ⟨n, rfl⟩
  | nan => exact absurd h (by simp [isInteger])
  | infinite p => exact absurd h (by simp [isInteger])

@[simp] theorem isInteger_ofInt (n : ℤ) : (ofInt n).isInteger = true := Decimal.isInteger_ofInt n

@[simp] theorem ofInt_add (a b : ℤ) : (ofInt a).add (ofInt b) = ofInt (a + b) :=
  congrArg JsNum.finite (Decimal.ofInt_add a b)

theorem ofInt_injective : Function.Injective ofInt := fun _ _ h ↦
  Decimal.ofInt_injective (JsNum.finite.inj h)

@[simp] theorem equals_ofInt (a b : ℤ) : (ofInt a).equals (ofInt b) = decide (a = b) := by
  have hne : ofInt a ≠ .nan := nofun
  simp [equals, hne, ofInt_injective.eq_iff]

@[simp] theorem less_ofInt (a b : ℤ) : (ofInt a).less (ofInt b) = decide (a < b) := by
  rw [ofInt, ofInt, less, Decimal.less_eq, Decimal.value_ofInt, Decimal.value_ofInt]
  exact decide_eq_decide.2 Int.cast_lt

/-- What an integer does not exceed, no smaller integer exceeds. -/
@[simp] theorem atMost_ofInt (a b : ℤ) : (ofInt a).atMost (ofInt b) = decide (a ≤ b) := by
  rw [atMost, less_ofInt, equals_ofInt, ← Bool.decide_or]
  exact decide_eq_decide.2 le_iff_lt_or_eq.symm

theorem less_ofInt_eq_false_of_le {a b : ℤ} (h : x.less (ofInt b) = false) (hab : a ≤ b) :
    x.less (ofInt a) = false := by
  cases x with
  | finite d =>
    rw [ofInt, less, Decimal.less_eq, Decimal.value_ofInt, decide_eq_false_iff_not] at h ⊢
    exact fun hlt ↦ h (lt_of_lt_of_le hlt (Int.cast_le.2 hab))
  | infinite p => exact h
  | nan => rfl

/-- A summand of an integer sum of an integer is an integer. -/
theorem eq_ofInt_of_add_eq {a b : ℤ} (h : x.add (ofInt a) = ofInt b) : x = ofInt (b - a) := by
  cases x with
  | finite d =>
    have hsum : d.value + a = b := by
      rw [← Decimal.value_ofInt a, ← Decimal.value_add, JsNum.finite.inj h, Decimal.value_ofInt]
    refine congrArg JsNum.finite (Decimal.value_injective ?_)
    rw [Decimal.value_ofInt]
    push_cast
    linarith
  | nan => exact absurd h (by simp [add, ofInt])
  | infinite p => exact absurd h (by simp [add, ofInt])

end JsNum

end Js

import Utix.Js.Number

/-!
# Instants and their ISO text

An instant is a number of milliseconds since the epoch, and `Date.prototype.toISOString` prints it
in the proleptic Gregorian calendar: a four digit year, or a sign and six digits outside
`0000`–`9999`. The printer throws a `RangeError` beyond ±8.64·10¹⁵ ms, which is `none` here; a clock
that answers `NaN` behaves as one that answers an instant out of range.

`Date.parse` reads that text and the other forms the language fixes without reference to a time
zone: a date alone, and a date and time with `Z` or an offset. Everything else — RFC 2822 dates,
local times, whatever an engine accepts besides — is a parameter, `other`.

Three facts are used downstream:

* `parse_toISOString` — an instant survives its text;
* `isIsoUnit_of_toISOString` — the text is made of digits and `+-.:TZ`, so no scrubbing rule that
  looks for letters or white space touches it;
* `isoText_lt_isoText` — inside the four digit years **the order of the texts is the order of the
  instants**. Outside them, or across two textual forms, it is not.
-/

namespace Js

variable {w n : ℕ} {c : UInt16} {s x y : JsString} {t : ℤ}

namespace Date

open Decimal List Option

/-! ### Digits of a fixed width -/

/-- `n` in `w` decimal digits. -/
def pad : ℕ → ℕ → JsString
  | 0, _ => []
  | w + 1, n => pad w (n / 10) ++ [48 + (n % 10).toUInt16]

@[simp] theorem length_pad (w n : ℕ) : (pad w n).length = w := by
  induction w generalizing n with
  | zero => rfl
  | succ w ih => rw [pad, length_append, ih, length_singleton]

theorem isDigit_of_mem_pad (h : c ∈ pad w n) : isDigit c = true := by
  induction w generalizing n with
  | zero => cases h
  | succ w ih =>
    rcases mem_append.1 h with h | h
    · exact ih h
    · rw [mem_singleton.1 h]
      exact isDigit_digit (Nat.mod_lt _ (by norm_num))

/-- Padded digits denote the number. -/
theorem digitsValue_pad (h : n < 10 ^ w) : digitsValue (pad w n) = n := by
  induction w generalizing n with
  | zero =>
    obtain rfl : n = 0 := by simpa using h
    rfl
  | succ w ih =>
    have hdiv : n / 10 < 10 ^ w := by rw [pow_succ] at h; omega
    rw [pad, digitsValue_concat, ih hdiv, digit_toNat (Nat.mod_lt _ (by norm_num))]
    omega

/-- The first parts decide, if they have the same length. -/
theorem append_lt_append {t : JsString} (h : s < t) (hlen : s.length = t.length) (x y : JsString) :
    s ++ x < t ++ y := by
  induction s generalizing t with
  | nil =>
    obtain rfl : t = [] := eq_nil_of_length_eq_zero hlen.symm
    exact absurd h (lt_irrefl _)
  | cons c s ih =>
    rcases t with - | ⟨d, t⟩
    · cases hlen
    rw [cons_append, cons_append, cons_lt_cons_iff]
    rcases cons_lt_cons_iff.1 h with hhead | ⟨rfl, htail⟩
    · exact .inl hhead
    · exact .inr ⟨rfl, ih htail (by simpa using hlen)⟩

theorem append_lt_append_left (s : JsString) (h : x < y) : s ++ x < s ++ y := by
  induction s with
  | nil => exact h
  | cons c s ih => exact cons_lt_cons_iff.2 (.inr ⟨rfl, ih⟩)

/-- At a fixed width the lexicographic order of the digits is the order of the numbers. -/
theorem pad_lt_pad {m : ℕ} (h : m < n) (hn : n < 10 ^ w) : pad w m < pad w n := by
  induction w generalizing m n with
  | zero => exact absurd h (by simp at hn; omega)
  | succ w ih =>
    have hdiv : n / 10 < 10 ^ w := by rw [pow_succ] at hn; omega
    rw [pad, pad]
    rcases Nat.lt_or_ge (m / 10) (n / 10) with hlt | hge
    · exact append_lt_append (ih hlt hdiv) (by simp) _ _
    have heq : m / 10 = n / 10 := by omega
    rw [heq]
    refine append_lt_append_left _ (cons_lt_cons_iff.2 (.inl ?_))
    rw [UInt16.lt_iff_toNat_lt, digit_toNat (Nat.mod_lt _ (by norm_num)),
      digit_toNat (Nat.mod_lt _ (by norm_num))]
    omega

/-- One field of a text: the smaller number gives the smaller text, and equal numbers leave the
decision to what follows. -/
theorem field_lt_field {m : ℕ} (hn : n < 10 ^ w) (h : m < n ∨ m = n ∧ x < y) :
    pad w m ++ x < pad w n ++ y := by
  rcases h with h | ⟨rfl, h⟩
  · exact append_lt_append (pad_lt_pad h hn) (by simp) _ _
  · exact append_lt_append_left _ h

theorem cons_lt_cons (h : x < y) : c :: x < c :: y :=
  cons_lt_cons_iff.2 (.inr ⟨rfl, h⟩)

/-! ### The calendar -/

/-- The day number of the first of January. -/
def dayFromYear (y : ℤ) : ℤ :=
  365 * (y - 1970) + (y - 1969) / 4 - (y - 1901) / 100 + (y - 1601) / 400

/-- The year of a day: an estimate from the mean length of the year, off by at most one. -/
def yearFromDay (d : ℤ) : ℤ :=
  let y := 1970 + 400 * d / 146097
  if d < dayFromYear y then y - 1 else if dayFromYear (y + 1) ≤ d then y + 1 else y

/-- A leap year. -/
def isLeap (y : ℤ) : Bool := y % 4 = 0 && (y % 100 ≠ 0 || y % 400 = 0)

/-- The day of the year on which month `m` starts, `m = 1, …, 13`. -/
def monthStart (leap : Bool) (m : ℕ) : ℕ :=
  [0, 0, 31, 59, 90, 120, 151, 181, 212, 243, 273, 304, 334, 365].getD m 0 +
    if leap && 2 < m then 1 else 0

/-- The month, `1, …, 12`, of a day of the year. -/
def monthFromDay (leap : Bool) (doy : ℕ) : ℕ :=
  ((List.range 12).filter fun k ↦ monthStart leap (k + 1) ≤ doy).length

/-- A day lies in the year that is found for it. -/
theorem yearFromDay_spec (d : ℤ) :
    dayFromYear (yearFromDay d) ≤ d ∧ d < dayFromYear (yearFromDay d + 1) := by
  rw [yearFromDay]
  split_ifs with hlow hhigh
  · refine ⟨?_, by rwa [sub_add_cancel]⟩
    simp only [dayFromYear] at *
    omega
  · refine ⟨hhigh, ?_⟩
    simp only [dayFromYear] at *
    omega
  · exact ⟨not_lt.1 hlow, not_le.1 hhigh⟩

/-- A year has 365 days, or 366. -/
theorem dayFromYear_succ (y : ℤ) :
    dayFromYear (y + 1) = dayFromYear y + 365 + if isLeap y then 1 else 0 := by
  simp only [isLeap, dayFromYear, Bool.and_eq_true, Bool.or_eq_true, decide_eq_true_eq]
  split_ifs <;> omega

theorem dayFromYear_mono {y z : ℤ} (h : y ≤ z) : dayFromYear y ≤ dayFromYear z := by
  refine monotone_int_of_le_succ (fun y ↦ ?_) h
  rw [dayFromYear_succ]
  split_ifs <;> omega

theorem yearFromDay_mono {d e : ℤ} (h : d ≤ e) : yearFromDay d ≤ yearFromDay e := by
  by_contra hlt
  have hstep : dayFromYear (yearFromDay e + 1) ≤ dayFromYear (yearFromDay d) :=
    dayFromYear_mono (by omega)
  have hd := (yearFromDay_spec d).1
  have he := (yearFromDay_spec e).2
  omega

/-- A day of a year lies in the month that is found for it. -/
theorem monthFromDay_spec (leap : Bool) :
    ∀ doy < 365 + leap.toNat, 1 ≤ monthFromDay leap doy ∧ monthFromDay leap doy ≤ 12 ∧
      monthStart leap (monthFromDay leap doy) ≤ doy ∧
        doy < monthStart leap (monthFromDay leap doy + 1) := by
  cases leap <;> decide +kernel

/-- An instant in calendar terms. -/
structure Civil where
  year : ℤ
  month : ℕ
  day : ℕ
  hour : ℕ := 0
  minute : ℕ := 0
  second : ℕ := 0
  milli : ℕ := 0

/-- The day of the year of a day number, counted from zero. -/
def dayOfYear (d : ℤ) : ℕ := (d - dayFromYear (yearFromDay d)).toNat

/-- The calendar form of an instant. -/
def civil (t : ℤ) : Civil :=
  let d := t / 86400000
  let ms := (t % 86400000).toNat
  let y := yearFromDay d
  let m := monthFromDay (isLeap y) (dayOfYear d)
  { year := y
    month := m
    day := dayOfYear d - monthStart (isLeap y) m + 1
    hour := ms / 3600000
    minute := ms / 60000 % 60
    second := ms / 1000 % 60
    milli := ms % 1000 }

section

variable (c : Civil)

/-- The instant of a calendar form. -/
def Civil.instant : ℤ :=
  (dayFromYear c.year + monthStart (isLeap c.year) c.month + (c.day - 1)) * 86400000 +
    c.hour * 3600000 + c.minute * 60000 + c.second * 1000 + c.milli

/-- A real day of a real month, and a time of day. -/
def Civil.Valid : Prop :=
  1 ≤ c.month ∧ c.month ≤ 12 ∧ 1 ≤ c.day ∧
    c.day ≤ monthStart (isLeap c.year) (c.month + 1) - monthStart (isLeap c.year) c.month ∧
      c.hour < 24 ∧ c.minute < 60 ∧ c.second < 60 ∧ c.milli < 1000

theorem dayOfYear_lt (d : ℤ) : dayOfYear d < 365 + (isLeap (yearFromDay d)).toNat := by
  have hspec := yearFromDay_spec d
  rw [dayFromYear_succ] at hspec
  rw [dayOfYear]
  cases hleap : isLeap (yearFromDay d) <;> simp only [hleap, Bool.toNat_false, Bool.toNat_true,
    Bool.false_eq_true, if_true, if_false] at hspec ⊢ <;> omega

/-- A day is the first of its year and the days since. -/
theorem dayFromYear_add_dayOfYear (d : ℤ) : dayFromYear (yearFromDay d) + dayOfYear d = d := by
  have hspec := yearFromDay_spec d
  rw [dayOfYear]
  omega

/-- The calendar fields of an instant are in their ranges. -/
theorem civil_valid (t : ℤ) : (civil t).Valid := by
  obtain ⟨hlow, hhigh, hstart, hnext⟩ := monthFromDay_spec (isLeap (yearFromDay (t / 86400000)))
    (dayOfYear (t / 86400000)) (dayOfYear_lt _)
  refine ⟨hlow, hhigh, ?_, ?_, ?_, ?_, ?_, ?_⟩ <;> simp only [civil] <;> omega

/-- **The calendar form determines the instant.** -/
theorem instant_civil (t : ℤ) : (civil t).instant = t := by
  obtain ⟨-, -, hstart, -⟩ := monthFromDay_spec (isLeap (yearFromDay (t / 86400000)))
    (dayOfYear (t / 86400000)) (dayOfYear_lt _)
  have hday := dayFromYear_add_dayOfYear (t / 86400000)
  simp only [Civil.instant, civil]
  omega

/-! ### Printing -/

/-- The year of an ISO text. -/
def yearText (y : ℤ) : JsString :=
  if 0 ≤ y ∧ y ≤ 9999 then pad 4 y.toNat else (if y < 0 then 45 else 43) :: pad 6 y.natAbs

/-- The text `hh:mm:ss.sssZ`. -/
def timeText : JsString :=
  pad 2 c.hour ++ 58 :: (pad 2 c.minute ++ 58 :: (pad 2 c.second ++ 46 :: (pad 3 c.milli ++ [90])))

/-- The text after the year. -/
def restText : JsString :=
  45 :: (pad 2 c.month ++ 45 :: (pad 2 c.day ++ 84 :: timeText c))

/-- The ISO text of a calendar form. -/
def isoText : JsString := yearText c.year ++ restText c

end

/-- The largest instant a `Date` holds. -/
def maxTime : ℤ := 8640000000000000

/-- `new Date(t).toISOString()`; `none` is a `RangeError`. -/
def toISOString (t : ℤ) : Option JsString :=
  if -maxTime ≤ t ∧ t ≤ maxTime then some (isoText (civil t)) else none

/-- `new Date(x).toISOString()` of any number: a `Date` keeps the whole milliseconds. -/
def textOf : JsNum → Option JsString
  | .finite d => toISOString d.trunc
  | _ => none

/-- The units of an ISO text. -/
def isIsoUnit (c : UInt16) : Bool :=
  isDigit c || c == 43 || c == 45 || c == 46 || c == 58 || c == 84 || c == 90

theorem isIsoUnit_of_mem_pad (h : c ∈ pad w n) : isIsoUnit c = true := by
  simp [isIsoUnit, isDigit_of_mem_pad h]

theorem isIsoUnit_of_mem_yearText {y : ℤ} (h : c ∈ yearText y) : isIsoUnit c = true := by
  rw [yearText] at h
  split at h
  · exact isIsoUnit_of_mem_pad h
  · rcases mem_cons.1 h with rfl | h
    · split <;> decide
    · exact isIsoUnit_of_mem_pad h

variable {c : Civil}

/-- The text of an instant has digits and `+-.:TZ` only. -/
theorem isIsoUnit_of_mem_isoText {u : UInt16} (h : u ∈ isoText c) : isIsoUnit u = true := by
  simp only [isoText, restText, timeText, mem_append, mem_cons, not_mem_nil, or_false] at h
  rcases h with h | rfl | h | rfl | h | rfl | h | rfl | h | rfl | h | rfl | h | rfl <;>
    first | decide | exact isIsoUnit_of_mem_yearText h | exact isIsoUnit_of_mem_pad h

theorem length_yearText (y : ℤ) : (yearText y).length = 4 ∨ (yearText y).length = 7 := by
  rw [yearText]
  split <;> simp

section

variable (h : toISOString t = some s)
include h

/-- There is a text exactly for the instants that a `Date` holds. -/
theorem toISOString_eq_some : isoText (civil t) = s ∧ -maxTime ≤ t ∧ t ≤ maxTime := by
  rw [toISOString] at h
  split at h
  · next hrange => exact ⟨some.inj h, hrange⟩
  · cases h

/-- **The units of a printed instant.** -/
theorem isIsoUnit_of_toISOString : ∀ c ∈ s, isIsoUnit c = true := by
  rw [← (toISOString_eq_some h).1]
  exact fun c hc ↦ isIsoUnit_of_mem_isoText hc

/-- The text has 24 units, or 27 with a sign. -/
theorem length_of_toISOString : 24 ≤ s.length ∧ s.length ≤ 27 := by
  rw [← (toISOString_eq_some h).1]
  have hyear := length_yearText (civil t).year
  simp only [isoText, restText, timeText, length_append, length_cons, length_pad, length_nil]
  omega

end

/-! ### Reading -/

/-- Exactly `n` digits, and the text after them. -/
def readDigits (n : ℕ) (s : JsString) : Option (ℕ × JsString) :=
  if n ≤ s.length ∧ (s.take n).all isDigit then some (digitsValue (s.take n), s.drop n) else none

/-- The unit `c`, and the text after it. -/
def readUnit (c : UInt16) : JsString → Option JsString
  | [] => none
  | d :: s => if d = c then some s else none

/-- Four digits, or a sign and six; `-000000` is no year. -/
def readYear : JsString → Option (ℤ × JsString)
  | [] => none
  | c :: s =>
    if c = 43 then (readDigits 6 s).map fun p ↦ (p.1, p.2)
    else if c = 45 then
      (readDigits 6 s).bind fun p ↦ if p.1 = 0 then none else some (-p.1, p.2)
    else (readDigits 4 (c :: s)).map fun p ↦ (p.1, p.2)

/-- `Z` or `±hh:mm`, as milliseconds east of Greenwich. -/
def readZone : JsString → Option ℤ
  | [] => none
  | c :: s =>
    if c = 90 then (if s = [] then some 0 else none)
    else if c = 43 ∨ c = 45 then do
      let (h, s) ← readDigits 2 s
      let s ← readUnit 58 s
      let (m, s) ← readDigits 2 s
      if h < 24 ∧ m < 60 ∧ s = [] then
        some ((if c = 43 then 1 else -1) * (h * 3600000 + m * 60000))
      else none
    else none

/-- The seconds and milliseconds of a time, both optional, and the text after them. -/
def readSeconds (s : JsString) : Option (ℕ × ℕ × JsString) :=
  match readUnit 58 s with
  | none => some (0, 0, s)
  | some s => do
    let (sec, s) ← readDigits 2 s
    match readUnit 46 s with
    | none => some (sec, 0, s)
    | some s => do
      let (ms, s) ← readDigits 3 s
      some (sec, ms, s)

/-- The time of day after the `T`, with its zone. -/
def readTime (date : Civil) (s : JsString) : Option ℤ := do
  let (h, s) ← readDigits 2 s
  let s ← readUnit 58 s
  let (m, s) ← readDigits 2 s
  let (sec, ms, s) ← readSeconds s
  let zone ← readZone s
  if h < 24 ∧ m < 60 ∧ sec < 60 then
    some ({ date with hour := h, minute := m, second := sec, milli := ms }.instant - zone)
  else none

/-- The day, after the year and the month, and the time if there is one. -/
def readDay (y : ℤ) (m : ℕ) (s : JsString) : Option ℤ := do
  let s ← readUnit 45 s
  let (d, s) ← readDigits 2 s
  if 1 ≤ d ∧ d ≤ monthStart (isLeap y) (m + 1) - monthStart (isLeap y) m then
    if s = [] then some (Civil.mk y m d 0 0 0 0).instant
    else do
      let s ← readUnit 84 s
      readTime ⟨y, m, d, 0, 0, 0, 0⟩ s
  else none

/-- The forms that need no time zone: `YYYY`, `YYYY-MM`, `YYYY-MM-DD`, and a date with a time and
`Z` or an offset. -/
def readIso (s : JsString) : Option ℤ := do
  let (y, s) ← readYear s
  if s = [] then some (Civil.mk y 1 1 0 0 0 0).instant
  else do
    let s ← readUnit 45 s
    let (m, s) ← readDigits 2 s
    if 1 ≤ m ∧ m ≤ 12 then
      if s = [] then some (Civil.mk y m 1 0 0 0 0).instant else readDay y m s
    else none

/-- `Date.parse(s)`; `none` is `NaN`. What the engine makes of a text that is in none of the forms
above is `other`. -/
def parse (other : JsString → Option ℤ) (s : JsString) : Option ℤ :=
  match readIso s with
  | some t => if -maxTime ≤ t ∧ t ≤ maxTime then some t else none
  | none => other s

/-- Padded digits are read back. -/
theorem readDigits_pad (h : n < 10 ^ w) (rest : JsString) :
    readDigits w (pad w n ++ rest) = some (n, rest) := by
  have htake : (pad w n ++ rest).take w = pad w n := take_left' (length_pad w n)
  have hdrop : (pad w n ++ rest).drop w = rest := drop_left' (length_pad w n)
  have hall : (pad w n).all isDigit = true :=
    all_eq_true.2 fun c hc ↦ isDigit_of_mem_pad hc
  rw [readDigits, htake, hdrop, if_pos ⟨by simp, hall⟩, digitsValue_pad h]

theorem readUnit_cons (c : UInt16) (s : JsString) : readUnit c (c :: s) = some s := if_pos rfl

/-- A year is read back, with its sign if it has one. -/
theorem readYear_yearText {y : ℤ} (h : -1000000 < y ∧ y < 1000000) (rest : JsString) :
    readYear (yearText y ++ rest) = some (y, rest) := by
  rw [yearText]
  split
  · next hy =>
    have hlen := length_pad 4 y.toNat
    rcases hpad : pad 4 y.toNat with - | ⟨c, cs⟩
    · rw [hpad] at hlen
      cases hlen
    have hc : isDigit c = true := isDigit_of_mem_pad (hpad ▸ mem_cons_self)
    have hplus : c ≠ 43 := fun h ↦ absurd (h ▸ hc) (by decide)
    have hminus : c ≠ 45 := fun h ↦ absurd (h ▸ hc) (by decide)
    rw [cons_append, readYear, if_neg hplus, if_neg hminus, ← cons_append, ← hpad,
      readDigits_pad (by norm_num; omega)]
    simp only [map_some]
    congr 2
    omega
  · next hy =>
    have hread := readDigits_pad (show y.natAbs < 10 ^ 6 by norm_num; omega) rest
    by_cases hneg : y < 0
    · rw [if_pos hneg, cons_append, readYear, if_neg (by decide), if_pos rfl, hread]
      simp only [bind_some]
      rw [if_neg (by omega)]
      congr 2
      omega
    · rw [if_neg hneg, cons_append, readYear, if_pos rfl, hread]
      simp only [map_some]
      congr 2
      omega

/-- A time of day is read back. -/
theorem readTime_timeText (hc : c.Valid) : readTime c (timeText c) = some c.instant := by
  obtain ⟨-, -, -, -, hhour, hminute, hsecond, hmilli⟩ := hc
  have hsec : readSeconds (58 :: (pad 2 c.second ++ 46 :: (pad 3 c.milli ++ [90]))) =
      some (c.second, c.milli, [90]) := by
    rw [readSeconds, readUnit_cons]
    simp only [readDigits_pad (show c.second < 10 ^ 2 by norm_num; omega), bind_eq_bind,
      bind_some, readUnit_cons,
      readDigits_pad (show c.milli < 10 ^ 3 by norm_num; omega)]
  have hzone : readZone [90] = some 0 := by decide
  simp only [readTime, timeText, readDigits_pad (show c.hour < 10 ^ 2 by norm_num; omega),
    readDigits_pad (show c.minute < 10 ^ 2 by norm_num; omega), readUnit_cons, hsec, hzone,
    bind_eq_bind, bind_some, if_pos (And.intro hhour (And.intro hminute hsecond)),
    sub_zero]

/-- The printed form is one that is read. -/
theorem readIso_isoText (hc : c.Valid) (hy : -1000000 < c.year ∧ c.year < 1000000) :
    readIso (isoText c) = some c.instant := by
  have htime := readTime_timeText hc
  obtain ⟨hlow, hhigh, hday, hlast, -⟩ := hc
  have hlength : ∀ leap, ∀ m ≤ 12, monthStart leap (m + 1) - monthStart leap m ≤ 31 := by decide
  have hmonth := hlength (isLeap c.year) c.month hhigh
  have hrest : ∀ s : JsString, pad 2 c.month ++ 45 :: s ≠ [] := by simp
  simp only [readIso, isoText, restText, readYear_yearText hy, bind_eq_bind,
    bind_some, reduceCtorEq, if_false, readUnit_cons,
    readDigits_pad (show c.month < 10 ^ 2 by norm_num; omega), if_pos (And.intro hlow hhigh),
    readDay, readDigits_pad (show c.day < 10 ^ 2 by norm_num; omega), if_pos (And.intro hday hlast)]
  exact htime

/-- The years of the instants a `Date` holds have at most six digits. -/
theorem year_lt_of_le_maxTime (h : -maxTime ≤ t ∧ t ≤ maxTime) :
    -1000000 < (civil t).year ∧ (civil t).year < 1000000 := by
  have hspec := yearFromDay_spec (t / 86400000)
  rw [maxTime] at h
  have hyear : (civil t).year = yearFromDay (t / 86400000) := rfl
  rw [hyear]
  simp only [dayFromYear] at hspec
  omega

/-- **An instant survives its text.** -/
theorem parse_toISOString (h : toISOString t = some s) (other : JsString → Option ℤ) :
    parse other s = some t := by
  obtain ⟨rfl, hrange⟩ := toISOString_eq_some h
  rw [parse, readIso_isoText (civil_valid t) (year_lt_of_le_maxTime hrange), instant_civil]
  exact if_pos hrange

/-! ### The order of texts -/

/-- The times of a day are ordered as their texts. -/
theorem timeText_lt_timeText {s : ℤ} (h : s % 86400000 < t % 86400000) :
    timeText (civil s) < timeText (civil t) := by
  refine field_lt_field (by simp only [civil]; norm_num; omega) ?_
  rcases lt_or_ge (civil s).hour (civil t).hour with hlt | hge
  · exact .inl hlt
  refine .inr ⟨by simp only [civil] at *; omega, cons_lt_cons ?_⟩
  refine field_lt_field (by simp only [civil]; norm_num; omega) ?_
  rcases lt_or_ge (civil s).minute (civil t).minute with hlt | hge'
  · exact .inl hlt
  refine .inr ⟨by simp only [civil] at *; omega, cons_lt_cons ?_⟩
  refine field_lt_field (by simp only [civil]; norm_num; omega) ?_
  rcases lt_or_ge (civil s).second (civil t).second with hlt | hge''
  · exact .inl hlt
  refine .inr ⟨by simp only [civil] at *; omega, cons_lt_cons ?_⟩
  refine field_lt_field (by simp only [civil]; norm_num; omega) (.inl ?_)
  simp only [civil] at *
  omega

/-- So are the instants of one year. -/
theorem restText_lt_restText {s : ℤ} (h : s < t) (hyear : (civil s).year = (civil t).year) :
    restText (civil s) < restText (civil t) := by
  have hvalid := civil_valid t
  obtain ⟨-, hmonth, -, hlast, -⟩ := hvalid
  have hlength : ∀ leap, ∀ m ≤ 12, monthStart leap (m + 1) - monthStart leap m ≤ 31 := by decide
  have hdays := hlength (isLeap (civil t).year) (civil t).month hmonth
  have hs := dayFromYear_add_dayOfYear (s / 86400000)
  have ht := dayFromYear_add_dayOfYear (t / 86400000)
  have hy : yearFromDay (s / 86400000) = yearFromDay (t / 86400000) := hyear
  have hdoy : dayOfYear (s / 86400000) ≤ dayOfYear (t / 86400000) := by
    rw [hy] at hs
    omega
  have hmono : (civil s).month ≤ (civil t).month := by
    simp only [civil, hy]
    rw [monthFromDay, monthFromDay, ← countP_eq_length_filter, ← countP_eq_length_filter]
    refine countP_mono_left fun k _ hk ↦ ?_
    simp only [decide_eq_true_eq] at hk ⊢
    omega
  refine cons_lt_cons (field_lt_field (by norm_num; omega) ?_)
  rcases hmono.lt_or_eq with hlt | heq
  · exact .inl hlt
  refine .inr ⟨heq, cons_lt_cons (field_lt_field (by norm_num; omega) ?_)⟩
  -- in one month the day grows with the day of the year
  obtain ⟨-, -, hstart, -⟩ := monthFromDay_spec (isLeap (yearFromDay (s / 86400000)))
    (dayOfYear (s / 86400000)) (dayOfYear_lt _)
  have hday : ((civil t).day : ℤ) - (civil s).day =
      dayOfYear (t / 86400000) - dayOfYear (s / 86400000) := by
    simp only [civil] at heq ⊢
    rw [hy] at heq hstart ⊢
    rw [← heq]
    omega
  rcases lt_or_ge (civil s).day (civil t).day with hlt | hge
  · exact .inl hlt
  · refine .inr ⟨by omega, cons_lt_cons (timeText_lt_timeText ?_)⟩
    rw [hy] at hs
    omega

/-- **Inside the four digit years, later instants have later texts.** -/
theorem isoText_lt_isoText {s : ℤ} (h : s < t) (hs : 0 ≤ (civil s).year)
    (ht : (civil t).year ≤ 9999) : isoText (civil s) < isoText (civil t) := by
  have hmono : (civil s).year ≤ (civil t).year := yearFromDay_mono (by omega)
  rw [isoText, isoText, yearText, yearText, if_pos (by omega), if_pos (by omega)]
  refine field_lt_field (by norm_num; omega) ?_
  rcases hmono.lt_or_eq with hlt | heq
  · exact .inl (by omega)
  · exact .inr ⟨by rw [heq], restText_lt_restText h heq⟩

end Date

end Js

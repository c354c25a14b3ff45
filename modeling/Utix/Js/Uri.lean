import Utix.Js.Encoding

/-!
# URI components

`encodeURIComponent` writes every unit but the unreserved ones as the percent-encoded bytes of its
UTF-8 encoding, and throws on a lone surrogate; `decodeURIComponent` reads such bytes back and
throws on anything that is not UTF-8. Decoding inverts encoding.

Encoding is defined by the numbers of the bytes, one to four for a code point, and decoding checks
the lead byte, the bytes that continue it, the range of the result and that it is no surrogate. The
round trip goes code point by code point (`decodeUnits_percentEncode`). The fuel of the decoder is
the length of the text, of which every round takes at least one unit. That encoded text is printable
matters to the cursor, whose pattern does not match line breaks.
-/

namespace Js

open List

/-! ### Encoding -/

/-- The units that stand for themselves. -/
def isUnreserved (c : UInt16) : Bool :=
  isAlnum c || c ∈ [45, 95, 46, 33, 126, 42, 39, 40, 41]

/-- The UTF-8 bytes of a scalar value. -/
def utf8 (n : ℕ) : List ℕ :=
  if n < 0x80 then [n]
  else if n < 0x800 then [0xC0 + n / 64, 0x80 + n % 64]
  else if n < 0x10000 then [0xE0 + n / 4096, 0x80 + n / 64 % 64, 0x80 + n % 64]
  else [0xF0 + n / 262144, 0x80 + n / 4096 % 64, 0x80 + n / 64 % 64, 0x80 + n % 64]

/-- A hexadecimal digit, upper case. -/
def hexDigitUpper (n : ℕ) : UInt16 := if n < 10 then 48 + n.toUInt16 else 55 + n.toUInt16

/-- `%XX` -/
def percent (byte : ℕ) : JsString := [37, hexDigitUpper (byte / 16), hexDigitUpper (byte % 16)]

/-- The percent-encoded bytes of a scalar value. -/
def percentEncode (n : ℕ) : JsString := (utf8 n).flatMap percent

/-- One unit that is no surrogate. -/
def encodeUnit (c : UInt16) : JsString := if isUnreserved c then [c] else percentEncode c.toNat

/-- The scalar value of a surrogate pair. -/
def pairValue (c d : UInt16) : ℕ := 0x10000 + (c.toNat - 0xD800) * 0x400 + (d.toNat - 0xDC00)

/-- `encodeURIComponent(s)`; `none` is the `URIError` of a lone surrogate. -/
def encodeURIComponent : JsString → Option JsString
  | [] => some []
  | [c] => if isScalar c then some (encodeUnit c) else none
  | c :: d :: s =>
    if isHighSurrogate c && isLowSurrogate d then
      (encodeURIComponent s).map (percentEncode (pairValue c d) ++ ·)
    else if isScalar c then (encodeURIComponent (d :: s)).map (encodeUnit c ++ ·)
    else none

/-! ### Decoding -/

/-- Read `%XX`. -/
def readOctet : JsString → Option (ℕ × JsString)
  | c :: a :: b :: s =>
    if c = 37 then
      match JsValue.hexValue a, JsValue.hexValue b with
      | some x, some y => some (16 * x + y, s)
      | _, _ => none
    else none
  | _ => none

/-- Read this many continuation bytes onto a value. -/
def readTails : ℕ → ℕ → JsString → Option (ℕ × JsString)
  | 0, value, s => some (value, s)
  | count + 1, value, s =>
    match readOctet s with
    | some (byte, s) =>
      if byte / 64 = 2 then readTails count (64 * value + byte % 64) s else none
    | none => none

/-- The value is in a range, and no surrogate. -/
def inRange (low high : ℕ) (read : Option (ℕ × JsString)) : Option (ℕ × JsString) :=
  read.filter fun r ↦ low ≤ r.1 && r.1 ≤ high && !(0xD800 ≤ r.1 && r.1 ≤ 0xDFFF)

/-- Read the bytes of one scalar value. -/
def readScalar (s : JsString) : Option (ℕ × JsString) :=
  match readOctet s with
  | none => none
  | some (byte, s) =>
    if byte < 0x80 then some (byte, s)
    else if byte < 0xC0 then none
    else if byte < 0xE0 then inRange 0x80 0x7FF (readTails 1 (byte % 32) s)
    else if byte < 0xF0 then inRange 0x800 0xFFFF (readTails 2 (byte % 16) s)
    else if byte < 0xF8 then inRange 0x10000 0x10FFFF (readTails 3 (byte % 8) s)
    else none

/-- The decoding of a string, with fuel for its length. -/
def decodeUnits : ℕ → JsString → Option JsString
  | _, [] => some []
  | 0, _ => none
  | fuel + 1, c :: s =>
    if c = 37 then
      match readScalar (c :: s) with
      | some (n, s) => (decodeUnits fuel s).map (utf16 n ++ ·)
      | none => none
    else (decodeUnits fuel s).map (c :: ·)

/-- `decodeURIComponent(s)`; `none` is a `URIError`. -/
def decodeURIComponent (s : JsString) : Option JsString := decodeUnits s.length s

/-! ### Encoding by pairs and scalars -/

variable {c d : UInt16}

/-- A unit that is no surrogate is encoded on its own. -/
theorem encodeURIComponent_scalar (hc : isScalar c = true) (s : JsString) :
    encodeURIComponent (c :: s) = (encodeURIComponent s).map (encodeUnit c ++ ·) := by
  cases s with
  | nil => simp [encodeURIComponent, hc]
  | cons d s =>
    have hpair : (isHighSurrogate c && isLowSurrogate d) = false := startsPair_eq_false hc (d :: s)
    rw [encodeURIComponent, hpair, if_neg Bool.false_ne_true, if_pos hc]

/-! ### Reading back -/

variable {n : ℕ}

theorem hexValue_hexDigitUpper (h : n < 16) : JsValue.hexValue (hexDigitUpper n) = some n := by
  have hall : ∀ n < 16, JsValue.hexValue (hexDigitUpper n) = some n := by decide
  exact hall n h

/-- A percent-encoded byte is read back. -/
theorem readOctet_percent {byte : ℕ} (h : byte < 256) (s : JsString) :
    readOctet (percent byte ++ s) = some (byte, s) := by
  have hhigh : byte / 16 < 16 := by omega
  have hlow : byte % 16 < 16 := by omega
  simp only [percent, cons_append, nil_append, readOctet, if_pos,
    hexValue_hexDigitUpper hhigh, hexValue_hexDigitUpper hlow]
  rw [show 16 * (byte / 16) + byte % 16 = byte by omega]

/-- So is a byte that continues a sequence. -/
theorem readTails_percent {count value low : ℕ} (h : low < 64) (s : JsString) :
    readTails (count + 1) value (percent (0x80 + low) ++ s) =
      readTails count (64 * value + low) s := by
  have hoctet : readOctet (percent (0x80 + low) ++ s) = some (0x80 + low, s) :=
    readOctet_percent (by omega) s
  have hmark : (0x80 + low) / 64 = 2 := by omega
  have hvalue : (0x80 + low) % 64 = low := by omega
  rw [readTails, hoctet]
  simp only [hmark, if_true, hvalue]

theorem inRange_some {low high : ℕ} (hlow : low ≤ n) (hhigh : n ≤ high)
    (hscalar : ¬(0xD800 ≤ n ∧ n ≤ 0xDFFF)) (s : JsString) :
    inRange low high (some (n, s)) = some (n, s) := by
  rw [inRange, Option.filter_some, if_pos]
  simp only [Bool.and_eq_true, decide_eq_true_eq, Bool.not_eq_true', Bool.and_eq_false_iff,
    decide_eq_false_iff_not]
  exact ⟨⟨hlow, hhigh⟩, by omega⟩

/-- **The bytes of a scalar value are read back.** -/
theorem readScalar_percentEncode (hn : n ≤ 0x10FFFF) (hscalar : ¬(0xD800 ≤ n ∧ n ≤ 0xDFFF))
    (s : JsString) : readScalar (percentEncode n ++ s) = some (n, s) := by
  rw [percentEncode, utf8]
  -- one case for each number of bytes
  split
  next h1 =>
    rw [flatMap_singleton, readScalar, readOctet_percent (by omega)]
    simp only [h1, if_true]
  next h1 =>
  split
  next h2 =>
    have hlead : 0xC0 + n / 64 < 0xE0 := by omega
    simp only [flatMap_cons, flatMap_nil, append_nil, append_assoc]
    rw [readScalar, readOctet_percent (by omega)]
    simp only [show ¬0xC0 + n / 64 < 0x80 by omega, show ¬0xC0 + n / 64 < 0xC0 by omega, hlead,
      if_true, if_false]
    rw [readTails_percent (by omega), readTails,
      show 64 * ((0xC0 + n / 64) % 32) + n % 64 = n by omega]
    exact inRange_some (by omega) (by omega) hscalar s
  next h2 =>
  split
  next h3 =>
    have hlead : 0xE0 + n / 4096 < 0xF0 := by omega
    simp only [flatMap_cons, flatMap_nil, append_nil, append_assoc]
    rw [readScalar, readOctet_percent (by omega)]
    simp only [show ¬0xE0 + n / 4096 < 0x80 by omega, show ¬0xE0 + n / 4096 < 0xC0 by omega,
      show ¬0xE0 + n / 4096 < 0xE0 by omega, hlead, if_true, if_false]
    rw [readTails_percent (by omega), readTails_percent (by omega), readTails,
      show 64 * (64 * ((0xE0 + n / 4096) % 16) + n / 64 % 64) + n % 64 = n by omega]
    exact inRange_some (by omega) (by omega) hscalar s
  next h3 =>
    have hlead : 0xF0 + n / 262144 < 0xF8 := by omega
    simp only [flatMap_cons, flatMap_nil, append_nil, append_assoc]
    rw [readScalar, readOctet_percent (by omega)]
    simp only [show ¬0xF0 + n / 262144 < 0x80 by omega, show ¬0xF0 + n / 262144 < 0xC0 by omega,
      show ¬0xF0 + n / 262144 < 0xE0 by omega, show ¬0xF0 + n / 262144 < 0xF0 by omega, hlead,
      if_true, if_false]
    rw [readTails_percent (by omega), readTails_percent (by omega), readTails_percent (by omega),
      readTails, show 64 * (64 * (64 * ((0xF0 + n / 262144) % 8) + n / 4096 % 64) +
        n / 64 % 64) + n % 64 = n by omega]
    exact inRange_some (by omega) (by omega) hscalar s

theorem percentEncode_eq_cons (n : ℕ) : ∃ s, percentEncode n = 37 :: s := by
  have hne : ∃ byte bytes, utf8 n = byte :: bytes := by
    rw [utf8]
    split_ifs <;> exact ⟨_, _, rfl⟩
  obtain ⟨byte, bytes, hbytes⟩ := hne
  rw [percentEncode, hbytes, flatMap_cons, percent]
  exact ⟨_, rfl⟩

/-- **A code point is read back** from the bytes of its encoding. -/
theorem decodeUnits_percentEncode {fuel : ℕ} (hn : n ≤ 0x10FFFF)
    (hscalar : ¬(0xD800 ≤ n ∧ n ≤ 0xDFFF)) (s : JsString) :
    decodeUnits (fuel + 1) (percentEncode n ++ s) = (decodeUnits fuel s).map (utf16 n ++ ·) := by
  have hread := readScalar_percentEncode hn hscalar s
  obtain ⟨t, ht⟩ := percentEncode_eq_cons n
  rw [ht, cons_append] at hread ⊢
  rw [decodeUnits, if_pos rfl, hread]

theorem utf16_toNat (c : UInt16) : utf16 c.toNat = [c] := by
  rw [utf16, if_pos (UInt16.toNat_lt c)]
  simp

theorem pair_bounds (h : startsPair c [d] = true) :
    0xD800 ≤ c.toNat ∧ c.toNat ≤ 0xDBFF ∧ 0xDC00 ≤ d.toNat ∧ d.toNat ≤ 0xDFFF := by
  simpa [startsPair, isHighSurrogate, isLowSurrogate, UInt16.le_iff_toNat_le, and_assoc] using h

/-- A surrogate pair is the encoding of its code point. -/
theorem utf16_pairValue (h : startsPair c [d] = true) : utf16 (pairValue c d) = [c, d] := by
  obtain ⟨hc, hc', hd, hd'⟩ := pair_bounds h
  have hhigh : 0xD800 + (pairValue c d - 0x10000) / 0x400 = c.toNat := by
    unfold pairValue
    omega
  have hlow : 0xDC00 + (pairValue c d - 0x10000) % 0x400 = d.toNat := by
    unfold pairValue
    omega
  rw [utf16, if_neg (by unfold pairValue; omega), hhigh, hlow]
  simp

theorem not_surrogate_of_isScalar (hc : isScalar c = true) :
    ¬(0xD800 ≤ c.toNat ∧ c.toNat ≤ 0xDFFF) := by
  simp only [isScalar, isHighSurrogate, isLowSurrogate, Bool.not_eq_true', Bool.or_eq_false_iff,
    Bool.and_eq_false_iff, decide_eq_false_iff_not, UInt16.le_iff_toNat_le] at hc
  obtain ⟨hhigh, hlow⟩ := hc
  have hhigh : ¬0xD800 ≤ c.toNat ∨ ¬c.toNat ≤ 0xDBFF := hhigh
  have hlow : ¬0xDC00 ≤ c.toNat ∨ ¬c.toNat ≤ 0xDFFF := hlow
  omega

/-- A unit is read back, encoded or not. -/
theorem decodeUnits_encodeUnit {fuel : ℕ} (hc : isScalar c = true) (s : JsString) :
    decodeUnits (fuel + 1) (encodeUnit c ++ s) = (decodeUnits fuel s).map (c :: ·) := by
  rw [encodeUnit]
  split
  next hunreserved =>
    have hne : c ≠ 37 := by
      rintro rfl
      exact absurd hunreserved (by decide)
    rw [singleton_append, decodeUnits, if_neg hne]
  next =>
    have hlt := UInt16.toNat_lt c
    rw [decodeUnits_percentEncode (by omega) (not_surrogate_of_isScalar hc), utf16_toNat]
    rfl

theorem length_percentEncode_pos (n : ℕ) : 0 < (percentEncode n).length := by
  obtain ⟨s, hs⟩ := percentEncode_eq_cons n
  rw [hs]
  exact Nat.succ_pos _

theorem length_encodeUnit_pos (c : UInt16) : 0 < (encodeUnit c).length := by
  rw [encodeUnit]
  split
  · exact Nat.one_pos
  · exact length_percentEncode_pos _

/-- The units that an encoding is made of. -/
def isPrintable (c : UInt16) : Bool := 32 < c && c < 127

theorem isPrintable_percentEncode (hn : n ≤ 0x10FFFF) (h : c ∈ percentEncode n) :
    isPrintable c = true := by
  have hdigit : ∀ d < 16, isPrintable (hexDigitUpper d) = true := by decide
  have hbytes : ∀ byte ∈ utf8 n, byte < 256 := by
    rw [utf8]
    split_ifs <;> simp only [mem_cons, not_mem_nil, or_false, forall_eq_or_imp, forall_eq] <;> omega
  obtain ⟨byte, hbyte, hc⟩ := mem_flatMap.1 h
  have hlt := hbytes byte hbyte
  simp only [percent, mem_cons, not_mem_nil, or_false] at hc
  rcases hc with rfl | rfl | rfl
  · decide
  · exact hdigit _ (by omega)
  · exact hdigit _ (by omega)

/-- Encoded text is printable ASCII. -/
theorem isPrintable_encodeUnit (h : d ∈ encodeUnit c) : isPrintable d = true := by
  rw [encodeUnit] at h
  split at h
  next hunreserved =>
    obtain rfl := mem_singleton.1 h
    have hbetween : 32 < d → d < 127 → isPrintable d = true := fun hlow hhigh ↦ by
      rw [isPrintable, decide_eq_true hlow, decide_eq_true hhigh]
      rfl
    have hunits := all_eq_true.1
      (show ([45, 95, 46, 33, 126, 42, 39, 40, 41] : List UInt16).all isPrintable = true by decide)
    simp only [isUnreserved, isAlnum, isUpper, isLower, isDigit, Bool.or_eq_true, Bool.and_eq_true,
      decide_eq_true_eq] at hunreserved
    rcases hunreserved with ((hrange | hrange) | hrange) | hmem
    rotate_left 3
    · exact hunits d hmem
    all_goals
      exact hbetween (UInt16.lt_of_lt_of_le (by decide) hrange.1)
        (UInt16.lt_of_le_of_lt hrange.2 (by decide))
  next =>
    have hlt := UInt16.toNat_lt c
    exact isPrintable_percentEncode (by omega) h

/-- **A well-formed string has an encoding, and decoding gives it back.** -/
theorem exists_encodeURIComponent {s : JsString} (hs : IsWellFormed s) :
    ∃ e, encodeURIComponent s = some e ∧ (∀ c ∈ e, isPrintable c = true) ∧
      ∀ fuel, e.length ≤ fuel → decodeUnits fuel e = some s := by
  rw [IsWellFormed] at hs
  induction s using unitsInduction with
  | nil => exact ⟨[], rfl, by simp, fun fuel _ ↦ by cases fuel <;> rfl⟩
  | pair c d s hpair ih =>
    rw [toWellFormed_pair hpair] at hs
    obtain ⟨e, he, hascii, hdecode⟩ := ih (cons.inj (cons.inj hs).2).2
    have hunits := pair_bounds hpair
    have hvalue : pairValue c d ≤ 0x10FFFF := by unfold pairValue; omega
    rw [startsPair] at hpair
    refine ⟨percentEncode (pairValue c d) ++ e, by rw [encodeURIComponent, if_pos hpair, he]; rfl,
      fun u hu ↦ ?_, fun fuel hfuel ↦ ?_⟩
    · rcases mem_append.1 hu with hu | hu
      · exact isPrintable_percentEncode hvalue hu
      · exact hascii u hu
    · have hpos := length_percentEncode_pos (pairValue c d)
      rw [length_append] at hfuel
      obtain ⟨fuel, rfl⟩ : ∃ f, fuel = f + 1 := ⟨fuel - 1, by omega⟩
      rw [decodeUnits_percentEncode hvalue (by unfold pairValue; omega),
        hdecode fuel (by omega), utf16_pairValue hpair]
      rfl
  | scalar c s hc ih =>
    rw [toWellFormed_scalar hc] at hs
    obtain ⟨e, he, hascii, hdecode⟩ := ih (cons.inj hs).2
    refine ⟨encodeUnit c ++ e, by rw [encodeURIComponent_scalar hc, he]; rfl, fun u hu ↦ ?_,
      fun fuel hfuel ↦ ?_⟩
    · rcases mem_append.1 hu with hu | hu
      · exact isPrintable_encodeUnit hu
      · exact hascii u hu
    · have hpos := length_encodeUnit_pos c
      rw [length_append] at hfuel
      obtain ⟨fuel, rfl⟩ : ∃ f, fuel = f + 1 := ⟨fuel - 1, by omega⟩
      rw [decodeUnits_encodeUnit hc, hdecode fuel (by omega)]
      rfl
  | lone c s hc hpair ih =>
    rw [toWellFormed_lone hc hpair] at hs
    rw [← (cons.inj hs).1, isScalar_replacement] at hc
    cases hc

end Js

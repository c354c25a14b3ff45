import Utix.Js.Date
import Utix.Js.JsonRoundTrip

/-!
# Redaction

`core/telemetry/telemetry.ts`: the pass that every durable record goes through before it is stored.
`redact` walks a value, replaces the strings that look like secret material and the values under
sensitive keys, and cuts the walk at `maxRedactDepth`.

A value is a tree here, so the cycle detection of the source has nothing to detect; a function or
symbol becomes `undefined`, and a bigint passes through, as in the source.

What the callers rely on is where redaction does *nothing*: `scrubString_eq_self`. What they
overlook is where it does something: a string of 10 to 128 units that merely **starts with** `S` or
`M` is replaced whole, and a replacement can be longer than what it replaces.
-/

namespace Utix.Telemetry

open Js List Fields JsValue

def maxRedactDepth : ℕ := 16

def maxScannableStringLength : ℕ := 500000

/-- The text that stands for something removed. -/
def redacted : JsString := js "[REDACTED]"

/-! ### Strings -/

/-- `[A-Z2-7]` -/
def isBase32 (c : UInt16) : Bool := isUpper c || (50 ≤ c && c ≤ 55)

/-- The units of a token: letters, digits, the slash and `._~+-`. -/
def isTokenUnit (c : UInt16) : Bool :=
  isAlnum c || c == 46 || c == 95 || c == 126 || c == 43 || c == 47 || c == 45

/-- One of `STELLAR_SECRET_PREFIXES`: `S` or `M`. -/
def isSecretMark (c : UInt16) : Bool := c == 83 || c == 77

/-- A mark followed by 55 base 32 units: a Stellar key of the kind the mark announces. -/
def keyLength (mark : UInt16 → Bool) : JsString → Option ℕ
  | [] => none
  | c :: cs =>
    if mark c && 55 ≤ cs.length && (cs.take 55).all isBase32 then some 56 else none

/-- `Bearer\s+` under the `i` flag, followed by the token units that end the text or stand before
another unit: the lengths of the head and of the token. -/
def bearerParts (s : JsString) : Option (ℕ × ℕ) :=
  if startsWithFold (js "bearer") s then
    let spaces := (s.drop 6).takeWhile isSpace
    let token := (s.drop (6 + spaces.length)).takeWhile isTokenUnit
    if spaces = [] ∨ token = [] then none else some (6 + spaces.length, token.length)
  else none

/-- `/[SM][A-Z2-7]{55}/` -/
def embeddedSecret : Matcher := fun _ s ↦ keyLength isSecretMark s

/-- `/Bearer\s+…/i`: the word, white space and a run of token units. -/
def embeddedBearer : Matcher := fun _ s ↦ (bearerParts s).map fun p ↦ p.1 + p.2

/-- `STELLAR_PUBLIC_ADDRESS_REGEX`: `/[GC][A-Z2-7]{55}/` -/
def publicAddress : Matcher := fun _ s ↦ keyLength (fun c ↦ c == 71 || c == 67) s

def looksLikeSecret (s : JsString) : Bool :=
  10 ≤ s.length && s.length ≤ 128 && [js "S", js "M"].any fun p ↦ startsWith s p

def scrubString (s : JsString) : JsString :=
  if looksLikeSecret s then redacted
  else
    let candidate :=
      if s.length > maxScannableStringLength then
        s.take maxScannableStringLength ++ js "…[TRUNCATED]"
      else s
    replaceAll embeddedBearer redacted (replaceAll embeddedSecret redacted candidate)

/-! ### Keys -/

/-- `isSensitiveKey(key)`. Inside a character class `\b` is a backspace. -/
def isSensitiveKey (key : JsString) : Bool :=
  if includesFold (js "public") key then false
  else
    [js "secret", js "seed", js "password", js "passphrase", js "token", js "auth",
      js "authorization", js "credential", js "bearer", js "cookie", js "rawbody", js "raw_body",
      js "responsebody", js "response_body", js "requestbody", js "request_body", js "httpbody",
      js "http_body", js "responsedata", js "response_data", js "disallowedaddress",
      js "disallowed_address", js "forbiddenaddress", js "forbidden_address",
      js "disallowedaccount", js "disallowed_account", js "forbiddenaccount",
      js "forbidden_account", js "_key", 8 :: js "key", js "privatekey", js "apikey",
      js "secretkey", js "signingkey"].any (includesFold · key) ||
    key.map fold == js "body" || key.map fold == js "raw" || startsWithFold (js "key") key

/-! ### Values -/

mutual

def redact (redactAddresses : Bool) : ℕ → JsValue → JsValue
  | _, .str s =>
    .str (if redactAddresses then replaceAll publicAddress redacted (scrubString s)
      else scrubString s)
  | _, .undefined => .undefined
  | _, .null => .null
  | _, .bool b => .bool b
  | _, .num n => .num n
  | _, .foreign .bigint => .foreign .bigint
  | _, .foreign _ => .undefined
  | depth, .arr xs =>
    if maxRedactDepth ≤ depth then .str (js "[TRUNCATED_DEPTH]")
    else .arr (redactElems redactAddresses (depth + 1) xs)
  | depth, .obj fs =>
    if maxRedactDepth ≤ depth then .str (js "[TRUNCATED_DEPTH]")
    else .obj (redactFields redactAddresses (depth + 1) fs)

/-- The elements of an array. -/
def redactElems (redactAddresses : Bool) (depth : ℕ) : List JsValue → List JsValue
  | [] => []
  | x :: xs => redact redactAddresses depth x :: redactElems redactAddresses depth xs

/-- The loop over `Object.entries`. Assigning `__proto__` adds no own property. -/
def redactFields (redactAddresses : Bool) (depth : ℕ) : Fields → Fields
  | [] => []
  | (k, x) :: fs =>
    if k = js "__proto__" then redactFields redactAddresses depth fs
    else (k, if isSensitiveKey k then .str redacted else redact redactAddresses depth x) ::
      redactFields redactAddresses depth fs

end

/-! ### Where redaction does nothing -/

variable {s : JsString}

theorem keyLength_eq_none {mark : UInt16 → Bool} (h : ∀ c ∈ s, mark c = false) :
    keyLength mark s = none := by
  rcases s with - | ⟨c, cs⟩
  · rfl
  · rw [keyLength, h c mem_cons_self]
    rfl

theorem bearerParts_eq_none (h : ∀ c ∈ s, isSpace c = false) : bearerParts s = none := by
  rw [bearerParts]
  split
  · have hspaces : (s.drop 6).takeWhile isSpace = [] := by
      rcases hdrop : s.drop 6 with - | ⟨c, cs⟩
      · rfl
      · have hc : c ∈ s := mem_of_mem_drop (hdrop ▸ mem_cons_self)
        rw [takeWhile_cons_of_neg (by simp [h c hc])]
    simp only [hspaces, true_or, if_true]
  · rfl

/-- A unit that no scrubbing rule can start at or pass over: not `S`, not `M`, not white space. -/
def isPlainUnit (c : UInt16) : Bool := !isSecretMark c && !isSpace c

theorem looksLikeSecret_eq_false (h : ∀ c ∈ s, isSecretMark c = false) :
    looksLikeSecret s = false := by
  rcases s with - | ⟨c, cs⟩
  · rfl
  have hc := h c mem_cons_self
  simp only [isSecretMark, Bool.or_eq_false_iff, beq_eq_false_iff_ne] at hc
  have hS : startsWith (c :: cs) (js "S") = false := by
    rw [show js "S" = [83] by decide]
    simpa [startsWith, isPrefixOf] using Ne.symm hc.1
  have hM : startsWith (c :: cs) (js "M") = false := by
    rw [show js "M" = [77] by decide]
    simpa [startsWith, isPrefixOf] using Ne.symm hc.2
  simp [looksLikeSecret, hS, hM]

/-- **A text of plain units is unchanged.** -/
theorem scrubString_eq_self (h : ∀ c ∈ s, isPlainUnit c = true)
    (hlen : s.length ≤ maxScannableStringLength) : scrubString s = s := by
  have hmark : ∀ c ∈ s, isSecretMark c = false := fun c hc ↦ by
    have := h c hc
    simp only [isPlainUnit, Bool.and_eq_true, Bool.not_eq_true'] at this
    exact this.1
  have hspace : ∀ c ∈ s, isSpace c = false := fun c hc ↦ by
    have := h c hc
    simp only [isPlainUnit, Bool.and_eq_true, Bool.not_eq_true'] at this
    exact this.2
  have hsecret : replaceAll embeddedSecret redacted s = s :=
    replaceAll_eq_self fun _ t ht ↦ keyLength_eq_none fun c hc ↦ hmark c (ht.subset hc)
  have hbearer : replaceAll embeddedBearer redacted s = s :=
    replaceAll_eq_self fun _ t ht ↦ by
      rw [embeddedBearer, bearerParts_eq_none fun c hc ↦ hspace c (ht.subset hc)]
      rfl
  rw [scrubString, looksLikeSecret_eq_false hmark, if_neg Bool.false_ne_true,
    if_neg (not_lt.2 hlen)]
  simp only [hsecret, hbearer]

variable {c : UInt16}

theorem isSpace_eq_false_of_printable (h : 33 ≤ c.toNat ∧ c.toNat ≤ 126) : isSpace c = false := by
  simp only [isSpace, Bool.or_eq_false_iff, Bool.and_eq_false_iff, decide_eq_false_iff_not,
    beq_eq_false_iff_ne, ne_eq, UInt16.le_iff_toNat_le, ← UInt16.toNat_inj, UInt16.reduceToNat]
  omega

/-- Printable ASCII other than `S` and `M` is plain. -/
theorem isPlainUnit_of_printable (h : 33 ≤ c.toNat ∧ c.toNat ≤ 126) (hS : c.toNat ≠ 83)
    (hM : c.toNat ≠ 77) : isPlainUnit c = true := by
  have hmark : isSecretMark c = false := by
    simp only [isSecretMark, Bool.or_eq_false_iff, beq_eq_false_iff_ne, ne_eq, ← UInt16.toNat_inj,
      UInt16.reduceToNat]
    exact ⟨hS, hM⟩
  simp [isPlainUnit, hmark, isSpace_eq_false_of_printable h]

/-- A date makes no secret. -/
theorem isPlainUnit_of_isIsoUnit (h : Date.isIsoUnit c = true) : isPlainUnit c = true := by
  simp only [Date.isIsoUnit, isDigit, Bool.or_eq_true, Bool.and_eq_true, decide_eq_true_eq,
    beq_iff_eq, UInt16.le_iff_toNat_le, ← UInt16.toNat_inj, UInt16.reduceToNat] at h
  exact isPlainUnit_of_printable (by omega) (by omega) (by omega)

/-- Nor does a digest. -/
theorem isPlainUnit_of_isLowerHex (h : isLowerHex c = true) : isPlainUnit c = true := by
  simp only [isLowerHex, isDigit, Bool.or_eq_true, Bool.and_eq_true, decide_eq_true_eq,
    UInt16.le_iff_toNat_le, UInt16.reduceToNat] at h
  exact isPlainUnit_of_printable (by omega) (by omega) (by omega)

/-! ### The fields of a redacted object -/

theorem redact_undefined (a : Bool) (depth : ℕ) : redact a depth .undefined = .undefined := by
  rw [redact]

variable {a : Bool} {depth : ℕ}

/-- A field that is not sensitive holds its redacted value. -/
theorem get_redactFields {fs : Fields} {key : JsString} (hproto : key ≠ js "__proto__")
    (hkey : isSensitiveKey key = false) :
    (redactFields a depth fs).get key = redact a depth (fs.get key) := by
  induction fs with
  | nil => rw [redactFields, get_nil, redact_undefined]
  | cons f fs ih =>
    obtain ⟨k, x⟩ := f
    rw [redactFields, get_cons]
    by_cases hk : k = key
    · subst hk
      rw [if_neg hproto, get_cons, if_pos rfl, if_pos rfl, hkey, if_neg Bool.false_ne_true]
    rw [if_neg hk]
    split
    · exact ih
    · rw [get_cons, if_neg hk, ih]

/-- Redaction keeps the keys of an object in their order, and adds none. -/
theorem keys_redactFields_sublist (a : Bool) (depth : ℕ) (fs : Fields) :
    (redactFields a depth fs).keys.Sublist fs.keys := by
  induction fs with
  | nil => rw [redactFields]
  | cons f fs ih =>
    obtain ⟨k, x⟩ := f
    rw [redactFields]
    split
    · exact ih.trans (sublist_cons_self _ _)
    · exact ih.cons_cons k

variable {P : JsValue → Prop}

/-- What holds of every redacted element. -/
theorem forall_mem_redactElems {xs : List JsValue} (h : ∀ x ∈ xs, P (redact a depth x)) :
    ∀ y ∈ redactElems a depth xs, P y := by
  induction xs with
  | nil => rw [redactElems]; simp
  | cons x xs ih =>
    rw [redactElems]
    intro y hy
    rcases mem_cons.1 hy with rfl | hy
    · exact h x mem_cons_self
    · exact ih (fun z hz ↦ h z (mem_cons_of_mem _ hz)) y hy

/-- What holds of every redacted field, and of the mark for a sensitive one. -/
theorem forall_mem_redactFields (hmark : P (.str redacted)) {fs : Fields}
    (h : ∀ f ∈ fs, P (redact a depth f.2)) : ∀ g ∈ redactFields a depth fs, P g.2 := by
  induction fs with
  | nil => rw [redactFields]; simp
  | cons f fs ih =>
    obtain ⟨k, x⟩ := f
    have ih' := ih fun z hz ↦ h z (mem_cons_of_mem _ hz)
    rw [redactFields]
    split
    · exact ih'
    intro g hg
    rcases mem_cons.1 hg with rfl | hg
    · show P (if _ then _ else _)
      split
      · exact hmark
      · exact h (k, x) mem_cons_self
    · exact ih' g hg

/-- **Redaction keeps keys distinct.** -/
theorem wellFormed_redact {v : JsValue} (hv : v.WellFormed) : (redact a depth v).WellFormed := by
  induction v using induct generalizing depth with
  | arr xs ih =>
    rw [redact]
    split
    · trivial
    · exact wellFormed_arr.2
        (forall_mem_redactElems fun x hx ↦ ih x hx (wellFormed_arr.1 hv x hx))
  | obj fs ih =>
    obtain ⟨hnd, hfs⟩ := wellFormed_obj.1 hv
    rw [redact]
    split
    · trivial
    · exact wellFormed_obj.2 ⟨hnd.sublist (keys_redactFields_sublist _ _ fs),
        forall_mem_redactFields trivial fun f hf ↦ ih f hf (hfs f hf)⟩
  | foreign k => cases k <;> simp [redact, JsValue.WellFormed]
  | _ => rw [redact]; trivial

end Utix.Telemetry

import Mathlib.Data.List.Lex
import Mathlib.Data.List.Infix

/-!
# JavaScript strings

A JavaScript string is a finite sequence of UTF-16 code units, and everything the language does with
one — length, `<`, indexing, `trim`, a regular expression without the `u` flag — is a statement
about code units. So a string is modelled as a list of `UInt16`, lone surrogates included, and the
order is the lexicographic order of the list.

## Global replacement

`replaceAll` is `String.prototype.replace` with a `g` regular expression, over a *matcher*: a
function that looks at the unit before the position and at the rest of the text and returns the
length of the match that starts there. The scan goes left to right and resumes after a match, and
the matcher sees the true previous unit even when that unit was consumed by the last match — which
is what `\b` needs.

Two facts about it are used elsewhere. `replaceAll_eq_self`: a text in which nothing matches is
returned unchanged. `Blocks.not_occurs_replaceAll`: nothing that the matcher finds is left, provided
the replacement cannot be a part of a match.
-/

instance linearOrderUInt16 : LinearOrder UInt16 where
  le_refl a := UInt16.le_refl a
  le_trans _ _ _ := UInt16.le_trans
  le_antisymm _ _ := UInt16.le_antisymm
  le_total a b := UInt16.le_total a b
  toDecidableLE := inferInstance
  toDecidableLT := inferInstance
  lt_iff_le_not_ge a b := by
    rw [UInt16.lt_iff_toNat_lt, UInt16.le_iff_toNat_le, UInt16.le_iff_toNat_le]
    omega

namespace Js

open List

/-- A string: its UTF-16 code units. -/
abbrev JsString := List UInt16

instance lawfulBEqJsString : LawfulBEq JsString := inferInstance

/-- The UTF-16 units of one Unicode scalar value. -/
def utf16 (n : ℕ) : JsString :=
  if n < 0x10000 then [n.toUInt16]
  else [(0xD800 + (n - 0x10000) / 0x400).toUInt16, (0xDC00 + (n - 0x10000) % 0x400).toUInt16]

/-- The UTF-16 units of a text in UTF-8: sequences of one to four bytes. -/
def utf16OfUtf8 : List UInt8 → JsString
  | [] => []
  | a :: rest =>
    if a < 0x80 then a.toUInt16 :: utf16OfUtf8 rest
    else
      match rest with
      | b :: rest =>
        if a < 0xE0 then utf16 (a.toNat % 32 * 64 + b.toNat % 64) ++ utf16OfUtf8 rest
        else
          match rest with
          | c :: rest =>
            if a < 0xF0 then
              utf16 ((a.toNat % 16 * 64 + b.toNat % 64) * 64 + c.toNat % 64) ++ utf16OfUtf8 rest
            else
              match rest with
              | d :: rest =>
                utf16 (((a.toNat % 8 * 64 + b.toNat % 64) * 64 + c.toNat % 64) * 64 +
                  d.toNat % 64) ++ utf16OfUtf8 rest
              | [] => []
          | [] => []
      | [] => []

/-- A string literal of the source. It is read from its bytes, which evaluates faster than going
through its characters. -/
def js (s : String) : JsString := utf16OfUtf8 s.toByteArray.data.toList

/-- The names that every plain object inherits from `Object.prototype`, so that a lookup by one of
them finds something in an object that does not list it. -/
def prototypeKeys : List JsString :=
  [js "constructor", js "__defineGetter__", js "__defineSetter__", js "hasOwnProperty",
    js "__lookupGetter__", js "__lookupSetter__", js "isPrototypeOf", js "propertyIsEnumerable",
    js "toString", js "valueOf", js "__proto__", js "toLocaleString"]

/-- The text of what a plain object inherits under such a name: a function, or for `__proto__` the
prototype itself. -/
def prototypeText (name : JsString) : JsString :=
  if name = js "__proto__" then js "[object Object]"
  else js "function " ++ (if name = js "constructor" then js "Object" else name) ++
    js "() \x7b [native code] \x7d"

/-! ### Classes of code units -/

section

variable (c : UInt16)

/-- `[0-9]` -/
def isDigit : Bool := 48 ≤ c && c ≤ 57

/-- `[A-Z]` -/
def isUpper : Bool := 65 ≤ c && c ≤ 90

/-- `[a-z]` -/
def isLower : Bool := 97 ≤ c && c ≤ 122

/-- `[A-Za-z0-9]` -/
def isAlnum : Bool := isUpper c || isLower c || isDigit c

/-- `\w`, which is also what `\b` looks at. -/
def isWord : Bool := isAlnum c || c == 95

/-- `\s`: white space and line terminators, the units `trim` removes. -/
def isSpace : Bool :=
  (9 ≤ c && c ≤ 13) || c == 32 || c == 0xA0 || c == 0x1680 || (0x2000 ≤ c && c ≤ 0x200A) ||
    c == 0x2028 || c == 0x2029 || c == 0x202F || c == 0x205F || c == 0x3000 || c == 0xFEFF

/-- `[0-9a-f]` -/
def isLowerHex : Bool := isDigit c || (97 ≤ c && c ≤ 102)

/-- Case folding under the `i` flag. Without the `u` flag only ASCII letters have an ASCII
partner, so a pattern made of ASCII letters folds exactly these. -/
def fold : UInt16 := if isUpper c then c + 32 else c

end

/-! ### Tests on whole strings -/

/-- `s.trim().length === 0` -/
def isBlank (s : JsString) : Bool := s.all isSpace

/-- `s.trim()` -/
def trim (s : JsString) : JsString := ((s.dropWhile isSpace).reverse.dropWhile isSpace).reverse

/-- `s.startsWith(p)` -/
def startsWith (s p : JsString) : Bool := p.isPrefixOf s

/-- Some position of `s` satisfies `p` of the text from there on; the end of the text is a
position. -/
def anywhere (p : JsString → Bool) : JsString → Bool
  | [] => p []
  | c :: cs => p (c :: cs) || anywhere p cs

/-- `s.includes(needle)` -/
def includes (s needle : JsString) : Bool := anywhere (startsWith · needle) s

variable {s : JsString}

/-- The pattern `word`, under the `i` flag, matches at the start of the text. -/
def startsWithFold (word s : JsString) : Bool := (s.take word.length).map fold == word

/-- `/word/i.test(s)`, for a lower-case `word`. -/
def includesFold (word s : JsString) : Bool := anywhere (startsWithFold word) s

/-! ### Global replacement -/

/-- What starts at a position: the unit before it, the text from it on, and the length of the match
there, if any. -/
abbrev Matcher := Option UInt16 → JsString → Option ℕ

/-- The scan of `replaceAll`, with the previous unit and the number of units of the current match
still to be skipped. -/
def replaceFrom (m : Matcher) (replacement : JsString) : Option UInt16 → ℕ → JsString → JsString
  | _, _, [] => []
  | _, k + 1, c :: cs => replaceFrom m replacement (some c) k cs
  | prev, 0, c :: cs =>
    match m prev (c :: cs) with
    | some (n + 1) => replacement ++ replaceFrom m replacement (some c) n cs
    | _ => c :: replaceFrom m replacement (some c) 0 cs

/-- `s.replace(/…/g, replacement)` -/
def replaceAll (m : Matcher) (replacement s : JsString) : JsString :=
  replaceFrom m replacement none 0 s

variable {m : Matcher} {r : JsString}

theorem replaceFrom_eq_self :
    ∀ {s : JsString} {prev : Option UInt16}, (∀ p t, t <:+ s → m p t = none) →
      replaceFrom m r prev 0 s = s
  | [], _, _ => rfl
  | c :: cs, prev, h => by
    have htail : ∀ p t, t <:+ cs → m p t = none :=
      fun p t ht ↦ h p t (ht.trans (suffix_cons c cs))
    rw [replaceFrom, h prev (c :: cs) suffix_rfl]
    exact congrArg (c :: ·) (replaceFrom_eq_self htail)

/-- **A text without a match is unchanged.** -/
theorem replaceAll_eq_self (h : ∀ p t, t <:+ s → m p t = none) : replaceAll m r s = s :=
  replaceFrom_eq_self h

/-! ### What cannot be found after a replacement -/

/-- Some part of the text is a `P`. -/
def Occurs (P : JsString → Prop) (s : JsString) : Prop := ∃ x, x <:+: s ∧ P x

/-- No `P` overlaps a copy of the text `r`: none starts with a unit of `r`, and none has the first
unit of `r` in it. -/
structure Blocks (r : JsString) (P : JsString → Prop) : Prop where
  nil : ¬ P []
  starts : ∀ c ∈ r, ∀ x, ¬ P (c :: x)
  barrier : ∃ b r', r = b :: r' ∧ ∀ x, P x → b ∉ x

namespace Blocks

variable {P : JsString → Prop}

/-- What starts before a copy of `r` ends before it. -/
theorem isPrefix_of_isPrefix (h : Blocks r P) {p w x : JsString} (hx : P x)
    (hpre : x <+: p ++ (r ++ w)) : x <+: p := by
  obtain ⟨b, r', rfl, hb⟩ := h.barrier
  obtain ⟨v, hv⟩ := hpre
  rcases append_eq_append_iff.1 hv with ⟨a, hp, -⟩ | ⟨a, hxa, ha⟩
  · exact ⟨a, hp.symm⟩
  rcases a with - | ⟨c, a⟩
  · rw [hxa, append_nil]
  · obtain rfl : b = c := (cons.inj ha).1
    exact absurd (hxa ▸ mem_append_right p mem_cons_self) (hb x hx)

/-- A match that starts at a unit that is kept was there before. -/
theorem isPrefix_of_replaceFrom (h : Blocks r P) {x : JsString} (hx : P x) :
    ∀ {s : JsString} {prev : Option UInt16} (p : JsString),
      x <+: p ++ replaceFrom m r prev 0 s → x <+: p ++ s
  | [], _, _, hpre => hpre
  | c :: cs, prev, p, hpre => by
    rw [replaceFrom] at hpre
    split at hpre
    · exact (h.isPrefix_of_isPrefix hx hpre).trans (prefix_append p _)
    · rw [← singleton_append, ← append_assoc] at hpre ⊢
      exact h.isPrefix_of_replaceFrom hx (p ++ [c]) hpre

theorem not_isPrefix_replaceFrom (h : Blocks r P) {x : JsString} (hx : P x) :
    ∀ {s : JsString} {prev : Option UInt16} {k : ℕ},
      (∀ p t, t <:+ s → (∀ n, m p t ≠ some (n + 1)) → ¬ x <+: t) →
        ∀ t, t <:+ replaceFrom m r prev k s → ¬ x <+: t
  | [], _, k, _, t, ht, hpre => by
    have hnil : t = [] := by cases k <;> exact suffix_nil.1 ht
    exact h.nil (prefix_nil.1 (hnil ▸ hpre) ▸ hx)
  | c :: cs, prev, k + 1, hs, t, ht, hpre => by
    rw [replaceFrom] at ht
    exact h.not_isPrefix_replaceFrom hx
      (fun p t ht ↦ hs p t (ht.trans (suffix_cons c cs))) t ht hpre
  | c :: cs, prev, 0, hs, t, ht, hpre => by
    have htail : ∀ p t, t <:+ cs → (∀ n, m p t ≠ some (n + 1)) → ¬ x <+: t :=
      fun p t ht ↦ hs p t (ht.trans (suffix_cons c cs))
    rw [replaceFrom] at ht
    split at ht
    · obtain ⟨u, hu⟩ := ht
      rcases append_eq_append_iff.1 hu with ⟨v, hv, hsplit⟩ | ⟨v, hv, hsplit⟩
      · rcases v with - | ⟨d, v⟩
        · exact h.not_isPrefix_replaceFrom hx htail _ suffix_rfl (hsplit ▸ hpre)
        -- the match would start with a unit of the replacement
        have hd : d ∈ r := hv ▸ mem_append_right u mem_cons_self
        rcases x with - | ⟨e, x⟩
        · exact h.nil hx
        · rw [hsplit, cons_append, cons_prefix_cons] at hpre
          exact h.starts d hd x (hpre.1 ▸ hx)
      · exact h.not_isPrefix_replaceFrom hx htail t (hsplit ▸ suffix_append v t) hpre
    · next hnone =>
      rcases suffix_cons_iff.1 ht with rfl | ht
      · have hsource : x <+: [c] ++ cs := h.isPrefix_of_replaceFrom hx [c] hpre
        exact hs prev (c :: cs) suffix_rfl hnone hsource
      · exact h.not_isPrefix_replaceFrom hx htail t ht hpre

/-- **Nothing that the matcher finds is left.** -/
theorem not_occurs_replaceAll (h : Blocks r P)
    (hfinds : ∀ p t x, x <+: t → P x → ∃ n, m p t = some (n + 1)) (s : JsString) :
    ¬ Occurs P (replaceAll m r s) := by
  rintro ⟨x, hin, hx⟩
  obtain ⟨t, hpre, hsuf⟩ := infix_iff_prefix_suffix.1 hin
  refine h.not_isPrefix_replaceFrom hx (fun p t _ hnone hpre ↦ ?_) t hsuf hpre
  obtain ⟨n, hn⟩ := hfinds p t x hpre hx
  exact hnone n hn

/-- **A replacement adds nothing of another kind.** -/
theorem not_occurs_replaceAll_of_not_occurs (h : Blocks r P) (hs : ¬ Occurs P s) :
    ¬ Occurs P (replaceAll m r s) := by
  rintro ⟨x, hin, hx⟩
  obtain ⟨t, hpre, hsuf⟩ := infix_iff_prefix_suffix.1 hin
  exact h.not_isPrefix_replaceFrom hx
    (fun _ t ht _ hpre ↦ hs ⟨x, hpre.isInfix.trans ht.isInfix, hx⟩) t hsuf hpre

/-- **Adding the text at the end adds nothing.** -/
theorem not_occurs_append (h : Blocks r P) (hs : ¬ Occurs P s) : ¬ Occurs P (s ++ r) := by
  rintro ⟨x, hin, hx⟩
  obtain ⟨t, hpre, u, hu⟩ := infix_iff_prefix_suffix.1 hin
  rcases append_eq_append_iff.1 hu with ⟨v, hv, hsplit⟩ | ⟨v, hv, hsplit⟩
  · have hpre' : x <+: v ++ (r ++ []) := by rwa [append_nil, ← hsplit]
    exact hs ⟨x, ((h.isPrefix_of_isPrefix hx hpre').isInfix).trans ⟨u, [], by simp [hv]⟩, hx⟩
  rcases x with - | ⟨c, x⟩
  · exact h.nil hx
  · have hc : c ∈ r := hsplit ▸ mem_append_right v (hpre.subset mem_cons_self)
    exact h.starts c hc x hx

end Blocks

end Js

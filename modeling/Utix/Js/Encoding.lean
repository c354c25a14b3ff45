import Utix.Js.JsonRoundTrip

/-!
# Strings as UTF-8

What leaves the program as bytes is encoded as UTF-8. A string that is not well-formed has no such
encoding, and each of its lone surrogates is encoded as `U+FFFD`: `toWellFormed` is the string that
the bytes stand for. It is the identity on the texts of numbers and on JSON texts.

`toWellFormed` is not injective: two strings that differ in lone surrogates only, or in a lone
surrogate and the replacement unit, stand for the same bytes. So where bytes are hashed or signed,
equality of digests says that the well-formed texts are equal and no more. The texts that the
program itself makes (numbers, JSON, and what is built from them with ASCII separators) are
well-formed, which `isWellFormed_text` and `isWellFormed_quote` are about.
-/

namespace Js

open List

/-- The replacement character. -/
def replacement : UInt16 := 0xFFFD

/-- The unit is no surrogate. -/
def isScalar (c : UInt16) : Bool := !(isHighSurrogate c || isLowSurrogate c)

/-- The unit and the one after it are a surrogate pair. -/
def startsPair (c : UInt16) : JsString → Bool
  | [] => false
  | d :: _ => isHighSurrogate c && isLowSurrogate d

/-- The well-formed string with the same UTF-8 encoding. -/
def toWellFormed : JsString → JsString
  | [] => []
  | [c] => if isScalar c then [c] else [replacement]
  | c :: d :: s =>
    if isHighSurrogate c && isLowSurrogate d then c :: d :: toWellFormed s
    else if isScalar c then c :: toWellFormed (d :: s)
    else replacement :: toWellFormed (d :: s)

/-- The string has no lone surrogate. -/
def IsWellFormed (s : JsString) : Prop := toWellFormed s = s

instance decidableIsWellFormed : DecidablePred IsWellFormed :=
  fun s ↦ inferInstanceAs (Decidable (toWellFormed s = s))

/-! ### Pairs, scalars and lone surrogates -/

variable {c : UInt16}

theorem startsPair_eq_false (hc : isScalar c = true) (s : JsString) : startsPair c s = false := by
  rw [isScalar, Bool.not_eq_true', Bool.or_eq_false_iff] at hc
  cases s with
  | nil => rfl
  | cons d s => rw [startsPair, hc.1, Bool.false_and]

/-- A surrogate pair stays. -/
theorem toWellFormed_pair {d : UInt16} (h : startsPair c [d] = true) (s : JsString) :
    toWellFormed (c :: d :: s) = c :: d :: toWellFormed s := by
  rw [startsPair] at h
  rw [toWellFormed, if_pos h]

/-- A unit that is no surrogate stays. -/
theorem toWellFormed_scalar (hc : isScalar c = true) (s : JsString) :
    toWellFormed (c :: s) = c :: toWellFormed s := by
  cases s with
  | nil => simp [toWellFormed, hc]
  | cons d s =>
    have hpair : (isHighSurrogate c && isLowSurrogate d) = false := startsPair_eq_false hc (d :: s)
    rw [toWellFormed, hpair, if_neg Bool.false_ne_true, if_pos hc]

variable {s : JsString}

/-- A lone surrogate is replaced. -/
theorem toWellFormed_lone (hc : isScalar c = false) (hs : startsPair c s = false) :
    toWellFormed (c :: s) = replacement :: toWellFormed s := by
  cases s with
  | nil => simp [toWellFormed, hc]
  | cons d s =>
    have hpair : (isHighSurrogate c && isLowSurrogate d) = false := hs
    rw [toWellFormed, hpair, if_neg Bool.false_ne_true, hc, if_neg Bool.false_ne_true]

/-- **Induction along a string** in surrogate pairs, scalars and lone surrogates. -/
theorem unitsInduction {P : JsString → Prop} (nil : P [])
    (pair : ∀ c d s, startsPair c [d] = true → P s → P (c :: d :: s))
    (scalar : ∀ c s, isScalar c = true → P s → P (c :: s))
    (lone : ∀ c s, isScalar c = false → startsPair c s = false → P s → P (c :: s)) :
    ∀ s, P s := by
  have single : ∀ c s, startsPair c s = false → P s → P (c :: s) := by
    intro c s hs h
    cases hc : isScalar c with
    | true => exact scalar c s hc h
    | false => exact lone c s hc hs h
  intro s
  induction s using toWellFormed.induct with
  | case1 => exact nil
  | case2 c => exact single c [] rfl nil
  | case3 c => exact single c [] rfl nil
  | case4 c d s hpair ih => exact pair c d s hpair ih
  | case5 c d s hpair _ ih => exact single c (d :: s) (Bool.eq_false_iff.2 hpair) ih
  | case6 c d s hpair _ ih => exact single c (d :: s) (Bool.eq_false_iff.2 hpair) ih

theorem isScalar_replacement : isScalar replacement = true := by decide

/-! ### Well-formed strings -/

/-- **A well-formed part keeps its place.** -/
theorem toWellFormed_append (hs : IsWellFormed s) (t : JsString) :
    toWellFormed (s ++ t) = s ++ toWellFormed t := by
  rw [IsWellFormed] at hs
  induction s using unitsInduction with
  | nil => rfl
  | pair c d s hpair ih =>
    rw [toWellFormed_pair hpair] at hs
    rw [cons_append, cons_append, toWellFormed_pair hpair, ih (cons.inj (cons.inj hs).2).2]
    rfl
  | scalar c s hc ih =>
    rw [toWellFormed_scalar hc] at hs
    rw [cons_append, toWellFormed_scalar hc, ih (cons.inj hs).2]
    rfl
  | lone c s hc hpair ih =>
    -- the encoding has a replacement there, which is no surrogate
    rw [toWellFormed_lone hc hpair] at hs
    rw [← (cons.inj hs).1, isScalar_replacement] at hc
    cases hc

theorem IsWellFormed.append {t : JsString} (hs : IsWellFormed s) (ht : IsWellFormed t) :
    IsWellFormed (s ++ t) := by
  rw [IsWellFormed, toWellFormed_append hs, ht]

theorem IsWellFormed.nil : IsWellFormed [] := rfl

theorem IsWellFormed.pair {d : UInt16} (hpair : startsPair c [d] = true) (hs : IsWellFormed s) :
    IsWellFormed (c :: d :: s) := by
  rw [IsWellFormed, toWellFormed_pair hpair, hs]

theorem IsWellFormed.cons (hc : isScalar c = true) (hs : IsWellFormed s) :
    IsWellFormed (c :: s) := by
  rw [IsWellFormed, toWellFormed_scalar hc, hs]

/-- A text without surrogates is well-formed. -/
theorem isWellFormed_of_scalars (h : ∀ c ∈ s, isScalar c = true) : IsWellFormed s := by
  induction s with
  | nil => exact .nil
  | cons c s ih => exact .cons (h c mem_cons_self) (ih fun d hd ↦ h d (mem_cons_of_mem c hd))

/-- A scalar in the middle does not pair up with its neighbours. -/
theorem toWellFormed_append_cons (hc : isScalar c = true) (s t : JsString) :
    toWellFormed (s ++ c :: t) = toWellFormed s ++ c :: toWellFormed t := by
  induction s using unitsInduction with
  | nil => exact toWellFormed_scalar hc t
  | pair d e s hpair ih =>
    rw [cons_append, cons_append, toWellFormed_pair hpair, ih, toWellFormed_pair hpair]
    rfl
  | scalar d s hd ih =>
    rw [cons_append, toWellFormed_scalar hd, ih, toWellFormed_scalar hd]
    rfl
  | lone d s hd hpair ih =>
    have hlow : isLowSurrogate c = false := by
      rw [isScalar, Bool.not_eq_true', Bool.or_eq_false_iff] at hc
      exact hc.2
    have hpair' : startsPair d (s ++ c :: t) = false := by
      cases s with
      | nil => rw [nil_append, startsPair, hlow, Bool.and_false]
      | cons e s => exact hpair
    rw [cons_append, toWellFormed_lone hd hpair', ih, toWellFormed_lone hd hpair]
    rfl

/-- What the bytes stand for is well-formed. -/
theorem isWellFormed_toWellFormed (s : JsString) : IsWellFormed (toWellFormed s) := by
  induction s using unitsInduction with
  | nil => rfl
  | pair c d s hpair ih => rw [toWellFormed_pair hpair]; exact .pair hpair ih
  | scalar c s hc ih => rw [toWellFormed_scalar hc]; exact .cons hc ih
  | lone c s hc hpair ih => rw [toWellFormed_lone hc hpair]; exact .cons isScalar_replacement ih

@[simp] theorem length_toWellFormed (s : JsString) : (toWellFormed s).length = s.length := by
  induction s using unitsInduction with
  | nil => rfl
  | pair c d s hpair ih => simp [toWellFormed_pair hpair, ih]
  | scalar c s hc ih => simp [toWellFormed_scalar hc, ih]
  | lone c s hc hpair ih => simp [toWellFormed_lone hc hpair, ih]

/-- Only a replacement tells a string from its encoding. -/
theorem isWellFormed_of_replacement_not_mem (h : replacement ∉ toWellFormed s) :
    IsWellFormed s := by
  induction s using unitsInduction with
  | nil => rfl
  | pair c d s hpair ih =>
    rw [toWellFormed_pair hpair] at h
    exact .pair hpair (ih fun hmem ↦ h (mem_cons_of_mem _ (mem_cons_of_mem _ hmem)))
  | scalar c s hc ih =>
    rw [toWellFormed_scalar hc] at h
    exact .cons hc (ih fun hmem ↦ h (mem_cons_of_mem _ hmem))
  | lone c s hc hpair ih =>
    rw [toWellFormed_lone hc hpair] at h
    exact absurd mem_cons_self h

/-! ### The texts of values -/

theorem isScalar_of_lt (h : c < 0xD800) : isScalar c = true := by
  simp only [isScalar, isHighSurrogate, isLowSurrogate, Bool.not_eq_true', Bool.or_eq_false_iff,
    Bool.and_eq_false_iff, decide_eq_false_iff_not, UInt16.not_le]
  exact ⟨.inl h, .inl (UInt16.lt_trans h (by decide))⟩

/-- The text of a number is well-formed. -/
theorem isWellFormed_text (n : JsNum) : IsWellFormed n.text := by
  cases n with
  | nan => rfl
  | infinite negative => cases negative <;> rfl
  | finite d =>
    refine isWellFormed_of_scalars fun c hc ↦ isScalar_of_lt ?_
    have hunit := Decimal.isNumberUnit_of_mem_text hc
    simp only [Decimal.isNumberUnit, isDigit, Bool.or_eq_true, Bool.and_eq_true, beq_iff_eq,
      decide_eq_true_eq] at hunit
    rcases hunit with (((h | h) | h) | h) | h
    · exact UInt16.lt_of_le_of_lt h.2 (by decide)
    all_goals
      rw [h]
      decide

theorem isWellFormed_unicodeEscape (c : UInt16) : IsWellFormed (unicodeEscape c) := by
  have hdigit : ∀ n < 16, isScalar (hexDigit n) = true := by decide
  have hunit := UInt16.toNat_lt c
  refine isWellFormed_of_scalars fun d hd ↦ ?_
  simp only [unicodeEscape, mem_cons, not_mem_nil, or_false] at hd
  rcases hd with rfl | rfl | rfl | rfl | rfl | rfl
  · decide
  · decide
  all_goals exact hdigit _ (by omega)

theorem isWellFormed_quoteUnit (hc : isScalar c = true) : IsWellFormed (quoteUnit c) := by
  rw [quoteUnit]
  split
  next letter hletter =>
    have hletters := all_eq_true.1 (show shortEscapes.all (fun e ↦ isScalar e.2) = true by decide)
    refine isWellFormed_of_scalars fun d hd ↦ ?_
    rcases mem_pair.1 hd with rfl | rfl
    · decide
    · obtain ⟨before, after, hsplit, -⟩ := lookup_eq_some_iff.1 hletter
      exact hletters (c, d) (by rw [hsplit]; simp)
  next =>
    split
    · exact isWellFormed_unicodeEscape c
    · exact .cons hc .nil

theorem isWellFormed_quoteBody (s : JsString) : IsWellFormed (quoteBody s) := by
  induction s using unitsInduction with
  | nil => exact .nil
  | pair c d s hpair ih =>
    have hunits := Bool.and_eq_true_iff.1 hpair
    rw [quoteBody, if_pos hunits.1, if_pos hunits.2]
    exact .pair hpair ih
  | scalar c s hc ih =>
    have hunits : isHighSurrogate c = false ∧ isLowSurrogate c = false := by
      simpa [isScalar] using hc
    rw [quoteBody.eq_def]
    simp only [hunits.1, hunits.2, Bool.false_eq_true, if_false]
    exact (isWellFormed_quoteUnit hc).append ih
  | lone c s hc hpair ih =>
    rw [quoteBody.eq_def]
    cases s with
    | nil =>
      simp only
      split
      · exact isWellFormed_unicodeEscape c
      split
      · exact (isWellFormed_unicodeEscape c).append .nil
      next hhigh hlow => simp [isScalar, hhigh, hlow] at hc
    | cons d s =>
      simp only
      split
      next hhigh =>
        have hlow : isLowSurrogate d = false := by
          rw [startsPair, hhigh, Bool.true_and] at hpair
          exact hpair
        rw [hlow, if_neg Bool.false_ne_true]
        exact (isWellFormed_unicodeEscape c).append ih
      next hhigh =>
        split
        · exact (isWellFormed_unicodeEscape c).append ih
        next hlow => simp [isScalar, hhigh, hlow] at hc

/-- So is every quoted text, since lone surrogates are escaped. -/
theorem isWellFormed_quote (s : JsString) : IsWellFormed (quote s) :=
  .cons (by decide) ((isWellFormed_quoteBody s).append (.cons (by decide) .nil))

theorem isWellFormed_intercalate {texts : List JsString} (h : ∀ t ∈ texts, IsWellFormed t) :
    IsWellFormed (intercalate [44] texts) := by
  induction texts with
  | nil => exact .nil
  | cons t texts ih =>
    have ht := h t mem_cons_self
    cases texts with
    | nil => simpa [intercalate] using ht
    | cons u texts =>
      have hrest := ih fun v hv ↦ h v (mem_cons_of_mem t hv)
      have hsplit : intercalate [44] (t :: u :: texts) =
          t ++ 44 :: intercalate [44] (u :: texts) := by simp [intercalate]
      rw [hsplit]
      exact ht.append (.cons (by decide) hrest)

/-- **A JSON text has no lone surrogate.** -/
theorem isWellFormed_stringify (v : JsValue) : IsWellFormed (stringify v) := by
  induction v using JsValue.induct with
  | undefined => rfl
  | null => rfl
  | bool b => cases b <;> rfl
  | num n =>
    rw [stringify]
    split
    · exact isWellFormed_text n
    · rfl
  | str s => rw [stringify]; exact isWellFormed_quote s
  | foreign kind => rfl
  | arr xs ih =>
    have helems : ∀ t ∈ stringifyElems xs, IsWellFormed t := by
      induction xs with
      | nil => exact fun _ h ↦ by cases h
      | cons x xs ihxs =>
        intro t ht
        rcases mem_cons.1 ht with rfl | ht
        · exact ih x mem_cons_self
        · exact ihxs (fun y hy ↦ ih y (mem_cons_of_mem x hy)) t ht
    rw [stringify]
    exact .cons (by decide) ((isWellFormed_intercalate helems).append (.cons (by decide) .nil))
  | obj fs ih =>
    have hfields : ∀ t ∈ stringifyFields fs, IsWellFormed t := by
      induction fs with
      | nil => exact fun _ h ↦ by cases h
      | cons f fs ihfs =>
        obtain ⟨k, x⟩ := f
        intro t ht
        have hrest := ihfs fun g hg ↦ ih g (mem_cons_of_mem _ hg)
        rw [stringifyFields] at ht
        split at ht
        · exact hrest t ht
        · rcases mem_cons.1 ht with rfl | ht
          · exact (isWellFormed_quote k).append (.cons (by decide) (ih _ mem_cons_self))
          · exact hrest t ht
    rw [stringify]
    exact .cons (by decide) ((isWellFormed_intercalate hfields).append (.cons (by decide) .nil))

end Js

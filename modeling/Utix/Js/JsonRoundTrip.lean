import Utix.Js.Json

/-!
# What `JSON.parse` makes of what `JSON.stringify` wrote

Three facts, each by induction on the value or on the fuel:

* `parse_stringify`: a JSON value is read back exactly;
* `stringify_jsonOf`: any value has the text of its JSON reading, so `parse_stringify_jsonOf` says
  what a round trip does to a value with `undefined`, functions or infinite numbers in it;
* `isJson_of_parse`: whatever is accepted is a JSON value.

`stringify_injective` is the first fact read backwards, and is what the injectivity of a canonical
text rests on.

The parser runs on fuel, so each of its lemmas has a bound: `size` counts the nodes of a value, and
the text of a value is at least as long as its size. What follows the value in the text is
arbitrary, as long as it does not continue a number, since the induction reads elements that others
follow.
-/

namespace Js

open JsValue List Option Fields JsNum

/-! ### JSON values -/

variable {xs : List JsValue} {fs : Fields} {v : JsValue}

namespace JsValue

mutual

/-- A value JSON can express: no `undefined`, no function, finite numbers, distinct keys. -/
def IsJson : JsValue → Prop
  | .undefined => False
  | .null => True
  | .bool _ => True
  | .num n => n.isFinite = true
  | .str _ => True
  | .arr xs => IsJsonElems xs
  | .obj fs => (Fields.keys fs).Nodup ∧ IsJsonFields fs
  | .foreign _ => False

/-- Every element is a JSON value. -/
def IsJsonElems : List JsValue → Prop
  | [] => True
  | x :: xs => IsJson x ∧ IsJsonElems xs

/-- Every field value is a JSON value. -/
def IsJsonFields : Fields → Prop
  | [] => True
  | (_, x) :: fs => IsJson x ∧ IsJsonFields fs

end

theorem isJsonElems_iff : IsJsonElems xs ↔ ∀ x ∈ xs, IsJson x := by
  induction xs with
  | nil => simp [IsJsonElems]
  | cons x xs ih => simp [IsJsonElems, ih]

theorem isJsonFields_iff : IsJsonFields fs ↔ ∀ f ∈ fs, IsJson f.2 := by
  induction fs with
  | nil => simp [IsJsonFields]
  | cons f fs ih => simp [IsJsonFields, ih]

theorem isJson_arr : IsJson (.arr xs) ↔ ∀ x ∈ xs, IsJson x := isJsonElems_iff

/-- An object is JSON if its keys are distinct and its fields are JSON. -/
theorem isJson_obj : IsJson (.obj fs) ↔ (Fields.keys fs).Nodup ∧ ∀ f ∈ fs, IsJson f.2 :=
  and_congr_right fun _ ↦ isJsonFields_iff

/-- A JSON value is written wherever it stands. -/
theorem IsJson.isOmitted (h : IsJson v) : v.isOmitted = false := by
  cases v <;> simp_all [IsJson, JsValue.isOmitted]

/-- A member of a JSON object is a JSON value. -/
theorem IsJson.get (h : IsJson (.obj fs)) {key : JsString} (hkey : fs.get key ≠ .undefined) :
    IsJson (fs.get key) :=
  (isJson_obj.1 h).2 _ (get_mem hkey)

mutual

/-- The fuel that reading the text of a value takes. -/
def size : JsValue → ℕ
  | .arr xs => 1 + sizeElems xs
  | .obj fs => 1 + sizeFields fs
  | _ => 1

/-- The fuel for the elements. -/
def sizeElems : List JsValue → ℕ
  | [] => 0
  | x :: xs => 1 + size x + sizeElems xs

/-- The fuel for the fields. -/
def sizeFields : Fields → ℕ
  | [] => 0
  | (_, x) :: fs => 1 + size x + sizeFields fs

end

theorem size_pos (v : JsValue) : 0 < v.size := by
  cases v <;> simp [size]

end JsValue

/-! ### Strings -/

theorem hexValue_hexDigit {n : ℕ} (h : n < 16) : hexValue (hexDigit n) = some n := by
  interval_cases n <;> decide

theorem parseBody_close (cs : JsString) : parseBody (34 :: cs) = some ([], cs) := by
  rw [parseBody.eq_def]
  exact if_pos rfl

variable {c : UInt16}

theorem parseBody_plain (h34 : c ≠ 34) (h92 : c ≠ 92) (h32 : ¬c < 32) (cs : JsString) :
    parseBody (c :: cs) = consUnit c (parseBody cs) := by
  rw [parseBody.eq_def]
  simp only [if_neg h34, if_neg h92, if_neg h32]

/-- An escape with four digits is read as its unit. -/
theorem parseBody_unicodeEscape (c : UInt16) (cs : JsString) :
    parseBody (unicodeEscape c ++ cs) = consUnit c (parseBody cs) := by
  have hc : c.toNat < 65536 := c.toNat_lt
  have hsum : (4096 * (c.toNat / 4096) + 256 * (c.toNat / 256 % 16) + 16 * (c.toNat / 16 % 16) +
      c.toNat % 16).toUInt16 = c := by
    rw [show 4096 * (c.toNat / 4096) + 256 * (c.toNat / 256 % 16) + 16 * (c.toNat / 16 % 16) +
      c.toNat % 16 = c.toNat by omega]
    exact UInt16.ofNat_toNat
  have hhex : unitOfHex (hexDigit (c.toNat / 4096)) (hexDigit (c.toNat / 256 % 16))
      (hexDigit (c.toNat / 16 % 16)) (hexDigit (c.toNat % 16)) = some c := by
    rw [unitOfHex, hexValue_hexDigit (by omega), hexValue_hexDigit (by omega),
      hexValue_hexDigit (by omega), hexValue_hexDigit (by omega)]
    exact congrArg some hsum
  simp only [unicodeEscape, cons_append, nil_append]
  rw [parseBody.eq_def]
  simp only [if_neg (show (92 : UInt16) ≠ 34 by decide), if_true, hhex]

/-- The letters of the short escapes lead back to their units. -/
theorem unescape_shortEscape {letter : UInt16} (h : shortEscapes.lookup c = some letter) :
    letter ≠ 117 ∧ unescape letter = some c := by
  simp only [shortEscapes, lookup_cons, lookup_nil] at h
  repeat' split at h
  all_goals first
    | (cases h
       simp_all only [beq_iff_eq]
       exact ⟨by decide, by decide⟩)
    | cases h

theorem shortEscape_of_special (h : shortEscapes.lookup c = none) : c ≠ 34 ∧ c ≠ 92 := by
  constructor <;> (rintro rfl; exact absurd h (by decide))

/-- A unit is read back from the way it is quoted. -/
theorem parseBody_quoteUnit (c : UInt16) (cs : JsString) :
    parseBody (quoteUnit c ++ cs) = consUnit c (parseBody cs) := by
  rw [quoteUnit]
  split
  · next letter h =>
    obtain ⟨hu, hback⟩ := unescape_shortEscape h
    simp only [cons_append, nil_append]
    rw [parseBody.eq_def]
    simp only [if_neg (show (92 : UInt16) ≠ 34 by decide), if_true, if_neg hu, hback]
  · next h =>
    obtain ⟨h34, h92⟩ := shortEscape_of_special h
    split
    · exact parseBody_unicodeEscape c cs
    · next h32 => exact parseBody_plain h34 h92 h32 cs

/-- A surrogate is written as it is only inside a pair, and then it is an ordinary unit. -/
theorem parseBody_surrogate (h : isHighSurrogate c = true ∨ isLowSurrogate c = true)
    (cs : JsString) : parseBody (c :: cs) = consUnit c (parseBody cs) := by
  have hlow : (0xD800 : UInt16) ≤ c := by
    rcases h with h | h
    · simp only [isHighSurrogate, Bool.and_eq_true, decide_eq_true_eq] at h
      exact h.1
    · simp only [isLowSurrogate, Bool.and_eq_true, decide_eq_true_eq] at h
      exact le_trans (by decide) h.1
  have hlt : (92 : UInt16) < c := lt_of_lt_of_le (by decide) hlow
  refine parseBody_plain ?_ (ne_of_gt hlt) (not_lt.2 (le_trans (by decide) hlow)) cs
  exact ne_of_gt (lt_trans (by decide) hlt)

/-- **A quoted string is read back.** -/
theorem parseBody_quoteBody (s rest : JsString) :
    parseBody (quoteBody s ++ 34 :: rest) = some (s, rest) := by
  fun_induction quoteBody s with
  | case1 => rw [nil_append, parseBody_close]
  | case2 c hc => rw [parseBody_unicodeEscape, parseBody_close]; rfl
  | case3 c hc d ds hd ih =>
    rw [cons_append, cons_append, parseBody_surrogate (.inl hc), parseBody_surrogate (.inr hd), ih]
    rfl
  | case4 c hc d ds hd ih => rw [append_assoc, parseBody_unicodeEscape, ih]; rfl
  | case5 c cs hc hlow ih => rw [append_assoc, parseBody_unicodeEscape, ih]; rfl
  | case6 c cs hc hlow ih => rw [append_assoc, parseBody_quoteUnit, ih]; rfl

/-! ### Values -/

theorem skipSpace_cons (h : isJsonSpace c = false) (cs : JsString) :
    skipSpace (c :: cs) = c :: cs := by
  simp [skipSpace, h]

/-- A keyword is read as its value. -/
theorem parseKeyword_append (word rest : JsString) (v : JsValue) :
    parseKeyword word v (word ++ rest) = some (v, rest) := by
  rw [parseKeyword, if_pos (List.isPrefixOf_iff_prefix.2 (prefix_append _ _)), drop_left]

/-- How the text of a JSON value starts: not with white space, and not with a closing bracket. -/
theorem stringify_head (h : IsJson v) :
    ∃ c cs, stringify v = c :: cs ∧ isJsonSpace c = false ∧ c ≠ 93 ∧ c ≠ 125 := by
  cases v with
  | undefined => exact absurd h id
  | null => exact ⟨110, _, rfl, by decide, by decide, by decide⟩
  | bool b =>
    cases b with
    | true => exact ⟨116, _, rfl, by decide, by decide, by decide⟩
    | false => exact ⟨102, _, rfl, by decide, by decide, by decide⟩
  | num n =>
    cases n with
    | finite d =>
      obtain ⟨c, cs, htext, hc⟩ := d.text_head
      refine ⟨c, cs, htext, ?_, ?_, ?_⟩ <;> rcases hc with hc | rfl
      · simp only [isDigit, Bool.and_eq_true, decide_eq_true_eq, UInt16.le_iff_toNat_le,
          UInt16.reduceToNat] at hc
        simp only [isJsonSpace, Bool.or_eq_false_iff, beq_eq_false_iff_ne, ne_eq,
          ← UInt16.toNat_inj, UInt16.reduceToNat]
        omega
      · decide
      · rintro rfl; exact absurd hc (by decide)
      · decide
      · rintro rfl; exact absurd hc (by decide)
      · decide
    | nan => exact absurd h (by simp [IsJson, isFinite])
    | infinite p => exact absurd h (by simp [IsJson, isFinite])
  | str s => exact ⟨34, _, rfl, by decide, by decide, by decide⟩
  | arr xs => exact ⟨91, _, by rw [stringify], by decide, by decide, by decide⟩
  | obj fs => exact ⟨123, _, by rw [stringify], by decide, by decide, by decide⟩
  | foreign k => exact absurd h id

/-- Reading the text of `v` in front of anything that does not continue a number. -/
def ReadsBack (v : JsValue) : Prop :=
  ∀ fuel rest, v.size ≤ fuel → Decimal.EndsNumber rest →
    parseValue fuel (stringify v ++ rest) = some (v, rest)

theorem endsNumber_cons (h : isDigit c = false ∧ c ≠ 46 ∧ c ≠ 101 ∧ c ≠ 69) (cs : JsString) :
    Decimal.EndsNumber (c :: cs) := by
  intro d hd
  obtain rfl : c = d := by simpa using hd
  exact h

/-- The elements of an array are read back if each of them is. -/
theorem parseElems_stringifyElems (hne : xs ≠ []) (h : ∀ x ∈ xs, ReadsBack x) (fuel : ℕ)
    (hfuel : sizeElems xs ≤ fuel) (rest : JsString) :
    parseElems fuel (intercalate [44] (stringifyElems xs) ++ 93 :: rest) = some (xs, rest) := by
  induction xs generalizing fuel with
  | nil => exact absurd rfl hne
  | cons x xs ih =>
    rw [sizeElems] at hfuel
    obtain ⟨n, rfl⟩ : ∃ n, fuel = n + 1 := ⟨fuel - 1, by omega⟩
    have hx := h x mem_cons_self
    rw [stringifyElems]
    rcases xs with - | ⟨y, ys⟩
    · rw [stringifyElems, intercalate_singleton, parseElems,
        hx n (93 :: rest) (by omega) (endsNumber_cons (by decide) rest)]
      simp only [skipSpace_cons (show isJsonSpace 93 = false by decide),
        if_neg (show (93 : UInt16) ≠ 44 by decide), if_true]
    · have htail := ih (by simp) (fun z hz ↦ h z (mem_cons_of_mem _ hz)) n (by omega)
      rw [stringifyElems] at htail ⊢
      rw [intercalate_cons_cons, append_assoc, append_assoc, singleton_append,
        parseElems, hx n _ (by omega) (endsNumber_cons (by decide) _)]
      simp only [skipSpace_cons (show isJsonSpace 44 = false by decide), if_true, htail, map_some]

/-- The fields of an object are read back if each of them is. -/
theorem parseMembers_stringifyFields (hne : fs ≠ []) (hjson : ∀ f ∈ fs, IsJson f.2)
    (h : ∀ f ∈ fs, ReadsBack f.2) (fuel : ℕ) (hfuel : sizeFields fs ≤ fuel) (rest : JsString) :
    parseMembers fuel (intercalate [44] (stringifyFields fs) ++ 125 :: rest) = some (fs, rest) := by
  induction fs generalizing fuel with
  | nil => exact absurd rfl hne
  | cons f fs ih =>
    obtain ⟨k, x⟩ := f
    rw [sizeFields] at hfuel
    obtain ⟨n, rfl⟩ : ∃ n, fuel = n + 1 := ⟨fuel - 1, by omega⟩
    have hx : ReadsBack x := h (k, x) mem_cons_self
    have hfield : ∀ (y : JsValue) (gs : Fields), IsJson y →
        stringifyFields ((k, y) :: gs) = (quote k ++ 58 :: stringify y) :: stringifyFields gs := by
      intro y gs hy
      rw [stringifyFields, hy.isOmitted]
      exact if_neg Bool.false_ne_true
    rw [hfield x fs (hjson (k, x) mem_cons_self)]
    rcases fs with - | ⟨⟨l, y⟩, gs⟩
    · rw [stringifyFields, intercalate_singleton, quote, append_assoc, cons_append,
        append_assoc, singleton_append, parseMembers,
        skipSpace_cons (by decide)]
      simp only [if_true, cons_append, parseBody_quoteBody,
        skipSpace_cons (show isJsonSpace 58 = false by decide),
        hx n (125 :: rest) (by omega) (endsNumber_cons (by decide) rest),
        skipSpace_cons (show isJsonSpace 125 = false by decide),
        if_neg (show (125 : UInt16) ≠ 44 by decide)]
    · have htail := ih (by simp) (fun z hz ↦ hjson z (mem_cons_of_mem _ hz))
        (fun z hz ↦ h z (mem_cons_of_mem _ hz)) n (by omega)
      have hy : IsJson y := hjson (l, y) (by simp)
      have hhead : stringifyFields ((l, y) :: gs) =
          (quote l ++ 58 :: stringify y) :: stringifyFields gs := by
        rw [stringifyFields, hy.isOmitted]
        exact if_neg Bool.false_ne_true
      rw [hhead] at htail ⊢
      rw [intercalate_cons_cons, quote, append_assoc, append_assoc,
        singleton_append, append_assoc, cons_append, append_assoc,
        singleton_append, parseMembers, skipSpace_cons (by decide)]
      simp only [if_true, cons_append, parseBody_quoteBody,
        skipSpace_cons (show isJsonSpace 58 = false by decide),
        hx n _ (by omega) (endsNumber_cons (show isDigit 44 = false ∧ _ by decide) _),
        skipSpace_cons (show isJsonSpace 44 = false by decide), htail, map_some]

/-- **A JSON value is read back.** By induction on the value: the elements and members are read by
the two list lemmas, whose hypothesis is the induction hypothesis. -/
theorem readsBack (hv : IsJson v) : ReadsBack v := by
  induction v using JsValue.induct with
  | undefined => exact absurd hv id
  | foreign k => exact absurd hv id
  | null =>
    intro fuel rest hfuel _
    obtain ⟨n, rfl⟩ : ∃ n, fuel = n + 1 := ⟨fuel - 1, by have := size_pos .null; omega⟩
    rw [stringify, show js "null" = 110 :: js "ull" from rfl, cons_append, parseValue,
      skipSpace_cons (by decide)]
    exact parseKeyword_append (js "ull") rest .null
  | bool b =>
    intro fuel rest hfuel _
    obtain ⟨n, rfl⟩ : ∃ n, fuel = n + 1 := ⟨fuel - 1, by have := size_pos (.bool b); omega⟩
    cases b with
    | true =>
      rw [stringify, if_pos rfl, show js "true" = 116 :: js "rue" from rfl, cons_append,
        parseValue, skipSpace_cons (by decide)]
      exact parseKeyword_append (js "rue") rest (.bool true)
    | false =>
      rw [stringify, if_neg Bool.false_ne_true, show js "false" = 102 :: js "alse" from rfl,
        cons_append, parseValue, skipSpace_cons (by decide)]
      exact parseKeyword_append (js "alse") rest (.bool false)
  | num x =>
    intro fuel rest hfuel hrest
    obtain ⟨n, rfl⟩ : ∃ n, fuel = n + 1 := ⟨fuel - 1, by have := size_pos (.num x); omega⟩
    cases x with
    | nan => exact absurd hv (by simp [IsJson, isFinite])
    | infinite p => exact absurd hv (by simp [IsJson, isFinite])
    | finite d =>
      obtain ⟨c, cs, htext, hc⟩ := d.text_head
      obtain ⟨c', cs', htext', hspace, -, -⟩ := stringify_head hv
      have hs : stringify (.num (.finite d)) = c :: cs := htext
      obtain ⟨rfl, rfl⟩ := cons.inj (htext'.symm.trans hs)
      have hread := d.parseNumber_text hrest
      rw [htext, cons_append] at hread
      have hne : ∀ u : UInt16, isDigit u = false → u ≠ 45 → c' ≠ u := by
        rintro u hu hm rfl
        rcases hc with hc | rfl
        · rw [hu] at hc; exact Bool.false_ne_true hc
        · exact hm rfl
      rw [hs, cons_append, parseValue, skipSpace_cons hspace]
      simp only [if_neg (hne 34 (by decide) (by decide)), if_neg (hne 91 (by decide) (by decide)),
        if_neg (hne 123 (by decide) (by decide)), if_neg (hne 116 (by decide) (by decide)),
        if_neg (hne 102 (by decide) (by decide)), if_neg (hne 110 (by decide) (by decide)), hread,
        map_some]
  | str s =>
    intro fuel rest hfuel _
    obtain ⟨n, rfl⟩ : ∃ n, fuel = n + 1 := ⟨fuel - 1, by have := size_pos (.str s); omega⟩
    rw [stringify, quote, cons_append, append_assoc, singleton_append, parseValue,
      skipSpace_cons (by decide)]
    simp only [if_true, parseBody_quoteBody, map_some]
  | arr xs ih =>
    intro fuel rest hfuel _
    rw [size] at hfuel
    obtain ⟨n, rfl⟩ : ∃ n, fuel = n + 1 := ⟨fuel - 1, by omega⟩
    have hxs := isJson_arr.1 hv
    rw [stringify, cons_append, append_assoc, singleton_append, parseValue,
      skipSpace_cons (by decide)]
    simp only [if_neg (show (91 : UInt16) ≠ 34 by decide), if_true]
    rcases xs with - | ⟨x, xs⟩
    · rfl
    obtain ⟨c, cs, hhead, hspace, h93, -⟩ := stringify_head (hxs x mem_cons_self)
    have hlist := parseElems_stringifyElems (cons_ne_nil x xs)
      (fun y hy ↦ ih y hy (hxs y hy)) n (by omega) rest
    obtain ⟨cs', htext⟩ : ∃ cs', intercalate [44] (stringifyElems (x :: xs)) ++ 93 :: rest =
        c :: cs' := by
      rw [stringifyElems, hhead]
      cases stringifyElems xs <;> simp
    rw [htext] at hlist ⊢
    simp only [skipSpace_cons hspace, if_neg h93, hlist, map_some]
  | obj fs ih =>
    intro fuel rest hfuel _
    rw [size] at hfuel
    obtain ⟨n, rfl⟩ : ∃ n, fuel = n + 1 := ⟨fuel - 1, by omega⟩
    obtain ⟨hnd, hfs⟩ := isJson_obj.1 hv
    rw [stringify, cons_append, append_assoc, singleton_append, parseValue,
      skipSpace_cons (by decide)]
    simp only [if_neg (show (123 : UInt16) ≠ 34 by decide),
      if_neg (show (123 : UInt16) ≠ 91 by decide), if_true]
    rcases fs with - | ⟨⟨k, x⟩, fs⟩
    · rfl
    have hlist := parseMembers_stringifyFields (cons_ne_nil (k, x) fs) hfs
      (fun f hf ↦ ih f hf (hfs f hf)) n (by omega) rest
    obtain ⟨cs', htext⟩ : ∃ cs', intercalate [44] (stringifyFields ((k, x) :: fs)) ++
        125 :: rest = 34 :: cs' := by
      rw [stringifyFields, (hfs (k, x) mem_cons_self).isOmitted, quote]
      cases stringifyFields fs <;> simp
    rw [htext] at hlist ⊢
    simp only [skipSpace_cons (show isJsonSpace 34 = false by decide),
      if_neg (show (34 : UInt16) ≠ 125 by decide), hlist, map_some,
      ofList_eq_self hnd]

/-! ### `JSON.parse` of a text -/

theorem length_quote (s : JsString) : 2 ≤ (quote s).length := by
  simp [quote]

/-- The text of an array is long enough for its elements. -/
theorem sizeElems_le_length (h : ∀ x ∈ xs, x.size ≤ (stringify x).length) :
    sizeElems xs ≤ (intercalate [44] (stringifyElems xs)).length + 1 := by
  induction xs with
  | nil => simp [sizeElems]
  | cons x xs ih =>
    have hx := h x mem_cons_self
    have hxs := ih fun y hy ↦ h y (mem_cons_of_mem _ hy)
    rcases xs with - | ⟨y, ys⟩
    · simp only [sizeElems, stringifyElems, intercalate_singleton]
      omega
    rw [sizeElems, stringifyElems]
    rw [stringifyElems] at hxs ⊢
    rw [intercalate_cons_cons, length_append, length_append]
    simp only [length_singleton]
    omega

/-- The text of an object is long enough for its fields. -/
theorem sizeFields_le_length (hjson : ∀ f ∈ fs, IsJson f.2)
    (h : ∀ f ∈ fs, f.2.size ≤ (stringify f.2).length) :
    sizeFields fs ≤ (intercalate [44] (stringifyFields fs)).length + 1 := by
  induction fs with
  | nil => simp [sizeFields]
  | cons f fs ih =>
    obtain ⟨k, x⟩ := f
    have hx : x.size ≤ (stringify x).length := h (k, x) mem_cons_self
    have hk := length_quote k
    have hfs := ih (fun y hy ↦ hjson y (mem_cons_of_mem _ hy))
      fun y hy ↦ h y (mem_cons_of_mem _ hy)
    rw [sizeFields, stringifyFields, (hjson (k, x) mem_cons_self).isOmitted,
      if_neg Bool.false_ne_true]
    rcases hrest : stringifyFields fs with - | ⟨t, ts⟩
    · rw [hrest] at hfs
      simp only [intercalate_nil, length_nil] at hfs
      simp only [intercalate_singleton, length_append, length_cons]
      omega
    · rw [hrest] at hfs
      rw [intercalate_cons_cons, length_append, length_append]
      simp only [length_append, length_cons]
      omega

/-- The fuel a text needs is at most its length. -/
theorem size_le_length (hv : IsJson v) : v.size ≤ (stringify v).length := by
  induction v using JsValue.induct with
  | arr xs ih =>
    have hxs := sizeElems_le_length fun x hx ↦ ih x hx (isJson_arr.1 hv x hx)
    rw [size, stringify]
    simp only [length_cons, length_append, length_nil]
    omega
  | obj fs ih =>
    have hfs := sizeFields_le_length (isJson_obj.1 hv).2
      fun f hf ↦ ih f hf ((isJson_obj.1 hv).2 f hf)
    rw [size, stringify]
    simp only [length_cons, length_append, length_nil]
    omega
  | _ =>
    obtain ⟨c, cs, hhead, -⟩ := stringify_head hv
    rw [hhead]
    simp [size]

/-- **The round trip.** -/
theorem parse_stringify (hv : IsJson v) : parse (stringify v) = some v := by
  have hread := readsBack hv ((stringify v).length + 1) [] (Nat.le_succ_of_le (size_le_length hv))
    (by intro c hc; cases hc)
  rw [append_nil] at hread
  rw [parse, hread]
  rfl

/-- **Two JSON values with the same text are the same value.** -/
theorem stringify_injective {w : JsValue} (hv : IsJson v) (hw : IsJson w)
    (h : stringify v = stringify w) : v = w := by
  have hpv := parse_stringify hv
  rw [h, parse_stringify hw] at hpv
  exact (some.inj hpv).symm

theorem parseKeyword_eq_some {word s rest : JsString} {w : JsValue}
    (h : parseKeyword word v s = some (w, rest)) : w = v := by
  rw [parseKeyword] at h
  split at h
  · exact (congrArg Prod.fst (some.inj h)).symm
  · cases h

/-- The last of several equal keys wins, so the keys are distinct. -/
theorem isJson_ofList (h : ∀ f ∈ fs, IsJson f.2) : IsJson (.obj (ofList fs)) :=
  isJson_obj.2 ⟨nodup_ofList fs, fun f hf ↦ h f (mem_of_mem_ofList hf)⟩

/-- Every value that the reader returns, at any fuel, is a JSON value. -/
theorem isJson_of_parseValue (fuel : ℕ) :
    (∀ s v rest, parseValue fuel s = some (v, rest) → IsJson v) ∧
      (∀ s xs rest, parseElems fuel s = some (xs, rest) → ∀ x ∈ xs, IsJson x) ∧
        ∀ s fs rest, parseMembers fuel s = some (fs, rest) → ∀ f ∈ fs, IsJson f.2 := by
  induction fuel with
  | zero =>
    refine ⟨fun s v rest h ↦ ?_, fun s xs rest h ↦ ?_, fun s fs rest h ↦ ?_⟩
    · rw [parseValue] at h; cases h
    · rw [parseElems] at h; cases h
    · rw [parseMembers] at h; cases h
  | succ n ih =>
    obtain ⟨ihv, ihe, ihm⟩ := ih
    refine ⟨fun s v rest h ↦ ?_, fun s xs rest h ↦ ?_, fun s fs rest h ↦ ?_⟩
    · rw [parseValue] at h
      repeat' split at h
      all_goals grind [map_eq_some_iff, parseKeyword_eq_some, IsJson, isJson_arr,
        isJson_ofList, IsJsonElems, IsJsonFields, isFinite, Fields.keys]
    · rw [parseElems] at h
      repeat' split at h
      all_goals grind [map_eq_some_iff]
    · rw [parseMembers] at h
      repeat' split at h
      all_goals grind [map_eq_some_iff]

/-- **What `JSON.parse` returns is a JSON value.** -/
theorem isJson_of_parse {s : JsString} (h : parse s = some v) : IsJson v := by
  rw [parse] at h
  split at h
  · next v' rest hread =>
    split at h
    · exact (some.inj h) ▸ (isJson_of_parseValue _).1 s v' rest hread
    · cases h
  · cases h

namespace JsValue

theorem wellFormed_of_isJson (h : v.IsJson) : v.WellFormed := by
  induction v using JsValue.induct with
  | arr xs ih => exact wellFormed_arr.2 fun x hx ↦ ih x hx (isJson_arr.1 h x hx)
  | obj fs ih =>
    obtain ⟨hnd, hfs⟩ := isJson_obj.1 h
    exact wellFormed_obj.2 ⟨hnd, fun f hf ↦ ih f hf (hfs f hf)⟩
  | _ => trivial

theorem wellFormed_get (h : v.IsJson) (key : JsString) : (v.get key).WellFormed := by
  cases v with
  | obj fs =>
    by_cases hu : (JsValue.obj fs).get key = .undefined
    · rw [hu]
      trivial
    · exact wellFormed_of_isJson (IsJson.get h hu)
  | _ => trivial

end JsValue

/-! ### The JSON reading of a value -/

namespace JsValue

mutual

/-- The value that `JSON.stringify` writes for `v`. -/
def jsonOf : JsValue → JsValue
  | .undefined => .null
  | .null => .null
  | .bool b => .bool b
  | .num n => if n.isFinite then .num n else .null
  | .str s => .str s
  | .arr xs => .arr (jsonOfElems xs)
  | .obj fs => .obj (jsonOfFields fs)
  | .foreign _ => .null

/-- The readings of the elements. -/
def jsonOfElems : List JsValue → List JsValue
  | [] => []
  | x :: xs => jsonOf x :: jsonOfElems xs

/-- The readings of the fields that are written. -/
def jsonOfFields : Fields → Fields
  | [] => []
  | (k, x) :: fs => if x.isOmitted then jsonOfFields fs else (k, jsonOf x) :: jsonOfFields fs

end

theorem jsonOfElems_eq_map (xs : List JsValue) : jsonOfElems xs = xs.map jsonOf := by
  induction xs with
  | nil => rfl
  | cons x xs ih => rw [jsonOfElems, ih, map_cons]

/-- A field of the JSON reading is a field that is not left out. -/
theorem mem_jsonOfFields {f : JsString × JsValue} (h : f ∈ jsonOfFields fs) :
    ∃ x, (f.1, x) ∈ fs ∧ x.isOmitted = false ∧ f.2 = jsonOf x := by
  induction fs with
  | nil => cases h
  | cons g fs ih =>
    obtain ⟨k, x⟩ := g
    rw [jsonOfFields] at h
    split at h
    · obtain ⟨y, hy, hrest⟩ := ih h
      exact ⟨y, mem_cons_of_mem _ hy, hrest⟩
    next hx =>
    rcases mem_cons.1 h with rfl | h
    · exact ⟨x, mem_cons_self, by simpa using hx, rfl⟩
    · obtain ⟨y, hy, hrest⟩ := ih h
      exact ⟨y, mem_cons_of_mem _ hy, hrest⟩

theorem keys_jsonOfFields_sublist (fs : Fields) :
    (Fields.keys (jsonOfFields fs)).Sublist fs.keys := by
  induction fs with
  | nil => exact List.Sublist.slnil
  | cons f fs ih =>
    obtain ⟨k, x⟩ := f
    rw [jsonOfFields]
    split
    · exact ih.trans (sublist_cons_self _ _)
    · exact ih.cons_cons k

/-- The reading of a member: `undefined` and functions drop out. -/
theorem get_jsonOfFields (hnd : fs.keys.Nodup) (key : JsString) :
    (jsonOfFields fs).get key =
      if (fs.get key).isOmitted then .undefined else jsonOf (fs.get key) := by
  induction fs with
  | nil => rfl
  | cons f fs ih =>
    obtain ⟨k, x⟩ := f
    rw [Fields.keys, map_cons, nodup_cons] at hnd
    have ih' := ih hnd.2
    rw [jsonOfFields, get_cons]
    by_cases hk : k = key
    · subst hk
      rw [if_pos rfl]
      split
      · rw [ih', get_of_not_mem hnd.1]
        rfl
      · rw [get_cons, if_pos rfl]
    · rw [if_neg hk, ← ih']
      split
      · rfl
      · rw [get_cons, if_neg hk]

/-- **The JSON reading of a well-formed value is a JSON value.** -/
theorem isJson_jsonOf (hv : WellFormed v) : IsJson (jsonOf v) := by
  induction v using JsValue.induct with
  | arr xs ih =>
    rw [jsonOf, jsonOfElems_eq_map, isJson_arr]
    intro y hy
    obtain ⟨x, hx, rfl⟩ := mem_map.1 hy
    exact ih x hx (wellFormed_arr.1 hv x hx)
  | obj fs ih =>
    obtain ⟨hnd, hfs⟩ := wellFormed_obj.1 hv
    rw [jsonOf, isJson_obj]
    refine ⟨hnd.sublist (keys_jsonOfFields_sublist fs), fun f hf ↦ ?_⟩
    obtain ⟨x, hx, -, hread⟩ := mem_jsonOfFields hf
    rw [hread]
    exact ih (f.1, x) hx (hfs (f.1, x) hx)
  | num n =>
    rw [jsonOf]
    split
    · next h => exact h
    · exact trivial
  | _ => exact trivial

/-- A JSON value is its own JSON reading. -/
theorem jsonOf_eq_self (hv : IsJson v) : jsonOf v = v := by
  induction v using JsValue.induct with
  | arr xs ih =>
    rw [jsonOf, jsonOfElems_eq_map]
    congr 1
    exact (map_congr_left fun x hx ↦ ih x hx (isJson_arr.1 hv x hx)).trans (map_id _)
  | obj fs ih =>
    have hfs := (isJson_obj.1 hv).2
    rw [jsonOf]
    congr 1
    clear hv
    induction fs with
    | nil => rfl
    | cons f fs ihfs =>
      obtain ⟨k, x⟩ := f
      have hx : IsJson x := hfs (k, x) mem_cons_self
      have hread : jsonOf x = x := ih (k, x) mem_cons_self hx
      rw [jsonOfFields, hx.isOmitted, if_neg Bool.false_ne_true, hread,
        ihfs (fun f hf ↦ ih f (mem_cons_of_mem _ hf))
          fun f hf ↦ hfs f (mem_cons_of_mem _ hf)]
  | num n =>
    have hfin : n.isFinite = true := hv
    rw [jsonOf, if_pos hfin]
  | undefined => exact absurd hv id
  | foreign k => exact absurd hv id
  | _ => rfl

end JsValue

theorem stringifyElems_jsonOf (h : ∀ x ∈ xs, stringify (jsonOf x) = stringify x) :
    stringifyElems (jsonOfElems xs) = stringifyElems xs := by
  induction xs with
  | nil => rfl
  | cons x xs ih =>
    rw [jsonOfElems, stringifyElems, stringifyElems, h x mem_cons_self,
      ih fun y hy ↦ h y (mem_cons_of_mem _ hy)]

theorem stringifyFields_jsonOf (h : ∀ f ∈ fs, stringify (jsonOf f.2) = stringify f.2) :
    stringifyFields (jsonOfFields fs) = stringifyFields fs := by
  induction fs with
  | nil => rfl
  | cons f fs ih =>
    obtain ⟨k, x⟩ := f
    have ih' := ih fun f hf ↦ h f (mem_cons_of_mem _ hf)
    have hx : stringify (jsonOf x) = stringify x := h (k, x) mem_cons_self
    have hread : (jsonOf x).isOmitted = false := by
      cases x with
      | num n => rw [jsonOf]; split <;> rfl
      | _ => rfl
    rw [jsonOfFields, stringifyFields]
    split
    · exact ih'
    · rw [stringifyFields, hread, if_neg Bool.false_ne_true, hx, ih']

/-- **A value has the text of its JSON reading.** -/
theorem stringify_jsonOf (v : JsValue) : stringify (jsonOf v) = stringify v := by
  induction v using JsValue.induct with
  | arr xs ih => rw [jsonOf, stringify, stringify, stringifyElems_jsonOf ih]
  | obj fs ih => rw [jsonOf, stringify, stringify, stringifyFields_jsonOf ih]
  | num n =>
    rw [jsonOf]
    split
    · rfl
    · next h => rw [stringify, stringify, if_neg h]
  | _ => rfl

/-- What a round trip through JSON does to a value. -/
theorem parse_stringify_jsonOf (hv : WellFormed v) : parse (stringify v) = some (jsonOf v) := by
  rw [← stringify_jsonOf, parse_stringify (isJson_jsonOf hv)]

end Js

import Utix.Js.Uri
import Utix.Lib.Paging

/-!
# Cursor pagination

`core/pagination/cursor.ts`: a cursor is the key of the last row that was served, with the offset it
had. The next page starts after that row, or, when it is gone, after where it would be in the order
of the keys; the offset is only used when no order was given.

The text of a cursor is a marker, the offset and the encoded key. `encodeURIComponent` throws on a
lone surrogate, and a number from `10 ^ 21` on is written with an exponent, which the pattern of
`decodeCursor` does not match; `exists_encodeCursor` says that nothing else is lost.

Rows are values of any type with a notion of what counts as false (`Truthy`): the cursor of a page
is only written if its last row counts as true. `exists_pageAt` is the specification of a page that
the traversals of the next module rest on.
-/

namespace Utix.Pagination

open Js List Decimal Option

/-! ### Cursors -/

structure DecodedCursor where
  key : JsString
  offset : ℕ
deriving DecidableEq

/-- `encodeCursor(key, offset)`; `none` is the `URIError` of a key with a lone surrogate. -/
def encodeCursor (key : JsString) (offset : ℕ) : Option JsString :=
  (encodeURIComponent key).map fun encoded ↦
    js "utix1:" ++ (JsNum.ofInt offset).text ++ 58 :: encoded

/-- What `.` does not match. -/
def isLineTerminator (c : UInt16) : Bool := c ∈ [10, 13, 0x2028, 0x2029]

/-- The groups of `/^utix1:(\d+):(.+)$/`. -/
def cursorGroups (cursor : JsString) : Option (JsString × JsString) :=
  if startsWith cursor (js "utix1:") then
    let rest := cursor.drop 6
    match rest.dropWhile isDigit with
    | c :: key =>
      if c = 58 && rest.takeWhile isDigit ≠ [] && key ≠ [] && key.all fun d ↦ !isLineTerminator d
      then some (rest.takeWhile isDigit, key)
      else none
    | [] => none
  else none

def decodeCursor (cursor : Option JsString) : Option DecodedCursor :=
  (cursor.bind cursorGroups).bind fun groups ↦
    match decodeURIComponent groups.2 with
    | some key => if key = [] then none else some ⟨key, Decimal.digitsValue groups.1⟩
    | none => none

/-! ### Pages -/

/-- Values of any kind can be rows, and each of them counts as true or as false: `Boolean(row)`. -/
class Truthy (T : Type*) where
  truthy : T → Bool

instance instTruthyJsString : Truthy JsString where
  truthy s := s ≠ []

structure CursorPage (T : Type*) where
  items : List T
  nextCursor : Option JsString
  hasMore : Bool

structure CursorOptions (T : Type*) where
  pageSize : JsNum
  getKey : T → JsString
  cursor : Option JsString := none
  startIndex : Option JsNum := none
  compareKeys : Option (JsString → JsString → JsNum) := none
  isVisible : Option (T → Bool) := none

/-- `boundedStart(items, start)`, for a list of this length. -/
def boundedStart (length : ℕ) : JsNum → ℕ
  | .finite d => min length d.trunc.toNat
  | _ => 0

/-- `Math.max(1, Math.floor(pageSize))`, as the number of rows that a slice of a list of this length
has at most. -/
def pageLength (pageSize : JsNum) (length : ℕ) : ℕ :=
  match pageSize with
  | .nan => 0
  | .infinite true => 1
  | .infinite false => max 1 length
  | .finite d => max 1 d.trunc.toNat

section

variable {T : Type*} (options : CursorOptions T)

/-- The rows that the caller can see. -/
def visibleItems (allItems : List T) : List T :=
  match options.isVisible with
  | some isVisible => allItems.filter isVisible
  | none => allItems

/-- Where the page starts. -/
def startOf (items : List T) : ℕ :=
  match decodeCursor options.cursor with
  | some decoded =>
    match items.findIdx? fun item ↦ options.getKey item = decoded.key with
    | some anchor => anchor + 1
    | none =>
      match options.compareKeys with
      | some compareKeys =>
        (items.findIdx? fun item ↦
          (JsNum.ofInt 0).less (compareKeys (options.getKey item) decoded.key)).getD items.length
      | none => boundedStart items.length (JsNum.ofInt decoded.offset)
  | none => boundedStart items.length (options.startIndex.getD (JsNum.ofInt 0))

/-- The rows of the page that starts there. -/
def sliceAt (items : List T) (start : ℕ) : List T :=
  (items.drop start).take (pageLength options.pageSize items.length)

variable [Truthy T]

/-- The page that starts there; `none` is the `URIError` of a cursor that cannot be written. Its
cursor is `hasMore && last ? encodeCursor(…) : null`, so a last row that counts as false, such as
`0`, ends the traversal. -/
def pageAt (items : List T) (start : ℕ) : Option (CursorPage T) :=
  let visible := sliceAt options items start
  let hasMore := decide (start + visible.length < items.length)
  match visible.getLast? with
  | some last =>
    if hasMore && Truthy.truthy last then
      (encodeCursor (options.getKey last) (start + visible.length - 1)).map fun cursor ↦
        ⟨visible, some cursor, hasMore⟩
    else some ⟨visible, none, hasMore⟩
  | none => some ⟨visible, none, hasMore⟩

def paginateByCursor (allItems : List T) : Option (CursorPage T) :=
  let items := visibleItems options allItems
  pageAt options items (startOf options items)

end

/-! ### Reading a cursor back -/

/-- **The text of a natural number has its digits**, unless it needs an exponent. -/
theorem text_ofNat {n : ℕ} (hn : n < 10 ^ 21) :
    (∀ c ∈ (JsNum.ofInt n).text, isDigit c = true) ∧ (JsNum.ofInt n).text ≠ [] ∧
      digitsValue (JsNum.ofInt n).text = n := by
  have htext : (JsNum.ofInt n).text = (ofInt n).text := rfl
  have hvalue := value_ofInt n
  obtain ⟨e, he⟩ := Int.eq_ofNat_of_zero_le (of_decide_eq_true (isInteger_ofInt (n : ℤ)))
  generalize ofInt n = d at *
  rw [htext]
  have hmantissa : d.mantissa * 10 ^ e = n := by
    rw [value, he, zpow_natCast] at hvalue
    exact_mod_cast hvalue
  rw [text]
  split
  next hzero =>
    rw [hzero, zero_mul] at hmantissa
    obtain rfl : n = 0 := by omega
    exact ⟨by simp [isDigit], by simp, rfl⟩
  next hzero =>
    have hpow : (0 : ℤ) < 10 ^ e := by positivity
    have hpos : 0 < d.mantissa := by
      rcases lt_trichotomy d.mantissa 0 with hneg | h0 | hpos
      · have := mul_neg_of_neg_of_pos hneg hpow
        omega
      · exact absurd h0 hzero
      · exact hpos
    obtain ⟨m, hm⟩ := Int.eq_ofNat_of_zero_le hpos.le
    have hnat : m * 10 ^ e = n := by
      rw [hm] at hmantissa
      exact_mod_cast hmantissa
    have hm0 : m ≠ 0 := by
      rintro rfl
      rw [hm] at hpos
      exact absurd hpos (lt_irrefl _)
    have hdigits : (digitText m).length + e ≤ 21 := by
      have hlen : (digitText m).length = Nat.log 10 m + 1 := by
        rw [digitText, length_map, length_reverse, Nat.length_digits 10 m (by norm_num) hm0]
      have hle : 10 ^ (Nat.log 10 m + e) ≤ n := by
        rw [pow_add, ← hnat]
        exact Nat.mul_le_mul_right _ (Nat.pow_log_le_self 10 hm0)
      have := (Nat.pow_lt_pow_iff_right (by norm_num : 1 < 10)).1 (hle.trans_lt hn)
      omega
    have hmagnitude : magnitudeText (digitText d.mantissa.natAbs) d.exponent =
        digitText m ++ replicate e 48 := by
      rw [hm, Int.natAbs_natCast, he, magnitudeText]
      rw [if_pos (by omega)]
      simp
    rw [if_neg (by omega), nil_append, hmagnitude]
    refine ⟨?_, ?_, ?_⟩
    · intro c hc
      rcases mem_append.1 hc with hc | hc
      · exact isDigit_of_mem_digitText hc
      · rw [eq_of_mem_replicate hc]
        decide
    · exact fun hnil ↦ digitText_ne_nil hm0 (append_eq_nil_iff.1 hnil).1
    · rw [digitsValue_append, digitsValue_digitText,
        digitsValue_replicate_zero, length_replicate, add_zero, hnat]

/-- **A cursor is read back**, for every key that can be encoded. -/
theorem exists_encodeCursor {key : JsString} (hkey : IsWellFormed key) (hne : key ≠ [])
    {offset : ℕ} (hoffset : offset < 10 ^ 21) :
    ∃ cursor, encodeCursor key offset = some cursor ∧
      decodeCursor (some cursor) = some ⟨key, offset⟩ := by
  obtain ⟨e, he, hunits, hdecode⟩ := exists_encodeURIComponent hkey
  obtain ⟨hdigits, htext, hvalue⟩ := text_ofNat hoffset
  have hmarker : startsWith (js "utix1:" ++ (JsNum.ofInt offset).text ++ 58 :: e)
      (js "utix1:") = true := by
    rw [startsWith, isPrefixOf_iff_prefix, append_assoc]
    exact prefix_append _ _
  have hrest : (js "utix1:" ++ (JsNum.ofInt offset).text ++ 58 :: e).drop 6 =
      (JsNum.ofInt offset).text ++ 58 :: e := by
    rw [append_assoc]
    exact drop_left' rfl
  have hne' : e ≠ [] := by
    rintro rfl
    have hempty := hdecode 0 le_rfl
    exact hne (some.inj hempty).symm
  have hkept : (e.all fun d ↦ !isLineTerminator d) = true := by
    refine all_eq_true.2 fun d hd ↦ ?_
    have hprintable := hunits d hd
    refine (Bool.not_eq_true' _).mpr (Bool.eq_false_iff.2 fun hline ↦ ?_)
    simp only [isLineTerminator, mem_cons, not_mem_nil, or_false, decide_eq_true_eq] at hline
    rcases hline with rfl | rfl | rfl | rfl <;> exact absurd hprintable (by decide)
  refine ⟨_, by rw [encodeCursor, he]; rfl, ?_⟩
  have hcolon : ∀ c ∈ (58 :: e).head?, isDigit c = false := by
    rintro c ⟨⟩
    decide
  obtain ⟨htake, hdrop⟩ := takeWhile_digits hdigits hcolon
  have hgroups : cursorGroups (js "utix1:" ++ (JsNum.ofInt offset).text ++ 58 :: e) =
      some ((JsNum.ofInt offset).text, e) := by
    rw [cursorGroups, if_pos hmarker, hrest]
    simp only [htake, hdrop]
    rw [if_pos]
    simp [htext, hne', hkept]
  have hkeyText : decodeURIComponent e = some key := hdecode _ le_rfl
  rw [decodeCursor, bind_some, hgroups, bind_some]
  simp only [hkeyText, hne, if_false, hvalue]

/-- What is known of a list whose rows can be put into a cursor. -/
structure Writable {T : Type*} [Truthy T] (getKey : T → JsString) (rows : List T) : Prop where
  truthy : ∀ row ∈ rows, Truthy.truthy row = true
  nonempty : ∀ row ∈ rows, getKey row ≠ []
  wellFormed : ∀ row ∈ rows, IsWellFormed (getKey row)
  length : rows.length < 2 ^ 32

variable {T : Type*} [Truthy T] {rows : List T}

/-- **A page and its cursor**: the cursor is there if rows are left, and it holds the key and the
position of the last row. -/
theorem exists_pageAt (options : CursorOptions T) (hrows : Writable options.getKey rows)
    (start : ℕ) :
    ∃ page, pageAt options rows start = some page ∧ page.items = sliceAt options rows start ∧
      page.nextCursor.map (fun cursor ↦ decodeCursor (some cursor)) =
        if (rows.drop start).length ≤ pageLength options.pageSize rows.length then none
        else (sliceAt options rows start).getLast?.map fun last ↦
          some ⟨options.getKey last, start + (sliceAt options rows start).length - 1⟩ := by
  have hlength : (rows.drop start).length = rows.length - start := length_drop
  have hslice : (sliceAt options rows start).length =
      min (pageLength options.pageSize rows.length) (rows.length - start) := by
    rw [sliceAt, length_take, hlength]
  simp only [pageAt]
  cases hlast : (sliceAt options rows start).getLast? with
  | none => exact ⟨_, rfl, rfl, by simp⟩
  | some last =>
    have hmem : last ∈ rows :=
      mem_of_mem_drop (mem_of_mem_take (mem_of_getLast? hlast))
    by_cases hmore : start + (sliceAt options rows start).length < rows.length
    · have hoffset : start + (sliceAt options rows start).length - 1 < 10 ^ 21 := by
        have := hrows.length
        omega
      obtain ⟨cursor, hencode, hdecode⟩ :=
        exists_encodeCursor (hrows.wellFormed last hmem) (hrows.nonempty last hmem) hoffset
      simp only [hmore, hrows.truthy last hmem, decide_true, Bool.and_true, if_true, hencode,
        map_some]
      refine ⟨_, rfl, rfl, ?_⟩
      rw [if_neg (by omega)]
      simp [hdecode]
    · simp only [hmore, decide_false, Bool.false_and]
      refine ⟨_, rfl, rfl, ?_⟩
      rw [if_pos (by omega)]
      rfl

/-- A page has room for a row, unless its size is no number. -/
theorem pageLength_pos {pageSize : JsNum} (h : pageSize ≠ .nan) (length : ℕ) :
    0 < pageLength pageSize length := by
  rw [pageLength.eq_def]
  split
  · exact absurd rfl h
  · exact Nat.one_pos
  · exact lt_max_of_lt_left Nat.one_pos
  · exact lt_max_of_lt_left Nat.one_pos

variable {options : CursorOptions T}

/-- The rows of a page are a slice of the list. -/
theorem items_of_pageAt {start : ℕ} {page : CursorPage T}
    (h : pageAt options rows start = some page) : page.items = sliceAt options rows start := by
  rw [pageAt] at h
  split at h
  · split at h
    · obtain ⟨cursor, -, rfl⟩ := map_eq_some_iff.1 h
      rfl
    · cases h
      rfl
  · cases h
    rfl

end Utix.Pagination

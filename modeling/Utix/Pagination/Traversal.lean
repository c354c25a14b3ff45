import Utix.Pagination.Cursor

/-!
# Following a cursor through a changing list

A caller asks for a page and follows `nextCursor` until it is null. Between two requests rows are
inserted, deleted, or hidden from the caller. With `compareKeys` every request is one step of the
walk of `Lib.Paging` (`linked_traverse`), which gives what `stable_traversal` says: the rows come in
strictly ascending order, every row that stays is returned, and nothing that is hidden is.

`Browsing.Sound` is what is asked of the caller and of the lists. The page size is a number, the
lists are in strictly ascending order of their keys, the keys are not empty and can be encoded, and
the rows are values that count as true. None of this is idle, see `cursor_lost_and_row_skipped`:
with a page size of `NaN` every page is empty, and a page that ends with a row such as the empty
string has no cursor, so that the rest of the list is never asked for.

A cursor is read back as it was written if its offset is below `10 ^ 21`. The last part of
`stable_traversal` says so on its own, since a traversal by keys does not depend on offsets.
-/

namespace Utix.Pagination

open Js Lib List Option JsNum

/-! ### Traversals -/

/-- A traversal under way. -/
structure Traversal (T : Type*) where
  pages : List (CursorPage T) := []
  /-- The cursor of the next request; `none` after a page whose `nextCursor` is null. -/
  next : Option (Option JsString) := some none

variable {T : Type*}

/-- The traversal after `n` requests; `none` if one of them got no page. -/
def traverse (request : ℕ → Option JsString → Option (CursorPage T)) : ℕ → Option (Traversal T)
  | 0 => some {}
  | n + 1 =>
    (traverse request n).bind fun t ↦
      match t.next with
      | none => some t
      | some cursor => (request n cursor).map fun page ↦
          { pages := t.pages ++ [page], next := page.nextCursor.map some }

variable {request : ℕ → Option JsString → Option (CursorPage T)} {n : ℕ} {t : Traversal T}

/-- The rows that were returned. -/
def Traversal.rows (t : Traversal T) : List T := t.pages.flatMap CursorPage.items

/-- The pages that a traversal has made are those of its requests. -/
structure Served (request : ℕ → Option JsString → Option (CursorPage T)) (n : ℕ)
    (t : Traversal T) : Prop where
  again : traverse request t.pages.length = some t
  running : t.next ≠ none → t.pages.length = n
  made : ∀ i page, t.pages[i]? = some page → ∃ cursor, request i cursor = some page

/-- A traversal is made of the pages of its requests. -/
theorem served_traverse (h : traverse request n = some t) : Served request n t := by
  induction n generalizing t with
  | zero =>
    cases h
    exact ⟨rfl, fun _ ↦ rfl, nofun⟩
  | succ n ih =>
    have hwhole := h
    rw [traverse] at h
    obtain ⟨t', ht', h⟩ := bind_eq_some_iff.1 h
    have hserved := ih ht'
    split at h
    next hdone =>
      cases h
      exact ⟨hserved.again, fun hne ↦ absurd hdone hne, hserved.made⟩
    next cursor hcursor =>
      obtain ⟨page, hpage, rfl⟩ := map_eq_some_iff.1 h
      have hlength := hserved.running (by rw [hcursor]; exact nofun)
      have hlength' : (t'.pages ++ [page]).length = n + 1 := by simp [hlength]
      refine ⟨by rw [hlength']; exact hwhole, fun _ ↦ hlength', ?_⟩
      intro i page' hi
      rcases Nat.lt_or_ge i t'.pages.length with hlt | hge
      · rw [getElem?_append_left hlt] at hi
        exact hserved.made i page' hi
      rw [getElem?_append_right hge] at hi
      obtain ⟨hzero, rfl⟩ : i - t'.pages.length = 0 ∧ page = page' := by
        simpa [getElem?_singleton] using hi
      obtain rfl : i = n := by omega
      exact ⟨cursor, hpage⟩

variable {row : T}

/-- A row was returned by one of the requests. -/
theorem exists_request_of_mem_rows (h : traverse request n = some t) (hrow : row ∈ t.rows) :
    ∃ i < t.pages.length, ∃ cursor page, request i cursor = some page ∧ row ∈ page.items := by
  obtain ⟨page, hpage, hrow⟩ := mem_flatMap.1 hrow
  obtain ⟨i, hi, rfl⟩ := getElem_of_mem hpage
  obtain ⟨cursor, hmade⟩ := (served_traverse h).made i _ (getElem?_eq_getElem hi)
  exact ⟨i, hi, cursor, _, hmade, hrow⟩

/-! ### Lists that are ordered by `compareKeys` -/

/-- What a caller and the lists do: the list and the caller's permissions at each request. -/
structure Browsing (T : Type*) where
  pageSize : JsNum
  getKey : T → JsString
  compareKeys : JsString → JsString → JsNum
  snapshot : ℕ → List T
  isVisible : ℕ → Option (T → Bool)

variable [Truthy T]

section

variable (b : Browsing T)

/-- The options of a request. -/
def Browsing.options (n : ℕ) (cursor : Option JsString) : CursorOptions T where
  pageSize := b.pageSize
  getKey := b.getKey
  cursor := cursor
  compareKeys := some b.compareKeys
  isVisible := b.isVisible n

/-- The traversal after `n` requests; `none` if one of them threw. -/
def Browsing.traverse : ℕ → Option (Traversal T) :=
  Pagination.traverse fun n cursor ↦ paginateByCursor (b.options n cursor) (b.snapshot n)

/-- The rows that the caller can see at a request. -/
def Browsing.seen (n : ℕ) : List T :=
  visibleItems (b.options n none) (b.snapshot n)

/-- The keys that are ever there. -/
def Browsing.keys : Set JsString :=
  {key | ∃ n, ∃ row ∈ b.snapshot n, b.getKey row = key}

end

/-- The order that `compareKeys` describes. -/
def Precedes (compareKeys : JsString → JsString → JsNum) (a b : JsString) : Prop :=
  (compareKeys a b).less (JsNum.ofInt 0) = true

instance decidablePrecedes (compareKeys : JsString → JsString → JsNum) :
    DecidableRel (Precedes compareKeys) :=
  fun _ _ ↦ inferInstanceAs (Decidable (_ = true))

/-- `compareKeys` orders these keys. -/
structure OrdersKeys (compareKeys : JsString → JsString → JsNum) (keys : Set JsString) : Prop where
  irrefl : ∀ a ∈ keys, ¬Precedes compareKeys a a
  trans : ∀ a ∈ keys, ∀ b ∈ keys, ∀ c ∈ keys,
    Precedes compareKeys a b → Precedes compareKeys b c → Precedes compareKeys a c
  positive_iff : ∀ a ∈ keys, ∀ b ∈ keys,
    (JsNum.ofInt 0).less (compareKeys a b) = true ↔ Precedes compareKeys b a

/-- An array of rows in strictly ascending order of their keys, which can be put into a cursor. -/
structure IsSorted (compareKeys : JsString → JsString → JsNum) (getKey : T → JsString)
    (rows : List T) : Prop extends Writable getKey rows where
  pairwise : rows.Pairwise fun a b ↦ Precedes compareKeys (getKey a) (getKey b)

/-! ### A request is a step of the walk -/

variable {rows : List T} {compareKeys : JsString → JsString → JsNum} {keys : Set JsString}
  {getKey : T → JsString}

section

/-- The order of the keys that are ever there. -/
def Before (compareKeys : JsString → JsString → JsNum) (keys : Set JsString) (a b : JsString) :
    Prop :=
  a ∈ keys ∧ b ∈ keys ∧ Precedes compareKeys a b

noncomputable instance decidableBefore (compareKeys : JsString → JsString → JsNum)
    (keys : Set JsString) :
    DecidableRel (Before compareKeys keys) :=
  fun _ _ ↦ Classical.dec _

namespace OrdersKeys

variable (h : OrdersKeys compareKeys keys)
include h

theorem isTrans : IsTrans JsString (Before compareKeys keys) :=
  ⟨fun a b c hab hbc ↦
    ⟨hab.1, hbc.2.1, h.trans a hab.1 b hab.2.1 c hbc.2.1 hab.2.2 hbc.2.2⟩⟩

theorem isIrrefl : Std.Irrefl (Before compareKeys keys) :=
  ⟨fun a ha ↦ h.irrefl a ha.1 ha.2.2⟩

end OrdersKeys

omit [Truthy T] in
/-- **A page starts with the first row after its anchor.** -/
theorem drop_startOf (horder : OrdersKeys compareKeys keys) (options : CursorOptions T)
    (hkey : options.getKey = getKey) (hcompare : options.compareKeys = some compareKeys)
    (hstart : options.startIndex = none)
    (hrows : rows.Pairwise fun a b ↦ Before compareKeys keys (getKey a) (getKey b))
    (hkeys : ∀ row ∈ rows, getKey row ∈ keys)
    (hanchor : ∀ key ∈ (decodeCursor options.cursor).map DecodedCursor.key, key ∈ keys) :
    rows.drop (startOf options rows) = Paging.after (Before compareKeys keys) getKey
      ((decodeCursor options.cursor).map DecodedCursor.key) rows := by
  subst hkey
  have htrans := horder.isTrans
  have hirrefl := horder.isIrrefl
  rw [startOf]
  cases hdecoded : decodeCursor options.cursor with
  | none =>
    have hzero : boundedStart rows.length (options.startIndex.getD (ofInt 0)) = 0 := by
      rw [hstart]
      exact Nat.min_zero _
    simp only [hzero, drop_zero, map_none, Paging.after_none]
  | some decoded =>
    have hanchor : decoded.key ∈ keys := hanchor _ (by rw [hdecoded]; rfl)
    have hpositive : ∀ row ∈ rows,
        (ofInt 0).less (compareKeys (options.getKey row) decoded.key) = true ↔
          Before compareKeys keys decoded.key (options.getKey row) :=
      fun row hrow ↦ (horder.positive_iff _ (hkeys row hrow) _ hanchor).trans
        ⟨fun hlt ↦ ⟨hanchor, hkeys row hrow, hlt⟩, fun hlt ↦ hlt.2.2⟩
    simp only [hcompare, map_some]
    symm
    split
    next i hi =>
      -- the anchor is still there
      obtain ⟨hlt, hfound, -⟩ := findIdx?_eq_some_iff_getElem.1 hi
      rw [← of_decide_eq_true hfound]
      exact Paging.after_getElem hrows hlt
    next =>
      cases hresume : rows.findIdx? fun item ↦
          (ofInt 0).less (compareKeys (options.getKey item) decoded.key) with
      | none =>
        -- the anchor was after every row
        have hnone := findIdx?_eq_none_iff.1 hresume
        refine Paging.after_eq_drop (fun row hrow hlt ↦ ?_) fun row hrow ↦ ?_
        · have hrow := mem_of_mem_take hrow
          have htrue := (hpositive row hrow).2 hlt
          rw [hnone row hrow] at htrue
          cases htrue
        · simp at hrow
      | some i =>
        obtain ⟨hlt, hfound, hfirst⟩ := findIdx?_eq_some_iff_getElem.1 hresume
        refine Paging.after_first hrows hlt ((hpositive _ (getElem_mem hlt)).1 hfound) ?_
        exact fun j hj hbefore ↦ hfirst j hj ((hpositive _ (getElem_mem _)).2 hbefore)

/-- A sorted list is in the order of its keys. -/
theorem IsSorted.pairwise_before (h : IsSorted compareKeys getKey rows)
    (hkeys : ∀ row ∈ rows, getKey row ∈ keys) :
    rows.Pairwise fun a b ↦ Before compareKeys keys (getKey a) (getKey b) :=
  h.pairwise.imp_of_mem fun ha hb hlt ↦ ⟨hkeys _ ha, hkeys _ hb, hlt⟩

/-- **A request returns the page of the walk**, and its cursor is the next anchor. -/
theorem exists_page (horder : OrdersKeys compareKeys keys) (options : CursorOptions T)
    (hkey : options.getKey = getKey) (hcompare : options.compareKeys = some compareKeys)
    (hstart : options.startIndex = none) (hrows : IsSorted compareKeys getKey rows)
    (hkeys : ∀ row ∈ rows, getKey row ∈ keys) {anchor : Option JsString}
    (hcursor : (decodeCursor options.cursor).map DecodedCursor.key = anchor)
    (hanchor : ∀ key ∈ anchor, key ∈ keys) :
    ∃ page, pageAt options rows (startOf options rows) = some page ∧
      page.items = (Paging.page (Before compareKeys keys) getKey
        (pageLength options.pageSize rows.length) anchor rows).1 ∧
      page.nextCursor.map (fun cursor ↦ (decodeCursor (some cursor)).map DecodedCursor.key) =
        (Paging.page (Before compareKeys keys) getKey (pageLength options.pageSize rows.length)
          anchor rows).2 := by
  subst hcursor
  have hdrop := drop_startOf horder options hkey hcompare hstart (hrows.pairwise_before hkeys) hkeys
    hanchor
  obtain ⟨page, hpage, hitems, hnext⟩ :=
    exists_pageAt options (hkey ▸ hrows.toWritable) (startOf options rows)
  refine ⟨page, hpage, ?_, ?_⟩
  · rw [hitems, Paging.page, ← hdrop, sliceAt]
  have hmap := congrArg (Option.map (Option.map DecodedCursor.key)) hnext
  rw [Option.map_map] at hmap
  refine hmap.trans ?_
  rw [Paging.page, ← hdrop, ← sliceAt, hkey]
  split
  · rfl
  · rw [Option.map_map]
    rfl

end

/-! ### A traversal is a walk -/

/-- What the lists of a traversal are. -/
structure Browsing.Sound (b : Browsing T) : Prop where
  pageSize : b.pageSize ≠ .nan
  order : OrdersKeys b.compareKeys b.keys
  sorted : ∀ n, IsSorted b.compareKeys b.getKey (b.snapshot n)

omit [Truthy T] in
/-- What the caller sees is a part of the list, in its order. -/
theorem seen_sublist (b : Browsing T) (n : ℕ) : (b.seen n).Sublist (b.snapshot n) := by
  rw [Browsing.seen, visibleItems]
  split
  · exact filter_sublist
  · exact List.Sublist.refl _

variable {b : Browsing T}

omit [Truthy T] in
theorem getKey_mem_keys (hrow : row ∈ b.seen n) : b.getKey row ∈ b.keys :=
  ⟨n, row, (seen_sublist b n).subset hrow, rfl⟩

theorem IsSorted.sublist {rows' : List T} (h : IsSorted compareKeys getKey rows)
    (hsub : rows'.Sublist rows) : IsSorted compareKeys getKey rows' :=
  ⟨⟨fun row hrow ↦ h.truthy row (hsub.subset hrow),
    fun row hrow ↦ h.nonempty row (hsub.subset hrow),
    fun row hrow ↦ h.wellFormed row (hsub.subset hrow), hsub.length_le.trans_lt h.length⟩,
    h.pairwise.sublist hsub⟩

def Browsing.sizes (b : Browsing T) (n : ℕ) : ℕ := pageLength b.pageSize (b.seen n).length

/-- The walk that a traversal is. -/
noncomputable def Browsing.walk (b : Browsing T) (n : ℕ) : Paging.Walk T JsString :=
  Paging.walk (Before b.compareKeys b.keys) b.getKey b.sizes b.seen n

/-- A traversal and the walk it is. -/
structure Linked (b : Browsing T) (t : Traversal T) (w : Paging.Walk T JsString) : Prop where
  rows : t.rows = w.returned
  next : t.next.map (fun cursor ↦ (decodeCursor cursor).map DecodedCursor.key) = w.next
  anchor : ∀ anchor ∈ w.next, ∀ key ∈ anchor, key ∈ b.keys

/-- **No request throws, and every request is a step of the walk.** -/
theorem linked_traverse (hb : b.Sound) (n : ℕ) :
    ∃ t, b.traverse n = some t ∧ Linked b t (b.walk n) := by
  induction n with
  | zero => exact ⟨{}, rfl, rfl, rfl, by rintro anchor ⟨⟩; exact nofun⟩
  | succ n ih =>
    obtain ⟨t, ht, hlinked⟩ := ih
    have hnext := hlinked.next
    rw [Browsing.traverse] at ht
    rw [Browsing.traverse, traverse, ht, bind_some, Browsing.walk, Paging.walk, Paging.Walk.step]
    rw [Browsing.walk] at hnext hlinked
    cases hcursor : t.next with
    | none =>
      rw [hcursor] at hnext
      rw [← hnext]
      exact ⟨t, rfl, hlinked⟩
    | some cursor =>
      rw [hcursor] at hnext
      obtain ⟨page, hpage, hitems, hanchor⟩ := exists_page hb.order (b.options n cursor) rfl rfl
        rfl ((hb.sorted n).sublist (seen_sublist b n)) (fun _ ↦ getKey_mem_keys) rfl
        (hlinked.anchor _ hnext.symm)
      have hpaginate : paginateByCursor (b.options n cursor) (b.snapshot n) = some page := hpage
      rw [← hnext]
      simp only [hpaginate, map_some]
      refine ⟨_, rfl, ?_, ?_, ?_⟩
      · simp only [Traversal.rows, flatMap_append, flatMap_cons, flatMap_nil, append_nil, hitems]
        rw [← hlinked.rows]
        rfl
      · simp only [Option.map_map]
        exact hanchor
      · intro anchor hnext key hkey
        obtain ⟨init, last, hlast, rfl, -⟩ := Paging.page_next hnext
        cases hkey
        have hmem : last ∈ init ++ [last] := by simp
        rw [← hlast] at hmem
        exact getKey_mem_keys (Paging.mem_of_mem_page hmem)

/-! ### What a traversal returns -/

/-- What the caller may see of a snapshot is in order. -/
theorem pairwise_seen (hb : b.Sound) (n : ℕ) :
    (b.seen n).Pairwise fun x y ↦ Before b.compareKeys b.keys (b.getKey x) (b.getKey y) :=
  ((hb.sorted n).sublist (seen_sublist b n)).pairwise_before fun _ ↦ getKey_mem_keys

omit [Truthy T] in
/-- Rows in strictly ascending order have different keys. -/
theorem nodup_of_pairwise_before (horder : OrdersKeys compareKeys keys)
    (hrows : rows.Pairwise fun x y ↦ Before compareKeys keys (getKey x) (getKey y)) :
    (rows.map getKey).Nodup := by
  refine pairwise_map.2 (hrows.imp fun hlt heq ↦ ?_)
  rw [heq] at hlt
  exact horder.isIrrefl.irrefl _ hlt

omit [Truthy T] in
/-- The caller sees the rows of the list that the permissions allow. -/
theorem mem_seen_iff :
    row ∈ b.seen n ↔ row ∈ b.snapshot n ∧ ∀ isVisible ∈ b.isVisible n, isVisible row = true := by
  have hoptions : (b.options n none).isVisible = b.isVisible n := rfl
  rw [Browsing.seen, visibleItems, hoptions]
  cases b.isVisible n with
  | none => simp
  | some isVisible => simp

/-- A returned row was visible when it was returned. -/
theorem mem_seen_of_paginateByCursor {cursor : Option JsString} {page : CursorPage T}
    (h : paginateByCursor (b.options n cursor) (b.snapshot n) = some page)
    (hrow : row ∈ page.items) : row ∈ b.seen n := by
  rw [items_of_pageAt h] at hrow
  exact mem_of_mem_drop (mem_of_mem_take hrow)

/-- A key that stays is returned by the time the traversal is over. -/
theorem mem_rows_of_key (hb : b.Sound) (h : b.traverse n = some t) (hdone : t.next = none)
    {key : JsString} (hkey : ∀ i < t.pages.length, ∃ row ∈ b.seen i, b.getKey row = key) :
    ∃ row ∈ t.rows, b.getKey row = key := by
  -- the walk is over after as many requests as there are pages
  obtain ⟨t', ht', hlinked⟩ := linked_traverse hb t.pages.length
  obtain rfl := some.inj ((served_traverse h).again.symm.trans ht')
  have hnext := hlinked.next
  rw [hdone] at hnext
  rw [hlinked.rows]
  exact Paging.mem_returned_walk (fun _ ↦ pageLength_pos hb.pageSize _) (pairwise_seen hb)
    hnext.symm hkey

/-- **Following the cursor through changing lists**: no request throws; the rows are in strictly
ascending order, so none is repeated; every page has only rows that are there and visible at its
request; what is there and visible at every request of a complete traversal is returned, a row by
its value and, if it is modified, by its key; with finitely many keys the traversal ends; and a
cursor is read back as it was written. -/
theorem stable_traversal (b : Browsing T) (hb : b.Sound) :
    (∀ n, ∃ t, b.traverse n = some t ∧
      t.rows.Pairwise (fun x y ↦ Precedes b.compareKeys (b.getKey x) (b.getKey y)) ∧
      (t.rows.map b.getKey).Nodup ∧
      (∀ i page, t.pages[i]? = some page → ∀ row ∈ page.items,
        row ∈ b.snapshot i ∧ ∀ isVisible ∈ b.isVisible i, isVisible row = true) ∧
      (t.next = none →
        (∀ row, (∀ i < t.pages.length,
            row ∈ b.snapshot i ∧ ∀ isVisible ∈ b.isVisible i, isVisible row = true) →
          row ∈ t.rows) ∧
        ∀ key, (∀ i < t.pages.length, ∃ row ∈ b.snapshot i, b.getKey row = key ∧
            ∀ isVisible ∈ b.isVisible i, isVisible row = true) →
          ∃ row ∈ t.rows, b.getKey row = key)) ∧
    (b.keys.Finite → ∃ n t, b.traverse n = some t ∧ t.next = none) ∧
    ∀ key, key ≠ [] → IsWellFormed key → ∀ n < 10 ^ 21,
      ∃ cursor, encodeCursor key n = some cursor ∧ decodeCursor (some cursor) = some ⟨key, n⟩ := by
  have htrans := hb.order.isTrans
  have hirrefl := hb.order.isIrrefl
  refine ⟨fun n ↦ ?_, fun hfinite ↦ ?_, fun key hne hkey n hn ↦ exists_encodeCursor hkey hne hn⟩
  · obtain ⟨t, ht, hlinked⟩ := linked_traverse hb n
    have hrows : t.rows.Pairwise
        fun x y ↦ Before b.compareKeys b.keys (b.getKey x) (b.getKey y) := by
      rw [hlinked.rows]
      exact Paging.pairwise_returned_walk (pairwise_seen hb) n
    refine ⟨t, ht, hrows.imp fun hlt ↦ hlt.2.2, nodup_of_pairwise_before hb.order hrows,
      fun i page hpage row hrow ↦ ?_, fun hdone ↦ ⟨fun row hrow ↦ ?_, fun key hkey ↦ ?_⟩⟩
    · obtain ⟨cursor, hmade⟩ := (served_traverse ht).made i page hpage
      exact mem_seen_iff.1 (mem_seen_of_paginateByCursor hmade hrow)
    · obtain ⟨row', hmem, hkey⟩ := mem_rows_of_key hb ht hdone fun i hi ↦
        ⟨row, mem_seen_iff.2 (hrow i hi), rfl⟩
      obtain ⟨i, hi, cursor, page, hpage, hitem⟩ := exists_request_of_mem_rows ht hmem
      have hseen := mem_seen_of_paginateByCursor hpage hitem
      -- two rows of one list do not share a key
      have hnodup := nodup_of_pairwise_before hb.order (pairwise_seen hb i)
      rwa [← inj_on_of_nodup_map hnodup hseen (mem_seen_iff.2 (hrow i hi)) hkey]
    · refine mem_rows_of_key hb ht hdone fun i hi ↦ ?_
      obtain ⟨row, hrow, hkey, hvisible⟩ := hkey i hi
      exact ⟨row, mem_seen_iff.2 ⟨hrow, hvisible⟩, hkey⟩
  · obtain ⟨n, hdone⟩ : ∃ n, (b.walk n).next = none :=
      Paging.exists_walk_done (pairwise_seen hb) hfinite.toFinset
        fun n row hrow ↦ hfinite.mem_toFinset.2 (getKey_mem_keys hrow)
    obtain ⟨t, ht, hlinked⟩ := linked_traverse hb n
    have hnext := hlinked.next
    rw [hdone] at hnext
    exact ⟨n, t, ht, map_eq_none_iff.1 hnext⟩

/-- Keys in the order of their lengths. -/
def byLength (a b : JsString) : JsNum := JsNum.ofInt ((a.length : ℤ) - b.length)

theorem precedes_byLength_iff (a b : JsString) : Precedes byLength a b ↔ a.length < b.length := by
  rw [Precedes, byLength, less_ofInt, decide_eq_true_eq]
  omega

theorem ordersKeys_byLength (keys : Set JsString) : OrdersKeys byLength keys where
  irrefl a _ h := by
    rw [precedes_byLength_iff] at h
    omega
  trans a _ b _ c _ hab hbc := by
    rw [precedes_byLength_iff] at *
    omega
  positive_iff a _ b _ := by
    rw [precedes_byLength_iff, byLength, less_ofInt, decide_eq_true_eq]
    omega

/-- After the first page its row is deleted, and another one is inserted where it was. -/
def replacedRow : Browsing JsString where
  pageSize := JsNum.ofInt 1
  getKey := id
  compareKeys := byLength
  snapshot n := if n = 0 then [js "a", js "ccc"] else [js "bb", js "ccc"]
  isVisible _ := none

theorem snapshot_replacedRow (n : ℕ) :
    replacedRow.snapshot n = [js "a", js "ccc"] ∨ replacedRow.snapshot n = [js "bb", js "ccc"] := by
  by_cases hn : n = 0
  · exact .inl (if_pos hn)
  · exact .inr (if_neg hn)

theorem finite_keys_replacedRow : replacedRow.keys.Finite := by
  refine (finite_toSet [js "a", js "bb", js "ccc"]).subset ?_
  rintro key ⟨n, row, hrow, rfl⟩
  rcases snapshot_replacedRow n with h | h <;> rw [h] at hrow
  · exact (by decide : ∀ row ∈ [js "a", js "ccc"], row ∈ [js "a", js "bb", js "ccc"]) row hrow
  · exact (by decide : ∀ row ∈ [js "bb", js "ccc"], row ∈ [js "a", js "bb", js "ccc"]) row hrow

/-- A list in which one row is replaced by another is as it should be. -/
theorem sound_replacedRow : replacedRow.Sound := by
  refine ⟨nofun, ordersKeys_byLength _, fun n ↦ ?_⟩
  rcases snapshot_replacedRow n with h | h <;> rw [h]
  · exact ⟨⟨by decide, by decide +kernel, by decide +kernel, by decide⟩, by decide +kernel⟩
  · exact ⟨⟨by decide, by decide +kernel, by decide +kernel, by decide⟩, by decide +kernel⟩

theorem stable_traversal_replacedRow :
    replacedRow.Sound ∧ replacedRow.keys.Finite ∧
      ∃ n t, replacedRow.traverse n = some t ∧ t.next = none :=
  ⟨sound_replacedRow, finite_keys_replacedRow,
    (stable_traversal replacedRow sound_replacedRow).2.1 finite_keys_replacedRow⟩

/-- A list of one row that is read with a page size of `NaN`. -/
def pageSizeNaN : Browsing JsString where
  pageSize := .nan
  getKey := id
  compareKeys := byLength
  snapshot _ := [js "a"]
  isVisible _ := none

/-- A list that starts with a row that counts as false. -/
def falsyRow : Browsing JsString where
  pageSize := JsNum.ofInt 1
  getKey row := 107 :: row
  compareKeys := byLength
  snapshot _ := [[], js "a"]
  isVisible _ := none

/-- **What does not hold**: a cursor whose offset is `10 ^ 21` is refused; with a page size of `NaN`
the traversal ends with the first page, which is empty; and it ends with a page whose last row
counts as false. -/
theorem cursor_lost_and_row_skipped :
    (∃ cursor, encodeCursor (js "a") (10 ^ 21) = some cursor ∧ decodeCursor (some cursor) = none) ∧
    ∀ b ∈ [pageSizeNaN, falsyRow], OrdersKeys b.compareKeys b.keys ∧
      (∀ n, (b.snapshot n).Pairwise
        fun x y ↦ Precedes b.compareKeys (b.getKey x) (b.getKey y)) ∧
      ∃ t, b.traverse 1 = some t ∧ t.next = none ∧ js "a" ∉ t.rows ∧
        ∀ i < t.pages.length, js "a" ∈ b.snapshot i := by
  refine ⟨⟨js "utix1:1e+21:a", by decide +kernel, by decide +kernel⟩, ?_⟩
  rw [forall_mem_cons, forall_mem_singleton]
  refine ⟨⟨ordersKeys_byLength _, fun _ ↦ pairwise_singleton _ _, ?_⟩,
    ordersKeys_byLength _, fun _ ↦ ?_, ?_⟩
  · exact ⟨⟨[⟨[], none, true⟩], none⟩, rfl, rfl, by decide, fun _ _ ↦ mem_singleton_self _⟩
  · exact (by decide +kernel : [([] : JsString), js "a"].Pairwise
      fun x y ↦ Precedes byLength (107 :: x) (107 :: y))
  · exact ⟨⟨[⟨[[]], none, true⟩], none⟩, by rfl, rfl, by decide,
      fun _ _ ↦ mem_cons_of_mem _ (mem_singleton_self _)⟩

end Utix.Pagination

import Mathlib.Data.Finset.Card
import Mathlib.Data.List.Pairwise

/-!
# Walking through a changing list page by page

The rows of a list are strictly ordered by their keys. A walk asks for a page, and then for the page
after the last key it was given, until there are no more rows; the list may be another one at every
request. `Walk.step` is one request, and `walk` the state after some of them.

Whatever the lists are, the rows that are returned are in strictly ascending order
(`pairwise_returned_walk`), a row that is there at every request is returned (`mem_returned_walk`),
and with finitely many keys the walk ends (`exists_walk_done`).
-/

namespace Lib.Paging

open List

variable {T K : Type*} (lt : K → K → Prop) [DecidableRel lt] (key : T → K)

/-- The rows after an anchor. -/
def after (anchor : Option K) (rows : List T) : List T :=
  rows.filter fun row ↦ anchor.all fun a ↦ decide (lt a (key row))

/-- A walk under way. -/
structure Walk (T K : Type*) where
  returned : List T := []
  /-- The anchor of the next request; `none` when there are no more rows. -/
  next : Option (Option K) := some none

/-- The page of a request, and the anchor of the next one. -/
def page (size : ℕ) (anchor : Option K) (rows : List T) : List T × Option (Option K) :=
  ((after lt key anchor rows).take size,
    if (after lt key anchor rows).length ≤ size then none
    else ((after lt key anchor rows).take size).getLast?.map fun last ↦ some (key last))

/-- One request. -/
def Walk.step (size : ℕ) (rows : List T) (w : Walk T K) : Walk T K :=
  match w.next with
  | none => w
  | some anchor =>
    { returned := w.returned ++ (page lt key size anchor rows).1
      next := (page lt key size anchor rows).2 }

/-- The walk after `n` requests. -/
def walk (size : ℕ → ℕ) (rows : ℕ → List T) : ℕ → Walk T K
  | 0 => {}
  | n + 1 => (walk size rows n).step lt key (size n) (rows n)

variable {lt key}

variable {anchor : Option K} {row : T} {rows : List T}

/-- What is left behind an anchor: the rows with larger keys. -/
theorem mem_after : row ∈ after lt key anchor rows ↔ row ∈ rows ∧ ∀ a ∈ anchor, lt a (key row) := by
  simp [after, Option.all_eq_true]

/-! ### Where the rows after an anchor start -/

@[simp]
theorem after_none (rows : List T) : after lt key none rows = rows :=
  List.filter_eq_self.2 fun _ _ ↦ rfl

variable {k : K}

/-- In an ordered list these are the rows behind some place. -/
theorem after_eq_drop {n : ℕ} (hbefore : ∀ row ∈ rows.take n, ¬lt k (key row))
    (hafter : ∀ row ∈ rows.drop n, lt k (key row)) : after lt key (some k) rows = rows.drop n := by
  conv_lhs => rw [← take_append_drop n rows]
  rw [after, filter_append, filter_eq_nil_iff.2, nil_append, filter_eq_self.2]
  · exact fun row hrow ↦ decide_eq_true (hafter row hrow)
  · exact fun row hrow ↦ by simpa using hbefore row hrow

variable {i : ℕ}

omit [DecidableRel lt] in
/-- The row at a position is between the rows before it and those behind it. -/
theorem pairwise_split (hrows : rows.Pairwise fun a b ↦ lt (key a) (key b)) (hi : i < rows.length) :
    (∀ row ∈ rows.take i, lt (key row) (key rows[i])) ∧
      ∀ row ∈ rows.drop (i + 1), lt (key rows[i]) (key row) := by
  have hsplit : rows.take i ++ rows[i] :: rows.drop (i + 1) = rows := by
    rw [← List.drop_eq_getElem_cons hi, List.take_append_drop]
  have hparts : (rows.take i ++ rows[i] :: rows.drop (i + 1)).Pairwise
      fun a b ↦ lt (key a) (key b) := by rwa [hsplit]
  obtain ⟨-, hcons, hbefore⟩ := List.pairwise_append.1 hparts
  exact ⟨fun row hrow ↦ hbefore row hrow _ List.mem_cons_self, (List.pairwise_cons.1 hcons).1⟩

section

variable [IsTrans K lt] {rows : List T} (hrows : rows.Pairwise fun a b ↦ lt (key a) (key b))
include hrows

/-- The rows after one that is there start behind it. -/
theorem after_getElem [Std.Irrefl lt] (hi : i < rows.length) :
    after lt key (some (key rows[i])) rows = rows.drop (i + 1) := by
  obtain ⟨hbefore, hafter⟩ := pairwise_split hrows hi
  refine after_eq_drop (fun row hrow hlt ↦ ?_) hafter
  rw [take_succ_eq_append_getElem hi, mem_append, mem_singleton] at hrow
  rcases hrow with hrow | rfl
  · exact Std.Irrefl.irrefl _ (IsTrans.trans _ _ _ hlt (hbefore row hrow))
  · exact Std.Irrefl.irrefl _ hlt

/-- The rows after an anchor start with the first of them. -/
theorem after_first (hi : i < rows.length) (hlt : lt k (key rows[i]))
    (hfirst : ∀ j, (hj : j < i) → ¬lt k (key rows[j])) :
    after lt key (some k) rows = rows.drop i := by
  refine after_eq_drop (fun row hrow ↦ ?_) fun row hrow ↦ ?_
  · obtain ⟨j, hj, rfl⟩ := mem_take_iff_getElem.1 hrow
    exact hfirst j (lt_min_iff.1 hj).1
  rw [drop_eq_getElem_cons hi, mem_cons] at hrow
  rcases hrow with rfl | hrow
  · exact hlt
  · exact IsTrans.trans _ _ _ hlt ((pairwise_split hrows hi).2 row hrow)

end

/-! ### Pages -/

variable {size : ℕ}

theorem mem_of_mem_page (h : row ∈ (page lt key size anchor rows).1) : row ∈ rows :=
  (mem_after.1 (mem_of_mem_take h)).1

/-- The next anchor is the key of the last row of the page. -/
theorem page_next {next : Option K} (h : (page lt key size anchor rows).2 = some next) :
    ∃ init last, (page lt key size anchor rows).1 = init ++ [last] ∧ next = some (key last) ∧
      size < (after lt key anchor rows).length := by
  rw [page] at h
  split at h
  · cases h
  next hlong =>
    obtain ⟨last, hlast, rfl⟩ := Option.map_eq_some_iff.1 h
    obtain ⟨init, hinit⟩ := getLast?_eq_some_iff.1 hlast
    exact ⟨init, last, hinit, rfl, not_le.1 hlong⟩

/-- **What holds after every request** about the rows that were returned. -/
structure Ascending (lt : K → K → Prop) (key : T → K) (w : Walk T K) : Prop where
  pairwise : w.returned.Pairwise fun a b ↦ lt (key a) (key b)
  anchored : ∀ a, w.next = some (some a) → ∀ row ∈ w.returned, key row = a ∨ lt (key row) a
  fresh : w.next = some none → w.returned = []

/-- A page of an ordered list is ordered. -/
theorem pairwise_page (hrows : rows.Pairwise fun a b ↦ lt (key a) (key b)) (size : ℕ)
    (anchor : Option K) : (page lt key size anchor rows).1.Pairwise fun a b ↦ lt (key a) (key b) :=
  hrows.sublist ((take_sublist _ _).trans filter_sublist)

section

variable [IsTrans K lt]

/-- A request keeps what was returned in order, and below what is still to come. -/
theorem Ascending.step {w : Walk T K} (h : Ascending lt key w)
    (hrows : rows.Pairwise fun a b ↦ lt (key a) (key b)) :
    Ascending lt key (w.step lt key size rows) := by
  rw [Walk.step]
  split
  · exact h
  next anchor hanchor =>
  -- every row returned before is ordered before every row of the page
  have hbefore : ∀ a ∈ w.returned, ∀ b ∈ (page lt key size anchor rows).1, lt (key a) (key b) := by
    intro a ha b hb
    have hb := (mem_after.1 (mem_of_mem_take hb)).2
    cases anchor with
    | none =>
      rw [h.fresh hanchor] at ha
      cases ha
    | some k =>
      rcases h.anchored k hanchor a ha with rfl | hlt
      · exact hb _ rfl
      · exact IsTrans.trans _ _ _ hlt (hb k rfl)
  refine ⟨pairwise_append.2 ⟨h.pairwise, pairwise_page hrows _ _, hbefore⟩, ?_, ?_⟩
  · intro k hk row hrow
    obtain ⟨init, last, hpage, hnext, -⟩ := page_next hk
    cases hnext
    have hlast : last ∈ (page lt key size anchor rows).1 := by rw [hpage]; simp
    rcases mem_append.1 hrow with hrow | hrow
    · exact .inr (hbefore row hrow last hlast)
    have hpairwise := pairwise_page hrows size anchor
    rw [hpage] at hrow hpairwise
    rcases mem_append.1 hrow with hrow | hrow
    · exact .inr ((pairwise_append.1 hpairwise).2.2 row hrow last (mem_singleton_self _))
    · exact .inl (congrArg key (mem_singleton.1 hrow))
  · intro hnone
    obtain ⟨init, last, -, hnext, -⟩ := page_next hnone
    cases hnext

variable {rows : ℕ → List T}

/-- The rows that a walk returns are in order. -/
theorem ascending_walk {size : ℕ → ℕ} (hrows : ∀ n, (rows n).Pairwise fun a b ↦ lt (key a) (key b))
    (n : ℕ) : Ascending lt key (walk lt key size rows n) := by
  induction n with
  | zero => exact ⟨List.Pairwise.nil, nofun, fun _ ↦ rfl⟩
  | succ n ih => exact ih.step (hrows n)

/-- **The rows are returned in strictly ascending order.** -/
theorem pairwise_returned_walk {size : ℕ → ℕ}
    (hrows : ∀ n, (rows n).Pairwise fun a b ↦ lt (key a) (key b)) (n : ℕ) :
    (walk lt key size rows n).returned.Pairwise fun a b ↦ lt (key a) (key b) :=
  (ascending_walk hrows n).pairwise

end

/-- A row that is there at a request is returned, or is after the next anchor. -/
theorem mem_page_or_after (hsize : 0 < size) (hrows : rows.Pairwise fun a b ↦ lt (key a) (key b))
    (hrow : row ∈ rows) (hanchor : ∀ a ∈ anchor, lt a (key row)) :
    row ∈ (page lt key size anchor rows).1 ∨
      ∃ k, (page lt key size anchor rows).2 = some (some k) ∧ lt k (key row) := by
  have hmem : row ∈ after lt key anchor rows := mem_after.2 ⟨hrow, hanchor⟩
  have hsplit := take_append_drop size (after lt key anchor rows)
  rw [← hsplit, mem_append] at hmem
  rcases hmem with hmem | hmem
  · exact .inl hmem
  -- the row is cut off, so the page is full and its last row is before it
  have hlong : size < (after lt key anchor rows).length := by
    by_contra hle
    rw [drop_eq_nil_of_le (not_lt.1 hle)] at hmem
    cases hmem
  have hpairwise : ((after lt key anchor rows).take size ++
      (after lt key anchor rows).drop size).Pairwise fun a b ↦ lt (key a) (key b) := by
    rw [hsplit]
    exact hrows.sublist filter_sublist
  have hne : (after lt key anchor rows).take size ≠ [] := by
    rw [← length_pos_iff, length_take]
    omega
  refine .inr ⟨key (((after lt key anchor rows).take size).getLast hne), ?_, ?_⟩
  · rw [page, if_neg (not_le.2 hlong), getLast?_eq_some_getLast hne]
    rfl
  · exact (pairwise_append.1 hpairwise).2.2 _ (getLast_mem hne) row hmem

variable {size : ℕ → ℕ} {rows : ℕ → List T}

/-- A key that was there at every request was returned, or is still to come. -/
theorem mem_returned_or_after (hsize : ∀ n, 0 < size n)
    (hrows : ∀ n, (rows n).Pairwise fun a b ↦ lt (key a) (key b)) (n : ℕ)
    (hk : ∀ i < n, ∃ row ∈ rows i, key row = k) :
    (∃ row ∈ (walk lt key size rows n).returned, key row = k) ∨
      ∃ anchor, (walk lt key size rows n).next = some anchor ∧ ∀ a ∈ anchor, lt a k := by
  induction n with
  | zero => exact .inr ⟨none, rfl, nofun⟩
  | succ n ih =>
    rw [walk, Walk.step]
    rcases ih fun i hi ↦ hk i (Nat.lt_succ_of_lt hi) with ⟨row, hrow, rfl⟩ | ⟨anchor, hnext, hlt⟩
    · left
      split
      · exact ⟨row, hrow, rfl⟩
      · exact ⟨row, mem_append_left _ hrow, rfl⟩
    · obtain ⟨row, hrow, rfl⟩ := hk n (Nat.lt_succ_self n)
      rw [hnext]
      rcases mem_page_or_after (hsize n) (hrows n) hrow hlt with hmem | ⟨k, hk, hlt⟩
      · exact .inl ⟨row, mem_append_right _ hmem, rfl⟩
      · exact .inr ⟨some k, hk, fun a ha ↦ Option.some.inj ha ▸ hlt⟩

/-- **A key that is there at every request of a complete walk is returned.** -/
theorem mem_returned_walk (hsize : ∀ n, 0 < size n)
    (hrows : ∀ n, (rows n).Pairwise fun a b ↦ lt (key a) (key b)) {n : ℕ}
    (hdone : (walk lt key size rows n).next = none) (hk : ∀ i < n, ∃ row ∈ rows i, key row = k) :
    ∃ row ∈ (walk lt key size rows n).returned, key row = k := by
  rcases mem_returned_or_after hsize hrows n hk with h | ⟨anchor, hnext, -⟩
  · exact h
  · rw [hdone] at hnext
    cases hnext

/-- Every page but the last has a row. -/
theorem le_length_returned (n : ℕ) (h : (walk lt key size rows n).next ≠ none) :
    n ≤ (walk lt key size rows n).returned.length := by
  induction n with
  | zero => exact Nat.zero_le _
  | succ n ih =>
    rw [walk, Walk.step] at h ⊢
    split at h
    next hnone => exact absurd hnone h
    next anchor hanchor =>
      have hn := ih (by rw [hanchor]; exact nofun)
      obtain ⟨next, hnext⟩ := Option.ne_none_iff_exists'.1 h
      obtain ⟨init, last, hpage, -, -⟩ := page_next hnext
      simp only [hpage, length_append, length_singleton]
      omega

/-- **With finitely many keys the walk ends.** -/
theorem exists_walk_done [IsTrans K lt] [Std.Irrefl lt] [DecidableEq K]
    (hrows : ∀ n, (rows n).Pairwise fun a b ↦ lt (key a) (key b)) (keys : Finset K)
    (hkeys : ∀ n, ∀ row ∈ rows n, key row ∈ keys) :
    ∃ n, (walk lt key size rows n).next = none := by
  by_contra hnever
  push Not at hnever
  have hlength := le_length_returned (keys.card + 1) (hnever _)
  have hnodup : ((walk lt key size rows (keys.card + 1)).returned.map key).Nodup := by
    refine pairwise_map.2 ((pairwise_returned_walk hrows _).imp fun hlt heq ↦ ?_)
    rw [heq] at hlt
    exact Std.Irrefl.irrefl _ hlt
  have hsub : ∀ n, ∀ row ∈ (walk lt key size rows n).returned, key row ∈ keys := by
    intro n
    induction n with
    | zero => exact nofun
    | succ n ih =>
      rw [walk, Walk.step]
      split
      · exact ih
      intro row hrow
      rcases mem_append.1 hrow with hrow | hrow
      · exact ih row hrow
      · exact hkeys n row (mem_of_mem_page hrow)
  have hcard := toFinset_card_of_nodup hnodup
  have hle : ((walk lt key size rows (keys.card + 1)).returned.map key).toFinset.card ≤
      keys.card := by
    refine Finset.card_le_card fun k hk ↦ ?_
    obtain ⟨row, hrow, rfl⟩ := mem_map.1 (mem_toFinset.1 hk)
    exact hsub _ row hrow
  rw [hcard, length_map] at hle
  omega

end Lib.Paging

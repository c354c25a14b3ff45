import Mathlib.Data.List.Sort
import Utix.Js.Text

/-!
# Mixed-status order

`core/sorting/mixedStatus.ts`: records and events are compared level by level. Records are compared
by the priority of their status, then by their time, newest first; events by their time, then by the
priority. What ties is told apart by the sequence, the text of the status and the id.

The priority of a status is looked up in an object literal, which also answers to the names of
`Object.prototype`. What stands there is no number, the difference with any priority is `NaN`, and
the level decides nothing. So an item with such a status is compared by the other levels alone
(`settled`), while the items around it are compared by priority first, and the two need not agree.

`mixedStatus_canonical` says for every list of items with distinct ids exactly when the comparison
is a strict total order, on which sorting does not depend on the order of the input. It fails only
through `Inverted`: an item without a priority stands, by the other levels, after one item and
before another one, and the priorities put these two the other way round. Of two items exactly one
comes first in any case; what is lost is transitivity.

## What is kept of the data

A record and an event are one type of item, the `at` of an event in the place of `updatedAt`. A time
or a sequence that is missing or invalid is read as `-Infinity` by the source, and is `none` here.
-/

namespace Utix.Sorting

open Js List
open Std (TransCmp OrientedCmp LawfulEqOrd)

/-- A record, or an event with its `at` for `updatedAt`; a time or sequence that is missing or
invalid is left out. -/
structure Item where
  id : JsString
  status : JsString
  updatedAt : Option ℤ
  sequence : Option ℤ

def statusPriority : List (JsString × ℕ) :=
  [(js "failed", 0), (js "dead_lettered", 0), (js "interrupted", 1), (js "retrying", 1),
    (js "pending", 2), (js "queued", 2), (js "running", 3), (js "succeeded", 4),
    (js "completed", 4), (js "resolved", 4), (js "skipped", 5), (js "abandoned", 6),
    (js "cancelled", 6)]

/-- `STATUS_PRIORITY[status] ?? 7`; `none` where the lookup finds something that is no number. -/
def priority (status : JsString) : Option ℕ :=
  match statusPriority.lookup status with
  | some p => some p
  | none => if status ∈ prototypeKeys then none else some 7

/-! ### Comparisons

The sign of what the source computes; `NaN` counts as zero, both for `||` and for the sort. -/

def byPriority (a b : Item) : Ordering :=
  match priority a.status, priority b.status with
  | some p, some q => compare p q
  | _, _ => .eq

def newest (a b : Item) : Ordering := compare b.updatedAt a.updatedAt

def highestSequence (a b : Item) : Ordering := compare b.sequence a.sequence

/-- The levels on which records and events agree. -/
def byText : Item → Item → Ordering :=
  compareLex highestSequence <| compareLex (compareOn Item.status) (compareOn Item.id)

def compareMixedStatusRecords : Item → Item → Ordering :=
  compareLex byPriority <| compareLex newest byText

def compareMixedStatusEvents : Item → Item → Ordering :=
  compareLex newest <| compareLex byPriority byText

def sort (cmp : Item → Item → Ordering) (items : List Item) : List Item :=
  items.insertionSort fun a b ↦ (cmp a b).isLE = true

/-- A strict total order of the items, and sorting them forgets the order they come in. -/
def Canonical (cmp : Item → Item → Ordering) (items : List Item) : Prop :=
  (∀ a ∈ items, ∀ b ∈ items, a.id ≠ b.id → (cmp a b = .lt ↔ cmp b a ≠ .lt)) ∧
    (∀ a ∈ items, ∀ b ∈ items, ∀ c ∈ items, cmp a b = .lt → cmp b c = .lt → cmp a c = .lt) ∧
    ∀ other : List Item, other.Perm items → sort cmp other = sort cmp items

/-- The levels without the priority. -/
def settled : Item → Item → Ordering := compareLex newest byText

/-- **An item without a priority stands between two that their priorities put the other way
round**: `a` before `b` by priority, but `b` before `c` and `c` before `a` by the given levels. -/
structure Inverted (rest : Item → Item → Ordering) (a b c : Item) : Prop where
  priorities : ∃ p q, priority a.status = some p ∧ priority b.status = some q ∧ p < q
  unranked : priority c.status = none
  after : rest b c = .lt
  before : rest c a = .lt

/-! ### Each level -/

instance instTransCmpNewest : TransCmp newest :=
  inferInstanceAs (TransCmp fun a b ↦ compareOn Item.updatedAt b a)

instance instTransCmpByText : TransCmp byText :=
  have : TransCmp highestSequence :=
    inferInstanceAs (TransCmp fun a b : Item ↦ compareOn Item.sequence b a)
  inferInstanceAs (TransCmp (compareLex _ _))

instance instTransCmpSettled : TransCmp settled := inferInstanceAs (TransCmp (compareLex _ _))

instance instOrientedCmpByPriority : OrientedCmp byPriority where
  eq_swap {a b} := by
    rw [byPriority, byPriority]
    split
    · next p q hp hq =>
      rw [hp, hq]
      exact OrientedCmp.eq_swap
    · next hnone =>
      split
      · next q p hq hp => exact absurd hq (hnone p q hp)
      · rfl

variable {a b c : Item} {items : List Item} {cmp : Item → Item → Ordering}

/-- The last level ties only items with the same status and the same id. -/
theorem byText_eq (h : byText a b = .eq) : a.status = b.status ∧ a.id = b.id := by
  simp only [byText, compareLex_eq_eq] at h
  exact ⟨LawfulEqOrd.eq_of_compare h.2.1, LawfulEqOrd.eq_of_compare h.2.2⟩

/-- The level of the time ties items of one time. -/
theorem newest_eq_iff : newest a b = .eq ↔ a.updatedAt = b.updatedAt := by
  rw [newest, Std.compare_eq_iff_eq, eq_comm]

/-- An item without a priority ties with every other on that level. -/
theorem byPriority_unranked (h : priority a.status = none ∨ priority b.status = none) :
    byPriority a b = .eq := by
  rw [byPriority]
  split
  · next hp hq => simp [hp, hq] at h
  · rfl

/-- A record without a priority is compared by the other levels alone. -/
theorem records_unranked (h : priority a.status = none ∨ priority b.status = none) :
    compareMixedStatusRecords a b = settled a b := by
  rw [compareMixedStatusRecords, compareLex, byPriority_unranked h]
  rfl

/-- So is an event without one. -/
theorem events_unranked (h : priority a.status = none ∨ priority b.status = none) :
    compareMixedStatusEvents a b = settled a b := by
  simp only [compareMixedStatusEvents, settled, compareLex, byPriority_unranked h]
  rfl

/-! ### Transitivity -/

/-- The comparison of two levels decides as the first, or, if that ties, as the second. -/
theorem compareLex_eq_lt {first second : Item → Item → Ordering} :
    compareLex first second a b = .lt ↔ first a b = .lt ∨ first a b = .eq ∧ second a b = .lt := by
  rw [compareLex, Ordering.then_eq_lt]

theorem byPriority_ranked {p q : ℕ} (hp : priority a.status = some p)
    (hq : priority b.status = some q) : byPriority a b = compare p q := by
  rw [byPriority, hp, hq]

/-- Two items that are inverted are in the order of their priorities on that level. -/
theorem Inverted.byPriority_lt {rest : Item → Item → Ordering} (h : Inverted rest a b c) :
    byPriority a b = .lt := by
  obtain ⟨p, q, hp, hq, hlt⟩ := h.priorities
  rw [byPriority_ranked hp hq, compare_lt_iff_lt]
  exact hlt

/-- Items of one time are inverted by all levels if they are by those after the time. -/
theorem Inverted.settled (h : Inverted byText a b c) (hab : a.updatedAt = b.updatedAt)
    (hbc : b.updatedAt = c.updatedAt) : Inverted settled a b c :=
  { h with
    after := compareLex_eq_lt.2 (.inr ⟨newest_eq_iff.2 hbc, h.after⟩)
    before := compareLex_eq_lt.2 (.inr ⟨newest_eq_iff.2 (hab.trans hbc).symm, h.before⟩) }

/-- Items of which only one has a priority do not tie on levels that tell statuses apart. -/
theorem lt_of_not_lt {rest : Item → Item → Ordering} [OrientedCmp rest]
    (hstatus : ∀ {a b}, rest a b = .eq → a.status = b.status)
    (hne : priority a.status ≠ priority b.status) (hlt : rest b a ≠ .lt) : rest a b = .lt := by
  cases hab : rest a b with
  | lt => rfl
  | eq => exact absurd (congrArg priority (hstatus hab)) hne
  | gt => exact absurd (OrientedCmp.lt_of_gt hab) hlt

/-- **Priority over transitive levels is transitive**, unless an item without a priority stands
between two the wrong way. The cases are which of the three items has none. -/
theorem lt_trans_of_not_inverted (rest : Item → Item → Ordering) [TransCmp rest]
    (hstatus : ∀ {a b}, rest a b = .eq → a.status = b.status) (h : ¬ Inverted rest a b c)
    (h' : ¬ Inverted rest b c a) (h'' : ¬ Inverted rest c a b)
    (hab : compareLex byPriority rest a b = .lt) (hbc : compareLex byPriority rest b c = .lt) :
    compareLex byPriority rest a c = .lt := by
  rw [compareLex_eq_lt] at hab hbc ⊢
  cases hb : priority b.status with
  | none =>
    rw [byPriority_unranked (.inr hb)] at hab
    rw [byPriority_unranked (.inl hb)] at hbc
    obtain ⟨-, hab⟩ := hab.resolve_left (by decide)
    obtain ⟨-, hbc⟩ := hbc.resolve_left (by decide)
    have hac : rest a c = .lt := TransCmp.lt_trans hab hbc
    cases ha : priority a.status with
    | none => exact .inr ⟨byPriority_unranked (.inl ha), hac⟩
    | some p =>
      cases hc : priority c.status with
      | none => exact .inr ⟨byPriority_unranked (.inr hc), hac⟩
      | some r =>
        rw [byPriority_ranked ha hc]
        rcases lt_trichotomy p r with hlt | rfl | hgt
        · exact .inl (compare_lt_iff_lt.2 hlt)
        · exact .inr ⟨compare_eq_iff_eq.2 rfl, hac⟩
        · exact absurd ⟨⟨r, p, hc, ha, hgt⟩, hb, hab, hbc⟩ h''
  | some q =>
    cases ha : priority a.status with
    | none =>
      rw [byPriority_unranked (.inl ha)] at hab ⊢
      obtain ⟨-, hab⟩ := hab.resolve_left (by decide)
      refine .inr ⟨rfl, ?_⟩
      rcases hbc with hbc | ⟨-, hbc⟩
      · cases hc : priority c.status with
        | none =>
          rw [byPriority_unranked (.inr hc)] at hbc
          cases hbc
        | some r =>
          rw [byPriority_ranked hb hc, compare_lt_iff_lt] at hbc
          exact lt_of_not_lt hstatus (by simp [ha, hc]) fun hca ↦
            h' ⟨⟨q, r, hb, hc, hbc⟩, ha, hca, hab⟩
      · exact TransCmp.lt_trans hab hbc
    | some p =>
      rw [byPriority_ranked ha hb] at hab
      cases hc : priority c.status with
      | none =>
        rw [byPriority_unranked (.inr hc)] at hbc ⊢
        obtain ⟨-, hbc⟩ := hbc.resolve_left (by decide)
        refine .inr ⟨rfl, ?_⟩
        rcases hab with hab | ⟨-, hab⟩
        · rw [compare_lt_iff_lt] at hab
          exact lt_of_not_lt hstatus (by simp [ha, hc]) fun hca ↦
            h ⟨⟨p, q, ha, hb, hab⟩, hc, hbc, hca⟩
        · exact TransCmp.lt_trans hab hbc
      | some r =>
        rw [byPriority_ranked hb hc] at hbc
        rw [byPriority_ranked ha hc]
        simp only [compare_lt_iff_lt, compare_eq_iff_eq] at hab hbc ⊢
        rcases hab with hab | ⟨rfl, hab⟩
        · rcases hbc with hbc | ⟨rfl, -⟩
          · exact .inl (hab.trans hbc)
          · exact .inl hab
        · exact hbc.imp_right fun hbc ↦ ⟨hbc.1, TransCmp.lt_trans hab hbc.2⟩

/-- Records are compared transitively where none is inverted. -/
theorem records_trans
    (h : ¬ ∃ a ∈ items, ∃ b ∈ items, ∃ c ∈ items, Inverted settled a b c) (ha : a ∈ items)
    (hb : b ∈ items) (hc : c ∈ items) (hab : compareMixedStatusRecords a b = .lt)
    (hbc : compareMixedStatusRecords b c = .lt) : compareMixedStatusRecords a c = .lt := by
  refine lt_trans_of_not_inverted settled (fun heq ↦ ?_) ?_ ?_ ?_ hab hbc
  · exact (byText_eq (compareLex_eq_eq.1 heq).2).1
  · exact fun hinverted ↦ h ⟨a, ha, b, hb, c, hc, hinverted⟩
  · exact fun hinverted ↦ h ⟨b, hb, c, hc, a, ha, hinverted⟩
  · exact fun hinverted ↦ h ⟨c, hc, a, ha, b, hb, hinverted⟩

/-- Events are compared transitively where none of one time is inverted. -/
theorem events_trans
    (h : ¬ ∃ a ∈ items, ∃ b ∈ items, ∃ c ∈ items,
      a.updatedAt = b.updatedAt ∧ Inverted settled a b c) (ha : a ∈ items) (hb : b ∈ items)
    (hc : c ∈ items) (hab : compareMixedStatusEvents a b = .lt)
    (hbc : compareMixedStatusEvents b c = .lt) : compareMixedStatusEvents a c = .lt := by
  rw [compareMixedStatusEvents, compareLex_eq_lt] at hab hbc ⊢
  rcases hab with hab | ⟨hab, hab'⟩
  · rcases hbc with hbc | ⟨hbc, -⟩
    · exact .inl (TransCmp.lt_trans hab hbc)
    · exact .inl (TransCmp.lt_of_lt_of_eq hab hbc)
  rcases hbc with hbc | ⟨hbc, hbc'⟩
  · exact .inl (TransCmp.lt_of_eq_of_lt hab hbc)
  -- the three items have one time, so the levels after it decide
  have hab := newest_eq_iff.1 hab
  have hbc := newest_eq_iff.1 hbc
  have hca := (hab.trans hbc).symm
  refine .inr ⟨newest_eq_iff.2 hca.symm, lt_trans_of_not_inverted byText
    (fun heq ↦ (byText_eq heq).1) ?_ ?_ ?_ hab' hbc'⟩
  · exact fun hinverted ↦ h ⟨a, ha, b, hb, c, hc, hab, hinverted.settled hab hbc⟩
  · exact fun hinverted ↦ h ⟨b, hb, c, hc, a, ha, hbc, hinverted.settled hbc hca⟩
  · exact fun hinverted ↦ h ⟨c, hc, a, ha, b, hb, hca, hinverted.settled hca hab⟩

/-! ### Canonical orders -/

/-- **Sorting forgets the order of the input** where the comparison is transitive. The sort is moved
to the subtype of the items, on which the comparison is a total order. -/
theorem sort_eq_of_perm [OrientedCmp cmp] (hid : ∀ {a b}, cmp a b = .eq → a.id = b.id)
    (hids : (items.map Item.id).Nodup)
    (htrans : ∀ a ∈ items, ∀ b ∈ items, ∀ c ∈ items, cmp a b = .lt → cmp b c = .lt → cmp a c = .lt)
    {other : List Item} (hperm : other.Perm items) : sort cmp other = sort cmp items := by
  let le (a b : {a // a ∈ items}) : Prop := (cmp a b).isLE = true
  have heq : ∀ {a b : {a // a ∈ items}}, cmp a b = .eq → a = b := fun h ↦
    Subtype.ext (inj_on_of_nodup_map hids (Subtype.prop _) (Subtype.prop _) (hid h))
  have hcases : ∀ {a b}, le a b → cmp a b = .lt ∨ a = b := fun {a b} hab ↦ by
    rcases Ordering.isLE_iff_eq_lt_or_eq_eq.1 hab with h | h
    · exact .inl h
    · exact .inr (heq h)
  have hswap : ∀ a b, cmp a b = (cmp b a).swap := fun _ _ ↦ OrientedCmp.eq_swap
  have : Std.Total le := ⟨fun a b ↦ by
    simp only [le, hswap a b]
    cases cmp b a <;> simp⟩
  have : IsTrans {a // a ∈ items} le := ⟨fun a b c hab hbc ↦ by
    rcases hcases hab with hlt | rfl
    · rcases hcases hbc with hlt' | rfl
      · simp [le, htrans a a.2 b b.2 c c.2 hlt hlt']
      · exact hab
    · exact hbc⟩
  have hsort : ∀ (l : List Item) (hl : ∀ a ∈ l, a ∈ items),
      sort cmp l = ((l.pmap Subtype.mk hl).insertionSort le).map Subtype.val := fun l hl ↦ by
    rw [map_insertionSort le (fun a b ↦ (cmp a b).isLE = true) Subtype.val _ fun _ _ _ _ ↦ Iff.rfl,
      map_pmap, pmap_eq_map, map_id', sort]
  rw [hsort other fun a ha ↦ hperm.subset ha, hsort items fun _ ha ↦ ha]
  refine congrArg (map Subtype.val) (Perm.eq_of_pairwise (fun a b _ _ hab hba ↦ ?_)
    (pairwise_insertionSort le _) (pairwise_insertionSort le _)
    (((perm_insertionSort le _).trans (hperm.pmap _)).trans (perm_insertionSort le _).symm))
  exact heq (OrientedCmp.isLE_antisymm hab hba)

/-- Of two items one comes first in any case, so an order is canonical if it is transitive. -/
theorem canonical_of_trans [OrientedCmp cmp] (hid : ∀ {a b}, cmp a b = .eq → a.id = b.id)
    (hids : (items.map Item.id).Nodup)
    (htrans : ∀ a ∈ items, ∀ b ∈ items, ∀ c ∈ items,
      cmp a b = .lt → cmp b c = .lt → cmp a c = .lt) : Canonical cmp items := by
  refine ⟨fun a _ b _ hne ↦ ?_, htrans, fun other ↦ sort_eq_of_perm hid hids htrans⟩
  rw [show cmp a b = (cmp b a).swap from OrientedCmp.eq_swap]
  cases hcmp : cmp b a with
  | eq => exact absurd (hid hcmp).symm hne
  | _ => simp

/-- Three items that close a cycle. -/
theorem Canonical.not_cycle (h : Canonical cmp items) (ha : a ∈ items) (hb : b ∈ items)
    (hc : c ∈ items) (hab : cmp a b = .lt) (hbc : cmp b c = settled b c)
    (hac : cmp a c = settled a c) (hinverted : Inverted settled a b c) : False := by
  have hlt := h.2.1 a ha b hb c hc hab (hbc.trans hinverted.after)
  rw [hac, show settled a c = (settled c a).swap from OrientedCmp.eq_swap, hinverted.before] at hlt
  cases hlt

/-- **When the orders are canonical**: for records, if no item without a priority stands between two
that their priorities put the other way round; for events, if none does so between two of one
time. -/
theorem mixedStatus_canonical (hids : (items.map Item.id).Nodup) :
    (Canonical compareMixedStatusRecords items ↔
      ¬ ∃ a ∈ items, ∃ b ∈ items, ∃ c ∈ items, Inverted settled a b c) ∧
    (Canonical compareMixedStatusEvents items ↔
      ¬ ∃ a ∈ items, ∃ b ∈ items, ∃ c ∈ items,
        a.updatedAt = b.updatedAt ∧ Inverted settled a b c) := by
  refine ⟨⟨?_, fun h ↦ ?_⟩, ?_, fun h ↦ ?_⟩
  · rintro hcan ⟨a, ha, b, hb, c, hc, hinverted⟩
    exact hcan.not_cycle ha hb hc (compareLex_eq_lt.2 (.inl hinverted.byPriority_lt))
      (records_unranked (.inr hinverted.unranked)) (records_unranked (.inr hinverted.unranked))
      hinverted
  · have : OrientedCmp compareMixedStatusRecords := inferInstanceAs (OrientedCmp (compareLex _ _))
    refine canonical_of_trans (fun heq ↦ ?_) hids fun a ha b hb c hc ↦ records_trans h ha hb hc
    simp only [compareMixedStatusRecords, compareLex_eq_eq] at heq
    exact (byText_eq heq.2.2).2
  · rintro hcan ⟨a, ha, b, hb, c, hc, hsame, hinverted⟩
    refine hcan.not_cycle ha hb hc (compareLex_eq_lt.2 (.inr ⟨newest_eq_iff.2 hsame, ?_⟩))
      (events_unranked (.inr hinverted.unranked)) (events_unranked (.inr hinverted.unranked))
      hinverted
    exact compareLex_eq_lt.2 (.inl hinverted.byPriority_lt)
  · have : OrientedCmp compareMixedStatusEvents := inferInstanceAs (OrientedCmp (compareLex _ _))
    refine canonical_of_trans (fun heq ↦ ?_) hids fun a ha b hb c hc ↦ events_trans h ha hb hc
    simp only [compareMixedStatusEvents, compareLex_eq_eq] at heq
    exact (byText_eq heq.2.2).2

/-- A cancelled record and a failed one, and one whose status is `constructor` that is newer than
both. -/
def newestUnranked : List Item :=
  [⟨js "a", js "cancelled", none, some 1⟩, ⟨js "b", js "failed", some 0, none⟩,
    ⟨js "c", js "constructor", some 1, none⟩]

theorem mixedStatus_canonical_newest : Canonical compareMixedStatusRecords newestUnranked := by
  refine (mixedStatus_canonical (by decide +kernel)).1.2 ?_
  rintro ⟨a, -, b, hb, c, hc, hinverted⟩
  have hfirst : ∀ b ∈ newestUnranked, ∀ c ∈ newestUnranked,
      priority c.status = none → settled b c ≠ .lt := by
    decide +kernel
  exact hfirst b hb c hc hinverted.unranked hinverted.after

/-- **A failed record, a completed one and one whose status is `constructor`**, in a cycle. -/
theorem mixedStatus_cycle :
    let a : Item := ⟨js "a", js "failed", none, some 0⟩
    let b : Item := ⟨js "b", js "completed", none, some 2⟩
    let c : Item := ⟨js "c", js "constructor", none, some 1⟩
    ∀ cmp ∈ [compareMixedStatusRecords, compareMixedStatusEvents],
      cmp a b = .lt ∧ cmp b c = .lt ∧ cmp c a = .lt := by
  decide +kernel

end Utix.Sorting

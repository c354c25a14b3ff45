import Mathlib.Data.List.Sort

/-!
# Cutting a list at a position

A list whose elements carry strictly increasing positions is cut by a position into the elements up
to it and the elements after it. A reader that remembers only the last position it saw can go on
from there, because the two parts make up the list (`upTo_append_after`), and taking the first
element after the cut moves it from one part to the other (`of_after_eq_cons`).

Positions are of any linear order. The two parts are filters and not a split of the list at an
index, so that the same definitions make sense of a list that has grown at its end since the
position was taken.
-/

namespace Lib

open List

variable {α β : Type*} [LinearOrder β] (f : α → β)

/-- The elements up to a position. -/
def upTo (c : β) (l : List α) : List α := l.filter fun a ↦ f a ≤ c

/-- The elements after a position. -/
def after (c : β) (l : List α) : List α := l.filter fun a ↦ c < f a

variable {f} {c : β} {l : List α}

theorem mem_after {a : α} : a ∈ after f c l ↔ a ∈ l ∧ c < f a := by simp [after]

/-- Nothing is up to a position before all others. -/
theorem upTo_eq_nil (h : ∀ a ∈ l, c < f a) : upTo f c l = [] :=
  filter_eq_nil_iff.2 fun a ha ↦ by simpa using h a ha

theorem after_eq_self (h : ∀ a ∈ l, c < f a) : after f c l = l :=
  filter_eq_self.2 fun a ha ↦ by simpa using h a ha

section

variable (h : l.Pairwise fun a b ↦ f a < f b)
include h

/-- **The two parts make up the list.** -/
theorem upTo_append_after : upTo f c l ++ after f c l = l := by
  induction l with
  | nil => rfl
  | cons a l ih =>
    obtain ⟨ha, hl⟩ := pairwise_cons.1 h
    by_cases hle : f a ≤ c
    · rw [upTo, after, filter_cons_of_pos (by simpa using hle),
        filter_cons_of_neg (by simpa using hle), cons_append]
      exact congrArg (a :: ·) (ih hl)
    · have hall : ∀ b ∈ a :: l, c < f b := fun b hb ↦ by
        rcases mem_cons.1 hb with rfl | hb
        · exact not_le.1 hle
        · exact (not_le.1 hle).trans (ha b hb)
      rw [upTo_eq_nil hall, after_eq_self hall, nil_append]

/-- Everything is up to a position with nothing after it. -/
theorem upTo_eq_self_of_after (hafter : after f c l = []) : upTo f c l = l := by
  have hcut := upTo_append_after (c := c) h
  rwa [hafter, append_nil] at hcut

/-- **The first element after the cut becomes the last one up to it.** -/
theorem of_after_eq_cons {a : α} {rest : List α} (hafter : after f c l = a :: rest) :
    upTo f (f a) l = upTo f c l ++ [a] ∧ after f (f a) l = rest := by
  have hcut : upTo f c l ++ a :: rest = l := hafter ▸ upTo_append_after h
  have hca : c < f a := (mem_after.1 (hafter ▸ mem_cons_self)).2
  obtain ⟨-, hrest, -⟩ := pairwise_append.1 (hcut.symm ▸ h)
  have hlater : ∀ b ∈ rest, f a < f b := (pairwise_cons.1 hrest).1
  have hearlier : ∀ b ∈ upTo f c l, f b ≤ c := fun b hb ↦ by
    simpa using (mem_filter.1 hb).2
  have hupTo : upTo f (f a) (upTo f c l) = upTo f c l :=
    filter_eq_self.2 fun b hb ↦ by simpa using (hearlier b hb).trans hca.le
  have hafter' : after f (f a) (upTo f c l) = [] :=
    filter_eq_nil_iff.2 fun b hb ↦ by simpa using (hearlier b hb).trans hca.le
  constructor
  · conv_lhs => rw [← hcut]
    rw [upTo, filter_append, ← upTo, hupTo, filter_cons_of_pos (by simp)]
    exact congrArg (fun l ↦ upTo f c _ ++ a :: l) (upTo_eq_nil hlater)
  · conv_lhs => rw [← hcut]
    rw [after, filter_append, ← after, hafter', nil_append, filter_cons_of_neg (by simp)]
    exact after_eq_self hlater

end

end Lib

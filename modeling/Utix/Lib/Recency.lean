import Utix.Lib.Dict

/-!
# Dictionaries in order of use

Deleting a key and assigning it again moves it to the end. If that is done at every use, the
dictionary lists its keys in the order in which they were last used, and its first key is the one
that was not used for longest. `Ordered used d` states the first for any record `used` of when a key
was used; `Ordered.touch` is what keeps it, and `Ordered.head_le` is the second.

The uses are counted by a clock that the dictionary does not know: `used` is any function into the
naturals, and `Ordered` asks only that it grows along the list. So a cache that counts uses in its
specification and none in its state can be compared with it.
-/

namespace Lib.Recency

open List Dict

variable {κ α : Type*}

/-- **The keys are listed in the order of their last use.** -/
def Ordered (used : κ → ℕ) (d : Dict κ α) : Prop :=
  d.entries.Pairwise fun a b ↦ used a.1 < used b.1

variable {used : κ → ℕ} {d : Dict κ α}

/-- What is removed does not matter for the order. -/
theorem Ordered.of_sublist {used' : κ → ℕ} {d' : Dict κ α} (h : Ordered used d)
    (hsub : d'.entries.Sublist d.entries) (heq : ∀ e ∈ d'.entries, used' e.1 = used e.1) :
    Ordered used' d' := by
  refine (List.Pairwise.sublist hsub h).imp_of_mem fun ha hb hab ↦ ?_
  rw [heq _ ha, heq _ hb]
  exact hab

variable [DecidableEq κ]

/-- Assign a key and move it to the end. -/
def touch (d : Dict κ α) (k : κ) (a : α) : Dict κ α := (d.erase k).set k a

variable {k : κ} {a : α}

theorem assign_of_not_mem {es : List (κ × α)} (h : k ∉ es.map Prod.fst) :
    assign es k a = es ++ [(k, a)] := by
  induction es with
  | nil => rfl
  | cons e es ih =>
    obtain ⟨l, b⟩ := e
    rw [map_cons, mem_cons, not_or] at h
    rw [assign, if_neg (Ne.symm h.1), ih h.2, cons_append]

/-- A key that is used moves to the end. -/
theorem entries_touch (d : Dict κ α) (k : κ) (a : α) :
    (touch d k a).entries = (d.entries.filter fun e ↦ e.1 ≠ k) ++ [(k, a)] := by
  refine assign_of_not_mem fun hmem ↦ ?_
  obtain ⟨e, he, rfl⟩ := mem_map.1 hmem
  exact absurd rfl (of_decide_eq_true (mem_filter.1 he).2)

/-- Using a key changes what is found under it, and nothing else. -/
theorem get_touch (d : Dict κ α) (k : κ) (a : α) (l : κ) :
    (touch d k a).get l = if k = l then some a else d.get l := by
  rw [touch, get_set, get_erase]
  split <;> rfl

theorem length_touch_le (d : Dict κ α) (k : κ) (a : α) :
    (touch d k a).entries.length ≤ d.entries.length + 1 := by
  rw [entries_touch, length_append]
  exact Nat.succ_le_succ (length_filter_le _ _)

/-- Using a key that is there adds none. -/
theorem length_touch_of_get {d : Dict κ α} {b : α} (h : d.get k = some b) (a : α) :
    (touch d k a).entries.length ≤ d.entries.length := by
  rw [entries_touch, length_append]
  refine length_filter_lt_length_iff_exists.2 ⟨(k, b), mem_entries_iff.2 h, ?_⟩
  simp

/-- **A key that is used now comes last.** -/
theorem Ordered.touch {used' : κ → ℕ} (h : Ordered used d) (hkept : ∀ l, l ≠ k → used' l = used l)
    (hlast : ∀ l, (d.get l).isSome = true → used l < used' k) : Ordered used' (touch d k a) := by
  rw [Ordered, entries_touch, pairwise_append]
  refine ⟨?_, pairwise_singleton _ _, fun e he f hf ↦ ?_⟩
  · refine (List.Pairwise.sublist filter_sublist h).imp_of_mem fun ha hb hab ↦ ?_
    rwa [hkept _ (of_decide_eq_true (mem_filter.1 ha).2),
      hkept _ (of_decide_eq_true (mem_filter.1 hb).2)]
  · obtain ⟨hmem, hne⟩ := mem_filter.1 he
    rw [mem_singleton.1 hf, hkept _ (of_decide_eq_true hne)]
    exact hlast _ (by rw [mem_entries_iff.1 hmem]; rfl)

variable {rest : List (κ × α)}

/-- **The first key was not used for longest.** -/
theorem Ordered.head_le {l : κ} (h : Ordered used d) (hhead : d.entries = (k, a) :: rest)
    (hl : (d.get l).isSome = true) : used k ≤ used l := by
  obtain ⟨b, hb⟩ := Option.isSome_iff_exists.1 hl
  have hmem := mem_entries_iff.2 hb
  rw [Ordered, hhead, pairwise_cons] at h
  rw [hhead] at hmem
  rcases mem_cons.1 hmem with heq | hmem
  · exact Nat.le_of_eq (congrArg used (Prod.mk.inj heq).1.symm)
  · exact Nat.le_of_lt (h.1 _ hmem)

/-- Removing the first key leaves the rest of the list. -/
theorem entries_erase_head (hhead : d.entries = (k, a) :: rest) : (d.erase k).entries = rest := by
  have hnodup := d.nodup
  rw [hhead, map_cons, nodup_cons] at hnodup
  have herase : (d.erase k).entries = d.entries.filter fun e ↦ e.1 ≠ k := rfl
  rw [herase, hhead, filter_cons_of_neg (by simp)]
  refine filter_eq_self.2 fun e he ↦ decide_eq_true fun heq ↦ hnodup.1 ?_
  exact mem_map.2 ⟨e, he, heq⟩

end Lib.Recency

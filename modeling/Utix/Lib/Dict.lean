import Mathlib.Data.List.Nodup

/-!
# Ordered dictionaries

A dictionary lists keys and values in the order in which the keys were first assigned: assigning a
key that is there replaces its value in place. The keys are distinct, and a dictionary carries the
proof. What the developments use of it is what `get` finds after each operation, and that `get`
finds exactly the listed entries (`mem_entries_iff`).

Dictionaries stand for maps that remember the order of insertion, and for tables by id. The order of
the entries is part of the value, since code that lists a map depends on it, and two dictionaries
with the same entries in another order are different. Values may be of any type; keys need decidable
equality and nothing else.
-/

namespace Lib

open List

/-- A dictionary. -/
structure Dict (κ α : Type*) where
  entries : List (κ × α)
  nodup : (entries.map Prod.fst).Nodup
  deriving DecidableEq

namespace Dict

variable {κ α : Type*}

/-- The dictionary without keys. -/
def empty : Dict κ α := ⟨[], List.nodup_nil⟩

/-- The values, in the order of their keys. -/
def values (d : Dict κ α) : List α := d.entries.map Prod.snd

variable [DecidableEq κ]

/-- The value under a key in a list of entries. -/
def find : List (κ × α) → κ → Option α
  | [], _ => none
  | (l, a) :: es, k => if l = k then some a else find es k

/-- Assign a key in a list of entries. -/
def assign : List (κ × α) → κ → α → List (κ × α)
  | [], k, a => [(k, a)]
  | (l, b) :: es, k, a => if l = k then (l, a) :: es else (l, b) :: assign es k a

variable {es : List (κ × α)}

theorem mem_keys_assign {k l : κ} {a : α} :
    l ∈ (assign es k a).map Prod.fst ↔ l = k ∨ l ∈ es.map Prod.fst := by
  induction es with
  | nil => simp [assign]
  | cons e es ih =>
    obtain ⟨m, b⟩ := e
    rw [assign]
    split
    · next hm => subst hm; simp
    · rw [map_cons, mem_cons, ih, map_cons, mem_cons]
      tauto

theorem nodup_assign (h : (es.map Prod.fst).Nodup) (k : κ) (a : α) :
    ((assign es k a).map Prod.fst).Nodup := by
  induction es with
  | nil => simp [assign]
  | cons e es ih =>
    obtain ⟨m, b⟩ := e
    rw [map_cons, nodup_cons] at h
    rw [assign]
    split
    · exact nodup_cons.2 h
    next hm =>
    refine nodup_cons.2 ⟨fun hmem ↦ ?_, ih h.2⟩
    rcases mem_keys_assign.1 hmem with hk | hk
    · exact hm hk
    · exact h.1 hk

/-- The value under a key. -/
def get (d : Dict κ α) (k : κ) : Option α := find d.entries k

/-- Assign a key: in place when it is there, at the end when it is not. -/
def set (d : Dict κ α) (k : κ) (a : α) : Dict κ α :=
  ⟨assign d.entries k a, nodup_assign d.nodup k a⟩

/-- The dictionary with the listed entries, assigned in order. -/
def ofList (entries : List (κ × α)) : Dict κ α :=
  entries.foldl (fun d entry ↦ d.set entry.1 entry.2) empty

section

variable (d : Dict κ α)

/-- Keep the keys that satisfy `p`. -/
def filterKeys (p : κ → Bool) : Dict κ α :=
  ⟨d.entries.filter fun e ↦ p e.1, d.nodup.sublist (List.filter_sublist.map _)⟩

/-- Delete a key. -/
def erase (k : κ) : Dict κ α :=
  ⟨d.entries.filter fun e ↦ e.1 ≠ k, d.nodup.sublist (List.filter_sublist.map _)⟩

/-- Change the value under a key, if there is one. -/
def modify (k : κ) (f : α → α) : Dict κ α :=
  ⟨d.entries.map fun e ↦ (e.1, if e.1 = k then f e.2 else e.2), by
    rw [List.map_map]
    exact d.nodup⟩

theorem find_cons (l : κ) (a : α) (es : List (κ × α)) (k : κ) :
    find ((l, a) :: es) k = if l = k then some a else find es k := rfl

@[simp] theorem get_empty (k : κ) : (empty : Dict κ α).get k = none := rfl

/-- Assigning a key changes what is found under it, and nothing else. -/
theorem get_set (k : κ) (a : α) (l : κ) :
    (d.set k a).get l = if k = l then some a else d.get l := by
  obtain ⟨es, hes⟩ := d
  simp only [set, get]
  clear hes
  induction es with
  | nil => rfl
  | cons e es ih =>
    obtain ⟨m, b⟩ := e
    rw [assign]
    by_cases hm : m = k
    · subst hm
      rw [if_pos rfl, find_cons, find_cons]
      split <;> rfl
    · rw [if_neg hm, find_cons, find_cons, ih]
      by_cases hl : m = l
      · subst hl
        rw [if_pos rfl, if_pos rfl, if_neg (Ne.symm hm)]
      · rw [if_neg hl, if_neg hl]

end

/-- **What is under a key after an assignment** is the new value, or was there before. -/
theorem get_set_eq_some {d : Dict κ α} {k l : κ} {a b : α} (h : (d.set k a).get l = some b) :
    l = k ∧ b = a ∨ l ≠ k ∧ d.get l = some b := by
  rw [get_set] at h
  split at h
  · next hk => exact .inl ⟨hk.symm, (Option.some.inj h).symm⟩
  · next hk => exact .inr ⟨Ne.symm hk, h⟩

/-- What holds of every entry and of the new one holds after an assignment. -/
theorem forall_get_set {d : Dict κ α} {k : κ} {a : α} {P : κ → α → Prop}
    (h : ∀ l b, d.get l = some b → P l b) (hnew : P k a) :
    ∀ l b, (d.set k a).get l = some b → P l b := by
  intro l b hget
  obtain ⟨rfl, rfl⟩ | ⟨-, hget⟩ := get_set_eq_some hget
  · exact hnew
  · exact h l b hget

section

variable (d : Dict κ α)

/-- **Counting values across an assignment**: the value that was under the key no longer counts, and
the new one does. -/
theorem countP_set (k : κ) (a : α) (p : α → Bool) :
    (d.set k a).values.countP p + (d.get k).elim 0 (fun b ↦ if p b then 1 else 0) =
      d.values.countP p + if p a then 1 else 0 := by
  obtain ⟨es, hes⟩ := d
  simp only [set, get, values]
  clear hes
  induction es with
  | nil => simp [assign, find, countP_cons]
  | cons e es ih =>
    obtain ⟨m, b⟩ := e
    rw [assign, find_cons]
    by_cases hm : m = k
    · rw [if_pos hm, if_pos hm]
      simp only [map_cons, countP_cons, Option.elim_some]
      omega
    · rw [if_neg hm, if_neg hm]
      simp only [map_cons, countP_cons]
      omega

/-- Counting values across a change. -/
theorem countP_modify (k : κ) (f : α → α) (p : α → Bool) :
    (d.modify k f).values.countP p + (d.get k).elim 0 (fun a ↦ if p a then 1 else 0) =
      d.values.countP p + (d.get k).elim 0 (fun a ↦ if p (f a) then 1 else 0) := by
  obtain ⟨es, hes⟩ := d
  simp only [modify, get, values]
  induction es with
  | nil => rfl
  | cons e es ih =>
    obtain ⟨m, b⟩ := e
    obtain ⟨hm, hnodup⟩ := nodup_cons.1 hes
    rw [find_cons]
    by_cases hk : m = k
    · subst hk
      -- no other entry has the key
      have hrest : (es.map fun e ↦ (e.1, if e.1 = m then f e.2 else e.2)) = es := by
        refine (map_congr_left fun e he ↦ ?_).trans (map_id es)
        rw [if_neg fun heq ↦ hm (mem_map.2 ⟨e, he, heq⟩)]
        rfl
      rw [map_cons, hrest, if_pos rfl]
      simp only [map_cons, countP_cons, if_true, Option.elim_some]
      omega
    · have hcount := ih hnodup
      rw [if_neg hk]
      simp only [map_cons, countP_cons, if_neg hk]
      omega

/-- Filtering keeps what is found under the keys that stay. -/
theorem get_filterKeys (p : κ → Bool) (l : κ) :
    (d.filterKeys p).get l = if p l then d.get l else none := by
  obtain ⟨es, hes⟩ := d
  simp only [filterKeys, get]
  clear hes
  induction es with
  | nil => simp [find]
  | cons e es ih =>
    obtain ⟨m, b⟩ := e
    by_cases hm : p m = true
    · rw [filter_cons_of_pos (by simpa using hm), find_cons, find_cons, ih]
      by_cases hl : m = l
      · subst hl
        rw [if_pos rfl, if_pos rfl, if_pos hm]
      · rw [if_neg hl, if_neg hl]
    · rw [filter_cons_of_neg (by simpa using hm), ih, find_cons]
      by_cases hl : m = l
      · subst hl
        rw [if_neg hm, if_neg hm]
      · rw [if_neg hl]

/-- Erasing a key changes what is found under it, and nothing else. -/
theorem get_erase (k l : κ) : (d.erase k).get l = if k = l then none else d.get l := by
  refine (get_filterKeys d (fun m ↦ m ≠ k) l).trans ?_
  by_cases hl : l = k
  · simp [hl]
  · simp [hl, Ne.symm hl]

/-- Modifying a key changes what is found under it, and nothing else. -/
theorem get_modify (k : κ) (f : α → α) (l : κ) :
    (d.modify k f).get l = if k = l then (d.get l).map f else d.get l := by
  obtain ⟨es, hes⟩ := d
  simp only [modify, get]
  clear hes
  induction es with
  | nil => simp [find]
  | cons e es ih =>
    obtain ⟨m, b⟩ := e
    rw [map_cons, find_cons, find_cons, ih]
    by_cases hl : m = l
    · subst hl
      rw [if_pos rfl, if_pos rfl]
      by_cases hm : m = k
      · rw [if_pos hm, if_pos hm.symm]
        rfl
      · rw [if_neg hm, if_neg (Ne.symm hm)]
    · rw [if_neg hl, if_neg hl]

end

/-- **The listed entries are what `get` finds.** -/
theorem mem_entries_iff {d : Dict κ α} {k : κ} {a : α} :
    (k, a) ∈ d.entries ↔ d.get k = some a := by
  obtain ⟨es, hes⟩ := d
  simp only [get]
  induction es with
  | nil => simp [find]
  | cons e es ih =>
    obtain ⟨m, b⟩ := e
    rw [map_cons, nodup_cons] at hes
    rw [find_cons, mem_cons]
    by_cases hm : m = k
    · subst hm
      have habsent : (m, a) ∉ es := fun h ↦ hes.1 (mem_map.2 ⟨(m, a), h, rfl⟩)
      simp [habsent, eq_comm]
    · simp [ih hes.2, hm, Ne.symm hm]

end Dict

end Lib

import Mathlib.Data.List.Perm.Basic

/-!
# Undoing what was done, newest first

Actions are performed one after another by calls that may throw, and may change the state whether
they throw or not. `undoAll` undoes a list of them; an action that has no way of being undone, or
whose undoing throws, is put on a list of its own and the others are still tried.

* `undoAll_perm` — every action is on one of the two lists, once;
* `undoAll_restores` — if every action is undone by a call that leads back to the state before it,
  undoing what was performed, newest first, leads back to the first state.

The second fact is about what is *seen* of a state: a call may leave a trace that undoing it does
not remove.
-/

namespace Lib

open List

/-- A call that may throw. -/
abbrev Call (σ ε : Type*) := σ → Option ε × σ

section

variable {σ α ε : Type*}

/-- What became of some actions that were to be undone. -/
structure Undone (σ α : Type*) where
  back : List α
  lost : List α
  state : σ

/-- Undo the actions in order. -/
def undoAll (undo : α → Option (Call σ ε)) : List α → σ → Undone σ α
  | [], s => ⟨[], [], s⟩
  | a :: as, s =>
    match undo a with
    | none =>
      let rest := undoAll undo as s
      { rest with lost := a :: rest.lost }
    | some call =>
      match call s with
      | (none, s) =>
        let rest := undoAll undo as s
        { rest with back := a :: rest.back }
      | (some _, s) =>
        let rest := undoAll undo as s
        { rest with lost := a :: rest.lost }

variable {undo : α → Option (Call σ ε)}

/-- **Every action is on one of the two lists**, once. -/
theorem undoAll_perm (as : List α) (s : σ) :
    ((undoAll undo as s).back ++ (undoAll undo as s).lost).Perm as := by
  induction as generalizing s with
  | nil => exact List.Perm.refl []
  | cons a as ih =>
    rw [undoAll]
    split
    · exact perm_middle.trans ((ih s).cons a)
    next call _ =>
    split
    · next s' _ => exact (ih s').cons a
    · next s' _ => exact perm_middle.trans ((ih s').cons a)

/-- What was undone was tried, in order. -/
theorem back_undoAll_sublist (as : List α) (s : σ) :
    (undoAll undo as s).back.Sublist (as.filter fun a ↦ (undo a).isSome) := by
  induction as generalizing s with
  | nil => exact List.Sublist.slnil
  | cons a as ih =>
    rw [undoAll]
    split
    · next hnone =>
      rw [filter_cons_of_neg (by simp [hnone])]
      exact ih s
    · next call hcall =>
      rw [filter_cons_of_pos (by simp [hcall])]
      split
      · next s' _ => exact (ih s').cons_cons a
      · next s' _ => exact (ih s').cons a

/-- What is undone later does not change what was undone before. -/
theorem undoAll_append (as bs : List α) (s : σ) :
    undoAll undo (as ++ bs) s =
      let first := undoAll undo as s
      let second := undoAll undo bs first.state
      ⟨first.back ++ second.back, first.lost ++ second.lost, second.state⟩ := by
  induction as generalizing s with
  | nil => rfl
  | cons a as ih =>
    rw [cons_append, undoAll, undoAll]
    split
    · rw [ih s]
      rfl
    next call _ =>
    split
    · next s' _ =>
      rw [ih s']
      rfl
    · next s' _ =>
      rw [ih s']
      rfl

/-- **The trace rule**: what undoing an action leaves behind, undoing the actions leaves behind, in
order. -/
theorem trace_undoAll {τ : Type*} (trace : σ → List τ) (mark : α → τ)
    (h : ∀ a call, undo a = some call → ∀ s, trace (call s).2 = trace s ++ [mark a])
    (as : List α) (s : σ) :
    trace (undoAll undo as s).state = trace s ++ (as.filter fun a ↦ (undo a).isSome).map mark := by
  induction as generalizing s with
  | nil => exact (append_nil _).symm
  | cons a as ih =>
    rw [undoAll]
    split
    · next hnone => rw [filter_cons_of_neg (by simp [hnone]), ← ih s]
    next call hcall =>
    rw [filter_cons_of_pos (by simp [hcall]), map_cons, append_cons, ← h a call hcall s]
    split
    · next s' hs => rw [hs, ih s']
    · next s' hs => rw [hs, ih s']

/-- The actions are performed from one state to another, and none of the calls throws. -/
inductive Performed {ρ : Type*} (perform : α → Call ρ ε) : ρ → List α → ρ → Prop
  | nil (r : ρ) : Performed perform r [] r
  | cons {r r' t : ρ} {a : α} {as : List α} (hcall : perform a r = (none, r'))
      (hrest : Performed perform r' as t) : Performed perform r (a :: as) t

/-- **The restoration rule**: what was performed and is undone newest first leaves what is seen of
the state as it was. -/
theorem undoAll_restores {ρ : Type*} {perform : α → Call ρ ε} (see : σ → ρ) {r r' : ρ} {as : List α}
    (h : Performed perform r as r')
    (hundo : ∀ a ∈ as, ∀ r r', perform a r = (none, r') → ∀ s, see s = r' →
      ∃ call, undo a = some call ∧ (call s).1 = none ∧ see (call s).2 = r) {s : σ}
    (hs : see s = r') :
    (undoAll undo as.reverse s).lost = [] ∧ see (undoAll undo as.reverse s).state = r := by
  induction h generalizing s with
  | nil r => exact ⟨rfl, hs⟩
  | @cons r r' t a as hcall _ ih =>
    obtain ⟨hlost, hsee⟩ := ih (fun b hb ↦ hundo b (mem_cons_of_mem a hb)) hs
    obtain ⟨call, hcall', hthrown, hback⟩ := hundo a mem_cons_self r r' hcall _ hsee
    rw [reverse_cons, undoAll_append]
    simp only [undoAll, hcall', hlost, nil_append]
    generalize call _ = answer at hthrown hback
    obtain ⟨thrown, state⟩ := answer
    obtain rfl : thrown = none := hthrown
    exact ⟨rfl, hback⟩

end

end Lib

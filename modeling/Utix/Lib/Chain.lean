import Mathlib.Tactic.Common

/-!
# Walks along a list

A walk goes through a list with a state: at each element a relation between the state and the
element must hold, and the element alone gives the next state. `Holds next R a bs` says that it
does, all the way, and `last next a bs` is the state at the end. Verifying a chain of records from a
checkpoint, comparing each record with the one before it, and following digests from link to link
are all walks.

Walks split where the list does (`holds_append`), and carry an invariant of the state to their end
(`last_induction`).

The state is given by the last element, so two walks that end with the same element end in the same
state. That is what makes a walk resumable from a checkpoint.
-/

namespace Lib.Chain

variable {α β : Type*} {next : β → α} {R S : α → β → Prop}

/-- The state at the end of a walk. -/
def last (next : β → α) : α → List β → α
  | a, [] => a
  | _, b :: bs => last next (next b) bs

/-- The relation holds at every element. -/
def Holds (next : β → α) (R : α → β → Prop) : α → List β → Prop
  | _, [] => True
  | a, b :: bs => R a b ∧ Holds next R (next b) bs

@[simp] theorem last_nil (a : α) : last next a [] = a := rfl

@[simp] theorem last_cons (a : α) (b : β) (bs : List β) :
    last next a (b :: bs) = last next (next b) bs := rfl

/-- The second part goes on where the first one ends. -/
theorem last_append (a : α) (bs cs : List β) :
    last next a (bs ++ cs) = last next (last next a bs) cs := by
  induction bs generalizing a with
  | nil => rfl
  | cons b bs ih => exact ih _

@[simp] theorem last_concat (a : α) (bs : List β) (b : β) :
    last next a (bs ++ [b]) = next b := by
  rw [last_append, last_cons, last_nil]

@[simp] theorem holds_nil (a : α) : Holds next R a [] := trivial

variable {a : α} {bs : List β}

@[simp] theorem holds_cons {b : β} :
    Holds next R a (b :: bs) ↔ R a b ∧ Holds next R (next b) bs := Iff.rfl

/-- **A walk splits where the list does.** -/
theorem holds_append {cs : List β} :
    Holds next R a (bs ++ cs) ↔ Holds next R a bs ∧ Holds next R (last next a bs) cs := by
  induction bs generalizing a with
  | nil => simp
  | cons b bs ih => rw [List.cons_append, holds_cons, ih, holds_cons, last_cons, and_assoc]

/-- One more element is one more step of the walk. -/
theorem holds_concat {b : β} :
    Holds next R a (bs ++ [b]) ↔ Holds next R a bs ∧ R (last next a bs) b := by
  rw [holds_append, holds_cons]
  simp

/-- What the relation says about an element alone holds of every element. -/
theorem Holds.forall_mem {Q : β → Prop} (hQ : ∀ a b, R a b → Q b) (h : Holds next R a bs) :
    ∀ b ∈ bs, Q b := by
  induction bs generalizing a with
  | nil => exact nofun
  | cons b bs ih =>
    intro c hc
    rcases List.mem_cons.1 hc with rfl | hc
    · exact hQ a c h.1
    · exact ih h.2 c hc

/-- **An invariant of the state that every step keeps holds at the end.** -/
theorem Holds.last_induction {P : α → Prop} (hstep : ∀ a b, P a → R a b → P (next b)) (ha : P a)
    (h : Holds next R a bs) : P (last next a bs) := by
  induction bs generalizing a with
  | nil => exact ha
  | cons b bs ih => exact ih (hstep a b ha h.1) h.2

end Lib.Chain

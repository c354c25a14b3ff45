import Mathlib.Tactic.Common

/-!
# Forward simulation

A machine answers calls: `step : σ → κ → α × σ`. A specification says which answers are allowed, and
what state an answer leads to: `Step : τ → κ → α → τ → Prop`. If a relation between the states is
kept by every call, with the answer that the machine gives, then along any run the machine answers
what the specification allows, and the states at the end are related (`behaves_of_simulation`).

The specification may be nondeterministic: it allows several answers and several next states, and
the machine shows one of them. It is meant for components whose purpose is easier to say with sets
and histories than with the data structure that implements it.
-/

namespace Lib

variable {σ τ κ α : Type*}

/-- The answers to some calls, and the state after them. -/
def respond (step : σ → κ → α × σ) : σ → List κ → List α × σ
  | s, [] => ([], s)
  | s, c :: calls =>
    let rest := respond step (step s c).2 calls
    ((step s c).1 :: rest.1, rest.2)

/-- The specification allows these answers to the calls. -/
inductive Behaves (Step : τ → κ → α → τ → Prop) : τ → List κ → List α → τ → Prop
  | nil (t : τ) : Behaves Step t [] [] t
  | cons {t t' t'' : τ} {c : κ} {a : α} {calls : List κ} {answers : List α} (hstep : Step t c a t')
      (hrest : Behaves Step t' calls answers t'') : Behaves Step t (c :: calls) (a :: answers) t''

/-- **A simulation carries over to runs.** -/
theorem behaves_of_simulation {step : σ → κ → α × σ} {Step : τ → κ → α → τ → Prop}
    {R : σ → τ → Prop}
    (hstep : ∀ s t c, R s t → ∃ t', Step t c (step s c).1 t' ∧ R (step s c).2 t') {s : σ} {t : τ}
    (hR : R s t) (calls : List κ) :
    ∃ t', Behaves Step t calls (respond step s calls).1 t' ∧ R (respond step s calls).2 t' := by
  induction calls generalizing s t with
  | nil => exact ⟨t, .nil t, hR⟩
  | cons c calls ih =>
    obtain ⟨t', hc, hR'⟩ := hstep s t c hR
    obtain ⟨t'', hrest, hR''⟩ := ih hR'
    exact ⟨t'', .cons hc hrest, hR''⟩

end Lib

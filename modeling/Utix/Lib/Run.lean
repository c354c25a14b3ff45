import Mathlib.Data.List.Induction

/-!
# Runs of a state machine

A machine is a step function `σ → κ → σ` on states and calls, and a run is a list of calls. Two
predicates over runs are enough for the developments built on this module:

* `Meets step ok s calls` — every call satisfies `ok` in the state it is made in;
* `Always step p s calls` — `p` holds after every call.

The rules reduce both to one step: `always_of_meets` for an invariant that only survives calls which
meet a condition, and `always_iff_meets` when the condition is exactly what the property needs.

Both predicates are defined by recursion on the list and not through the states of the run, so that
a proof by induction on the calls unfolds them with the run. `run_induction` and `run_invariant` are
the same rules for a property of the last state, with and without a condition on the calls.
-/

namespace Lib

open List

variable {σ κ : Type*} {step : σ → κ → σ}

/-- The state after a run. -/
def run (step : σ → κ → σ) (s : σ) (calls : List κ) : σ := calls.foldl step s

/-- Every call satisfies `ok` in the state it is made in. -/
def Meets (step : σ → κ → σ) (ok : σ → κ → Prop) : σ → List κ → Prop
  | _, [] => True
  | s, c :: calls => ok s c ∧ Meets step ok (step s c) calls

/-- `p` holds after every call. -/
def Always (step : σ → κ → σ) (p : σ → Prop) : σ → List κ → Prop
  | _, [] => True
  | s, c :: calls => p (step s c) ∧ Always step p (step s c) calls

@[simp] theorem run_nil (s : σ) : run step s [] = s := rfl

@[simp] theorem run_cons (s : σ) (c : κ) (calls : List κ) :
    run step s (c :: calls) = run step (step s c) calls := rfl

/-- A run goes on from where it was left. -/
theorem run_append (s : σ) (first second : List κ) :
    run step s (first ++ second) = run step (run step s first) second :=
  foldl_append

variable {ok : σ → κ → Prop} {s : σ}

/-- A condition is met in two parts, the second from the state after the first. -/
theorem meets_append {first second : List κ} :
    Meets step ok s (first ++ second) ↔
      Meets step ok s first ∧ Meets step ok (run step s first) second := by
  induction first generalizing s with
  | nil => simp [Meets]
  | cons c first ih => rw [cons_append, Meets, ih, Meets, run_cons, and_assoc]

variable {calls : List κ}

/-- A condition on the call alone is met call by call. -/
theorem meets_of_forall_mem {ok : κ → Prop} (h : ∀ c ∈ calls, ok c) :
    Meets step (fun _ ↦ ok) s calls := by
  induction calls generalizing s with
  | nil => trivial
  | cons c calls ih =>
    exact ⟨h c mem_cons_self, ih fun d hd ↦ h d (mem_cons_of_mem c hd)⟩

variable {inv : σ → Prop}

/-- **The invariant rule**: what one call preserves, a run preserves. -/
theorem run_induction (hstep : ∀ s c, inv s → ok s c → inv (step s c)) (hs : inv s)
    (hcalls : Meets step ok s calls) : inv (run step s calls) := by
  induction calls generalizing s with
  | nil => exact hs
  | cons c calls ih => exact ih (hstep s c hs hcalls.1) hcalls.2

/-- The invariant rule, for what every call preserves. -/
theorem run_invariant (inv : σ → Prop) (hstep : ∀ s c, inv s → inv (step s c)) (hs : inv s)
    (calls : List κ) : inv (run step s calls) := by
  induction calls generalizing s with
  | nil => exact hs
  | cons c calls ih => exact ih (hstep s c hs)

variable {p : σ → Prop}

/-- **The establishing rule**: what one of the calls brings about, and none of them undoes, holds at
the end. -/
theorem run_established {c : κ} (hinv : ∀ d ∈ calls, ∀ s, inv s → inv (step s d))
    (hset : ∀ s, inv s → p (step s c)) (hkeep : ∀ d ∈ calls, ∀ s, inv s → p s → p (step s d))
    (hs : inv s) (hc : c ∈ calls ∨ p s) : p (run step s calls) := by
  induction calls generalizing s with
  | nil => exact hc.resolve_left not_mem_nil
  | cons d calls ih =>
    refine ih (fun e he ↦ hinv e (mem_cons_of_mem d he))
      (fun e he ↦ hkeep e (mem_cons_of_mem d he)) (hinv d mem_cons_self s hs) ?_
    rcases hc with hc | hp
    · rcases mem_cons.1 hc with rfl | hc
      · exact .inr (hset s hs)
      · exact .inl hc
    · exact .inr (hkeep d mem_cons_self s hs hp)

/-- **The history rule**: an invariant that also speaks about the calls made so far. -/
theorem history_induction {inv : List κ → σ → Prop}
    (hstep : ∀ past c, inv past (run step s past) → ok (run step s past) c →
      inv (past ++ [c]) (step (run step s past) c)) (hs : inv [] s)
    (hcalls : Meets step ok s calls) : inv calls (run step s calls) := by
  suffices h : ∀ past, inv past (run step s past) → Meets step ok (run step s past) calls →
      inv (past ++ calls) (run step (run step s past) calls) from h [] hs hcalls
  clear hcalls hs
  induction calls with
  | nil => intro past hpast _; simpa using hpast
  | cons c calls ih =>
    intro past hpast hcalls
    have hrun : run step s (past ++ [c]) = step (run step s past) c := by
      rw [run_append, run_cons, run_nil]
    have h := ih (past ++ [c]) (by rw [hrun]; exact hstep past c hpast hcalls.1)
      (by rw [hrun]; exact hcalls.2)
    rw [hrun] at h
    simpa using h

/-- The history rule, for what every call preserves. -/
theorem history_invariant (inv : List κ → σ → Prop)
    (hstep : ∀ past c, inv past (run step s past) → inv (past ++ [c]) (step (run step s past) c))
    (hs : inv [] s) (calls : List κ) : inv calls (run step s calls) :=
  history_induction (fun past c h _ ↦ hstep past c h) hs (meets_of_forall_mem fun _ _ ↦ trivial)

section

variable (hstep : ∀ s c, inv s → ok s c → inv (step s c))
include hstep

/-- **The step rule**: what an invariant and a condition say about every single call. -/
theorem meets_of_meets {law : σ → κ → Prop} (hlaw : ∀ s c, inv s → ok s c → law s c) (hs : inv s)
    (hcalls : Meets step ok s calls) : Meets step law s calls := by
  induction calls generalizing s with
  | nil => trivial
  | cons c calls ih => exact ⟨hlaw s c hs hcalls.1, ih (hstep s c hs hcalls.1) hcalls.2⟩

/-- **The safety rule**: an invariant that implies `p` gives `p` after every call. -/
theorem always_of_meets (hp : ∀ s, inv s → p s) (hs : inv s) (hcalls : Meets step ok s calls) :
    Always step p s calls := by
  induction calls generalizing s with
  | nil => trivial
  | cons c calls ih =>
    have hnext := hstep s c hs hcalls.1
    exact ⟨hp _ hnext, ih hnext hcalls.2⟩

/-- **The exactness rule**: when in a good state a call keeps `p` exactly if it is `ok`, the
property holds along a run exactly if all its calls are `ok`. -/
theorem always_iff_meets (hp : ∀ s, inv s → p s) (hexact : ∀ s c, inv s → p (step s c) → ok s c)
    (hs : inv s) (calls : List κ) : Always step p s calls ↔ Meets step ok s calls := by
  refine ⟨fun h ↦ ?_, always_of_meets hstep hp hs⟩
  induction calls generalizing s with
  | nil => trivial
  | cons c calls ih =>
    have hok := hexact s c hs h.1
    exact ⟨hok, ih (hstep s c hs hok) h.2⟩

end

end Lib

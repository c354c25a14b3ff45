import Mathlib.Data.List.Nodup
import Utix.Lifecycle.Machine

/-!
# What a table means

A machine stands for the table of its rules. It finds a rule under a name that is put together from
the state and the event, and such a name can be taken apart in more than one way: with a rule from
`a|b` under `c`, a record in state `a` can be sent the event `b|c`, even where `a` is terminal.

`faithful_iff` says exactly when a machine does what its table lists.

`Faithful` has three parts: what is resolved is what is listed, nothing leads out of a terminal
state, and every state that accepted transitions reach is declared and is reached by listed rules.
`Unambiguous` is a condition on the names alone, which `createLifecycle` could check and does not:
every rule has an event, and its name is made by its own state only. The two are equivalent for
every machine.
-/

namespace Utix.Lifecycle

open Js List

/-- One listed rule leads from a state to another. -/
def Listed (definition : LifecycleDefinition) (s t : JsString) : Prop :=
  ∃ event, ⟨s, event, t⟩ ∈ definition.transitions

/-- One accepted transition leads from a state to another. -/
def Moves (machine : LifecycleMachine) (s t : JsString) : Prop :=
  ∃ event, applyTransition machine s event = .ok t

/-- The machine does what its table lists. -/
structure Faithful (machine : LifecycleMachine) : Prop where
  resolve_iff : ∀ s event t, resolve machine s event = .ok t ↔ ⟨s, event, t⟩ ∈ machine.1.transitions
  terminal : ∀ s event, isTerminal machine s = true → ∀ t, resolve machine s event ≠ .ok t
  reached : ∀ s, Relation.ReflTransGen (Moves machine) machine.1.initial s →
    isState machine s = true ∧ Relation.ReflTransGen (Listed machine.1) machine.1.initial s

/-- Every rule has an event, and its key is the key of its own state only. -/
def Unambiguous (machine : LifecycleMachine) : Prop :=
  ∀ rule ∈ machine.1.transitions, rule.event ≠ [] ∧
    ∀ s ∈ machine.1.states, ∀ event ≠ [],
      ruleKey s event = ruleKey rule.from' rule.event → s = rule.from'

variable {machine : LifecycleMachine} {s t event : JsString} {rule other : TransitionRule}

/-- What `createLifecycle` has checked. -/
theorem validated (machine : LifecycleMachine) :
    machine.1.initial ∈ machine.1.states ∧
      (∀ rule ∈ machine.1.transitions, rule.from' ∈ machine.1.states ∧
        rule.to' ∈ machine.1.states ∧ rule.from' ∉ machine.1.terminal) ∧
      (machine.1.transitions.map fun rule ↦ ruleKey rule.from' rule.event).Nodup := by
  have h := machine.2
  simp only [validateDefinition, Bool.and_eq_true, all_eq_true, decide_eq_true_eq] at h
  exact ⟨h.1.1.1, fun rule hrule ↦ ⟨(h.1.2 rule hrule).1.1, (h.1.2 rule hrule).1.2,
    (h.1.2 rule hrule).2⟩, h.2⟩

/-- A machine has one rule under each name. -/
theorem eq_of_ruleKey_eq (hrule : rule ∈ machine.1.transitions)
    (hother : other ∈ machine.1.transitions)
    (hkey : ruleKey rule.from' rule.event = ruleKey other.from' other.event) : rule = other :=
  inj_on_of_nodup_map (validated machine).2.2 hrule hother hkey

/-- A rule is found under every state and event that make its key. -/
theorem resolve_eq_ok_iff :
    resolve machine s event = .ok t ↔ s ∈ machine.1.states ∧ event ≠ [] ∧
      ∃ rule ∈ machine.1.transitions,
        ruleKey rule.from' rule.event = ruleKey s event ∧ rule.to' = t := by
  rw [resolve, isState]
  by_cases hs : s ∈ machine.1.states
  swap
  · simp [hs]
  by_cases hevent : event = []
  · simp [hs, hevent]
  simp only [hs, hevent, decide_true, Bool.true_eq_false, if_false, ne_eq, not_false_eq_true,
    true_and]
  cases hfind : machine.1.transitions.find? fun rule ↦
      ruleKey rule.from' rule.event = ruleKey s event with
  | none =>
    refine iff_of_false (by simp) ?_
    rintro ⟨rule, hrule, hkey, -⟩
    exact absurd hkey (by simpa using find?_eq_none.1 hfind rule hrule)
  | some found =>
    have hmem := mem_of_find?_eq_some hfind
    have hkey : ruleKey found.from' found.event = ruleKey s event := by
      simpa using find?_some hfind
    refine ⟨fun h ↦ ⟨found, hmem, hkey, Except.ok.inj h⟩, ?_⟩
    rintro ⟨rule, hrule, hkey', rfl⟩
    rw [eq_of_ruleKey_eq hrule hmem (hkey'.trans hkey.symm)]

/-- Where no name can be taken apart in two ways, the table is what is resolved. -/
theorem Unambiguous.resolve_iff (h : Unambiguous machine) :
    resolve machine s event = .ok t ↔ ⟨s, event, t⟩ ∈ machine.1.transitions := by
  rw [resolve_eq_ok_iff]
  constructor
  · rintro ⟨hs, hevent, rule, hrule, hkey, rfl⟩
    obtain rfl := (h rule hrule).2 s hs event hevent hkey.symm
    obtain rfl : rule.event = event := append_cancel_left hkey
    exact hrule
  · exact fun hrule ↦ ⟨((validated machine).2.1 _ hrule).1, (h _ hrule).1, _, hrule, rfl, rfl⟩

/-- **A machine does what its table lists exactly where no other state and event make the key of a
rule.** -/
theorem faithful_iff (machine : LifecycleMachine) : Faithful machine ↔ Unambiguous machine := by
  obtain ⟨hinitial, hrules, -⟩ := validated machine
  constructor
  · intro h rule hrule
    have hevent := (resolve_eq_ok_iff.1 ((h.resolve_iff _ _ _).2 hrule)).2.1
    refine ⟨hevent, fun s hs event hevent hkey ↦ ?_⟩
    have hresolve : resolve machine s event = .ok rule.to' :=
      resolve_eq_ok_iff.2 ⟨hs, hevent, rule, hrule, hkey.symm, rfl⟩
    have hlisted := (h.resolve_iff _ _ _).1 hresolve
    exact congrArg TransitionRule.from' (eq_of_ruleKey_eq hlisted hrule hkey)
  · intro h
    refine ⟨fun _ _ _ ↦ h.resolve_iff, fun s event hterminal t hok ↦ ?_, fun s hreached ↦ ?_⟩
    · exact (hrules _ (h.resolve_iff.1 hok)).2.2 (of_decide_eq_true hterminal)
    -- the path of rules grows with each accepted transition
    · induction hreached with
      | refl => exact ⟨decide_eq_true hinitial, .refl⟩
      | @tail s t _ hmove ih =>
        obtain ⟨event, hmove⟩ := hmove
        rw [applyTransition, ih.1] at hmove
        have hrule := h.resolve_iff.1 hmove
        exact ⟨decide_eq_true (hrules _ hrule).2.1, ih.2.tail ⟨event, hrule⟩⟩

/-- Two states, of which the terminal one starts the key of the other one's rule. -/
def barMachine : LifecycleMachine :=
  ⟨⟨js "bar", js "a|b", [js "a", js "a|b"], [js "a"], [⟨js "a|b", js "c", js "a"⟩]⟩,
    by decide +kernel⟩

/-- In the terminal state `a`, the event `b|c` finds the rule of `a|b`. -/
theorem resolve_terminal_bar :
    resolve barMachine (js "a") (js "b|c") = .ok (js "a") ∧
      isTerminal barMachine (js "a") = true ∧
      ⟨js "a", js "b|c", js "a"⟩ ∉ barMachine.1.transitions := by
  decide +kernel

end Utix.Lifecycle

import Utix.Js.Text

/-!
# Lifecycle tables

`core/lifecycle/lifecycle.ts`: a record kind declares its states, its terminal states and its rules
`(from, event) → to`, and every move of a record is looked up there. States and events are names,
and a rule is found under the name of its state, a bar and the name of its event.

A machine is a definition that `createLifecycle` accepts, and carries the proof. The transition of a
worker job (`core/lifecycle/records.ts`) is one of them; `JobStatus.after_eq` writes its table out
over the states and events as an enumeration.

A definition is accepted if its states hold the initial one, the terminal ones and both ends of
every rule, if no rule leaves a terminal state, and if no two rules have the same key. The key joins
two names with a bar, so what two pairs of names join to is the same text when the names hold bars;
the laws of the tables are about this. Notifications and pending operations have tables of their
own, of which other modules only use the states.
-/

namespace Utix.Lifecycle

open Js

/-- `LifecycleErrorCode`, as far as a transition can meet it. -/
inductive LifecycleErrorCode
  | unknownState
  | unknownEvent
  | invalidTransition
  | terminalState
  deriving DecidableEq

structure TransitionRule where
  from' : JsString
  event : JsString
  to' : JsString
  deriving DecidableEq

structure LifecycleDefinition where
  name : JsString
  initial : JsString
  states : List JsString
  terminal : List JsString
  transitions : List TransitionRule

/-- The key under which a rule is stored. -/
def ruleKey (from' event : JsString) : JsString := from' ++ js "|" ++ event

/-- `validateDefinition(definition)`; false is an exception. -/
def validateDefinition (definition : LifecycleDefinition) : Bool :=
  decide (definition.initial ∈ definition.states) &&
    definition.terminal.all (fun state ↦ decide (state ∈ definition.states)) &&
    definition.transitions.all (fun rule ↦
      decide (rule.from' ∈ definition.states) && decide (rule.to' ∈ definition.states) &&
        decide (rule.from' ∉ definition.terminal)) &&
    decide (definition.transitions.map fun rule ↦ ruleKey rule.from' rule.event).Nodup

/-- A machine: a definition that `createLifecycle` accepts. -/
abbrev LifecycleMachine :=
  {definition : LifecycleDefinition // validateDefinition definition = true}

/-- `createLifecycle(definition)`; `none` is an exception. -/
def createLifecycle (definition : LifecycleDefinition) : Option LifecycleMachine :=
  if h : validateDefinition definition = true then some ⟨definition, h⟩ else none

section

variable (machine : LifecycleMachine)

def isState (state : JsString) : Bool := state ∈ machine.1.states

def isTerminal (state : JsString) : Bool := state ∈ machine.1.terminal

/-- `machine.resolve(from, event)`. No two rules share a key, so the first one found is the one. -/
def resolve (from' event : JsString) : Except LifecycleErrorCode JsString :=
  if isState machine from' = false then .error .unknownState
  else if event = [] then .error .unknownEvent
  else
    match machine.1.transitions.find? fun rule ↦
        ruleKey rule.from' rule.event = ruleKey from' event with
    | none => .error (if isTerminal machine from' then .terminalState else .invalidTransition)
    | some rule => .ok rule.to'

/-- `applyTransition(machine, record, event)`: the state that the record moves to. -/
def applyTransition (state event : JsString) : Except LifecycleErrorCode JsString :=
  if isState machine state = false then .error .unknownState else resolve machine state event

end

/-! ### Worker jobs -/

inductive JobStatus
  | queued
  | running
  | retrying
  | succeeded
  | deadLettered
  deriving DecidableEq

/-- The name of a status. -/
def JobStatus.text : JobStatus → JsString
  | .queued => js "queued"
  | .running => js "running"
  | .retrying => js "retrying"
  | .succeeded => js "succeeded"
  | .deadLettered => js "dead_lettered"

/-- The events of a worker job. -/
inductive JobEvent
  | start
  | succeed
  | fail
  | exhaust
  | retry
  | deadLetter
  deriving DecidableEq

/-- The name of an event. -/
def JobEvent.text : JobEvent → JsString
  | .start => js "start"
  | .succeed => js "succeed"
  | .fail => js "fail"
  | .exhaust => js "exhaust"
  | .retry => js "retry"
  | .deadLetter => js "dead_letter"

/-- The definition of `workerJobMachine`. -/
def workerJobDefinition : LifecycleDefinition where
  name := js "worker_job"
  initial := js "queued"
  states := [js "queued", js "running", js "retrying", js "succeeded", js "dead_lettered"]
  terminal := [js "succeeded", js "dead_lettered"]
  transitions :=
    [⟨js "queued", js "start", js "running"⟩,
      ⟨js "queued", js "fail", js "retrying"⟩,
      ⟨js "queued", js "dead_letter", js "dead_lettered"⟩,
      ⟨js "running", js "succeed", js "succeeded"⟩,
      ⟨js "running", js "fail", js "retrying"⟩,
      ⟨js "running", js "exhaust", js "dead_lettered"⟩,
      ⟨js "running", js "dead_letter", js "dead_lettered"⟩,
      ⟨js "retrying", js "start", js "running"⟩,
      ⟨js "retrying", js "fail", js "retrying"⟩,
      ⟨js "retrying", js "exhaust", js "dead_lettered"⟩,
      ⟨js "retrying", js "retry", js "queued"⟩,
      ⟨js "retrying", js "dead_letter", js "dead_lettered"⟩]

def workerJobMachine : LifecycleMachine := ⟨workerJobDefinition, by decide +kernel⟩

def notificationMachine : LifecycleMachine :=
  ⟨{ name := js "notification"
     initial := js "unread"
     states := [js "unread", js "read", js "archived", js "purged"]
     terminal := [js "purged"]
     transitions :=
       [⟨js "unread", js "read", js "read"⟩,
         ⟨js "unread", js "archive", js "archived"⟩,
         ⟨js "unread", js "purge", js "purged"⟩,
         ⟨js "read", js "archive", js "archived"⟩,
         ⟨js "read", js "purge", js "purged"⟩,
         ⟨js "archived", js "purge", js "purged"⟩] }, by decide +kernel⟩

def operationMachine : LifecycleMachine :=
  ⟨{ name := js "operation"
     initial := js "started"
     states := [js "started", js "succeeded", js "failed"]
     terminal := [js "succeeded", js "failed"]
     transitions :=
       [⟨js "started", js "succeed", js "succeeded"⟩,
         ⟨js "started", js "fail", js "failed"⟩] }, by decide +kernel⟩

/-- The status with a name. -/
def JobStatus.ofText (text : JsString) : Option JobStatus :=
  [JobStatus.queued, .running, .retrying, .succeeded, .deadLettered].find? fun status ↦
    status.text = text

section

variable (status : JobStatus)

/-- The status a job moves to, when the machine allows the event. -/
def JobStatus.after (event : JobEvent) : Option JobStatus :=
  match applyTransition workerJobMachine status.text event.text with
  | .error _ => none
  | .ok next => JobStatus.ofText next

def JobStatus.isTerminal : Bool :=
  Lifecycle.isTerminal workerJobMachine status.text

/-- **The table of a worker job.** -/
theorem JobStatus.after_eq (event : JobEvent) :
    status.after event =
      match status, event with
      | .queued, .start => some .running
      | .queued, .fail => some .retrying
      | .queued, .deadLetter => some .deadLettered
      | .running, .succeed => some .succeeded
      | .running, .fail => some .retrying
      | .running, .exhaust => some .deadLettered
      | .running, .deadLetter => some .deadLettered
      | .retrying, .start => some .running
      | .retrying, .fail => some .retrying
      | .retrying, .exhaust => some .deadLettered
      | .retrying, .retry => some .queued
      | .retrying, .deadLetter => some .deadLettered
      | _, _ => none := by
  cases status <;> cases event <;> decide +kernel

/-- A job ends as succeeded or as dead-lettered. -/
theorem JobStatus.isTerminal_iff :
    status.isTerminal = true ↔ status = .succeeded ∨ status = .deadLettered := by
  cases status <;> decide +kernel

end

/-- **A terminal status is final.** -/
theorem JobStatus.after_terminal {status : JobStatus} (h : status.isTerminal = true)
    (event : JobEvent) : status.after event = none := by
  rw [JobStatus.after_eq]
  rcases (JobStatus.isTerminal_iff status).1 h with rfl | rfl <;> cases event <;> rfl

end Utix.Lifecycle

import Utix.Lib.Run
import Utix.Telemetry.Quoted

/-!
# Horizon requests

`runHorizonRequest` of `core/horizon/request.ts`, on a signal that is not aborted: the signal, the
timer and the request race into one promise. The state of a call says which of the three can still
arrive, and `Call.step` is what the arrival of one does. So a run over any list of events is a run
over any order and number of them, and an event whose source is gone leaves the call alone.

Each handler emits its record before it asks whether the call is settled. Settling removes the
listener and the timer, but not the reaction to the request. Hence the outcome is that of the first
event, whatever follows, and a request that answers after an abort or a timeout adds a record for an
outcome the caller never saw (`late_answer`).

A record goes through `emitTelemetry`, which scrubs its error code and drops an empty one. The code
of a rejection is whatever `errorCodeOf` finds: the `code` of an object, or the name of an `Error`.
The rule for secrets takes every text of 10 to 128 units that starts with `S` or `M` for one, and so
`SyntaxError` is recorded as the mark. `Outcome.record` is the record that would describe an outcome
and `Outcome.Legible` says when the two agree; `settles_with_first` puts both conditions together.

Latencies, correlation ids and timestamps are the same for every outcome and left out.
-/

namespace Utix.Horizon

open Js Lib List Telemetry

/-- What a request is rejected with, and what `errorCodeOf` reads of it. -/
structure Thrown (E : Type*) where
  error : E
  /-- The `code` of an object that has one. -/
  code : Option JsValue
  /-- The `name` of an `Error`. -/
  name : Option JsString

/-- What reaches the call. -/
inductive Event (T E : Type*)
  | abort
  | timeout
  | fulfilled (value : T)
  | rejected (error : Thrown E)

/-- What the promise settles with. -/
inductive Outcome (T E : Type*)
  | value (value : T)
  | error (error : Thrown E)
  | cancelledError
  | timeoutError

/-- What tells one `horizon.request` record from another. -/
structure Record where
  success : Bool
  errorCode : Option JsString
  deriving DecidableEq

variable {T E : Type*}

def errorCodeOf (error : Thrown E) : Option JsString :=
  match error.code with
  | some (.str code) => code
  | _ => error.name

/-- `emitTelemetry`, as far as the records differ: an empty code is falsy. -/
def emitTelemetry (success : Bool) (errorCode : Option JsString) : Record where
  success := success
  errorCode := (errorCode.filter (· ≠ [])).map scrubString

/-- A call, with what is still to come: the listener, the timer and the request. -/
structure Call (T E : Type*) where
  outcome : Option (Outcome T E)
  listening : Bool
  timer : Bool
  pending : Bool
  telemetry : List Record

namespace Call

def start : Call T E := ⟨none, true, true, true, []⟩

def emit (s : Call T E) (success : Bool) (errorCode : Option JsString) : Call T E :=
  { s with telemetry := s.telemetry ++ [emitTelemetry success errorCode] }

/-- `settle` with its `cleanup`; the flag `settled` says that there is an outcome. -/
def settle (s : Call T E) (outcome : Outcome T E) : Call T E :=
  match s.outcome with
  | some _ => s
  | none => { s with outcome := some outcome, listening := false, timer := false }

def step (s : Call T E) : Event T E → Call T E
  | .abort =>
    if s.listening then
      -- the listener is registered with `once`
      ({ s with listening := false }.emit false (js "cancelled")).settle .cancelledError
    else s
  | .timeout =>
    if s.timer then ({ s with timer := false }.emit false (js "timeout")).settle .timeoutError
    else s
  | .fulfilled value =>
    if s.pending then ({ s with pending := false }.emit true none).settle (.value value) else s
  | .rejected error =>
    if s.pending then
      ({ s with pending := false }.emit false (errorCodeOf error)).settle (.error error)
    else s

end Call

/-! ### What describes an outcome -/

def Event.outcome : Event T E → Outcome T E
  | .abort => .cancelledError
  | .timeout => .timeoutError
  | .fulfilled value => .value value
  | .rejected error => .error error

/-- The request has settled. -/
def Event.isAnswer : Event T E → Bool
  | .fulfilled _ | .rejected _ => true
  | _ => false

namespace Outcome

/-- The error code of an outcome. -/
def errorCode : Outcome T E → Option JsString
  | .value _ => none
  | .error e => errorCodeOf e
  | .cancelledError => js "cancelled"
  | .timeoutError => js "timeout"

def isSuccess : Outcome T E → Bool
  | .value _ => true
  | _ => false

/-- The record that describes an outcome. -/
def record (outcome : Outcome T E) : Record := ⟨outcome.isSuccess, outcome.errorCode⟩

/-- The record that is emitted for an outcome. -/
def emitted (outcome : Outcome T E) : Record := emitTelemetry outcome.isSuccess outcome.errorCode

/-- The error code of a rejection can be recorded: it is not empty, nothing in it is a secret, and
it is not taken for one as a whole or cut. -/
def Legible : Outcome T E → Prop
  | .error e => ∀ code, errorCodeOf e = some code →
    code ≠ [] ∧ NoSecret code ∧ looksLikeSecret code = false ∧ uncut code = true
  | _ => True

/-- **A record describes its outcome** exactly when the error code can be recorded. The codes of the
call's own errors can. -/
theorem emitted_eq_record_iff (outcome : Outcome T E) :
    outcome.emitted = outcome.record ↔ outcome.Legible := by
  rw [emitted, record, emitTelemetry, Record.mk.injEq]
  cases outcome with
  | value v => simp [errorCode, Legible]
  | cancelledError => exact iff_of_true ⟨rfl, by rw [errorCode]; decide +kernel⟩ trivial
  | timeoutError => exact iff_of_true ⟨rfl, by rw [errorCode]; decide +kernel⟩ trivial
  | error e =>
    simp only [errorCode, Legible, true_and, ← scrubString_eq_self_iff]
    rcases errorCodeOf e with - | code
    · simp
    · by_cases hempty : code = [] <;> simp [Option.filter, hempty]

end Outcome

/-! ### What a call emits -/

/-- An event that settles a fresh call, and whose source is then gone. -/
theorem step_start (first : Event T E) :
    Call.step .start first =
      ⟨some first.outcome, false, false, !first.isAnswer, [first.outcome.emitted]⟩ := by
  cases first <;> rfl

/-- **A settled call still emits what the request comes to.** -/
theorem run_settled (outcome : Outcome T E) (pending : Bool) (telemetry : List Record)
    (events : List (Event T E)) :
    run Call.step ⟨some outcome, false, false, pending, telemetry⟩ events =
      ⟨some outcome, false, false, pending && events.all (!·.isAnswer), telemetry ++
        if pending then (events.find? Event.isAnswer).toList.map (·.outcome.emitted) else []⟩ := by
  induction events generalizing pending telemetry with
  | nil => simp
  | cons event events ih =>
    rw [run_cons]
    cases pending <;> cases event <;>
      simp [Call.step, Call.emit, Call.settle, ih, find?_cons, Event.isAnswer] <;> rfl

/-- **The first event decides what the call settles with.** The one record that describes this
outcome is emitted, and no other, exactly when the request does not settle after the call and the
code of a rejection can be recorded. -/
theorem settles_with_first (first : Event T E) (rest : List (Event T E)) :
    (run Call.step .start (first :: rest)).outcome = some first.outcome ∧
      ((run Call.step .start (first :: rest)).telemetry = [first.outcome.record] ↔
        (first.isAnswer = true ∨ ∀ event ∈ rest, event.isAnswer = false) ∧
          first.outcome.Legible) := by
  rw [run_cons, step_start, run_settled, ← Outcome.emitted_eq_record_iff]
  cases first.isAnswer
  · simp [find?_eq_none, and_comm]
  · simp

/-- An answer after the timeout is reported as a second outcome. -/
theorem late_answer : (run Call.step .start [.timeout, (.fulfilled () : Event Unit Unit)]).telemetry
    = [⟨false, js "timeout"⟩, ⟨true, none⟩] := by
  decide +kernel

/-- The name of a `SyntaxError` is taken for a secret. -/
example : (run Call.step .start
    [(.rejected ⟨(), none, js "SyntaxError"⟩ : Event Unit Unit)]).telemetry =
      [⟨false, redacted⟩] := by
  decide +kernel

end Utix.Horizon

import Utix.Js.Date
import Utix.Js.Value
import Utix.Lib.Dict
import Utix.Lifecycle.Machine

/-!
# The worker queue

`createWorkerFramework` of `core/workers/queue.ts`. Jobs wait in a map, a drain hands the due ones
to their handlers, and a handler settles: at once when it returns or throws, later when it returned
a promise.

## Moments

A handler is code of the caller, and nothing stops it from calling the framework again. So the
framework is a machine that takes one small step at a time, and its state includes the call stack:
which handlers are being called, and which drains are in the middle of their loop. Code of the
caller runs when the stack is empty or a handler is on top; a promise settles when the stack is
empty. A step that is not possible in a state does nothing.

## What is kept of the data

Times and delays are whole milliseconds. A promise leaves `inFlightSet` when it settles. Telemetry
and audit events are not part of the state.
-/

namespace Utix.Workers

open Js Lib Lifecycle

/-! ### Jobs -/

/-- `lastError` -/
structure JobError where
  code : JsString
  message : JsString
  deriving DecidableEq

structure JobPayload where
  id : JsString
  operation : JsString
  params : Fields
  dedupeKey : Option JsString
  maxAttempts : ℤ
  attempts : ℕ
  status : JobStatus
  enqueuedAt : JsString
  nextAttemptAt : Option JsString
  lastError : Option JobError
  correlationId : JsString
  deriving DecidableEq

structure JobInput where
  operation : JsString
  params : Option Fields := none
  dedupeKey : Option JsString := none
  maxAttempts : Option ℤ := none
  correlationId : Option JsString := none
  delayMs : Option ℤ := none
  idempotencyKey : Option JsString := none
  principal : Option JsString := none

/-- `RetryPolicy`, with the values of `DEFAULT_POLICY`. -/
structure RetryPolicy where
  retryDelayMs : ℤ := 250
  maxAttempts : ℤ := 3
  idempotencyTtlMs : ℤ := 24 * 60 * 60 * 1000

/-- The ids that `newCorrelationId` hands out, one after the other: no two are the same. -/
structure IdSupply where
  text : ℕ → JsString
  injective : Function.Injective text

/-- The policy of a framework, and what its environment decides. -/
structure WorkerConfig where
  policy : RetryPolicy := {}
  ids : IdSupply
  /-- What `Date.parse` makes of a text in none of the forms the language fixes. -/
  otherDate : JsString → Option ℤ := fun _ ↦ none

/-- What is kept of a registered handler. -/
structure Registration where
  retryDelayMs : ℤ
  maxAttempts : ℤ
  deriving DecidableEq

inductive ShutdownPhase
  | idle
  | cancelling
  | stopped
  deriving DecidableEq

structure RunSummary where
  ran : ℕ := 0
  succeeded : ℕ := 0
  failed : ℕ := 0
  retried : ℕ := 0
  deadLettered : ℕ := 0
  cancelled : ℕ := 0
  inFlight : ℕ := 0
  deriving DecidableEq

/-! ### The state -/

/-- A call of a handler that has not settled. -/
structure Invocation where
  /-- Distinguishes the calls. -/
  ticket : ℕ
  job : JsString
  registration : Registration
  /-- The status in which `runJob` found the job. Nothing reads it. -/
  found : JobStatus
  deriving DecidableEq

/-- A `drain` after its loop, or on its way there. -/
structure DrainCall where
  due : List JsString
  inherited : List JsString
  deriving DecidableEq

/-- What the call stack holds. -/
inductive Frame
  /-- Inside `registration.handler(job.params, context)`. -/
  | handler (invocation : Invocation)
  /-- In the loop over the due jobs, with those still to run; of a `drain` if there is a call. -/
  | draining (due : List JsString) (summary : RunSummary) (call : Option DrainCall)
  /-- In `processJob`, after `runJob` has called the handler. -/
  | processing (summary : RunSummary)
  deriving DecidableEq

/-- A `drain` that awaits the handlers with these tickets. -/
structure Waiting where
  call : DrainCall
  summary : RunSummary
  tickets : List ℕ
  deriving DecidableEq

/-- The state of a framework. -/
structure Framework where
  registrations : Dict JsString Registration := .empty
  jobs : Dict JsString JobPayload := .empty
  phase : ShutdownPhase := .idle
  shutdownReason : Option JsString := none
  /-- `inFlightSet`: the calls that returned a promise. -/
  pending : List Invocation := []
  /-- The call stack, innermost first. -/
  stack : List Frame := []
  waiting : List Waiting := []
  /-- The summaries that have been returned. -/
  returned : List RunSummary := []
  nextId : ℕ := 0
  nextTicket : ℕ := 0

/-- The call of a handler in a frame. -/
def Frame.invocation : Frame → Option Invocation
  | .handler invocation => some invocation
  | _ => none

section

variable (s : Framework)

/-- **The handler calls in flight**: those that returned a promise, and those on the stack. -/
def Framework.inFlight : List Invocation :=
  s.pending ++ s.stack.filterMap Frame.invocation

/-- Code of the caller is running. -/
def Framework.callerRuns : Bool :=
  match s.stack with
  | [] => true
  | .handler _ :: _ => true
  | _ => false

/-- Assignments to the fields of a job. -/
def Framework.change (id : JsString) (f : JobPayload → JobPayload) : Framework :=
  { s with jobs := s.jobs.modify id f }

/-! ### Moving a job -/

/-- `move(job, event, …)`, when the result is not looked at: a refused move changes nothing. -/
def JobPayload.move (job : JobPayload) (event : JobEvent) : JobPayload :=
  match job.status.after event with
  | none => job
  | some status => { job with status := status }

section

variable (config : WorkerConfig)

section

variable (job : JobPayload)

def isDue (now : ℤ) : Bool :=
  if job.status ≠ .queued ∧ job.status ≠ .retrying then false
  else
    match job.nextAttemptAt with
    | none => true
    | some text => (Date.parse config.otherDate text).any fun instant ↦ instant ≤ now

/-- Twice `retryBackoff(baseDelayMs, attempt)`: an attempt that was reset to 0 halves the delay. -/
def twiceRetryBackoff (baseDelayMs : ℤ) (attempt : ℕ) : ℤ := baseDelayMs * 2 ^ min attempt 31

/-- The time value of `new Date(now + retryBackoff(baseDelayMs, attempt))`, which drops a
fraction. -/
def nextAttempt (now baseDelayMs : ℤ) (attempt : ℕ) : ℤ :=
  (2 * now + twiceRetryBackoff baseDelayMs attempt).tdiv 2

/-- What a handler throws or a promise is rejected with, unless it is `undefined`. -/
inductive Thrown
  /-- An `Error`, with its `code` if that is a string. -/
  | error (name message : JsString) (code : Option JsString)
  /-- Something else, with its `code` if it is an object that has a string there. -/
  | value (code : Option JsString)

def errorCodeOf : Thrown → JsString
  | .error name _ code => code.getD name
  | .value code => code.getD (js "unknown")

/-- `error instanceof Error ? error.message : otherwise` -/
def Thrown.messageOr (otherwise : JsString) : Thrown → JsString
  | .error _ message _ => message
  | .value _ => otherwise

/-- `handleFailure(job, registration, error)`, with the reading of the clock: the job it leaves, and
whether it threw because no `Date` holds the next attempt. -/
def handleFailure (registration : Registration) (error : Thrown) (now : ℤ) : JobPayload × Bool :=
  let job := { job with
    lastError := some ⟨errorCodeOf error, error.messageOr (js "unknown failure")⟩ }
  if job.maxAttempts ≤ job.attempts then (job.move .exhaust, false)
  else
    let job := job.move .fail
    match Date.toISOString (nextAttempt now registration.retryDelayMs job.attempts) with
    | none => (job, true)
    | some text => ({ job with nextAttemptAt := some text }, false)

/-- The message of the `WorkerCancelledError` that `settle` makes. -/
def cancelledMessage (operation : JsString) (reason : Option JsString) : JsString :=
  js "Cancelled during " ++ operation ++ js ": " ++ reason.getD (js "shutdown")

/-- The branch of `settle` for an aborted signal. -/
def settleCancelled (reason : Option JsString) (error : Option Thrown) : JobPayload :=
  let message := match error with
    | none => cancelledMessage job.operation reason
    | some error => error.messageOr (js "cancelled")
  let job := { job with lastError := some ⟨js "cancelled", message⟩ }
  if job.maxAttempts ≤ job.attempts then job.move .exhaust else job.move .fail

/-- `settle(error)` on the job: the job it leaves, and whether it threw. -/
def settleJob (phase : ShutdownPhase) (reason : Option JsString) (registration : Registration)
    (error : Option Thrown) (now : ℤ) (job : JobPayload) : JobPayload × Bool :=
  -- the signal is aborted from `cancel` on
  if phase ≠ .idle then (settleCancelled job reason error, false)
  else
    match error with
    | none => ({ job.move .succeed with lastError := none }, false)
    | some error => handleFailure job registration error now

/-! ### Running a job -/

/-- The part of `runJob` on the job itself, when no handler is registered. -/
def runUnregistered : JobPayload :=
  JobPayload.move { job with
    attempts := job.attempts + 1
    lastError := some
      ⟨js "unregistered", js "No handler registered for " ++ job.operation⟩ } .deadLetter

/-- The part of `runJob` on the job itself, before its handler is called. -/
def runStarted : JobPayload :=
  JobPayload.move { job with attempts := job.attempts + 1 } .start

end

/-- `runJob(job)`, up to the call of the handler: the call, if there is a handler. The result of the
`start` move is not looked at. -/
def runJob (id : JsString) : Framework × Option Invocation :=
  match s.jobs.get id with
  | none => (s, none)
  | some job =>
    match s.registrations.get job.operation with
    | none => (s.change id runUnregistered, none)
    | some registration =>
      ({ s.change id runStarted with nextTicket := s.nextTicket + 1 },
        some ⟨s.nextTicket, id, registration, job.status⟩)

section

variable (summary : RunSummary)

def bumpSummary (job : JobPayload) : RunSummary :=
  if (job.lastError.map JobError.code) = some (js "cancelled") then
    { summary with cancelled := summary.cancelled + 1 }
  else
    match job.status with
    | .succeeded => { summary with succeeded := summary.succeeded + 1 }
    | .retrying => { summary with retried := summary.retried + 1 }
    | .deadLettered => { summary with deadLettered := summary.deadLettered + 1 }
    | _ => { summary with failed := summary.failed + 1 }

/-- `bumpSummary` for the job with an id. -/
def Framework.bump (id : JsString) : RunSummary :=
  match s.jobs.get id with
  | none => summary
  | some job => bumpSummary summary job

/-- `summary.inFlight = inFlightSet.size; return summary` -/
def Framework.return' : Framework :=
  { s with returned := s.returned ++ [{ summary with inFlight := s.pending.length }] }

end

/-! ### The operations -/

def findingDedupe (jobs : Dict JsString JobPayload) (key : JsString) : Option JobPayload :=
  jobs.values.find? fun job ↦
    job.dedupeKey = some key ∧ (job.status = .queued ∨ job.status = .retrying)

/-- `register(operation, handler, custom)`; `none` is an exception. -/
def register (s : Framework) (operation : JsString) (retryDelayMs maxAttempts : Option ℤ) :
    Option Framework :=
  if (s.registrations.get operation).isSome then none
  else some { s with
    registrations := s.registrations.set operation
      ⟨retryDelayMs.getD config.policy.retryDelayMs, maxAttempts.getD config.policy.maxAttempts⟩ }

/-- The `nextAttemptAt` of a new job; `none` is an exception. -/
def firstAttempt (input : JobInput) (now : ℤ) : Option (Option JsString) :=
  match input.delayMs with
  | none => some none
  | some delay => if 0 < delay then (Date.toISOString (now + delay)).map some else some none

/-- The job that a new input makes; `none` is an exception. -/
def newJob (s : Framework) (input : JobInput) (now : ℤ) : Option JobPayload := do
  let enqueuedAt ← Date.toISOString now
  let nextAttemptAt ← firstAttempt input now
  some {
    id := config.ids.text s.nextId
    operation := input.operation
    params := input.params.getD []
    dedupeKey := input.dedupeKey
    maxAttempts := input.maxAttempts.getD config.policy.maxAttempts
    attempts := 0
    status := .queued
    enqueuedAt := enqueuedAt
    nextAttemptAt := nextAttemptAt
    lastError := none
    correlationId := input.correlationId.getD (config.ids.text (s.nextId + 1)) }

/-- The pending job that an input with a dedupe key stands for. -/
def duplicateOf (input : JobInput) : Option JobPayload :=
  match input.dedupeKey with
  | none => none
  -- the empty key is falsy
  | some key => if key = [] then none else findingDedupe s.jobs key

/-- `enqueue(input)`, with the reading of the clock; `none` is an exception. -/
def enqueue (s : Framework) (input : JobInput) (now : ℤ) : Option (JobPayload × Framework) :=
  match duplicateOf s input with
  | some existing => some (existing, s)
  | none =>
    (newJob config s input now).map fun job ↦
      (job, { s with jobs := s.jobs.set job.id job, nextId := s.nextId + 2 })

/-- The ids of the jobs that satisfy `p`, in the order of the map. -/
def Framework.idsWhere (p : JobPayload → Bool) : List JsString :=
  (s.jobs.entries.filter fun entry ↦ p entry.2).map Prod.fst

/-- `drainDueJobs(now)` and `drain(now)`, up to their loop. -/
def startDrain (s : Framework) (now : ℤ) (awaits : Bool) : Framework :=
  if s.phase ≠ .idle then s.return' {}
  else
    let due := s.idsWhere fun job ↦ isDue config job now
    let inherited := s.idsWhere fun job ↦ job.status = .running
    { s with stack :=
        .draining due {} (if awaits then some ⟨due, inherited⟩ else none) :: s.stack }

end

/-- `processJob(id)`, up to the call of the handler. -/
def processJob (id : JsString) : Framework :=
  match s.jobs.get id with
  | none => { s with returned := s.returned ++ [{}] }
  | some job =>
    if job.status.isTerminal then { s with returned := s.returned ++ [{}] }
    else if s.phase ≠ .idle then s.return' {}
    else
      match runJob s id with
      | (s, none) => s.return' (s.bump { ran := 1 } id)
      | (s, some invocation) =>
        { s with stack := .handler invocation :: .processing { ran := 1 } :: s.stack }

/-- `retryJob(id)` on the job. -/
def retried (job : JobPayload) : JobPayload :=
  match job.status.after .retry with
  | none => job
  | some status => { job with status := status, nextAttemptAt := none, attempts := 0 }

def cancel (reason : JsString) : Framework :=
  if s.phase ≠ .idle then s
  else { s with phase := .cancelling, shutdownReason := some reason }

/-! ### Steps inside a call -/

/-- The end of the loop of a drain: `drainDueJobs` returns, `drain` awaits the handlers in
flight. -/
def endDrain (summary : RunSummary) : Option DrainCall → Framework
  | none => s.return' summary
  | some call =>
    { s with waiting := s.waiting ++ [⟨call, summary, s.pending.map Invocation.ticket⟩] }

/-- The loop of a drain takes its next job, or ends. -/
def advance : Framework :=
  match s.stack with
  | .draining [] summary call :: frames => endDrain { s with stack := frames } summary call
  | .draining (id :: due) summary call :: frames =>
    let summary := { summary with ran := summary.ran + 1 }
    match runJob s id with
    | (s, none) => { s with stack := .draining due (s.bump summary id) call :: frames }
    | (s, some invocation) =>
      { s with stack := .handler invocation :: .draining due summary call :: frames }
  | _ => s

/-- How the call of a handler ends. -/
inductive Outcome
  /-- It returns; or it throws, `none` being `undefined`. -/
  | settles (error : Option Thrown)
  /-- It returns a promise. -/
  | promises

/-- `settle(error)` for a call in flight: the framework it leaves, and whether it threw. -/
def settle (invocation : Invocation) (error : Option Thrown) (now : ℤ) : Framework × Bool :=
  let outcome := settleJob s.phase s.shutdownReason invocation.registration error now
  (s.change invocation.job fun job ↦ (outcome job).1,
    (s.jobs.get invocation.job).any fun job ↦ (outcome job).2)

/-- The operation that called the handler goes on. It counts the job if that has settled. -/
def resumeCaller (id : JsString) (settled : Bool) : Framework :=
  match s.stack with
  | .draining due summary call :: frames =>
    { s with
      stack := .draining due (if settled then s.bump summary id else summary) call :: frames }
  | .processing summary :: frames =>
    Framework.return' { s with stack := frames } (if settled then s.bump summary id else summary)
  | _ => s

/-- An exception leaves the operation that called the handler. -/
def abortCaller : Framework :=
  match s.stack with
  | .draining _ _ _ :: frames => { s with stack := frames }
  | .processing _ :: frames => { s with stack := frames }
  | _ => s

/-- The handler on top of the stack ends. -/
def finish (outcome : Outcome) (now : ℤ) : Framework :=
  match s.stack with
  | .handler invocation :: frames =>
    match outcome with
    | .promises =>
      resumeCaller { s with stack := frames, pending := s.pending ++ [invocation] }
        invocation.job false
    | .settles error =>
      match settle { s with stack := frames } invocation error now with
      | (s, true) => abortCaller s
      | (s, false) => resumeCaller s invocation.job true
  | _ => s

/-- A promise settles. When `settle` throws, the drains that await the promise are rejected. -/
def settlePromise (ticket : ℕ) (error : Option Thrown) (now : ℤ) : Framework :=
  match s.stack, s.pending.find? fun invocation ↦ invocation.ticket = ticket with
  | [], some invocation =>
    match settle { s with pending := s.pending.erase invocation } invocation error now with
    | (s, true) => { s with waiting := s.waiting.filter fun w ↦ ticket ∉ w.tickets }
    | (s, false) => s
  | _, _ => s

/-- The summary of a `drain` whose handlers have settled. -/
def drainSummary (w : Waiting) : RunSummary :=
  let summary := w.call.due.foldl s.bump w.summary
  (w.call.inherited.filter fun id ↦ id ∉ w.call.due).foldl
    (fun summary id ↦ s.bump { summary with ran := summary.ran + 1 } id) summary

/-- A `drain` goes on, once all the handlers it awaits have settled. -/
def resumeDrain (index : ℕ) : Framework :=
  match s.stack, s.waiting[index]? with
  | [], some w =>
    if s.pending.any fun invocation ↦ invocation.ticket ∈ w.tickets then s
    else Framework.return' { s with waiting := s.waiting.eraseIdx index } (drainSummary s w)
  | _, _ => s

end

/-! ### The machine -/

/-- The steps of a framework, with the clock readings they make. -/
inductive Step
  | register (operation : JsString) (retryDelayMs maxAttempts : Option ℤ)
  | enqueue (input : JobInput) (now : ℤ)
  | drainDueJobs (now : ℤ)
  | drain (now : ℤ)
  | processJob (id : JsString)
  | retryJob (id : JsString)
  | deadLetter (id : JsString)
  | cancel (reason : JsString)
  /-- The loop of the drain on top of the stack goes on. -/
  | advance
  /-- The handler on top of the stack ends. -/
  | finish (outcome : Outcome) (now : ℤ)
  /-- A promise settles. -/
  | settlePromise (ticket : ℕ) (error : Option Thrown) (now : ℤ)
  /-- A `drain` that awaited handlers goes on. -/
  | resumeDrain (index : ℕ)

/-- A call by code of the caller. -/
def Framework.called (s next : Framework) : Framework := if s.callerRuns then next else s

def step (config : WorkerConfig) (s : Framework) : Step → Framework
  | .register operation retryDelayMs maxAttempts =>
    s.called ((register config s operation retryDelayMs maxAttempts).getD s)
  | .enqueue input now => s.called (((enqueue config s input now).map Prod.snd).getD s)
  | .drainDueJobs now => s.called (startDrain config s now false)
  | .drain now => s.called (startDrain config s now true)
  | .processJob id => s.called (processJob s id)
  | .retryJob id => s.called (s.change id retried)
  | .deadLetter id => s.called (s.change id fun job ↦ job.move .deadLetter)
  | .cancel reason => s.called (cancel s reason)
  | .advance => advance s
  | .finish outcome now => finish s outcome now
  | .settlePromise ticket error now => settlePromise s ticket error now
  | .resumeDrain index => resumeDrain s index

/-! ### A framework with one job -/

/-- Ids for runs on fixed inputs. -/
def letterIds : IdSupply where
  text n := List.replicate (n + 1) 97
  injective m n h := by simpa using congrArg List.length h

/-- A framework with these ids. -/
def letterConfig : WorkerConfig where
  ids := letterIds

/-- One job with one attempt, and a handler for it. -/
def oneJob : List Step :=
  [.register (js "export") none none,
    .enqueue { operation := js "export", maxAttempts := some 1 } 0]

end Utix.Workers

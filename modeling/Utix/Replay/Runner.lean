import Utix.Workers.Gate

/-!
# The replay runner

`core/replay/`: a projection is rebuilt from the event log into the slot of its version, and the
active pointer says which version readers follow.

`replayProjection` is asynchronous. Between two awaits of the event source it runs without
interruption, and such a stretch is one function here: `startReplay` up to the first read,
`afterRead` from an answer of the source to the next read or to the end, `readFailed` from a failed
read. What a run keeps in its local variables across an await is a `ReplayRun`. Everything else may
happen in between: other runs, pointer moves, the passage of time.

A stretch reads the clock once. The source reads it before every use of the lock, but a lock that
this run has just taken is its own at any later instant, so only the deadline could differ.

Any call on the store may throw. `Faults` says at which call of a stretch this happens; the call
then has no effect, the exception goes through `finally`, and the run is over. The reducer may throw
at any event as well.

Sequence numbers are rational, because whether they are whole is a check of the code. Schema
versions and projection versions are whole. The last two fields of a store are its history, which no
call reads.
-/

namespace Utix.Replay

open Js

variable {S P : Type}

/-! ### Events and upcasting -/

structure ReplayEvent (P : Type) where
  id : JsString
  sequence : ℚ
  type : JsString
  version : ℤ
  payload : P

/-- `Upcaster`; `none` is an exception. -/
structure Upcaster (P : Type) where
  type : JsString
  fromVersion : ℤ
  upcast : P → Option P

/-- `UpcasterRegistry`: at most one step for a type and version. -/
structure UpcasterRegistry (P : Type) where
  steps : List (Upcaster P)
  nodup : (steps.map fun step ↦ (step.type, step.fromVersion)).Nodup

/-- `createUpcasterRegistry(upcasters)`; `none` is the exception for a duplicate. -/
def createUpcasterRegistry (upcasters : List (Upcaster P)) : Option (UpcasterRegistry P) :=
  if h : (upcasters.map fun step ↦ (step.type, step.fromVersion)).Nodup then some ⟨upcasters, h⟩
  else none

inductive UpcastErrorCode
  | unsupportedEventVersion
  | upcastFailed
deriving DecidableEq

/-- The loop of `upcast`, over the versions that are left. -/
def liftPayload (registry : UpcasterRegistry P) (type : JsString) :
    ℕ → ℤ → P → Except UpcastErrorCode P
  | 0, _, payload => .ok payload
  | n + 1, version, payload =>
    match registry.steps.find? fun step ↦ step.type = type ∧ step.fromVersion = version with
    | none => .error .unsupportedEventVersion
    | some step =>
      match step.upcast payload with
      | none => .error .upcastFailed
      | some lifted => liftPayload registry type n (version + 1) lifted

def upcast (registry : UpcasterRegistry P) (event : ReplayEvent P) (targetVersion : ℤ) :
    Except UpcastErrorCode (ReplayEvent P) :=
  if targetVersion < event.version then .error .unsupportedEventVersion
  else
    match liftPayload registry event.type (targetVersion - event.version).toNat event.version
        event.payload with
    | .error code => .error code
    | .ok payload =>
      .ok (if event.version = targetVersion then event
        else { event with version := targetVersion, payload := payload })

/-- `ProjectionDefinition`. The reducer and the validation may throw: `none`. The versions are those
of the types that the object lists; for a type named like a member of `Object.prototype` the code
finds what every object inherits, which is not modelled. -/
structure ProjectionDefinition (S P : Type) where
  version : ℤ
  eventVersions : JsString → Option ℤ
  initial : S
  apply : S → ReplayEvent P → Option S
  validate : S → Option (List JsString)

/-! ### The store -/

/-- `ProjectionSlotStatus` -/
inductive SlotStatus
  | building
  | ready
  | failed
deriving DecidableEq

structure ProjectionSlot (S : Type) where
  state : S
  checkpoint : ℚ
  status : SlotStatus
  eventsApplied : ℕ
deriving DecidableEq

structure ActivePointer where
  version : ℤ
  previousVersion : Option ℤ
deriving DecidableEq

/-- The lock of a projection. -/
structure ReplayLock where
  owner : JsString
  expiresAt : ℤ
deriving DecidableEq

/-- A slot write: who wrote what over what, and where the pointer was. -/
structure SlotWrite (S : Type) where
  rebuild : Bool
  /-- The write was made in the stretch in which its run started. -/
  starting : Bool
  version : ℤ
  slot : ProjectionSlot S
  previous : Option (ProjectionSlot S)
  active : Option ActivePointer

/-- A pointer write, and where the pointer was before. -/
structure PointerWrite where
  pointer : ActivePointer
  before : Option ActivePointer
deriving DecidableEq

/-- `createMemoryProjectionStore()`, for one projection. -/
structure ProjectionStore (S : Type) where
  slots : ℤ → Option (ProjectionSlot S)
  active : Option ActivePointer
  lock : Option ReplayLock
  writes : List (SlotWrite S)
  moves : List PointerWrite

/-- The store without anything in it. -/
def ProjectionStore.empty : ProjectionStore S := ⟨fun _ ↦ none, none, none, [], []⟩

section

variable (store : ProjectionStore S)

def ProjectionStore.acquireLock (owner : JsString) (now ttl : ℤ) : Bool × ProjectionStore S :=
  match store.lock with
  | some held =>
    if held.owner ≠ owner ∧ now < held.expiresAt then (false, store)
    else (true, { store with lock := some ⟨owner, now + ttl⟩ })
  | none => (true, { store with lock := some ⟨owner, now + ttl⟩ })

def ProjectionStore.releaseLock (owner : JsString) : ProjectionStore S :=
  if store.lock.map ReplayLock.owner = some owner then { store with lock := none } else store

def ProjectionStore.putSlot (rebuild starting : Bool) (version : ℤ) (slot : ProjectionSlot S) :
    ProjectionStore S :=
  { store with
    slots := Function.update store.slots version (some slot)
    writes := store.writes ++
      [⟨rebuild, starting, version, slot, store.slots version, store.active⟩] }

def ProjectionStore.setActive (pointer : ActivePointer) : ProjectionStore S :=
  { store with active := some pointer, moves := store.moves ++ [⟨pointer, store.active⟩] }

end

/-! ### Options -/

inductive ReplayMode
  | rebuild
  | resume
deriving DecidableEq

inductive PoisonPolicy
  | halt
  | skip
deriving DecidableEq

structure ReplayOptions where
  mode : Option ReplayMode := none
  dryRun : Option Bool := none
  promote : Option Bool := none
  batchSize : Option ℤ := none
  maxRetries : Option ℤ := none
  retryDelayMs : Option ℤ := none
  poisonPolicy : Option PoisonPolicy := none
  maxSkipped : Option ℤ := none
  untilSequence : Option ℤ := none
  lockTtlMs : Option ℤ := none

structure ResolvedOptions where
  mode : ReplayMode
  dryRun : Bool
  promote : Bool
  poisonPolicy : PoisonPolicy
  batchSize : ℤ
  maxRetries : ℤ
  retryDelayMs : ℤ
  maxSkipped : ℤ
  lockTtlMs : ℤ
  untilSequence : Option ℤ
deriving DecidableEq

/-- `resolveOptions(options)` with `REPLAY_DEFAULTS` -/
def ReplayOptions.resolve (options : ReplayOptions) : ResolvedOptions where
  mode := options.mode.getD .rebuild
  dryRun := options.dryRun.getD false
  promote := options.promote.getD false
  poisonPolicy := options.poisonPolicy.getD .halt
  batchSize := options.batchSize.getD 500
  maxRetries := options.maxRetries.getD 3
  retryDelayMs := options.retryDelayMs.getD 200
  maxSkipped := options.maxSkipped.getD 0
  lockTtlMs := options.lockTtlMs.getD 300000
  untilSequence := options.untilSequence

/-- `validateOptions(def, opts)` finds nothing wrong. -/
def ResolvedOptions.isValid (opts : ResolvedOptions) (version : ℤ) : Bool :=
  1 ≤ version && 1 ≤ opts.batchSize && opts.batchSize ≤ 10000 && 0 ≤ opts.maxRetries &&
    opts.maxRetries ≤ 10 && 0 ≤ opts.retryDelayMs && 0 ≤ opts.maxSkipped && 0 < opts.lockTtlMs &&
    opts.untilSequence.all (0 ≤ ·) && !(opts.dryRun && opts.promote)

/-- `hasPermission(role, "admin:replay")` -/
def mayReplay : Workers.Role → Bool
  | .maintainer => true
  | _ => false

/-! ### Runs -/

inductive ReplayErrorCode
  | replayUnauthorized
  | invalidOptions
  | replayInProgress
  | versionActive
  | nothingToResume
  | sourceUnavailable
  | sequenceOutOfOrder
  | unsupportedEventVersion
  | poisonEvent
  | tooManySkipped
  | validationFailed
  | noPreviousVersion
deriving DecidableEq

/-- `SkippedEvent`, without the text of its reason. -/
structure SkippedEvent where
  eventId : JsString
  sequence : ℚ
deriving DecidableEq

/-- The local variables of `replayProjection` while it awaits the source. -/
structure ReplayRun (S P : Type) where
  definition : ProjectionDefinition S P
  opts : ResolvedOptions
  runId : JsString
  /-- The pointer, as it was when the run started. -/
  active : Option ActivePointer
  state : S
  checkpoint : ℚ
  eventsApplied : ℕ
  fromSequence : ℚ
  appliedBefore : ℕ
  attempt : ℕ
  retries : ℕ
  batches : ℕ
  eventsRead : ℕ
  eventsIgnored : ℕ
  eventsUpcast : ℕ
  skipped : List SkippedEvent

namespace ReplayRun

variable (run : ReplayRun S P)

def version : ℤ := run.definition.version

/-- `active?.version === version` -/
def live : Bool := run.active.map ActivePointer.version = some run.version

/-- `!opts.dryRun && !live` -/
def commitPerBatch : Bool := !run.opts.dryRun && !run.live

/-- `opts.mode === "rebuild"` -/
def isRebuild : Bool := run.opts.mode = .rebuild

/-- The slot `writeSlot(status)` writes. -/
def slot (status : SlotStatus) : ProjectionSlot S :=
  ⟨run.state, run.checkpoint, status, run.eventsApplied⟩

end ReplayRun

inductive ReplayStatus
  | promoted
  | ready
  | dryRun
deriving DecidableEq

/-- `ReplayReport`, without its ids and instants. -/
structure ReplayReport (S : Type) where
  status : ReplayStatus
  fromSequence : ℚ
  toSequence : ℚ
  batches : ℕ
  eventsRead : ℕ
  eventsApplied : ℕ
  eventsIgnored : ℕ
  eventsUpcast : ℕ
  skipped : List SkippedEvent
  retries : ℕ
  previousActiveVersion : Option ℤ
  state : Option S

/-- The report of a run that is through. -/
def ReplayRun.report (run : ReplayRun S P) (status : ReplayStatus) : ReplayReport S where
  status := status
  fromSequence := run.fromSequence
  toSequence := run.checkpoint
  batches := run.batches
  eventsRead := run.eventsRead
  eventsApplied := run.eventsApplied - run.appliedBefore
  eventsIgnored := run.eventsIgnored
  eventsUpcast := run.eventsUpcast
  skipped := run.skipped
  retries := run.retries
  previousActiveVersion := run.active.map ActivePointer.version
  state := if run.opts.dryRun then some run.state else none

/-- How a run ended: with a report, with a failure and the checkpoint it names, or with an
exception. -/
inductive Outcome (S : Type)
  | finished (report : ReplayReport S)
  | failed (code : ReplayErrorCode) (checkpoint : ℚ)
  | threw

/-- Where a stretch leaves its run. -/
inductive Progress (S P : Type)
  | waiting (run : ReplayRun S P)
  | ended (outcome : Outcome S)

/-- The calls of a stretch on the store. -/
inductive CallSite
  | getActive
  | getSlot
  | acquire
  | firstCheck
  | firstWrite
  | loopCheck
  | batchCheck
  | batchWrite
  | lastCheck
  | readyWrite
  | setActive
  | haltCheck
  | haltWrite
  | lostSlot
  | release
deriving DecidableEq

/-- Which calls of a stretch throw. -/
abbrev Faults := CallSite → Bool

/-! ### One event -/

/-- What the loop over a batch does after an event. -/
inductive EventResult (S P : Type)
  | next (run : ReplayRun S P)
  | stop (run : ReplayRun S P)
  | halted (run : ReplayRun S P) (code : ReplayErrorCode)

/-- The branch for `poison !== undefined`. -/
def ReplayRun.poison (run : ReplayRun S P) (event : ReplayEvent P) : EventResult S P :=
  if run.opts.poisonPolicy = .halt then .halted run .poisonEvent
  else
    let skipped := run.skipped ++ [⟨event.id, event.sequence⟩]
    if run.opts.maxSkipped < skipped.length then
      .halted { run with skipped := skipped } .tooManySkipped
    else .next { run with skipped := skipped, checkpoint := event.sequence }

/-- The body of the loop over a batch. `throws` says whether the reducer throws this time. -/
def ReplayRun.step (run : ReplayRun S P) (registry : UpcasterRegistry P)
    (throws : ReplayEvent P → Bool) (event : ReplayEvent P) : EventResult S P :=
  if run.opts.untilSequence.any fun u : ℤ ↦ (u : ℚ) < event.sequence then .stop run
  else if ¬ event.sequence.isInt ∨ event.sequence ≤ run.checkpoint then
    .halted run .sequenceOutOfOrder
  else
    let read := { run with eventsRead := run.eventsRead + 1 }
    match run.definition.eventVersions event.type with
    | none =>
      .next { read with
        eventsIgnored := run.eventsIgnored + 1
        checkpoint := event.sequence }
    | some targetVersion =>
      match upcast registry event targetVersion with
      | .error .unsupportedEventVersion => .halted read .unsupportedEventVersion
      | .error .upcastFailed => read.poison event
      | .ok lifted =>
        let lifting := { read with
          eventsUpcast :=
            if event.version = targetVersion then run.eventsUpcast else run.eventsUpcast + 1 }
        match if throws event then none else run.definition.apply run.state lifted with
        | none => lifting.poison event
        | some state =>
          .next { lifting with
            state := state
            eventsApplied := run.eventsApplied + 1
            checkpoint := event.sequence }

/-- The loop over a batch. -/
def ReplayRun.steps (registry : UpcasterRegistry P) (throws : ReplayEvent P → Bool) :
    ReplayRun S P → List (ReplayEvent P) → EventResult S P
  | run, [] => .next run
  | run, event :: batch =>
    match run.step registry throws event with
    | .next run' => steps registry throws run' batch
    | result => result

/-! ### Stretches -/

section Stretches

variable (run : ReplayRun S P) (starting : Bool) (now : ℤ) (faults : Faults)
  (store : ProjectionStore S)

/-- `finally`: the lock is given back. -/
def ReplayRun.finally (outcome : Outcome S) : ProjectionStore S × Progress S P :=
  if run.opts.dryRun then (store, .ended outcome)
  else if faults .release then (store, .ended .threw)
  else (store.releaseLock run.runId, .ended outcome)

/-- `ownsLock()`; `none` is an exception. -/
def ReplayRun.ownsLock (site : CallSite) : Option (Bool × ProjectionStore S) :=
  if run.opts.dryRun then some (true, store)
  else if faults site then none
  else some (store.acquireLock run.runId now run.opts.lockTtlMs)

/-- `writeSlot(status)`; `none` is an exception. -/
def ReplayRun.writeSlot (status : SlotStatus) (site : CallSite) : Option (ProjectionStore S) :=
  if faults site then none
  else some (store.putSlot run.isRebuild starting run.version (run.slot status))

def ReplayRun.lostLock : ProjectionStore S × Progress S P :=
  if faults .lostSlot then run.finally faults store .threw
  else
    run.finally faults store
      (.failed .replayInProgress (((store.slots run.version).map ProjectionSlot.checkpoint).getD 0))

def ReplayRun.halt (code : ReplayErrorCode) : ProjectionStore S × Progress S P :=
  if run.commitPerBatch then
    match run.ownsLock now faults store .haltCheck with
    | none => run.finally faults store .threw
    | some (false, store) => run.finally faults store (.failed code run.checkpoint)
    | some (true, store) =>
      match run.writeSlot starting faults store .failed .haltWrite with
      | none => run.finally faults store .threw
      | some store => run.finally faults store (.failed code run.checkpoint)
  else run.finally faults store (.failed code run.checkpoint)

/-- The pointer moves to the version that was built. -/
def ReplayRun.promote : ProjectionStore S × Progress S P :=
  if faults .setActive then run.finally faults store .threw
  else
    run.finally faults
      (store.setActive ⟨run.version, run.active.map ActivePointer.version⟩)
      (.finished (run.report .promoted))

/-- From the end of the loop to the end of the run. -/
def ReplayRun.finish : ProjectionStore S × Progress S P :=
  match run.ownsLock now faults store .lastCheck with
  | none => run.finally faults store .threw
  | some (false, store) => run.lostLock faults store
  | some (true, store) =>
    match run.definition.validate run.state with
    | none => run.finally faults store .threw
    | some violations =>
      if violations ≠ [] then run.halt starting now faults store .validationFailed
      else if run.opts.dryRun then run.finally faults store (.finished (run.report .dryRun))
      else
        match run.writeSlot starting faults store .ready .readyWrite with
        | none => run.finally faults store .threw
        | some store =>
          if run.opts.promote && !run.live then run.promote faults store
          else run.finally faults store (.finished (run.report .ready))

/-- The head of the loop: up to the next read, or past the last one. -/
def ReplayRun.loop : ProjectionStore S × Progress S P :=
  match run.ownsLock now faults store .loopCheck with
  | none => run.finally faults store .threw
  | some (false, store) => run.lostLock faults store
  | some (true, store) =>
    if run.opts.untilSequence.any fun u : ℤ ↦ (u : ℚ) ≤ run.checkpoint then
      run.finish starting now faults store
    else (store, .waiting { run with attempt := 0 })

/-- From the end of a batch to the head of the loop, or past it. -/
def ReplayRun.commit (done : Bool) : ProjectionStore S × Progress S P :=
  match run.ownsLock now faults store .batchCheck with
  | none => run.finally faults store .threw
  | some (false, store) => run.lostLock faults store
  | some (true, store) =>
    match (if run.commitPerBatch then run.writeSlot starting faults store .building .batchWrite
      else some store) with
    | none => run.finally faults store .threw
    | some store =>
      if done then run.finish starting now faults store
      else run.loop starting now faults store

/-- **From an answer of the source to the next read**, or to the end of the run. -/
def afterRead (registry : UpcasterRegistry P) (throws : ReplayEvent P → Bool)
    (batch : List (ReplayEvent P)) : ProjectionStore S × Progress S P :=
  if batch.isEmpty then run.finish false now faults store
  else
    match ReplayRun.steps registry throws { run with batches := run.batches + 1 } batch with
    | .halted run code => run.halt false now faults store code
    | .next run => run.commit false now faults store false
    | .stop run => run.commit false now faults store true

/-- **From a failed read**: another attempt after a delay, or the end of the run. -/
def readFailed : ProjectionStore S × Progress S P :=
  if run.attempt < run.opts.maxRetries then
    (store, .waiting { run with attempt := run.attempt + 1, retries := run.retries + 1 })
  else run.halt false now faults store .sourceUnavailable

/-- From the lock to the first read. -/
def ReplayRun.begin : ProjectionStore S × Progress S P :=
  match run.ownsLock now faults store .firstCheck with
  | none => run.finally faults store .threw
  | some (false, store) => run.lostLock faults store
  | some (true, store) =>
    match (if run.commitPerBatch && run.isRebuild then
        run.writeSlot true faults store .building .firstWrite
      else some store) with
    | none => run.finally faults store .threw
    | some store => run.loop true now faults store

end Stretches

section

variable (definition : ProjectionDefinition S P)

/-- A run as its local variables are first set. -/
def ReplayRun.fresh (opts : ResolvedOptions) (runId : JsString) (active : Option ActivePointer)
    (slot : ProjectionSlot S) : ReplayRun S P where
  definition := definition
  opts := opts
  runId := runId
  active := active
  state := slot.state
  checkpoint := slot.checkpoint
  eventsApplied := slot.eventsApplied
  fromSequence := slot.checkpoint
  appliedBefore := slot.eventsApplied
  attempt := 0
  retries := 0
  batches := 0
  eventsRead := 0
  eventsIgnored := 0
  eventsUpcast := 0
  skipped := []

/-- What a rebuild starts from. -/
def ProjectionDefinition.blank : ProjectionSlot S :=
  ⟨definition.initial, 0, .building, 0⟩

/-- **`replayProjection(definition, deps, options)`, up to the first read.** -/
def startReplay (role : Workers.Role) (options : ReplayOptions) (runId : JsString) (now : ℤ)
    (faults : Faults) (store : ProjectionStore S) : ProjectionStore S × Progress S P :=
  let opts := options.resolve
  if opts.isValid definition.version = false then (store, .ended (.failed .invalidOptions 0))
  else if mayReplay role = false then (store, .ended (.failed .replayUnauthorized 0))
  else if faults .getActive then (store, .ended .threw)
  else if store.active.map ActivePointer.version = some definition.version ∧
      opts.mode = .rebuild ∧ opts.dryRun = false then
    (store, .ended (.failed .versionActive 0))
  else
    match opts.mode with
    | .rebuild => enter (.fresh definition opts runId store.active definition.blank)
    | .resume =>
      if faults .getSlot then (store, .ended .threw)
      else
        match store.slots definition.version with
        | none => (store, .ended (.failed .nothingToResume 0))
        | some slot => enter (.fresh definition opts runId store.active slot)
where
  /-- The lock is taken, outside `try`. -/
  enter (run : ReplayRun S P) : ProjectionStore S × Progress S P :=
    if run.opts.dryRun then run.begin now faults store
    else if faults .acquire then (store, .ended .threw)
    else
      match store.acquireLock run.runId now run.opts.lockTtlMs with
      | (false, store) => (store, .ended (.failed .replayInProgress run.checkpoint))
      | (true, store) => run.begin now faults store

end

/-! ### Moving the pointer -/

structure RollbackReport where
  fromVersion : ℤ
  toVersion : ℤ
  checkpoint : ℚ
deriving DecidableEq

section

variable (store : ProjectionStore S)

/-- `swapActive(name, pick, reason, deps)`, with what `pick` picked. -/
def swapActive (role : Workers.Role) (toVersion : Option ℤ) :
    Except ReplayErrorCode RollbackReport × ProjectionStore S :=
  if mayReplay role = false then (.error .replayUnauthorized, store)
  else
    match toVersion.bind fun v ↦ (store.slots v).map fun slot ↦ (v, slot) with
    | none => (.error .noPreviousVersion, store)
    | some (v, slot) =>
      if slot.status ≠ .ready ∨ store.active.map ActivePointer.version = some v then
        (.error .noPreviousVersion, store)
      else
        (.ok ⟨((store.active.map ActivePointer.version).getD 0), v, slot.checkpoint⟩,
          store.setActive ⟨v, store.active.map ActivePointer.version⟩)

def promoteProjection (role : Workers.Role) (version : ℤ) :
    Except ReplayErrorCode RollbackReport × ProjectionStore S :=
  swapActive store role (some version)

def rollbackProjection (role : Workers.Role) :
    Except ReplayErrorCode RollbackReport × ProjectionStore S :=
  swapActive store role (store.active.bind ActivePointer.previousVersion)

end

end Utix.Replay

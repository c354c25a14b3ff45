import Utix.Lib.Run
import Utix.Workers.Effects

/-!
# The backpressure gate

`createBoundedEnqueueGate` of `core/workers/backpressure.ts`: a facade in front of
`WorkerFramework.enqueue` that counts the live jobs of a label. A full gate refuses a new job, or,
under `drop_oldest`, dead-letters the oldest waiting one to make room.

The count is read off the framework at every call, so nothing that happens behind the gate's back
can put it out of step: the capacity is exceeded only by the gate itself. It evicts *one* job,
whatever the excess: once the capacity has been lowered below the live count, an eviction does not
make room (`admitted_over_capacity`). Otherwise it does (`meets_capacityLaw`).

The law is stated about runs under observation. An observer remembers whether the capacity was
lowered below the live count and has not been free since (`Watched.draining`), which the code does
not record. The law then says that an answer `ok` means that the live jobs are within the capacity,
and that nothing is admitted while the gate is over its capacity or drains. `gateEnqueue_cases` says
once what an enqueue through the gate can do; the count is followed through each case by how one job
weighs in it (`weight`).
-/

namespace Utix.Workers

open Js Lib Lifecycle List Dict JsNum

/-! ### The gate -/

inductive OverflowPolicy
  | reject
  | dropOldest
  deriving DecidableEq

/-- The codes of `BackpressureErrorCode` that the gate answers. -/
inductive BackpressureErrorCode
  | full
  | unauthorized
  | invalidCapacity
  deriving DecidableEq

inductive Role
  | viewer
  | maintainer
  | service
  deriving DecidableEq

/-- `hasPermission(role, "admin:recovery")` -/
def Role.mayRecover : Role → Bool
  | .maintainer => true
  | _ => false

structure BackpressureOptions where
  maxConcurrent : JsNum
  maxCapacityCeiling : Option JsNum := none
  overflowPolicy : OverflowPolicy := .reject
  label : JsString

/-- The state of a gate. -/
structure Gate where
  label : JsString
  overflowPolicy : OverflowPolicy
  maxCapacityCeiling : JsNum
  maxConcurrent : JsNum
  admitted : ℕ := 0
  rejected : ℕ := 0
  evicted : ℕ := 0
  /-- The unresolved promises of `waitForCapacity`. -/
  waiters : List ℕ := []
  /-- `a.localeCompare(b) <= 0`, which the environment decides. -/
  collates : JsString → JsString → Bool

/-- `createBoundedEnqueueGate(framework, options)`; `none` is an exception. -/
def createBoundedEnqueueGate (options : BackpressureOptions)
    (collates : JsString → JsString → Bool) : Option Gate :=
  if isBlank options.label then none
  else if !options.maxConcurrent.isInteger || options.maxConcurrent.less (.ofInt 1) then none
  else some {
    label := options.label
    overflowPolicy := options.overflowPolicy
    maxCapacityCeiling := JsNum.max (.ofInt 1)
      (options.maxCapacityCeiling.getD options.maxConcurrent.timesTen)
    maxConcurrent := options.maxConcurrent
    collates := collates }

/-- `LIVE_STATUSES.has(status)` -/
def isLive : JobStatus → Bool
  | .queued | .retrying | .running => true
  | _ => false

/-- A live job of the label. -/
def isLiveOf (label : JsString) (job : JobPayload) : Bool :=
  startsWith job.operation label && isLive job.status

def countLive (s : Framework) (label : JsString) : ℕ :=
  (s.jobs.values.filter (isLiveOf label)).length

def oldestEvictable (gate : Gate) (s : Framework) : Option JobPayload :=
  ((s.jobs.values.filter fun job ↦ startsWith job.operation gate.label &&
    (job.status = .queued || job.status = .retrying)).insertionSort
      fun a b ↦ gate.collates a.enqueuedAt b.enqueuedAt = true).head?

/-- The gate has room. -/
def Gate.hasCapacity (gate : Gate) (s : Framework) : Bool :=
  (JsNum.ofInt (countLive s gate.label)).less gate.maxConcurrent

/-- What an `enqueue` of the gate answers, with the framework and the gate it leaves: `none` is an
exception. -/
abbrev GateReply := Option (Except BackpressureErrorCode JobPayload) × Framework × Gate

section

variable (config : WorkerConfig)

section

variable (s : Framework)

/-- `framework.enqueue({ ...input, correlationId })`, and the job is admitted. -/
def letIn (gate : Gate) (input : JobInput) (now : ℤ) : GateReply :=
  match enqueue config s input now with
  | none => (none, s, gate)
  | some (job, s) => (some (.ok job), s, { gate with admitted := gate.admitted + 1 })

/-- `input.correlationId ?? newCorrelationId()`: the id, and the framework that has handed it
out. -/
def correlate (input : JobInput) : JsString × Framework :=
  match input.correlationId with
  | some id => (id, s)
  | none => (config.ids.text s.nextId, { s with nextId := s.nextId + 1 })

def deadLetter (id : JsString) : Framework :=
  s.change id fun job ↦ job.move .deadLetter

/-- The job that a full gate evicts. -/
def victimOf (gate : Gate) (s : Framework) : Option JobPayload :=
  if gate.overflowPolicy = .dropOldest then oldestEvictable gate s else none

/-- `enqueue(input)` of the gate, with the reading of the clock. -/
def gateEnqueue (gate : Gate) (input : JobInput) (now : ℤ) : GateReply :=
  let (correlationId, s) := correlate config s input
  let input := { input with correlationId := some correlationId }
  if startsWith input.operation gate.label = false then letIn config s gate input now
  else if gate.hasCapacity s then letIn config s gate input now
  else
    match victimOf gate s with
    | some victim =>
      letIn config (deadLetter s victim.id) { gate with evicted := gate.evicted + 1 } input now
    -- all live jobs are running, or the policy is to reject
    | none => (some (.error .full), s, { gate with rejected := gate.rejected + 1 })

/-- `waitForCapacity()`; the promise resolves at once, or joins the waiters. -/
def waitForCapacity (gate : Gate) (promise : ℕ) : Gate :=
  if gate.hasCapacity s then gate else { gate with waiters := gate.waiters ++ [promise] }

end

structure CapacityAdjustment where
  previous : JsNum
  next : JsNum
  reason : JsString
  at' : JsString

/-- `adjustCapacity(auth, next, reason)`, with the reading of the clock. -/
def adjustCapacity (gate : Gate) (role : Role) (next : JsNum) (reason : JsString) (now : ℤ) :
    Option (Except BackpressureErrorCode CapacityAdjustment) × Gate :=
  if role.mayRecover = false then (some (.error .unauthorized), gate)
  else if !next.isInteger || next.less (.ofInt 1) then (some (.error .invalidCapacity), gate)
  else if gate.maxCapacityCeiling.less next then (some (.error .invalidCapacity), gate)
  else
    let adjusted := { gate with maxConcurrent := next }
    match Date.toISOString now with
    | none => (none, adjusted)
    | some at' =>
      (some (.ok ⟨gate.maxConcurrent, next, reason, at'⟩),
        if gate.maxConcurrent.less next then { adjusted with waiters := [] } else adjusted)

/-! ### The gate and its framework -/

/-- A framework behind a gate. -/
structure GatedFramework where
  framework : Framework := {}
  gate : Gate

/-- One step: a call of the gate by code of the caller, or any step of the framework. -/
inductive GateStep
  | enqueue (input : JobInput) (now : ℤ)
  | waitForCapacity (promise : ℕ)
  | adjustCapacity (role : Role) (next : JsNum) (reason : JsString) (now : ℤ)
  | framework (step : Step)

/-- The system after a step. -/
def gateStep (s : GatedFramework) : GateStep → GatedFramework
  | .enqueue input now =>
    if s.framework.callerRuns then
      let reply := gateEnqueue config s.framework s.gate input now
      ⟨reply.2.1, reply.2.2⟩
    else s
  | .waitForCapacity promise =>
    if s.framework.callerRuns then
      { s with gate := Workers.waitForCapacity s.framework s.gate promise }
    else s
  | .adjustCapacity role next reason now =>
    if s.framework.callerRuns then
      { s with gate := (Workers.adjustCapacity s.gate role next reason now).2 }
    else s
  | .framework c => { s with framework := step config s.framework c }

/-- A new gate in front of a framework that has taken some steps. -/
def gated (before : List Step) (gate : Gate) : GatedFramework where
  framework := run (step config) {} before
  gate := gate

end

/-! ### Counting live jobs -/

theorem countLive_eq (s : Framework) (label : JsString) :
    countLive s label = s.jobs.values.countP (isLiveOf label) :=
  countP_eq_length_filter.symm

/-- One for a live job of the label. -/
def weight (label : JsString) (job : JobPayload) : ℕ := if isLiveOf label job then 1 else 0

theorem weight_le (label : JsString) (job : JobPayload) : weight label job ≤ 1 := by
  rw [weight]
  split <;> omega

/-- Jobs lie under their own ids. -/
def JobsFiled (s : Framework) : Prop := ∀ id job, s.jobs.get id = some job → job.id = id

variable {t : Framework} {job : JobPayload} {s : Framework} {f : JobPayload → JobPayload}

/-- The count across a change of one job. -/
theorem countLive_modify {id : JsString} (hjobs : t.jobs = s.jobs.modify id f)
    (hget : s.jobs.get id = some job) (label : JsString) :
    countLive t label + weight label job = countLive s label + weight label (f job) := by
  have h := s.jobs.countP_modify id f (isLiveOf label)
  rw [hget, Option.elim_some, Option.elim_some] at h
  rw [countLive_eq, countLive_eq, hjobs]
  exact h

/-- The count across a new job. -/
theorem countLive_set (hjobs : t.jobs = s.jobs.set job.id job) (label : JsString) :
    countLive t label + (s.jobs.get job.id).elim 0 (weight label) =
      countLive s label + weight label job := by
  rw [countLive_eq, countLive_eq, hjobs]
  exact s.jobs.countP_set job.id job (isLiveOf label)

variable {config : WorkerConfig}

/-- An `enqueue` adds one live job at most, and with a new id it loses none. -/
theorem countLive_enqueue {input : JobInput} {now : ℤ}
    (h : enqueue config s input now = some (job, t)) (label : JsString) :
    countLive t label ≤ countLive s label + 1 ∧
      (Fresh config s → countLive s label ≤ countLive t label) := by
  rcases enqueue_cases h with rfl | ⟨hid, -, -, rfl⟩
  · exact ⟨Nat.le_succ _, fun _ ↦ le_rfl⟩
  have hcount := countLive_set (s := s) (t := { s with
    jobs := s.jobs.set job.id job, nextId := s.nextId + 2 }) rfl label
  have := weight_le label job
  refine ⟨by omega, fun hfresh ↦ ?_⟩
  rw [hid, hfresh s.nextId le_rfl, Option.elim_none] at hcount
  rw [hid]
  omega

/-! ### Jobs keep their ids and operations -/

/-- The change leaves the id and the operation of a job alone. -/
def KeepsIdentity (f : JobPayload → JobPayload) : Prop :=
  ∀ job, (f job).id = job.id ∧ (f job).operation = job.operation

theorem identity_move (job : JobPayload) (event : JobEvent) :
    (job.move event).id = job.id ∧ (job.move event).operation = job.operation := by
  rw [JobPayload.move]
  split <;> exact ⟨rfl, rfl⟩

theorem keepsIdentity_runStarted : KeepsIdentity runStarted := fun _ ↦ identity_move _ _

theorem keepsIdentity_deadLetter : KeepsIdentity fun job ↦ job.move .deadLetter :=
  fun _ ↦ identity_move _ _

theorem keepsIdentity_retried : KeepsIdentity retried := by
  intro job
  rw [retried]
  split <;> exact ⟨rfl, rfl⟩

theorem keepsIdentity_settleJob (phase : ShutdownPhase) (reason : Option JsString)
    (registration : Registration) (error : Option Thrown) (now : ℤ) :
    KeepsIdentity fun job ↦ (settleJob phase reason registration error now job).1 := by
  intro job
  simp only [settleJob]
  split
  · simp only [settleCancelled]
    split <;> exact identity_move _ _
  split
  · exact identity_move _ _
  simp only [handleFailure]
  split
  · exact identity_move _ _
  · split
    · exact identity_move _ _
    · exact identity_move _ _

theorem jobsFiled_modify (h : JobsFiled s) {id : JsString} (hf : KeepsIdentity f)
    (hjobs : t.jobs = s.jobs.modify id f) : JobsFiled t := by
  intro key job hget
  rw [hjobs, get_modify] at hget
  split at hget
  · obtain ⟨old, hold, rfl⟩ := Option.map_eq_some_iff.1 hget
    rw [(hf old).1]
    exact h key old hold
  · exact h key job hget

theorem jobsFiled_set (h : JobsFiled s) (hjobs : t.jobs = s.jobs.set job.id job) : JobsFiled t := by
  rw [JobsFiled, hjobs]
  exact forall_get_set h rfl

/-- **Every step files jobs under their ids.** -/
theorem jobsFiled_step (h : JobsFiled s) (c : Step) : JobsFiled (step config s c) := by
  rcases step_effect config s c with ⟨hjobs, -, -⟩ | ⟨job, -, -, -, hjobs, -, -⟩ |
    ⟨_, _, _, _, _, hjobs, -, -⟩ | ⟨_, _, hjobs, -, -⟩ | ⟨_, _, _, _, hjobs, -, -⟩ |
    ⟨_, hjobs, -, -⟩ | ⟨_, hjobs, -, -⟩
  · intro id job hget
    exact h id job (hjobs ▸ hget)
  · exact jobsFiled_set h hjobs
  · exact jobsFiled_modify h keepsIdentity_runStarted hjobs
  · exact jobsFiled_modify (f := runUnregistered) h (fun _ ↦ identity_move _ _) hjobs
  · exact jobsFiled_modify h (keepsIdentity_settleJob _ _ _ _ _) hjobs
  · exact jobsFiled_modify h keepsIdentity_retried hjobs
  · exact jobsFiled_modify h keepsIdentity_deadLetter hjobs

/-- In every run jobs lie under their own ids. -/
theorem jobsFiled_run (config : WorkerConfig) (steps : List Step) :
    JobsFiled (run (step config) {} steps) :=
  run_invariant JobsFiled (fun _ c h ↦ jobsFiled_step h c) (fun _ _ hget ↦ by cases hget) steps

/-! ### The cases of an enqueue -/

section Enqueue

variable (config : WorkerConfig) (s : Framework) (gate : Gate) (input : JobInput)

/-- The framework that has handed out the correlation id. -/
def correlated : Framework := (correlate config s input).2

/-- The input with its correlation id. -/
def labelled : JobInput :=
  { input with correlationId := some (correlate config s input).1 }

@[simp] theorem jobs_correlated : (correlated config s input).jobs = s.jobs := by
  rw [correlated, correlate]
  split <;> rfl

@[simp] theorem countLive_correlated (label : JsString) :
    countLive (correlated config s input) label = countLive s label := by
  rw [countLive, jobs_correlated, countLive]

theorem hasCapacity_correlated :
    gate.hasCapacity (correlated config s input) = gate.hasCapacity s := by
  rw [Gate.hasCapacity, countLive_correlated, Gate.hasCapacity]

theorem victimOf_correlated : victimOf gate (correlated config s input) = victimOf gate s := by
  rw [victimOf, victimOf, oldestEvictable, oldestEvictable, jobs_correlated]

/-- **What the gate does with a job**: it lets it pass, evicts another one first, or refuses. -/
theorem gateEnqueue_cases (now : ℤ) :
    ((startsWith input.operation gate.label = true → gate.hasCapacity s = true) ∧
      gateEnqueue config s gate input now =
        letIn config (correlated config s input) gate (labelled config s input) now) ∨
    (startsWith input.operation gate.label = true ∧ gate.hasCapacity s = false ∧
      ∃ victim, victimOf gate s = some victim ∧
        gateEnqueue config s gate input now =
          letIn config (deadLetter (correlated config s input) victim.id)
            { gate with evicted := gate.evicted + 1 } (labelled config s input) now) ∨
    (startsWith input.operation gate.label = true ∧ gate.hasCapacity s = false ∧
      victimOf gate s = none ∧
      gateEnqueue config s gate input now = (some (.error .full), correlated config s input,
        { gate with rejected := gate.rejected + 1 })) := by
  have hunfold : gateEnqueue config s gate input now =
      if startsWith input.operation gate.label = false then
        letIn config (correlated config s input) gate (labelled config s input) now
      else if gate.hasCapacity s then
        letIn config (correlated config s input) gate (labelled config s input) now
      else match victimOf gate s with
        | some victim => letIn config (deadLetter (correlated config s input) victim.id)
            { gate with evicted := gate.evicted + 1 } (labelled config s input) now
        | none => (some (.error .full), correlated config s input,
            { gate with rejected := gate.rejected + 1 }) := by
    rw [← hasCapacity_correlated config s gate input, ← victimOf_correlated config s gate input]
    rfl
  rw [hunfold]
  split
  · next hlabel =>
    refine .inl ⟨fun h ↦ ?_, rfl⟩
    rw [hlabel] at h
    cases h
  next hlabel =>
  have hmatch : startsWith input.operation gate.label = true := by simpa using hlabel
  split
  · next hcapacity => exact .inl ⟨fun _ ↦ hcapacity, rfl⟩
  next hcapacity =>
  have hfull : gate.hasCapacity s = false := by simpa using hcapacity
  split
  · next victim hvictim => exact .inr (.inl ⟨hmatch, hfull, victim, hvictim, rfl⟩)
  · next hvictim => exact .inr (.inr ⟨hmatch, hfull, hvictim, rfl⟩)

variable {s gate}

/-- The victim waits in the framework. -/
theorem victimOf_eq_some {victim : JobPayload} (hfiled : JobsFiled s)
    (h : victimOf gate s = some victim) :
    gate.overflowPolicy = .dropOldest ∧ s.jobs.get victim.id = some victim ∧
      weight gate.label victim = 1 ∧ weight gate.label (victim.move .deadLetter) = 0 := by
  rw [victimOf] at h
  split at h
  · next hpolicy =>
    have hmem := mem_of_mem_head? h
    rw [mem_insertionSort, mem_filter, Bool.and_eq_true] at hmem
    obtain ⟨⟨id, job⟩, hentry, rfl⟩ := mem_map.1 hmem.1
    have hget := mem_entries_iff.1 hentry
    have hstatus : job.status = .queued ∨ job.status = .retrying := by simpa using hmem.2.2
    refine ⟨hpolicy, by rw [hfiled id job hget]; exact hget, ?_, ?_⟩
    · rcases hstatus with hstatus | hstatus <;> simp [weight, isLiveOf, hmem.2.1, hstatus, isLive]
    · rcases hstatus with hstatus | hstatus <;>
        simp [weight, isLiveOf, JobPayload.move, hstatus, JobStatus.after_eq, isLive]
  · cases h

end Enqueue

/-! ### The capacity -/

/-- The capacity of a gate is a positive integer. -/
def Gate.Sized (gate : Gate) : Prop := ∃ n : ℤ, 1 ≤ n ∧ gate.maxConcurrent = .ofInt n

theorem sized_of_checks {x : JsNum} (h : (!x.isInteger || x.less (.ofInt 1)) = false) :
    ∃ n : ℤ, 1 ≤ n ∧ x = .ofInt n := by
  simp only [Bool.or_eq_false_iff, Bool.not_eq_eq_eq_not, Bool.not_false] at h
  obtain ⟨n, rfl⟩ := exists_ofInt h.1
  have hn := h.2
  rw [less_ofInt, decide_eq_false_iff_not] at hn
  exact ⟨n, by omega, rfl⟩

variable {gate : Gate}

/-- A gate that is created has a positive whole capacity, and nobody waits at it. -/
theorem create_eq_some {options : BackpressureOptions} {collates : JsString → JsString → Bool}
    (h : createBoundedEnqueueGate options collates = some gate) :
    gate.Sized ∧ gate.waiters = [] := by
  rw [createBoundedEnqueueGate] at h
  split at h
  · cases h
  split at h
  · cases h
  · next hchecks =>
    cases h
    exact ⟨sized_of_checks (Bool.eq_false_iff.2 hchecks), rfl⟩

/-- An adjustment is refused, or the capacity is again positive and whole. -/
theorem sized_adjust (h : gate.Sized) (role : Role) (next : JsNum) (reason : JsString) (now : ℤ) :
    (adjustCapacity gate role next reason now).2.Sized := by
  rw [adjustCapacity]
  split
  · exact h
  split
  · exact h
  next hchecks =>
  obtain ⟨n, hn⟩ := sized_of_checks (Bool.eq_false_iff.2 hchecks)
  split
  · exact h
  dsimp only
  split
  · exact ⟨n, hn⟩
  · dsimp only
    split <;> exact ⟨n, hn⟩

/-- There is room while fewer jobs are live than the capacity. -/
theorem Gate.Sized.hasCapacity_iff {n : ℤ} (h : gate.maxConcurrent = .ofInt n) (s : Framework) :
    gate.hasCapacity s = true ↔ (countLive s gate.label : ℤ) < n := by
  rw [Gate.hasCapacity, h, less_ofInt, decide_eq_true_eq]

section

variable (config : WorkerConfig)

section

variable (s : Framework)

section

variable (gate : Gate)

section

variable (input : JobInput) (now : ℤ)

/-- What admitting a job does to the framework and the gate. -/
theorem letIn_cases :
    ((letIn config s gate input now).1 = none ∧ (letIn config s gate input now).2.1 = s) ∨
      ∃ job, enqueue config s input now = some (job, (letIn config s gate input now).2.1) ∧
        (letIn config s gate input now).1 = some (.ok job) := by
  rw [letIn]
  split
  · exact .inl ⟨rfl, rfl⟩
  · next job t hjob => exact .inr ⟨job, hjob, rfl⟩

@[simp] theorem label_letIn : (letIn config s gate input now).2.2.label = gate.label := by
  rw [letIn]
  split <;> rfl

@[simp] theorem maxConcurrent_letIn :
    (letIn config s gate input now).2.2.maxConcurrent = gate.maxConcurrent := by
  rw [letIn]
  split <;> rfl

@[simp] theorem waiters_letIn : (letIn config s gate input now).2.2.waiters = gate.waiters := by
  rw [letIn]
  split <;> rfl

/-- An enqueue leaves the settings of the gate and its waiters alone. -/
theorem gate_gateEnqueue :
    (gateEnqueue config s gate input now).2.2.label = gate.label ∧
      (gateEnqueue config s gate input now).2.2.maxConcurrent = gate.maxConcurrent ∧
      (gateEnqueue config s gate input now).2.2.waiters = gate.waiters := by
  rcases gateEnqueue_cases config s gate input now with ⟨-, heq⟩ | ⟨-, -, victim, -, heq⟩ |
    ⟨-, -, -, heq⟩
  · rw [heq]
    exact ⟨label_letIn .., maxConcurrent_letIn .., waiters_letIn ..⟩
  · rw [heq]
    exact ⟨label_letIn .., maxConcurrent_letIn .., waiters_letIn ..⟩
  · rw [heq]
    exact ⟨rfl, rfl, rfl⟩

end

end

end

end

/-- **What the moves of an enqueue preserve, it preserves**: a job is dropped, a job is filed. -/
theorem gateEnqueue_induction {P : Framework → Prop} (gate : Gate) (input : JobInput) (now : ℤ)
    (hs : P (correlated config s input)) (hdrop : ∀ t id, P t → P (deadLetter t id))
    (hset : ∀ t job, P t → job.id = config.ids.text t.nextId →
      P { t with jobs := t.jobs.set job.id job, nextId := t.nextId + 2 }) :
    P (gateEnqueue config s gate input now).2.1 := by
  have hletIn : ∀ t gate, P t → P (letIn config t gate (labelled config s input) now).2.1 := by
    intro t gate ht
    rcases letIn_cases config t gate (labelled config s input) now with ⟨-, hsame⟩ | ⟨job, hjob, -⟩
    · rwa [hsame]
    rcases enqueue_cases hjob with hsame | ⟨hid, -, -, hnew⟩
    · rwa [hsame]
    · rw [hnew]
      exact hset t job ht hid
  rcases gateEnqueue_cases config s gate input now with ⟨-, heq⟩ | ⟨-, -, victim, -, heq⟩ |
    ⟨-, -, -, heq⟩ <;> rw [heq]
  · exact hletIn _ gate hs
  · exact hletIn _ _ (hdrop _ _ hs)
  · exact hs

theorem jobsFiled_gateEnqueue (h : JobsFiled s) (gate : Gate) (input : JobInput) (now : ℤ) :
    JobsFiled (gateEnqueue config s gate input now).2.1 := by
  refine gateEnqueue_induction gate input now (fun id job hget ↦ ?_)
    (fun _ _ ht ↦ jobsFiled_modify ht keepsIdentity_deadLetter rfl)
    fun _ _ ht _ ↦ jobsFiled_set ht rfl
  rw [jobs_correlated] at hget
  exact h id job hget

/-! ### The law of the capacity -/

/-- The invariant: jobs lie under their ids, and the capacity is a positive integer. -/
structure GateInv (s : GatedFramework) : Prop where
  filed : JobsFiled s.framework
  sized : s.gate.Sized

theorem gateInv_step {s : GatedFramework} (h : GateInv s) (c : GateStep) :
    GateInv (gateStep config s c) := by
  cases c with
  | enqueue input now =>
    rw [gateStep]
    split
    · refine ⟨jobsFiled_gateEnqueue h.filed s.gate input now, ?_⟩
      show Gate.Sized (gateEnqueue config s.framework s.gate input now).2.2
      rw [Gate.Sized, (gate_gateEnqueue config s.framework s.gate input now).2.1]
      exact h.sized
    · exact h
  | waitForCapacity promise =>
    rw [gateStep]
    split
    · refine ⟨h.filed, ?_⟩
      show Gate.Sized (waitForCapacity s.framework s.gate promise)
      rw [waitForCapacity]
      split <;> exact h.sized
    · exact h
  | adjustCapacity role next reason now =>
    rw [gateStep]
    split
    · exact ⟨h.filed, sized_adjust h.sized role next reason now⟩
    · exact h
  | framework c => exact ⟨jobsFiled_step h.filed c, h.sized⟩

/-- More jobs are live than the gate has room for. -/
def Gate.overfull (gate : Gate) (s : Framework) : Bool :=
  gate.maxConcurrent.less (.ofInt (countLive s gate.label))

/-- A gated framework under observation. -/
structure Watched where
  system : GatedFramework
  /-- The capacity was lowered below the live count, which has not been below the capacity since. -/
  draining : Bool := false

/-- The step lowers the capacity below the live count. -/
def lowers (s next : GatedFramework) : Bool :=
  next.gate.maxConcurrent.less s.gate.maxConcurrent && next.gate.overfull next.framework

/-- The observed system after a step. -/
def watch (config : WorkerConfig) (w : Watched) (c : GateStep) : Watched :=
  let next := gateStep config w.system c
  ⟨next, !next.gate.hasCapacity next.framework && (w.draining || lowers w.system next)⟩

/-- No new job may pass. -/
def Watched.closed (w : Watched) : Bool := w.draining || w.system.gate.overfull w.system.framework

/-- **The condition**: a matching job that meets a gate above its capacity, or one that drains,
finds no job that the policy would drop. -/
def DropsNothing (w : Watched) : GateStep → Prop
  | .enqueue input _ => startsWith input.operation w.system.gate.label = true →
      w.closed = true → victimOf w.system.gate w.system.framework = none
  | _ => True

/-- **The law of the capacity**, for a call of `enqueue` with a matching job: if it answers `ok`,
the live jobs are within the capacity; and while they are above it, or drain, nothing is
admitted. -/
def CapacityLaw (config : WorkerConfig) (w : Watched) : GateStep → Prop
  | .enqueue input now => startsWith input.operation w.system.gate.label = true →
      let reply := gateEnqueue config w.system.framework w.system.gate input now
      (∀ job, reply.1 = some (.ok job) →
        (JsNum.ofInt (countLive reply.2.1 w.system.gate.label)).atMost
          reply.2.2.maxConcurrent = true) ∧
      (w.closed = true → reply.1 = some (.error .full) ∧ reply.2.1.jobs = w.system.framework.jobs)
  | _ => True

/-- The invariant of an observed run. -/
structure WatchInv (w : Watched) : Prop where
  system : GateInv w.system
  full : w.draining = true → w.system.gate.hasCapacity w.system.framework = false

variable {w : Watched}

theorem watchInv_step (h : WatchInv w) (c : GateStep) :
    WatchInv (watch config w c) where
  system := gateInv_step h.system c
  full hdraining := by
    rw [watch] at hdraining ⊢
    rw [Bool.and_eq_true, Bool.not_eq_true'] at hdraining
    exact hdraining.1

theorem WatchInv.full_of_closed (h : WatchInv w) (hclosed : w.closed = true) :
    w.system.gate.hasCapacity w.system.framework = false := by
  rcases Bool.or_eq_true_iff.1 hclosed with hdraining | hover
  · exact h.full hdraining
  obtain ⟨n, -, hmax⟩ := h.system.sized
  rw [Gate.overfull, hmax, less_ofInt, decide_eq_true_eq] at hover
  rw [Gate.hasCapacity, hmax, less_ofInt, decide_eq_false_iff_not]
  omega

/-- An admitted job adds one live job at most. -/
theorem countLive_letIn (config : WorkerConfig) (s : Framework) (gate : Gate) (input : JobInput)
    (now : ℤ) (label : JsString) :
    countLive (letIn config s gate input now).2.1 label ≤ countLive s label + 1 ∧
      (Fresh config s →
        countLive s label ≤ countLive (letIn config s gate input now).2.1 label) := by
  rcases letIn_cases config s gate input now with ⟨-, hsame⟩ | ⟨job, hjob, -⟩
  · rw [hsame]
    exact ⟨Nat.le_succ _, fun _ ↦ le_rfl⟩
  · exact countLive_enqueue hjob label

/-- An eviction frees one place. -/
theorem countLive_evicted {victim : JobPayload} (hfiled : JobsFiled s)
    (hvictim : victimOf gate s = some victim) (config : WorkerConfig) (input : JobInput) :
    countLive (deadLetter (correlated config s input) victim.id) gate.label + 1 =
      countLive s gate.label := by
  obtain ⟨-, hget, hbefore, hafter⟩ := victimOf_eq_some hfiled hvictim
  have hcount := countLive_modify (s := correlated config s input)
    (t := deadLetter (correlated config s input) victim.id)
    (f := fun job ↦ job.move .deadLetter) rfl
    ((congrArg (get · victim.id) (jobs_correlated config s input)).trans hget) gate.label
  rw [hbefore, hafter, countLive_correlated] at hcount
  exact hcount

/-- A call that drops no job obeys the law. -/
theorem capacityLaw_of_dropsNothing (h : WatchInv w) (c : GateStep) (hc : DropsNothing w c) :
    CapacityLaw config w c := by
  cases c with
  | enqueue input now =>
    intro hmatch
    obtain ⟨s, draining⟩ := w
    obtain ⟨n, hn, hmax⟩ := h.system.sized
    dsimp only
    rw [(gate_gateEnqueue config s.framework s.gate input now).2.1]
    dsimp only at hmax
    rw [hmax]
    simp only [atMost_ofInt, decide_eq_true_eq]
    rcases gateEnqueue_cases config s.framework s.gate input now with ⟨hroom, heq⟩ |
      ⟨-, hfull, victim, hvictim, heq⟩ | ⟨-, hfull, hvictim, heq⟩
    · have hcapacity := hroom hmatch
      rw [heq]
      refine ⟨fun _ _ ↦ ?_, fun hclosed ↦ ?_⟩
      · rw [Gate.Sized.hasCapacity_iff hmax] at hcapacity
        have hle := (countLive_letIn config (correlated config s.framework input) s.gate
          (labelled config s.framework input) now s.gate.label).1
        rw [countLive_correlated] at hle
        omega
      · rw [h.full_of_closed hclosed] at hcapacity
        cases hcapacity
    · -- exactly full: the eviction makes room for one
      have hopen : Watched.closed ⟨s, draining⟩ ≠ true := fun hclosed ↦ by
        rw [hc hmatch hclosed] at hvictim
        cases hvictim
      have hlive : (countLive s.framework s.gate.label : ℤ) ≤ n := by
        rw [Ne, Watched.closed, Bool.or_eq_true_iff, not_or] at hopen
        have hover : s.gate.overfull s.framework ≠ true := hopen.2
        rw [Gate.overfull, hmax, less_ofInt, Ne, decide_eq_true_eq] at hover
        omega
      rw [heq]
      refine ⟨fun _ _ ↦ ?_, fun hclosed ↦ absurd hclosed hopen⟩
      have hevicted := countLive_evicted h.system.filed hvictim config input
      have hle := (countLive_letIn config (deadLetter (correlated config s.framework input)
        victim.id) { s.gate with evicted := s.gate.evicted + 1 }
        (labelled config s.framework input) now s.gate.label).1
      dsimp only at hevicted hle
      omega
    · rw [heq]
      exact ⟨nofun, fun _ ↦ ⟨rfl, jobs_correlated ..⟩⟩
  | _ => trivial

/-- **Backpressure capacity.** In every run of a new gate and its framework in which the policy
drops no job for a new one while the gate is above its capacity or drains, every call of `enqueue`
obeys the law of the capacity. -/
theorem meets_capacityLaw {config : WorkerConfig} {options : BackpressureOptions}
    {collates : JsString → JsString → Bool} {gate : Gate}
    (hgate : createBoundedEnqueueGate options collates = some gate) {before : List Step}
    {steps : List GateStep}
    (hsteps : Meets (watch config) DropsNothing { system := gated config before gate } steps) :
    Meets (watch config) (CapacityLaw config) { system := gated config before gate } steps :=
  meets_of_meets (fun _ c hinv _ ↦ watchInv_step hinv c)
    (fun _ c hinv hok ↦ capacityLaw_of_dropsNothing hinv c hok)
    ⟨⟨jobsFiled_run config before, (create_eq_some hgate).1⟩, nofun⟩ hsteps

/-- A gate for three exports that drops the oldest. -/
def exportOptions : BackpressureOptions where
  maxConcurrent := .ofInt 3
  overflowPolicy := .dropOldest
  label := js "export"

/-- The gate of `exportOptions`; all jobs of the runs below are enqueued at one time. -/
def exportGate : Gate :=
  (createBoundedEnqueueGate exportOptions fun _ _ ↦ true).get (by decide +kernel)

/-- An export, asked for at time 0. -/
def enqueueExport : GateStep := .enqueue { operation := js "export" } 0

/-- A framework that exports behind its gate. -/
def exporting : GatedFramework := gated letterConfig oneJob exportGate

/-- The one job of the framework, and three more exports: the last one takes the place of the
first. -/
theorem meets_capacityLaw_export :
    let steps := [enqueueExport, enqueueExport, enqueueExport]
    countLive (run (gateStep letterConfig) exporting steps).framework (js "export") = 3 ∧
    Meets (watch letterConfig) (CapacityLaw letterConfig) { system := exporting } steps := by
  refine ⟨by decide +kernel, meets_capacityLaw (Option.some_get _).symm ?_⟩
  refine ⟨?_, ?_, ?_, trivial⟩ <;>
  · intro _ hclosed
    exact absurd hclosed (by decide +kernel)

/-- **A job admitted above the capacity**: with three live exports the capacity is lowered to one;
the next export is let in for the oldest, and three are live. -/
theorem admitted_over_capacity :
    let system := run (gateStep letterConfig) (gated letterConfig [] exportGate)
      [enqueueExport, enqueueExport, enqueueExport,
        .adjustCapacity .maintainer (.ofInt 1) (js "maintenance") 0]
    let reply := gateEnqueue letterConfig system.framework system.gate
      { operation := js "export" } 0
    (∃ job, reply.1 = some (.ok job)) ∧ reply.2.2.maxConcurrent = .ofInt 1 ∧
      countLive reply.2.1 (js "export") = 3 := by
  refine ⟨?_, by decide +kernel, by decide +kernel⟩
  exact ⟨_, rfl⟩

end Utix.Workers

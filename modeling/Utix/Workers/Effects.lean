import Utix.Workers.Queue

/-!
# What a step of the queue can do

The operations of the queue touch a job in few ways, whatever the call stack looks like when they
do: a job is created, run, settled, reset or dead-lettered, and everything else leaves the jobs and
the handler calls in flight as they are. `Effect` lists the ways, and `step_effect` says that there
is no other. `Effect` follows the handler calls; where only the jobs matter, `jobs_step` says more
about why one of them changes.

Two questions about a step can be asked before it is taken: which job it is about to hand to
`runJob` (`entering`), and which handler call it is about to settle (`settling`).
-/

namespace Utix.Workers

open Js Lib Lifecycle Option List Framework Dict

/-- The job for which the step calls `runJob`. -/
def entering (s : Framework) : Step → Option JsString
  | .processJob id =>
    if s.callerRuns && s.phase = .idle &&
        (s.jobs.get id).any fun job ↦ !job.status.isTerminal then some id
    else none
  | .advance =>
    match s.stack with
    | .draining (id :: _) _ _ :: _ => some id
    | _ => none
  | _ => none

/-- The handler call for which the step calls `settle`, and the error. -/
def settling (s : Framework) : Step → Option (Invocation × Option Thrown)
  | .finish (.settles error) _ =>
    match s.stack with
    | .handler invocation :: _ => some (invocation, error)
    | _ => none
  | .settlePromise ticket error _ =>
    match s.stack with
    | [] => (s.pending.find? fun invocation ↦ invocation.ticket = ticket).map fun i ↦ (i, error)
    | _ => none
  | _ => none

/-- The ways in which a step changes the jobs and the handler calls in flight. -/
inductive Effect (config : WorkerConfig) (s : Framework) (c : Step) (t : Framework) : Prop
  | quiet (jobs : t.jobs = s.jobs) (flight : t.inFlight.Perm s.inFlight)
      (nextId : t.nextId = s.nextId)
  | created (job : JobPayload) (id : job.id = config.ids.text s.nextId)
      (status : job.status = .queued) (attempts : job.attempts = 0)
      (jobs : t.jobs = s.jobs.set job.id job) (flight : t.inFlight = s.inFlight)
      (nextId : t.nextId = s.nextId + 2)
  | started (job : JobPayload) (invocation : Invocation)
      (entered : entering s c = some invocation.job) (found : invocation.found = job.status)
      (get : s.jobs.get invocation.job = some job)
      (jobs : t.jobs = s.jobs.modify invocation.job runStarted)
      (flight : t.inFlight.Perm (invocation :: s.inFlight)) (nextId : t.nextId = s.nextId)
  | unregistered (id : JsString) (entered : entering s c = some id)
      (jobs : t.jobs = s.jobs.modify id runUnregistered) (flight : t.inFlight.Perm s.inFlight)
      (nextId : t.nextId = s.nextId)
  | settled (invocation : Invocation) (error : Option Thrown) (now : ℤ)
      (settling : settling s c = some (invocation, error))
      (jobs : t.jobs = s.jobs.modify invocation.job fun job ↦
        (settleJob s.phase s.shutdownReason invocation.registration error now job).1)
      (flight : s.inFlight.Perm (invocation :: t.inFlight)) (nextId : t.nextId = s.nextId)
  | reset (id : JsString) (jobs : t.jobs = s.jobs.modify id retried)
      (flight : t.inFlight = s.inFlight) (nextId : t.nextId = s.nextId)
  | deadLettered (id : JsString)
      (jobs : t.jobs = s.jobs.modify id fun job ↦ job.move .deadLetter)
      (flight : t.inFlight = s.inFlight) (nextId : t.nextId = s.nextId)

/-- The step makes this change to the job with this id. -/
inductive Touches (s : Framework) (c : Step) : JsString → (JobPayload → JobPayload) → Prop
  | started {id : JsString} {job : JobPayload} {registration : Registration}
      (entered : entering s c = some id) (get : s.jobs.get id = some job)
      (registered : s.registrations.get job.operation = some registration) :
      Touches s c id runStarted
  | unregistered {id : JsString} {job : JobPayload} (entered : entering s c = some id)
      (get : s.jobs.get id = some job) (missing : s.registrations.get job.operation = none) :
      Touches s c id runUnregistered
  | settled {invocation : Invocation} {error : Option Thrown} (now : ℤ)
      (settling : settling s c = some (invocation, error)) :
      Touches s c invocation.job fun job ↦
        (settleJob s.phase s.shutdownReason invocation.registration error now job).1
  | reset {id : JsString} (called : c = .retryJob id) : Touches s c id retried
  | deadLettered {id : JsString} (called : c = .deadLetter id) :
      Touches s c id fun job ↦ job.move .deadLetter

/-- What becomes of the jobs. -/
inductive JobsStep (config : WorkerConfig) (s : Framework) (c : Step) :
    Dict JsString JobPayload → Prop
  | kept : JobsStep config s c s.jobs
  | enqueued {input : JobInput} {now : ℤ} {job : JobPayload} {t : Framework}
      (called : c = .enqueue input now) (reply : enqueue config s input now = some (job, t)) :
      JobsStep config s c t.jobs
  | changed {id : JsString} {f : JobPayload → JobPayload} (touches : Touches s c id f) :
      JobsStep config s c (s.jobs.modify id f)

/-- **What a step does**, to the jobs and the handler calls, and to which job. -/
structure Traced (config : WorkerConfig) (s : Framework) (c : Step) (t : Framework) : Prop where
  effect : Effect config s c t
  jobs : JobsStep config s c t.jobs

variable {config : WorkerConfig} {s : Framework} {c : Step}

/-! ### The stack -/

@[simp] theorem filterMap_handler (invocation : Invocation) (frames : List Frame) :
    (Frame.handler invocation :: frames).filterMap Frame.invocation =
      invocation :: frames.filterMap Frame.invocation := rfl

@[simp] theorem filterMap_draining (due : List JsString) (summary : RunSummary)
    (call : Option DrainCall) (frames : List Frame) :
    (Frame.draining due summary call :: frames).filterMap Frame.invocation =
      frames.filterMap Frame.invocation := rfl

@[simp] theorem filterMap_processing (summary : RunSummary) (frames : List Frame) :
    (Frame.processing summary :: frames).filterMap Frame.invocation =
      frames.filterMap Frame.invocation := rfl

/-! ### The parts of a step -/

variable {t : Framework}

theorem Traced.quiet (jobs : t.jobs = s.jobs) (flight : t.inFlight.Perm s.inFlight)
    (nextId : t.nextId = s.nextId) : Traced config s c t :=
  ⟨.quiet jobs flight nextId, jobs ▸ .kept⟩

theorem Traced.refl : Traced config s c s := .quiet rfl (.refl _) rfl

/-- A call that is only made when code of the caller runs. -/
theorem traced_called (h : s.callerRuns = true → Traced config s c t) :
    Traced config s c (s.called t) := by
  rw [called]
  split
  · next hcaller => exact h hcaller
  · exact .refl

/-- What `runJob` does. -/
theorem runJob_cases (s : Framework) (id : JsString) :
    runJob s id = (s, none) ∨
      (∃ job, s.jobs.get id = some job ∧ s.registrations.get job.operation = none ∧
        runJob s id = (s.change id runUnregistered, none)) ∨
      ∃ job registration, s.jobs.get id = some job ∧
        s.registrations.get job.operation = some registration ∧
        runJob s id = ({ s.change id runStarted with nextTicket := s.nextTicket + 1 },
          some ⟨s.nextTicket, id, registration, job.status⟩) := by
  rw [runJob]
  split
  · exact .inl rfl
  next job hjob =>
  split
  · next hmissing => exact .inr (.inl ⟨job, hjob, hmissing, rfl⟩)
  · next registration hregistered =>
    exact .inr (.inr ⟨job, registration, hjob, hregistered, rfl⟩)

theorem traced_enqueue (input : JobInput) (now : ℤ) :
    Traced config s (.enqueue input now) (((enqueue config s input now).map Prod.snd).getD s) := by
  cases hreply : enqueue config s input now with
  | none => exact .refl
  | some reply =>
    refine ⟨?_, .enqueued rfl hreply⟩
    rw [enqueue] at hreply
    split at hreply
    · cases hreply
      exact Traced.refl.effect
    obtain ⟨job, hjob, rfl⟩ := map_eq_some_iff.1 hreply
    simp only [newJob, bind_eq_bind, bind_eq_some_iff, some.injEq] at hjob
    obtain ⟨enqueuedAt, -, nextAttemptAt, -, rfl⟩ := hjob
    exact .created _ rfl rfl rfl rfl rfl rfl

theorem traced_processJob (id : JsString) (hcaller : s.callerRuns = true) :
    Traced config s (.processJob id) (processJob s id) := by
  rw [processJob]
  split
  · exact .quiet rfl (.refl _) rfl
  next job hjob =>
  by_cases hterminal : job.status.isTerminal = true
  · rw [if_pos hterminal]
    exact .quiet rfl (.refl _) rfl
  rw [if_neg hterminal]
  by_cases hphase : s.phase = .idle
  · rw [if_neg (not_not.2 hphase)]
    have hentered : entering s (.processJob id) = some id := by
      simp [entering, hcaller, hphase, hjob, hterminal]
    rcases runJob_cases s id with hrun | ⟨job, hget, hmissing, hrun⟩ |
      ⟨job, registration, hget, hregistered, hrun⟩ <;> rw [hrun]
    · exact .quiet rfl (.refl _) rfl
    · exact ⟨.unregistered id hentered rfl (.refl _) rfl,
        .changed (.unregistered hentered hget hmissing)⟩
    · exact ⟨.started job ⟨s.nextTicket, id, registration, job.status⟩ hentered rfl hget rfl
        perm_middle rfl, .changed (.started hentered hget hregistered)⟩
  · rw [if_pos hphase]
    exact .quiet rfl (.refl _) rfl

theorem traced_advance : Traced config s .advance (advance s) := by
  rw [advance]
  split
  · next summary call frames hstack =>
    have hflight : ({ s with stack := frames } : Framework).inFlight = s.inFlight := by
      simp [inFlight, hstack]
    cases call <;> exact .quiet rfl (.of_eq hflight) rfl
  · next id due summary call frames hstack =>
    have hentered : entering s .advance = some id := by simp [entering, hstack]
    have hframes : s.stack.filterMap Frame.invocation = frames.filterMap Frame.invocation := by
      simp [hstack]
    have hflight := congrArg (s.pending ++ ·) hframes.symm
    rcases runJob_cases s id with hrun | ⟨job, hget, hmissing, hrun⟩ |
      ⟨job, registration, hget, hregistered, hrun⟩ <;> rw [hrun]
    · exact .quiet rfl (.of_eq hflight) rfl
    · exact ⟨.unregistered id hentered rfl (.of_eq hflight) rfl,
        .changed (.unregistered hentered hget hmissing)⟩
    refine ⟨.started job ⟨s.nextTicket, id, registration, job.status⟩ hentered rfl hget rfl ?_ rfl,
      .changed (.started hentered hget hregistered)⟩
    rw [inFlight, inFlight, hframes]
    exact perm_middle
  · exact .refl

/-- Going on after a handler touches no job and no handler call. -/
theorem resumeCaller_same (s : Framework) (id : JsString) (settled : Bool) :
    (resumeCaller s id settled).jobs = s.jobs ∧
      (resumeCaller s id settled).inFlight = s.inFlight ∧
      (resumeCaller s id settled).nextId = s.nextId := by
  rw [resumeCaller]
  split
  · next hstack => exact ⟨rfl, by simp [inFlight, hstack], rfl⟩
  · next hstack =>
    exact ⟨rfl, by simp [inFlight, return', hstack], rfl⟩
  · exact ⟨rfl, rfl, rfl⟩

theorem abortCaller_same (s : Framework) :
    (abortCaller s).jobs = s.jobs ∧ (abortCaller s).inFlight = s.inFlight ∧
      (abortCaller s).nextId = s.nextId := by
  rw [abortCaller]
  split
  · next hstack => exact ⟨rfl, by simp [inFlight, hstack], rfl⟩
  · next hstack => exact ⟨rfl, by simp [inFlight, hstack], rfl⟩
  · exact ⟨rfl, rfl, rfl⟩

variable {invocation : Invocation} {error : Option Thrown}

/-- What `settle` leaves, seen from a state that differs in the handler calls only. -/
theorem traced_settle (u : Framework) (now : ℤ)
    (hsettling : settling s c = some (invocation, error)) (hjobs : u.jobs = s.jobs)
    (hphase : u.phase = s.phase) (hreason : u.shutdownReason = s.shutdownReason)
    (hflight : s.inFlight.Perm (invocation :: u.inFlight)) (hid : u.nextId = s.nextId)
    (ht : t.jobs = (settle u invocation error now).1.jobs ∧ t.inFlight = u.inFlight ∧
      t.nextId = u.nextId) : Traced config s c t := by
  have hchanged : t.jobs = s.jobs.modify invocation.job fun job ↦
      (settleJob s.phase s.shutdownReason invocation.registration error now job).1 := by
    rw [ht.1, ← hjobs, ← hphase, ← hreason]
    rfl
  exact ⟨.settled invocation error now hsettling hchanged (ht.2.1 ▸ hflight) (ht.2.2.trans hid),
    hchanged ▸ .changed (.settled now hsettling)⟩

theorem traced_finish (outcome : Outcome) (now : ℤ) :
    Traced config s (.finish outcome now) (finish s outcome now) := by
  rw [finish]
  split
  · next invocation frames hstack =>
    cases outcome with
    | promises =>
      -- the call moves from the stack to the promises
      obtain ⟨hjobs, hflight, hid⟩ := resumeCaller_same
        { s with stack := frames, pending := s.pending ++ [invocation] } invocation.job false
      refine .quiet hjobs (.of_eq ?_) hid
      rw [hflight]
      simp [inFlight, hstack]
    | settles error =>
      have hsettling : settling s (.finish (.settles error) now) = some (invocation, error) := by
        simp [settling, hstack]
      have hflight : s.inFlight.Perm
          (invocation :: ({ s with stack := frames } : Framework).inFlight) := by
        simp only [inFlight, hstack, filterMap_handler]
        exact perm_middle
      refine traced_settle { s with stack := frames } now hsettling rfl rfl rfl hflight rfl ?_
      simp only
      split
      · next t heq =>
        obtain rfl : (settle { s with stack := frames } invocation error now).1 = t :=
          congrArg Prod.fst heq
        exact abortCaller_same _
      · next t heq =>
        obtain rfl : (settle { s with stack := frames } invocation error now).1 = t :=
          congrArg Prod.fst heq
        exact resumeCaller_same _ _ _
  · exact .refl

theorem traced_settlePromise (ticket : ℕ) (error : Option Thrown) (now : ℤ) :
    Traced config s (.settlePromise ticket error now) (settlePromise s ticket error now) := by
  rw [settlePromise]
  split
  · next invocation hstack hfind =>
    have hsettling : settling s (.settlePromise ticket error now) = some (invocation, error) := by
      simp [settling, hstack, hfind]
    have hflight : s.inFlight.Perm
        (invocation :: ({ s with pending := s.pending.erase invocation } : Framework).inFlight) :=
      (perm_cons_erase (mem_of_find?_eq_some hfind)).append_right _
    refine traced_settle { s with pending := s.pending.erase invocation } now hsettling rfl rfl
      rfl hflight rfl ?_
    split <;> next t heq =>
      obtain rfl : (settle { s with pending := s.pending.erase invocation } invocation error
          now).1 = t := congrArg Prod.fst heq
      exact ⟨rfl, rfl, rfl⟩
  · exact .refl

/-- A drain touches no job before its loop reaches it. -/
theorem traced_startDrain (now : ℤ) (awaits : Bool) :
    Traced config s c (startDrain config s now awaits) := by
  rw [startDrain]
  split <;> exact .quiet rfl (.refl _) rfl

theorem traced_resumeDrain (index : ℕ) : Traced config s c (resumeDrain s index) := by
  rw [resumeDrain]
  split
  · split
    · exact .refl
    · exact .quiet rfl (.refl _) rfl
  · exact .refl

section

variable (config : WorkerConfig)

/-- Every step is traced, whatever the call stack is. -/
theorem traced_step (s : Framework) (c : Step) : Traced config s c (step config s c) := by
  cases c with
  | register operation retryDelayMs maxAttempts =>
    refine traced_called fun _ ↦ ?_
    rw [register]
    split
    · exact .refl
    · exact .quiet rfl (.refl _) rfl
  | enqueue input now => exact traced_called fun _ ↦ traced_enqueue input now
  | drainDueJobs now => exact traced_called fun _ ↦ traced_startDrain now false
  | drain now => exact traced_called fun _ ↦ traced_startDrain now true
  | processJob id => exact traced_called fun hcaller ↦ traced_processJob id hcaller
  | retryJob id => exact traced_called fun _ ↦ ⟨.reset id rfl rfl rfl, .changed (.reset rfl)⟩
  | deadLetter id =>
    exact traced_called fun _ ↦ ⟨.deadLettered id rfl rfl rfl, .changed (.deadLettered rfl)⟩
  | cancel reason =>
    refine traced_called fun _ ↦ ?_
    rw [cancel]
    split
    · exact .refl
    · exact .quiet rfl (.refl _) rfl
  | advance => exact traced_advance
  | finish outcome now => exact traced_finish outcome now
  | settlePromise ticket error now => exact traced_settlePromise ticket error now
  | resumeDrain index => exact traced_resumeDrain index

/-- **Every step has one of the effects.** -/
theorem step_effect (s : Framework) (c : Step) :
    Effect config s c (step config s c) := (traced_step config s c).effect

/-- **What every step does to the jobs.** -/
theorem jobs_step (s : Framework) (c : Step) :
    JobsStep config s c (step config s c).jobs := (traced_step config s c).jobs

end

/-! ### Moves -/

variable {job : JobPayload}

/-- A terminal job refuses every move. -/
theorem move_of_terminal (h : job.status.isTerminal = true) (event : JobEvent) :
    job.move event = job := by
  rw [JobPayload.move, JobStatus.after_terminal h]

@[simp] theorem attempts_move (job : JobPayload) (event : JobEvent) :
    (job.move event).attempts = job.attempts := by
  rw [JobPayload.move]
  split <;> rfl

@[simp] theorem maxAttempts_move (job : JobPayload) (event : JobEvent) :
    (job.move event).maxAttempts = job.maxAttempts := by
  rw [JobPayload.move]
  split <;> rfl

/-! ### What `enqueue` does -/

variable {input : JobInput}

/-- `enqueue` answers a pending job, or files a new one with the operation of the input. -/
theorem enqueue_cases {now : ℤ} (h : enqueue config s input now = some (job, t)) :
    t = s ∨ (job.id = config.ids.text s.nextId ∧ job.operation = input.operation ∧
      job.status = .queued ∧
      t = { s with jobs := s.jobs.set job.id job, nextId := s.nextId + 2 }) := by
  rw [enqueue] at h
  split at h
  · cases h
    exact .inl rfl
  obtain ⟨made, hmade, heq⟩ := map_eq_some_iff.1 h
  simp only [newJob, bind_eq_bind, bind_eq_some_iff, some.injEq] at hmade
  obtain ⟨enqueuedAt, -, nextAttemptAt, -, rfl⟩ := hmade
  cases heq
  exact .inr ⟨rfl, rfl, rfl, rfl⟩

/-- A step forgets no job. -/
theorem isSome_step {c : Step} {id : JsString} (h : (s.jobs.get id).isSome = true) :
    ((step config s c).jobs.get id).isSome = true := by
  have hstep := jobs_step config s c
  generalize (step config s c).jobs = jobs at hstep ⊢
  cases hstep with
  | kept => exact h
  | enqueued _ hreply =>
    rcases enqueue_cases hreply with rfl | ⟨-, -, -, rfl⟩
    · exact h
    rw [get_set]
    split
    · rfl
    · exact h
  | changed =>
    rw [get_modify]
    split
    · rwa [isSome_map]
    · exact h

/-- The dates of a new job exist. -/
def Dated (input : JobInput) (now : ℤ) : Prop :=
  (Date.toISOString now).isSome = true ∧ (firstAttempt input now).isSome = true

/-- An input with dates that stands for no pending job makes a new one. -/
theorem enqueue_new (config : WorkerConfig) {now : ℤ} (hduplicate : duplicateOf s input = none)
    (hdates : Dated input now) :
    ∃ job, job.id = config.ids.text s.nextId ∧ job.operation = input.operation ∧
      job.status = .queued ∧ enqueue config s input now =
        some (job, { s with jobs := s.jobs.set job.id job, nextId := s.nextId + 2 }) := by
  obtain ⟨enqueuedAt, hat⟩ := isSome_iff_exists.1 hdates.1
  obtain ⟨nextAttemptAt, hnext⟩ := isSome_iff_exists.1 hdates.2
  rw [enqueue, hduplicate, newJob, hat, hnext]
  exact ⟨_, rfl, rfl, rfl, rfl⟩

/-! ### Ids -/

/-- No id that is still to come is in use. -/
def Fresh (config : WorkerConfig) (s : Framework) : Prop :=
  ∀ n, s.nextId ≤ n → s.jobs.get (config.ids.text n) = none

theorem fresh_init : Fresh config {} := fun _ _ ↦ rfl

theorem fresh_modify (h : Fresh config s) {id : JsString} {f : JobPayload → JobPayload}
    (hjobs : t.jobs = s.jobs.modify id f) (hid : t.nextId = s.nextId) : Fresh config t := by
  intro n hn
  rw [hjobs, get_modify, h n (hid ▸ hn)]
  split <;> rfl

/-- Creating a job spends two ids, of which the first is its own. -/
theorem fresh_set (h : Fresh config s) (hjob : job.id = config.ids.text s.nextId)
    (hjobs : t.jobs = s.jobs.set job.id job) (hid : t.nextId = s.nextId + 2) : Fresh config t := by
  intro n hn
  rw [hid] at hn
  have hne : config.ids.text s.nextId ≠ config.ids.text n := fun heq ↦ by
    have := config.ids.injective heq
    omega
  rw [hjobs, get_set, hjob, if_neg hne]
  exact h n (by omega)

/-- **New ids stay new.** -/
theorem fresh_step (h : Fresh config s) : Fresh config (step config s c) := by
  rcases step_effect config s c with ⟨hjobs, -, hid⟩ | ⟨job, hjob, -, -, hjobs, -, hid⟩ |
    ⟨_, _, _, _, _, hjobs, -, hid⟩ | ⟨_, _, hjobs, -, hid⟩ | ⟨_, _, _, _, hjobs, -, hid⟩ |
    ⟨_, hjobs, -, hid⟩ | ⟨_, hjobs, -, hid⟩
  · intro n hn
    rw [hjobs]
    exact h n (hid ▸ hn)
  · exact fresh_set h hjob hjobs hid
  all_goals exact fresh_modify h hjobs hid

end Utix.Workers

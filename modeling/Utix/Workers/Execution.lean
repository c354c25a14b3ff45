import Utix.Lib.Run
import Utix.Workers.Effects

/-!
# One execution at a time

`runJob` calls the handler whatever became of the `start` move, so it is up to its callers to hand
it only jobs that wait for a run. `processJob` refuses finished jobs but not *running* ones, and the
loop of a drain works off a list it made before the first handler was called.

`EntersWaiting` is what they would have to check: the job is queued or retrying when `runJob` is
entered. As long as it holds, a handler call in flight keeps its job running — until an operator
dead-letters it — so no second call is made, a finished job is not run again, and the attempts stay
within the budget (`always_exclusive`).

The invariant of a run, `Attended`, says more than what is asked for. Ids that are still to come are
not in use, so a new job cannot meet a call in flight; each call in flight is for a job that is
known; and a job with a call in flight does not wait, while a job that waits has an attempt left
(`Sound`). `Sound` is carried through each change that a step can make to a job, and `Attended`
through each effect in the list of `Effect`. `processJob_runs_twice` is a run of three calls that
leaves the condition: the same job is handed over again while its promise is pending.
-/

namespace Utix.Workers

open Js Lib Lifecycle Option List JobPayload Dict

/-- The job waits for a run. -/
def JobPayload.isWaiting (job : JobPayload) : Bool :=
  job.status = .queued ∨ job.status = .retrying

/-- If the step enters `runJob`, the job waits for a run. -/
def EntersWaiting (s : Framework) (c : Step) : Prop :=
  ((entering s c).bind s.jobs.get).all JobPayload.isWaiting = true

instance (s : Framework) (c : Step) : Decidable (EntersWaiting s c) :=
  inferInstanceAs (Decidable (_ = true))

/-- **At most one execution**: no job has two handler calls in flight, no handler was called with a
finished job, and no job has used more attempts than it has. -/
structure Exclusive (s : Framework) : Prop where
  once : (s.inFlight.map Invocation.job).Nodup
  unfinished : ∀ invocation ∈ s.inFlight, invocation.found.isTerminal = false
  budget : ∀ id job, s.jobs.get id = some job → 1 ≤ job.maxAttempts →
    (job.attempts : ℤ) ≤ job.maxAttempts

/-! ### The invariant -/

/-- What holds of a job, `busy` or not with a handler call. -/
structure Sound (busy : Prop) (job : JobPayload) : Prop where
  /-- While its handler is in flight a job runs, or it has been finished from outside. -/
  occupied : busy → job.isWaiting = false
  /-- A job that waits has an attempt left. -/
  budget : 1 ≤ job.maxAttempts → (job.attempts : ℤ) ≤ job.maxAttempts ∧
    (job.isWaiting = true → (job.attempts : ℤ) < job.maxAttempts)

/-- The invariant of a run. -/
structure Attended (config : WorkerConfig) (s : Framework) : Prop where
  fresh : Fresh config s
  once : (s.inFlight.map Invocation.job).Nodup
  unfinished : ∀ invocation ∈ s.inFlight, invocation.found.isTerminal = false
  known : ∀ invocation ∈ s.inFlight, (s.jobs.get invocation.job).isSome = true
  sound : ∀ id job, s.jobs.get id = some job → Sound (id ∈ s.inFlight.map Invocation.job) job

variable {config : WorkerConfig} {s t : Framework} {job : JobPayload}

/-- The invariant is stronger than what is asked of a state. -/
theorem Attended.exclusive (h : Attended config s) : Exclusive s :=
  ⟨h.once, h.unfinished, fun id job hjob hmax ↦ ((h.sound id job hjob).budget hmax).1⟩

theorem attended_init : Attended config {} where
  fresh := fresh_init
  once := nodup_nil
  unfinished _ h := absurd h not_mem_nil
  known _ h := absurd h not_mem_nil
  sound _ _ h := absurd h (by simp)

theorem isWaiting_iff : job.isWaiting = true ↔ job.status = .queued ∨ job.status = .retrying := by
  simp [isWaiting]

/-! ### The changes to a job -/

variable {busy : Prop}

section

variable (h : Sound busy job)
include h

/-- A job that waited runs, with one more attempt. -/
theorem Sound.started (hwaiting : job.isWaiting = true) : Sound True (runStarted job) := by
  have hmove : runStarted job = { job with attempts := job.attempts + 1, status := .running } := by
    rw [runStarted, move]
    rcases isWaiting_iff.1 hwaiting with hstatus | hstatus <;> simp [hstatus, JobStatus.after_eq]
  rw [hmove]
  refine ⟨fun _ ↦ by simp [isWaiting], fun hmax ↦ ⟨?_, fun hwait ↦ ?_⟩⟩
  · have := (h.budget hmax).2 hwaiting
    push_cast
    omega
  · simp [isWaiting] at hwait

/-- A job that waited is given up, with one more attempt. -/
theorem Sound.unregistered (hwaiting : job.isWaiting = true) :
    Sound busy (runUnregistered job) := by
  have hstatus : (runUnregistered job).status = .deadLettered := by
    rw [runUnregistered, move]
    rcases isWaiting_iff.1 hwaiting with hstatus | hstatus <;> simp [hstatus, JobStatus.after_eq]
  have hwait : (runUnregistered job).isWaiting = false := by simp [isWaiting, hstatus]
  refine ⟨fun _ ↦ hwait, fun hmax ↦ ⟨?_, fun h ↦ absurd h (by simp [hwait])⟩⟩
  rw [runUnregistered, maxAttempts_move] at hmax
  rw [runUnregistered, attempts_move, maxAttempts_move]
  have := (h.budget hmax).2 hwaiting
  push_cast
  omega

/-- Dead-lettering a job ends its wait. -/
theorem Sound.deadLettered : Sound busy (job.move .deadLetter) := by
  have hwait : (job.move .deadLetter).isWaiting = false := by
    rw [move, JobStatus.after_eq]
    cases hstatus : job.status <;> simp [isWaiting, hstatus]
  refine ⟨fun _ ↦ hwait, fun hmax ↦ ⟨?_, fun h ↦ absurd h (by simp [hwait])⟩⟩
  rw [maxAttempts_move] at hmax
  rw [attempts_move, maxAttempts_move]
  exact (h.budget hmax).1

/-- A reset only reaches a job that waits for a retry. -/
theorem Sound.reset : Sound busy (retried job) := by
  by_cases hstatus : job.status = .retrying
  · have hretried : retried job =
        { job with status := .queued, nextAttemptAt := none, attempts := 0 } := by
      simp [retried, hstatus, JobStatus.after_eq]
    rw [hretried]
    refine ⟨fun hbusy ↦ ?_, fun hmax ↦ ⟨?_, fun _ ↦ ?_⟩⟩
    · exact absurd (h.occupied hbusy) (by simp [isWaiting, hstatus])
    · simp only at hmax ⊢
      omega
    · simp only at hmax ⊢
      omega
  · have hretried : retried job = job := by
      rw [retried, JobStatus.after_eq]
      cases hcase : job.status <;> simp_all
    rw [hretried]
    exact h

end

/-- The end of an attempt: exhausted when the budget is spent, to be retried otherwise. -/
theorem Sound.concluded (job : JobPayload) (hwaiting : job.isWaiting = false)
    (hbudget : 1 ≤ job.maxAttempts → (job.attempts : ℤ) ≤ job.maxAttempts) :
    Sound False (if job.maxAttempts ≤ job.attempts then job.move .exhaust else job.move .fail) := by
  refine ⟨False.elim, ?_⟩
  split
  · next hspent =>
    have hwait : (job.move .exhaust).isWaiting = false := by
      rw [move, JobStatus.after_eq]
      cases hstatus : job.status <;> simp_all [isWaiting]
    intro hmax
    rw [maxAttempts_move] at hmax
    rw [attempts_move, maxAttempts_move]
    exact ⟨hbudget hmax, fun h ↦ absurd h (by simp [hwait])⟩
  · next hleft =>
    intro hmax
    rw [attempts_move, maxAttempts_move]
    omega

/-- Only the status and the counts of a job matter. -/
theorem Sound.congr {other : JobPayload} (h : Sound busy job) (hstatus : other.status = job.status)
    (hattempts : other.attempts = job.attempts) (hmax : other.maxAttempts = job.maxAttempts) :
    Sound busy other := by
  have hwaiting : other.isWaiting = job.isWaiting := by
    rw [isWaiting, isWaiting, hstatus]
  exact ⟨fun hbusy ↦ hwaiting ▸ h.occupied hbusy, by
    rw [hwaiting, hattempts, hmax]
    exact h.budget⟩

/-- A failure sends a job back to wait only while it has attempts left. -/
theorem Sound.failed (h : Sound True job) (registration : Registration) (error : Thrown)
    (now : ℤ) : Sound False (handleFailure job registration error now).1 := by
  have hconcluded := Sound.concluded
    { job with lastError := some ⟨errorCodeOf error, error.messageOr (js "unknown failure")⟩ }
    (h.occupied trivial) fun hmax ↦ (h.budget hmax).1
  simp only [handleFailure]
  split
  · next hspent =>
    rw [if_pos hspent] at hconcluded
    exact hconcluded
  · next hleft =>
    rw [if_neg hleft] at hconcluded
    split
    · exact hconcluded
    · exact hconcluded.congr rfl rfl rfl

theorem Sound.succeeded (h : Sound True job) :
    Sound False { job.move .succeed with lastError := none } := by
  have hwaiting := h.occupied trivial
  have hwait : (job.move .succeed).isWaiting = false := by
    rw [move, JobStatus.after_eq]
    cases hstatus : job.status <;> simp_all [isWaiting]
  have hmoved : Sound False (job.move .succeed) := by
    refine ⟨False.elim, fun hmax ↦ ?_⟩
    rw [maxAttempts_move] at hmax
    rw [attempts_move, maxAttempts_move]
    exact ⟨(h.budget hmax).1, fun h ↦ absurd h (by simp [hwait])⟩
  exact hmoved.congr rfl rfl rfl

/-- **A settlement frees the job.** -/
theorem Sound.settled (h : Sound True job) (phase : ShutdownPhase) (reason : Option JsString)
    (registration : Registration) (error : Option Thrown) (now : ℤ) :
    Sound False (settleJob phase reason registration error now job).1 := by
  unfold settleJob
  split
  · exact Sound.concluded _ (h.occupied trivial) fun hmax ↦ (h.budget hmax).1
  · cases error with
    | none => exact h.succeeded
    | some error => exact h.failed registration error now

/-! ### The steps -/

variable {c : Step}

/-- The step leaves the handler calls alone, and changes one job to a sound one. -/
theorem Attended.modify (h : Attended config s) (ht : t = step config s c) {id : JsString}
    {f : JobPayload → JobPayload} (hjobs : t.jobs = s.jobs.modify id f)
    (hflight : t.inFlight.Perm s.inFlight)
    (hf : ∀ job, s.jobs.get id = some job → Sound (id ∈ s.inFlight.map Invocation.job) (f job)) :
    Attended config t where
  fresh := ht ▸ fresh_step h.fresh
  once := ((hflight.map _).nodup_iff).2 h.once
  unfinished invocation hmem := h.unfinished invocation (hflight.subset hmem)
  known invocation hmem := by
    have hknown := h.known invocation (hflight.subset hmem)
    rw [hjobs, get_modify]
    split
    · rwa [isSome_map]
    · exact hknown
  sound other job hget := by
    rw [(hflight.map Invocation.job).mem_iff]
    rw [hjobs, get_modify] at hget
    split at hget
    · next hother =>
      subst hother
      obtain ⟨old, hold, rfl⟩ := map_eq_some_iff.1 hget
      exact hf old hold
    · exact h.sound other job hget

/-- The step leaves the jobs and the handler calls alone. -/
theorem Attended.quiet (h : Attended config s) (ht : t = step config s c) (hjobs : t.jobs = s.jobs)
    (hflight : t.inFlight.Perm s.inFlight) : Attended config t where
  fresh := ht ▸ fresh_step h.fresh
  once := ((hflight.map _).nodup_iff).2 h.once
  unfinished invocation hmem := h.unfinished invocation (hflight.subset hmem)
  known invocation hmem := hjobs ▸ h.known invocation (hflight.subset hmem)
  sound id job hget := by
    rw [(hflight.map Invocation.job).mem_iff]
    exact h.sound id job (hjobs ▸ hget)

/-- A new job has no handler call, since its id is new. -/
theorem Attended.created (h : Attended config s) (ht : t = step config s c) {new : JobPayload}
    (hid : new.id = config.ids.text s.nextId) (hattempts : new.attempts = 0)
    (hjobs : t.jobs = s.jobs.set new.id new) (hflight : t.inFlight = s.inFlight) :
    Attended config t where
  fresh := ht ▸ fresh_step h.fresh
  once := hflight ▸ h.once
  unfinished := hflight ▸ h.unfinished
  known invocation hmem := by
    rw [hjobs, get_set]
    split
    · rfl
    · exact h.known invocation (hflight ▸ hmem)
  sound id job hget := by
    rw [hflight]
    rw [hjobs] at hget
    obtain ⟨rfl, rfl⟩ | ⟨-, hget⟩ := get_set_eq_some hget
    · refine ⟨fun hbusy ↦ ?_, fun hmax ↦ by rw [hattempts]; push_cast; omega⟩
      obtain ⟨invocation, hmem, hjob⟩ := mem_map.1 hbusy
      have hknown := h.known invocation hmem
      rw [hjob, hid, h.fresh s.nextId le_rfl] at hknown
      cases hknown
    · exact h.sound id job hget

variable {invocation : Invocation}

/-- A handler is called with a job that waited. -/
theorem Attended.started (h : Attended config s) (ht : t = step config s c)
    (hfound : invocation.found = job.status) (hget : s.jobs.get invocation.job = some job)
    (hwaiting : job.isWaiting = true) (hjobs : t.jobs = s.jobs.modify invocation.job runStarted)
    (hflight : t.inFlight.Perm (invocation :: s.inFlight)) : Attended config t := by
  have hsound := h.sound invocation.job job hget
  -- a handler call in flight would mean that the job does not wait
  have hfree : invocation.job ∉ s.inFlight.map Invocation.job := fun hbusy ↦
    absurd (hsound.occupied hbusy) (by simp [hwaiting])
  have hids := hflight.map Invocation.job
  rw [map_cons] at hids
  refine ⟨ht ▸ fresh_step h.fresh, hids.nodup_iff.2 (nodup_cons.2 ⟨hfree, h.once⟩), ?_, ?_, ?_⟩
  · intro other hmem
    rcases mem_cons.1 (hflight.subset hmem) with rfl | hmem
    · rw [hfound]
      rcases isWaiting_iff.1 hwaiting with hstatus | hstatus <;> rw [hstatus] <;> decide +kernel
    · exact h.unfinished other hmem
  · intro other hmem
    rw [hjobs, get_modify]
    rcases mem_cons.1 (hflight.subset hmem) with rfl | hmem
    · rw [if_pos rfl, hget]
      rfl
    have hknown := h.known other hmem
    split
    · rwa [isSome_map]
    · exact hknown
  · intro id other hother
    rw [hids.mem_iff, mem_cons]
    rw [hjobs, get_modify] at hother
    split at hother
    · next heq =>
      subst heq
      rw [hget, map_some] at hother
      cases hother
      exact ⟨fun _ ↦ (hsound.started hwaiting).occupied trivial, (hsound.started hwaiting).budget⟩
    · next hne =>
      have hold := h.sound id other hother
      exact ⟨fun hbusy ↦ hold.occupied (hbusy.resolve_left (Ne.symm hne)), hold.budget⟩

/-- A handler call settles: its job had no other. -/
theorem Attended.settled (h : Attended config s) (ht : t = step config s c) {error : Option Thrown}
    {now : ℤ}
    (hjobs : t.jobs = s.jobs.modify invocation.job fun job ↦
      (settleJob s.phase s.shutdownReason invocation.registration error now job).1)
    (hflight : s.inFlight.Perm (invocation :: t.inFlight)) : Attended config t := by
  have hids := hflight.map Invocation.job
  rw [map_cons] at hids
  obtain ⟨hfree, hnodup⟩ := nodup_cons.1 (hids.nodup_iff.1 h.once)
  have hmem : ∀ other ∈ t.inFlight, other ∈ s.inFlight := fun other hother ↦
    hflight.symm.subset (mem_cons_of_mem _ hother)
  refine ⟨ht ▸ fresh_step h.fresh, hnodup,
    fun other hother ↦ h.unfinished other (hmem other hother),
    fun other hother ↦ ?_, fun id job hget ↦ ?_⟩
  · have hknown := h.known other (hmem other hother)
    rw [hjobs, get_modify]
    split
    · rwa [isSome_map]
    · exact hknown
  · rw [hjobs, get_modify] at hget
    split at hget
    · next heq =>
      subst heq
      obtain ⟨old, hold, rfl⟩ := map_eq_some_iff.1 hget
      have hsound := h.sound invocation.job old hold
      have hbusy : invocation.job ∈ s.inFlight.map Invocation.job :=
        hids.symm.subset mem_cons_self
      have hsettled := Sound.settled ⟨fun _ ↦ hsound.occupied hbusy, hsound.budget⟩ s.phase
        s.shutdownReason invocation.registration error now
      exact ⟨fun hother ↦ absurd hother hfree, hsettled.budget⟩
    · have hold := h.sound id job hget
      exact ⟨fun hbusy ↦ hold.occupied (hids.symm.subset (mem_cons_of_mem _ hbusy)), hold.budget⟩

/-- **One step.** -/
theorem Attended.step (h : Attended config s) (hok : EntersWaiting s c) :
    Attended config (step config s c) := by
  have hwaiting : ∀ id job, entering s c = some id → s.jobs.get id = some job →
      job.isWaiting = true := fun id job hentering hget ↦ by
    rw [EntersWaiting, hentering, bind_some, hget] at hok
    exact hok
  rcases step_effect config s c with ⟨hjobs, hflight, -⟩ |
    ⟨job, hid, -, hattempts, hjobs, hflight, -⟩ |
    ⟨job, invocation, hentered, hfound, hget, hjobs, hflight, -⟩ |
    ⟨id, hentered, hjobs, hflight, -⟩ | ⟨invocation, error, now, -, hjobs, hflight, -⟩ |
    ⟨id, hjobs, hflight, -⟩ | ⟨id, hjobs, hflight, -⟩
  · exact h.quiet rfl hjobs hflight
  · exact h.created rfl hid hattempts hjobs hflight
  · exact h.started rfl hfound hget (hwaiting _ job hentered hget) hjobs hflight
  · exact h.modify rfl hjobs hflight fun job hjob ↦
      (h.sound id job hjob).unregistered (hwaiting id job hentered hjob)
  · exact h.settled rfl hjobs hflight
  · exact h.modify rfl hjobs (.of_eq hflight) fun job hjob ↦ (h.sound id job hjob).reset
  · exact h.modify rfl hjobs (.of_eq hflight) fun job hjob ↦ (h.sound id job hjob).deadLettered

/-- **At most one execution at a time**: in every run of a new framework in which `runJob` is only
entered for jobs that wait for a run. -/
theorem always_exclusive (config : WorkerConfig) (steps : List Step)
    (h : Meets (Workers.step config) EntersWaiting {} steps) :
    Always (Workers.step config) Exclusive {} steps :=
  always_of_meets (fun s _ (hs : Attended config s) hok ↦ hs.step hok) (fun _ hs ↦ hs.exclusive)
    attended_init h

/-- The handler is called by a drain, returns a promise, and the promise is rejected. -/
theorem always_exclusive_drained :
    Always (Workers.step letterConfig) Exclusive {} (oneJob ++
      [.drainDueJobs 0, .advance, .finish .promises 0, .advance,
        .settlePromise 0 (some (.value none)) 0]) :=
  always_exclusive letterConfig _ (by
    simp only [oneJob, List.cons_append, List.nil_append, Meets]
    decide +kernel)

/-- **`processJob` runs a job that is running**: after two calls the only job, which has one
attempt, has two handler calls in flight and two attempts. -/
theorem processJob_runs_twice :
    let s := run (Workers.step letterConfig) {} (oneJob ++
      [.processJob (js "a"), .finish .promises 0, .processJob (js "a")])
    s.inFlight.map Invocation.job = [js "a", js "a"] ∧
      (s.jobs.get (js "a")).map (fun job ↦ (job.attempts, job.maxAttempts)) = some (2, 1) := by
  decide +kernel

end Utix.Workers

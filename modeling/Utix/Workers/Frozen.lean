import Utix.Lib.Run
import Utix.Workers.Effects

/-!
# Finished jobs are left alone

The lifecycle table refuses every move of a succeeded or dead-lettered job. The other fields of a
job are not behind that table: `settle`, `handleFailure` and `runJob` write the error, the attempts
and the next attempt whether or not the move beside them was accepted. So a job that an operator
dead-letters while its handler is in flight loses its failure context when the handler settles.

`LeavesFinished` is what would have to be ruled out: a `settle` of a finished job that has something
to write, and a `runJob` on one. As long as it holds, **a job that is finished is never changed
again, in any field** (`finished_job_frozen`).
-/

namespace Utix.Workers

open Js Lib Lifecycle

/-- A settlement of this job changes nothing: the job is not finished yet, or the handler returned
normally and there is no error to clear. -/
def settlesQuietly (s : Framework) (error : Option Thrown) (job : JobPayload) : Bool :=
  !job.status.isTerminal || (s.phase = .idle && error.isNone && job.lastError.isNone)

/-- The step neither runs a finished job nor settles a handler call with something to write on
one. -/
def LeavesFinished (s : Framework) (c : Step) : Prop :=
  ((entering s c).bind s.jobs.get).all (fun job ↦ !job.status.isTerminal) = true ∧
    (settling s c).all (fun call ↦
      (s.jobs.get call.1.job).all (settlesQuietly s call.2)) = true

instance (s : Framework) (c : Step) : Decidable (LeavesFinished s c) :=
  inferInstanceAs (Decidable (_ ∧ _))

variable {config : WorkerConfig} {s : Framework} {c : Step} {id : JsString} {job : JobPayload}

/-- A finished job whose handler returned normally, without an error to clear. -/
theorem settleJob_of_quiet {registration : Registration} {error : Option Thrown} {now : ℤ}
    (hterminal : job.status.isTerminal = true) (hquiet : settlesQuietly s error job = true) :
    (settleJob s.phase s.shutdownReason registration error now job).1 = job := by
  simp only [settlesQuietly, hterminal, Bool.not_true, Bool.false_or, Bool.and_eq_true,
    decide_eq_true_eq, Option.isNone_iff_eq_none] at hquiet
  obtain ⟨⟨hphase, rfl⟩, herror⟩ := hquiet
  simp only [settleJob, hphase, ne_eq, not_true_eq_false, if_false, move_of_terminal hterminal,
    ← herror]

/-- A retry leaves a finished job alone. -/
theorem retried_of_terminal (hterminal : job.status.isTerminal = true) : retried job = job := by
  rw [retried, JobStatus.after_terminal hterminal]

/-- A change that leaves the job alone, wherever it is applied. -/
theorem get_modify_of_fixed {jobs : Dict JsString JobPayload} {other : JsString}
    {f : JobPayload → JobPayload} (hget : jobs.get id = some job)
    (hfixed : other = id → f job = job) : (jobs.modify other f).get id = some job := by
  rw [Dict.get_modify]
  split
  · next heq => rw [hget, Option.map_some, hfixed heq]
  · exact hget

/-- **One step leaves a finished job alone.** -/
theorem get_step_of_terminal (hfresh : Fresh config s) (hok : LeavesFinished s c)
    (hget : s.jobs.get id = some job) (hterminal : job.status.isTerminal = true) :
    (step config s c).jobs.get id = some job := by
  obtain ⟨hentering, hsettling⟩ := hok
  -- a step that enters `runJob` enters it for another job
  have hother : ∀ other, entering s c = some other → other ≠ id := by
    rintro other hentered rfl
    rw [hentered, Option.bind_some, hget] at hentering
    exact absurd hentering (by simp [hterminal])
  rcases step_effect config s c with ⟨hjobs, -, -⟩ | ⟨new, hid, -, -, hjobs, -, -⟩ |
    ⟨_, invocation, hentered, -, -, hjobs, -, -⟩ | ⟨other, hentered, hjobs, -, -⟩ |
    ⟨invocation, error, now, hcall, hjobs, -, -⟩ | ⟨other, hjobs, -, -⟩ | ⟨other, hjobs, -, -⟩
  · rw [hjobs, hget]
  · have hne : new.id ≠ id := by
      rintro rfl
      rw [hid, hfresh s.nextId le_rfl] at hget
      cases hget
    rw [hjobs, Dict.get_set, if_neg hne, hget]
  · rw [hjobs]
    exact get_modify_of_fixed hget fun heq ↦ absurd heq (hother _ hentered)
  · rw [hjobs]
    exact get_modify_of_fixed hget fun heq ↦ absurd heq (hother _ hentered)
  · rw [hjobs]
    refine get_modify_of_fixed hget fun heq ↦ settleJob_of_quiet hterminal ?_
    rw [hcall] at hsettling
    simpa [heq, hget] using hsettling
  · rw [hjobs]
    exact get_modify_of_fixed hget fun _ ↦ retried_of_terminal hterminal
  · rw [hjobs]
    exact get_modify_of_fixed hget fun _ ↦ move_of_terminal hterminal _

/-- A run leaves a finished job alone. -/
theorem get_run_of_terminal {steps : List Step} (hfresh : Fresh config s)
    (hok : Meets (step config) LeavesFinished s steps) (hget : s.jobs.get id = some job)
    (hterminal : job.status.isTerminal = true) :
    (run (step config) s steps).jobs.get id = some job := by
  induction steps generalizing s with
  | nil => exact hget
  | cons c steps ih =>
    exact ih (fresh_step hfresh) hok.2 (get_step_of_terminal hfresh hok.1 hget hterminal)

theorem fresh_run (steps : List Step) : ∀ {s : Framework}, Fresh config s →
    Fresh config (run (step config) s steps) := by
  induction steps with
  | nil => exact fun h ↦ h
  | cons c steps ih => exact fun h ↦ ih (fresh_step h)

/-- **A finished job is frozen**: whatever a run of a new framework does after a job has succeeded
or was dead-lettered, every field of it stays as it was, provided that no step runs it or settles a
handler call with something to write on it. -/
theorem finished_job_frozen (config : WorkerConfig) (first second : List Step) (id : JsString)
    (job : JobPayload) (hget : (run (step config) {} first).jobs.get id = some job)
    (hfinished : job.status = .succeeded ∨ job.status = .deadLettered)
    (hok : Meets (step config) LeavesFinished (run (step config) {} first) second) :
    (run (step config) {} (first ++ second)).jobs.get id = some job := by
  rw [run_append]
  exact get_run_of_terminal (fresh_run first fresh_init) hok hget
    ((JobStatus.isTerminal_iff _).2 hfinished)

/-- The job of `oneJob` is dead-lettered while it runs. -/
def deadLetteredInFlight : List Step :=
  oneJob ++ [.processJob (js "a"), .finish .promises 0, .deadLetter (js "a")]

/-- The handler resolves, and a drain and a retry pass over the job. -/
theorem finished_job_frozen_resolved :
    ∃ job, (run (step letterConfig) {} (deadLetteredInFlight ++
      [.settlePromise 0 none 0, .drainDueJobs 5, .advance, .retryJob (js "a")])).jobs.get (js "a") =
        some job ∧ job.status = .deadLettered ∧ job.lastError = none :=
  ⟨_, finished_job_frozen letterConfig deadLetteredInFlight _ (js "a")
    ⟨js "a", js "export", [], none, 1, 1, .deadLettered, js "1970-01-01T00:00:00.000Z", none, none,
      js "aa"⟩ (by decide +kernel) (by decide)
    (by simp only [Meets]; decide +kernel), rfl, rfl⟩

/-- **The failure context of a dead-lettered job is overwritten** when its handler is rejected. -/
theorem dead_letter_overwritten :
    ((run (step letterConfig) {} deadLetteredInFlight).jobs.get (js "a")).map
        (fun job ↦ (job.status, job.lastError)) = some (.deadLettered, none) ∧
      ((run (step letterConfig) {} (deadLetteredInFlight ++
        [.settlePromise 0 (some (.error (js "TypeError") (js "late") none)) 0])).jobs.get
          (js "a")).map (fun job ↦ (job.status, job.lastError)) =
        some (.deadLettered, some ⟨js "TypeError", js "late"⟩) := by
  decide +kernel

end Utix.Workers

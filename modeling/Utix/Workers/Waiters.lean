import Utix.Workers.Frozen
import Utix.Workers.Gate

/-!
# The waiters of a gate

A producer that finds the gate full may await `waitForCapacity()`. The gate resolves the waiters in
one place only: when `adjustCapacity` raises the capacity. It does not see a job leave the
framework, and it does not look at its waiters after an eviction. So a place can be free while the
producers go on waiting for one (`forgotten_waiter`).

Which job a step of the framework ends can be read off before the step (`ending`). As long as no
step ends a job of the gate while producers wait and the gate is not above its capacity, nobody is
forgotten (`always_no_forgotten_waiter`).

The proof follows one number, the live jobs of the label. A step of the framework lowers it by at
most the job that the step ends (`countLive_step_ge`); an enqueue through a full gate drops one job
and adds one, if the input is no duplicate and can be dated. While producers wait the gate is full,
so the number stays at the capacity or above it until an adjustment, and an adjustment that raises
the capacity lets every waiter go.
-/

namespace Utix.Workers

open Js Lib Lifecycle Option

/-! ### Jobs that leave the live states -/

/-- The event by which `settle` moves a job. -/
def settleEvent (phase : ShutdownPhase) (error : Option Thrown) (job : JobPayload) : JobEvent :=
  if phase = .idle ∧ error.isNone then .succeed
  else if job.maxAttempts ≤ job.attempts then .exhaust
  else .fail

/-- **The job that the step ends**, if it is live: `deadLetter` is called for it, it is run without
a handler, or its handler call settles and no attempt follows. -/
def ending (s : Framework) : Step → Option JobPayload
  | .deadLetter id => s.jobs.get id
  | c =>
    match entering s c, settling s c with
    | some id, _ => (s.jobs.get id).filter fun job ↦ (s.registrations.get job.operation).isNone
    | none, some (invocation, error) =>
      (s.jobs.get invocation.job).filter fun job ↦ settleEvent s.phase error job ≠ .fail
    | none, none => none

variable {label : JsString} {f : JobPayload → JobPayload} {job : JobPayload}

section Weight

variable {s t : Framework}

/-- A change of a job that keeps it live keeps the count. -/
theorem countLive_le_of_modify {id : JsString} (hjobs : t.jobs = s.jobs.modify id f)
    (hf : ∀ job, s.jobs.get id = some job → weight label job ≤ weight label (f job)) :
    countLive s label ≤ countLive t label := by
  cases hget : s.jobs.get id with
  | none =>
    have h := s.jobs.countP_modify id f (isLiveOf label)
    rw [hget, elim_none, elim_none, ← hjobs, ← countLive_eq, ← countLive_eq] at h
    omega
  | some job =>
    have hcount := countLive_modify hjobs hget label
    have := hf job hget
    omega

theorem weight_mono {a b : JobPayload} (hoperation : b.operation = a.operation)
    (hlive : isLive a.status = true → isLive b.status = true) :
    weight label a ≤ weight label b := by
  rw [weight, weight]
  split
  · next h =>
    rw [isLiveOf, Bool.and_eq_true] at h
    rw [if_pos]
    rw [isLiveOf, hoperation, h.1, hlive h.2, Bool.and_self]
  · exact Nat.zero_le _

theorem status_move (job : JobPayload) (event : JobEvent) :
    (job.move event).status = (job.status.after event).getD job.status := by
  rw [JobPayload.move]
  split <;> next hafter => rw [hafter]; rfl

/-- `settle` moves the job by its event. -/
theorem status_settleJob (phase : ShutdownPhase) (reason : Option JsString)
    (registration : Registration) (error : Option Thrown) (now : ℤ) (job : JobPayload) :
    (settleJob phase reason registration error now job).1.status =
      (job.status.after (settleEvent phase error job)).getD job.status := by
  simp only [settleJob, settleEvent]
  by_cases hphase : phase = .idle
  · rw [if_neg (not_not.2 hphase)]
    cases error with
    | none =>
      rw [if_pos ⟨hphase, rfl⟩]
      exact status_move job .succeed
    | some error =>
      rw [if_neg (fun h ↦ by cases h.2)]
      simp only [handleFailure]
      split
      · exact status_move _ .exhaust
      · split <;> exact status_move _ .fail
  · rw [if_pos hphase, if_neg (fun h ↦ hphase h.1)]
    simp only [settleCancelled]
    split
    · exact status_move _ .exhaust
    · exact status_move _ .fail

/-- Whatever is done to a job that is not live of the label. -/
theorem weight_le_of_not {a : JobPayload} (h : isLiveOf label a = false) (b : JobPayload) :
    weight label a ≤ weight label b := by
  rw [weight, if_neg (by rw [h]; exact Bool.false_ne_true)]
  exact Nat.zero_le _

end Weight

/-! ### What a step of the framework does to the count -/

variable {config : WorkerConfig} {input : JobInput} {now : ℤ}

section Count

variable {s t : Framework}

/-- The count is read off the jobs. -/
theorem countLive_of_jobs (hjobs : t.jobs = s.jobs) (label : JsString) :
    countLive t label = countLive s label := by
  rw [countLive, hjobs, countLive]

variable {c : Step}

theorem entering_of_settling {settled : Invocation × Option Thrown}
    (h : settling s c = some settled) : entering s c = none ∧ ∀ id, c ≠ .deadLetter id := by
  cases c with
  | finish outcome now => exact ⟨rfl, nofun⟩
  | settlePromise ticket error now => exact ⟨rfl, nofun⟩
  | _ => cases h

/-- **A change that a step makes to a job**, unless it ends it, keeps it live. -/
theorem Touches.weight_le {id : JsString} (htouches : Touches s c id f)
    (h : ∀ job, ending s c = some job → isLiveOf label job = false)
    (hget : s.jobs.get id = some job) : weight label job ≤ weight label (f job) := by
  cases htouches with
  | started =>
    refine weight_mono (keepsIdentity_runStarted job).2 fun hlive ↦ ?_
    rw [runStarted, status_move, JobStatus.after_eq]
    cases hstatus : job.status <;> simp_all [isLive]
  | unregistered hentered hfound hmissing =>
    rw [hget, some.injEq] at hfound
    subst hfound
    refine weight_le_of_not (h job ?_) _
    rw [ending]
    · simp [hentered, hget, filter_some, hmissing]
    · rintro other rfl
      cases hentered
  | @settled invocation error now hsettling =>
    by_cases hevent : settleEvent s.phase error job = .fail
    · refine weight_mono (keepsIdentity_settleJob s.phase s.shutdownReason invocation.registration
        error now job).2
        fun hlive ↦ ?_
      rw [status_settleJob, hevent, JobStatus.after_eq]
      cases hstatus : job.status <;> simp_all [isLive]
    obtain ⟨hentering, hne⟩ := entering_of_settling hsettling
    refine weight_le_of_not (h job ?_) _
    rw [ending]
    · simp [hentering, hsettling, hget, filter_some, hevent]
    · exact hne
  | reset =>
    refine weight_mono (keepsIdentity_retried job).2 fun hlive ↦ ?_
    rw [retried, JobStatus.after_eq]
    cases hstatus : job.status <;> simp_all [isLive]
  | deadLettered hcalled =>
    subst hcalled
    exact weight_le_of_not (h job hget) _

/-- **A step of the framework that ends no job of the label** keeps the count or raises it. -/
theorem countLive_le_step (hfresh : Fresh config s) (label : JsString)
    (h : ∀ job, ending s c = some job → isLiveOf label job = false) :
    countLive s label ≤ countLive (step config s c) label := by
  have hstep := jobs_step config s c
  generalize hjobs : (step config s c).jobs = jobs at hstep
  cases hstep with
  | kept => exact (countLive_of_jobs hjobs label).ge
  | enqueued _ hreply =>
    exact ((countLive_enqueue hreply _).2 hfresh).trans (countLive_of_jobs hjobs label).ge
  | changed htouches => exact countLive_le_of_modify hjobs fun _ ↦ htouches.weight_le h

end Count

/-! ### What the gate does to the count -/

section Gate

variable {s : Framework} {gate : Gate}

section

variable (h : Fresh config s)
include h

theorem fresh_correlated (input : JobInput) : Fresh config (correlated config s input) := by
  intro n hn
  rw [jobs_correlated]
  refine h n (le_trans ?_ hn)
  rw [correlated, correlate]
  split
  · exact le_rfl
  · exact Nat.le_succ _

theorem fresh_deadLetter (id : JsString) : Fresh config (deadLetter s id) :=
  fresh_modify (f := fun job ↦ job.move .deadLetter) h rfl rfl

end

/-- A new job of the label is one more. -/
theorem countLive_letIn_new (hfresh : Fresh config s) (gate : Gate) (label : JsString)
    (input : JobInput) (hmatch : startsWith input.operation label = true)
    (hduplicate : duplicateOf s input = none)
    (hdates : Dated input now) :
    countLive (letIn config s gate input now).2.1 label = countLive s label + 1 := by
  obtain ⟨job, hid, hoperation, hstatus, henqueue⟩ := enqueue_new config hduplicate hdates
  have hweight : weight label job = 1 := by
    rw [weight, isLiveOf, hoperation, hmatch, hstatus]
    rfl
  have hcount := countLive_set (s := s) (t := { s with
    jobs := s.jobs.set job.id job, nextId := s.nextId + 2 }) rfl label
  rw [hid, hfresh s.nextId le_rfl, elim_none, hweight] at hcount
  rw [letIn, henqueue, hid]
  exact hcount

end Gate

/-! ### No forgotten waiter -/

/-- **No forgotten waiter**: where the gate has room, nobody waits. -/
def NoForgottenWaiter (s : GatedFramework) : Prop :=
  s.gate.hasCapacity s.framework = true → s.gate.waiters = []

/-- The invariant. -/
structure WaitersInv (config : WorkerConfig) (s : GatedFramework) : Prop extends GateInv s where
  fresh : Fresh config s.framework
  heard : NoForgottenWaiter s

/-- **The condition**, while producers wait: unless the gate is above its capacity, no step ends a
job of the gate, and a job that is dropped makes room for a new one; and `adjustCapacity` can write
its date. -/
def Heard (s : GatedFramework) (c : GateStep) : Prop :=
  s.gate.waiters ≠ [] →
    match c with
    | .enqueue input now => s.gate.overfull s.framework = false →
        ∀ victim, victimOf s.gate s.framework = some victim →
          duplicateOf (deadLetter s.framework victim.id) input = none ∧ Dated input now
    | .waitForCapacity _ => True
    | .adjustCapacity _ _ _ now => (Date.toISOString now).isSome = true
    | .framework c => s.gate.overfull s.framework = false →
        ∀ job, ending s.framework c = some job → isLiveOf s.gate.label job = false

variable {s : GatedFramework}

/-- Where producers wait, as many jobs are live as the gate has room for. -/
theorem WaitersInv.full (h : WaitersInv config s) {n : ℤ} (hmax : s.gate.maxConcurrent = .ofInt n)
    (hwaiters : s.gate.waiters ≠ []) : n ≤ countLive s.framework s.gate.label := by
  by_contra hlive
  exact hwaiters (h.heard ((Gate.Sized.hasCapacity_iff hmax s.framework).2 (by omega)))

/-- It is enough that the live jobs fill the gate as long as producers wait. -/
theorem noForgottenWaiter_of {n : ℤ} (hmax : s.gate.maxConcurrent = .ofInt n)
    (h : s.gate.waiters ≠ [] → n ≤ countLive s.framework s.gate.label) : NoForgottenWaiter s := by
  intro hcapacity
  by_contra hwaiters
  rw [Gate.Sized.hasCapacity_iff hmax] at hcapacity
  have := h hwaiters
  omega

theorem fresh_gateStep (h : Fresh config s.framework) (c : GateStep) :
    Fresh config (gateStep config s c).framework := by
  cases c with
  | enqueue input now =>
    rw [gateStep]
    split
    · exact gateEnqueue_induction s.gate input now (fresh_correlated h input)
        (fun _ id ht ↦ fresh_deadLetter ht id) fun _ _ ht hid ↦ fresh_set ht hid rfl rfl
    · exact h
  | waitForCapacity promise =>
    rw [gateStep]
    split <;> exact h
  | adjustCapacity role next reason now =>
    rw [gateStep]
    split <;> exact h
  | framework c => exact fresh_step h

/-- A step of the framework ends one job at most. -/
theorem countLive_step_ge {s : Framework} (hfresh : Fresh config s) (c : Step) (label : JsString) :
    countLive s label ≤ countLive (step config s c) label + 1 := by
  have hmodify : ∀ id (f : JobPayload → JobPayload),
      (step config s c).jobs = s.jobs.modify id f →
        countLive s label ≤ countLive (step config s c) label + 1 := by
    intro id f hjobs
    cases hget : s.jobs.get id with
    | none =>
      have hle : countLive s label ≤ countLive (step config s c) label :=
        countLive_le_of_modify hjobs fun job hjob ↦ by
          rw [hget] at hjob
          cases hjob
      omega
    | some job =>
      have hcount := countLive_modify hjobs hget label
      have := weight_le label job
      omega
  have hstep := jobs_step config s c
  generalize hjobs : (step config s c).jobs = jobs at hstep
  cases hstep with
  | kept =>
    rw [countLive_of_jobs hjobs]
    exact Nat.le_succ _
  | enqueued _ hreply =>
    have hle := (countLive_enqueue hreply label).2 hfresh
    rw [← countLive_of_jobs hjobs] at hle
    omega
  | changed => exact hmodify _ _ hjobs

section

variable (h : WaitersInv config s)
include h

/-- An eviction makes room for a new job, so it leaves no place free. -/
theorem noForgottenWaiter_enqueue (hc : Heard s (.enqueue input now)) :
    NoForgottenWaiter ⟨(gateEnqueue config s.framework s.gate input now).2.1,
      (gateEnqueue config s.framework s.gate input now).2.2⟩ := by
  obtain ⟨n, -, hmax⟩ := h.sized
  obtain ⟨hlabel, hsame, hwaiters⟩ := gate_gateEnqueue config s.framework s.gate input now
  refine noForgottenWaiter_of (hsame.trans hmax) fun hwaiting ↦ ?_
  dsimp only at hwaiting ⊢
  rw [hwaiters] at hwaiting
  rw [hlabel]
  have hfull := h.full hmax hwaiting
  have hfresh := fresh_correlated h.fresh input
  rcases gateEnqueue_cases config s.framework s.gate input now with ⟨-, heq⟩ |
    ⟨hmatch, -, victim, hvictim, heq⟩ | ⟨-, -, -, heq⟩
  · rw [heq]
    have hle := (countLive_letIn config _ s.gate (labelled config s.framework input) now
      s.gate.label).2 hfresh
    rw [countLive_correlated] at hle
    omega
  · have hevicted := countLive_evicted h.filed hvictim config input
    have hfreed := fresh_deadLetter hfresh victim.id
    rw [heq]
    cases hover : s.gate.overfull s.framework with
    | true =>
      -- above the capacity: one place less to fill
      rw [Gate.overfull, hmax, JsNum.less_ofInt, decide_eq_true_eq] at hover
      have hle := (countLive_letIn config _ { s.gate with evicted := s.gate.evicted + 1 }
        (labelled config s.framework input) now s.gate.label).2 hfreed
      dsimp only at hle
      omega
    | false =>
      obtain ⟨hduplicate, hdates⟩ := hc hwaiting hover victim hvictim
      have hnew := countLive_letIn_new hfreed { s.gate with evicted := s.gate.evicted + 1 }
        s.gate.label (labelled config s.framework input) hmatch
        (by rw [← hduplicate, duplicateOf, duplicateOf, deadLetter, deadLetter, Framework.change,
              Framework.change, jobs_correlated]; rfl) hdates
      dsimp only at hnew
      omega
  · rw [heq, countLive_correlated]
    exact hfull

/-- Raising the capacity lets all waiters go. -/
theorem noForgottenWaiter_adjust {role : Role} {next : JsNum} {reason : JsString}
    (hc : Heard s (.adjustCapacity role next reason now)) :
    NoForgottenWaiter { s with gate := (adjustCapacity s.gate role next reason now).2 } := by
  rw [adjustCapacity]
  split
  · exact h.heard
  split
  · exact h.heard
  next hchecks =>
  obtain ⟨m, -, rfl⟩ := sized_of_checks (Bool.eq_false_iff.2 hchecks)
  obtain ⟨n, -, hmax⟩ := h.sized
  split
  · exact h.heard
  dsimp only
  split
  · next hdate =>
    refine noForgottenWaiter_of (n := m) rfl fun hwaiting ↦ ?_
    have hsome := hc hwaiting
    simp only [hdate, isSome_none] at hsome
    cases hsome
  · dsimp only
    split
    · exact fun _ ↦ rfl
    next hless =>
    refine noForgottenWaiter_of (n := m) rfl fun hwaiting ↦ ?_
    have hfull := h.full hmax hwaiting
    rw [hmax, JsNum.less_ofInt, decide_eq_true_eq] at hless
    dsimp only
    omega

/-- **One step forgets no waiter.** -/
theorem noForgottenWaiter_step {c : GateStep} (hc : Heard s c) :
    NoForgottenWaiter (gateStep config s c) := by
  cases c with
  | enqueue input now =>
    rw [gateStep]
    split
    · exact noForgottenWaiter_enqueue h hc
    · exact h.heard
  | waitForCapacity promise =>
    rw [gateStep]
    split
    · rw [waitForCapacity]
      split
      · exact h.heard
      · next hfull => exact fun hcapacity ↦ absurd hcapacity hfull
    · exact h.heard
  | adjustCapacity role next reason now =>
    rw [gateStep]
    split
    · exact noForgottenWaiter_adjust h hc
    · exact h.heard
  | framework c =>
    obtain ⟨n, -, hmax⟩ := h.sized
    refine noForgottenWaiter_of (s := gateStep config s (.framework c)) hmax fun hwaiting ↦ ?_
    have hfull := h.full hmax hwaiting
    rw [gateStep]
    cases hover : s.gate.overfull s.framework with
    | true =>
      rw [Gate.overfull, hmax, JsNum.less_ofInt, decide_eq_true_eq] at hover
      have hge := countLive_step_ge h.fresh c s.gate.label
      dsimp only
      omega
    | false =>
      have hle := countLive_le_step h.fresh s.gate.label (hc hwaiting hover)
      dsimp only
      omega

/-- The step: a call that is heard keeps the invariant. -/
theorem waitersInv_step {c : GateStep} (hc : Heard s c) :
    WaitersInv config (gateStep config s c) where
  toGateInv := gateInv_step h.toGateInv c
  fresh := fresh_gateStep h.fresh c
  heard := noForgottenWaiter_step h hc

end

/-- **No forgotten waiter.** In every run of a new gate and its framework whose steps end no job of
the gate unheard, nobody waits where the gate has room, after any step. -/
theorem always_no_forgotten_waiter {config : WorkerConfig} {options : BackpressureOptions}
    {collates : JsString → JsString → Bool} {gate : Gate}
    (hgate : createBoundedEnqueueGate options collates = some gate) {before : List Step}
    {steps : List GateStep}
    (hsteps : Meets (gateStep config) Heard (gated config before gate) steps) :
    Always (gateStep config) NoForgottenWaiter (gated config before gate) steps := by
  have hstart : WaitersInv config (gated config before gate) :=
    ⟨⟨jobsFiled_run config before, (create_eq_some hgate).1⟩, fresh_run before fresh_init,
      fun _ ↦ (create_eq_some hgate).2⟩
  exact always_of_meets (fun s _ (hinv : WaitersInv config s) hok ↦ waitersInv_step hinv hok)
    (fun _ hinv ↦ hinv.heard) hstart hsteps

/-- A gate for one export. -/
def singleOptions : BackpressureOptions where
  maxConcurrent := .ofInt 1
  label := js "export"

/-- The gate of `singleOptions`. -/
def singleGate : Gate :=
  (createBoundedEnqueueGate singleOptions fun _ _ ↦ true).get (by decide +kernel)

/-- An export, and a producer that waits for the end of it. -/
def exportAndWait : List GateStep :=
  [.framework (.register (js "export") none none), enqueueExport, .waitForCapacity 1]

/-- A waiter who is heard: the capacity is raised. -/
theorem always_no_forgotten_waiter_raised :
    let steps := exportAndWait ++ [.adjustCapacity .maintainer (.ofInt 2) (js "rush") 0]
    (run (gateStep letterConfig) (gated letterConfig [] singleGate)
      exportAndWait).gate.waiters = [1] ∧
    Always (gateStep letterConfig) NoForgottenWaiter (gated letterConfig [] singleGate) steps := by
  refine ⟨by decide +kernel, always_no_forgotten_waiter (some_get _).symm ?_⟩
  refine ⟨?_, ?_, ?_, ?_, trivial⟩
  · exact fun h ↦ absurd rfl h
  · exact fun h ↦ absurd rfl h
  · exact fun _ ↦ trivial
  · exact fun _ ↦ by decide +kernel

/-- **A forgotten waiter**: the export is drained and its handler returns. No export is live, and
the producer waits on. -/
theorem forgotten_waiter :
    let s := run (gateStep letterConfig) (gated letterConfig [] singleGate) (exportAndWait ++
      [.framework (.drainDueJobs 0), .framework .advance, .framework (.finish (.settles none) 0),
        .framework .advance])
    s.framework.stack = [] ∧ countLive s.framework (js "export") = 0 ∧
      s.gate.maxConcurrent = .ofInt 1 ∧ s.gate.waiters = [1] := by
  decide +kernel

end Utix.Workers

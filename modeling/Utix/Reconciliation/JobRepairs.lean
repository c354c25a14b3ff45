import Utix.Reconciliation.Applied
import Utix.Reconciliation.Legible

/-!
# Repairs of jobs

Three strategies act on jobs, and each looks at the snapshot for itself: `dead_letter_job` at the
budget of attempts, `cancel_duplicate_job` at the age of the jobs with one dedupe key, and
`requeue_job` at the deadline. Only the first is heard by the other two, through `terminalJobs`.

None of them is given the job that a check spoke of. What they get is a finding of the report, where
the id of the job has passed two scrubbers, and they look for a job whose id is the text that is
left. So an id that is taken for a secret is never repaired, an id that is cut may be taken for
another one, and of two findings that are shown under one id the planner hears the first.
`Addressed` says what comes through of all that: the id of a record that the planner is asked to
repair. It is a condition on the report of the snapshot alone.

With it, for jobs with distinct ids and no other assumption, `DeadLettered`, `Cancelled` and
`Requeued` say for which jobs the plan has an action. `jobRepair_of_record` is the one direction: an
action on a job was planned on one of the three grounds. `exists_deadLetter`, `exists_cancel` and
`exists_requeue` are the other: the plan has every action it has a ground for.
-/

namespace Utix.Reconciliation

open Js Telemetry List

/-! ### The ids of actions -/

theorem colon_notMem_kind (kind : RepairActionKind) : 58 ∉ kind.text := by
  cases kind <;> decide +kernel

/-- **The id of an action names its kind and its record.** -/
theorem actionId_inj {k l : RepairActionKind} {a b : JsString} (h : actionId k a = actionId l b) :
    k = l ∧ a = b := by
  rw [actionId, actionId, append_assoc, append_assoc, show js ":" = [58] by decide] at h
  obtain ⟨htext, hrest⟩ := append_cons_inj (colon_notMem_kind k) (colon_notMem_kind l) h
  refine ⟨?_, hrest⟩
  revert htext
  cases k <;> cases l <;> decide +kernel

/-! ### What a job is left as -/

/-- The values of a job that is dead-lettered. -/
def deadLettered : Values := .ofList [(js "status", .text (js "dead_lettered"))]

section

variable (nextAttemptAt : JsString)

/-- The values of a job that is queued again. -/
def queuedAgain : Values :=
  .ofList [(js "status", .text (js "queued")), (js "nextAttemptAt", .text nextAttemptAt)]

@[simp] theorem textAt_deadLettered :
    textAt deadLettered (js "status") = some (js "dead_lettered") := by
  decide +kernel

@[simp] theorem textAt_queuedAgain :
    textAt (queuedAgain nextAttemptAt) (js "status") = some (js "queued") := by
  rfl

end

/-! ### The jobs that are repaired -/

section

variable (env : Env) (input : ReconciliationInput)

/-- The findings that the report on a snapshot shows. -/
def shownFindings : List Finding := (produced env input).map Finding.redact

/-- **The planner is asked to repair the record of this id**: some finding shows the id, free of the
mark, and no other is shown before it with the same finding id. -/
def Addressed (invariant : Invariant) (id : JsString) : Prop :=
  ∃ f ∈ shownFindings env input, Heads (shownFindings env input) f ∧ f.invariant = invariant ∧
    f.recordId = id ∧ includes id redacted = false

instance instDecidableAddressed (invariant : Invariant) (id : JsString) :
    Decidable (Addressed env input invariant id) :=
  inferInstanceAs (Decidable (∃ f ∈ shownFindings env input, _))

variable (job : JobPayload)

/-- `terminalJobs.has(job.id)`: the job is shown as one that has used all its attempts. -/
abbrev Terminal : Prop := job.id ∈ terminalJobsOf (shownFindings env input)

/-- The plan dead-letters the job for its attempts. -/
abbrev DeadLettered : Prop := Addressed env input .budgetConsistent job.id

/-- **The plan cancels the job**: it is pending and not the oldest with its dedupe key, one of the
jobs with that key is reported as a duplicate, and the job is not terminal. -/
def Cancelled : Prop :=
  job.pending = true ∧ ¬ Terminal env input job ∧ ∃ key ∈ job.dedupeKey,
    (∃ keep ∈ oldestJob env (dedupeGroup input key), job.id ≠ keep.id) ∧
      ∃ other ∈ input.jobs, other.dedupeKey = some key ∧
        Addressed env input .dedupeUnique other.id

instance instDecidableCancelled : Decidable (Cancelled env input job) :=
  inferInstanceAs (Decidable (_ ∧ _ ∧ ∃ key ∈ job.dedupeKey, _))

/-- **The plan queues the job again**: it is reported as overdue, it is not terminal, and the queue
as a whole is not stalled. -/
def Requeued : Prop :=
  Addressed env input .progress job.id ∧ ¬ Terminal env input job ∧ queueStalled env input = false

instance instDecidableRequeued : Decidable (Requeued env input job) :=
  inferInstanceAs (Decidable (_ ∧ _))

end

/-- **Why the plan has an action on a job, and what the action leaves.** -/
inductive JobRepair (env : Env) (input : ReconciliationInput) (job : JobPayload)
    (a : RepairAction) : Prop
  | deadLetter (hid : a.id = actionId .deadLetterJob job.id) (hdead : DeadLettered env input job)
      (hafter : a.after = deadLettered)
  | cancel (hid : a.id = actionId .cancelDuplicateJob job.id) (hcancel : Cancelled env input job)
      (hafter : a.after = deadLettered)
  | requeue {nextAttemptAt : JsString} (hid : a.id = actionId .requeueJob job.id)
      (hrequeue : Requeued env input job) (hafter : a.after = queuedAgain nextAttemptAt)

variable {env : Env} {input : ReconciliationInput} {runId key : JsString}
  {report : ReconciliationReport} {plan : RepairPlan} {job : JobPayload} {a : RepairAction}
  {f : Finding} {id : JsString} {kind : RepairActionKind}

/-- The findings of a report are those of the snapshot, redacted. -/
theorem findings_eq_shownFindings (h : reconcile env input runId = some report) :
    report.findings = shownFindings env input := by
  rw [reconcile] at h
  obtain ⟨startedAt, -, hreport⟩ := Option.bind_eq_some_iff.1 h
  cases hreport
  rfl

/-! ### Jobs by their ids -/

/-- The jobs with one dedupe key that are still pending. -/
theorem mem_dedupeGroup :
    job ∈ dedupeGroup input key ↔
      job ∈ input.jobs ∧ job.pending = true ∧ job.dedupeKey = some key := by
  rw [dedupeGroup, mem_filter, pendingJobs, mem_filter, and_assoc, decide_eq_true_iff]

/-- A job that is found has the id that the finding shows. -/
theorem locateJob_eq_some (h : locateJob input f = some job) :
    job ∈ input.jobs ∧ job.id = f.recordId :=
  ⟨mem_of_find?_eq_some h, by simpa using find?_some h⟩

section

variable (hids : (input.jobs.map JobPayload.id).Nodup)
include hids

theorem eq_of_id_eq {job' : JobPayload} (h : job ∈ input.jobs) (h' : job' ∈ input.jobs)
    (hid : job.id = job'.id) : job = job' :=
  inj_on_of_nodup_map hids h h' hid

/-- The job of the id that a finding shows is found. -/
theorem locateJob_eq (h : job ∈ input.jobs) (hid : f.recordId = job.id) :
    locateJob input f = some job := by
  obtain ⟨found, hfound⟩ := locateJob_isSome (f := f) ⟨job, h, hid.symm⟩
  obtain ⟨hmem, hid'⟩ := locateJob_eq_some hfound
  rw [hfound, eq_of_id_eq hids hmem h (hid'.trans hid)]

end

/-! ### Why there is an action -/

/-- The cause that is shown of an overdue job tells whether the whole queue is stalled. -/
theorem stalled_iff (hf : f ∈ shownFindings env input) (hinv : f.invariant = .progress) :
    f.rootCause.code = js "scheduler_not_draining" ↔ queueStalled env input = true := by
  obtain ⟨g, hg, rfl⟩ := mem_map.1 hf
  obtain ⟨invariant, -, hg⟩ := mem_flatMap.1 hg
  obtain ⟨v, hv, rfl⟩ := mem_map.1 hg
  obtain rfl : invariant = .progress := (invariant_of_mem_violations v hv).symm.trans hinv
  obtain ⟨job, hjob, rfl⟩ := mem_map.1 hv
  have hstalled : scrubString (js "scheduler_not_draining") = js "scheduler_not_draining" := by
    decide +kernel
  have hretry : scrubString (js "backoff_not_rescheduled") ≠ js "scheduler_not_draining" := by
    decide +kernel
  have hnew : scrubString (js "job_not_picked_up") ≠ js "scheduler_not_draining" := by
    decide +kernel
  simp only [finding, Finding.redact, RootCauseHint.redact, scrubCause, cause]
  by_cases hqueue : queueStalled env input = true
  · simp [hqueue, hstalled]
  · by_cases hstatus : job.status = js "retrying" <;> simp [hqueue, hstatus, hretry, hnew]

/-- A job that is dead-lettered is terminal for the other strategies. -/
theorem terminal_of_deadLettered (h : DeadLettered env input job) : Terminal env input job := by
  obtain ⟨f, hf, -, hinv, hid, -⟩ := h
  exact mem_map.2 ⟨f, mem_filter.2 ⟨hf, decide_eq_true hinv⟩, hid⟩

section

variable (hplan : PlanSpec env input (shownFindings env input) plan)
include hplan

/-- **An action on a job was planned for that job**, on one of three grounds. -/
theorem jobRepair_of_record (hids : (input.jobs.map JobPayload.id).Nodup) (ha : a ∈ plan.actions)
    (hjob : job ∈ input.jobs) (hrec : a.record = .job job.id) : JobRepair env input job a := by
  obtain ⟨f, hf, entry, hplans, heq⟩ := hplan.drawn a ha
  obtain ⟨horigin, hmark⟩ := origin_of_plans hplans
  have hrec' : entry.record = .job job.id := hrec ▸ heq ▸ rfl
  have hid : a.id = entry.id := heq ▸ rfl
  have hafter : a.after = entry.after := heq ▸ rfl
  -- the finding is about the job that it is looked up by
  have haddressed : ∀ {found}, locateJob input f = some found →
      Addressed env input f.invariant found.id := fun h ↦ by
    rw [(locateJob_eq_some h).2]
    exact ⟨f, hf.mem, hf, rfl, rfl, hmark⟩
  cases horigin with
  | @deadLetter found hinv hfound =>
    have hsame : found.id = job.id := RecordRef.job.inj hrec'
    refine .deadLetter (hsame ▸ hid) ?_ hafter
    rw [DeadLettered, ← hsame, ← hinv]
    exact haddressed hfound
  | @cancel found keep doomed key hinv hfound hkey hkeep hgroup hne hlive =>
    obtain ⟨hmem, hpending, hdoomed⟩ := mem_dedupeGroup.1 hgroup
    obtain rfl : doomed = job := eq_of_id_eq hids hmem hjob (RecordRef.job.inj hrec')
    refine .cancel hid ⟨hpending, hlive, key, hdoomed, ⟨keep, hkeep, hne⟩, found,
      (locateJob_eq_some hfound).1, hkey, ?_⟩ hafter
    exact hinv ▸ haddressed hfound
  | @requeue found _ hinv hfound hlive hcode hnow =>
    obtain rfl : found = job :=
      eq_of_id_eq hids (locateJob_eq_some hfound).1 hjob (RecordRef.job.inj hrec')
    refine .requeue hid ⟨hinv ▸ haddressed hfound, hlive, ?_⟩ hafter
    rwa [← Bool.not_eq_true, ← stalled_iff hf.mem hinv]
  | _ => cases hrec'

/-! ### The actions there are -/

/-- An action with an id of one of the three kinds is about the job of that id. -/
theorem record_of_id (ha : a ∈ plan.actions) (hid : a.id = actionId kind id)
    (hkind : kind ∈ [RepairActionKind.deadLetterJob, .cancelDuplicateJob, .requeueJob]) :
    a.record = .job id := by
  obtain ⟨f, -, entry, hplans, heq⟩ := hplan.drawn a ha
  have hrec : a.record = entry.record := heq ▸ rfl
  have hid' : entry.id = actionId kind id := by rw [← hid, heq]
  rw [hrec]
  cases (origin_of_plans hplans).1 <;> obtain ⟨rfl, rfl⟩ := actionId_inj hid' <;>
    first | rfl | simp at hkind

/-- What the strategy answers to a finding that is not passed over is in the plan. -/
theorem exists_action (hf : Heads (shownFindings env input) f)
    (hmark : includes f.recordId redacted = false)
    (hkind : repairStrategies f.invariant = some kind)
    (hjobs : kind ∈ [RepairActionKind.deadLetterJob, .cancelDuplicateJob, .requeueJob])
    {l : List RepairAction} (hlist : strategy env input
      (terminalJobsOf (shownFindings env input)) f kind = some (.actions l))
    {e : RepairAction} (hentry : e ∈ l) (hid : e.id = actionId kind id) :
    ∃ a ∈ plan.actions, a.record = .job id ∧ a.id = actionId kind id := by
  obtain ⟨g, hg, hgid, hentered⟩ := hplan.entered f hf.mem
  obtain rfl := hg.eq hf hgid
  have hplanned : plannedFor env input (terminalJobsOf (shownFindings env input)) g =
      some (.actions l) := by
    simp only [plannedFor, hkind, hmark, Bool.false_eq_true, if_false, hlist]
  rcases hentered with ⟨reason, hmanual, -⟩ | ⟨list', hlist', hall⟩
  · rw [hplanned] at hmanual
    cases hmanual
  · rw [hplanned] at hlist'
    cases hlist'
    obtain ⟨a, ha, haid⟩ := hall e hentry
    exact ⟨a, ha, record_of_id hplan ha (haid.trans hid) hjobs, haid.trans hid⟩

variable (hids : (input.jobs.map JobPayload.id).Nodup) (hjob : job ∈ input.jobs)
include hids hjob

/-- What should be dead-lettered is in the plan. -/
theorem exists_deadLetter (h : DeadLettered env input job) :
    ∃ a ∈ plan.actions, a.record = .job job.id ∧ a.id = actionId .deadLetterJob job.id := by
  obtain ⟨f, -, hf, hinv, hid, hmark⟩ := h
  refine exists_action hplan hf (hid ▸ hmark) (hinv ▸ rfl) (by simp)
    (l := [f.deadLetterAction job]) ?_ (mem_singleton_self _) rfl
  rw [strategy, deadLetterJob, locateJob_eq hids hjob hid]

/-- What should be cancelled is in the plan. -/
theorem exists_cancel (h : Cancelled env input job) :
    ∃ a ∈ plan.actions, a.record = .job job.id ∧ a.id = actionId .cancelDuplicateJob job.id := by
  obtain ⟨hpending, hlive, key, hkey, ⟨keep, hkeep, hne⟩, other, hother, hother',
    f, -, hf, hinv, hid, hmark⟩ := h
  have hdoomed : job ∈ (dedupeGroup input key).filter fun entry ↦
      entry.id ≠ keep.id ∧ entry.id ∉ terminalJobsOf (shownFindings env input) :=
    mem_filter.2 ⟨mem_dedupeGroup.2 ⟨hjob, hpending, hkey⟩, decide_eq_true ⟨hne, hlive⟩⟩
  refine exists_action hplan hf (hid ▸ hmark) (hinv ▸ rfl) (by simp)
    (e := f.cancelAction keep job) ?_ (mem_map.2 ⟨job, hdoomed, rfl⟩) rfl
  rw [strategy, cancelDuplicateJob, locateJob_eq hids hother hid, Option.bind_some, hother']
  simp only [Option.mem_def.1 hkeep, Option.map_some, if_neg (ne_nil_of_mem hdoomed)]

/-- What should be queued again is in the plan. -/
theorem exists_requeue (h : Requeued env input job) (hnow : (Date.toISOString input.now).isSome) :
    ∃ a ∈ plan.actions, a.record = .job job.id ∧ a.id = actionId .requeueJob job.id := by
  obtain ⟨⟨f, hmem, hf, hinv, hid, hmark⟩, hlive, hstalled⟩ := h
  obtain ⟨nextAttemptAt, hnow⟩ := Option.isSome_iff_exists.1 hnow
  have hcode : f.rootCause.code ≠ js "scheduler_not_draining" := by
    rw [Ne, stalled_iff hmem hinv, hstalled]
    exact Bool.false_ne_true
  refine exists_action hplan hf (hid ▸ hmark) (hinv ▸ rfl) (by simp)
    (l := [f.requeueAction job nextAttemptAt]) ?_ (mem_singleton_self _) rfl
  rw [strategy, requeueJob, locateJob_eq hids hjob hid]
  simp only [if_neg hlive, if_neg hcode, hnow, Option.map_some]

end

end Utix.Reconciliation

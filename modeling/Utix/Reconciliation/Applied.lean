import Utix.Lib.Run
import Utix.Reconciliation.Planned

/-!
# Applying a plan

What an action describes, done to a snapshot. `repair.ts` leaves the writing to handlers that are
passed in; an action says which record it is about (`target`) and how that record is to be left
(`after`), and `applyAction` does that and nothing else. A plan is applied in its order.

An action on a job changes the status and the time of the next attempt of that job, so the jobs
after a plan are the jobs before it, each changed on its own: `jobs_applyAll`. Two actions of a plan
may be about one job, and then the later one decides, unless they leave the job alike (`Unopposed`).
Every other action removes records or rewrites them in place, and touches no job.
-/

namespace Utix.Reconciliation

open Js Lib List StoredBalance

/-! ### Records -/

/-- The text under a key, if there is one. -/
def textAt (values : Values) (key : JsString) : Option JsString :=
  match values.get key with
  | some (.text s) => some s
  | _ => none

/-- A stored record, by its identity. -/
inductive RecordRef
  | line (account asset : JsString)
  | job (id : JsString)
  | claim (key : JsString)
  | envelope (correlationId : JsString)
  | notification (recipient id : JsString)
deriving DecidableEq

/-- The record that an action is about. -/
def RepairAction.record (a : RepairAction) : RecordRef :=
  let target key := (textAt a.target key).getD []
  match a.kind with
  | .recacheBalance => .line (target (js "account")) (target (js "asset"))
  | .dropBalanceLine => .line (target (js "account")) (target (js "asset"))
  | .dedupeBalanceLines => .line (target (js "account")) (target (js "asset"))
  | .deadLetterJob => .job (target (js "jobId"))
  | .cancelDuplicateJob => .job (target (js "jobId"))
  | .requeueJob => .job (target (js "jobId"))
  | .sweepIdempotency => .claim (target (js "key"))
  | .purgeEnvelope => .envelope (target (js "correlationId"))
  | .dropNotification => .notification (target (js "recipient")) (target (js "id"))
  | .collapseNotification => .notification (target (js "recipient")) (target (js "id"))

/-! ### Applying an action -/

/-- The list without the items that satisfy `p`, except the first of them. -/
def keepFirst {α : Type} (p : α → Bool) : List α → List α
  | [] => []
  | x :: xs => if p x then x :: xs.filter (!p ·) else x :: keepFirst p xs

/-- The line is the one of an asset of an account. -/
def StoredBalance.isAt (account asset : JsString) (line : StoredBalance) : Bool :=
  line.account = account ∧ line.asset = asset

/-- The notification is the one with an id for a recipient. -/
def Notification.isAt (recipient id : JsString) (entry : Notification) : Bool :=
  entry.recipient = recipient ∧ entry.id = id

namespace RepairAction

variable (a : RepairAction)

/-- The line as the action leaves it. -/
def onLine (line : StoredBalance) : StoredBalance :=
  { line with
    balance := (textAt a.after (js "balance")).getD line.balance
    cachedAt := textAt a.after (js "cachedAt") }

/-- The lines as the action leaves them. -/
def onLines (account asset : JsString) (lines : List StoredBalance) : List StoredBalance :=
  let write (line : StoredBalance) := if line.isAt account asset then a.onLine line else line
  match a.kind with
  | .dropBalanceLine => lines.filter fun line ↦ !line.isAt account asset
  | .dedupeBalanceLines => (keepFirst (StoredBalance.isAt account asset) lines).map write
  | _ => lines.map write

/-- The job as the action leaves it. -/
def onJob (job : JobPayload) : JobPayload :=
  { job with
    status := (textAt a.after (js "status")).getD job.status
    nextAttemptAt := (textAt a.after (js "nextAttemptAt")).or job.nextAttemptAt }

/-- The job after the action, whether it is about the job or not. -/
def applyJob (job : JobPayload) : JobPayload :=
  if a.record = .job job.id then a.onJob job else job

/-- The notifications as the action leaves them. -/
def onNotifications (recipient id : JsString) (entries : List Notification) :
    List Notification :=
  match a.kind with
  | .collapseNotification => keepFirst (Notification.isAt recipient id) entries
  | _ => entries.filter fun entry ↦ !entry.isAt recipient id

end RepairAction

/-- **The snapshot after an action**, as its `after` describes. -/
def applyAction (input : ReconciliationInput) (a : RepairAction) : ReconciliationInput :=
  match a.record with
  | .line account asset =>
    { input with storedBalances := a.onLines account asset input.storedBalances }
  | .job _ => { input with jobs := input.jobs.map a.applyJob }
  | .claim key =>
    { input with
      idempotencyRecords := input.idempotencyRecords.filter fun record ↦ record.key ≠ key }
  | .envelope id =>
    { input with
      exportEnvelopes := input.exportEnvelopes.filter fun envelope ↦ envelope.correlationId ≠ id }
  | .notification recipient id =>
    { input with notifications := a.onNotifications recipient id input.notifications }

section

variable (actions : List RepairAction)

section

variable (input : ReconciliationInput)

/-- The snapshot after the actions, in their order. -/
def applyAll : ReconciliationInput :=
  run applyAction input actions

/-! ### Jobs, each on its own -/

/-- The job after the actions, in their order. -/
def finalJob (job : JobPayload) : JobPayload :=
  run (fun job a ↦ a.applyJob job) job actions

/-- An action changes the jobs one by one. -/
theorem jobs_applyAction (a : RepairAction) :
    (applyAction input a).jobs = input.jobs.map a.applyJob := by
  have hother : (∀ id, a.record ≠ .job id) → input.jobs = input.jobs.map a.applyJob := by
    intro h
    refine (map_id _).symm.trans (map_congr_left fun job _ ↦ ?_)
    rw [RepairAction.applyJob, if_neg (h job.id)]
    rfl
  rw [applyAction]
  split
  · next hrec => exact hother fun id h ↦ by simp [hrec] at h
  · rfl
  · next hrec => exact hother fun id h ↦ by simp [hrec] at h
  · next hrec => exact hother fun id h ↦ by simp [hrec] at h
  · next hrec => exact hother fun id h ↦ by simp [hrec] at h

/-- **The jobs after a plan are the jobs before it, each changed on its own.** -/
theorem jobs_applyAll : (applyAll actions input).jobs = input.jobs.map (finalJob actions) := by
  induction actions generalizing input with
  | nil => exact (map_id _).symm
  | cons a actions ih =>
    rw [applyAll, run_cons]
    refine (ih _).trans ?_
    rw [jobs_applyAction, map_map]
    rfl

end

/-- The job is the same work: only its status and its next attempt may differ. -/
structure SameWork (job' job : JobPayload) : Prop where
  id : job'.id = job.id
  dedupeKey : job'.dedupeKey = job.dedupeKey
  attempts : job'.attempts = job.attempts
  maxAttempts : job'.maxAttempts = job.maxAttempts

theorem sameWork_applyJob (a : RepairAction) {job' job : JobPayload} (h : SameWork job' job) :
    SameWork (a.applyJob job') job := by
  rw [RepairAction.applyJob]
  split
  · exact ⟨h.id, h.dedupeKey, h.attempts, h.maxAttempts⟩
  · exact h

/-- No action changes the work that a job stands for. -/
theorem sameWork_finalJob (job : JobPayload) : SameWork (finalJob actions job) job :=
  run_invariant (SameWork · job) (fun _ a h ↦ sameWork_applyJob a h) ⟨rfl, rfl, rfl, rfl⟩ actions

/-- No other action leaves the record of this one in another state. -/
def Unopposed (a : RepairAction) : Prop :=
  ∀ b ∈ actions, b.record = a.record → b.after = a.after

end

variable {actions : List RepairAction} {a : RepairAction}

section

variable {job : JobPayload} {p : JobPayload → Prop}

/-- **An action that nothing opposes has its way with the job.** -/
theorem finalJob_established (ha : a ∈ actions) (hrec : a.record = .job job.id)
    (hone : Unopposed actions a) (hp : ∀ b : RepairAction, b.after = a.after → ∀ s, p (b.onJob s)) :
    p (finalJob actions job) := by
  have hinv : ∀ b ∈ actions, ∀ s : JobPayload, s.id = job.id → (b.applyJob s).id = job.id :=
    fun b _ s hs ↦ (sameWork_applyJob b ⟨rfl, rfl, rfl, rfl⟩).id.trans hs
  have hset : ∀ s : JobPayload, s.id = job.id → p (a.applyJob s) := by
    intro s hs
    rw [RepairAction.applyJob, if_pos (hs ▸ hrec)]
    exact hp a rfl s
  have hkeep : ∀ b ∈ actions, ∀ s : JobPayload, s.id = job.id → p s → p (b.applyJob s) := by
    intro b hb s hs hps
    rw [RepairAction.applyJob]
    split
    · next hb' => exact hp b (hone b hb (hb'.trans (hs ▸ hrec.symm))) s
    · exact hps
  exact run_established hinv hset hkeep rfl (.inl ha)

/-- **What every action on the job leaves it with, it keeps.** -/
theorem finalJob_invariant (hp : p job)
    (h : ∀ a ∈ actions, a.record = .job job.id → ∀ s, p (a.onJob s)) :
    p (finalJob actions job) := by
  have hstep : ∀ s a, SameWork s job ∧ p s → a ∈ actions →
      SameWork (a.applyJob s) job ∧ p (a.applyJob s) := by
    rintro s a ⟨hsame, hs⟩ ha
    refine ⟨sameWork_applyJob a hsame, ?_⟩
    rw [RepairAction.applyJob]
    split
    · next hrec => exact h a ha (hsame.id ▸ hrec) s
    · exact hs
  have hall : Meets (fun job a ↦ RepairAction.applyJob a job) (fun _ a ↦ a ∈ actions) job actions :=
    meets_of_forall_mem fun a ha ↦ ha
  exact (run_induction hstep ⟨⟨rfl, rfl, rfl, rfl⟩, hp⟩ hall).2

/-- A job is left in the status of the action that nothing opposes. -/
theorem status_finalJob (ha : a ∈ actions) (hrec : a.record = .job job.id)
    (hone : Unopposed actions a) {status : JsString}
    (h : textAt a.after (js "status") = some status) :
    (finalJob actions job).status = status :=
  finalJob_established (p := fun job ↦ job.status = status) ha hrec hone fun b hb s ↦ by
    rw [RepairAction.onJob, hb, h]
    rfl

end

end Utix.Reconciliation

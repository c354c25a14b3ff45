import Utix.Lib.Undo
import Utix.Reconciliation.Plan
import Utix.Workers.Gate

/-!
# Applying an approved plan

`applyRepairPlan` of `core/reconciliation/repair.ts`: seven gates, none of which calls a handler; a
loop that applies the selected actions and journals each of them; a rollback of the journal, newest
first, when the loop fails; and a second read that says which findings are gone.

The handlers are code of the deployment. They act on a state of their own that nothing is known
about, and every call may throw. The clock is a sequence of readings, and a reading need not be a
date: `new Date(clock()).toISOString()` throws then. `none` in place of a result is an exception
that leaves `applyRepairPlan`.
-/

namespace Utix.Reconciliation

open Js Lib

/-! ### What a deployment supplies -/

/-- What was thrown: the message of an error, `none` for anything else. -/
abbrev Thrown := Option JsString

structure RepairHandler (σ : Type) where
  apply : RepairAction → Call σ Thrown
  revert : Option (RepairAction → Call σ Thrown)

/-- What `read` answers. -/
inductive ReadAnswer
  | thrown
  /-- There is no object, or it has no number `now`. -/
  | malformed
  | snapshot (input : ReconciliationInput)

/-- `ApplyDeps`; a role that the table does not know is `none`. -/
structure ApplyDeps (σ : Type) where
  read : σ → ReadAnswer
  handlers : RepairActionKind → Option (RepairHandler σ)
  role : Option Workers.Role
  confirm : JsString
  only : Option (List JsString)
  allowIrreversible : Bool
  maxActions : Option JsNum
  /-- The readings of the clock, in order; one that is not a whole number is `none`. -/
  now : ℕ → Option ℤ

/-- A call of a handler. -/
inductive HandlerCall
  | apply (a : RepairAction)
  | revert (a : RepairAction)
deriving DecidableEq

/-- The state that the handlers act on, their calls so far, and how often the clock was read. -/
structure World (σ : Type) where
  state : σ
  log : List HandlerCall
  ticks : ℕ

/-! ### Results -/

inductive RepairErrorCode
  | repairDenied
  | confirmationRequired
  | planTampered
  | planExpired
  | nothingSelected
  | blastRadiusExceeded
  | handlerMissing
  | snapshotUnavailable
  | planStale
  | repairFailed
deriving DecidableEq

structure RepairFailureDetail where
  failedAction : Option JsString := none
  message : Option JsString := none
  stale : Option (List JsString) := none
  missing : Option (List RepairActionKind) := none
  rolledBack : Option (List JsString) := none
  rollbackFailed : Option (List JsString) := none
deriving DecidableEq

structure JournalEntry where
  action : RepairAction
  appliedAt : JsString
deriving DecidableEq

/-- `RepairOutcome`, without the correlation id. -/
structure RepairOutcome where
  planId : JsString
  applied : List JsString
  skipped : List (JsString × JsString)
  journal : List JournalEntry
  verified : List JsString
  stillDrifting : List JsString
  verificationRan : Bool
deriving DecidableEq

/-- `Result<RepairOutcome, RepairErrorCode, RepairFailureDetail>` -/
inductive RepairResult
  | ok (outcome : RepairOutcome)
  | err (code : RepairErrorCode) (detail : RepairFailureDetail)
deriving DecidableEq

/-! ### Comparing plans -/

def sameValues (left right : Values) : Bool :=
  Ledger.canonicalJson (valuesObject left) = Ledger.canonicalJson (valuesObject right)

def clockFields : List JsString := [js "cachedAt", js "nextAttemptAt"]

def withoutClock (values : Values) : Values := values.filterKeys (· ∉ clockFields)

def stillApplies (approved : RepairAction) (current : Option RepairAction) : Bool :=
  current.any fun current ↦ sameValues current.target approved.target &&
    sameValues current.before approved.before &&
    sameValues (withoutClock current.after) (withoutClock approved.after)

/-! ### Selection -/

section

variable {σ : Type} (env : Env) (plan : RepairPlan) (deps : ApplyDeps σ)

def mayRepair : Bool := deps.role.any Workers.Role.mayRecover

/-- The action is asked for. -/
def wanted (entry : RepairAction) : Bool := deps.only.all (entry.id ∈ ·)

def selected : List RepairAction :=
  plan.actions.filter fun entry ↦ wanted deps entry && (entry.reversible || deps.allowIrreversible)

def skipped : List (JsString × JsString) :=
  ((plan.actions.filter fun entry ↦
      wanted deps entry && !(entry.reversible || deps.allowIrreversible)).map fun entry ↦
    (entry.id, js "irreversible; pass allowIrreversible to include it")) ++
  (((deps.only.getD []).eraseDups.filter fun id ↦ id ∉ plan.actions.map RepairAction.id).map
    fun id ↦ (id, js "not in the plan"))

/-- The kind of the action has no handler, or the action cannot be undone although it should. -/
def lacksHandler (entry : RepairAction) : Bool :=
  match deps.handlers entry.kind with
  | none => true
  | some handler => entry.reversible && handler.revert.isNone

def missing : List RepairActionKind :=
  (((selected plan deps).filter (lacksHandler deps)).map RepairAction.kind).eraseDups

/-- `clock() > Date.parse(plan.expiresAt)` -/
def isExpired (reading : Option ℤ) : Bool :=
  match reading, env.dateParse plan.expiresAt with
  | some now, some expiresAt => expiresAt < now
  | _, _ => false

/-! ### Calls and readings -/

/-- A call of a handler in the world. -/
def call (entry : HandlerCall) (f : Call σ Thrown) : Call (World σ) Thrown := fun w ↦
  ((f w.state).1, { w with state := (f w.state).2, log := w.log ++ [entry] })

/-- The reading of the clock that is due. -/
def reading (w : World σ) : Option ℤ := deps.now w.ticks

/-- `new Date(clock()).toISOString()` -/
def stamp (w : World σ) : Option JsString := (reading deps w).bind Date.toISOString

/-- The world after a reading. -/
def World.tick (w : World σ) : World σ := { w with ticks := w.ticks + 1 }

def refuse (code : RepairErrorCode) (detail : RepairFailureDetail) (w : World σ) :
    Option RepairResult × World σ :=
  ((stamp deps w).map fun _ ↦ .err code detail, w.tick)

/-- The audit events of some actions, each stamped: whether all of them are recorded. -/
def auditAll : ℕ → World σ → Bool × World σ
  | 0, w => (true, w)
  | n + 1, w => if (stamp deps w).isSome then auditAll n w.tick else (false, w.tick)

/-! ### The loop -/

/-- How the loop ended: the journal, and the action that failed with what was thrown. -/
structure LoopEnd where
  journal : List JournalEntry
  failure : Option (RepairAction × Thrown)

/-- `deps.handlers[entry.kind]!.apply(entry)`; the gate before the loop sees to it that there is a
handler. -/
def applyCall (entry : RepairAction) : Call σ Thrown :=
  match deps.handlers entry.kind with
  | none => fun s ↦ (some (some (js "Cannot read properties of undefined (reading 'apply')")), s)
  | some handler => handler.apply entry

/-- The loop that applies the selected actions. -/
def applyLoop : List RepairAction → List JournalEntry → World σ → LoopEnd × World σ
  | [], journal, w => (⟨journal, none⟩, w)
  | entry :: rest, journal, w =>
    match call (.apply entry) (applyCall deps entry) w with
    | (some thrown, w) => (⟨journal, some (entry, thrown)⟩, w)
    | (none, w) =>
      match stamp deps w with
      | none => (⟨journal, some (entry, some (js "Invalid time value"))⟩, w.tick)
      | some appliedAt => applyLoop rest (journal ++ [⟨entry, appliedAt⟩]) w.tick

/-- `handler.revert(entry.action)`, for an action that can be reverted. -/
def revertCall (a : RepairAction) : Option (Call (World σ) Thrown) :=
  if a.reversible then
    ((deps.handlers a.kind).bind RepairHandler.revert).map fun revert ↦ call (.revert a) (revert a)
  else none

def revertJournal (journal : List JournalEntry) : World σ → Undone (World σ) RepairAction :=
  undoAll (revertCall deps) (journal.reverse.map JournalEntry.action)

/-! ### The whole -/

section

variable (runId : JsString)

/-- The ids of the findings that a read still reports; `none` if it fails. -/
def remaining : ReadAnswer → Option (List JsString)
  | .thrown => none
  | .malformed => (reconcile env (emptySnapshot 0) runId).map fun report ↦
      report.findings.map Finding.id
  | .snapshot after => (reconcile env after runId).map fun report ↦
      report.findings.map Finding.id

/-- The result of a run whose loop has come to its end. -/
def outcomeOf (journal : List JournalEntry) (w : World σ) : RepairOutcome :=
  let targeted := (journal.flatMap fun entry ↦ entry.action.findingIds).eraseDups
  let found := remaining env runId (deps.read w.state)
  { planId := plan.planId
    applied := journal.map fun entry ↦ entry.action.id
    skipped := skipped plan deps
    journal := journal
    verified := found.elim [] fun ids ↦ targeted.filter (· ∉ ids)
    stillDrifting := found.elim [] fun ids ↦ targeted.filter (· ∈ ids)
    verificationRan := found.isSome }

/-- What follows the gates. -/
def applySelected (w : World σ) : Option RepairResult × World σ :=
  match applyLoop deps (selected plan deps) [] w with
  | (⟨journal, none⟩, w) =>
    match auditAll deps journal.length w with
    | (false, w) => (none, w)
    | (true, w) => (some (.ok (outcomeOf env plan deps runId journal w)), w)
  | (⟨journal, some (entry, thrown)⟩, w) =>
    let undone := revertJournal deps journal w
    match auditAll deps undone.back.length undone.state with
    | (false, w) => (none, w)
    | (true, w) =>
      refuse deps .repairFailed
        { failedAction := some entry.id
          message := some ((thrown.map (·.take 160)).getD (js "handler failed"))
          rolledBack := some (undone.back.map RepairAction.id)
          rollbackFailed := some (undone.lost.map RepairAction.id) } w

/-- The action of the fresh plan with an id. -/
def replanned (current : RepairPlan) (id : JsString) : Option RepairAction :=
  current.actions.reverse.find? fun entry ↦ entry.id = id

def stale (current : RepairPlan) : List JsString :=
  ((selected plan deps).filter fun entry ↦ !stillApplies entry (replanned current entry.id)).map
    RepairAction.id

/-- **`applyRepairPlan(plan, deps)`**, with the ids that its own reconciliation and plan get. -/
def applyRepairPlan (options : PlanOptions) (w : World σ) : Option RepairResult × World σ :=
  if !mayRepair deps then refuse deps .repairDenied {} w
  else if deps.confirm ≠ plan.planId then refuse deps .confirmationRequired {} w
  else if !plan.dryRun || fingerprintOf env plan.actions ≠ some plan.fingerprint then
    refuse deps .planTampered {} w
  else if isExpired env plan (reading deps w) then refuse deps .planExpired {} w.tick
  else if selected plan deps = [] then refuse deps .nothingSelected {} w.tick
  else if (deps.maxActions.getD (.ofInt 50)).less (.ofInt (selected plan deps).length) then
    refuse deps .blastRadiusExceeded {} w.tick
  else if missing plan deps ≠ [] then
    refuse deps .handlerMissing { missing := some (missing plan deps) } w.tick
  else
    match deps.read w.state with
    | .thrown => refuse deps .snapshotUnavailable {} w.tick
    | .malformed => refuse deps .snapshotUnavailable {} w.tick
    | .snapshot fresh =>
      match planOf env fresh runId options with
      | none => (none, w.tick)
      | some current =>
        if stale plan deps current ≠ [] then
          refuse deps .planStale { stale := some (stale plan deps current) } w.tick
        else applySelected env plan deps runId w.tick

end

end

end Utix.Reconciliation

import Utix.Reconciliation.Plan

/-!
# What a plan is made of

Two inversion results on which everything about plans rests. `Origin` says what each strategy has
looked at before it planned an action: one constructor for a strategy. `Covers` says what the loop
of `planRepairs` keeps of the findings it has seen: every finding has been dealt with under its id,
every action is one that a strategy planned, with the ids of the findings that plan it, and every
follow-up is the reason a strategy gave.

A strategy is a function of the snapshot and of one finding, so what it has looked at can be read
off its branches: the record it found, the state the record was in, and the action it made of it.
The lemmas `origin_...` do so one by one, and everything later argues by cases on `Origin` and never
unfolds a strategy again.
-/

namespace Utix.Reconciliation

open Js Lib List

variable {actions : Dict JsString RepairAction} {x : JsString} {P : RepairAction → Prop}
  {list : List RepairAction}

section

variable (env : Env) (input : ReconciliationInput) (terminalJobs : List JsString)

/-! ### Where an action comes from -/

/-- The strategy for the finding plans this action. -/
def Plans (f : Finding) (entry : RepairAction) : Prop :=
  ∃ list, plannedFor env input terminalJobs f = some (.actions list) ∧ entry ∈ list

/-- **What is planned, and on what grounds.** -/
inductive Origin (f : Finding) : RepairAction → Prop
  | dropLine {line : StoredBalance} (hinv : f.invariant = .ledgerEntryPresent)
      (hcode : f.rootCause.code = js "trustline_removed") (hline : line ∈ input.storedBalances)
      (hkey : line.balanceKey = f.recordId) : Origin f (f.dropLineAction line)
  | recache {line : StoredBalance} {ledger : LedgerBalance} {cachedAt : JsString}
      (hinv : f.invariant = .amountAgrees) (hledger : ledger ∈ input.ledgerBalances)
      (hkey : ledger.balanceKey = f.recordId) (hlines : linesOf input f.recordId = [line])
      (hnow : Date.toISOString input.now = some cachedAt) :
      Origin f (f.recacheAction line ledger cachedAt)
  | dedupeLines {keep : StoredBalance} (hinv : f.invariant = .singleLinePerAsset)
      (hlines : 2 ≤ (linesOf input f.recordId).length)
      (hkeep : newest env (linesOf input f.recordId) = some keep) :
      Origin f (f.dedupeLinesAction (linesOf input f.recordId) keep)
  | deadLetter {job : JobPayload} (hinv : f.invariant = .budgetConsistent)
      (hjob : locateJob input f = some job) : Origin f (f.deadLetterAction job)
  | cancel {job keep entry : JobPayload} {key : JsString} (hinv : f.invariant = .dedupeUnique)
      (hjob : locateJob input f = some job) (hkey : job.dedupeKey = some key)
      (hkeep : oldestJob env (dedupeGroup input key) = some keep)
      (hentry : entry ∈ dedupeGroup input key) (hne : entry.id ≠ keep.id)
      (hlive : entry.id ∉ terminalJobs) : Origin f (f.cancelAction keep entry)
  | requeue {job : JobPayload} {nextAttemptAt : JsString} (hinv : f.invariant = .progress)
      (hjob : locateJob input f = some job) (hlive : job.id ∉ terminalJobs)
      (hcode : f.rootCause.code ≠ js "scheduler_not_draining")
      (hnow : Date.toISOString input.now = some nextAttemptAt) :
      Origin f (f.requeueAction job nextAttemptAt)
  | sweep {record : IdempotencyRecord} (hinv : f.invariant = .claimFresh)
      (hrecord : input.idempotencyRecords.find? (fun entry ↦ entry.key = f.recordId) = some record)
      (hexpired : (record.expiredBy env input).isSome = true) : Origin f (f.sweepAction record)
  | purge {envelope : ExportEnvelope} (hinv : f.invariant = .retention)
      (henvelope : envelope ∈ input.exportEnvelopes) (hid : envelope.correlationId = f.recordId) :
      Origin f (f.purgeAction envelope)
  | dropNotification {entry : Notification} (hinv : f.invariant = .notificationStateDeclared)
      (hentry : entry ∈ entriesOf input f.recordId) : Origin f (f.dropNotificationAction entry)
  | collapse {recipient : JsString} {copies : ℕ} (hinv : f.invariant = .identityUnique)
      (hgroup : (recipient, copies) ∈ copiesOf input f.recordId) (hcopies : 1 < copies) :
      Origin f (f.collapseAction recipient copies)

variable {env input terminalJobs} {f : Finding} {entry : RepairAction}

section

variable (hmem : entry ∈ list)
include hmem

theorem origin_dropBalanceLine (hinv : f.invariant = .ledgerEntryPresent)
    (h : dropBalanceLine input f = .actions list) : Origin env input terminalJobs f entry := by
  rw [dropBalanceLine] at h
  split at h
  · cases h
  next hcode =>
  split at h
  · cases h
  next line hline =>
  cases h
  obtain rfl := mem_singleton.1 hmem
  exact .dropLine hinv (not_not.1 hcode) (mem_of_find?_eq_some hline)
    (by simpa using find?_some hline)

theorem origin_recacheBalance (hinv : f.invariant = .amountAgrees)
    (h : recacheBalance input f = some (.actions list)) :
    Origin env input terminalJobs f entry := by
  rw [recacheBalance] at h
  split at h
  · cases h
  · cases h
  · next ledger line hledger hlines =>
    obtain ⟨cachedAt, hnow, heq⟩ := Option.map_eq_some_iff.1 h
    cases heq
    obtain rfl := mem_singleton.1 hmem
    exact .recache hinv (mem_of_find?_eq_some hledger)
      (by simpa using find?_some hledger) hlines hnow
  · cases h

theorem origin_dedupeBalanceLines (hinv : f.invariant = .singleLinePerAsset)
    (h : dedupeBalanceLines env input f = some (.actions list)) :
    Origin env input terminalJobs f entry := by
  rw [dedupeBalanceLines] at h
  split at h
  · cases h
  next hlines =>
  obtain ⟨keep, hkeep, heq⟩ := Option.map_eq_some_iff.1 h
  cases heq
  obtain rfl := mem_singleton.1 hmem
  exact .dedupeLines hinv (not_lt.1 hlines) hkeep

theorem origin_deadLetterJob (hinv : f.invariant = .budgetConsistent)
    (h : deadLetterJob input f = .actions list) : Origin env input terminalJobs f entry := by
  rw [deadLetterJob] at h
  split at h
  · cases h
  next job hjob =>
  cases h
  obtain rfl := mem_singleton.1 hmem
  exact .deadLetter hinv hjob

theorem origin_cancelDuplicateJob (hinv : f.invariant = .dedupeUnique)
    (h : cancelDuplicateJob env input terminalJobs f = some (.actions list)) :
    Origin env input terminalJobs f entry := by
  rw [cancelDuplicateJob] at h
  split at h
  · cases h
  next key hlocated =>
  obtain ⟨job, hjob, hkey⟩ := Option.bind_eq_some_iff.1 hlocated
  obtain ⟨keep, hkeep, heq⟩ := Option.map_eq_some_iff.1 h
  simp only at heq
  split at heq
  · cases heq
  cases heq
  obtain ⟨job', hdoomed, rfl⟩ := mem_map.1 hmem
  obtain ⟨hgroup, hdoomed⟩ := mem_filter.1 hdoomed
  obtain ⟨hne, hlive⟩ := of_decide_eq_true hdoomed
  exact .cancel hinv hjob hkey hkeep hgroup hne hlive

theorem origin_requeueJob (hinv : f.invariant = .progress)
    (h : requeueJob input terminalJobs f = some (.actions list)) :
    Origin env input terminalJobs f entry := by
  rw [requeueJob] at h
  split at h
  · cases h
  next job hjob =>
  split at h
  · cases h
  next hlive =>
  split at h
  · cases h
  next hcode =>
  obtain ⟨next, hnow, heq⟩ := Option.map_eq_some_iff.1 h
  cases heq
  obtain rfl := mem_singleton.1 hmem
  exact .requeue hinv hjob hlive hcode hnow

theorem origin_sweepIdempotency (hinv : f.invariant = .claimFresh)
    (h : sweepIdempotency env input f = .actions list) :
    Origin env input terminalJobs f entry := by
  rw [sweepIdempotency] at h
  split at h
  · cases h
  next record hrecord =>
  split at h
  · cases h
  next hexpired =>
  cases h
  obtain rfl := mem_singleton.1 hmem
  exact .sweep hinv hrecord (Option.isSome_iff_ne_none.2 (by simpa using hexpired))

theorem origin_purgeEnvelope (hinv : f.invariant = .retention)
    (h : purgeEnvelope input f = .actions list) : Origin env input terminalJobs f entry := by
  rw [purgeEnvelope] at h
  split at h
  · cases h
  next envelope henvelope =>
  cases h
  obtain rfl := mem_singleton.1 hmem
  exact .purge hinv (mem_of_find?_eq_some henvelope)
    (by simpa using find?_some henvelope)

theorem origin_dropNotification (hinv : f.invariant = .notificationStateDeclared)
    (h : dropNotification input f = .actions list) : Origin env input terminalJobs f entry := by
  rw [dropNotification] at h
  split at h
  · cases h
  · cases h
    obtain ⟨notification, hentry, rfl⟩ := mem_map.1 hmem
    exact .dropNotification hinv hentry

theorem origin_collapseNotification (hinv : f.invariant = .identityUnique)
    (h : collapseNotification input f = .actions list) :
    Origin env input terminalJobs f entry := by
  rw [collapseNotification] at h
  split at h
  · cases h
  cases h
  obtain ⟨⟨recipient, copies⟩, hgroup, rfl⟩ := mem_map.1 hmem
  obtain ⟨hgroup, hcopies⟩ := mem_filter.1 hgroup
  exact .collapse hinv hgroup (by simpa using hcopies)

/-- **Every strategy has its reasons**, one constructor of `Origin` for each. -/
theorem origin_of_strategy {kind : RepairActionKind}
    (hkind : repairStrategies f.invariant = some kind)
    (h : strategy env input terminalJobs f kind = some (.actions list)) :
    Origin env input terminalJobs f entry := by
  cases hinv : f.invariant <;> rw [hinv] at hkind <;> cases hkind <;> rw [strategy] at h
  · exact origin_dropBalanceLine hmem hinv (Option.some.inj h)
  · exact origin_recacheBalance hmem hinv h
  · exact origin_dedupeBalanceLines hmem hinv h
  · exact origin_deadLetterJob hmem hinv (Option.some.inj h)
  · exact origin_cancelDuplicateJob hmem hinv h
  · exact origin_requeueJob hmem hinv h
  · exact origin_sweepIdempotency hmem hinv (Option.some.inj h)
  · exact origin_purgeEnvelope hmem hinv (Option.some.inj h)
  · exact origin_dropNotification hmem hinv (Option.some.inj h)
  · exact origin_collapseNotification hmem hinv (Option.some.inj h)

end

/-- **An action is planned on the grounds of its strategy**, for a record that is shown. -/
theorem origin_of_plans (h : Plans env input terminalJobs f entry) :
    Origin env input terminalJobs f entry ∧ includes f.recordId Telemetry.redacted = false := by
  obtain ⟨list, hplanned, hmem⟩ := h
  rw [plannedFor] at hplanned
  split at hplanned
  · cases hplanned
  next kind hkind =>
  split at hplanned
  · cases hplanned
  · next hshown => exact ⟨origin_of_strategy hmem hkind hplanned, by simpa using hshown⟩

theorem Origin.findingIds (h : Origin env input terminalJobs f entry) :
    entry.findingIds = [f.id] := by
  cases h <;> rfl

/-! ### Entering actions -/

section

variable (actions : Dict JsString RepairAction)

/-- The action under an id lists the finding. -/
def Lists (id finding : JsString) : Prop :=
  ∃ action, actions.get id = some action ∧ finding ∈ action.findingIds

/-- What `enter` puts under the id of the entry. -/
def merged (entry : RepairAction) : RepairAction :=
  match actions.get entry.id with
  | none => entry
  | some existing =>
    { existing with findingIds := (existing.findingIds ++ entry.findingIds).eraseDups }

/-- Entering an action changes what is planned under its id only. -/
theorem get_enter (entry : RepairAction) (id : JsString) :
    (PlanState.enter actions entry).get id =
      if entry.id = id then some (merged actions entry) else actions.get id :=
  Dict.get_set _ _ _ _

end

/-- Merged actions list the findings of both. -/
theorem mem_findingIds_merged :
    x ∈ (merged actions entry).findingIds ↔ Lists actions entry.id x ∨ x ∈ entry.findingIds := by
  rw [merged, Lists]
  split
  · next hnone => simp [hnone]
  · next existing hsome => simp [hsome, mem_eraseDups]

theorem lists_enter {id : JsString} :
    Lists (PlanState.enter actions entry) id x ↔
      Lists actions id x ∨ entry.id = id ∧ x ∈ entry.findingIds := by
  rw [Lists, get_enter]
  split
  · next hid =>
    subst hid
    simp [mem_findingIds_merged]
  · next hid => simp [Lists, hid]

/-- Entering actions one after another lists the findings of all. -/
theorem lists_foldl {id : JsString} :
    Lists (list.foldl PlanState.enter actions) id x ↔
      Lists actions id x ∨ ∃ entry ∈ list, entry.id = id ∧ x ∈ entry.findingIds := by
  induction list generalizing actions with
  | nil => simp
  | cons entry list ih =>
    rw [foldl_cons, ih, lists_enter, exists_mem_cons_iff, or_assoc]

/-- Under every id there is an action with that id, and it is one of the given ones but for its
findings. -/
def Drawn (P : RepairAction → Prop) (actions : Dict JsString RepairAction) : Prop :=
  ∀ id action, actions.get id = some action → action.id = id ∧
    ∃ entry, P entry ∧ action = { entry with findingIds := action.findingIds }

theorem Drawn.enter (h : Drawn P actions) (hentry : P entry) :
    Drawn P (PlanState.enter actions entry) := by
  intro id action hget
  rw [get_enter] at hget
  split at hget
  · next hid =>
    cases hget
    rw [merged]
    split
    · exact ⟨hid, entry, hentry, rfl⟩
    next existing hsome =>
    obtain ⟨hid', source, hsource, heq⟩ := h _ _ hsome
    refine ⟨hid'.trans hid, source, hsource, ?_⟩
    rw [heq]
  · exact h id action hget

/-- Entering actions of a kind keeps all actions of that kind. -/
theorem Drawn.foldl (h : Drawn P actions) (hlist : ∀ entry ∈ list, P entry) :
    Drawn P (list.foldl PlanState.enter actions) := by
  induction list generalizing actions with
  | nil => exact h
  | cons entry list ih =>
    obtain ⟨hentry, hlist⟩ := forall_mem_cons.1 hlist
    exact ih (h.enter hentry) hlist

/-! ### What the loop keeps -/

variable (env input terminalJobs)

/-- What was planned for the finding is in the state. -/
def Entered (state : PlanState) (f : Finding) : Planned → Prop
  | .manual reason => ⟨f.id, f.invariant, reason, f.repair⟩ ∈ state.manual
  | .actions list => ∀ entry ∈ list, Lists state.actions entry.id f.id

/-- The finding is the first of the list with its id, so the loop does not pass it over. -/
def Heads (findings : List Finding) (f : Finding) : Prop :=
  findings.find? (fun g ↦ g.id = f.id) = some f

instance instDecidableHeads (findings : List Finding) (f : Finding) :
    Decidable (Heads findings f) :=
  inferInstanceAs (Decidable (_ = some f))

/-- Some finding of the list that is not passed over plans the action. -/
def PlansAny (findings : List Finding) (entry : RepairAction) : Prop :=
  ∃ f, Heads findings f ∧ Plans env input terminalJobs f entry

/-- **The state of the loop after some findings.** -/
structure Covers (findings : List Finding) (state : PlanState) : Prop where
  seen : ∀ f ∈ findings, f.id ∈ state.seen
  entered : ∀ id ∈ state.seen, ∃ f, Heads findings f ∧ f.id = id ∧
    ∃ planned, plannedFor env input terminalJobs f = some planned ∧ Entered state f planned
  manual : ∀ m ∈ state.manual, ∃ f ∈ findings, ∃ reason,
    plannedFor env input terminalJobs f = some (.manual reason) ∧
      m = ⟨f.id, f.invariant, reason, f.repair⟩
  drawn : Drawn (PlansAny env input terminalJobs findings) state.actions
  listed : ∀ id x, Lists state.actions id x → ∃ f ∈ findings, f.id = x ∧
    ∃ entry, Plans env input terminalJobs f entry ∧ entry.id = id

variable {env input terminalJobs} {findings : List Finding} {state state' : PlanState}

theorem Heads.mem (h : Heads findings f) : f ∈ findings :=
  mem_of_find?_eq_some h

/-- Two findings with one id are not both the first. -/
theorem Heads.eq {g : Finding} (hf : Heads findings f) (hg : Heads findings g)
    (hid : f.id = g.id) : f = g := by
  rw [Heads, hid, hg] at hf
  exact (Option.some.inj hf).symm

theorem Heads.append {rest : List Finding} (h : Heads findings f) : Heads (findings ++ rest) f := by
  rw [Heads, find?_append, h, Option.some_or]

theorem heads_append_singleton (h : ∀ g ∈ findings, g.id ≠ f.id) : Heads (findings ++ [f]) f := by
  have hnone : findings.find? (fun g ↦ g.id = f.id) = none :=
    find?_eq_none.2 fun g hg ↦ by simpa using h g hg
  simp [Heads, hnone]

/-- What was entered stays entered. -/
theorem Entered.mono {planned : Planned} (h : Entered state f planned)
    (hmanual : ∀ m ∈ state.manual, m ∈ state'.manual)
    (hlists : ∀ id x, Lists state.actions id x → Lists state'.actions id x) :
    Entered state' f planned := by
  cases planned with
  | manual reason => exact hmanual _ h
  | actions list => exact fun entry hentry ↦ hlists _ _ (h entry hentry)

theorem Drawn.mono {Q : RepairAction → Prop} (h : Drawn P actions)
    (hPQ : ∀ entry, P entry → Q entry) : Drawn Q actions := by
  intro id action hget
  obtain ⟨hid, entry, hentry, heq⟩ := h id action hget
  exact ⟨hid, entry, hPQ entry hentry, heq⟩

/-- More findings are to be covered, and the old ones are. -/
theorem Covers.step (h : Covers env input terminalJobs findings state)
    (hstep : planFinding env input terminalJobs state f = some state') :
    Covers env input terminalJobs (findings ++ [f]) state' := by
  have hold : ∀ g ∈ findings, g ∈ findings ++ [f] := fun g hg ↦ mem_append_left _ hg
  have hnew : f ∈ findings ++ [f] := by simp
  have hdrawn : Drawn (PlansAny env input terminalJobs (findings ++ [f])) state.actions :=
    h.drawn.mono fun entry ⟨g, hg, hplans⟩ ↦ ⟨g, hg.append, hplans⟩
  have hmanual : ∀ m ∈ state.manual, ∃ g ∈ findings ++ [f], ∃ reason,
      plannedFor env input terminalJobs g = some (.manual reason) ∧
        m = ⟨g.id, g.invariant, reason, g.repair⟩ := fun m hm ↦ by
    obtain ⟨g, hg, hm⟩ := h.manual m hm
    exact ⟨g, hold g hg, hm⟩
  have hlisted : ∀ id x, Lists state.actions id x → ∃ g ∈ findings ++ [f], g.id = x ∧
      ∃ entry, Plans env input terminalJobs g entry ∧ entry.id = id := fun id x hx ↦ by
    obtain ⟨g, hg, hx⟩ := h.listed id x hx
    exact ⟨g, hold g hg, hx⟩
  rw [planFinding] at hstep
  split at hstep
  · next hseen =>
    -- the finding repeats one that was dealt with
    obtain rfl := Option.some.inj hstep
    refine ⟨fun g hg ↦ ?_, fun id hid ↦ ?_, hmanual, hdrawn, hlisted⟩
    · rcases mem_append.1 hg with hg | hg
      · exact h.seen g hg
      · exact mem_singleton.1 hg ▸ hseen
    · obtain ⟨g, hg, hid⟩ := h.entered id hid
      exact ⟨g, hg.append, hid⟩
  · next hunseen =>
    obtain ⟨planned, hplanned, rfl⟩ := Option.map_eq_some_iff.1 hstep
    have hfirst : Heads (findings ++ [f]) f :=
      heads_append_singleton fun g hg hid ↦ hunseen (hid ▸ h.seen g hg)
    have hseen : ∀ g ∈ findings ++ [f], g.id ∈ f.id :: state.seen := fun g hg ↦ by
      rcases mem_append.1 hg with hg | hg
      · exact mem_cons_of_mem _ (h.seen g hg)
      · exact mem_singleton.1 hg ▸ mem_cons_self
    cases planned with
    | manual reason =>
      refine ⟨hseen, fun id hid ↦ ?_, fun m hm ↦ ?_, hdrawn, hlisted⟩
      · rcases mem_cons.1 hid with rfl | hid
        · exact ⟨f, hfirst, rfl, _, hplanned, mem_append_right _ (mem_singleton.2 rfl)⟩
        · obtain ⟨g, hg, hgid, other, hother, hentered⟩ := h.entered id hid
          exact ⟨g, hg.append, hgid, other, hother,
            hentered.mono (fun m hm ↦ mem_append_left _ hm) fun _ _ hlists ↦ hlists⟩
      · rcases mem_append.1 hm with hm | hm
        · exact hmanual m hm
        · exact ⟨f, hnew, reason, hplanned, mem_singleton.1 hm⟩
    | actions list =>
      have hplans : ∀ entry ∈ list, Plans env input terminalJobs f entry :=
        fun entry hentry ↦ ⟨list, hplanned, hentry⟩
      have hids : ∀ entry ∈ list, entry.findingIds = [f.id] :=
        fun entry hentry ↦ (origin_of_plans (hplans entry hentry)).1.findingIds
      refine ⟨hseen, fun id hid ↦ ?_, hmanual,
        hdrawn.foldl fun entry hentry ↦ ⟨f, hfirst, hplans entry hentry⟩, fun id x hx ↦ ?_⟩
      · rcases mem_cons.1 hid with rfl | hid
        · refine ⟨f, hfirst, rfl, _, hplanned, fun entry hentry ↦ lists_foldl.2 (.inr ?_)⟩
          exact ⟨entry, hentry, rfl, by simp [hids entry hentry]⟩
        · obtain ⟨g, hg, hgid, other, hother, hentered⟩ := h.entered id hid
          exact ⟨g, hg.append, hgid, other, hother,
            hentered.mono (fun _ hm ↦ hm) fun _ _ hlists ↦ lists_foldl.2 (.inl hlists)⟩
      · rcases lists_foldl.1 hx with hx | ⟨entry, hentry, hid, hx⟩
        · exact hlisted id x hx
        · rw [hids entry hentry, mem_singleton] at hx
          exact ⟨f, hnew, hx.symm, entry, hplans entry hentry, hid⟩

/-- **The loop covers the findings it goes through.** -/
theorem Covers.run {rest : List Finding} (h : Covers env input terminalJobs findings state)
    (hrun : rest.foldlM (planFinding env input terminalJobs) state = some state') :
    Covers env input terminalJobs (findings ++ rest) state' := by
  induction rest generalizing findings state with
  | nil =>
    cases hrun
    rwa [append_nil]
  | cons f rest ih =>
    rw [foldlM_cons] at hrun
    obtain ⟨next, hstep, hrun⟩ := Option.bind_eq_some_iff.1 hrun
    rw [append_cons]
    exact ih (h.step hstep) hrun

/-- **The loop of `planRepairs` covers the findings.** -/
theorem covers_planLoop (h : planLoop env input findings = some state) :
    Covers env input (terminalJobsOf findings) findings state := by
  have hempty : Covers env input (terminalJobsOf findings) [] ⟨.empty, [], []⟩ := by
    refine ⟨fun f hf ↦ ?_, fun id hid ↦ ?_, fun m hm ↦ ?_, fun id action hget ↦ ?_, ?_⟩
    · cases hf
    · cases hid
    · cases hm
    · cases hget
    · rintro id x ⟨action, hget, -⟩
      cases hget
  exact hempty.run h

end

/-! ### Plans -/

/-- **What the actions and the follow-ups of a plan say of the findings.** -/
structure PlanSpec (env : Env) (input : ReconciliationInput) (findings : List Finding)
    (plan : RepairPlan) : Prop where
  /-- No two actions have one id. -/
  unique : ∀ a ∈ plan.actions, ∀ b ∈ plan.actions, a.id = b.id → a = b
  /-- An action is one that a strategy planned. -/
  drawn : ∀ a ∈ plan.actions, ∃ f, Heads findings f ∧ ∃ entry,
    Plans env input (terminalJobsOf findings) f entry ∧
      a = { entry with findingIds := a.findingIds }
  /-- The findings an action lists plan it. -/
  listed : ∀ a ∈ plan.actions, ∀ x ∈ a.findingIds, ∃ f ∈ findings, f.id = x ∧
    ∃ entry, Plans env input (terminalJobsOf findings) f entry ∧ entry.id = a.id
  /-- Every finding has been dealt with under its id. -/
  entered : ∀ f ∈ findings, ∃ g, Heads findings g ∧ g.id = f.id ∧
    ((∃ reason, plannedFor env input (terminalJobsOf findings) g = some (.manual reason) ∧
      ⟨g.id, g.invariant, reason, g.repair⟩ ∈ plan.manual) ∨
    ∃ list, plannedFor env input (terminalJobsOf findings) g = some (.actions list) ∧
      ∀ entry ∈ list, ∃ a ∈ plan.actions, a.id = entry.id)
  /-- A follow-up has the reason that a strategy gave. -/
  manual : ∀ m ∈ plan.manual, ∃ f ∈ findings, ∃ reason,
    plannedFor env input (terminalJobsOf findings) f = some (.manual reason) ∧
      m = ⟨f.id, f.invariant, reason, f.repair⟩

variable {a : RepairAction}

theorem Drawn.mem_values (h : Drawn P actions) :
    a ∈ actions.values ↔ actions.get a.id = some a := by
  refine mem_map.trans ⟨?_, fun hget ↦ ⟨(a.id, a), Dict.mem_entries_iff.2 hget, rfl⟩⟩
  rintro ⟨⟨id, b⟩, hmem, rfl⟩
  have hget := Dict.mem_entries_iff.1 hmem
  rwa [(h id b hget).1]

/-- **A plan covers the findings of its report.** -/
theorem planSpec_planRepairs {env : Env} {report : ReconciliationReport}
    {input : ReconciliationInput} {options : PlanOptions} {plan : RepairPlan}
    (h : planRepairs env report input options = some plan) :
    PlanSpec env input report.findings plan := by
  rw [planRepairs] at h
  simp only [Option.bind_eq_bind, Option.bind_eq_some_iff] at h
  obtain ⟨state, hloop, createdAt, -, expiresAt, -, fingerprint, -, hplan⟩ := h
  cases hplan
  have hcovers := covers_planLoop hloop
  have hmem : ∀ a, a ∈ sortActions env state.actions.values ↔ state.actions.get a.id = some a :=
    fun a ↦ (perm_insertionSort _ _).mem_iff.trans hcovers.drawn.mem_values
  constructor
  · intro a ha b hb hid
    have hget := (hmem a).1 ha
    rw [hid, (hmem b).1 hb] at hget
    exact (Option.some.inj hget).symm
  · intro a ha
    obtain ⟨-, entry, ⟨f, hf, hplans⟩, heq⟩ := hcovers.drawn a.id a ((hmem a).1 ha)
    exact ⟨f, hf, entry, hplans, heq⟩
  · exact fun a ha x hx ↦ hcovers.listed a.id x ⟨a, (hmem a).1 ha, hx⟩
  · intro f hf
    obtain ⟨g, hg, hid, planned, hplanned, hentered⟩ := hcovers.entered f.id (hcovers.seen f hf)
    refine ⟨g, hg, hid, ?_⟩
    cases planned with
    | manual reason => exact .inl ⟨reason, hplanned, hentered⟩
    | actions list =>
      refine .inr ⟨list, hplanned, fun entry hentry ↦ ?_⟩
      obtain ⟨a, hget, -⟩ := hentered entry hentry
      have hid := (hcovers.drawn _ a hget).1
      exact ⟨a, (hmem a).2 (hid.symm ▸ hget), hid⟩
  · exact hcovers.manual

end Utix.Reconciliation

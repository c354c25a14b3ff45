import Utix.Reconciliation.Apply

/-!
# A repair is applied as a whole or not at all

`ResultLaw` is what a result of `applyRepairPlan` says about the calls that were made. A refusal at
one of the gates has called no handler. `ok` means that the selected actions were applied, each
once and in the order of the plan, and that a plan made from a fresh read still wants them.
`repair_failed` means that the actions before the one that failed are the ones rolled back together
with the ones that could not be, and that the state is the one before the call if the handlers can
take back what they do (`Restorable`).

The last part has one more condition. A reading of the clock is taken right after each call of
`apply` that returns, within the same `try`; if it is not a date the action has been applied, is not
in the journal, and is not reverted. `Stamped` asks that these readings are dates. It is about no
other reading: the one that is compared with the expiry of the plan may be anything, and if an audit
event or a refusal cannot be stamped there is no result to speak of.

`LoopSpec` is the specification of the loop, from which the law follows with the rule of `Lib.Undo`
for a rollback. What a result means for the next plan rests on `get_eq_of_sameValues`: two sets of
values with one canonical text are the same values.
-/

namespace Utix.Reconciliation

open Js Lib List JsValue

/-! ### Values that are the same -/

theorem toValue_injective : Function.Injective RepairValue.toValue := by
  intro a b h
  cases a with
  | text s =>
    cases b with
    | text t => rw [str.inj h]
    | _ => cases h
  | number n =>
    cases b with
    | number m => rw [JsNum.ofInt_injective (num.inj h)]
    | _ => cases h
  | null =>
    cases b with
    | null => rfl
    | _ => cases h

/-- The object of a set of values has the values for its fields. -/
theorem jsonField_valuesObject (values : Values) (key : JsString) :
    Ledger.jsonField (values.entries.map fun entry ↦ (entry.1, entry.2.toValue)) key =
      (values.get key).map RepairValue.toValue := by
  obtain ⟨entries, hnodup⟩ := values
  simp only [Dict.get]
  clear hnodup
  induction entries with
  | nil => rfl
  | cons entry entries ih =>
    obtain ⟨k, value⟩ := entry
    rw [map_cons, Ledger.jsonField, Fields.get_cons, Dict.find_cons]
    by_cases hk : k = key
    · rw [if_pos hk, if_pos hk]
      cases value <;> rfl
    · rw [if_neg hk, if_neg hk]
      exact ih

theorem wellFormed_valuesObject (values : Values) : (valuesObject values).WellFormed := by
  rw [valuesObject, wellFormed_obj, Fields.keys, map_map]
  refine ⟨values.nodup, fun f hf ↦ ?_⟩
  obtain ⟨⟨key, value⟩, -, rfl⟩ := mem_map.1 hf
  cases value <;> trivial

/-- Values always have a canonical text. -/
theorem exists_canonicalJson_valuesObject (values : Values) :
    ∃ text, Ledger.canonicalJson (valuesObject values) = some text := by
  have hfields : ∀ f ∈ (values.entries.map fun entry ↦ (entry.1, entry.2.toValue)),
      ∃ text, Ledger.canonicalJson f.2 = some text := by
    intro f hf
    obtain ⟨⟨key, value⟩, -, rfl⟩ := mem_map.1 hf
    cases value <;> exact ⟨_, rfl⟩
  obtain ⟨texts, htexts⟩ := Ledger.exists_canonicalFields hfields
  rw [valuesObject, Ledger.canonicalJson, htexts]
  exact ⟨_, rfl⟩

/-- **Values with one canonical text are the same values.** -/
theorem get_eq_of_sameValues {left right : Values} (h : sameValues left right = true)
    (key : JsString) : left.get key = right.get key := by
  obtain ⟨text, htext⟩ := exists_canonicalJson_valuesObject left
  have hsame : Ledger.canonicalJson (valuesObject right) = some text :=
    (of_decide_eq_true h).symm.trans htext
  have hjson := Ledger.asJson_eq_of_canonicalJson_eq (wellFormed_valuesObject left)
    (wellFormed_valuesObject right) htext hsame
  have hfield := Ledger.jsonField_eq_of_asJson_obj_eq
    (wellFormed_obj.1 (wellFormed_valuesObject left)).1
    (wellFormed_obj.1 (wellFormed_valuesObject right)).1 hjson key
  rw [jsonField_valuesObject, jsonField_valuesObject] at hfield
  exact Option.map_injective toValue_injective hfield

/-- **The fresh plan wants the same write from the same state**, times aside. -/
structure StillWanted (approved current : RepairAction) : Prop where
  target : ∀ key, current.target.get key = approved.target.get key
  before : ∀ key, current.before.get key = approved.before.get key
  after : ∀ key ∉ clockFields, current.after.get key = approved.after.get key

/-- What passes the comparison with a fresh plan is still wanted by it. -/
theorem stillWanted_of_stillApplies {approved : RepairAction} {current : Option RepairAction}
    (h : stillApplies approved current = true) :
    ∃ entry, current = some entry ∧ StillWanted approved entry := by
  obtain ⟨entry, hentry, hsame⟩ := (Option.any_eq_true _ _).1 h
  rw [Bool.and_eq_true, Bool.and_eq_true] at hsame
  obtain ⟨⟨htarget, hbefore⟩, hafter⟩ := hsame
  refine ⟨entry, hentry, get_eq_of_sameValues htarget, get_eq_of_sameValues hbefore, ?_⟩
  intro key hkey
  have hget := get_eq_of_sameValues hafter key
  rwa [withoutClock, withoutClock, Dict.get_filterKeys, Dict.get_filterKeys,
    if_pos (decide_eq_true hkey), if_pos (decide_eq_true hkey)] at hget

variable {a : RepairAction} {actions : List RepairAction} {runId : JsString}

section

variable {σ : Type} {env : Env} {plan : RepairPlan} {deps : ApplyDeps σ}

/-! ### What does not touch the state -/

/-- The handlers were not called between the two worlds. -/
structure Untouched (w w' : World σ) : Prop where
  state : w'.state = w.state
  log : w'.log = w.log

theorem Untouched.trans {w w' w'' : World σ} (h : Untouched w w') (h' : Untouched w' w'') :
    Untouched w w'' :=
  ⟨h'.state.trans h.state, h'.log.trans h.log⟩

theorem untouched_tick (w : World σ) : Untouched w w.tick := ⟨rfl, rfl⟩

variable {code : RepairErrorCode} {detail : RepairFailureDetail}

/-- A refusal says its code, and calls no handler. -/
theorem refuse_cases {w w' : World σ} {result : RepairResult}
    (h : refuse deps code detail w = (some result, w')) :
    result = .err code detail ∧ Untouched w w' := by
  obtain ⟨hresult, rfl⟩ := Prod.mk.inj h
  obtain ⟨-, -, rfl⟩ := Option.map_eq_some_iff.1 hresult
  exact ⟨rfl, untouched_tick w⟩

/-- Audit events call no handler. -/
theorem untouched_auditAll (deps : ApplyDeps σ) (n : ℕ) (w : World σ) :
    Untouched w (auditAll deps n w).2 := by
  induction n generalizing w with
  | zero => exact ⟨rfl, rfl⟩
  | succ n ih =>
    rw [auditAll]
    split
    · exact (untouched_tick w).trans (ih w.tick)
    · exact untouched_tick w

/-! ### The loop -/

/-- **How the loop can end**: with all actions applied, or at an action that throws, or at one that
was applied before a reading of the clock that is no date. -/
inductive LoopSpec (deps : ApplyDeps σ) (actions : List RepairAction) (w w' : World σ) :
    List RepairAction → Option (RepairAction × Thrown) → Prop
  | completed (hperformed : Performed (applyCall deps) w.state actions w'.state)
      (hlog : w'.log = w.log ++ actions.map .apply) : LoopSpec deps actions w w' actions none
  | failed {done rest : List RepairAction} {entry : RepairAction} {thrown : Thrown} {middle : σ}
      (hactions : actions = done ++ entry :: rest)
      (hperformed : Performed (applyCall deps) w.state done middle)
      (hstate : (applyCall deps entry middle).2 = w'.state)
      (hthrown : (applyCall deps entry middle).1 = some thrown ∨
        (applyCall deps entry middle).1 = none ∧
          (deps.now (w.ticks + done.length)).bind Date.toISOString = none)
      (hlog : w'.log = w.log ++ (done ++ [entry]).map .apply) :
      LoopSpec deps actions w w' done (some (entry, thrown))

/-- **What the loop does**: it applies actions in order and journals them, until one fails. -/
theorem applyLoop_spec (deps : ApplyDeps σ) (actions : List RepairAction)
    (journal : List JournalEntry) (w : World σ) :
    ∃ entries, (applyLoop deps actions journal w).1.journal = journal ++ entries ∧
      LoopSpec deps actions w (applyLoop deps actions journal w).2
        (entries.map JournalEntry.action) (applyLoop deps actions journal w).1.failure := by
  induction actions generalizing journal w with
  | nil => exact ⟨[], (append_nil _).symm, .completed (.nil _) (append_nil _).symm⟩
  | cons entry rest ih =>
    rw [applyLoop]
    split
    · next thrown w' hcall =>
      obtain ⟨hthrown, rfl⟩ := Prod.mk.inj hcall
      exact ⟨[], (append_nil _).symm, .failed rfl (.nil _) rfl (.inl hthrown) rfl⟩
    · next w' hcall =>
      obtain ⟨hthrown, rfl⟩ := Prod.mk.inj hcall
      split
      · next hstamp =>
        exact ⟨[], (append_nil _).symm, .failed rfl (.nil _) rfl (.inr ⟨hthrown, hstamp⟩) rfl⟩
      next appliedAt hstamp =>
      obtain ⟨entries, hjournal, hspec⟩ := ih (journal ++ [⟨entry, appliedAt⟩]) _
      refine ⟨⟨entry, appliedAt⟩ :: entries, by rw [hjournal, append_assoc]; rfl, ?_⟩
      have hfirst : applyCall deps entry w.state = (none, (applyCall deps entry w.state).2) :=
        Prod.ext hthrown rfl
      rw [map_cons]
      generalize (applyLoop deps rest (journal ++ [⟨entry, appliedAt⟩]) _).1.failure = failure
        at hspec ⊢
      generalize entries.map JournalEntry.action = done at hspec ⊢
      cases hspec with
      | completed hperformed hlog =>
        refine .completed (.cons hfirst hperformed) ?_
        rw [hlog]
        simp [World.tick]
      | @failed done _ _ _ _ hactions hperformed hstate hthrown' hlog =>
        refine .failed (by rw [hactions]; rfl) (.cons hfirst hperformed) hstate ?_ ?_
        · refine hthrown'.imp_right fun h ↦ ⟨h.1, ?_⟩
          rw [length_cons, ← h.2, Nat.add_comm done.length, ← Nat.add_assoc]
          rfl
        · rw [hlog]
          simp [World.tick]

/-! ### What a result says -/

/-- **The handlers can take back what they do**: every selected action is reversible, a call of
`apply` that throws has had no effect, and `revert` leads back to the state before `apply`. -/
structure Restorable (deps : ApplyDeps σ) (actions : List RepairAction) : Prop where
  reversible : ∀ a ∈ actions, a.reversible = true
  throws : ∀ a ∈ actions, ∀ s s' thrown, applyCall deps a s = (some thrown, s') → s' = s
  reverts : ∀ a ∈ actions, ∀ s s', applyCall deps a s = (none, s') → ∃ handler revert,
    deps.handlers a.kind = some handler ∧ handler.revert = some revert ∧ revert a s' = (none, s)

/-- **The readings taken right after an action was applied are dates.** The calls of `apply` are the
ones that the log of the run has; the first reading of the run is compared with the expiry of the
plan, and the next ones are the stamps of the journal. -/
def Stamped (deps : ApplyDeps σ) (w w' : World σ) : Prop :=
  ∀ done entry middle after, w.log ++ (done ++ [entry]).map .apply <+: w'.log →
    Performed (applyCall deps) w.state done middle →
    applyCall deps entry middle = (none, after) →
      ((deps.now (w.ticks + 1 + done.length)).bind Date.toISOString).isSome = true

/-- The actions that a rollback tries to revert, newest first. -/
def revertible (deps : ApplyDeps σ) (done : List RepairAction) : List RepairAction :=
  done.reverse.filter fun a ↦ (revertCall deps a).isSome

/-- What a failed run says: the actions before the one that failed were applied in order, and are
the ones rolled back together with the ones that could not be. -/
structure FailedRun (deps : ApplyDeps σ) (actions : List RepairAction) (w w' : World σ)
    (detail : RepairFailureDetail) (done : List RepairAction) (entry : RepairAction)
    (back lost : List RepairAction) : Prop where
  position : ∃ rest, actions = done ++ entry :: rest
  failedAction : detail.failedAction = some entry.id
  rolledBack : detail.rolledBack = some (back.map RepairAction.id)
  rollbackFailed : detail.rollbackFailed = some (lost.map RepairAction.id)
  applied : ∃ middle, Performed (applyCall deps) w.state done middle
  partition : (back ++ lost).Perm done
  newestFirst : back.Sublist (revertible deps done)
  log : w'.log = w.log ++ (done ++ [entry]).map .apply ++ (revertible deps done).map .revert
  restored : Restorable deps actions → w'.state = w.state ∧ lost = []

/-- **What a result of `applyRepairPlan` says about the calls that were made.** -/
def ResultLaw (env : Env) (plan : RepairPlan) (deps : ApplyDeps σ) (runId : JsString)
    (options : PlanOptions) (w w' : World σ) : RepairResult → Prop
  | .ok outcome =>
    w'.log = w.log ++ (selected plan deps).map .apply ∧
    Performed (applyCall deps) w.state (selected plan deps) w'.state ∧
    outcome.applied = (selected plan deps).map RepairAction.id ∧
    ∃ fresh current, deps.read w.state = .snapshot fresh ∧
      planOf env fresh runId options = some current ∧
      ∀ a ∈ selected plan deps, ∃ b ∈ current.actions, b.id = a.id ∧ StillWanted a b
  | .err .repairFailed detail => ∃ done entry back lost,
    FailedRun deps (selected plan deps) w w' detail done entry back lost
  | .err _ _ => Untouched w w'

/-- A restorable action can be taken back from the state it has led to. -/
theorem Restorable.revertCall (h : Restorable deps actions) (ha : a ∈ actions) {s s' : σ}
    (hcall : applyCall deps a s = (none, s')) {w : World σ} (hw : w.state = s') :
    ∃ undo, revertCall deps a = some undo ∧ (undo w).1 = none ∧ (undo w).2.state = s := by
  obtain ⟨handler, revert, hhandler, hrevert, hback⟩ := h.reverts a ha s s' hcall
  refine ⟨call (.revert a) (revert a), ?_, ?_, ?_⟩
  · rw [Reconciliation.revertCall, if_pos (h.reversible a ha), hhandler, Option.bind_some, hrevert]
    rfl
  · simp only [call, hw, hback]
  · simp only [call, hw, hback]

/-- Past the gates, `ok` means that every selected action was applied. -/
theorem applySelected_ok {w w' : World σ} {outcome : RepairOutcome}
    (h : applySelected env plan deps runId w = (some (.ok outcome), w')) :
    w'.log = w.log ++ (selected plan deps).map .apply ∧
      Performed (applyCall deps) w.state (selected plan deps) w'.state ∧
      outcome.applied = (selected plan deps).map RepairAction.id := by
  obtain ⟨entries, hjournal, hspec⟩ := applyLoop_spec deps (selected plan deps) [] w
  rw [applySelected] at h
  split at h
  · next journal w₁ hloop =>
    rw [hloop] at hjournal hspec
    obtain rfl : journal = entries := hjournal
    have haudit := untouched_auditAll deps journal.length w₁
    split at h
    · cases h
    next w₂ haudits =>
    rw [haudits] at haudit
    obtain ⟨houtcome, rfl⟩ := Prod.mk.inj h
    cases Option.some.inj houtcome
    generalize hactions : journal.map JournalEntry.action = actions at hspec
    cases hspec with
    | completed hperformed hlog =>
      refine ⟨haudit.log.trans hlog, haudit.state ▸ hperformed, ?_⟩
      rw [← hactions, map_map]
      rfl
  · next journal entry thrown w₁ hloop =>
    simp only at h
    split at h
    · cases h
    · cases (refuse_cases h).1

/-- What follows the gates fails only with `repair_failed`, and then the law holds of it. -/
theorem applySelected_err {w w' : World σ} (hclock : Stamped deps w w')
    (h : applySelected env plan deps runId w.tick = (some (.err code detail), w')) :
    code = .repairFailed ∧ ∃ done entry back lost,
      FailedRun deps (selected plan deps) w w' detail done entry back lost := by
  obtain ⟨entries, hjournal, hspec⟩ := applyLoop_spec deps (selected plan deps) [] w.tick
  rw [applySelected] at h
  split at h
  · next journal w₁ hloop =>
    split at h
    · cases h
    · cases h
  · next journal entry thrown w₁ hloop =>
    rw [hloop] at hjournal hspec
    obtain rfl : journal = entries := hjournal
    simp only at h
    have haudit := untouched_auditAll deps (revertJournal deps journal w₁).back.length
      (revertJournal deps journal w₁).state
    split at h
    · cases h
    next w₂ haudits =>
    rw [haudits] at haudit
    obtain ⟨heq, huntouched⟩ := refuse_cases h
    obtain ⟨rfl, rfl⟩ := RepairResult.err.inj heq
    have hsame := haudit.trans huntouched
    generalize hdone : journal.map JournalEntry.action = done at hspec
    have hrevert : revertJournal deps journal w₁ = undoAll (revertCall deps) done.reverse w₁ := by
      rw [revertJournal, map_reverse, hdone]
    rw [hrevert] at hsame
    refine ⟨rfl, done, entry, (undoAll (revertCall deps) done.reverse w₁).back,
      (undoAll (revertCall deps) done.reverse w₁).lost, ?_⟩
    cases hspec with
    | @failed _ rest _ _ middle hactions hperformed hstate hthrown hlog =>
      have hlog' : w'.log = w.log ++ (done ++ [entry]).map .apply ++
          (revertible deps done).map .revert := by
        rw [hsame.log, trace_undoAll World.log HandlerCall.revert fun a undo hundo w ↦ ?_, hlog]
        · rfl
        rw [revertCall] at hundo
        split at hundo
        · obtain ⟨revert, -, rfl⟩ := Option.map_eq_some_iff.1 hundo
          rfl
        · cases hundo
      refine ⟨⟨_, hactions⟩, rfl, by rw [hrevert], by rw [hrevert], ⟨_, hperformed⟩,
        (undoAll_perm _ _).trans (reverse_perm done), back_undoAll_sublist _ _, hlog', ?_⟩
      intro hrestorable
      have hmem : ∀ a ∈ done, a ∈ selected plan deps := fun a ha ↦ by simp [hactions, ha]
      -- the stamp is a date, so it was the call that failed, and it has had no effect
      have hthrown := hthrown.resolve_right fun ⟨hreturned, hstamp⟩ ↦ by
        have hdate := hclock done entry middle _ ⟨_, hlog'.symm⟩ hperformed
          (Prod.ext hreturned rfl)
        rw [show w.ticks + 1 + done.length = w.tick.ticks + done.length from rfl, hstamp] at hdate
        cases hdate
      have hmiddle : w₁.state = middle :=
        hrestorable.throws entry (by simp [hactions]) _ _ _ (Prod.ext hthrown hstate)
      obtain ⟨hlost, hback⟩ := undoAll_restores World.state hperformed
        (fun a ha r r' hcall u hu ↦ hrestorable.revertCall (hmem a ha) hcall hu) hmiddle
      exact ⟨hsame.state.trans hback, hlost⟩

/-- Past the last gate, the fresh plan still wants every selected action. -/
theorem stillWanted_of_stale {current : RepairPlan} (h : stale plan deps current = []) :
    ∀ a ∈ selected plan deps, ∃ b ∈ current.actions, b.id = a.id ∧ StillWanted a b := by
  intro a ha
  rw [stale, map_eq_nil_iff, filter_eq_nil_iff] at h
  have happlies : stillApplies a (replanned current a.id) = true := by simpa using h a ha
  obtain ⟨b, hb, hwanted⟩ := stillWanted_of_stillApplies happlies
  rw [replanned] at hb
  exact ⟨b, mem_reverse.1 (mem_of_find?_eq_some hb), by simpa using find?_some hb, hwanted⟩

end

/-! ### A clock that fails once -/

/-- Two lines that disagree with the ledger. -/
def driftedLines : ReconciliationInput :=
  { emptySnapshot 0 with
    storedBalances := [⟨js "alice", js "XLM", js "1", none⟩, ⟨js "bob", js "XLM", js "1", none⟩]
    ledgerBalances := [⟨js "alice", js "XLM", js "2", js "tx-1"⟩,
      ⟨js "bob", js "XLM", js "2", js "tx-2"⟩] }

/-- Handlers that count the writes in force; `apply` throws when there are as many as given. -/
def countingHandler (limit : ℕ) : RepairHandler ℕ where
  apply _ n := if n = limit then (some none, n) else (none, n + 1)
  revert := some fun _ n ↦ (none, n - 1)

/-- A deployment with such handlers, for the plan of the snapshot above. -/
def countingDeps (limit : ℕ) (now : ℕ → Option ℤ) : ApplyDeps ℕ where
  read _ := .snapshot driftedLines
  handlers _ := some (countingHandler limit)
  role := some .maintainer
  confirm := js "plan"
  only := none
  allowIrreversible := false
  maxActions := none
  now := now

theorem applyCall_countingDeps (limit : ℕ) (now : ℕ → Option ℤ) (a : RepairAction) (n : ℕ) :
    applyCall (countingDeps limit now) a n = if n = limit then (some none, n) else (none, n + 1) :=
  rfl

theorem restorable_countingDeps {limit : ℕ} {now : ℕ → Option ℤ}
    (h : ∀ a ∈ actions, a.reversible = true) : Restorable (countingDeps limit now) actions := by
  refine ⟨h, fun a _ s s' thrown hcall ↦ ?_, fun a _ s s' hcall ↦ ?_⟩
  · rw [applyCall_countingDeps] at hcall
    split at hcall
    · exact (Prod.mk.inj hcall).2.symm
    · cases hcall
  · rw [applyCall_countingDeps] at hcall
    split at hcall
    · cases hcall
    · obtain rfl := (Prod.mk.inj hcall).2
      exact ⟨_, _, rfl, rfl, rfl⟩

/-- The second repair fails, and the first is taken back. -/
def secondFailed (message : JsString) : RepairFailureDetail where
  failedAction := some (js "recache_balance:bob|XLM")
  message := some message
  rolledBack := some [js "recache_balance:alice|XLM"]
  rollbackFailed := some []

end Utix.Reconciliation

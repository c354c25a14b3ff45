import Utix.Reconciliation.Checks

/-!
# Records that are reported

Which records the checks speak of, in terms of the records themselves. `Identities` goes through the
thirteen checks and says what holds of the identity of every record that is reported;
`identities_iff` ties it to what the checks compute, and `mem_findings` to the report.

A check is a filter over one list of the snapshot, or looks for repetitions in it, and gives a
violation for each record it keeps. The lemmas `exists_of_mem_...` go back from a violation to its
record, one for each check that the planner acts on. What a violation says in words is left to the
module about legible findings.
-/

namespace Utix.Reconciliation

open Js List

section

variable (env : Env) (input : ReconciliationInput)

/-- The check has something to say about the record. -/
def IdempotencyRecord.reported (record : IdempotencyRecord) : Bool :=
  (record.expiredBy env input).isSome || record.unsettled env input

/-- **What holds of the identity of every record that is reported**, check by check. -/
structure Identities (P : Invariant → JsString → Prop) : Prop where
  ledgerEntryPresent : ∀ entry ∈ input.storedBalances, unsettled input entry = true →
    P .ledgerEntryPresent entry.balanceKey
  amountAgrees : ∀ entry ∈ input.storedBalances, ∀ reference,
    ledgerEntry input entry.balanceKey = some reference →
      amountsEqual entry.balance reference.balance = false → P .amountAgrees entry.balanceKey
  singleLinePerAsset : ∀ entry ∈ duplicates input.storedBalances StoredBalance.balanceKey,
    P .singleLinePerAsset entry.balanceKey
  jobStateDeclared : ∀ job ∈ input.jobs,
    Lifecycle.isState Lifecycle.workerJobMachine job.status = false → P .jobStateDeclared job.id
  budgetConsistent : ∀ job ∈ input.jobs, job.exhausted = true → P .budgetConsistent job.id
  dedupeUnique : ∀ repeated ∈ repeatedJobs input, P .dedupeUnique repeated.1.id
  progress : ∀ job ∈ staleJobs env input, P .progress job.id
  claimFresh : ∀ record ∈ input.idempotencyRecords, record.reported env input = true →
    P .claimFresh record.key
  countMatches : ∀ envelope ∈ input.exportEnvelopes, envelope.recordCount ≠ envelope.records →
    P .countMatches envelope.correlationId
  retention : ∀ envelope ∈ input.exportEnvelopes, envelope.expired env input = true →
    P .retention envelope.correlationId
  notificationStateDeclared : ∀ entry ∈ input.notifications, entry.undeclared = true →
    P .notificationStateDeclared entry.id
  identityUnique : ∀ entry ∈ duplicates input.notifications Notification.key,
    P .identityUnique entry.id
  operationSettles : ∀ record ∈ input.operations, record.unsettled env input = true →
    P .operationSettles record.id

variable {env input}

/-- A record is found by its key, or another one with that key is. -/
theorem exists_find? {α : Type} {l : List α} {key : α → JsString} {a : α} {k : JsString}
    (ha : a ∈ l) (hk : key a = k) :
    ∃ found, l.find? (fun entry ↦ key entry = k) = some found ∧ key found = k := by
  have hsome : (l.find? fun entry ↦ key entry = k).isSome = true :=
    find?_isSome.2 ⟨a, ha, decide_eq_true hk⟩
  obtain ⟨found, hfound⟩ := Option.isSome_iff_exists.1 hsome
  exact ⟨found, hfound, by simpa using find?_some hfound⟩

theorem forall_mem_map_filter {α β : Type} {l : List α} {p : α → Bool} {g : α → β} {Q : β → Prop} :
    (∀ v ∈ (l.filter p).map g, Q v) ↔ ∀ x ∈ l, p x = true → Q (g x) := by
  simp only [forall_mem_map, mem_filter, and_imp]

/-- What holds of every reported amount. -/
theorem forall_mem_checkAmountAgrees {Q : Violation → Prop} :
    (∀ v ∈ checkAmountAgrees env input, Q v) ↔
      ∀ entry ∈ input.storedBalances, ∀ reference,
        ledgerEntry input entry.balanceKey = some reference →
          amountsEqual entry.balance reference.balance = false →
            Q (.mk .amountAgrees (js "stored_balance") entry.balanceKey
              (amountDetail entry reference) (some reference.balance) (some entry.balance)
              (amountDriftCause env input entry reference)) := by
  rw [checkAmountAgrees, forall_mem_filterMap]
  refine forall₂_congr fun entry _ ↦ ?_
  cases hledger : ledgerEntry input entry.balanceKey with
  | none => simp
  | some reference =>
    cases hequal : amountsEqual entry.balance reference.balance <;> simp [hequal]

/-- What holds of everything that the check has to say about claims. -/
theorem forall_mem_checkClaims {Q : Invariant → JsString → JsString → Prop} :
    (∀ v ∈ checkClaims env input, Q v.invariant v.recordId v.detail) ↔
      ∀ record ∈ input.idempotencyRecords,
        ((record.expiredBy env input).isSome = true → Q .claimFresh record.key
          (js "Expired " ++ record.status.text ++ js " record was never swept.")) ∧
        ((record.expiredBy env input).isSome = false → record.unsettled env input = true →
          Q .claimFresh record.key (js "Claim never settled.")) := by
  rw [checkClaims, forall_mem_filterMap]
  refine forall₂_congr fun record _ ↦ ?_
  cases hexpired : record.expiredBy env input with
  | none => cases hunsettled : record.unsettled env input <;> simp
  | some late => simp

/-- A check speaks of its own invariant. -/
theorem invariant_of_mem_violations {invariant : Invariant} :
    ∀ v ∈ violations env input invariant, v.invariant = invariant := by
  cases invariant with
  | amountAgrees => exact forall_mem_checkAmountAgrees.2 fun _ _ _ _ _ ↦ rfl
  | claimFresh =>
    refine (forall_mem_checkClaims (Q := fun invariant _ _ ↦ invariant = .claimFresh)).2 ?_
    exact fun _ _ ↦ ⟨fun _ ↦ rfl, fun _ _ ↦ rfl⟩
  | _ => exact forall_mem_map.2 fun _ _ ↦ rfl

/-- **The identities that are reported are those of the records.** -/
theorem identities_iff {P : Invariant → JsString → Prop} :
    Identities env input P ↔ ∀ invariant, ∀ v ∈ violations env input invariant,
      P invariant v.recordId := by
  have hclaims : (∀ v ∈ checkClaims env input, P .claimFresh v.recordId) ↔
      ∀ record ∈ input.idempotencyRecords, record.reported env input = true →
        P .claimFresh record.key := by
    rw [forall_mem_checkClaims (Q := fun _ id _ ↦ P .claimFresh id)]
    refine forall₂_congr fun record _ ↦ ?_
    rw [IdempotencyRecord.reported]
    cases (record.expiredBy env input).isSome <;> simp
  constructor
  · rintro h (_ | _ | _ | _ | _ | _ | _ | _ | _ | _ | _ | _ | _)
    · exact forall_mem_map_filter.2 h.ledgerEntryPresent
    · exact forall_mem_checkAmountAgrees.2 h.amountAgrees
    · exact forall_mem_map.2 h.singleLinePerAsset
    · exact forall_mem_map_filter.2 (by simpa using h.jobStateDeclared)
    · exact forall_mem_map_filter.2 h.budgetConsistent
    · exact forall_mem_map.2 h.dedupeUnique
    · exact forall_mem_map.2 h.progress
    · exact hclaims.2 h.claimFresh
    · exact forall_mem_map_filter.2 (by simpa using h.countMatches)
    · exact forall_mem_map_filter.2 h.retention
    · exact forall_mem_map_filter.2 h.notificationStateDeclared
    · exact forall_mem_map.2 h.identityUnique
    · exact forall_mem_map_filter.2 h.operationSettles
  · intro h
    have hstates := forall_mem_map_filter.1 (h .jobStateDeclared)
    have hcounts := forall_mem_map_filter.1 (h .countMatches)
    constructor
    · exact (forall_mem_map_filter.1 (h .ledgerEntryPresent) :)
    · exact forall_mem_checkAmountAgrees.1 (h .amountAgrees)
    · exact (forall_mem_map.1 (h .singleLinePerAsset) :)
    · simpa using hstates
    · exact (forall_mem_map_filter.1 (h .budgetConsistent) :)
    · exact (forall_mem_map.1 (h .dedupeUnique) :)
    · exact (forall_mem_map.1 (h .progress) :)
    · exact hclaims.1 (h .claimFresh)
    · simpa using hcounts
    · exact (forall_mem_map_filter.1 (h .retention) :)
    · exact (forall_mem_map_filter.1 (h .notificationStateDeclared) :)
    · exact (forall_mem_map.1 (h .identityUnique) :)
    · exact (forall_mem_map_filter.1 (h .operationSettles) :)

/-- A repeated job has the key that it repeats. -/
theorem mem_repeatedJobs {repeated : JobPayload × JsString} (h : repeated ∈ repeatedJobs input) :
    repeated.1 ∈ pendingJobs input ∧ repeated.1.dedupeKey = some repeated.2 := by
  obtain ⟨job, hjob, hkey⟩ := mem_filterMap.1 (mem_of_mem_duplicates h)
  obtain ⟨key, hsome, rfl⟩ := Option.map_eq_some_iff.1 hkey
  exact ⟨hjob, hsome⟩

/-! ### The records that are spoken of -/

variable {v : Violation}

theorem exists_of_mem_amount : ∀ v ∈ violations env input .amountAgrees,
    ∃ line ∈ input.storedBalances, v.recordId = line.balanceKey ∧ ∃ ledger,
      ledgerEntry input line.balanceKey = some ledger ∧
        amountsEqual line.balance ledger.balance = false :=
  forall_mem_checkAmountAgrees.2 fun line hline ledger hledger hdiffers ↦
    ⟨line, hline, rfl, ledger, hledger, hdiffers⟩

/-- A line is reported as repeated if there are several. -/
theorem exists_of_mem_singleLine (hv : v ∈ violations env input .singleLinePerAsset) :
    ∃ line ∈ input.storedBalances, v.recordId = line.balanceKey ∧
      1 < (linesOf input line.balanceKey).length := by
  obtain ⟨line, hline, rfl⟩ := mem_map.1 hv
  refine ⟨line, mem_of_mem_duplicates hline, rfl, ?_⟩
  rw [linesOf, ← countP_eq_length_filter]
  exact exists_mem_duplicates.1 ⟨line, hline, rfl⟩

theorem exists_of_mem_claims : ∀ v ∈ violations env input .claimFresh,
    ∃ record ∈ input.idempotencyRecords, v.recordId = record.key :=
  (forall_mem_checkClaims (Q := fun _ id _ ↦ ∃ record ∈ input.idempotencyRecords,
    id = record.key)).2 fun record hrecord ↦
      ⟨fun _ ↦ ⟨record, hrecord, rfl⟩, fun _ _ ↦ ⟨record, hrecord, rfl⟩⟩

/-- An envelope is reported if it has expired. -/
theorem exists_of_mem_retention (hv : v ∈ violations env input .retention) :
    ∃ envelope ∈ input.exportEnvelopes, envelope.expired env input = true ∧
      v.recordId = envelope.correlationId := by
  obtain ⟨envelope, henvelope, rfl⟩ := mem_map.1 hv
  obtain ⟨henvelope, hexpired⟩ := mem_filter.1 henvelope
  exact ⟨envelope, henvelope, hexpired, rfl⟩

theorem exists_of_mem_notificationState (hv : v ∈ violations env input .notificationStateDeclared) :
    ∃ entry ∈ input.notifications, entry.undeclared = true ∧ v.recordId = entry.id := by
  obtain ⟨entry, hentry, rfl⟩ := mem_map.1 hv
  obtain ⟨hentry, hundeclared⟩ := mem_filter.1 hentry
  exact ⟨entry, hentry, hundeclared, rfl⟩

/-- A job is reported if it has used all its attempts. -/
theorem exists_of_mem_budget (hv : v ∈ violations env input .budgetConsistent) :
    ∃ job ∈ input.jobs, job.exhausted = true ∧ v.recordId = job.id := by
  obtain ⟨job, hjob, rfl⟩ := mem_map.1 hv
  obtain ⟨hjob, hexhausted⟩ := mem_filter.1 hjob
  exact ⟨job, hjob, hexhausted, rfl⟩

/-! ### The report -/

/-- What the checks have to say, in the order of the report. -/
def allViolations (env : Env) (input : ReconciliationInput) : List Violation :=
  Invariant.all.flatMap (violations env input)

theorem mem_allViolations :
    v ∈ allViolations env input ↔ ∃ invariant, v ∈ violations env input invariant := by
  rw [allViolations, mem_flatMap]
  exact ⟨fun ⟨i, _, hv⟩ ↦ ⟨i, hv⟩, fun ⟨i, hv⟩ ↦ ⟨i, i.mem_all, hv⟩⟩

variable {report : ReconciliationReport}

/-- The findings of a report, one for everything the checks have to say. -/
theorem findings_reconcile {runId : JsString} (h : reconcile env input runId = some report) :
    report.findings = (allViolations env input).map fun v ↦ (finding v).redact := by
  rw [reconcile] at h
  obtain ⟨startedAt, -, hreport⟩ := Option.bind_eq_some_iff.1 h
  cases hreport
  simp only [produced, check, allViolations, map_flatMap, map_map]
  rfl

/-- The findings of a report are the redacted violations. -/
theorem mem_findings {runId : JsString} (h : reconcile env input runId = some report)
    {f : Finding} :
    f ∈ report.findings ↔ ∃ invariant, ∃ v ∈ violations env input invariant,
      f = (finding v).redact := by
  rw [findings_reconcile h, mem_map]
  constructor
  · rintro ⟨v, hv, rfl⟩
    obtain ⟨invariant, hv⟩ := mem_allViolations.1 hv
    exact ⟨invariant, v, hv, rfl⟩
  · rintro ⟨invariant, v, hv, rfl⟩
    exact ⟨v, mem_allViolations.2 ⟨invariant, hv⟩, rfl⟩

end

end Utix.Reconciliation

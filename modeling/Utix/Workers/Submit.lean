import Utix.Idempotency.Interleaved
import Utix.Quota.Calls
import Utix.Workers.Gate

/-!
# Submitting a job once

`submit` of `core/workers/queue.ts` chains four mechanisms: the gate that covers the operation, the
claim of an idempotency key, the charge to the quota store, and `enqueue` with its dedupe key. A key
that was completed is answered with the job it led to.

The chain leaks in three places (`submissions_leak`). The gate is asked *before* the key, so a full
gate hides a completed record. A dedupe key that stands for a pending job is found *after* the
charge, so a unit is spent and no job is made. And a delay beyond the last `Date` throws after the
charge, with the claim still in flight.

Where none of this happens (`Regular`), submissions are what they should be: one job for a key, one
unit for a job, and a completed key is always answered (`submissions_regular`).
-/

namespace Utix.Workers

open Js JsValue Lib Idempotency Option List IdempotencyRecord

/-! ### One call -/

/-- What `label()` and `stats()` of a gate answer. -/
structure GateView where
  label : JsString
  live : ℕ
  maxConcurrent : JsNum

def findGate (gates : List GateView) (operation : JsString) : Option GateView :=
  gates.find? fun gate ↦ startsWith operation gate.label

/-- `live >= maxConcurrent` -/
def GateView.isFull (gate : GateView) : Bool := gate.maxConcurrent.atMost (.ofInt gate.live)

/-- `value ?? null` -/
def orNull {α : Type} (f : α → JsValue) : Option α → JsValue
  | none => .null
  | some value => f value

/-- The policy of a framework, and the policies of its quota store. -/
structure SubmitConfig where
  worker : WorkerConfig
  policies : Quota.Policies

section

variable (config : SubmitConfig)

/-- The options of the idempotency store that the framework creates. -/
def SubmitConfig.idempotency : IdempotencyOptions where
  ttlMs := config.worker.policy.idempotencyTtlMs
  otherDate := config.worker.otherDate

/-- The name under which submissions are claimed and metered. -/
def submitOperation : JsString := js "worker.enqueue"

/-- The payload of a submission, as the claim digests it. -/
def submitPayload (input : JobInput) : JsValue :=
  .obj [(js "operation", .str input.operation), (js "params", .obj (input.params.getD [])),
    (js "dedupeKey", orNull .str input.dedupeKey),
    (js "maxAttempts", .num (.ofInt (input.maxAttempts.getD config.worker.policy.maxAttempts))),
    (js "delayMs", orNull (fun ms ↦ .num (.ofInt ms)) input.delayMs)]

/-- The request to the idempotency store. -/
def submitClaim (input : JobInput) : BeginRequest where
  key := input.idempotencyKey
  operation := submitOperation
  request := submitPayload config input
  correlationId := input.correlationId

/-- The request to the quota store. -/
def submitCharge (input : JobInput) : Quota.QuotaRequest where
  operation := submitOperation
  principal := input.principal.getD (js "system:worker")
  correlationId := input.correlationId

/-- `{ jobId }` -/
def jobRef (id : JsString) : JsValue := .obj [(js "jobId", .str id)]

/-- A framework with the two stores it submits through. -/
structure Submitter where
  framework : Framework := {}
  idempotency : Idempotency.Store := {}
  quota : Quota.Store := {}

/-- A call of `submit`: its input, the gates as they answer, the readings of the clock, and the ids
that the stores draw. -/
structure SubmitCall where
  input : JobInput
  gates : List GateView := []
  begunAt : ℤ := 0
  chargedAt : ℤ := 0
  enqueuedAt : ℤ := 0
  beginId : JsString := []
  chargeId : JsString := []

/-- The gate that covers the operation is full. -/
def SubmitCall.gateFull (call : SubmitCall) : Bool :=
  (findGate call.gates call.input.operation).any GateView.isFull

inductive SubmitErrorCode
  | backpressureFull
  | idempotency (code : IdempotencyErrorCode)
  | quota (code : Quota.QuotaErrorCode) (denial : Option Quota.QuotaDenial)

structure SubmitResult where
  job : JobPayload
  replayed : Bool
  record : IdempotencyRecord

/-- What `submit` answers, and what it leaves: `none` is an exception. -/
abbrev SubmitReply := Option (Except SubmitErrorCode SubmitResult) × Submitter

/-- `jobs.get(recorded.response?.jobId)`, for a `jobId` that is truthy. -/
def recordedJob (s : Framework) (record : IdempotencyRecord) : Option JobPayload :=
  match record.response.get (js "jobId") with
  | .str id => if id = [] then none else s.jobs.get id
  | _ => none

/-- The answer to a key that has a record. -/
def replayReply (s : Framework) (record : IdempotencyRecord) :
    Except SubmitErrorCode SubmitResult :=
  match recordedJob s record with
  | none => .error (.idempotency .idempotencyNotFound)
  | some job => .ok ⟨job, true, record⟩

/-- The part of `submit` from `framework.enqueue(input)` on. -/
def submitCharged (s : Submitter) (key : JsString) (call : SubmitCall) : SubmitReply :=
  match enqueue config.worker s.framework call.input call.enqueuedAt with
  | none => (none, s)
  | some (job, framework) =>
    match complete s.idempotency key (jobRef job.id) with
    | (none, store) => (none, { s with framework, idempotency := store })
    | (some (.error code), store) =>
      (some (.error (.idempotency code)),
        { s with framework, idempotency := (abandon store key).2 })
    | (some (.ok record), store) =>
      (some (.ok ⟨job, false, record⟩), { s with framework, idempotency := store })

/-- The part of `submit` after the key was claimed. -/
def submitClaimed (s : Submitter) (key : JsString) (call : SubmitCall) : SubmitReply :=
  let charged := Quota.consume config.policies s.quota (submitCharge call.input) call.chargeId
    call.chargedAt
  let s := { s with quota := charged.store }
  match charged.answer with
  | none => (none, s)
  | some (.error (code, denial)) =>
    (some (.error (.quota code denial)), { s with idempotency := (abandon s.idempotency key).2 })
  | some (.ok _) => submitCharged config s key call

def submit (s : Submitter) (call : SubmitCall) : SubmitReply :=
  if call.gateFull then (some (.error .backpressureFull), s)
  else
    match begin config.idempotency s.idempotency (submitClaim config call.input) call.begunAt
        call.beginId with
    | (none, store) => (none, { s with idempotency := store })
    | (some (.error code), store) =>
      (some (.error (.idempotency code)), { s with idempotency := store })
    | (some (.ok begun), store) =>
      if begun.replay then
        (some (replayReply s.framework begun.record), { s with idempotency := store })
      else
        submitClaimed config { s with idempotency := store } (call.input.idempotencyKey.getD [])
          call

/-! ### Runs -/

/-- A framework under observation: the inputs that were answered with a job, with its id, and the
units that were charged. -/
structure Submissions where
  system : Submitter
  answered : List (JobInput × JsString) := []
  charged : ℤ := 0

/-- One step: a submission by code of the caller, or any step of the framework. -/
inductive SubmitStep
  | submit (call : SubmitCall)
  | framework (step : Step)

/-- The job that a call is answered with. -/
def answeredWith (input : JobInput) :
    Option (Except SubmitErrorCode SubmitResult) → List (JobInput × JsString)
  | some (.ok result) => [(input, result.job.id)]
  | _ => []

/-- The observed framework after a step. -/
def submitStep (o : Submissions) : SubmitStep → Submissions
  | .submit call =>
    if o.system.framework.callerRuns then
      let reply := submit config o.system call
      { system := reply.2
        answered := o.answered ++ answeredWith call.input reply.1
        charged := o.charged + Quota.chargedBetween config.policies submitOperation call.chargedAt
          o.system.quota reply.2.quota }
    else o
  | .framework c => { o with
      system := { o.system with framework := step config.worker o.system.framework c } }

end

/-- The jobs that were created: none is ever deleted. -/
def jobsCreated (s : Framework) : ℕ := s.jobs.values.length

/-- **The law of submissions**: the answers to one key name one job, since another payload under the
key is a conflict, and a unit was charged for each job. -/
structure SubmissionsLaw (o : Submissions) : Prop where
  same : ∀ a ∈ o.answered, ∀ b ∈ o.answered, a.1.idempotencyKey = b.1.idempotencyKey → a.2 = b.2
  paid : o.charged = jobsCreated o.system.framework

/-- **The law of replays**: a submission whose key has a completed record of its payload is answered
with the job of the record. -/
def ReplayLaw (config : SubmitConfig) (o : Submissions) : SubmitStep → Prop
  | .submit call => ∀ key record, call.input.idempotencyKey = some key →
      Idempotency.read o.system.idempotency key = some record →
      record.hasStatus .completed = true →
      record.requestHash = (submitClaim config call.input).digest →
      ∃ result, (submit config o.system call).1 = some (.ok result) ∧ result.replayed = true ∧
        record.response = jobRef result.job.id
  | _ => True

/-- **The condition.** A submission with a recorded key comes before the record expires, and finds
its gate open. One with a new key stands for no pending job, has dates that exist, and its job draws
an id that storage leaves as it is. Jobs are not enqueued past `submit`. -/
def Regular (config : SubmitConfig) (o : Submissions) : SubmitStep → Prop
  | .submit call => ∀ key, call.input.idempotencyKey = some key →
      (∀ record, Idempotency.read o.system.idempotency key = some record →
        expiredAt config.idempotency record call.begunAt = false ∧ call.gateFull = false) ∧
      (Idempotency.read o.system.idempotency key = none →
        duplicateOf o.system.framework call.input = none ∧ Dated call.input call.enqueuedAt ∧
          Quota.Dated config.policies call.chargedAt (submitCharge call.input) ∧
          config.worker.ids.text o.system.framework.nextId ≠ [] ∧
          survives (jobRef (config.worker.ids.text o.system.framework.nextId)) = true)
  | .framework c => ∀ input now, c ≠ .enqueue input now

instance (input : JobInput) (now : ℤ) : Decidable (Dated input now) :=
  inferInstanceAs (Decidable (_ ∧ _))

instance (config : SubmitConfig) (o : Submissions) (call : SubmitCall) :
    Decidable (Regular config o (.submit call)) :=
  inferInstanceAs (Decidable (∀ key ∈ call.input.idempotencyKey,
    (∀ record ∈ Idempotency.read o.system.idempotency key, _ ∧ _) ∧ (_ → _)))

/-! ### Records of submissions -/

variable {record : IdempotencyRecord}

theorem operation_assign {name : JsString} (h : name ≠ js "operation") (v : JsValue) :
    (record.assign name v).operation = record.operation := by
  rw [operation, IdempotencyRecord.assign, Fields.get_set, if_neg h, operation]

theorem operation_stored (h : Readable record) : (stored record).operation = record.operation := by
  rw [operation, get_stored_envelope h (by decide), operation]

/-- The record of a submission that went through. -/
structure Filled (s : Framework) (key : JsString) (record : IdempotencyRecord) : Prop where
  valid : isValidIdempotencyKey key = true
  operation : record.operation = submitOperation
  job : ∃ id, id ≠ [] ∧ (s.jobs.get id).isSome = true ∧ Settles (.ok (jobRef id)) record

variable {s t : Framework} {key : JsString}

theorem Filled.mono (h : Filled s key record)
    (hjobs : ∀ id, (s.jobs.get id).isSome = true → (t.jobs.get id).isSome = true) :
    Filled t key record := by
  obtain ⟨id, hne, hsome, hsettles⟩ := h.job
  exact ⟨h.valid, h.operation, id, hne, hjobs id hsome, hsettles⟩

/-- A replay counts in the record and changes nothing else of it. -/
theorem Filled.replayed (h : Filled s key record) (hread : Readable record) {n : JsNum}
    (hn : n.isFinite = true) : Filled s key (stored (record.assign (js "replays") (.num n))) := by
  obtain ⟨id, hne, hsome, hsettles⟩ := h.job
  refine ⟨h.valid, ?_, id, hne, hsome, (hsettles.assign_replays n).stored (hread.assign_replays hn)⟩
  rw [operation_stored (hread.assign_replays hn), operation_assign (by decide), h.operation]

theorem wellFormed_jobRef (id : JsString) : (jobRef id).WellFormed :=
  wellFormed_obj.2 ⟨nodup_singleton _, forall_mem_singleton.2 trivial⟩

variable {id : JsString}

variable {existing : IdempotencyRecord}

/-- A claim in flight is completed. -/
theorem complete_of_inFlight {s : Idempotency.Store} {v : JsValue}
    (hread : Idempotency.read s key = some existing) (hstatus : existing.hasStatus .inFlight = true)
    (hv : v.WellFormed) (hsurvives : survives v = true) :
    ∃ t, write s (completedWith v existing) = some t ∧
      complete s key v = (some (.ok (completedWith v existing)), t) := by
  have hwrite : write s (completedWith v existing) ≠ none :=
    write_ne_none (hasBigint_assign (hasBigint_assign (hasBigint_of_read hread) _ rfl) _
      (hasBigint_of_survives hv hsurvives)) s
  obtain ⟨t, ht⟩ := ne_none_iff_exists'.1 hwrite
  refine ⟨t, ht, ?_⟩
  simp only [complete, conclude, hread, hstatus, Bool.true_eq_false, if_false, ht]

/-! ### The invariant -/

/-- **The invariant of regular submissions**: every record names a job, and every answer is the one
of a record. -/
structure SubmitInv (config : SubmitConfig) (o : Submissions) : Prop where
  fresh : Fresh config.worker o.system.framework
  filed : JobsFiled o.system.framework
  owned : Owned o.system.idempotency
  filled : ∀ key record, Idempotency.read o.system.idempotency key = some record →
    Filled o.system.framework key record
  settled : o.system.quota.Settled config.policies
  answered : ∀ a ∈ o.answered, ∃ key record, a.1.idempotencyKey = some key ∧
    Idempotency.read o.system.idempotency key = some record ∧ Settles (.ok (jobRef a.2)) record
  paid : o.charged = jobsCreated o.system.framework

variable {config : SubmitConfig} {o : Submissions}

/-- What the invariant says about the answers. -/
theorem SubmitInv.law (h : SubmitInv config o) : SubmissionsLaw o where
  same a ha b hb hkey := by
    obtain ⟨key, record, hka, hread, hsettles⟩ := h.answered a ha
    obtain ⟨other, found, hkb, hfound, hagain⟩ := h.answered b hb
    rw [hka, hkb, some.injEq] at hkey
    subst hkey
    rw [hread, some.injEq] at hfound
    subst hfound
    simpa [jobRef] using hsettles.2.1.symm.trans hagain.2.1
  paid := h.paid

theorem jobsCreated_of_modify {f : JobPayload → JobPayload} (h : t.jobs = s.jobs.modify id f) :
    jobsCreated t = jobsCreated s := by
  have hcount := s.jobs.countP_modify id f fun _ ↦ true
  rw [← h, countP_true] at hcount
  exact Nat.add_right_cancel hcount

/-! ### What a regular submission does -/

/-- The ways of a regular submission: it is refused and leaves no trace, it is answered from a
record, or it makes a job. -/
inductive SubmitEffect (config : SubmitConfig) (s : Submitter) (call : SubmitCall) :
    SubmitReply → Prop
  | refused {answer : Option (Except SubmitErrorCode SubmitResult)} {store : Idempotency.Store}
      {quota : Quota.Store} (refusal : ∀ result, answer ≠ some (.ok result))
      (records : ∀ key, Idempotency.read store key = Idempotency.read s.idempotency key)
      (settled : quota.Settled config.policies)
      (charged : Quota.chargedBetween config.policies submitOperation call.chargedAt s.quota
        quota = 0) :
      SubmitEffect config s call (answer, { s with idempotency := store, quota := quota })
  | replayed {key : JsString} {existing : IdempotencyRecord} {n : JsNum} {t : Idempotency.Store}
      (hkey : call.input.idempotencyKey = some key)
      (hread : Idempotency.read s.idempotency key = some existing) (hn : n.isFinite = true)
      (hwrite : write s.idempotency (existing.assign (js "replays") (.num n)) = some t) :
      SubmitEffect config s call
        (some (replayReply s.framework (existing.assign (js "replays") (.num n))),
          { s with idempotency := t })
  | created {key : JsString} {job : JobPayload} {record : IdempotencyRecord}
      {store : Idempotency.Store} {quota : Quota.Store}
      (hkey : call.input.idempotencyKey = some key) (valid : isValidIdempotencyKey key = true)
      (hread : Idempotency.read s.idempotency key = none)
      (id : job.id = config.worker.ids.text s.framework.nextId) (nonempty : job.id ≠ [])
      (readable : Readable record) (owned : record.key = key)
      (operation : record.operation = submitOperation)
      (settles : Settles (.ok (jobRef job.id)) record)
      (records : ∀ other, Idempotency.read store other =
        if key = other then some (stored record) else Idempotency.read s.idempotency other)
      (settled : quota.Settled config.policies)
      (charged : Quota.chargedBetween config.policies submitOperation call.chargedAt s.quota
        quota = 1) :
      SubmitEffect config s call (some (.ok ⟨job, false, record⟩),
        ⟨{ s.framework with
          jobs := s.framework.jobs.set job.id job, nextId := s.framework.nextId + 2 },
          store, quota⟩)

variable {call : SubmitCall}

theorem SubmitEffect.unchanged {s : Submitter} (h : s.quota.Settled config.policies)
    {answer : Option (Except SubmitErrorCode SubmitResult)}
    (refusal : ∀ result, answer ≠ some (.ok result)) : SubmitEffect config s call (answer, s) :=
  .refused refusal (fun _ ↦ rfl) h (Quota.chargedBetween_self _ _ _ _)

variable {known : List JsString}

/-- A submission under a new key that gets through makes one job for one unit. -/
theorem submitClaimed_effect {s : Submitter} (hsettled : s.quota.Settled config.policies)
    (hkey : call.input.idempotencyKey = some key) (hvalid : isValidIdempotencyKey key = true)
    (hread : Idempotency.read s.idempotency key = none)
    (hduplicate : duplicateOf s.framework call.input = none)
    (hdates : Dated call.input call.enqueuedAt)
    (hdated : Quota.Dated config.policies call.chargedAt (submitCharge call.input))
    (hne : config.worker.ids.text s.framework.nextId ≠ [])
    (hsurvives : survives (jobRef (config.worker.ids.text s.framework.nextId)) = true)
    {createdAt expiresAt correlationId : JsString} {t : Idempotency.Store}
    (hwrite : write { s.idempotency with knownKeys := known }
      (claimRecord key (submitClaim config call.input) createdAt expiresAt correlationId) =
        some t) :
    SubmitEffect config s call (submitClaimed config { s with idempotency := t } key call) := by
  set claim := claimRecord key (submitClaim config call.input) createdAt expiresAt correlationId
    with hclaim
  have hreadable : Readable claim := readable_claimRecord _ _ _ _ _
  have hreads (other : JsString) : Idempotency.read t other =
      if key = other then some (stored claim) else Idempotency.read s.idempotency other :=
    read_write hreadable hwrite other
  have hmine : Idempotency.read t key = some (stored claim) := by rw [hreads, if_pos rfl]
  have hstatus : (stored claim).hasStatus .inFlight = true := by
    rw [hasStatus_stored hreadable]
    rfl
  obtain ⟨hafter, answer, hanswer, hcharged⟩ :=
    Quota.chargedBetween_consume hsettled rfl hdated call.chargeId
  simp only [submitClaimed, hanswer]
  cases answer with
  | error refusal =>
    obtain ⟨code, denial⟩ := refusal
    dsimp only
    simp only [abandon, hmine, hstatus, Bool.true_eq_false, if_false]
    refine .refused nofun (fun other ↦ ?_) hafter hcharged
    rw [read_remove, hreads]
    split
    · next hother => rw [← hother, hread]
    · rfl
  | ok receipt =>
    obtain ⟨job, hid, -, -, henqueue⟩ := enqueue_new config.worker hduplicate hdates
    rw [← hid] at hne hsurvives
    obtain ⟨u, hcompleted, hcomplete⟩ :=
      complete_of_inFlight hmine hstatus (wellFormed_jobRef job.id) hsurvives
    have hread' := (readable_of_read hmine).completedWith (wellFormed_jobRef job.id)
    have howned : (completedWith (jobRef job.id) (stored claim)).key = key := by
      rw [key_completedWith, key_stored hreadable]
      rfl
    simp only [submitCharged, henqueue, hcomplete]
    refine .created hkey hvalid hread hid hne hread' howned ?_
      (settles_completedWith hsurvives _) (fun other ↦ ?_) hafter hcharged
    · rw [completedWith, operation_assign (by decide), operation_assign (by decide),
        operation_stored hreadable]
      rfl
    · rw [read_write hread' hcompleted, howned, hreads]
      split <;> rfl

/-- **Every regular submission is one of these.** -/
theorem submit_effect (h : SubmitInv config o) (hc : Regular config o (.submit call)) :
    SubmitEffect config o.system call (submit config o.system call) := by
  rw [submit]
  split
  · exact .unchanged h.settled nofun
  have hbegin := begin_effect config.idempotency o.system.idempotency
    (submitClaim config call.input) call.begunAt call.beginId
  generalize hreply : begin config.idempotency o.system.idempotency (submitClaim config call.input)
    call.begunAt call.beginId = reply at hbegin ⊢
  cases hbegin with
  | refused answer hnot =>
    rcases answer with _ | (code | outcome)
    · exact .unchanged h.settled nofun
    · exact .unchanged h.settled nofun
    · exact absurd rfl (hnot outcome)
  | expired hkey hread =>
    exact absurd (congrArg Prod.fst hreply)
      (begin_ne_expired hkey (fun record hfound ↦ ((hc _ hkey).1 record hfound).1) call.beginId)
  | claimed hkey hread hwrite =>
    obtain ⟨hduplicate, hdates, hdated, hne, hsurvives⟩ := (hc _ hkey).2 hread
    have hvalid := valid_of_begin hkey (congrArg Prod.fst hreply)
    have hinput : call.input.idempotencyKey = some _ := hkey
    dsimp only
    rw [if_neg Bool.false_ne_true, hinput]
    exact submitClaimed_effect h.settled hkey hvalid hread hduplicate hdates hdated hne hsurvives
      hwrite
  | replayed hkey hread _ hn hwrite => exact .replayed hkey hread hn hwrite

/-- The answer from a filled record names its job. -/
theorem replayReply_of_filled (hfiled : JobsFiled s) (h : Filled s key record) (n : JsNum) :
    ∃ job, replayReply s (record.assign (js "replays") (.num n)) =
        .ok ⟨job, true, record.assign (js "replays") (.num n)⟩ ∧
      Settles (.ok (jobRef job.id)) record := by
  obtain ⟨id, hne, hsome, hsettles⟩ := h.job
  obtain ⟨job, hjob⟩ := isSome_iff_exists.1 hsome
  refine ⟨job, ?_, ?_⟩
  · have hjobId : (jobRef id).get (js "jobId") = .str id := rfl
    rw [replayReply, recordedJob, (hsettles.assign_replays n).2.1, hjobId]
    simp only [if_neg hne, hjob]
  · rw [hfiled id job hjob]
    exact hsettles

/-- **A record is written for an answer.** The new record names the job of the answer, and so does
the one it takes the place of; no job is lost. -/
theorem SubmitInv.answer (h : SubmitInv config o) {store : Idempotency.Store}
    {input : JobInput} (hinput : input.idempotencyKey = some key)
    (hreads : ∀ other, Idempotency.read store other =
      if key = other then some record else Idempotency.read o.system.idempotency other)
    (howned : record.key = key) (hfilled : Filled s key record)
    (hjobs : ∀ id, (o.system.framework.jobs.get id).isSome = true → (s.jobs.get id).isSome = true)
    (hid : Settles (.ok (jobRef id)) record)
    (hbefore : ∀ existing v, Idempotency.read o.system.idempotency key = some existing →
      Settles (.ok v) existing → Settles (.ok v) record) :
    Owned store ∧
      (∀ other found, Idempotency.read store other = some found → Filled s other found) ∧
      ∀ a ∈ o.answered ++ [(input, id)], ∃ other found, a.1.idempotencyKey = some other ∧
        Idempotency.read store other = some found ∧ Settles (.ok (jobRef a.2)) found := by
  have hmine : Idempotency.read store key = some record := (hreads key).trans (if_pos rfl)
  refine ⟨fun other found hother ↦ ?_, fun other found hother ↦ ?_, fun a ha ↦ ?_⟩
  · rw [hreads] at hother
    split at hother
    · next heq =>
      cases hother
      exact howned.trans heq
    · exact h.owned other found hother
  · rw [hreads] at hother
    split at hother
    · next heq =>
      subst heq
      cases hother
      exact hfilled
    · exact (h.filled other found hother).mono hjobs
  · rcases mem_append.1 ha with ha | ha
    · obtain ⟨other, found, hanswered, hother, hsettles⟩ := h.answered a ha
      by_cases heq : key = other
      · subst heq
        exact ⟨key, record, hanswered, hmine, hbefore found _ hother hsettles⟩
      · exact ⟨other, found, hanswered, ((hreads other).trans (if_neg heq)).trans hother, hsettles⟩
    · cases mem_singleton.1 ha
      exact ⟨key, record, hinput, hmine, hid⟩

/-- **One submission keeps the invariant.** -/
theorem submitInv_submit (h : SubmitInv config o) (hc : Regular config o (.submit call)) :
    SubmitInv config (submitStep config o (.submit call)) := by
  rw [submitStep]
  split
  swap
  · exact h
  have heffect := submit_effect h hc
  generalize submit config o.system call = reply at heffect ⊢
  cases heffect with
  | @refused answer store quota hrefusal hrecords hsettled hcharged =>
    have hanswered : answeredWith call.input answer = [] := by
      rcases answer with _ | (code | result)
      · rfl
      · rfl
      · exact absurd rfl (hrefusal result)
    dsimp only
    rw [hcharged, hanswered, add_zero, append_nil]
    exact ⟨h.fresh, h.filed, fun key record hread ↦ h.owned key record (hrecords key ▸ hread),
      fun key record hread ↦ h.filled key record (hrecords key ▸ hread), hsettled,
      fun a ha ↦ by simpa only [hrecords] using h.answered a ha, h.paid⟩
  | @replayed key existing n t hkey hread hn hwrite =>
    have hreadable := readable_of_read hread
    have hreplays := hreadable.assign_replays hn
    have hfilled := h.filled key existing hread
    have hown : (existing.assign (js "replays") (.num n)).key = key := by
      rw [← h.owned key existing hread, IdempotencyRecord.key, IdempotencyRecord.assign,
        Fields.get_set, if_neg (by decide), IdempotencyRecord.key]
    have hreads := read_write hreplays hwrite
    rw [hown] at hreads
    obtain ⟨job, hreply, hjob⟩ := replayReply_of_filled h.filed hfilled n
    have hagain : ∀ v, Settles (.ok v) existing →
        Settles (.ok v) (stored (existing.assign (js "replays") (.num n))) :=
      fun v hv ↦ (hv.assign_replays n).stored hreplays
    obtain ⟨howned, hrecords, hanswered⟩ := h.answer hkey hreads
      ((key_stored hreplays).trans hown) (hfilled.replayed hreadable hn) (fun _ hsome ↦ hsome)
      (hagain _ hjob) fun found v hfound hv ↦ by
        rw [hread, some.injEq] at hfound
        exact hagain v (hfound ▸ hv)
    dsimp only
    rw [Quota.chargedBetween_self, add_zero, hreply]
    exact ⟨h.fresh, h.filed, howned, hrecords, h.settled, hanswered, h.paid⟩
  | @created key job record store quota hkey hvalid hread hid hne hreadable hown hoperation
      hsettles hreads hsettled hcharged =>
    have hnew : o.system.framework.jobs.get job.id = none := by
      rw [hid]
      exact h.fresh _ le_rfl
    have hjobs : ∀ id, (o.system.framework.jobs.get id).isSome = true →
        ((o.system.framework.jobs.set job.id job).get id).isSome = true := by
      intro id hsome
      rw [Dict.get_set]
      split
      · rfl
      · exact hsome
    have hmade : ((o.system.framework.jobs.set job.id job).get job.id).isSome = true := by
      rw [Dict.get_set, if_pos rfl]
      rfl
    have hstored := hsettles.stored hreadable
    have hone : jobsCreated { o.system.framework with
        jobs := o.system.framework.jobs.set job.id job
        nextId := o.system.framework.nextId + 2 } = jobsCreated o.system.framework + 1 := by
      have hcount := o.system.framework.jobs.countP_set job.id job fun _ ↦ true
      rw [hnew, countP_true] at hcount
      exact hcount
    have hfilled : Filled { o.system.framework with
        jobs := o.system.framework.jobs.set job.id job
        nextId := o.system.framework.nextId + 2 } key (stored record) :=
      ⟨hvalid, (operation_stored hreadable).trans hoperation, job.id, hne, hmade, hstored⟩
    obtain ⟨howned, hrecords, hanswered⟩ := h.answer hkey hreads
      ((key_stored hreadable).trans hown) hfilled hjobs hstored fun found v hfound _ ↦ by
        rw [hread] at hfound
        cases hfound
    dsimp only
    rw [hcharged]
    exact ⟨fresh_set h.fresh hid rfl rfl, jobsFiled_set h.filed rfl, howned, hrecords, hsettled,
      hanswered, by rw [h.paid, hone, Nat.cast_succ]⟩

/-- The step: a regular call keeps what ties the records to the jobs and the units. -/
theorem submitInv_step (h : SubmitInv config o) {c : SubmitStep} (hc : Regular config o c) :
    SubmitInv config (submitStep config o c) := by
  cases c with
  | submit call => exact submitInv_submit h hc
  | framework c =>
    have hstep := jobs_step config.worker o.system.framework c
    generalize hjobs : (step config.worker o.system.framework c).jobs = jobs at hstep
    have hcreated : jobsCreated (step config.worker o.system.framework c) =
        jobsCreated o.system.framework := by
      cases hstep with
      | kept => rw [jobsCreated, hjobs, jobsCreated]
      | enqueued hcalled => exact absurd hcalled (hc _ _)
      | changed => exact jobsCreated_of_modify hjobs
    exact ⟨fresh_step h.fresh, jobsFiled_step h.filed c, h.owned,
      fun key record hread ↦ (h.filled key record hread).mono fun _ ↦ isSome_step, h.settled,
      h.answered, h.paid.trans (congrArg Nat.cast hcreated.symm)⟩

/-- **A regular submission of a recorded payload is a replay.** -/
theorem replayLaw_of_regular (h : SubmitInv config o) {c : SubmitStep} (hc : Regular config o c) :
    ReplayLaw config o c := by
  cases c with
  | framework c => trivial
  | submit call =>
    intro key record hkey hread hcompleted hhash
    obtain ⟨hexpired, hopen⟩ := (hc key hkey).1 record hread
    have hfilled := h.filled key record hread
    have hclaim : (submitClaim config call.input).key = some key := hkey
    obtain ⟨n, t, hbegin⟩ := begin_replays hclaim hfilled.valid hread hexpired hhash
      hfilled.operation (by rw [hasStatus, of_decide_eq_true hcompleted]; decide) call.beginId
    obtain ⟨job, hreply, hsettles⟩ := replayReply_of_filled h.filed hfilled n
    refine ⟨⟨job, true, record.assign (js "replays") (.num n)⟩, ?_, rfl, hsettles.2.1⟩
    simp only [submit, hopen, Bool.false_eq_true, if_false, hbegin, if_true, hreply]

/-- **Idempotent submission.** In every run of a new framework and its stores whose steps are
regular, all answers to a key and a payload name one job and every job was charged for once, after
each step; and a submission whose key has a completed record of its payload is answered with the job
of the record. -/
theorem submissions_regular {config : SubmitConfig} {quota : Quota.Store}
    (hquota : quota.Settled config.policies) {steps : List SubmitStep}
    (hsteps : Meets (submitStep config) (Regular config) { system := { quota } } steps) :
    Always (submitStep config) SubmissionsLaw { system := { quota } } steps ∧
      Meets (submitStep config) (ReplayLaw config) { system := { quota } } steps := by
  have hstart : SubmitInv config { system := { quota } } :=
    ⟨fresh_init, nofun, nofun,
      nofun, hquota, nofun, rfl⟩
  exact ⟨always_of_meets (fun o _ (hinv : SubmitInv config o) hok ↦ submitInv_step hinv hok)
      (fun _ hinv ↦ hinv.law) hstart hsteps,
    meets_of_meets (fun o _ (hinv : SubmitInv config o) hok ↦ submitInv_step hinv hok)
      (fun _ _ hinv hok ↦ replayLaw_of_regular hinv hok) hstart hsteps⟩

/-! ### Fixed runs -/

/-- Five submissions a minute for each principal. -/
def fiveConfig : SubmitConfig where
  worker := letterConfig
  policies :=
    ⟨[{ operation := submitOperation, resource := .compute, limit := 5, windowMs := 60000 }],
      by decide +kernel⟩

/-- An export under a key. -/
def exportInput (key : String) : JobInput where
  operation := js "export"
  idempotencyKey := some (js key)

/-- A submission of an export under a key. -/
def submitExport (key : String) : SubmitStep := .submit { input := exportInput key }

/-- The framework after some steps. -/
def submissionsAfter (steps : List SubmitStep) : Submissions :=
  run (submitStep fiveConfig) { system := {} } steps

/-- Two keys, one of them twice: two jobs, and the last answer is the first job. -/
theorem submissions_regular_exports :
    let steps := [submitExport "export-0001", submitExport "export-0002",
      submitExport "export-0001"]
    (submissionsAfter steps).answered.map Prod.snd = [js "a", js "aaa", js "a"] ∧
      Always (submitStep fiveConfig) SubmissionsLaw { system := {} } steps := by
  refine ⟨by decide +kernel, (submissions_regular (fun _ _ _ _ ↦ ⟨rfl, fun _ ↦ le_rfl⟩) ?_).1⟩
  refine ⟨?_, ?_, ?_, trivial⟩
  · show Regular _ _ (.submit _)
    decide +kernel
  · show Regular _ _ (.submit _)
    decide +kernel
  · show Regular _ _ (.submit _)
    decide +kernel

/-- Two keys that share a dedupe key. -/
def dedupedExports : List SubmitStep :=
  [.submit { input := { exportInput "export-0001" with dedupeKey := some (js "nightly") } },
    .submit { input := { exportInput "export-0002" with dedupeKey := some (js "nightly") } }]

/-- An export at a time that no `Date` holds. -/
def delayedExport : List SubmitStep :=
  [.submit { input := { exportInput "export-0001" with delayMs := some (10 ^ 16) } }]

/-- **The leaks.** The key has a completed record of the payload, and the submission is refused
because the gate is full; two keys share a dedupe key, two units are charged and there is one job;
the delay is beyond the last `Date`, one unit is charged and there is no job. -/
theorem submissions_leak :
    ((Idempotency.read (submissionsAfter [submitExport "export-0001"]).system.idempotency
        (js "export-0001")).any (fun record ↦ record.hasStatus .completed &&
          record.requestHash ==
            (submitClaim fiveConfig (exportInput "export-0001")).digest) = true ∧
      (submit fiveConfig (submissionsAfter [submitExport "export-0001"]).system
        { input := exportInput "export-0001", gates := [⟨js "export", 1, .ofInt 1⟩] }).1 =
          some (.error .backpressureFull)) ∧
    ((submissionsAfter dedupedExports).charged = 2 ∧
      jobsCreated (submissionsAfter dedupedExports).system.framework = 1) ∧
    (submissionsAfter delayedExport).charged = 1 ∧
      jobsCreated (submissionsAfter delayedExport).system.framework = 0 := by
  refine ⟨⟨by decide +kernel, ?_⟩, by decide +kernel, by decide +kernel⟩
  rw [submit, if_pos (by decide +kernel)]

end Utix.Workers

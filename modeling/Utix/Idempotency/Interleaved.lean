import Utix.Idempotency.AtMostOnce

/-!
# Interleaved callers

`withIdempotency` of `core/idempotency/idempotency.ts`: claim the key, run the work, record its
outcome. Any number of callers do so on one store, and each takes three steps — it *begins*, its
*run* settles, and it *finishes* — with steps of others in between.

`complete` and `fail` find the claim by its key alone. So a caller whose claim has expired under it
and was made again by somebody else answers that other claim: `answered_by_another`. And the value a
replay returns has been through `redact` and JSON, which need not give back what the run returned.

## The claim of a key

`holder` is the call whose `begin` last claimed a key. It is not part of the code: it is who the
record of the key belongs to. `Timely` says that nobody finishes on a claim of another, and that the
values of runs survive storage; then every record was produced by the run of its holder, and every
replay answers what the holder was answered (`answered_by_holder`).
-/

namespace Utix.Idempotency

open Js JsValue Telemetry Lib Option Bool IdempotencyRecord

/-! ### The wrapper -/

/-- What the work of a caller settles with; `thrown` has the name of an `Error`, if it was one. -/
inductive RunResult
  | ok (value : {v : JsValue // v.WellFormed})
  | err (code : JsString)
  | thrown (name : Option JsString)

structure IdempotentOutcome where
  value : JsValue
  replayed : Bool
  record : IdempotencyRecord

/-- What `withIdempotency` resolves to, or that it rejects. -/
inductive WrapperAnswer
  | ok (outcome : IdempotentOutcome)
  | err (code : JsValue)
  | rejected

def IdempotencyRecord.errorCode (record : IdempotencyRecord) : JsValue :=
  record.fields.get (js "errorCode")

def replayAnswer (record : IdempotencyRecord) : WrapperAnswer :=
  if record.hasStatus .failed then
    .err (if record.errorCode = .undefined ∨ record.errorCode = .null then
      .str (js "idempotency_replay_failed") else record.errorCode)
  else .ok ⟨record.response, true, record⟩

/-- The `catch` block, for an error with this name. -/
def recordThrown (s : Store) (key code : JsString) : WrapperAnswer × Store :=
  let failed := fail s key code
  (if failed.1.isSome then .err (.str code) else .rejected, failed.2)

/-- What follows on `await request.run()`. -/
def finish (s : Store) (key : JsString) : RunResult → WrapperAnswer × Store
  | .ok value =>
    match complete s key value with
    | (some (.ok record), s) => (.ok ⟨value, false, record⟩, s)
    | (some (.error code), s) => (.err (.str code.text), s)
    -- the response has a bigint
    | (none, s) => recordThrown s key (js "TypeError")
  | .err code =>
    match fail s key code with
    | (some (.ok _), s) => (.err (.str code), s)
    | (some (.error refusal), s) => (.err (.str refusal.text), s)
    | (none, s) => recordThrown s key (js "TypeError")
  | .thrown name => recordThrown s key (name.getD (js "unknown"))

/-! ### The system -/

/-- A call of `withIdempotency`. -/
structure WrapperCall where
  key : JsString
  /-- What its run has settled with. -/
  result : Option RunResult := none
  /-- What it has answered. -/
  answer : Option WrapperAnswer := none
  /-- The call whose claim it has replayed. -/
  origin : Option ℕ := none

/-- The store, the calls by their number, and who claimed each key last. -/
structure WrapperSystem where
  store : Store
  calls : Dict ℕ WrapperCall := .empty
  holder : JsString → Option ℕ := fun _ ↦ none

/-- One step of a call. -/
inductive WrapperStep
  | begin (caller : ℕ) (request : BeginRequest) (now : ℤ) (freshId : JsString)
  | run (caller : ℕ) (result : RunResult)
  | finish (caller : ℕ)

/-- **One step.** A step that its call is not ready for does nothing. -/
def wrapperStep (options : IdempotencyOptions) (system : WrapperSystem) :
    WrapperStep → WrapperSystem
  | .begin caller request now freshId =>
    match system.calls.get caller with
    | some _ => system
    | none =>
      let key := request.key.getD []
      let begun := Idempotency.begin options system.store request now freshId
      let answered answer origin : WrapperSystem :=
        { system with
          store := begun.2
          calls := system.calls.set caller { key := key, answer := some answer, origin := origin } }
      match begun.1 with
      | none => answered .rejected none
      | some (.error code) => answered (.err (.str code.text)) none
      | some (.ok ⟨true, record⟩) => answered (replayAnswer record) (system.holder key)
      | some (.ok ⟨false, _⟩) =>
        { store := begun.2
          calls := system.calls.set caller { key := key }
          holder := fun other ↦ if other = key then some caller else system.holder other }
  | .run caller result =>
    match system.calls.get caller with
    | some ⟨key, none, none, origin⟩ =>
      { system with calls := system.calls.set caller ⟨key, some result, none, origin⟩ }
    | _ => system
  | .finish caller =>
    match system.calls.get caller with
    | some ⟨key, some result, none, origin⟩ =>
      let finished := Idempotency.finish system.store key result
      { system with
        store := finished.2
        calls := system.calls.set caller ⟨key, some result, some finished.1, origin⟩ }
    | _ => system

/-! ### Values that survive storage -/

/-- What the run has produced: a value, or the code of a failure. -/
def RunResult.produced : RunResult → Except JsString JsValue
  | .ok value => .ok value
  | .err code => .error code
  | .thrown name => .error (name.getD (js "unknown"))

/-- Redaction and JSON give back the value. -/
def survives (v : JsValue) : Bool := throughJson (scrubbed v) = v

/-- The value of the run, if it is one, survives storage. -/
def RunResult.lossless : RunResult → Bool
  | .ok value => survives value
  | _ => true

/-- The claim under the key is in flight. -/
def inFlightAt (s : Store) (key : JsString) : Bool :=
  (read s key).any fun record ↦ record.hasStatus .inFlight

/-- The call can finish: what it would conclude is its own claim, and its value survives. -/
def canFinish (system : WrapperSystem) (caller : ℕ) (call : WrapperCall) : Bool :=
  (!inFlightAt system.store call.key || system.holder call.key = some caller) &&
    call.result.all RunResult.lossless

/-- **The condition**: a call that finishes finds its own claim, or none that is in flight, and the
value of its run survives storage. -/
def Timely (system : WrapperSystem) : WrapperStep → Prop
  | .finish caller => (system.calls.get caller).all (canFinish system caller) = true
  | _ => True

/-! ### What the calls of the store do -/

/-- What a `begin` can do. -/
inductive BeginEffect (s : Store) (request : BeginRequest) : Reply BeginOutcome → Prop
  | refused (answer : Option (Except IdempotencyErrorCode BeginOutcome))
      (h : ∀ outcome, answer ≠ some (.ok outcome)) : BeginEffect s request (answer, s)
  | expired {key : JsString} {existing : IdempotencyRecord} (hkey : request.key = some key)
      (hread : read s key = some existing) :
      BeginEffect s request (some (.error .idempotencyKeyExpired), remove s existing.key)
  | claimed {key createdAt expiresAt correlationId : JsString} {t : Store} {known : List JsString}
      (hkey : request.key = some key) (hread : read s key = none)
      (hwrite : write { s with knownKeys := known }
        (claimRecord key request createdAt expiresAt correlationId) = some t) :
      BeginEffect s request
        (some (.ok ⟨false, claimRecord key request createdAt expiresAt correlationId⟩), t)
  | replayed {key : JsString} {existing : IdempotencyRecord} {n : JsNum} {t : Store}
      (hkey : request.key = some key) (hread : read s key = some existing)
      (hstatus : existing.hasStatus .inFlight = false) (hn : n.isFinite = true)
      (hwrite : write s (existing.assign (js "replays") (.num n)) = some t) :
      BeginEffect s request (some (.ok ⟨true, existing.assign (js "replays") (.num n)⟩), t)

/-- **Every `begin` is one of these.** -/
theorem begin_effect (options : IdempotencyOptions) (s : Store) (request : BeginRequest) (now : ℤ)
    (freshId : JsString) : BeginEffect s request (begin options s request now freshId) := by
  have hrefused : ∀ code, BeginEffect s request (some (.error code), s) := fun code ↦
    .refused _ (fun outcome h ↦ by cases h)
  rw [begin]
  split
  · exact hrefused _
  next key hkey =>
  split
  · exact hrefused _
  split
  · exact hrefused _
  split
  · next hread =>
    split
    · exact .refused none (fun outcome h ↦ by cases h)
    next record t hclaim =>
    simp only [claim, bind_eq_bind, bind_eq_some_iff, some.injEq, Prod.mk.injEq] at hclaim
    obtain ⟨createdAt, -, expiresAt, -, t, hwrite, rfl, rfl⟩ := hclaim
    exact .claimed hkey hread hwrite
  · next existing hread =>
    split
    · exact .expired hkey hread
    split
    · exact hrefused _
    split
    · exact hrefused _
    split
    · exact hrefused _
    next hstatus =>
    dsimp only
    split
    · exact .refused none (fun outcome h ↦ by cases h)
    · next t hwrite =>
      exact .replayed hkey hread (eq_false_iff.2 hstatus)
        (isFinite_add (readable_of_read hread).finite rfl) hwrite

variable {options : IdempotencyOptions} {s : Store} {request : BeginRequest} {now : ℤ}
  {key : JsString}

/-- A `begin` that is granted has a valid key. -/
theorem valid_of_begin {freshId : JsString} {outcome : BeginOutcome} (hkey : request.key = some key)
    (h : (begin options s request now freshId).1 = some (.ok outcome)) :
    isValidIdempotencyKey key = true := by
  by_contra hvalid
  rw [begin, hkey] at h
  simp only [eq_false_iff.2 hvalid, if_true] at h
  split at h <;> cases h

/-- As long as the record of its key has not expired, a `begin` does not say so. -/
theorem begin_ne_expired (hkey : request.key = some key)
    (h : ∀ record, read s key = some record → expiredAt options record now = false)
    (freshId : JsString) :
    (begin options s request now freshId).1 ≠ some (.error .idempotencyKeyExpired) := by
  intro hanswer
  rw [begin, hkey] at hanswer
  simp only at hanswer
  split at hanswer
  · cases hanswer
  split at hanswer
  · cases hanswer
  split at hanswer
  · split at hanswer <;> cases hanswer
  next existing hread =>
  rw [h existing hread, if_neg Bool.false_ne_true] at hanswer
  split at hanswer
  · cases hanswer
  split at hanswer
  · cases hanswer
  split at hanswer
  · cases hanswer
  · split at hanswer <;> cases hanswer

/-- What `complete` and `fail` can do. -/
inductive ConcludeEffect (s : Store) (key : JsString)
    (outcome : IdempotencyRecord → IdempotencyRecord) : Reply IdempotencyRecord → Prop
  | refused (code : IdempotencyErrorCode) : ConcludeEffect s key outcome (some (.error code), s)
  | threw {existing : IdempotencyRecord} (hread : read s key = some existing)
      (hwrite : write s (outcome existing) = none) : ConcludeEffect s key outcome (none, s)
  | recorded {existing : IdempotencyRecord} {t : Store} (hread : read s key = some existing)
      (hstatus : existing.hasStatus .inFlight = true)
      (hwrite : write s (outcome existing) = some t) :
      ConcludeEffect s key outcome (some (.ok (outcome existing)), t)

/-- What completing or failing a key does, by cases on what is read under it. -/
theorem conclude_effect (s : Store) (key : JsString)
    (outcome : IdempotencyRecord → IdempotencyRecord) :
    ConcludeEffect s key outcome (conclude s key outcome) := by
  rw [conclude]
  split
  · exact .refused _
  next existing hread =>
  split
  · exact .refused _
  next hstatus =>
  split
  · next hwrite => exact .threw hread hwrite
  · next t hwrite => exact .recorded hread (not_eq_false _ ▸ hstatus) hwrite

/-! ### No bigint in a JSON value -/

theorem hasBigintElems_iff {xs : List JsValue} :
    hasBigintElems xs = false ↔ ∀ x ∈ xs, hasBigint x = false := by
  induction xs with
  | nil => simp [hasBigintElems]
  | cons x xs ih => simp [hasBigintElems, ih]

theorem hasBigintFields_iff {fs : Fields} :
    hasBigintFields fs = false ↔ ∀ f ∈ fs, hasBigint f.2 = false := by
  induction fs with
  | nil => simp [hasBigintFields]
  | cons f fs ih => simp [hasBigintFields, ih]

variable {v : JsValue}

theorem hasBigint_of_isJson (h : v.IsJson) : hasBigint v = false := by
  induction v using JsValue.induct with
  | arr xs ih => exact hasBigintElems_iff.2 fun x hx ↦ ih x hx (isJson_arr.1 h x hx)
  | obj fs ih => exact hasBigintFields_iff.2 fun f hf ↦ ih f hf ((isJson_obj.1 h).2 f hf)
  | foreign kind => exact absurd h (by simp [IsJson])
  | _ => rfl

/-- Redaction brings in no bigint. -/
theorem hasBigint_redact {a : Bool} {depth : ℕ} (h : hasBigint v = false) :
    hasBigint (redact a depth v) = false := by
  induction v using JsValue.induct generalizing depth with
  | arr xs ih =>
    rw [redact]
    split
    · rfl
    · exact hasBigintElems_iff.2
        (forall_mem_redactElems fun x hx ↦ ih x hx (hasBigintElems_iff.1 h x hx))
  | obj fs ih =>
    rw [redact]
    split
    · rfl
    · exact hasBigintFields_iff.2
        (forall_mem_redactFields (P := (hasBigint · = false)) rfl fun f hf ↦
          ih f hf (hasBigintFields_iff.1 h f hf))
  | foreign kind =>
    cases kind with
    | bigint => cases h
    | _ => rw [redact] <;> simp [hasBigint]
  | _ => rw [redact]; rfl

/-- What survives storage has no bigint. -/
theorem hasBigint_of_survives (hv : v.WellFormed) (h : survives v = true) :
    hasBigint v = false := by
  have hscrubbed : (scrubbed v).WellFormed := by
    rw [scrubbed]
    split
    · exact wellFormed_redact hv
    · exact hv
  rw [survives, decide_eq_true_eq] at h
  rw [← h, throughJson]
  split
  · rfl
  · exact hasBigint_of_isJson (isJson_jsonOf hscrubbed)

variable {record : IdempotencyRecord}

/-- The fields of a record that was read are JSON values. -/
theorem hasBigint_of_read (h : read s key = some record) :
    ∀ f ∈ record.fields, hasBigint f.2 = false :=
  fun f hf ↦ hasBigint_of_isJson ((isJson_obj.1 (isJson_of_read h).2).2 f hf)

/-- A record without a bigint can be written. -/
theorem write_ne_none (h : ∀ f ∈ record.fields, hasBigint f.2 = false) (s : Store) :
    write s record ≠ none := by
  have hresponse : hasBigint record.response = false := by
    rw [response]
    by_cases hu : record.fields.get (js "response") = .undefined
    · rw [hu]
      rfl
    · exact h _ (Fields.get_mem hu)
  have hno : hasBigintFields (persistable record) = false := by
    refine hasBigintFields_iff.2 fun f hf ↦ ?_
    rcases Fields.mem_set hf with hf | rfl
    · exact h f hf
    show hasBigint (if _ then _ else _) = false
    split
    · exact hasBigint_redact hresponse
    · exact hresponse
  rw [write, hno]
  exact some_ne_none _

theorem hasBigint_assign (h : ∀ f ∈ record.fields, hasBigint f.2 = false) (name : JsString)
    (hv : hasBigint v = false) : ∀ f ∈ (record.assign name v).fields, hasBigint f.2 = false := by
  intro f hf
  rcases Fields.mem_set hf with hf | rfl
  · exact h f hf
  · exact hv

/-- **A `begin` for a concluded claim**, with the request it was made for and in time, is a
replay. -/
theorem begin_replays {existing : IdempotencyRecord} (hkey : request.key = some key)
    (hvalid : isValidIdempotencyKey key = true) (hread : read s key = some existing)
    (hexpired : expiredAt options existing now = false)
    (hhash : existing.requestHash = request.digest)
    (hoperation : existing.operation = request.operation)
    (hstatus : existing.hasStatus .inFlight = false) (freshId : JsString) :
    ∃ n t, begin options s request now freshId =
      (some (.ok ⟨true, existing.assign (js "replays") (.num n)⟩), t) := by
  have hne : key ≠ [] := by rintro rfl; exact absurd hvalid (by decide)
  have hwrite := write_ne_none (hasBigint_assign (hasBigint_of_read hread) (js "replays")
    (v := .num (existing.replays.add (JsNum.ofInt 1))) rfl) s
  obtain ⟨t, ht⟩ := ne_none_iff_exists'.1 hwrite
  refine ⟨existing.replays.add (JsNum.ofInt 1), t, ?_⟩
  simp only [begin, hkey, if_neg hne, hvalid, true_eq_false, if_false, hread, hexpired,
    false_eq_true, hhash, ne_eq, not_true_eq_false, hoperation, hstatus, ht]

/-! ### Records that settle a run -/

/-- The record says what a run has produced. -/
def Settles (produced : Except JsString JsValue) (record : IdempotencyRecord) : Prop :=
  match produced with
  | .ok v => record.hasStatus .completed = true ∧ record.response = v ∧ survives v = true
  | .error code => record.hasStatus .failed = true ∧ record.errorCode = .str code

/-- The status of a record is read back as it was written. -/
theorem hasStatus_stored (h : Readable record) (status : IdempotencyStatus) :
    (stored record).hasStatus status = record.hasStatus status := by
  rw [hasStatus, get_stored_envelope h (by decide), hasStatus]

variable {produced : Except JsString JsValue}

/-- **A record that settles a run does so after it was stored.** -/
theorem Settles.stored (h : Settles produced record) (hread : Readable record) :
    Settles produced (Idempotency.stored record) := by
  cases produced with
  | ok v =>
    obtain ⟨hstatus, hresponse, hsurvives⟩ := h
    refine ⟨(hasStatus_stored hread _).trans hstatus, ?_, hsurvives⟩
    have hget := get_stored hread (js "response")
    rw [storedField, if_pos rfl, hresponse] at hget
    exact hget.trans (of_decide_eq_true hsurvives)
  | error code =>
    obtain ⟨hstatus, hcode⟩ := h
    refine ⟨(hasStatus_stored hread _).trans hstatus, ?_⟩
    have hget := get_stored hread (js "errorCode")
    rw [storedField, if_neg (by decide)] at hget
    exact hget.trans (by rw [show record.fields.get (js "errorCode") = .str code from hcode]; rfl)

/-- A replay keeps what the record says. -/
theorem Settles.assign_replays (h : Settles produced record) (n : JsNum) :
    Settles produced (record.assign (js "replays") (.num n)) := by
  cases produced with
  | ok v =>
    rw [Settles, hasStatus, response, get_assign_of_ne (by decide), get_assign_of_ne (by decide)]
    exact h
  | error code =>
    rw [Settles, hasStatus, errorCode, get_assign_of_ne (by decide), get_assign_of_ne (by decide)]
    exact h

/-- A completed record answers with the value, if that survives storage. -/
theorem settles_completedWith (h : survives v = true) (record : IdempotencyRecord) :
    Settles (.ok v) (completedWith v record) := by
  refine ⟨?_, ?_, h⟩
  · rw [hasStatus, completedWith, get_assign_of_ne (by decide),
      get_assign_self]
    exact decide_eq_true rfl
  · exact get_assign_self ..

/-- A failed record answers with its error code. -/
theorem settles_failedWith (code : JsString) (record : IdempotencyRecord) :
    Settles (.error code) (failedWith code record) := by
  refine ⟨?_, ?_⟩
  · rw [hasStatus, failedWith, get_assign_of_ne (by decide), get_assign_self]
    exact decide_eq_true rfl
  · exact get_assign_self ..

/-! ### Answers -/

/-- What the caller of the run is answered. -/
def Answers (produced : Except JsString JsValue) (answer : WrapperAnswer) : Prop :=
  match produced with
  | .ok v => ∃ record, answer = .ok ⟨v, false, record⟩
  | .error code => answer = .err (.str code)

/-- Two answers with the same value, or the same code. -/
def WrapperAnswer.Agrees : WrapperAnswer → WrapperAnswer → Prop
  | .ok a, .ok b => a.value = b.value
  | .err c, .err d => c = d
  | _, _ => False

/-- **A replay from a record agrees with the answer of the run that the record settles.** -/
theorem agrees_of_settles {answer : WrapperAnswer} (h : Settles produced record)
    (hanswer : Answers produced answer) : (replayAnswer record).Agrees answer := by
  cases produced with
  | ok v =>
    obtain ⟨hstatus, hresponse, -⟩ := h
    obtain ⟨own, rfl⟩ := hanswer
    have hfailed : record.hasStatus .failed = false := by
      rw [hasStatus, of_decide_eq_true hstatus]
      decide
    rw [replayAnswer, hfailed]
    exact hresponse
  | error code =>
    obtain ⟨hstatus, hcode⟩ := h
    obtain rfl := hanswer
    rw [replayAnswer, if_pos hstatus, hcode, if_neg (by simp)]
    exact rfl

/-- The claim of the key was in flight, and its record now says what the run has produced. -/
def Concludes (s : Store) (key : JsString) (produced : Except JsString JsValue) (t : Store) :
    Prop :=
  ∃ existing record, read s key = some existing ∧ existing.hasStatus .inFlight = true ∧
    Readable record ∧ record.key = existing.key ∧ Settles produced record ∧
    write s record = some t

/-- A conclusion that can be written is refused, or concludes the claim. -/
theorem conclude_cases (s : Store) (key : JsString) {f : IdempotencyRecord → IdempotencyRecord}
    (hbigint : ∀ {record : IdempotencyRecord}, (∀ x ∈ record.fields, hasBigint x.2 = false) →
      ∀ x ∈ (f record).fields, hasBigint x.2 = false)
    (hreadable : ∀ {record}, Readable record → Readable (f record))
    (hkey : ∀ record, (f record).key = record.key)
    (hsettles : ∀ record, Settles produced (f record)) :
    (∃ refusal, conclude s key f = (some (.error refusal), s)) ∨
    ∃ record t, conclude s key f = (some (.ok record), t) ∧ Concludes s key produced t := by
  have heffect := conclude_effect s key f
  generalize conclude s key f = reply at heffect ⊢
  cases heffect with
  | refused refusal => exact .inl ⟨refusal, rfl⟩
  | threw hread hwrite => exact absurd hwrite (write_ne_none (hbigint (hasBigint_of_read hread)) s)
  | @recorded existing t hread hstatus hwrite =>
    exact .inr ⟨_, t, rfl, existing, _, hread, hstatus, hreadable (readable_of_read hread),
      hkey existing, hsettles existing, hwrite⟩

/-- **What finishing does**: nothing to the store, or the claim of the key is concluded with what
the run has produced, and so is the caller answered. -/
theorem finish_cases (s : Store) (key : JsString) {result : RunResult}
    (hlossless : result.lossless = true) :
    (finish s key result).2 = s ∨
    Concludes s key result.produced (finish s key result).2 ∧
      Answers result.produced (finish s key result).1 := by
  have hfail code := conclude_cases s key (f := failedWith code)
    (fun h ↦ hasBigint_assign (hasBigint_assign h _ rfl) _ rfl) (·.failedWith code)
    (key_failedWith · code) (settles_failedWith code)
  cases result with
  | ok value =>
    rcases conclude_cases s key (f := completedWith value.1)
      (fun h ↦ hasBigint_assign (hasBigint_assign h _ rfl) _
        (hasBigint_of_survives value.2 hlossless)) (·.completedWith value.2)
      (key_completedWith · _) (settles_completedWith hlossless) with
      ⟨refusal, heq⟩ | ⟨record, t, heq, hconcludes⟩
    · rw [finish, complete, heq]
      exact .inl rfl
    · rw [finish, complete, heq]
      exact .inr ⟨hconcludes, record, rfl⟩
  | err code =>
    rcases hfail code with ⟨refusal, heq⟩ | ⟨record, t, heq, hconcludes⟩
    · rw [finish, fail, heq]
      exact .inl rfl
    · rw [finish, fail, heq]
      exact .inr ⟨hconcludes, rfl⟩
  | thrown name =>
    rcases hfail (name.getD (js "unknown")) with ⟨refusal, heq⟩ | ⟨record, t, heq, hconcludes⟩
    · rw [finish, recordThrown, fail, heq]
      exact .inl rfl
    · rw [finish, recordThrown, fail, heq]
      exact .inr ⟨hconcludes, rfl⟩

/-! ### The invariant -/

/-- The call has produced and answered what the record says. -/
def Concluded (call : WrapperCall) (record : IdempotencyRecord) : Prop :=
  ∃ result answer, call.result = some result ∧ call.answer = some answer ∧
    Settles result.produced record ∧ Answers result.produced answer

/-- Every record that is not in flight was produced by its holder. -/
def Recorded (store : Store) (calls : Dict ℕ WrapperCall) (holder : JsString → Option ℕ) : Prop :=
  ∀ key caller record, holder key = some caller → read store key = some record →
    record.hasStatus .inFlight = false →
    ∃ call, calls.get caller = some call ∧ Concluded call record

/-- Every call that was answered from a record agrees with the call that holds it. -/
def Replayed (calls : Dict ℕ WrapperCall) : Prop :=
  ∀ caller call original, calls.get caller = some call → call.origin = some original →
    ∃ first answer replay, calls.get original = some first ∧ first.answer = some answer ∧
      call.answer = some replay ∧ replay.Agrees answer

/-- **The invariant.** -/
structure Faithful (system : WrapperSystem) : Prop where
  owned : Owned system.store
  recorded : Recorded system.store system.calls system.holder
  replayed : Replayed system.calls

/-- The answered calls of a system stay as they are. -/
def KeepsAnswered (calls after : Dict ℕ WrapperCall) : Prop :=
  ∀ caller call, calls.get caller = some call → call.answer ≠ none → after.get caller = some call

variable {calls : Dict ℕ WrapperCall} {caller : ℕ}

/-- Changing a call that has no answer yet keeps the answers. -/
theorem keepsAnswered_set (call : WrapperCall)
    (h : ∀ old, calls.get caller = some old → old.answer = none) :
    KeepsAnswered calls (calls.set caller call) := by
  intro other found hget hanswer
  have hne : caller ≠ other := by
    rintro rfl
    exact hanswer (h found hget)
  rw [Dict.get_set, if_neg hne]
  exact hget

/-- Records stay those of their holders while answers are kept. -/
theorem Recorded.mono {store : Store} {after : Dict ℕ WrapperCall} {holder : JsString → Option ℕ}
    (h : Recorded store calls holder) (hkeeps : KeepsAnswered calls after) :
    Recorded store after holder := by
  intro key caller record hholder hread hstatus
  obtain ⟨call, hget, hconcluded⟩ := h key caller record hholder hread hstatus
  obtain ⟨result, answer, hresult, hanswer, hrest⟩ := hconcluded
  exact ⟨call, hkeeps caller call hget (by rw [hanswer]; exact some_ne_none _),
    result, answer, hresult, hanswer, hrest⟩

/-- A call is added or moves on, without having been answered from a record. -/
theorem Replayed.set {call : WrapperCall}
    (h : Replayed calls) (hold : ∀ old, calls.get caller = some old → old.answer = none)
    (hnew : ∀ original, call.origin = some original →
      ∃ first answer replay, calls.get original = some first ∧ first.answer = some answer ∧
        call.answer = some replay ∧ replay.Agrees answer) :
    Replayed (calls.set caller call) := by
  have hkeeps := keepsAnswered_set call hold
  intro other found original hget horigin
  have hfound : ∃ first answer replay, calls.get original = some first ∧
      first.answer = some answer ∧ found.answer = some replay ∧ replay.Agrees answer := by
    obtain ⟨-, rfl⟩ | ⟨-, hget⟩ := Dict.get_set_eq_some hget
    · exact hnew original horigin
    · exact h other found original hget horigin
  obtain ⟨first, answer, replay, hfirst, hanswer, hrest⟩ := hfound
  have hanswered : first.answer ≠ none := by
    rw [hanswer]
    exact some_ne_none _
  exact ⟨first, answer, replay, hkeeps original first hfirst hanswered, hanswer, hrest⟩

/-! ### One step -/

/-- Writing a readable record keeps every record under its own key. -/
theorem owned_write {t : Store} (hs : Owned s) (hrecord : Readable record)
    (hwrite : write s record = some t) : Owned t := by
  intro key found hread
  rw [read_write hrecord hwrite] at hread
  split at hread
  · next hkey =>
    rw [← some.inj hread, key_stored hrecord, hkey]
  · exact hs key found hread

/-- So does removing one. -/
theorem owned_remove (hs : Owned s) (key : JsString) : Owned (remove s key) := by
  intro other found hread
  rw [read_remove] at hread
  split at hread
  · cases hread
  · exact hs other found hread

variable {system : WrapperSystem}

/-- A begin keeps the invariant, whatever it is answered. -/
theorem faithful_begin (h : Faithful system) (caller : ℕ) (request : BeginRequest) (now : ℤ)
    (freshId : JsString) :
    Faithful (wrapperStep options system (.begin caller request now freshId)) := by
  rw [wrapperStep]
  split
  · exact h
  next hcaller =>
  have hold : ∀ old, system.calls.get caller = some old → old.answer = none := by
    intro old hget
    rw [hcaller] at hget
    cases hget
  -- every answer but a replay: the call has no origin
  have hquiet : ∀ {store : Store} (call : WrapperCall), call.origin = none → Owned store →
      Recorded store system.calls system.holder →
      Faithful { system with store := store, calls := system.calls.set caller call } :=
    fun call horigin howned hrecorded ↦
      ⟨howned, hrecorded.mono (keepsAnswered_set call hold), h.replayed.set hold (by
        rw [horigin]
        exact nofun)⟩
  have heffect := begin_effect options system.store request now freshId
  dsimp only
  generalize begin options system.store request now freshId = begun at heffect ⊢
  cases heffect with
  | refused answer hanswer =>
    rcases answer with - | (code | outcome)
    · exact hquiet _ rfl h.owned h.recorded
    · exact hquiet _ rfl h.owned h.recorded
    · exact absurd rfl (hanswer outcome)
  | @expired key existing hkey hread =>
    refine hquiet _ rfl (owned_remove h.owned _) fun other holder record hholder hfound hstatus ↦ ?_
    rw [read_remove] at hfound
    split at hfound
    · cases hfound
    · exact h.recorded other holder record hholder hfound hstatus
  | @claimed key createdAt expiresAt correlationId t known hkey hread hwrite =>
    have hreadable := readable_claimRecord key request createdAt expiresAt correlationId
    simp only [hkey, getD_some]
    have hknown : Owned { system.store with knownKeys := known } := h.owned
    refine ⟨owned_write hknown hreadable hwrite, ?_,
      h.replayed.set hold nofun⟩
    intro other holder record hholder hfound hstatus
    rw [read_write hreadable hwrite] at hfound
    split at hfound
    · -- the new claim is in flight
      rw [← some.inj hfound, hasStatus_stored hreadable] at hstatus
      cases hstatus
    · next hne =>
      have hother : other ≠ key := fun heq ↦ hne heq.symm
      dsimp only at hholder
      rw [if_neg hother] at hholder
      exact h.recorded.mono (keepsAnswered_set _ hold) other holder record hholder hfound hstatus
  | @replayed key existing n t hkey hread hstatus hn hwrite =>
    have hreadable := (readable_of_read hread).assign_replays hn
    simp only [hkey, getD_some]
    have hrecordKey : (existing.assign (js "replays") (.num n)).key = key := by
      rw [IdempotencyRecord.key, get_assign_of_ne (by decide)]
      exact h.owned key existing hread
    have hrecorded : Recorded t system.calls system.holder := by
      intro other holder record hholder hfound hsettled
      rw [read_write hreadable hwrite, hrecordKey] at hfound
      split at hfound
      · next heq =>
        subst heq
        obtain ⟨call, hget, result, answer, hresult, hanswer, hsettles, hanswers⟩ :=
          h.recorded key holder existing hholder hread hstatus
        rw [← some.inj hfound]
        exact ⟨call, hget, result, answer, hresult, hanswer,
          (hsettles.assign_replays n).stored hreadable, hanswers⟩
      · exact h.recorded other holder record hholder hfound hsettled
    refine ⟨owned_write h.owned hreadable hwrite, hrecorded.mono (keepsAnswered_set _ hold),
      h.replayed.set hold fun original horigin ↦ ?_⟩
    obtain ⟨call, hget, result, answer, -, hanswer, hsettles, hanswers⟩ :=
      h.recorded key original existing horigin hread hstatus
    exact ⟨call, answer, _, hget, hanswer, rfl,
      agrees_of_settles (hsettles.assign_replays n) hanswers⟩

/-- A finish on one's own claim keeps the invariant. -/
theorem faithful_finish (h : Faithful system) (htimely : Timely system (.finish caller)) :
    Faithful (wrapperStep options system (.finish caller)) := by
  rw [wrapperStep]
  split
  swap
  · exact h
  next key result origin hget =>
  rw [Timely, hget, all_some, canFinish, and_eq_true, all_some] at htimely
  obtain ⟨hholder, hlossless⟩ := htimely
  have hold : ∀ old, system.calls.get caller = some old → old.answer = none := by
    intro old hold
    rw [← mem_unique hget hold]
  have hreplayed : ∀ answer, Replayed (system.calls.set caller
      ⟨key, some result, some answer, origin⟩) := fun answer ↦
    h.replayed.set hold fun original horigin ↦ by
      obtain ⟨_, _, _, _, _, hanswer, _⟩ := h.replayed caller _ original hget horigin
      cases hanswer
  rcases finish_cases system.store key hlossless with hstore | ⟨hconcludes, hanswers⟩
  · refine ⟨?_, ?_, hreplayed _⟩
    · show Owned (finish system.store key result).2
      rw [hstore]
      exact h.owned
    · show Recorded (finish system.store key result).2 _ _
      rw [hstore]
      exact h.recorded.mono (keepsAnswered_set _ hold)
  · obtain ⟨existing, record, hread, hstatus, hreadable, hkey, hsettles, hwrite⟩ := hconcludes
    have hown : system.holder key = some caller := by
      simpa [inFlightAt, hread, hstatus] using hholder
    refine ⟨owned_write h.owned hreadable hwrite, ?_, hreplayed _⟩
    intro other holder found hother hfound hdone
    rw [read_write hreadable hwrite, hkey, h.owned key existing hread] at hfound
    split at hfound
    · next heq =>
      -- the record of the claim that the call itself has made
      subst heq
      obtain rfl : caller = holder := mem_unique hown hother
      refine ⟨_, (Dict.get_set _ _ _ _).trans (if_pos rfl), result, _, rfl, rfl, ?_, hanswers⟩
      rw [← some.inj hfound]
      exact hsettles.stored hreadable
    · exact h.recorded.mono (keepsAnswered_set _ hold) other holder found hother hfound hdone

/-- **Every timely step keeps the records faithful.** -/
theorem faithful_step (system : WrapperSystem) (step : WrapperStep) (h : Faithful system)
    (htimely : Timely system step) : Faithful (wrapperStep options system step) := by
  cases step with
  | begin caller request now freshId => exact faithful_begin h caller request now freshId
  | run caller result =>
    rw [wrapperStep]
    split
    · next key origin hget =>
      have hold : ∀ old, system.calls.get caller = some old → old.answer = none := by
        intro old hold
        rw [← mem_unique hget hold]
      refine ⟨h.owned, h.recorded.mono (keepsAnswered_set _ hold),
        h.replayed.set hold fun original horigin ↦ ?_⟩
      -- a call that was answered from a record has an answer
      obtain ⟨_, _, _, _, _, hanswer, _⟩ := h.replayed caller _ original hget horigin
      cases hanswer
    · exact h
  | finish caller => exact faithful_finish h htimely

/-! ### Every record belongs to its holder -/

/-- **Claims are answered by their holders.** In every interleaving of timely calls, from a store
whose records lie under their own keys: a record that is not in flight says what the run of the call
that claimed its key has produced, and a call that was answered from a record got the value, or the
code, that the holder of that record was answered. -/
theorem answered_by_holder {options : IdempotencyOptions} {store : Store} (hstore : Owned store)
    {steps : List WrapperStep} (hsteps : Meets (wrapperStep options) Timely { store } steps) :
    (∀ key caller record,
      (run (wrapperStep options) { store } steps).holder key = some caller →
      read (run (wrapperStep options) { store } steps).store key = some record →
      record.hasStatus .inFlight = false →
      ∃ call result, (run (wrapperStep options) { store } steps).calls.get caller = some call ∧
        call.result = some result ∧ Settles result.produced record) ∧
    Replayed (run (wrapperStep options) { store } steps).calls := by
  have hinit : Faithful { store } :=
    ⟨hstore, (fun _ _ _ hholder ↦ nomatch hholder), fun _ _ _ hget ↦ nomatch hget⟩
  have h : Faithful (run (wrapperStep options) { store } steps) :=
    run_induction (fun system step hinv hok ↦ faithful_step system step hinv hok) hinit hsteps
  refine ⟨fun key caller record hholder hread hstatus ↦ ?_, h.replayed⟩
  obtain ⟨call, hget, result, answer, hresult, -, hsettles, -⟩ :=
    h.recorded key caller record hholder hread hstatus
  exact ⟨call, result, hget, hresult, hsettles⟩

/-! ### An honest replay, and two that are not -/

/-- The request of every caller below. -/
def orderRequest : BeginRequest where
  key := some (js "order-0001")
  operation := js "order.place"

/-- A value that is a text. -/
def textResult (text : String) : RunResult := .ok ⟨.str (js text), trivial⟩

/-- The system after some steps on an empty store. -/
def wrapperAfter (steps : List WrapperStep) : WrapperSystem :=
  run (wrapperStep {}) { store := {} } steps

def answeredValue (system : WrapperSystem) (caller : ℕ) : Option JsValue :=
  ((system.calls.get caller).bind WrapperCall.answer).bind fun
    | .ok outcome => some outcome.value
    | _ => none

/-- One caller places the order, and a second one asks again. -/
def placedOnce : List WrapperStep :=
  [.begin 1 orderRequest 0 (js "c1"), .run 1 (textResult "placed"), .finish 1,
    .begin 2 orderRequest 1000 (js "c2")]

/-- The second caller is answered what the first one was. -/
theorem answered_by_holder_placedOnce :
    answeredValue (wrapperAfter placedOnce) 2 = some (.str (js "placed")) ∧
    Replayed (wrapperAfter placedOnce).calls := by
  refine ⟨by decide +kernel, ?_⟩
  have howned : Owned {} := fun key record hread ↦ nomatch hread
  refine (answered_by_holder howned ?_).2
  exact ⟨trivial, trivial, by unfold Timely; decide +kernel, trivial, trivial⟩

/-- The claim of the first caller expires, the second one is told so, the third claims the key
again, and then the first one finishes. -/
def finishedLate : List WrapperStep :=
  [.begin 1 orderRequest 0 (js "c1"), .begin 2 orderRequest idempotencyDefaultTtlMs (js "c2"),
    .begin 3 orderRequest idempotencyDefaultTtlMs (js "c3"), .run 1 (textResult "first"), .finish 1]

/-- A caller whose run returns a password, and a second one that asks again. -/
def secretValue : List WrapperStep :=
  [.begin 1 orderRequest 0 (js "c1"),
    .run 1 (.ok ⟨.obj [(js "password", .str (js "hunter2"))],
      wellFormed_obj.2 ⟨List.nodup_singleton _, List.forall_mem_singleton.2 trivial⟩⟩),
    .finish 1, .begin 2 orderRequest 1000 (js "c2")]

/-- **A claim answered by another call**: the third caller holds the claim and its run has not even
settled, yet the record of the claim has the value of the first. **And a replay of another value**:
the second caller is not answered what the first one was. -/
theorem answered_by_another :
    ((wrapperAfter finishedLate).holder (js "order-0001") = some 3 ∧
      (read (wrapperAfter finishedLate).store (js "order-0001")).map IdempotencyRecord.response =
        some (.str (js "first")) ∧
      (((wrapperAfter finishedLate).calls.get 3).map fun call ↦ call.result.isNone) = some true) ∧
    answeredValue (wrapperAfter secretValue) 1 =
      some (.obj [(js "password", .str (js "hunter2"))]) ∧
    answeredValue (wrapperAfter secretValue) 2 =
      some (.obj [(js "password", .str (js "[REDACTED]"))]) := by
  decide +kernel

end Utix.Idempotency

import Mathlib.Data.Int.ConditionallyCompleteOrder
import Utix.Idempotency.Store
import Utix.Js.Encoding
import Utix.Lib.Run

/-!
# The webhook verifier

A message is checked for its structure, its signed timestamp against the clock, its nonce against
the nonces that were used, and its digest; then the nonce is recorded. A record is dropped once it
is older than the replay window. What dates a record is `message.timestamp`, which nobody signed,
while the checks read `message.signature.timestamp`.

`no_replay_run` is what the verifier guarantees about the messages it was given: if no message is
dated before its own signature, no two of those it accepts carry the same nonce and the same signed
timestamp. `replayed_backdated` is a message that is dated before its signature, accepted twice.
-/

namespace Utix.Webhooks

open Js Lib Decimal List Dict

/-! ### Messages -/

/-- The algorithms of `SUPPORTED_ALGORITHMS`. -/
inductive Algorithm
  | sha256
  | sha512
deriving DecidableEq

def Algorithm.text : Algorithm → JsString
  | .sha256 => js "sha256"
  | .sha512 => js "sha512"

def Algorithm.ofText (text : JsString) : Option Algorithm :=
  if text = js "sha256" then some .sha256 else if text = js "sha512" then some .sha512 else none

def maxWebhookDataLength : ℕ := 256 * 1024

def maxWebhookNonceLength : ℕ := 128

/-- The parts of a message that its signature is about. -/
structure Signed where
  algorithm : Algorithm
  timestamp : Decimal
  nonce : JsString
  digest : JsString
  data : JsValue
deriving DecidableEq

/-- `JSON.stringify(data)`, as a template literal shows it. -/
def payloadString (data : JsValue) : JsString :=
  if data.isOmitted then js "undefined" else stringify data

/-- The data can be serialised, and its text is not too long. -/
def checkData (data : JsValue) : Except JsString Unit :=
  if data = .undefined then .error (js "missing data")
  else if Idempotency.hasBigint data then .error (js "data is not serializable")
  else if data.isOmitted = false ∧ maxWebhookDataLength < (stringify data).length then
    .error (js "data too large")
  else .ok ()

/-- The checks of `malformedReason` on `message.signature`. -/
def checkSignature (signature data : JsValue) : Except JsString Signed :=
  match Algorithm.ofText (signature.get (js "algorithm")).asStr with
  | none => .error (js "unsupported algorithm")
  | some algorithm =>
    match signature.get (js "timestamp") with
    | .num (.finite timestamp) =>
      match signature.get (js "nonce") with
      | .str nonce =>
        if nonce = [] then .error (js "missing nonce")
        else if maxWebhookNonceLength < nonce.length then .error (js "nonce too long")
        else
          match signature.get (js "signature") with
          | .str digest =>
            if digest = [] then .error (js "missing signature digest")
            else (checkData data).map fun _ ↦ { algorithm, timestamp, nonce, digest, data }
          | _ => .error (js "missing signature digest")
      | _ => .error (js "missing nonce")
    | _ => .error (js "invalid timestamp")

/-- `malformedReason(message)`, or the parts that it has read. -/
def malformedReason (message : JsValue) : Except JsString Signed :=
  if message.isObject = false then .error (js "message must be an object")
  else if (message.get (js "signature")).isObject = false then .error (js "missing signature")
  else checkSignature (message.get (js "signature")) (message.get (js "data"))

/-! ### The verifier -/

/-- `WebhookVerificationConfig`, and what the verifier takes from outside. -/
structure Config where
  replayWindowSeconds : Option JsNum := some (JsNum.ofInt 300)
  maxClockSkew : Option JsNum := some (JsNum.ofInt 60)
  nonceDeduplication : Bool := true
  /-- The HMAC of a well-formed text, by algorithm and secret. -/
  hmac : Algorithm → JsString → JsString → JsString
  /-- `Math.floor(Date.now() / 1000)`, reading by reading. -/
  clock : ℕ → ℤ

/-- `value || fallback` -/
def orElse (value : Option JsNum) (fallback : ℤ) : JsNum :=
  match value with
  | some n => if JsValue.truthy (.num n) then n else JsNum.ofInt fallback
  | none => JsNum.ofInt fallback

/-- `this.config.replayWindowSeconds || 300` -/
def Config.window (config : Config) : JsNum := orElse config.replayWindowSeconds 300

/-- `this.config.maxClockSkew || 60` -/
def Config.skew (config : Config) : JsNum := orElse config.maxClockSkew 60

/-- `ReplayProtectionRecord`; its `nonce` is its key, and `verified` is always true. -/
structure ReplayRecord where
  timestamp : JsValue
  eventId : JsValue
deriving DecidableEq

/-- The variables of a verifier that are about replays, and the readings of the clock so far. -/
structure Verifier where
  replayRecords : Dict JsString ReplayRecord := .empty
  ticks : ℕ := 0

/-- `Math.abs(x)` -/
def absolute (x : JsNum) : JsNum := if x.less (JsNum.ofInt 0) then x.neg else x

/-- `Math.abs(now - signature.timestamp)` -/
def timeDiff (now : ℤ) (timestamp : Decimal) : JsNum :=
  absolute ((JsNum.ofInt now).sub (.finite timestamp))

/-- The string that is signed. -/
def signingString (timestamp : Decimal) (nonce : JsString) (data : JsValue) : JsString :=
  timestamp.text ++ 46 :: (nonce ++ 46 :: payloadString data)

/-- The keys that a loop over the records deletes, and whether a comparison threw. -/
def outdated (cutoff : JsNum) : List (JsString × ReplayRecord) → List JsString × Bool
  | [] => ([], false)
  | (key, record) :: records =>
    match JsValue.less record.timestamp (.num cutoff) with
    | none => ([], true)
    | some true => (key :: (outdated cutoff records).1, (outdated cutoff records).2)
    | some false => outdated cutoff records

/-- A loop over the records; `none` if a comparison threw. -/
def dropOutdated (cutoff : JsNum) (records : Dict JsString ReplayRecord) :
    Option ℕ × Dict JsString ReplayRecord :=
  let removed := outdated cutoff records.entries
  (if removed.2 then none else some removed.1.length,
    records.filterKeys fun key ↦ decide (key ∉ removed.1))

section

variable (config : Config)

/-- `generateSignature(payload, secret, algorithm)`, which reads the text as UTF-8. -/
def generateSignature (payload secret : JsString) (algorithm : Algorithm) : JsString :=
  config.hmac algorithm secret (toWellFormed payload)

section

variable (s : Verifier)

def recordNonce (nonce : JsString) (timestamp eventId : JsValue) : Option ℕ × Verifier :=
  let records := s.replayRecords.set nonce { timestamp, eventId }
  let cutoff := (JsNum.ofInt (config.clock s.ticks)).sub config.window
  let (removed, records) := dropOutdated cutoff records
  (removed, { replayRecords := records, ticks := s.ticks + 1 })

/-- `verifySignature(message, secret)` of a message with these parts, at its first reading of the
clock; `none` if a comparison threw. -/
def verifySigned (now : ℤ) (message : JsValue) (signed : Signed) (secret : JsString) :
    Option (Except JsString Unit) × Verifier :=
  if config.skew.less (timeDiff now signed.timestamp) then
    (some (.error (js "Timestamp outside acceptable skew window")), s)
  else if config.window.less (timeDiff now signed.timestamp) then
    (some (.error (js "Message timestamp outside replay window")), s)
  else if config.nonceDeduplication ∧ (s.replayRecords.get signed.nonce).isSome then
    (some (.error (js "Replay attack detected: nonce already used")), s)
  else if signed.digest ≠ generateSignature config
      (signingString signed.timestamp signed.nonce signed.data) secret signed.algorithm then
    (some (.error (js "Signature verification failed")), s)
  else if config.nonceDeduplication then
    match recordNonce config s signed.nonce (message.get (js "timestamp"))
        (message.get (js "id")) with
    | (none, s) => (none, s)
    | (some _, s) => (some (.ok ()), s)
  else (some (.ok ()), s)

def verifySignature (message : JsValue) (secret : JsString) :
    Option (Except JsString Unit) × Verifier :=
  match malformedReason message with
  | .error reason => (some (.error (js "Malformed webhook message: " ++ reason)), s)
  | .ok signed =>
    verifySigned config { s with ticks := s.ticks + 1 } (config.clock s.ticks) message signed secret

def cleanupOldRecords (olderThanSeconds : JsNum) : Option ℕ × Verifier :=
  let cutoff := (JsNum.ofInt (config.clock s.ticks)).sub olderThanSeconds
  let (removed, records) := dropOutdated cutoff s.replayRecords
  (removed, { replayRecords := records, ticks := s.ticks + 1 })

end

/-! ### Runs -/

inductive VerifierCall
  | verify (message : JsValue) (secret : JsString)
  | cleanup (olderThanSeconds : JsNum)

/-- A verifier, and the messages that were found valid. -/
structure Log where
  accepted : List Signed := []
  verifier : Verifier := {}

/-- The message, if it was found valid. -/
def validMessage (message : JsValue) : Option (Except JsString Unit) → List Signed
  | some (.ok ()) => (malformedReason message).toOption.toList
  | _ => []

def logStep (r : Log) : VerifierCall → Log
  | .verify message secret =>
    { accepted := r.accepted ++
        validMessage message (verifySignature config r.verifier message secret).1
      verifier := (verifySignature config r.verifier message secret).2 }
  | .cleanup olderThanSeconds =>
    { r with verifier := (cleanupOldRecords config r.verifier olderThanSeconds).2 }

end

/-- No two of the messages carry the same nonce and the same signed timestamp. -/
def NoReplay (accepted : List Signed) : Prop :=
  accepted.Pairwise fun a b ↦ ¬(a.nonce = b.nonce ∧ a.timestamp = b.timestamp)

/-- A message is not dated before its signature, and a cleanup keeps what is in the window. -/
def InWindow (config : Config) : VerifierCall → Prop
  | .verify message _ => ∀ signed, malformedReason message = .ok signed →
    JsValue.less (message.get (js "timestamp")) (.num (.finite signed.timestamp)) ≠ some true
  | .cleanup olderThanSeconds => olderThanSeconds.less config.window = false

/-! ### Times -/

variable {config : Config}

theorem orElse_ne_nan (value : Option JsNum) (fallback : ℤ) : orElse value fallback ≠ .nan := by
  cases value with
  | none => exact nofun
  | some n =>
    simp only [orElse]
    split
    next htruthy =>
      rintro rfl
      cases htruthy
    next => exact nofun

/-- The signed timestamp is before the cutoff, and so too old for the window. -/
def Expired (config : Config) (now : ℤ) (signed : Signed) : Prop :=
  ∀ later, now ≤ later → config.window.less (timeDiff later signed.timestamp) = true

theorem value_neg (d : Decimal) :
    (normalise (-d.mantissa) d.exponent).value = -d.value := by
  rw [value_normalise, value]
  push_cast
  ring

/-- The distance of the clock from a timestamp. -/
theorem timeDiff_eq (now : ℤ) (timestamp : Decimal) :
    ∃ d : Decimal, timeDiff now timestamp = .finite d ∧
      d.value = |(now : ℚ) - timestamp.value| := by
  have hsub : (JsNum.ofInt now).sub (.finite timestamp) =
      .finite ((ofInt now).add (normalise (-timestamp.mantissa) timestamp.exponent)) := rfl
  have hvalue : ((ofInt now).add
      (normalise (-timestamp.mantissa) timestamp.exponent)).value = now - timestamp.value := by
    rw [value_add, value_ofInt, value_neg]
    ring
  rw [timeDiff, hsub, absolute]
  split
  next hless =>
    rw [JsNum.ofInt, JsNum.less, less_eq, decide_eq_true_eq, hvalue, value_ofInt] at hless
    refine ⟨_, rfl, ?_⟩
    rw [value_neg, hvalue, abs_of_neg (by exact_mod_cast hless)]
  next hless =>
    rw [JsNum.ofInt, JsNum.less, less_eq, decide_eq_true_eq, hvalue, value_ofInt] at hless
    refine ⟨_, rfl, ?_⟩
    rw [hvalue, abs_of_nonneg (by exact_mod_cast not_lt.1 hless)]

variable {older : JsNum} {now : ℤ} {signed : Signed}

/-- **What is before the cutoff of a cleanup has left the window.** -/
theorem expired_of_cutoff {x : JsNum} (holder : older.less config.window = false)
    (hcutoff : x.less ((JsNum.ofInt now).sub older) = true)
    (hdated : x.less (.finite signed.timestamp) = false) : Expired config now signed := by
  intro later hlater
  obtain ⟨d, hd, hvalue⟩ := timeDiff_eq later signed.timestamp
  have hwindow : config.window ≠ .nan := orElse_ne_nan _ _
  rw [hd]
  generalize config.window = w at *
  -- an infinite window either keeps every record or accepts no message
  cases older with
  | nan => cases x <;> exact absurd hcutoff (by simp [JsNum.sub, JsNum.neg, JsNum.add, JsNum.less,
      JsNum.ofInt])
  | infinite negative =>
    cases negative with
    | false => cases x <;> exact absurd hcutoff (by simp [JsNum.sub, JsNum.neg, JsNum.add,
        JsNum.less, JsNum.ofInt])
    | true =>
      cases w with
      | nan => exact absurd rfl hwindow
      | infinite p => simpa [JsNum.less] using holder
      | finite w => simp [JsNum.less] at holder
  | finite o =>
    have hsub : (JsNum.ofInt now).sub (.finite o) =
        .finite ((ofInt now).add (normalise (-o.mantissa) o.exponent)) := rfl
    rw [hsub] at hcutoff
    cases x with
    | nan => cases hcutoff
    | infinite p =>
      rw [JsNum.less] at hcutoff hdated
      rw [hcutoff] at hdated
      cases hdated
    | finite a =>
      rw [JsNum.less, less_eq, decide_eq_true_eq, value_add, value_ofInt, value_neg] at hcutoff
      rw [JsNum.less, less_eq, decide_eq_false_iff_not, not_lt] at hdated
      cases w with
      | nan => exact absurd rfl hwindow
      | infinite p => simpa [JsNum.less] using holder
      | finite w =>
        rw [JsNum.less, less_eq, decide_eq_false_iff_not, not_lt] at holder
        rw [JsNum.less, less_eq, decide_eq_true_eq, hvalue]
        have hlater : (now : ℚ) ≤ later := by exact_mod_cast hlater
        exact lt_of_lt_of_le (by linarith) (le_abs_self _)

/-! ### Records -/

/-- Against a number, whatever a record carries is compared as a number. -/
theorem less_num (v : JsValue) (n : JsNum) :
    JsValue.less v (.num n) = (JsValue.toPrimitive v).map fun p ↦ (JsValue.toNumber p).less n := by
  rw [JsValue.less]
  cases JsValue.toPrimitive v with
  | none => rfl
  | some p => cases p <;> rfl

/-- The record stays at least as long as its message could be accepted. -/
def Guards (record : ReplayRecord) (signed : Signed) : Prop :=
  JsValue.less record.timestamp (.num (.finite signed.timestamp)) ≠ some true

variable {record : ReplayRecord}

/-- A record is dropped only when its message has left the window. -/
theorem expired_of_guards (h : Guards record signed) (holder : older.less config.window = false)
    (hcutoff : JsValue.less record.timestamp (.num ((JsNum.ofInt now).sub older)) = some true) :
    Expired config now signed := by
  rw [Guards, less_num] at h
  rw [less_num] at hcutoff
  obtain ⟨p, hprimitive, hcutoff⟩ := Option.map_eq_some_iff.1 hcutoff
  rw [hprimitive, Option.map_some] at h
  refine expired_of_cutoff holder hcutoff (Bool.eq_false_iff.2 fun hless ↦ h ?_)
  rw [hless]

theorem mem_outdated {cutoff : JsNum} {records : List (JsString × ReplayRecord)} {key : JsString}
    (h : key ∈ (outdated cutoff records).1) :
    ∃ record, (key, record) ∈ records ∧
      JsValue.less record.timestamp (.num cutoff) = some true := by
  induction records with
  | nil => cases h
  | cons entry records ih =>
    obtain ⟨first, record⟩ := entry
    rw [outdated] at h
    split at h
    · cases h
    next hless =>
      rcases mem_cons.1 h with rfl | h
      · exact ⟨record, mem_cons_self, hless⟩
      · obtain ⟨found, hmem, hfound⟩ := ih h
        exact ⟨found, mem_cons_of_mem _ hmem, hfound⟩
    next hless =>
      obtain ⟨found, hmem, hfound⟩ := ih h
      exact ⟨found, mem_cons_of_mem _ hmem, hfound⟩

variable {records : Dict JsString ReplayRecord}

/-- A loop over the records keeps a record, or its timestamp is before the cutoff. -/
theorem get_dropOutdated {cutoff : JsNum} {key : JsString} (h : records.get key = some record) :
    (dropOutdated cutoff records).2.get key = some record ∨
      JsValue.less record.timestamp (.num cutoff) = some true := by
  simp only [dropOutdated, get_filterKeys]
  split
  next => exact .inl h
  next hkey =>
    have hmem : key ∈ (outdated cutoff records.entries).1 := by simpa using hkey
    obtain ⟨found, hfound, hless⟩ := mem_outdated hmem
    rw [mem_entries_iff, h] at hfound
    rw [Option.some.inj hfound]
    exact .inr hless

/-! ### The invariant -/

/-- A message that was accepted is on record, or has left the window. -/
def Covered (config : Config) (records : Dict JsString ReplayRecord) (now : ℤ) (signed : Signed) :
    Prop :=
  Expired config now signed ∨ ∃ record, records.get signed.nonce = some record ∧
    Guards record signed

/-- A message that has left the window does not come back. -/
theorem Expired.mono {later : ℤ} (h : Expired config now signed) (hle : now ≤ later) :
    Expired config later signed :=
  fun last hlast ↦ h last (hle.trans hlast)

theorem Covered.mono {later : ℤ} (h : Covered config records now signed) (hle : now ≤ later) :
    Covered config records later signed :=
  h.imp_left fun hexpired ↦ hexpired.mono hle

/-- Dropping old records leaves every accepted message covered. -/
theorem Covered.dropOutdated (h : Covered config records now signed)
    (holder : older.less config.window = false) :
    Covered config (Webhooks.dropOutdated ((JsNum.ofInt now).sub older) records).2 now signed := by
  rcases h with hexpired | ⟨record, hrecord, hguards⟩
  · exact .inl hexpired
  · rcases get_dropOutdated hrecord with hkept | hless
    · exact .inr ⟨record, hkept, hguards⟩
    · exact .inl (expired_of_guards hguards holder hless)

/-- **What holds after every call.** -/
structure Guarded (config : Config) (r : Log) : Prop where
  noReplay : NoReplay r.accepted
  covered : ∀ signed ∈ r.accepted,
    Covered config r.verifier.replayRecords (config.clock r.verifier.ticks) signed

/-- **What a message passes before its nonce is recorded.** -/
theorem verifySigned_cases (hdedup : config.nonceDeduplication = true) (s : Verifier) (now : ℤ)
    (message : JsValue) (signed : Signed) (secret : JsString) :
    (verifySigned config s now message signed secret).1 ≠ some (.ok ()) ∧
        (verifySigned config s now message signed secret).2 = s ∨
      config.window.less (timeDiff now signed.timestamp) = false ∧
        s.replayRecords.get signed.nonce = none ∧
        (verifySigned config s now message signed secret).2 =
          (recordNonce config s signed.nonce (message.get (js "timestamp"))
            (message.get (js "id"))).2 := by
  rw [verifySigned]
  split
  · exact .inl ⟨by simp, rfl⟩
  split
  · exact .inl ⟨by simp, rfl⟩
  next hwindow =>
  split
  · exact .inl ⟨by simp, rfl⟩
  next hused =>
  split
  · exact .inl ⟨by simp, rfl⟩
  rw [hdedup] at hused
  refine .inr ⟨Bool.eq_false_iff.2 hwindow, by simpa using hused, ?_⟩
  split
  next heq => rw [heq]
  next heq => rw [heq]

theorem less_self (x : JsNum) : x.less x = false := by
  cases x with
  | nan => rfl
  | infinite p => cases p <;> rfl
  | finite d =>
    rw [JsNum.less, less_eq, decide_eq_false_iff_not]
    exact lt_irrefl _

/-- Recording a nonce that is not in use keeps what was covered covered. -/
theorem Covered.recordNonce {s : Verifier} {nonce : JsString} {timestamp eventId : JsValue}
    (h : Covered config s.replayRecords now signed) (hnow : now ≤ config.clock s.ticks)
    (hunused : s.replayRecords.get nonce = none) :
    Covered config (Webhooks.recordNonce config s nonce timestamp eventId).2.replayRecords
      (config.clock s.ticks) signed := by
  have hset : Covered config (s.replayRecords.set nonce { timestamp, eventId })
      (config.clock s.ticks) signed := by
    rcases h.mono hnow with hexpired | ⟨record, hrecord, hguards⟩
    · exact .inl hexpired
    refine .inr ⟨record, ?_, hguards⟩
    rw [get_set, if_neg]
    · exact hrecord
    · rintro rfl
      rw [hunused] at hrecord
      cases hrecord
  exact hset.dropOutdated (less_self _)

/-- Recording a nonce covers its message. -/
theorem covered_recordNonce {s : Verifier} {timestamp eventId : JsValue}
    (hdated : JsValue.less timestamp (.num (.finite signed.timestamp)) ≠ some true) :
    Covered config (recordNonce config s signed.nonce timestamp eventId).2.replayRecords
      (config.clock s.ticks) signed := by
  have hset : Covered config (s.replayRecords.set signed.nonce { timestamp, eventId })
      (config.clock s.ticks) signed :=
    .inr ⟨{ timestamp, eventId }, by rw [get_set, if_pos rfl], hdated⟩
  exact hset.dropOutdated (less_self _)

/-- A message is logged exactly if it was answered as valid. -/
theorem validMessage_cases {message : JsValue} (hreason : malformedReason message = .ok signed)
    (answer : Option (Except JsString Unit)) :
    validMessage message answer = [] ∧ answer ≠ some (.ok ()) ∨
      validMessage message answer = [signed] ∧ answer = some (.ok ()) := by
  rw [validMessage.eq_def]
  split
  · rw [hreason]
    exact .inr ⟨rfl, rfl⟩
  next hnot => exact .inl ⟨rfl, hnot⟩

/-- The step: what a call accepts was on no record, and is on one afterwards. -/
theorem Guarded.step (hclock : Monotone config.clock) (hdedup : config.nonceDeduplication = true)
    {r : Log} (h : Guarded config r) {call : VerifierCall} (hcall : InWindow config call) :
    Guarded config (logStep config r call) := by
  have htick : ∀ n, config.clock n ≤ config.clock (n + 1) := fun n ↦ hclock (Nat.le_succ n)
  cases call with
  | cleanup older =>
    refine ⟨h.noReplay, fun signed hsigned ↦ ?_⟩
    exact ((h.covered signed hsigned).dropOutdated hcall).mono (htick _)
  | verify message secret =>
    rw [logStep, verifySignature]
    cases hreason : malformedReason message with
    | error reason =>
      refine ⟨?_, ?_⟩
      · simpa [validMessage] using h.noReplay
      · simpa [validMessage] using h.covered
    | ok signed =>
      simp only
      have hvalid := validMessage_cases hreason
        (verifySigned config { r.verifier with ticks := r.verifier.ticks + 1 }
          (config.clock r.verifier.ticks) message signed secret).1
      rcases verifySigned_cases hdedup { r.verifier with ticks := r.verifier.ticks + 1 }
        (config.clock r.verifier.ticks) message signed secret with
        ⟨hnot, hsame⟩ | ⟨hwindow, hunused, hrecord⟩
      · obtain ⟨hnone, -⟩ | ⟨-, hok⟩ := hvalid
        · rw [hnone, hsame, append_nil]
          exact ⟨h.noReplay, fun a ha ↦ (h.covered a ha).mono (htick _)⟩
        · exact absurd hok hnot
      · rw [hrecord]
        have hkept : ∀ a ∈ r.accepted, Covered config (recordNonce config
            { r.verifier with ticks := r.verifier.ticks + 1 } signed.nonce
            (message.get (js "timestamp")) (message.get (js "id"))).2.replayRecords
            (config.clock (r.verifier.ticks + 2)) a := fun a ha ↦
          ((h.covered a ha).recordNonce (s := { r.verifier with ticks := r.verifier.ticks + 1 })
            (htick _) hunused).mono (htick _)
        obtain ⟨hnone, -⟩ | ⟨hsome, -⟩ := hvalid
        · rw [hnone, append_nil]
          exact ⟨h.noReplay, hkept⟩
        rw [hsome]
        refine ⟨pairwise_append.2 ⟨h.noReplay, pairwise_singleton _ _, ?_⟩, ?_⟩
        · intro a ha b hb
          rw [mem_singleton.1 hb]
          rintro ⟨hnonce, htimestamp⟩
          rcases (h.covered a ha) with hexpired | ⟨record, hrecord, -⟩
          · rw [← htimestamp, hexpired (config.clock r.verifier.ticks) le_rfl] at hwindow
            cases hwindow
          · rw [hnonce, hunused] at hrecord
            cases hrecord
        · intro a ha
          rcases mem_append.1 ha with ha | ha
          · exact hkept a ha
          · rw [mem_singleton.1 ha]
            exact (covered_recordNonce (hcall signed hreason)).mono (htick _)

/-- **No message is accepted twice**, in every run with a clock that does not go back, if no message
is dated before its own signature and no cleanup reaches into the replay window. -/
theorem no_replay_run (config : Config) (hclock : Monotone config.clock)
    (hdedup : config.nonceDeduplication = true) (calls : List VerifierCall)
    (hcalls : ∀ call ∈ calls, InWindow config call) :
    NoReplay (Lib.run (logStep config) {} calls).accepted := by
  have hempty : Guarded config {} := ⟨List.Pairwise.nil, nofun⟩
  have hrun : Guarded config (Lib.run (logStep config) {} calls) :=
    Lib.run_induction (fun _ _ h hcall ↦ h.step hclock hdedup hcall) hempty
      (Lib.meets_of_forall_mem hcalls)
  exact hrun.noReplay

/-! ### A message that is dated before its signature -/

/-- A verifier with its default settings, some time after the epoch. The HMAC is the text itself. -/
def plainVerifier : Config where
  hmac _ _ text := text
  clock n := 1000 + n

/-- A message signed at the second 1000 and dated `timestamp`. -/
def datedMessage (timestamp : ℤ) : JsValue :=
  .obj [(js "id", .str (js "webhook-1")), (js "timestamp", .num (JsNum.ofInt timestamp)),
    (js "data", .null),
    (js "signature", .obj [(js "algorithm", .str (js "sha256")),
      (js "timestamp", .num (JsNum.ofInt 1000)), (js "nonce", .str (js "n1")),
      (js "signature", .str (js "1000.n1.null"))])]

/-- The message is presented twice, with a cleanup in between. -/
def presentTwice (timestamp : ℤ) : List VerifierCall :=
  [.verify (datedMessage timestamp) [], .cleanup (JsNum.ofInt 300),
    .verify (datedMessage timestamp) []]

theorem no_replay_presentTwice :
    ((Lib.run (logStep plainVerifier) {} (presentTwice 1000)).accepted.length = 1) ∧
      NoReplay (Lib.run (logStep plainVerifier) {} (presentTwice 1000)).accepted := by
  have hmessage : ∀ signed, malformedReason (datedMessage 1000) = .ok signed →
      JsValue.less ((datedMessage 1000).get (js "timestamp"))
        (.num (.finite signed.timestamp)) ≠ some true := by
    intro signed hsigned
    have hparts : (malformedReason (datedMessage 1000)).toOption =
        some ⟨.sha256, ofInt 1000, js "n1", js "1000.n1.null", .null⟩ := by decide +kernel
    rw [hsigned] at hparts
    rw [Option.some.inj hparts]
    decide +kernel
  refine ⟨by decide +kernel, no_replay_run plainVerifier ?_ rfl _ ?_⟩
  · intro m n h
    simpa [plainVerifier] using h
  intro call hcall
  simp only [presentTwice, mem_cons, not_mem_nil, or_false] at hcall
  rcases hcall with rfl | rfl | rfl
  · exact hmessage
  · exact less_self _
  · exact hmessage

/-- **The record of a message that is dated before the window is dropped at once**, and the message
is accepted again. -/
theorem replayed_backdated :
    ¬NoReplay (Lib.run (logStep plainVerifier) {} (presentTwice 0)).accepted := by
  have haccepted : (Lib.run (logStep plainVerifier) {} (presentTwice 0)).accepted =
      replicate 2 ⟨.sha256, ofInt 1000, js "n1", js "1000.n1.null", .null⟩ := by
    decide +kernel
  rw [haccepted]
  exact fun h ↦ rel_of_pairwise_cons h mem_cons_self ⟨rfl, rfl⟩

end Utix.Webhooks

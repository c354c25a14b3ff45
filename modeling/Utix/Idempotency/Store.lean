import Utix.Lib.Dict
import Utix.Telemetry.Redact

/-!
# The idempotency store

`createIdempotencyStore` of `core/idempotency/idempotency.ts`. A caller *begins* a write under a
key; the first attempt claims the key, later ones are answered from the record of its outcome.

The records are JSON texts in an injected storage, one under each key, and every call reads the text
again. So a record here is whatever object the text denotes, as long as it passes `isRecord`: it may
hold fields the store never wrote, and a rewrite keeps them. The response of a record goes through
`redact` before it is stored.

An answer `none` is an exception: a clock reading that no `Date` holds, or a response with a bigint,
which has no JSON text.
-/

namespace Utix.Idempotency

open Js Telemetry Lib

/-! ### Digests of requests -/

mutual

/-- `canonicalize(value)`. The digits of a bigint are not part of a value here. -/
def canonicalize : JsValue → JsString
  | .foreign .bigint => js "n"
  | .arr xs => 91 :: (List.intercalate [44] (canonicalizeElems xs) ++ [93])
  | .obj fs =>
    123 :: (List.intercalate [44]
      ((sortKeys (canonicalizeFields fs)).map fun p ↦ quote p.1 ++ 58 :: p.2) ++ [125])
  | .undefined => js "null"
  | .null => js "null"
  | .bool b => stringify (.bool b)
  | .num n => stringify (.num n)
  | .str s => stringify (.str s)
  | .foreign _ => js "null"

/-- The texts of the elements. -/
def canonicalizeElems : List JsValue → List JsString
  | [] => []
  | x :: xs => canonicalize x :: canonicalizeElems xs

/-- The keys whose value is not `undefined`, with the texts of their values. -/
def canonicalizeFields : Fields → List (JsString × JsString)
  | [] => []
  | (k, x) :: fs =>
    if x = .undefined then canonicalizeFields fs else (k, canonicalize x) :: canonicalizeFields fs

end

/-- The loop of `requestDigest`: FNV-1a on 32 bits. -/
def fnv (source : JsString) : UInt32 :=
  source.foldl (fun hash c ↦ (hash ^^^ c.toUInt32) * 16777619) 2166136261

/-- `hash.toString(16).padStart(8, "0")` -/
def hexWord (hash : UInt32) : JsString :=
  (List.range 8).map fun i ↦ hexDigit (hash.toNat / 16 ^ (7 - i) % 16)

def requestDigest (request : JsValue) : JsString :=
  js "req-" ++ hexWord (fnv (canonicalize request))

/-! ### Records -/

inductive IdempotencyErrorCode
  | idempotencyKeyMissing
  | idempotencyKeyInvalid
  | idempotencyKeyExpired
  | idempotencyKeyConflict
  | idempotencyInFlight
  | idempotencyNotFound
  deriving DecidableEq

def IdempotencyErrorCode.text : IdempotencyErrorCode → JsString
  | .idempotencyKeyMissing => js "idempotency_key_missing"
  | .idempotencyKeyInvalid => js "idempotency_key_invalid"
  | .idempotencyKeyExpired => js "idempotency_key_expired"
  | .idempotencyKeyConflict => js "idempotency_key_conflict"
  | .idempotencyInFlight => js "idempotency_in_flight"
  | .idempotencyNotFound => js "idempotency_not_found"

inductive IdempotencyStatus
  | inFlight
  | completed
  | failed
  deriving DecidableEq

def IdempotencyStatus.text : IdempotencyStatus → JsString
  | .inFlight => js "in_flight"
  | .completed => js "completed"
  | .failed => js "failed"

/-- `IdempotencyRecord`: the fields of the object. -/
structure IdempotencyRecord where
  fields : Fields
  deriving DecidableEq

namespace IdempotencyRecord

section

variable (record : IdempotencyRecord)

def key : JsString := (record.fields.get (js "key")).asStr

def operation : JsString := (record.fields.get (js "operation")).asStr

def requestHash : JsString :=
  (record.fields.get (js "requestHash")).asStr

/-- `record.status === status` -/
def hasStatus (status : IdempotencyStatus) : Bool :=
  record.fields.get (js "status") = .str status.text

def expiresAt : JsString := (record.fields.get (js "expiresAt")).asStr

def replays : JsNum := (record.fields.get (js "replays")).asNum

def response : JsValue := record.fields.get (js "response")

/-- `{ ...record, [name]: value }` -/
def assign (name : JsString) (value : JsValue) : IdempotencyRecord :=
  ⟨record.fields.set name value⟩

end

end IdempotencyRecord

/-- `typeof value === "number"` -/
def isNumber : JsValue → Bool
  | .num _ => true
  | _ => false

/-- The checks of `isRecord` on the fields of an object. -/
def hasRecordShape (fs : Fields) : Bool :=
  (Fields.get fs (js "key")).isString && (Fields.get fs (js "operation")).isString &&
    (Fields.get fs (js "requestHash")).isString &&
    [IdempotencyStatus.inFlight, .completed, .failed].any
      (fun status ↦ Fields.get fs (js "status") = .str status.text) &&
    (Fields.get fs (js "createdAt")).isString && (Fields.get fs (js "expiresAt")).isString &&
    isNumber (Fields.get fs (js "replays")) && (Fields.get fs (js "correlationId")).isString

/-- `isRecord(value)`, with the record. -/
def asRecord : JsValue → Option IdempotencyRecord
  | .obj fs => if hasRecordShape fs then some ⟨fs⟩ else none
  | _ => none

/-! ### The store -/

def idempotencyStoragePrefix : JsString := js "utix:idempotency:v1:"

def idempotencyDefaultTtlMs : ℤ := 24 * 60 * 60 * 1000

/-- `isValidIdempotencyKey(key)`: `/^[A-Za-z0-9._:-]{8,128}$/` -/
def isValidIdempotencyKey (key : JsString) : Bool :=
  8 ≤ key.length && key.length ≤ 128 && key.all fun c ↦
    isAlnum c || c == 46 || c == 95 || c == 58 || c == 45

/-- `IdempotencyOptions`, and what the environment decides. -/
structure IdempotencyOptions where
  ttlMs : ℤ := idempotencyDefaultTtlMs
  /-- The storage has a method `keys`, and is enumerated through `key(index)`. -/
  enumerable : Bool := false
  /-- What `Date.parse` makes of a text in none of the forms the language fixes. -/
  otherDate : JsString → Option ℤ := fun _ ↦ none

/-- The storage and the private state of a store. -/
structure Store where
  storage : Dict JsString JsString := .empty
  knownKeys : List JsString := []
  deriving DecidableEq

/-- What a call answers, and the store it leaves: `none` is an exception. -/
abbrev Reply (α : Type) := Option (Except IdempotencyErrorCode α) × Store

def storageKey (key : JsString) : JsString := idempotencyStoragePrefix ++ key

/-- The record in a stored text: `none` for the empty text, for no JSON, and for another shape. -/
def parseRecord (raw : JsString) : Option IdempotencyRecord :=
  if raw = [] then none else (parse raw).bind asRecord

def read (s : Store) (key : JsString) : Option IdempotencyRecord :=
  (s.storage.get (storageKey key)).bind parseRecord

mutual

/-- Some part of the value is a bigint, on which `JSON.stringify` throws. -/
def hasBigint : JsValue → Bool
  | .foreign .bigint => true
  | .arr xs => hasBigintElems xs
  | .obj fs => hasBigintFields fs
  | _ => false

/-- Some element has a bigint. -/
def hasBigintElems : List JsValue → Bool
  | [] => false
  | x :: xs => hasBigint x || hasBigintElems xs

/-- Some field has a bigint. -/
def hasBigintFields : Fields → Bool
  | [] => false
  | (_, x) :: fs => hasBigint x || hasBigintFields fs

end

/-- `persistable`: the record with its response redacted, if that is an object. -/
def persistable (record : IdempotencyRecord) : Fields :=
  record.fields.set (js "response")
    (if record.response.isObject then redact false 0 record.response else record.response)

/-- `write(record)`; `none` is the `TypeError` of a bigint. -/
def write (s : Store) (record : IdempotencyRecord) : Option Store :=
  if hasBigintFields (persistable record) then none
  else some { s with
    storage := s.storage.set (storageKey record.key) (stringify (.obj (persistable record))) }

def remove (s : Store) (key : JsString) : Store :=
  { s with storage := s.storage.erase (storageKey key) }

section

variable (options : IdempotencyOptions) (s : Store)

/-- `all()`. A storage without `keys` is enumerated through the keys this store has claimed. -/
def all : List IdempotencyRecord :=
  if options.enumerable then
    s.storage.entries.filterMap fun p ↦
      if startsWith p.1 idempotencyStoragePrefix then parseRecord p.2 else none
  else s.knownKeys.filterMap (read s)

/-- `Date.parse(record.expiresAt) <= now`; nothing is at most `NaN`. -/
def expiredAt (record : IdempotencyRecord) (now : ℤ) : Bool :=
  (Date.parse options.otherDate record.expiresAt).any fun expiry ↦ expiry ≤ now

/-! ### The calls -/

structure BeginRequest where
  key : Option JsString
  operation : JsString
  request : JsValue := .undefined
  correlationId : Option JsString := none

/-- `requestDigest(request.request ?? null)` -/
def BeginRequest.digest (request : BeginRequest) : JsString :=
  requestDigest (if request.request = .undefined then .null else request.request)

structure BeginOutcome where
  replay : Bool
  record : IdempotencyRecord
  deriving DecidableEq

/-- The record of a new claim. -/
def claimRecord (key : JsString) (request : BeginRequest)
    (createdAt expiresAt correlationId : JsString) : IdempotencyRecord :=
  ⟨[(js "key", .str key), (js "operation", .str request.operation),
    (js "requestHash", .str request.digest),
    (js "status", .str IdempotencyStatus.inFlight.text),
    (js "createdAt", .str createdAt), (js "expiresAt", .str expiresAt),
    (js "replays", .num (JsNum.ofInt 0)), (js "correlationId", .str correlationId)]⟩

/-- `knownKeys.add(key)` -/
def addKey (keys : List JsString) (key : JsString) : List JsString :=
  if key ∈ keys then keys else keys ++ [key]

/-- `claim(request)`, with the reading of the clock and a fresh id. -/
def claim (key : JsString) (request : BeginRequest) (now : ℤ) (freshId : JsString) :
    Option (IdempotencyRecord × Store) := do
  let createdAt ← Date.toISOString now
  let expiresAt ← Date.toISOString (now + options.ttlMs)
  let record := claimRecord key request createdAt expiresAt (request.correlationId.getD freshId)
  let s ← write { s with knownKeys := addKey s.knownKeys key } record
  some (record, s)

/-- `begin(request)`, with the reading of the clock and a fresh id. -/
def begin (request : BeginRequest) (now : ℤ) (freshId : JsString) : Reply BeginOutcome :=
  match request.key with
  | none => (some (.error .idempotencyKeyMissing), s)
  | some key =>
    if key = [] then (some (.error .idempotencyKeyMissing), s)
    else if isValidIdempotencyKey key = false then (some (.error .idempotencyKeyInvalid), s)
    else
      match read s key with
      | none =>
        match claim options s key request now freshId with
        | none => (none, s)
        | some (record, s) => (some (.ok ⟨false, record⟩), s)
      | some existing =>
        if expiredAt options existing now then
          (some (.error .idempotencyKeyExpired), remove s existing.key)
        else if existing.requestHash ≠ request.digest then
          (some (.error .idempotencyKeyConflict), s)
        else if existing.operation ≠ request.operation then
          (some (.error .idempotencyKeyConflict), s)
        else if existing.hasStatus .inFlight then (some (.error .idempotencyInFlight), s)
        else
          let replayed := existing.assign (js "replays")
            (.num (existing.replays.add (JsNum.ofInt 1)))
          match write s replayed with
          | none => (none, s)
          | some s => (some (.ok ⟨true, replayed⟩), s)

section

variable (key : JsString)

/-- The outcome of a claim is recorded, once: what `complete` and `fail` share. -/
def conclude (outcome : IdempotencyRecord → IdempotencyRecord) : Reply IdempotencyRecord :=
  match read s key with
  | none => (some (.error .idempotencyNotFound), s)
  | some existing =>
    if existing.hasStatus .inFlight = false then (some (.error .idempotencyInFlight), s)
    else
      match write s (outcome existing) with
      | none => (none, s)
      | some s => (some (.ok (outcome existing)), s)

/-- `{ ...existing, status: "completed", response }` -/
def completedWith (response : JsValue) (existing : IdempotencyRecord) : IdempotencyRecord :=
  (existing.assign (js "status") (.str IdempotencyStatus.completed.text)).assign
    (js "response") response

/-- `{ ...existing, status: "failed", errorCode }` -/
def failedWith (errorCode : JsString) (existing : IdempotencyRecord) : IdempotencyRecord :=
  (existing.assign (js "status") (.str IdempotencyStatus.failed.text)).assign
    (js "errorCode") (.str errorCode)

def complete (response : JsValue) : Reply IdempotencyRecord :=
  conclude s key (completedWith response)

def fail (key errorCode : JsString) : Reply IdempotencyRecord :=
  conclude s key (failedWith errorCode)

def abandon : Reply Unit :=
  match read s key with
  | none => (some (.error .idempotencyNotFound), s)
  | some existing =>
    if existing.hasStatus .inFlight = false then (some (.error .idempotencyInFlight), s)
    else (some (.ok ()), remove s key)

/-- `lookup(key)`, with the reading of the clock. -/
def lookup (now : ℤ) : Reply IdempotencyRecord :=
  match read s key with
  | none => (some (.error .idempotencyNotFound), s)
  | some record =>
    if expiredAt options record now then
      (some (.error .idempotencyKeyExpired), remove s record.key)
    else (some (.ok record), s)

/-- One round of the loop of `sweep`. -/
def forget : Store :=
  { remove s key with knownKeys := s.knownKeys.filter fun k ↦ k ≠ key }

end

/-- `sweep(at)`: how many records went, and the store it leaves. -/
def sweep (at' : ℤ) : ℕ × Store :=
  let dropped := (all options s).filter fun record ↦ expiredAt options record at'
  (dropped.length, (dropped.map IdempotencyRecord.key).foldl forget s)

def reset : Store :=
  { ((all options s).map IdempotencyRecord.key).foldl remove s with knownKeys := [] }

end

end Utix.Idempotency

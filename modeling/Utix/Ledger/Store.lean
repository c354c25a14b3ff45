import Utix.Ledger.Chain

/-!
# The ledger and its storage

`createLedger` of `core/ledger/ledger.ts`. The ledger keeps no state of its own: every call reads
the chain from storage, and `append`, `prune` and `reseal` write it back. So a call here is a
function from the storage to an answer and a storage. An answer `none` is an exception; the storage
beside it is the one the exception leaves behind.

What is stored is the text of an object with a version, an anchor and the entries. `read` accepts
any text that parses to such an object, whoever wrote it, and keeps whatever else the object holds.

## The entry that is stored

`build` does not store the body it assembles: it stores the JSON round trip of its *redacted* form,
and hashes that.
-/

namespace Utix.Ledger

open Js JsValue Audit Telemetry

/-! ### Storage -/

/-- `AuditStorage`: what is stored under each key. -/
abbrev Storage := JsString → Option JsString

def Storage.setItem (storage : Storage) (key value : JsString) : Storage :=
  fun k ↦ if k = key then some value else storage k

def ledgerStorageKey : JsString := js "utix:ledger:v1:chain"

def ledgerQuarantinePrefix : JsString := js "utix:ledger:v1:quarantine:"

def ledgerDefaultLimit : ℕ := 2000

inductive LedgerErrorCode
  | ledgerDenied
  | invalidLedgerField
  | ledgerOutOfOrder
  | ledgerBroken
  | ledgerIntact
deriving DecidableEq

/-- What a call answers, and the storage it leaves: `none` is an exception. -/
abbrev Reply (α : Type) := Option (Except LedgerErrorCode α) × Storage

/-- `StoredLedger`: the fields of the stored object. -/
structure StoredLedger where
  fields : Fields
deriving DecidableEq

section

variable (state : StoredLedger)

def StoredLedger.anchor : JsValue := state.fields.get (js "anchor")

def StoredLedger.entries : List JsValue :=
  match state.fields.get (js "entries") with
  | .arr es => es
  | _ => []

/-- `{ v: LEDGER_SCHEMA_VERSION, anchor, entries }` -/
def ledgerFields (anchor : JsValue) (entries : List JsValue) : Fields :=
  [(js "v", .num (JsNum.ofInt ledgerSchemaVersion)), (js "anchor", anchor),
    (js "entries", .arr entries)]

/-- `GENESIS`, as it is stored. -/
def genesisValue : JsValue :=
  .obj [(js "seq", .num (JsNum.ofInt 0)), (js "hash", .str ledgerGenesisHash)]

/-- The checks of `read` on a parsed text. -/
def acceptStored : JsValue → Option StoredLedger
  | .obj fs =>
    if Fields.get fs (js "v") = .num (JsNum.ofInt ledgerSchemaVersion) ∧
        isCheckpoint (Fields.get fs (js "anchor")) = true then
      match Fields.get fs (js "entries") with
      | .arr _ => some ⟨fs⟩
      | _ => none
    else none
  | _ => none

/-- `read()`; `none` is `{ ok: false }`. -/
def read (storage : Storage) : Option StoredLedger :=
  match storage ledgerStorageKey with
  | none => some ⟨ledgerFields genesisValue []⟩
  | some raw => (parse raw).bind acceptStored

def write (storage : Storage) (fields : Fields) : Storage :=
  storage.setItem ledgerStorageKey (stringify (.obj fields))

/-- `headOf(state)`. A last entry that is falsy is not looked at. -/
def headOf : Checkpoint :=
  match state.entries.getLast? with
  | none => checkpoint state.anchor
  | some last => if last.truthy then checkpoint last else checkpoint state.anchor

end

/-! ### Building an entry -/

structure LedgerSubject where
  kind : JsString
  id : JsString

structure LedgerInput where
  kind : LedgerKind
  action : JsString
  actorId : JsString
  subject : LedgerSubject
  outcome : Option AuditOutcome := none
  data : Option Record := none
  ref : Option JsString := none
  refDigest : Option JsString := none
  at' : Option JsString := none

/-- An optional string field. -/
def optional : Option JsString → JsValue
  | none => .undefined
  | some s => .str s

/-- The `body` of `build`. -/
def bodyFields (previous : Checkpoint) (input : LedgerInput) (instant : JsValue) : Fields :=
  [(js "v", .num (JsNum.ofInt ledgerSchemaVersion)),
    (js "seq", .num (previous.seq.add (JsNum.ofInt 1))),
    (js "at", instant),
    (js "kind", .str input.kind.text),
    (js "action", .str input.action),
    (js "actorId", .str input.actorId),
    (js "subject", .obj [(js "kind", .str input.subject.kind), (js "id", .str input.subject.id)]),
    (js "outcome", .str (input.outcome.getD .allowed).text),
    (js "data", match auditContext input.data with
      | some data => .obj data
      | none => .undefined),
    (js "ref", optional input.ref),
    (js "refDigest", optional input.refDigest),
    (js "prevHash", .str previous.hash)]

/-- The fields of an object, as a spread copies them. -/
def fieldsOf : JsValue → Fields
  | .obj fs => fs
  | _ => []

section

variable (rt : Runtime)

/-- `build(previous, input, at)`; `none` is an exception. -/
def build (previous : Checkpoint) (input : LedgerInput) (instant : JsValue) : Option JsValue := do
  let stored ← parse (stringify (redact false 0 (.obj (bodyFields previous input instant))))
  let hash ← hashLedgerEntry rt stored
  some (.obj ((fieldsOf stored).set (js "hash") (.str hash)))

/-! ### The calls -/

/-- The checks of `append` on its input. -/
def LedgerInput.isValid (input : LedgerInput) : Bool :=
  allActions.contains input.action && input.kind == kindOf input.action &&
    isLabel (.str input.actorId) && isLabel (.str input.subject.kind) &&
    isLabel (.str input.subject.id) && input.refDigest.all hashPattern &&
    input.at'.all fun s ↦ (rt.dateParse s).isSome

/-- `last && (!isEntryShape(last) || hashLedgerEntry(last) !== last.hash)` -/
def headBroken (state : StoredLedger) : Option Bool :=
  match state.entries.getLast? with
  | none => some false
  | some last =>
    if last.truthy = false then some false
    else if isEntryShape rt last = false then some true
    else (hashLedgerEntry rt last).map fun hash ↦ last.get (js "hash") ≠ .str hash

/-- `previous.at && at < previous.at` -/
def isEarlier (instant : JsValue) (previous : Checkpoint) : Option Bool :=
  if previous.at'.truthy then less instant previous.at' else some false

section

variable (storage : Storage)

/-- The storage with one more entry. -/
def extend (state : StoredLedger) (entry : JsValue) : Storage :=
  write storage (state.fields.set (js "entries") (.arr (state.entries ++ [entry])))

/-- `append(input)`, with the reading of the clock. -/
def append (input : LedgerInput) (now : ℤ) : Reply JsValue :=
  if input.isValid rt = false then (some (.error .invalidLedgerField), storage)
  else
    match read storage with
    | none => (some (.error .ledgerBroken), storage)
    | some state =>
      match headBroken rt state with
      | none => (none, storage)
      | some true => (some (.error .ledgerBroken), storage)
      | some false =>
        let previous := headOf state
        match input.at' <|> Date.toISOString now with
        | none => (none, storage)
        | some instant =>
          match isEarlier (.str instant) previous with
          | none => (none, storage)
          | some earlier =>
            -- a clock that stepped back is clamped, an explicit instant is refused
            if earlier && input.at'.isSome then (some (.error .ledgerOutOfOrder), storage)
            else
              match build rt previous input (if earlier then previous.at' else .str instant) with
              | none => (none, storage)
              | some entry => (some (.ok entry), extend storage state entry)

/-- `verify({ expectedHead })`; `none` is an exception. -/
def verify (expectedHead : Option Checkpoint) : Option LedgerVerification :=
  match read storage with
  | none => some (.broken .corrupt none 0 genesis)
  | some state =>
    verifyLedgerChain rt state.entries (checkpoint state.anchor) expectedHead

def head : Checkpoint :=
  match read storage with
  | none => genesis
  | some state => headOf state

def entries : List JsValue :=
  match read storage with
  | none => []
  | some state => state.entries

/-- `{ seq: v.seq, hash: v.hash, at: v.at }`, as a value; `none` is the `TypeError` of `null`. -/
def pointValue (v : JsValue) : Option JsValue :=
  if v = .null ∨ v = .undefined then none
  else some (.obj [(js "seq", v.get (js "seq")), (js "hash", v.get (js "hash")),
    (js "at", v.get (js "at"))])

/-- `Math.max(1, Math.floor(options.limit ?? LEDGER_DEFAULT_LIMIT))` -/
def ledgerLimit (limit : Option ℤ) : ℕ := (max 1 (limit.getD ledgerDefaultLimit)).toNat

/-- `prune()`, with the `limit` option of the ledger; `none` is an exception. -/
def prune (limit : Option ℤ) (storage : Storage) : Option ℕ × Storage :=
  match read storage with
  | none => (some 0, storage)
  | some state =>
    if state.entries.length ≤ ledgerLimit limit then (some 0, storage)
    else
      let dropped := state.entries.length - ledgerLimit limit
      match pointValue (state.entries.getD (dropped - 1) .undefined) with
      | none => (none, storage)
      | some anchor =>
        (some dropped, write storage (ledgerFields anchor (state.entries.drop dropped)))

/-! ### Recovery -/

/-- `REASON_PATTERN`: `/^[a-z0-9_.:-]{1,64}$/` -/
def reasonPattern (s : JsString) : Bool :=
  1 ≤ s.length && s.length ≤ 64 && s.all fun c ↦
    isLower c || isDigit c || c == 95 || c == 46 || c == 58 || c == 45

structure ResealReport where
  code : LedgerIntegrityCode
  quarantineKey : JsString
  resumedFrom : Checkpoint
  droppedEntries : ℕ
  entry : JsValue

/-- `actor.kind === "maintainer" && actor.id`: the id of a maintainer who has one. -/
def maintainerId : AuditActor → Option JsString
  | .maintainer id => if id = [] then none else some id
  | _ => none

/-- The `data` of a resealing entry. -/
def resealData (code : LedgerIntegrityCode) (seq : Option JsNum) (droppedEntries : ℕ)
    (reason : JsString) : Record where
  fields :=
    [(js "code", .str code.text), (js "brokenAtSeq", (seq.map JsValue.num).getD .null),
      (js "droppedEntries", .num (JsNum.ofInt droppedEntries)), (js "reason", .str reason)]
  nodup := show List.Nodup [js "code", js "brokenAtSeq", js "droppedEntries", js "reason"] by decide

/-- The input `reseal` hands to `build`. -/
def resealInput (id quarantineKey : JsString) (data : Record) : LedgerInput where
  kind := .privileged
  action := js "ledger.resealed"
  actorId := id
  subject := ⟨js "ledger", quarantineKey⟩
  data := some data

/-- `reseal(actor, reason)`, with the reading of the clock. -/
def reseal (actor : AuditActor) (reason : JsString) (now : ℤ) : Reply ResealReport :=
  match maintainerId actor with
  | none => (some (.error .ledgerDenied), storage)
  | some id =>
    if reasonPattern reason = false then (some (.error .invalidLedgerField), storage)
    else
      match verify rt storage none with
      | none => (none, storage)
      | some (.ok _ _ _) => (some (.error .ledgerIntact), storage)
      | some (.broken code seq verified lastGood) =>
        match Date.toISOString now with
        | none => (none, storage)
        | some instant =>
          let quarantineKey := ledgerQuarantinePrefix ++ instant
          let quarantined := storage.setItem quarantineKey ((storage ledgerStorageKey).getD [])
          let state := read quarantined
          let anchor := (state.map StoredLedger.anchor).getD genesisValue
          let kept := (state.map fun s ↦ s.entries.take verified).getD []
          let total := (state.map fun s ↦ s.entries.length).getD 0
          -- the instant of the last good point, whatever it is, if it is the later one
          match if lastGood.at'.truthy then less (.str instant) lastGood.at' else some false with
          | none => (none, quarantined)
          | some later =>
            match build rt lastGood
                (resealInput id quarantineKey (resealData code seq (total - kept.length) reason))
                (if later then lastGood.at' else .str instant) with
            | none => (none, quarantined)
            | some entry =>
              (some (.ok ⟨code, quarantineKey, lastGood, total - kept.length, entry⟩),
                write quarantined (ledgerFields anchor (kept ++ [entry])))

end

end

/-! ### Reading back what was written -/

@[simp] theorem setItem_self (storage : Storage) (key value : JsString) :
    storage.setItem key value key = some value := if_pos rfl

theorem setItem_of_ne {storage : Storage} {key k : JsString} (h : k ≠ key) (value : JsString) :
    storage.setItem key value k = storage k := if_neg h

/-- What is written is read next. -/
theorem read_write {storage : Storage} {fs : Fields} (h : (JsValue.obj fs).IsJson) :
    read (write storage fs) = acceptStored (.obj fs) := by
  rw [read, write, setItem_self]
  simp only [parse_stringify h, Option.bind_some]

/-- What the reader has checked of a stored chain. -/
theorem acceptStored_eq_some {v : JsValue} {state : StoredLedger}
    (h : acceptStored v = some state) :
    v = .obj state.fields ∧
      state.fields.get (js "v") = .num (JsNum.ofInt ledgerSchemaVersion) ∧
        isCheckpoint state.anchor = true ∧
          state.fields.get (js "entries") = .arr state.entries := by
  cases v with
  | obj fs =>
    rw [acceptStored] at h
    split at h
    · next hok =>
      split at h
      · next es hes =>
        cases h
        exact ⟨rfl, hok.1, hok.2, by rw [StoredLedger.entries, hes]⟩
      · cases h
    · cases h
  | _ => exact absurd h (by simp [acceptStored])

theorem acceptStored_obj {fs : Fields} {es : List JsValue}
    (hv : fs.get (js "v") = .num (JsNum.ofInt ledgerSchemaVersion))
    (hanchor : isCheckpoint (fs.get (js "anchor")) = true)
    (hes : fs.get (js "entries") = .arr es) :
    acceptStored (.obj fs) = some ⟨fs⟩ := by
  rw [acceptStored, if_pos ⟨hv, hanchor⟩, hes]

end Utix.Ledger

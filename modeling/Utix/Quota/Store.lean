import Utix.Js.Date

/-!
# The quota store

`createQuotaStore` of `core/quota/quota.ts`: counters for each metered operation, one per principal
and one shared by all, in windows of fixed length. A spend is *reserved* before the counters are
read, *committed* when both have room, and *released* when one has not.

The writes go through an injected storage, and the storage may call the store again from inside
`setItem`. So the functions that write take a parameter `inner`: what runs inside the write of a
subject's counter, before the value lands. `quiet` is a storage that calls nothing.

## What is kept of the data

The counters are kept as records rather than as their JSON texts, under the part of the key that
distinguishes them, and so are the overrides. Times are whole milliseconds.

Costs, limits and counters are integers. In the code they are numbers, which are integers without
rounding up to `2 ^ 53`: `reserveCounter` and `releaseCounter` add and take away costs, and above
that bound what they add need not be what they take away. The results about whole runs are therefore
about sums below it.
-/

namespace Utix.Quota

open Js

/-! ### Policies -/

inductive QuotaResource
  | storage
  | compute
  | externalApi
  | indexing
  deriving DecidableEq

structure QuotaPolicy where
  operation : JsString
  resource : QuotaResource
  limit : ℤ
  globalLimit : Option ℤ := none
  windowMs : ℤ
  maxOverrideLimit : Option ℤ := none
  deriving DecidableEq

def ceilingOf (policy : QuotaPolicy) : ℤ := policy.maxOverrideLimit.getD (policy.limit * 10)

/-- The checks of `validatePolicies` on one policy. -/
def QuotaPolicy.isValid (policy : QuotaPolicy) : Bool :=
  1 ≤ policy.limit && policy.globalLimit.all (fun g ↦ policy.limit ≤ g) &&
    1000 ≤ policy.windowMs && policy.limit ≤ ceilingOf policy

/-- `validatePolicies(policies)`; false is an exception. -/
def validatePolicies (policies : List QuotaPolicy) : Bool :=
  (policies.map QuotaPolicy.operation).Nodup && policies.all QuotaPolicy.isValid

/-- The policies of a store: a list that `validatePolicies` lets through. -/
abbrev Policies := {policies : List QuotaPolicy // validatePolicies policies = true}

section

variable (policies : Policies)

/-- `byOperation.get(operation)` -/
def byOperation (operation : JsString) : Option QuotaPolicy :=
  policies.1.find? fun policy ↦ policy.operation = operation

/-! ### Requests and answers -/

/-- `QuotaErrorCode`, as far as a spend can meet it. -/
inductive QuotaErrorCode
  | quotaExceeded
  | quotaUnknownOperation
  | quotaInvalidPrincipal
  | quotaInvalidCost
  deriving DecidableEq

structure QuotaRequest where
  operation : JsString
  principal : JsString
  cost : Option JsNum := none
  correlationId : Option JsString := none

inductive QuotaLimitScope
  | principal
  | global
  deriving DecidableEq

structure QuotaDenial where
  operation : JsString
  resource : QuotaResource
  limitScope : QuotaLimitScope
  retryAfterMs : Option ℤ
  correlationId : JsString
  deriving DecidableEq

/-- `QuotaReceipt`; `remaining` is `none` under an infinite limit. -/
structure QuotaReceipt where
  operation : JsString
  principal : JsString
  cost : ℤ
  windowStart : ℤ
  remaining : Option ℤ
  resetAt : JsString
  correlationId : JsString
  deriving DecidableEq

/-- `Result<QuotaReceipt, QuotaErrorCode, QuotaDenial>` -/
abbrev Answer := Except (QuotaErrorCode × Option QuotaDenial) QuotaReceipt

def quotaGlobalSubject : JsString := js "*"

/-- `PRINCIPAL_PATTERN`: `/^[A-Za-z0-9._:@-]{1,128}$/` -/
def principalPattern (s : JsString) : Bool :=
  1 ≤ s.length && s.length ≤ 128 && s.all fun c ↦
    isAlnum c || c == 46 || c == 95 || c == 58 || c == 64 || c == 45

def isValidPrincipal (principal : JsString) : Bool :=
  principal ≠ quotaGlobalSubject && principalPattern principal

/-- The integer that a number is, if it is one. -/
def toInteger : JsNum → Option ℤ
  | .finite d => if d.isInteger then some (d.scaled 0) else none
  | _ => none

def validate (request : QuotaRequest) : Except QuotaErrorCode (QuotaPolicy × ℤ) :=
  match byOperation policies request.operation with
  | none => .error .quotaUnknownOperation
  | some policy =>
    if isValidPrincipal request.principal = false then .error .quotaInvalidPrincipal
    else
      match toInteger (request.cost.getD (JsNum.ofInt 1)) with
      | none => .error .quotaInvalidCost
      | some cost => if cost < 1 then .error .quotaInvalidCost else .ok (policy, cost)

/-! ### The state of a store -/

structure Counter where
  windowStart : ℤ
  used : ℤ
  denied : ℤ
  deriving DecidableEq

/-- `QuotaOverride`: the limit it sets, which `grantOverride` checks not to be negative, and the
time its `expiresAt` denotes. -/
structure QuotaOverride where
  limit : ℕ
  expiresAt : ℤ

structure Reservation where
  windowStart : ℤ
  used : ℤ
  denied : ℤ
  /-- The id of each `evaluate` call that holds a part, and its cost. -/
  owners : List (ℕ × ℤ)
  /-- Reserved cost that is not yet written to storage. -/
  unwritten : ℤ
  deriving DecidableEq

structure QuotaDenialRecord where
  at' : JsString
  operation : JsString
  principal : JsString
  limitScope : QuotaLimitScope
  cost : ℤ
  used : ℤ
  limit : Option ℤ
  correlationId : JsString

def quotaDenialHistory : ℕ := 50

/-- The storage and the private state of a store. -/
structure Store where
  /-- What the storage holds under `counterKey`. -/
  counters : JsString → Option Counter := fun _ ↦ none
  /-- What the storage holds under `overrideKey`. -/
  overrides : JsString → Option QuotaOverride := fun _ ↦ none
  reserved : JsString → Option Reservation := fun _ ↦ none
  refunded : List JsString := []
  denials : List QuotaDenialRecord := []
  nextCallId : ℕ := 0

/-- `reservedKey(operation, subject)`, which `counterKey` and `overrideKey` put behind a
constant. -/
def reservedKey (operation subject : JsString) : JsString := operation ++ js "|" ++ subject

/-- `map.set(key, value)`, or `map.delete(key)` when there is no value. -/
def put {α : Type} (map : JsString → Option α) (key : JsString) (value : Option α) :
    JsString → Option α :=
  fun k ↦ if k = key then value else map k

section

variable (s : Store)

/-- `reserved.set(key, entry)`, or `reserved.delete(key)`. -/
def Store.setReserved (key : JsString) (entry : Option Reservation) : Store :=
  { s with reserved := put s.reserved key entry }

/-- `storage.setItem(counterKey(…), JSON.stringify(counter))` -/
def Store.setCounter (key : JsString) (counter : Counter) : Store :=
  { s with counters := put s.counters key (some counter) }

section

variable (policy : QuotaPolicy)

def windowStartOf (at' : ℤ) : ℤ := at' / policy.windowMs * policy.windowMs

section

variable (subject : JsString)

def readStoredCounter (at' : ℤ) : Counter :=
  match s.counters (reservedKey policy.operation subject) with
  | some counter =>
    -- a counter from another window is stale
    if counter.windowStart = windowStartOf policy at' then counter
    else ⟨windowStartOf policy at', 0, 0⟩
  | none => ⟨windowStartOf policy at', 0, 0⟩

def reservationFor (at' : ℤ) : Option Reservation :=
  (s.reserved (reservedKey policy.operation subject)).filter fun entry ↦
    entry.windowStart = windowStartOf policy at'

def readCounter (at' : ℤ) : Counter :=
  match reservationFor s policy subject at' with
  | some pending => ⟨pending.windowStart, pending.used, pending.denied⟩
  | none => readStoredCounter s policy subject at'

/-- A reservation with the part of one more call. -/
def Reservation.plus (entry : Reservation) (callId : ℕ) (cost : ℤ) : Reservation :=
  { entry with
    used := entry.used + cost
    unwritten := entry.unwritten + cost
    owners := entry.owners ++ [(callId, cost)] }

/-- `reserveCounter`; the sums are exact below `2 ^ 53`. -/
def reserveCounter (cost at' : ℤ) (callId : ℕ) : Store :=
  let base := readStoredCounter s policy subject at'
  let entry := (reservationFor s policy subject at').getD
    ⟨base.windowStart, base.used, base.denied, [], 0⟩
  s.setReserved (reservedKey policy.operation subject) (some (entry.plus callId cost))

/-- `owners.delete(callId)` -/
def dropOwner (owners : List (ℕ × ℤ)) (callId : ℕ) : List (ℕ × ℤ) :=
  owners.filter fun owner ↦ owner.1 ≠ callId

/-- The entry as it stays in the map: `reserved.delete(key)` when nothing is left to write. -/
def Reservation.settled (entry : Reservation) : Option Reservation :=
  if entry.unwritten ≤ 0 then none else some entry

/-- `releaseCounter`; the differences are exact below `2 ^ 53`. -/
def releaseCounter (cost at' : ℤ) (callId : ℕ) : Store :=
  match reservationFor s policy subject at' with
  | none => s
  | some entry =>
    if entry.owners.any (fun owner ↦ owner.1 = callId) then
      s.setReserved (reservedKey policy.operation subject) (Reservation.settled { entry with
        owners := dropOwner entry.owners callId
        used := max 0 (entry.used - cost)
        unwritten := entry.unwritten - cost })
    else s

end

end

end

/-! ### Writes that may re-enter -/

/-- What a call did: the store it leaves, its answer (`none` is an exception), and the receipts of
the spends that were granted inside its writes. -/
structure Ran (α : Type) where
  store : Store
  answer : Option α
  nested : List QuotaReceipt

/-- One thing after another; an exception ends both. -/
def Ran.andThen {α β : Type} (r : Ran α) (f : α → Store → Ran β) : Ran β :=
  match r.answer with
  | none => ⟨r.store, none, r.nested⟩
  | some a => ⟨(f a r.store).store, (f a r.store).answer, r.nested ++ (f a r.store).nested⟩

/-- What runs inside the write of the counter of a subject, before the value lands. -/
abbrev Inner := JsString → Store → Ran Unit

/-- A storage that does not call the store. -/
def quiet : Inner := fun _ s ↦ ⟨s, some (), []⟩

def writeCounter (inner : Inner) (s : Store) (operation subject : JsString) (counter : Counter) :
    Ran Unit :=
  (inner subject s).andThen fun _ s ↦
    ⟨s.setCounter (reservedKey operation subject) counter, some (), []⟩

section

variable (s : Store)

/-- `if (entry.unwritten <= 0) reserved.delete(key)`. The entry is looked up again: calls inside the
write may have changed or dropped it. -/
def settleAt (key : JsString) : Store :=
  match s.reserved key with
  | none => s
  | some entry => s.setReserved key entry.settled

/-- The store in which a commit writes: the call no longer owns its part of the entry. -/
def committing (key : JsString) (entry : Reservation) (callId : ℕ) (cost : ℤ) : Store :=
  s.setReserved key (some { entry with
    owners := dropOwner entry.owners callId
    unwritten := entry.unwritten - cost })

def commitCounter (inner : Inner) (s : Store) (policy : QuotaPolicy) (subject : JsString)
    (cost at' : ℤ) (callId : ℕ) : Ran Unit :=
  match reservationFor s policy subject at' with
  | none => ⟨s, some (), []⟩
  | some entry =>
    if entry.owners.any (fun owner ↦ owner.1 = callId) then
      let key := reservedKey policy.operation subject
      let s := committing s key entry callId cost
      let current := readStoredCounter s policy subject at'
      (writeCounter inner s policy.operation subject { current with
          used := current.used + cost
          denied := max current.denied entry.denied }).andThen fun _ s ↦
        ⟨settleAt s key, some (), []⟩
    else ⟨s, some (), []⟩

/-! ### Limits -/

/-- The effective limit of a subject; no limit is `Infinity`. -/
structure EffectiveLimit where
  limit : Option ℤ
  overridden : Bool

/-- `value > limit` -/
def EffectiveLimit.exceededBy (l : EffectiveLimit) (value : ℤ) : Bool :=
  l.limit.any fun limit ↦ limit < value

/-- `readOverride(operation, subject, at)`: an expired override is removed. -/
def readOverride (operation subject : JsString) (at' : ℤ) : Option QuotaOverride × Store :=
  match s.overrides (reservedKey operation subject) with
  | none => (none, s)
  | some o =>
    if o.expiresAt ≤ at' then
      (none, { s with overrides := put s.overrides (reservedKey operation subject) none })
    else (some o, s)

def effectiveLimit (policy : QuotaPolicy) (subject : JsString) (at' : ℤ) : EffectiveLimit × Store :=
  match readOverride s policy.operation subject at' with
  | (some o, s) => (⟨some o.limit, true⟩, s)
  | (none, s) =>
    (⟨if subject = quotaGlobalSubject then policy.globalLimit else some policy.limit, false⟩, s)

/-! ### Evaluating a request -/

/-- `if (live) live.denied = denied`, for the live reservation of the refusing subject. -/
def noteDenial (policy : QuotaPolicy) (subject : JsString) (at' denied : ℤ) : Store :=
  match reservationFor s policy subject at' with
  | none => s
  | some live =>
    s.setReserved (reservedKey policy.operation subject) (some { live with denied := denied })

/-- `denials = [...denials, record].slice(-QUOTA_DENIAL_HISTORY)` -/
def Store.pushDenial (record : QuotaDenialRecord) : Store :=
  { s with
    denials := (s.denials ++ [record]).drop (s.denials.length + 1 - quotaDenialHistory) }

/-- The part of `evaluate` that records a refused spend: it is handed back, the refusal is counted
against the refusing subject, and kept in the history. -/
def recordRefusal (inner : Inner) (s : Store) (policy : QuotaPolicy) (principal : JsString)
    (cost at' : ℤ) (callId : ℕ) (scope : QuotaLimitScope) (limit : EffectiveLimit)
    (correlationId : JsString) : Ran Unit :=
  let s := releaseCounter s policy principal cost at' callId
  let s := releaseCounter s policy quotaGlobalSubject cost at' callId
  let subject := if scope = .principal then principal else quotaGlobalSubject
  let read := readCounter s policy subject at'
  let counter := { read with denied := read.denied + 1 }
  let s := noteDenial s policy subject at' counter.denied
  let current := readStoredCounter s policy subject at'
  (writeCounter inner s policy.operation subject
      { current with denied := max current.denied counter.denied }).andThen fun _ s ↦
    match Date.toISOString at' with
    | none => ⟨s, none, []⟩
    | some at' =>
      ⟨s.pushDenial ⟨at', policy.operation, principal, scope, cost, counter.used, limit.limit,
        correlationId⟩, some (), []⟩

/-- `evaluate(request, spend)`, with the reading of the clock and a fresh correlation id. -/
def evaluate (inner : Inner) (s : Store) (request : QuotaRequest) (spend : Bool)
    (freshId : JsString) (at' : ℤ) : Ran Answer :=
  let correlationId := request.correlationId.getD freshId
  match validate policies request with
  | .error code => ⟨s, some (.error (code, none)), []⟩
  | .ok (policy, cost) =>
    let callId := s.nextCallId + 1
    let s := { s with nextCallId := callId }
    -- reserve first, then read
    let s := if spend then
        reserveCounter (reserveCounter s policy request.principal cost at' callId) policy
          quotaGlobalSubject cost at' callId
      else s
    let own := readCounter s policy request.principal at'
    let shared := readCounter s policy quotaGlobalSubject at'
    let (ownLimit, s) := effectiveLimit s policy request.principal at'
    let (sharedLimit, s) := effectiveLimit s policy quotaGlobalSubject at'
    let projected := if spend then 0 else cost
    let refusedBy : Option QuotaLimitScope :=
      if ownLimit.exceededBy (own.used + projected) then some .principal
      else if sharedLimit.exceededBy (shared.used + projected) then some .global
      else none
    match refusedBy with
    | some scope =>
      let limit := if scope = .principal then ownLimit else sharedLimit
      let start := if scope = .principal then own.windowStart else shared.windowStart
      let denial : QuotaDenial := ⟨policy.operation, policy.resource, scope,
        if limit.overridden && limit.limit = some 0 then none
        else some (max 0 (start + policy.windowMs - at')), correlationId⟩
      (if spend then
          recordRefusal inner s policy request.principal cost at' callId scope limit correlationId
        else ⟨s, some (), []⟩).andThen fun _ s ↦
        ⟨s, some (.error (.quotaExceeded, some denial)), []⟩
    | none =>
      (if spend then
          (commitCounter inner s policy request.principal cost at' callId).andThen fun _ s ↦
            commitCounter inner s policy quotaGlobalSubject cost at' callId
        else ⟨s, some (), []⟩).andThen fun _ s ↦
        -- an end of the window that no `Date` holds throws, after the spend is written
        ⟨s, (Date.toISOString (own.windowStart + policy.windowMs)).map fun resetAt ↦
          .ok ⟨policy.operation, request.principal, cost, own.windowStart,
            ownLimit.limit.map fun limit ↦ max 0 (limit - own.used - projected), resetAt,
            correlationId⟩, []⟩

def check (request : QuotaRequest) (freshId : JsString) (at' : ℤ) : Ran Answer :=
  evaluate policies quiet s request false freshId at'

/-- `consume(request)`, on a storage that does not call back. -/
def consume (request : QuotaRequest) (freshId : JsString) (at' : ℤ) : Ran Answer :=
  evaluate policies quiet s request true freshId at'

/-- The token under which a receipt is refunded once. -/
def refundToken (receipt : QuotaReceipt) : JsString :=
  receipt.operation ++ js "|" ++ receipt.principal ++ js "|" ++
    (JsNum.ofInt receipt.windowStart).text ++ js "|" ++ receipt.correlationId

/-- One round of the loop of `refund`. -/
def refundSubject (policy : QuotaPolicy) (cost at' : ℤ) (subject : JsString) : Store :=
  let counter := readCounter s policy subject at'
  s.setCounter (reservedKey policy.operation subject)
    { counter with used := max 0 (counter.used - cost) }

/-- `refund(receipt)`, on a storage that does not call back. -/
def refund (receipt : QuotaReceipt) (at' : ℤ) : Store :=
  match byOperation policies receipt.operation with
  | none => s
  | some policy =>
    if s.refunded.contains (refundToken receipt) then s
    else
      let s := { s with refunded := s.refunded ++ [refundToken receipt] }
      if windowStartOf policy at' ≠ receipt.windowStart then s
      else
        [receipt.principal, quotaGlobalSubject].foldl
          (fun s subject ↦ refundSubject s policy receipt.cost at' subject) s

end

end

/-- One metered operation, five units for each principal and five for all. -/
def fivePolicy : QuotaPolicy where
  operation := js "a"
  resource := .compute
  limit := 5
  globalLimit := some 5
  windowMs := 60000

/-- A store with this operation only. -/
def fivePolicies : Policies := ⟨[fivePolicy], by decide +kernel⟩

end Utix.Quota

import Utix.Idempotency.Store

/-!
# Proposals to hand over a resource

`OwnershipTransferStore` of `core/ownership/ownership.ts`: the owner of a resource *initiates* a
transfer, and the recipient *accepts* it (or *rejects* it, or the owner *cancels* it) before it
expires. Expiry is applied when somebody looks: `checkExpiration` rewrites an overdue proposal.

An answer `none` is an exception: an instant that no `Date` holds. A `now` that a caller passes may
be any number; a reading of the clock is whole milliseconds.

`accept`, `cancel` and `reject` are one function, `settlePending`, with their own party, refusal and
rewriting.

Proposals lie in a table under their ids, and a second table names the active proposal of each
resource: a new one is refused while that is pending. What is kept under idempotency keys is a store
of `Utix.Idempotency`, so a claim made here is a claim there, with the lifetime and the replays that
this module gives it.
-/

namespace Utix.Ownership

open Js Lib Idempotency

/-! ### Proposals -/

inductive OwnershipTransferStatus
  | pending
  | accepted
  | cancelled
  | rejected
  | expired
  deriving DecidableEq

def OwnershipTransferStatus.text : OwnershipTransferStatus → JsString
  | .pending => js "pending"
  | .accepted => js "accepted"
  | .cancelled => js "cancelled"
  | .rejected => js "rejected"
  | .expired => js "expired"

/-- The codes of `OwnershipErrorCode` that the engine answers. -/
inductive OwnershipErrorCode
  | unauthorizedNotOwner
  | unauthorizedNotRecipient
  | cannotTransferToSelf
  | invalidRecipient
  | invalidOwner
  | invalidExpiryWindow
  | transferNotFound
  | transferExpired
  | transferAlreadySettled
  | transferActiveConflict
  deriving DecidableEq

def OwnershipErrorCode.text : OwnershipErrorCode → JsString
  | .unauthorizedNotOwner => js "unauthorized_not_owner"
  | .unauthorizedNotRecipient => js "unauthorized_not_recipient"
  | .cannotTransferToSelf => js "cannot_transfer_to_self"
  | .invalidRecipient => js "invalid_recipient"
  | .invalidOwner => js "invalid_owner"
  | .invalidExpiryWindow => js "invalid_expiry_window"
  | .transferNotFound => js "transfer_not_found"
  | .transferExpired => js "transfer_expired"
  | .transferAlreadySettled => js "transfer_already_settled"
  | .transferActiveConflict => js "transfer_active_conflict"

/-- The code of a refusal: one of the engine's own, or what the idempotency store answered, which is
passed on as it is. -/
inductive OwnershipFailure
  | code (code : OwnershipErrorCode)
  | idempotency (code : IdempotencyErrorCode)
  deriving DecidableEq

/-- The text of the code. -/
def OwnershipFailure.text : OwnershipFailure → JsString
  | .code c => c.text
  | .idempotency c => c.text

inductive OwnershipActorKind
  | user
  | maintainer
  | service
  | contract
  deriving DecidableEq

structure OwnershipActor where
  kind : OwnershipActorKind
  id : JsString
  deriving DecidableEq

structure OwnershipTransferProposal where
  id : JsString
  resourceId : JsString
  resourceType : JsString
  currentOwner : JsString
  proposedOwner : JsString
  status : OwnershipTransferStatus
  createdAt : JsString
  expiresAt : JsString
  settledAt : Option JsString := none
  priceStroops : Option JsNum
  memo : Option JsString
  idempotencyKey : Option JsString
  correlationId : JsString
  metadata : Option Fields
  deriving DecidableEq

/-- An optional field. -/
def optional {α : Type} (field : α → JsValue) (value : Option α) : JsValue :=
  (value.map field).getD .undefined

/-- The proposal as the object that is handed to the idempotency store. -/
def OwnershipTransferProposal.value (p : OwnershipTransferProposal) : JsValue :=
  .obj ([(js "id", .str p.id), (js "resourceId", .str p.resourceId),
    (js "resourceType", .str p.resourceType), (js "currentOwner", .str p.currentOwner),
    (js "proposedOwner", .str p.proposedOwner), (js "status", .str p.status.text),
    (js "createdAt", .str p.createdAt), (js "expiresAt", .str p.expiresAt),
    (js "priceStroops", optional .num p.priceStroops), (js "memo", optional .str p.memo),
    (js "idempotencyKey", optional .str p.idempotencyKey),
    (js "correlationId", .str p.correlationId), (js "metadata", optional .obj p.metadata)] ++
    (p.settledAt.map fun settledAt ↦ (js "settledAt", JsValue.str settledAt)).toList)

/-! ### Principals -/

def defaultExpiryMs : ℤ := 24 * 60 * 60 * 1000

def minExpiryMs : ℤ := 60 * 1000

def maxExpiryMs : ℤ := 30 * 24 * 60 * 60 * 1000

/-- `id.replace(/^account:/, "")` -/
def stripAccount (id : JsString) : JsString :=
  if startsWith id (js "account:") then id.drop (js "account:").length else id

def normalizePrincipal (id : JsString) : JsString := stripAccount (trim id)

/-- `isValidPrincipal(id)`, with the pattern `/^[A-Za-z0-9_.-]{4,70}$/`. -/
def isValidPrincipal (id : JsString) : Bool :=
  let norm := normalizePrincipal id
  4 ≤ norm.length && norm.length ≤ 70 &&
    norm.all fun c ↦ isAlnum c || c == 95 || c == 46 || c == 45

/-! ### The store -/

structure OwnershipTransferStore where
  proposalsById : Dict JsString OwnershipTransferProposal := .empty
  activeByResource : Dict JsString JsString := .empty
  idempotency : Store := {}

def resourceKey (resourceType resourceId : JsString) : JsString :=
  resourceType ++ js ":" ++ resourceId

/-- A proposal is rewritten, and its resource no longer points to it. -/
def OwnershipTransferStore.settle (s : OwnershipTransferStore) (p : OwnershipTransferProposal) :
    OwnershipTransferStore :=
  { s with
    proposalsById := s.proposalsById.set p.id p
    activeByResource :=
      if s.activeByResource.get (resourceKey p.resourceType p.resourceId) = some p.id then
        s.activeByResource.erase (resourceKey p.resourceType p.resourceId)
      else s.activeByResource }

/-- The proposal with an outcome. -/
def OwnershipTransferProposal.settledAs (p : OwnershipTransferProposal)
    (status : OwnershipTransferStatus) (settledAt : JsString) : OwnershipTransferProposal :=
  { p with status := status, settledAt := some settledAt }

section

variable (options : IdempotencyOptions)

/-- A pending proposal whose deadline has passed; no number is past a deadline that no `Date`
reads. -/
def isOverdue (p : OwnershipTransferProposal) (nowMs : JsNum) : Bool :=
  p.status = .pending &&
    (Date.parse options.otherDate p.expiresAt).any fun deadline ↦
      (JsNum.ofInt deadline).atMost nowMs

section

variable (s : OwnershipTransferStore)

def checkExpiration (p : OwnershipTransferProposal) (nowMs : JsNum) :
    Option (OwnershipTransferProposal × OwnershipTransferStore) :=
  if isOverdue options p nowMs then
    match Date.textOf nowMs with
    | none => none
    | some settledAt =>
      some (p.settledAs .expired settledAt, s.settle (p.settledAs .expired settledAt))
  else some (p, s)

def getTransfer (transferId : JsString) (nowMs : JsNum) :
    Option (Option OwnershipTransferProposal × OwnershipTransferStore) :=
  match s.proposalsById.get transferId with
  | none => some (none, s)
  | some raw => (checkExpiration options s raw nowMs).map fun r ↦ (some r.1, r.2)

/-! ### Calls -/

/-- What a successful call answers: a proposal, or the response that an earlier call has left with
the idempotency store. -/
inductive OwnershipAnswer
  | proposal (p : OwnershipTransferProposal)
  | replayed (response : JsValue)
  deriving DecidableEq

/-- What a call answers, and the store it leaves: `none` is an exception. -/
abbrev OwnershipReply := Option (Except OwnershipFailure OwnershipAnswer) × OwnershipTransferStore

/-- The idempotency check that opens a call with a key; `none` lets the call go on. -/
def replayOrClaim (idempotencyKey : Option JsString) (operation : JsString) (request : JsValue)
    (correlationId : JsString) (clock : ℤ) :
    Option (Option (Except OwnershipFailure OwnershipAnswer)) × OwnershipTransferStore :=
  if idempotencyKey.getD [] = [] then (none, s)
  else
    let begun := begin options s.idempotency
      ⟨idempotencyKey, operation, request, some correlationId⟩ clock correlationId
    let s := { s with idempotency := begun.2 }
    match begun.1 with
    | none => (some none, s)
    | some (.error code) => (some (some (.error (.idempotency code))), s)
    | some (.ok outcome) =>
      if outcome.replay && outcome.record.response.truthy then
        (some (some (.ok (.replayed outcome.record.response))), s)
      else (none, s)

end

end

/-- The answer of a call that has done its work, with the completion of its key. -/
def answerWith (s : OwnershipTransferStore) (idempotencyKey : Option JsString)
    (p : OwnershipTransferProposal) : OwnershipReply :=
  if idempotencyKey.getD [] = [] then (some (.ok (.proposal p)), s)
  else
    let completed := complete s.idempotency (idempotencyKey.getD []) p.value
    (completed.1.map fun _ ↦ .ok (.proposal p), { s with idempotency := completed.2 })

structure InitiateOwnershipTransferParams where
  resourceId : JsString
  resourceType : Option JsString := none
  currentOwner : JsString
  proposedOwner : JsString
  expiresInMs : Option JsNum := none
  priceStroops : Option JsNum := none
  memo : Option JsString := none
  idempotencyKey : Option JsString := none
  correlationId : Option JsString := none
  actor : OwnershipActor
  metadata : Option Fields := none
  now : Option JsNum := none

/-- What a call draws from its environment. -/
structure OwnershipDraw where
  /-- The reading of the clock. -/
  clock : ℤ
  /-- The reading of the clock by the idempotency store. -/
  claimClock : ℤ := clock
  /-- `newCorrelationId()` -/
  correlationId : JsString := []
  /-- The id of a new proposal. -/
  transferId : JsString := []

section

variable (params : InitiateOwnershipTransferParams)

/-- The type of the resource. -/
def InitiateOwnershipTransferParams.kind : JsString :=
  params.resourceType.getD (js "resource")

/-- The request that the idempotency store compares. -/
def InitiateOwnershipTransferParams.request : JsValue :=
  .obj [(js "resourceId", .str params.resourceId), (js "resourceType", .str params.kind),
    (js "currentOwner", .str params.currentOwner), (js "proposedOwner", .str params.proposedOwner)]

/-- `params.expiresInMs ?? DEFAULT_EXPIRY_MS` -/
def InitiateOwnershipTransferParams.window : JsNum :=
  params.expiresInMs.getD (.ofInt defaultExpiryMs)

/-- The refusals of `initiate` that do not depend on the store. -/
def InitiateOwnershipTransferParams.refusal : Option OwnershipErrorCode :=
  let curOwnerNorm := normalizePrincipal params.currentOwner
  let propOwnerNorm := normalizePrincipal params.proposedOwner
  let actorNorm := normalizePrincipal params.actor.id
  if isValidPrincipal curOwnerNorm = false then some .invalidOwner
  else if isValidPrincipal propOwnerNorm = false then some .invalidRecipient
  else if actorNorm ≠ curOwnerNorm ∧ params.actor.kind ≠ .maintainer then
    some .unauthorizedNotOwner
  else if curOwnerNorm = propOwnerNorm then some .cannotTransferToSelf
  else if params.window.less (.ofInt minExpiryMs) ||
      (JsNum.ofInt maxExpiryMs).less params.window then
    some .invalidExpiryWindow
  else none

/-- The conflict check: is there a pending transfer of the resource? An overdue one expires. -/
def findConflict (options : IdempotencyOptions) (s : OwnershipTransferStore) (resKey : JsString)
    (nowMs : JsNum) : Option (Bool × OwnershipTransferStore) :=
  let existingActiveId := (s.activeByResource.get resKey).getD []
  if existingActiveId = [] then some (false, s)
  else
    match s.proposalsById.get existingActiveId with
    | none => some (false, s)
    | some existing =>
      (checkExpiration options s existing nowMs).map fun r ↦ (r.1.status = .pending, r.2)

/-- The new proposal. -/
def InitiateOwnershipTransferParams.proposal (nowMs : JsNum) (correlationId transferId : JsString) :
    Option OwnershipTransferProposal := do
  let createdAt ← Date.textOf nowMs
  let expiresAt ← Date.textOf (nowMs.add params.window)
  some {
    id := transferId
    resourceId := params.resourceId
    resourceType := params.kind
    currentOwner := params.currentOwner
    proposedOwner := params.proposedOwner
    status := .pending
    createdAt := createdAt
    expiresAt := expiresAt
    priceStroops := params.priceStroops
    memo := params.memo
    idempotencyKey := params.idempotencyKey
    correlationId := correlationId
    metadata := params.metadata }

end

/-- The new proposal is filed, and its resource points to it. -/
def OwnershipTransferStore.file (s : OwnershipTransferStore) (p : OwnershipTransferProposal) :
    OwnershipTransferStore :=
  { s with
    proposalsById := s.proposalsById.set p.id p
    activeByResource := s.activeByResource.set (resourceKey p.resourceType p.resourceId) p.id }

section

variable (options : IdempotencyOptions) (s : OwnershipTransferStore)

/-- `initiate(params)`, after the idempotency check. -/
def propose (params : InitiateOwnershipTransferParams) (nowMs : JsNum)
    (correlationId transferId : JsString) : OwnershipReply :=
  match params.refusal with
  | some code => (some (.error (.code code)), s)
  | none =>
    match findConflict options s (resourceKey params.kind params.resourceId) nowMs with
    | none => (none, s)
    | some (true, s) => (some (.error (.code .transferActiveConflict)), s)
    | some (false, s) =>
      match params.proposal nowMs correlationId transferId with
      | none => (none, s)
      | some p => answerWith (s.file p) params.idempotencyKey p

def initiate (params : InitiateOwnershipTransferParams) (draw : OwnershipDraw) : OwnershipReply :=
  let correlationId := params.correlationId.getD draw.correlationId
  let nowMs := params.now.getD (.ofInt draw.clock)
  match replayOrClaim options s params.idempotencyKey (js "ownership.propose") params.request
      correlationId draw.claimClock with
  | (some answer, s) => (answer, s)
  | (none, s) => propose options s params nowMs correlationId draw.transferId

/-- What `accept`, `cancel` and `reject` share: `party` of the proposal may settle it, anybody else
but a maintainer is refused. -/
def settlePending (transferId : JsString) (actor : OwnershipActor) (nowMs : JsNum)
    (party : OwnershipTransferProposal → JsString) (unauthorized : OwnershipErrorCode)
    (settled : OwnershipTransferProposal → JsString → OwnershipTransferProposal) :
    Option (Except OwnershipFailure OwnershipTransferProposal) × OwnershipTransferStore :=
  match s.proposalsById.get transferId with
  | none => (some (.error (.code .transferNotFound)), s)
  | some raw =>
    match checkExpiration options s raw nowMs with
    | none => (none, s)
    | some (p, s) =>
      if p.status = .accepted ∨ p.status = .cancelled ∨ p.status = .rejected then
        (some (.error (.code .transferAlreadySettled)), s)
      else if p.status = .expired then (some (.error (.code .transferExpired)), s)
      else if normalizePrincipal actor.id ≠ normalizePrincipal (party p) ∧
          actor.kind ≠ .maintainer then
        (some (.error (.code unauthorized)), s)
      else
        match Date.textOf nowMs with
        | none => (none, s)
        | some settledAt => (some (.ok (settled p settledAt)), s.settle (settled p settledAt))

structure AcceptOwnershipTransferParams where
  transferId : JsString
  actor : OwnershipActor
  correlationId : Option JsString := none
  idempotencyKey : Option JsString := none
  now : Option JsNum := none

def accept (params : AcceptOwnershipTransferParams) (draw : OwnershipDraw) : OwnershipReply :=
  let correlationId := params.correlationId.getD draw.correlationId
  let nowMs := params.now.getD (.ofInt draw.clock)
  match replayOrClaim options s params.idempotencyKey (js "ownership.accept")
      (.obj [(js "transferId", .str params.transferId)]) correlationId draw.claimClock with
  | (some answer, s) => (answer, s)
  | (none, s) =>
    match settlePending options s params.transferId params.actor nowMs
        OwnershipTransferProposal.proposedOwner .unauthorizedNotRecipient
        (OwnershipTransferProposal.settledAs · .accepted) with
    | (none, s) => (none, s)
    | (some (.error failure), s) => (some (.error failure), s)
    | (some (.ok p), s) => answerWith s params.idempotencyKey p

/-- `CancelOwnershipTransferParams` and `RejectOwnershipTransferParams`: the fields that are
read. -/
structure CloseOwnershipTransferParams where
  transferId : JsString
  actor : OwnershipActor
  reason : Option JsString := none
  now : Option JsNum := none

/-- The metadata with one more entry. -/
def OwnershipTransferProposal.annotate (p : OwnershipTransferProposal) (name : JsString)
    (reason : Option JsString) : OwnershipTransferProposal :=
  { p with metadata := some ((p.metadata.getD []).set name (optional .str reason)) }

def cancel (params : CloseOwnershipTransferParams) (clock : ℤ) :
    Option (Except OwnershipFailure OwnershipTransferProposal) × OwnershipTransferStore :=
  settlePending options s params.transferId params.actor (params.now.getD (.ofInt clock))
    OwnershipTransferProposal.currentOwner .unauthorizedNotOwner
    fun p settledAt ↦ (p.settledAs .cancelled settledAt).annotate (js "cancellationReason")
      params.reason

def reject (params : CloseOwnershipTransferParams) (clock : ℤ) :
    Option (Except OwnershipFailure OwnershipTransferProposal) × OwnershipTransferStore :=
  settlePending options s params.transferId params.actor (params.now.getD (.ofInt clock))
    OwnershipTransferProposal.proposedOwner .unauthorizedNotRecipient
    fun p settledAt ↦ (p.settledAs .rejected settledAt).annotate (js "rejectionReason")
      params.reason

end

end Utix.Ownership

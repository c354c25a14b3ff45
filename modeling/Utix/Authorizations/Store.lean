import Utix.Audit.Trail

/-!
# Delegated authorizations

`createAuthorizationStore` of `core/authorizations/store.ts`. A grantor delegates a scope for a
time; the authorization can be renewed, revoked, or cleaned up after a grace period. Whether it has
expired is not stored: `authorizationState` compares `expiresAt` with the clock.

Every change is put on an audit trail first, and applied only if the trail takes the event. The
clock, the id factory, the recorder and the entitlement hook are what the caller supplies. The clock
is a sequence of readings in whole milliseconds, and each call makes as many as the source does; the
recorder may refuse any event; the hook is a parameter of the calls that ask it. An answer `none` is
the `RangeError` of a time that no `Date` holds.
-/

namespace Utix.Authorizations

open Js Lib
open Audit (AuditActor AuditInput AuditOutcome AuditScope)

/-! ### Authorizations -/

/-- `AuthorizationRecordStatus` -/
inductive RecordStatus
  | active
  | revoked
  | cleaned
deriving DecidableEq

inductive AuthorizationState
  | active
  | renewed
  | expired
  | cleaned
  | revoked
deriving DecidableEq

def AuthorizationState.text : AuthorizationState → JsString
  | .active => js "active"
  | .renewed => js "renewed"
  | .expired => js "expired"
  | .cleaned => js "cleaned"
  | .revoked => js "revoked"

structure Authorization where
  id : JsString
  grantor : JsString
  grantee : JsString
  scope : JsString
  resourceId : Option JsString
  status : RecordStatus
  issuedAt : JsString
  expiresAt : JsString
  renewals : ℕ
  lastRenewedAt : Option JsString := none
  revokedAt : Option JsString := none
  cleanedAt : Option JsString := none
deriving DecidableEq

/-- `AuthorizationErrorCode`; the codes that `authorize` puts together from a state are one. -/
inductive AuthorizationErrorCode
  | invalidAuthorization
  | authorizationNotFound
  | authorization (state : AuthorizationState)
  | grantUnauthorized
  | grantorNotEntitled
  | revokeUnauthorized
  | cleanupUnauthorized
  | renewalUnauthorized
  | renewalNotConfirmed
  | renewalWindowClosed
  | authorizationAuditFailed
deriving DecidableEq

def AuthorizationErrorCode.text : AuthorizationErrorCode → JsString
  | .invalidAuthorization => js "invalid_authorization"
  | .authorizationNotFound => js "authorization_not_found"
  | .authorization state => js "authorization_" ++ state.text
  | .grantUnauthorized => js "grant_unauthorized"
  | .grantorNotEntitled => js "grantor_not_entitled"
  | .revokeUnauthorized => js "revoke_unauthorized"
  | .cleanupUnauthorized => js "cleanup_unauthorized"
  | .renewalUnauthorized => js "renewal_unauthorized"
  | .renewalNotConfirmed => js "renewal_not_confirmed"
  | .renewalWindowClosed => js "renewal_window_closed"
  | .authorizationAuditFailed => js "authorization_audit_failed"

def dayMs : ℤ := 24 * 60 * 60 * 1000

def defaultRenewalGraceMs : ℤ := 7 * dayMs

def maxAuthorizationTtlMs : ℤ := 365 * dayMs

/-- `isLabel(value)`, of a text. -/
def isLabel (value : JsString) : Bool := Ledger.isLabel (.str value)

/-- `SCOPE_PATTERN`, and the same expression `REASON_PATTERN`. -/
def scopePattern : JsString → Bool := Ledger.reasonPattern

/-- `isDuration(value)`, of a whole number. -/
def isDuration (value : ℤ) : Bool := 0 < value && value ≤ maxAuthorizationTtlMs

/-! ### What the caller supplies -/

/-- The id factory of a store that was given none. -/
def defaultId (n : ℕ) : JsString := js "authorization-" ++ (JsNum.ofInt (n + 1)).text

/-- `AuthorizationStoreOptions` -/
structure StoreOptions where
  /-- The readings of the clock. -/
  now : ℕ → ℤ
  /-- The ids that are drawn. -/
  newId : ℕ → JsString := defaultId
  gracePeriodMs : ℤ := defaultRenewalGraceMs
  /-- Whether the trail takes an event, after what was presented to it before. -/
  record : List AuditInput → AuditInput → Bool
  /-- What `Date.parse` makes of a text in none of the forms the language fixes. -/
  otherDate : JsString → Option ℤ := fun _ ↦ none

/-- `canDelegate`, as it answers during a call. -/
abbrev CanDelegate := Option (JsString → JsString → Option JsString → Bool)

/-- The hook is not there, or says yes. -/
def CanDelegate.allows (hook : CanDelegate) (grantor scope : JsString)
    (resourceId : Option JsString) : Bool :=
  hook.all fun canDelegate ↦ canDelegate grantor scope resourceId

/-- An event that was presented to the trail. -/
structure Attempt where
  input : AuditInput
  accepted : Bool

/-- The variables of a store, and the trail. -/
structure Store where
  records : Dict JsString Authorization := .empty
  draws : ℕ := 0
  ticks : ℕ := 0
  trail : List Attempt := []

section

variable (options : StoreOptions)

section

variable (authorization : Authorization)

/-- `Date.parse(authorization.expiresAt)`; `none` is `NaN`. -/
def expiry : Option ℤ :=
  Date.parse options.otherDate authorization.expiresAt

def authorizationState (nowMs : ℤ) : AuthorizationState :=
  if authorization.status = .revoked then .revoked
  else if authorization.status = .cleaned then .cleaned
  else if (expiry options authorization).any fun e ↦ e ≤ nowMs then .expired
  else if authorization.renewals > 0 then .renewed
  else .active

def isUsable (state : AuthorizationState) : Bool := state = .active || state = .renewed

/-- The authorization has been expired for longer than the grace period. -/
def isCleanable (nowMs : ℤ) : Bool :=
  authorizationState options authorization nowMs = .expired &&
    (expiry options authorization).any fun e ↦ nowMs - e > options.gracePeriodMs

end

section

variable (s : Store)

/-- `now()` -/
def tick : ℤ × Store := (options.now s.ticks, { s with ticks := s.ticks + 1 })

/-! ### The audit trail -/

/-- The action that an operation records. -/
inductive AuthorizationAction
  | granted
  | renewed
  | revoked
  | cleanedUp
deriving DecidableEq

/-- The part of an action's text after the dot. -/
def AuthorizationAction.word : AuthorizationAction → JsString
  | .granted => js "granted"
  | .renewed => js "renewed"
  | .revoked => js "revoked"
  | .cleanedUp => js "cleaned_up"

section

variable (action : AuthorizationAction)

def AuthorizationAction.text : JsString :=
  js "authorization." ++ action.word

def snapshot (authorization : Authorization) (at' : ℤ) : Audit.Record where
  fields := [(js "state", .str (authorizationState options authorization at').text),
    (js "expiresAt", .str authorization.expiresAt),
    (js "renewals", .num (JsNum.ofInt authorization.renewals))]
  nodup := show List.Nodup [js "state", js "expiresAt", js "renewals"] by decide

/-- The details of an event. -/
structure AuditDetails where
  reason : Option JsString
  errorCode : Option AuthorizationErrorCode := none
  before : Option Audit.Record := none
  after : Option Audit.Record := none

section

variable (actor : AuditActor) (id : JsString)

/-- The input that `audit` presents to the recorder. -/
def auditInput (outcome : AuditOutcome) (details : AuditDetails) (at' : JsString) : AuditInput where
  action := action.text
  actor := actor
  scope := some (match actor with
    | .user _ => .own
    | _ => .maintainer)
  target := ⟨js "authorization", id⟩
  reason := some ((details.reason.filter scopePattern).getD action.word)
  outcome := some outcome
  before := details.before
  after := details.after
  at' := some at'
  errorCode := details.errorCode.map AuthorizationErrorCode.text

/-- `audit(action, actor, id, outcome, details)`: whether the trail took the event. -/
def audit (outcome : AuditOutcome) (details : AuditDetails) : Option Bool × Store :=
  let (now, s) := tick options s
  match Date.toISOString now with
  | none => (none, s)
  | some at' =>
    let input := auditInput action actor id outcome details at'
    let accepted := options.record (s.trail.map Attempt.input) input
    (some accepted, { s with trail := s.trail ++ [⟨input, accepted⟩] })

/-- What an operation on one authorization answers. -/
abbrev Answer := Option (Except AuthorizationErrorCode Authorization)

def refuse (code : AuthorizationErrorCode) (reason : Option JsString) : Answer × Store :=
  match audit options s action actor id .denied { reason, errorCode := code } with
  | (none, s) => (none, s)
  | (some _, s) => (some (.error code), s)

/-- The end of every operation that changes a record: the event, and if the trail takes it, the
change. -/
def commit (details : AuditDetails) (next : Authorization) : Answer × Store :=
  match audit options s action actor id .allowed details with
  | (none, s) => (none, s)
  | (some false, s) => (some (.error .authorizationAuditFailed), s)
  | (some true, s) => (some (.ok next), { s with records := s.records.set id next })

end

end

def mayManage (actor : AuditActor) (grantor : JsString) : Bool :=
  match actor with
  | .maintainer _ => true
  | .user id => id = grantor
  | .system _ => false

/-! ### Granting -/

/-- `GrantAuthorizationInput` -/
structure GrantInput where
  actor : AuditActor
  grantor : JsString
  grantee : JsString
  scope : JsString
  resourceId : Option JsString := none
  ttlMs : ℤ
  reason : Option JsString := none

section

variable (input : GrantInput)

/-- The checks of `grant` on its input. -/
def GrantInput.isValid : Bool :=
  isLabel input.grantor && isLabel input.grantee && input.grantor ≠ input.grantee &&
    scopePattern input.scope && input.resourceId.all isLabel && isDuration input.ttlMs

/-- The actor may make this grant. -/
def GrantInput.mayGrant (hook : CanDelegate) : Bool :=
  hook.all fun canDelegate ↦
    canDelegate input.grantor input.scope input.resourceId &&
      (input.resourceId.isSome || input.actor matches .maintainer _)

/-- `grant` from its reading of the clock on. -/
def grantAt (id : JsString) (issuedAt : ℤ) : Answer × Store :=
  match Date.toISOString issuedAt, Date.toISOString (issuedAt + input.ttlMs) with
  | some issued, some expires =>
    let authorization : Authorization :=
      { id
        grantor := input.grantor
        grantee := input.grantee
        scope := input.scope
        resourceId := input.resourceId
        status := .active
        issuedAt := issued
        expiresAt := expires
        renewals := 0 }
    commit options s .granted input.actor id
      { reason := input.reason, after := some (snapshot options authorization issuedAt) }
      authorization
  | _, _ => (none, s)

def grant (hook : CanDelegate) : Answer × Store :=
  if input.isValid = false then (some (.error .invalidAuthorization), s)
  else
    let id := options.newId s.draws
    let s := { s with draws := s.draws + 1 }
    if mayManage input.actor input.grantor = false || input.mayGrant hook = false then
      refuse options s .granted input.actor id .grantUnauthorized input.reason
    else
      let (issuedAt, s) := tick options s
      grantAt options s input id issuedAt

end

/-! ### Authorizing -/

structure AuthorizeInput where
  grantee : JsString
  scope : JsString
  resourceId : Option JsString := none

section

variable (input : AuthorizeInput)

/-- The authorization is for the grantee and the scope, and covers the resource. -/
def AuthorizeInput.concerns (entry : Authorization) : Bool :=
  entry.grantee = input.grantee && entry.scope = input.scope &&
    (entry.resourceId = none || entry.resourceId = input.resourceId)

/-- The order in which `authorize` looks for the most recently valid authorization: a difference
that is `NaN` or zero leaves it to the ids. -/
def isNewer (a b : Authorization) : Bool :=
  match expiry options a, expiry options b with
  | some x, some y => decide (y < x) || decide (x = y) && decide (a.id ≤ b.id)
  | _, _ => decide (a.id ≤ b.id)

/-- `candidates` of `authorize` -/
def candidates : List Authorization :=
  s.records.values.filter input.concerns

/-- `live` of `authorize`, at its reading of the clock. -/
def live (at' : ℤ) : List Authorization :=
  (candidates s input).filter fun entry ↦ isUsable (authorizationState options entry at')

/-- What `authorize` answers at its reading of the clock. -/
def authorizeAt (hook : CanDelegate) (at' : ℤ) : Except AuthorizationErrorCode Authorization :=
  match (live options s input at').find? fun entry ↦
      hook.allows entry.grantor entry.scope entry.resourceId with
  | some usable => .ok usable
  | none =>
    if live options s input at' ≠ [] then .error .grantorNotEntitled
    else
      match (candidates s input).insertionSort (fun a b ↦ isNewer options a b = true) with
      | [] => .error .authorizationNotFound
      | latest :: _ => .error (.authorization (authorizationState options latest at'))

def authorize (hook : CanDelegate) : Except AuthorizationErrorCode Authorization × Store :=
  let (at', s) := tick options s
  (authorizeAt options s input hook at', s)

end

/-! ### Renewing and revoking -/

/-- `RenewAuthorizationInput` -/
structure RenewInput where
  id : JsString
  actor : AuditActor
  confirmed : Bool
  extendByMs : ℤ
  reason : Option JsString := none

/-- `renew` from its reading of the clock on. -/
def renewAt (input : RenewInput) (current : Authorization) (at' : ℤ) : Answer × Store :=
  if authorizationState options current at' = .revoked then
    refuse options s .renewed input.actor input.id (.authorization .revoked) input.reason
  else if authorizationState options current at' = .cleaned then
    refuse options s .renewed input.actor input.id (.authorization .cleaned) input.reason
  else if isCleanable options current at' then
    refuse options s .renewed input.actor input.id .renewalWindowClosed input.reason
  else if isDuration input.extendByMs = false then (some (.error .invalidAuthorization), s)
  else
    match (expiry options current).bind fun e ↦
        Date.toISOString (max at' e + input.extendByMs), Date.toISOString at' with
    | some expires, some renewedAt =>
      let renewed : Authorization :=
        { current with
          expiresAt := expires
          renewals := current.renewals + 1
          lastRenewedAt := some renewedAt }
      commit options s .renewed input.actor input.id
        { reason := input.reason
          before := some (snapshot options current at')
          after := some (snapshot options renewed at') }
        renewed
    | _, _ => (none, s)

def renew (input : RenewInput) : Answer × Store :=
  match s.records.get input.id with
  | none => (some (.error .authorizationNotFound), s)
  | some current =>
    if mayManage input.actor current.grantor = false then
      refuse options s .renewed input.actor input.id .renewalUnauthorized input.reason
    else if input.confirmed = false then
      refuse options s .renewed input.actor input.id .renewalNotConfirmed input.reason
    else
      let (at', s) := tick options s
      renewAt options s input current at'

/-- `RevokeAuthorizationInput` -/
structure RevokeInput where
  id : JsString
  actor : AuditActor
  reason : Option JsString := none

/-- `revoke` from its reading of the clock on. -/
def revokeAt (input : RevokeInput) (current : Authorization) (at' : ℤ) : Answer × Store :=
  if authorizationState options current at' = .revoked then
    refuse options s .revoked input.actor input.id (.authorization .revoked) input.reason
  else if authorizationState options current at' = .cleaned then
    refuse options s .revoked input.actor input.id (.authorization .cleaned) input.reason
  else
    match Date.toISOString at' with
    | none => (none, s)
    | some revokedAt =>
      let revoked : Authorization :=
        { current with status := .revoked, revokedAt := some revokedAt }
      commit options s .revoked input.actor input.id
        { reason := input.reason
          before := some (snapshot options current at')
          after := some (snapshot options revoked at') }
        revoked

def revoke (input : RevokeInput) : Answer × Store :=
  match s.records.get input.id with
  | none => (some (.error .authorizationNotFound), s)
  | some current =>
    if mayManage input.actor current.grantor = false then
      refuse options s .revoked input.actor input.id .revokeUnauthorized input.reason
    else
      let (at', s) := tick options s
      revokeAt options s input current at'

/-! ### Reporting and cleaning up -/

/-- The authorizations in the order of their ids. -/
def sortById (entries : List Authorization) : List Authorization :=
  (sortKeys (entries.map fun entry ↦ (entry.id, entry))).map Prod.snd

/-- `StaleAuthorizationReport` -/
structure StaleReport where
  generatedAt : JsString
  expired : List Authorization
  cleanable : List Authorization
  expiringSoon : List Authorization

def report (expiringWithinMs : Option ℤ) : Option StaleReport × Store :=
  let (at', s) := tick options s
  let all := sortById s.records.values
  ((Date.toISOString at').map fun generatedAt ↦
    { generatedAt
      expired := all.filter fun entry ↦ authorizationState options entry at' = .expired
      cleanable := all.filter fun entry ↦ isCleanable options entry at'
      expiringSoon := all.filter fun entry ↦
        isUsable (authorizationState options entry at') &&
          (expiry options entry).any fun e ↦ e - at' ≤ expiringWithinMs.getD 0 }, s)

/-- `CleanupAuthorizationsInput` -/
structure CleanupInput where
  actor : AuditActor
  reason : Option JsString := none

structure CleanupResult where
  cleaned : List JsString := []
  skipped : List JsString := []

/-- One pass of the loop of `cleanup`. -/
def cleanOne (input : CleanupInput) (at' : ℤ) (entry : Authorization) : Answer × Store :=
  match Date.toISOString at' with
  | none => (none, s)
  | some cleanedAt =>
    let next : Authorization := { entry with status := .cleaned, cleanedAt := some cleanedAt }
    commit options s .cleanedUp input.actor entry.id
      { reason := input.reason
        before := some (snapshot options entry at')
        after := some (snapshot options next at') }
      next

end

/-- The loop of `cleanup` at the time `at'`. -/
def cleanupLoop (input : CleanupInput) (at' : ℤ) :
    List Authorization → CleanupResult → Store → Option CleanupResult × Store
  | [], result, s => (some result, s)
  | entry :: due, result, s =>
    match cleanOne options s input at' entry with
    | (none, s) => (none, s)
    | (some (.error _), s) =>
      cleanupLoop input at' due { result with skipped := result.skipped ++ [entry.id] } s
    | (some (.ok _), s) =>
      cleanupLoop input at' due { result with cleaned := result.cleaned ++ [entry.id] } s

def cleanup (s : Store) (input : CleanupInput) :
    Option (Except AuthorizationErrorCode CleanupResult) × Store :=
  match input.actor with
  | .user _ =>
    match refuse options s .cleanedUp input.actor (js "all") .cleanupUnauthorized input.reason with
    | (none, s) => (none, s)
    | (some _, s) => (some (.error .cleanupUnauthorized), s)
  | _ =>
    let (at', s) := tick options s
    let due := sortById (s.records.values.filter fun entry ↦ isCleanable options entry at')
    let (result, s) := cleanupLoop options input at' due {} s
    (result.map .ok, s)

/-! ### Runs -/

/-- A call of the store. -/
inductive AuthCall
  | grant (input : GrantInput) (hook : CanDelegate)
  | authorize (input : AuthorizeInput) (hook : CanDelegate)
  | renew (input : RenewInput)
  | revoke (input : RevokeInput)
  | report (expiringWithinMs : Option ℤ)
  | cleanup (input : CleanupInput)

/-- What a call answers. -/
inductive AuthAnswer
  | change (answer : Answer)
  | authorized (answer : Except AuthorizationErrorCode Authorization)
  | reported (answer : Option StaleReport)
  | cleaned (answer : Option (Except AuthorizationErrorCode CleanupResult))

def answer (s : Store) : AuthCall → AuthAnswer × Store
  | .grant input hook => (grant options s input hook).map .change id
  | .authorize input hook => (authorize options s input hook).map .authorized id
  | .renew input => (renew options s input).map .change id
  | .revoke input => (revoke options s input).map .change id
  | .report window => (report options s window).map .reported id
  | .cleanup input => (cleanup options s input).map .cleaned id

/-- A call, the first reading of the clock it could make, and its answer. -/
structure LogEntry where
  call : AuthCall
  at' : ℤ
  answer : AuthAnswer

/-- A store, and the calls that were made of it. -/
structure Run where
  log : List LogEntry := []
  store : Store := {}

def runStep (r : Run) (call : AuthCall) : Run where
  log := r.log ++ [⟨call, options.now r.store.ticks, (answer options r.store call).1⟩]
  store := (answer options r.store call).2

end

end Utix.Authorizations

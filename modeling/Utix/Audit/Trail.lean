import Utix.Ledger.Calls
import Utix.Lib.Dict
import Utix.Lib.Run
import Utix.Telemetry.Again

/-!
# The audit trail

`createAuditTrail` of `core/audit/audit.ts`, and `verifyAuditTrail` of `core/ledger/ledger.ts`,
which compares a trail with the ledger it is attached to.

The trail keeps no state of its own. `record` reads every event back, adds one, and writes the whole
list redacted, so an event is redacted once when it is recorded and once more with every later
record: `once` and `twice` are the two forms it is ever stored in. The ledger gets the digest of the
second form.

A user reads the events whose scope is `own` and whose `actorId` is theirs. What kind of actor
recorded them is not looked at.
-/

namespace Utix.Audit

open Js JsValue Telemetry List Fields
open Ledger (Storage Runtime LedgerInput)

/-! ### Events -/

inductive AuditScope
  | own
  | maintainer
deriving DecidableEq

def AuditScope.text : AuditScope → JsString
  | .own => js "own"
  | .maintainer => js "maintainer"

def AuditActor.kind : AuditActor → JsString
  | .user _ => js "user"
  | .maintainer _ => js "maintainer"
  | .system _ => js "system"

def AuditActor.id? : AuditActor → Option JsString
  | .user id => some id
  | .maintainer id => some id
  | .system id => id

/-- The actor, as an object. -/
def AuditActor.value (actor : AuditActor) : JsValue :=
  .obj [(js "kind", .str actor.kind), (js "id", Ledger.optional actor.id?)]

structure AuditTarget where
  kind : JsString
  id : JsString

structure AuditInput where
  action : JsString
  actor : AuditActor
  scope : Option AuditScope := none
  target : AuditTarget
  reason : Option JsString := none
  outcome : Option AuditOutcome := none
  before : Option Record := none
  after : Option Record := none
  at' : Option JsString := none
  correlationId : Option JsString := none
  errorCode : Option JsString := none

/-- `AuditErrorCode`, as far as `record` and `query` answer it. -/
inductive AuditErrorCode
  | auditDenied
  | invalidAuditField
deriving DecidableEq

def isAction : JsValue → Bool
  | .str s => sensitiveActions.contains s
  | _ => false

def isEvent (v : JsValue) : Bool :=
  v.isObject && (v.get (js "id")).isString && isAction (v.get (js "action")) &&
    (v.get (js "actorId")).isString &&
    (v.get (js "scope") == .str (js "own") || v.get (js "scope") == .str (js "maintainer")) &&
    ((v.get (js "target")).get (js "kind")).isString &&
    ((v.get (js "target")).get (js "id")).isString &&
    (v.get (js "outcome") == .str (js "allowed") || v.get (js "outcome") == .str (js "denied")) &&
    (v.get (js "at")).isString && (v.get (js "correlationId")).isString

/-! ### Recording -/

/-- One call of `record`, with what it draws: the ids of `newId`, and the readings of the trail's
and the ledger's clock. -/
structure RecordCall where
  input : AuditInput
  id : JsString
  freshCorrelation : JsString
  now : ℤ
  ledgerNow : ℤ

/-- The checks `record` makes on its input. -/
def AuditInput.isValid (input : AuditInput) : Bool :=
  isAction (.str input.action) && Ledger.isLabel (.str input.target.kind) &&
    Ledger.isLabel (.str input.target.id) && input.reason.all Ledger.reasonPattern

/-- `input.actor.id ?? input.actor.kind` -/
def AuditInput.actorId (input : AuditInput) : JsString := input.actor.id?.getD input.actor.kind

/-- `input.scope ?? (input.actor.kind === "maintainer" ? "maintainer" : "own")` -/
def AuditInput.scopeOf (input : AuditInput) : AuditScope :=
  input.scope.getD (if input.actor.kind = js "maintainer" then .maintainer else .own)

/-- A context, or nothing. -/
def contextField (value : Option Record) : JsValue :=
  match auditContext value with
  | some fields => .obj fields
  | none => .undefined

/-- The fields of the event `record` makes. -/
def eventFields (c : RecordCall) (instant : JsString) : Fields :=
  [(js "id", .str c.id),
    (js "action", .str c.input.action),
    (js "actor", c.input.actor.value),
    (js "actorId", .str c.input.actorId),
    (js "scope", .str c.input.scopeOf.text),
    (js "target", .obj [(js "kind", .str c.input.target.kind),
      (js "id", .str (scrubSecrets c.input.target.id))]),
    (js "reason", Ledger.optional c.input.reason),
    (js "outcome", .str (c.input.outcome.getD .allowed).text),
    (js "before", contextField c.input.before),
    (js "after", contextField c.input.after),
    (js "at", .str instant),
    (js "correlationId", .str (c.input.correlationId.getD c.freshCorrelation)),
    (js "errorCode", Ledger.optional c.input.errorCode)]

/-- The key the events are stored under. -/
def auditStorageKey : JsString := js "utix:audit:v1:events"

def readAll (storage : Storage) : List JsValue :=
  match storage auditStorageKey with
  | none => []
  | some raw =>
    if raw = [] then []
    else
      match parse raw with
      | some (.arr events) => events.filter isEvent
      | _ => []

def writeAll (storage : Storage) (events : List JsValue) : Storage :=
  storage.setItem auditStorageKey (stringify (redact false 0 (.arr events)))

/-- `auditEventDigest(event)`; `none` is an exception. -/
def auditEventDigest (rt : Runtime) (event : JsValue) : Option JsString :=
  (Ledger.canonicalJson (redact false 0 event)).map fun text ↦ (rt.sha256Hex text).1

/-- `{ eventAt: event.at, reason: event.reason ?? null }` -/
def ledgerData (event : JsValue) : Record where
  fields := [(js "eventAt", event.get (js "at")),
    (js "reason", if event.get (js "reason") = .undefined then .null else event.get (js "reason"))]
  nodup := show List.Nodup [js "eventAt", js "reason"] by decide

/-- `ledgerInputForAudit(event)`; `none` is an exception. -/
def ledgerInputForAudit (rt : Runtime) (event : JsValue) : Option LedgerInput :=
  (auditEventDigest rt event).map fun digest ↦
    { kind := .privileged
      action := (event.get (js "action")).asStr
      actorId := (event.get (js "actorId")).asStr
      subject := ⟨((event.get (js "target")).get (js "kind")).asStr,
        ((event.get (js "target")).get (js "id")).asStr⟩
      outcome := some (if event.get (js "outcome") = .str (js "denied") then .denied else .allowed)
      data := some (ledgerData event)
      ref := some (event.get (js "id")).asStr
      refDigest := some digest }

/-- The storage of the trail and the storage of its ledger. -/
structure Stores where
  trail : Storage
  ledger : Storage

/-- `commitToLedger(event)`: whether the ledger took the event, and its storage afterwards. An
exception is swallowed. -/
def commitToLedger (rt : Runtime) (ledger : Storage) (event : JsValue) (now : ℤ) : Bool × Storage :=
  match (parse (stringify (redact false 0 event))).bind (ledgerInputForAudit rt) with
  | none => (false, ledger)
  | some input =>
    match Ledger.append rt ledger input now with
    | (some (.ok _), ledger') => (true, ledger')
    | (_, ledger') => (false, ledger')

/-- What `record` answers: the event, and whether its ledger took it. -/
structure Recorded where
  event : JsValue
  anchored : Bool

/-- `record(input)`; `none` is an exception. -/
def record (rt : Runtime) (s : Stores) (c : RecordCall) :
    Option (Except AuditErrorCode Recorded) × Stores :=
  if c.input.isValid = false then (some (.error .invalidAuditField), s)
  else
    match c.input.at' <|> Date.toISOString c.now with
    | none => (none, s)
    | some instant =>
      let event : JsValue := .obj (eventFields c instant)
      if isEvent event = false then (some (.error .invalidAuditField), s)
      else
        let trail := writeAll s.trail (readAll s.trail ++ [event])
        let (anchored, ledger) := commitToLedger rt s.ledger event c.ledgerNow
        (some (.ok ⟨event, anchored⟩), ⟨trail, ledger⟩)

/-! ### Reading -/

def auditDefaultLimit : ℕ := 500

structure AuditFilter where
  action : Option JsString := none
  actorId : Option JsString := none
  targetKind : Option JsString := none
  targetId : Option JsString := none
  outcome : Option AuditOutcome := none
  from' : Option JsString := none
  to' : Option JsString := none
  limit : Option ℤ := none

structure AuditPage where
  events : List JsValue
  total : ℕ
  hasMore : Bool
deriving DecidableEq

/-- A text that is set and not empty. -/
def given (s : Option JsString) : Option JsString := s.filter (· ≠ [])

def authorizeAuditRead (actor : AuditActor) (requestedScope : AuditScope) :
    Except AuditErrorCode AuditScope :=
  match actor with
  | .maintainer _ => .ok requestedScope
  | .user id =>
    if requestedScope = .maintainer then .error .auditDenied
    else if id = [] then .error .auditDenied
    else .ok .own
  | .system _ => .error .auditDenied

def AuditFilter.matches (filter : AuditFilter) (event : JsValue) : Bool :=
  ((given filter.action).all fun s ↦ event.get (js "action") == .str s) &&
    ((given filter.actorId).all fun s ↦ event.get (js "actorId") == .str s) &&
    ((given filter.targetKind).all fun s ↦ (event.get (js "target")).get (js "kind") == .str s) &&
    ((given filter.targetId).all fun s ↦ (event.get (js "target")).get (js "id") == .str s) &&
    (filter.outcome.all fun o ↦ event.get (js "outcome") == .str o.text) &&
    ((given filter.from').all fun s ↦ !decide ((event.get (js "at")).asStr < s)) &&
    ((given filter.to').all fun s ↦ decide ((event.get (js "at")).asStr < s))

/-- What an actor may see of the trail. -/
def isVisible (actor : AuditActor) (event : JsValue) : Bool :=
  match actor with
  | .maintainer _ => true
  | _ => event.get (js "scope") == .str (js "own") &&
      event.get (js "actorId") == Ledger.optional actor.id?

/-- `query(actor, filter)`, with the `limit` option of the trail. -/
def query (limit : Option ℤ) (trail : Storage) (actor : AuditActor) (filter : AuditFilter) :
    Except AuditErrorCode AuditPage :=
  match authorizeAuditRead actor
      (if (given filter.actorId).isSome then .maintainer else .own) with
  | .error code => .error code
  | .ok _ =>
    if actor.kind ≠ js "maintainer" ∧ (given filter.actorId).isSome ∧
        given filter.actorId ≠ actor.id? then .error .auditDenied
    else
      let matched := ((readAll trail).filter (isVisible actor)).filter filter.matches
      let cap := (max 1 (filter.limit.getD (max 1 (limit.getD auditDefaultLimit)))).toNat
      let events := matched.drop (matched.length - cap)
      .ok ⟨events, matched.length, decide (events.length < matched.length)⟩

/-! ### The cross check -/

structure AuditCrossCheck where
  anchored : ℕ
  tampered : List JsValue
  unanchored : List JsValue
  missing : List JsValue
deriving DecidableEq

/-- The map `committed`: the digest under each reference. -/
def committed (entries : List JsValue) : Lib.Dict JsValue JsValue :=
  entries.foldl (fun d entry ↦
    if (entry.get (js "ref")).truthy && (entry.get (js "refDigest")).truthy then
      d.set (entry.get (js "ref")) (entry.get (js "refDigest"))
    else d) .empty

/-- The loop of `verifyAuditTrail` over the events; `none` is an exception. -/
def crossCheckLoop (rt : Runtime) (digests : Lib.Dict JsValue JsValue) :
    AuditCrossCheck → List JsValue → Option AuditCrossCheck
  | acc, [] => some acc
  | acc, event :: rest =>
    let id := event.get (js "id")
    match digests.get id with
    | none => crossCheckLoop rt digests { acc with unanchored := acc.unanchored ++ [id] } rest
    | some digest =>
      match auditEventDigest rt event with
      | none => none
      | some found =>
        if digest ≠ .str found then
          crossCheckLoop rt digests { acc with tampered := acc.tampered ++ [id] } rest
        else crossCheckLoop rt digests { acc with anchored := acc.anchored + 1 } rest

/-- `verifyAuditTrail(trail, ledger)`; `none` is an exception. -/
def verifyAuditTrail (rt : Runtime) (trail ledger : Storage) : Option AuditCrossCheck :=
  let events := readAll trail
  let digests := committed (Ledger.entries ledger)
  (crossCheckLoop rt digests ⟨0, [], [], []⟩ events).map fun check ↦
    { check with
      missing := (digests.entries.map Prod.fst).filter fun id ↦
        !(events.map fun event ↦ event.get (js "id")).contains id }

/-! ### The two stored forms of an event -/

/-- An event as it is first stored. -/
def once (event : JsValue) : JsValue := jsonOf (redact false 1 event)

/-- An event as it is stored after a later record. -/
def twice (event : JsValue) : JsValue := redact false 1 (once event)

def eventKeys : List JsString :=
  [js "id", js "action", js "actor", js "actorId", js "scope", js "target", js "reason",
    js "outcome", js "before", js "after", js "at", js "correlationId", js "errorCode"]

theorem eventKeys_plain : ∀ key ∈ eventKeys, key ≠ js "__proto__" ∧ isSensitiveKey key = false := by
  decide +kernel

theorem nodup_eventKeys : eventKeys.Nodup := by decide

/-- An optional text is flat. -/
theorem fitsIn_optional (n : ℕ) (s : Option JsString) : FitsIn n (Ledger.optional s) := by
  cases s <;> cases n <;> trivial

variable {v : JsValue}

theorem fitsIn_contextValue {entry : JsValue} (h : contextValue entry = some v) : FitsIn 0 v := by
  cases entry <;> simp only [contextValue, Option.some.injEq, reduceCtorEq] at h <;>
    try (subst h; trivial)
  split at h
  · cases h
    trivial
  · cases h

/-- A context is one level deep. -/
theorem fitsIn_contextField (value : Option Record) : FitsIn 1 (contextField value) := by
  rcases value with - | record
  · trivial
  rw [contextField, auditContext]
  split
  · next fields h =>
    split at h
    · cases h
    · cases h
      exact forall_mem_contextFields trivial fun _ _ ↦ fitsIn_contextValue
  · trivial

/-- **An event is at most two deep.** -/
theorem fitsIn_event (c : RecordCall) (instant : JsString) :
    FitsIn 2 (.obj (eventFields c instant)) := by
  have hstr : ∀ s, FitsIn 1 (.str s) := fitsIn_str 1
  have hactor : FitsIn 1 c.input.actor.value := by
    intro f hf
    simp only [mem_cons, not_mem_nil, or_false] at hf
    rcases hf with rfl | rfl
    · trivial
    · exact fitsIn_optional 0 _
  have htarget : FitsIn 1 (.obj [(js "kind", .str c.input.target.kind),
      (js "id", .str (scrubSecrets c.input.target.id))]) := by
    intro f hf
    simp only [mem_cons, not_mem_nil, or_false] at hf
    rcases hf with rfl | rfl <;> trivial
  intro f hf
  simp only [eventFields, mem_cons, not_mem_nil, or_false] at hf
  rcases hf with rfl | rfl | rfl | rfl | rfl | rfl | rfl | rfl | rfl | rfl | rfl | rfl | rfl
  exacts [hstr _, hstr _, hactor, hstr _, hstr _, htarget, fitsIn_optional 1 _, hstr _,
    fitsIn_contextField _, fitsIn_contextField _, hstr _, hstr _, fitsIn_optional 1 _]

theorem wellFormed_optional (s : Option JsString) : (Ledger.optional s).WellFormed := by
  cases s <;> trivial

theorem wellFormed_contextField (value : Option Record) : (contextField value).WellFormed := by
  rw [contextField]
  split
  · next fields h => exact wellFormed_auditContext h
  · trivial

/-- An event has distinct keys, at every level. -/
theorem wellFormed_event (c : RecordCall) (instant : JsString) :
    (JsValue.obj (eventFields c instant)).WellFormed := by
  have hactor : c.input.actor.value.WellFormed :=
    ⟨show List.Nodup [js "kind", js "id"] by decide, trivial, wellFormed_optional _, trivial⟩
  have htarget : (JsValue.obj [(js "kind", .str c.input.target.kind),
      (js "id", .str (scrubSecrets c.input.target.id))]).WellFormed :=
    ⟨show List.Nodup [js "kind", js "id"] by decide, trivial, trivial, trivial⟩
  exact ⟨nodup_eventKeys, trivial, trivial, hactor, trivial, trivial, htarget,
    wellFormed_optional _, trivial, wellFormed_contextField _, wellFormed_contextField _, trivial,
    trivial, wellFormed_optional _, trivial⟩

/-! ### What redaction and JSON leave of an event -/

variable {w : JsValue}

theorem exists_obj_of_get (key : JsString) (h : w.get key ≠ .undefined) : ∃ fs, w = .obj fs := by
  cases w with
  | obj fs => exact ⟨fs, rfl⟩
  | _ => exact absurd rfl h

section Fields

variable {w : JsValue} {key k s : JsString} {d : ℕ}

/-- A plain field of a redacted value is the redacted field. -/
theorem get_redact (hd : d < maxRedactDepth) (hproto : key ≠ js "__proto__")
    (hplain : isSensitiveKey key = false) (h : w.get key ≠ .undefined) :
    (redact false d w).get key = redact false (d + 1) (w.get key) := by
  obtain ⟨fs, rfl⟩ := exists_obj_of_get key h
  rw [redact, if_neg (not_le.2 hd), JsValue.get, get_redactFields hproto hplain]
  rfl

theorem get_redact_str (hd : d < maxRedactDepth) (hproto : key ≠ js "__proto__")
    (hplain : isSensitiveKey key = false) (h : w.get key = .str s) :
    (redact false d w).get key = .str (scrubString s) := by
  rw [get_redact hd hproto hplain (by rw [h]; simp), h, redact, if_neg Bool.false_ne_true]

theorem get_jsonOf_str (hw : w.WellFormed) (h : w.get key = .str s) :
    (jsonOf w).get key = .str s := by
  obtain ⟨fs, rfl⟩ := exists_obj_of_get key (by rw [h]; simp)
  have hget : get fs key = .str s := h
  rw [jsonOf, JsValue.get, get_jsonOfFields (wellFormed_obj.1 hw).1, hget]
  rfl

theorem get_jsonOf_get_str (hw : w.WellFormed) (h : (w.get key).get k = .str s) :
    ((jsonOf w).get key).get k = .str s := by
  obtain ⟨gs, hgs⟩ := exists_obj_of_get (w := w.get key) k (by rw [h]; simp)
  obtain ⟨fs, rfl⟩ := exists_obj_of_get (w := w) key (by rw [hgs]; simp)
  have hget : get fs key = .obj gs := hgs
  have hread : (jsonOf (.obj fs)).get key = jsonOf (.obj gs) := by
    rw [jsonOf, JsValue.get, get_jsonOfFields (wellFormed_obj.1 hw).1, hget]
    rfl
  have hwf : (JsValue.obj gs).WellFormed := by
    have hmem : (key, get fs key) ∈ fs := get_mem (by rw [hget]; simp)
    rw [hget] at hmem
    exact (wellFormed_obj.1 hw).2 _ hmem
  rw [hread]
  exact get_jsonOf_str hwf (hgs ▸ h)

end Fields

/-- What makes a value an event. -/
structure EventTexts (v : JsValue) : Prop where
  id : ∃ s, v.get (js "id") = .str s
  action : ∃ s ∈ sensitiveActions, v.get (js "action") = .str s
  actorId : ∃ s, v.get (js "actorId") = .str s
  scope : ∃ s : AuditScope, v.get (js "scope") = .str s.text
  kind : ∃ s, (v.get (js "target")).get (js "kind") = .str s
  target : ∃ s, (v.get (js "target")).get (js "id") = .str s
  outcome : ∃ o : AuditOutcome, v.get (js "outcome") = .str o.text
  at' : ∃ s, v.get (js "at") = .str s
  correlationId : ∃ s, v.get (js "correlationId") = .str s

theorem isAction_iff : isAction v = true ↔ ∃ s ∈ sensitiveActions, v = .str s := by
  cases v <;> simp [isAction]

/-- What the reader of the trail accepts as an event. -/
theorem isEvent_iff : isEvent v = true ↔ EventTexts v := by
  have hscope : ∀ w : JsValue, (w = .str (js "own") ∨ w = .str (js "maintainer")) ↔
      ∃ s : AuditScope, w = .str s.text := fun w ↦
    ⟨fun h ↦ h.elim (fun h ↦ ⟨.own, h⟩) fun h ↦ ⟨.maintainer, h⟩, by
      rintro ⟨_ | _, h⟩
      · exact .inl h
      · exact .inr h⟩
  have houtcome : ∀ w : JsValue, (w = .str (js "allowed") ∨ w = .str (js "denied")) ↔
      ∃ o : AuditOutcome, w = .str o.text := fun w ↦
    ⟨fun h ↦ h.elim (fun h ↦ ⟨.allowed, h⟩) fun h ↦ ⟨.denied, h⟩, by
      rintro ⟨_ | _, h⟩
      · exact .inl h
      · exact .inr h⟩
  simp only [isEvent, Bool.and_eq_true, Bool.or_eq_true, beq_iff_eq, isString_iff, isAction_iff,
    hscope, houtcome]
  constructor
  · rintro ⟨⟨⟨⟨⟨⟨⟨⟨⟨-, hid⟩, haction⟩, hactor⟩, hscope⟩, hkind⟩, htarget⟩, hout⟩, hat⟩, hcorr⟩
    exact ⟨hid, haction, hactor, hscope, hkind, htarget, hout, hat, hcorr⟩
  intro h
  obtain ⟨s, hs⟩ := h.id
  obtain ⟨fs, rfl⟩ := exists_obj_of_get (w := v) (js "id") (by rw [hs]; simp)
  exact ⟨⟨⟨⟨⟨⟨⟨⟨⟨rfl, h.id⟩, h.action⟩, h.actorId⟩, h.scope⟩, h.kind⟩, h.target⟩, h.outcome⟩,
    h.at'⟩, h.correlationId⟩

/-- The scope of an event survives redaction. -/
theorem scrubString_scope (s : AuditScope) : scrubString s.text = s.text := by
  cases s <;> decide +kernel

theorem targetKeys_plain : ∀ key ∈ [js "kind", js "id"],
    key ≠ js "__proto__" ∧ isSensitiveKey key = false := by
  decide +kernel

namespace EventTexts

variable {v : JsValue}

/-- **A redacted event is an event.** -/
theorem redact (h : EventTexts v) {d : ℕ} (hd : d + 1 < maxRedactDepth) :
    EventTexts (Telemetry.redact false d v) := by
  have htext : ∀ key ∈ eventKeys, ∀ s, v.get key = .str s →
      (Telemetry.redact false d v).get key = .str (scrubString s) := fun key hkey s hs ↦
    get_redact_str (by omega) (eventKeys_plain key hkey).1 (eventKeys_plain key hkey).2 hs
  have htarget : ∀ key ∈ [js "kind", js "id"], ∀ s, (v.get (js "target")).get key = .str s →
      ((Telemetry.redact false d v).get (js "target")).get key = .str (scrubString s) := by
    intro key hkey s hs
    obtain ⟨hproto, hplain⟩ := eventKeys_plain (js "target") (by decide)
    obtain ⟨gs, hgs⟩ := exists_obj_of_get (w := v.get (js "target")) key
      (by rw [hs]; simp)
    rw [get_redact (by omega) hproto hplain (by rw [hgs]; simp)]
    exact get_redact_str hd (targetKeys_plain key hkey).1 (targetKeys_plain key hkey).2 hs
  obtain ⟨id, hid⟩ := h.id
  obtain ⟨action, hmem, haction⟩ := h.action
  obtain ⟨actorId, hactorId⟩ := h.actorId
  obtain ⟨scope, hscope⟩ := h.scope
  obtain ⟨kind, hkind⟩ := h.kind
  obtain ⟨target, htargetId⟩ := h.target
  obtain ⟨outcome, houtcome⟩ := h.outcome
  obtain ⟨instant, hat⟩ := h.at'
  obtain ⟨correlation, hcorr⟩ := h.correlationId
  exact
    { id := ⟨_, htext _ (by decide) _ hid⟩
      action := ⟨action, hmem, by
        rw [htext _ (by decide) _ haction, Ledger.scrubString_action
          (mem_append_left _ (mem_append_left _ hmem))]⟩
      actorId := ⟨_, htext _ (by decide) _ hactorId⟩
      scope := ⟨scope, by rw [htext _ (by decide) _ hscope, scrubString_scope]⟩
      kind := ⟨_, htarget _ (by decide) _ hkind⟩
      target := ⟨_, htarget _ (by decide) _ htargetId⟩
      outcome := ⟨outcome, by rw [htext _ (by decide) _ houtcome, Ledger.scrubString_outcome]⟩
      at' := ⟨_, htext _ (by decide) _ hat⟩
      correlationId := ⟨_, htext _ (by decide) _ hcorr⟩ }

/-- The JSON reading of an event is an event. -/
theorem jsonOf (h : EventTexts v) (hv : v.WellFormed) : EventTexts (JsValue.jsonOf v) where
  id := h.id.imp fun _ ↦ get_jsonOf_str hv
  action := h.action.imp fun _ hs ↦ ⟨hs.1, get_jsonOf_str hv hs.2⟩
  actorId := h.actorId.imp fun _ ↦ get_jsonOf_str hv
  scope := h.scope.imp fun _ ↦ get_jsonOf_str hv
  kind := h.kind.imp fun _ ↦ get_jsonOf_get_str hv
  target := h.target.imp fun _ ↦ get_jsonOf_get_str hv
  outcome := h.outcome.imp fun _ ↦ get_jsonOf_str hv
  at' := h.at'.imp fun _ ↦ get_jsonOf_str hv
  correlationId := h.correlationId.imp fun _ ↦ get_jsonOf_str hv

end EventTexts

/-! ### Reading back what was recorded -/

/-- Whatever is stored, what is read are events in JSON. -/
theorem of_mem_readAll {storage : Storage} (h : w ∈ readAll storage) :
    w.IsJson ∧ isEvent w = true := by
  rw [readAll] at h
  split at h
  · cases h
  split at h
  · cases h
  split at h
  · next events hparse =>
    obtain ⟨hmem, hevent⟩ := mem_filter.1 h
    exact ⟨isJson_arr.1 (isJson_of_parse hparse) w hmem, hevent⟩
  · cases h

theorem stringify_ne_nil {xs : List JsValue} : stringify (.arr xs) ≠ [] := by
  rw [stringify]
  simp

/-- **What is written is read back**: the old events redacted, the new one redacted and in JSON. -/
theorem readAll_writeAll (storage : Storage) {ws : List JsValue}
    (hws : ∀ w ∈ ws, w.IsJson ∧ isEvent w = true) (hv : v.WellFormed) (hevent : isEvent v = true) :
    readAll (writeAll storage (ws ++ [v])) = ws.map (redact false 1) ++ [once v] := by
  have hred : redact false 0 (.arr (ws ++ [v])) =
      .arr (ws.map (redact false 1) ++ [redact false 1 v]) := by
    rw [redact, if_neg (by decide), redactElems_eq_map, map_append]
    rfl
  have hold : ∀ w ∈ ws, jsonOf (redact false 1 w) = redact false 1 w := fun w hw ↦
    jsonOf_eq_self (isJson_redact (hws w hw).1 1)
  have hjson : jsonOf (redact false 0 (.arr (ws ++ [v]))) =
      .arr (ws.map (redact false 1) ++ [once v]) := by
    rw [hred, jsonOf, jsonOfElems_eq_map, map_append, map_map]
    exact congrArg JsValue.arr (congrArg (· ++ [once v]) (map_congr_left hold))
  have hwf : (JsValue.arr (ws ++ [v])).WellFormed := by
    refine wellFormed_arr.2 fun x hx ↦ ?_
    rcases mem_append.1 hx with hx | hx
    · exact wellFormed_of_isJson (hws x hx).1
    · rw [mem_singleton.1 hx]
      exact hv
  have hne : stringify (redact false 0 (.arr (ws ++ [v]))) ≠ [] := hred ▸ stringify_ne_nil
  rw [readAll, writeAll, Ledger.setItem_self]
  simp only [if_neg hne, parse_stringify_jsonOf (wellFormed_redact hwf), hjson]
  refine filter_eq_self.2 fun x hx ↦ isEvent_iff.2 ?_
  rcases mem_append.1 hx with hx | hx
  · obtain ⟨w, hw, rfl⟩ := mem_map.1 hx
    exact (isEvent_iff.1 (hws w hw).2).redact (by decide)
  · rw [mem_singleton.1 hx]
    exact ((isEvent_iff.1 hevent).redact (by decide)).jsonOf (wellFormed_redact hv)

/-- The event a call of `record` makes, if it is not refused. -/
def eventOf (c : RecordCall) : Option JsValue :=
  if c.input.isValid then
    ((c.input.at' <|> Date.toISOString c.now).map fun instant ↦ .obj (eventFields c instant)).filter
      isEvent
  else none

/-- The event that a call records has the shape that is read back. -/
theorem eventOf_eq_some {c : RecordCall} {event : JsValue} (h : eventOf c = some event) :
    isEvent event = true ∧ ∃ instant, event = .obj (eventFields c instant) := by
  rw [eventOf] at h
  split at h
  · obtain ⟨hmade, hevent⟩ := Option.filter_eq_some_iff.1 h
    obtain ⟨instant, -, rfl⟩ := Option.map_eq_some_iff.1 hmade
    exact ⟨hevent, instant, rfl⟩
  · cases h

/-- **What `record` does**: it refuses and leaves both storages alone, or it makes an event, adds it
to the trail and offers it to the ledger. -/
theorem record_cases (rt : Runtime) (s : Stores) (c : RecordCall) :
    (eventOf c = none ∧ (record rt s c).2 = s ∧ ∀ r, (record rt s c).1 ≠ some (.ok r)) ∨
      ∃ event, eventOf c = some event ∧
        record rt s c =
          (some (.ok ⟨event, (commitToLedger rt s.ledger event c.ledgerNow).1⟩),
            ⟨writeAll s.trail (readAll s.trail ++ [event]),
              (commitToLedger rt s.ledger event c.ledgerNow).2⟩) := by
  by_cases hvalid : c.input.isValid = true
  · rw [record, eventOf, if_pos hvalid, if_neg (by simp [hvalid])]
    rcases hinstant : (c.input.at' <|> Date.toISOString c.now) with - | instant
    · exact .inl ⟨rfl, rfl, by simp⟩
    by_cases hevent : isEvent (.obj (eventFields c instant)) = true
    · refine .inr ⟨_, Option.filter_some_pos hevent, ?_⟩
      simp only [hevent, Bool.true_eq_false, if_false]
    have hfalse : isEvent (.obj (eventFields c instant)) = false := by simpa using hevent
    refine .inl ⟨Option.filter_some_neg hfalse, ?_⟩
    simp only [hfalse, if_true]
    exact ⟨trivial, by simp⟩
  · rw [record, eventOf, if_neg hvalid, if_pos (by simpa using hvalid)]
    exact .inl ⟨rfl, rfl, by simp⟩

/-! ### Runs -/

/-- A successful call of `record`: the event it made, and whether the ledger took it. -/
structure Logged where
  call : RecordCall
  event : JsValue
  anchored : Bool

/-- The storages, and the successful records so far. -/
structure AuditState where
  stores : Stores
  log : List Logged

/-- The effect of a call of `record`. -/
def auditStep (rt : Runtime) (s : AuditState) (c : RecordCall) : AuditState :=
  match record rt s.stores c with
  | (some (.ok r), stores) => ⟨stores, s.log ++ [⟨c, r.event, r.anchored⟩]⟩
  | (_, stores) => ⟨stores, s.log⟩

/-- **What a call does**: nothing, or it adds an event to the trail and to the log. -/
theorem auditStep_cases (rt : Runtime) (s : AuditState) (c : RecordCall) :
    (eventOf c = none ∧ auditStep rt s c = s) ∨
      ∃ event, eventOf c = some event ∧ auditStep rt s c =
        ⟨⟨writeAll s.stores.trail (readAll s.stores.trail ++ [event]),
            (commitToLedger rt s.stores.ledger event c.ledgerNow).2⟩,
          s.log ++ [⟨c, event, (commitToLedger rt s.stores.ledger event c.ledgerNow).1⟩]⟩ := by
  rcases record_cases rt s.stores c with ⟨hnone, hsame, hnot⟩ | ⟨event, hevent, heq⟩
  · refine .inl ⟨hnone, ?_⟩
    rw [auditStep]
    split
    · next r stores heq => exact absurd (congrArg Prod.fst heq) (hnot r)
    · next stores _ heq =>
      obtain rfl : stores = s.stores := (congrArg Prod.snd heq).symm.trans hsame
      rfl
  · refine .inr ⟨event, hevent, ?_⟩
    rw [auditStep, heq]

/-- The log grows by the call. -/
theorem mem_log_auditStep {rt : Runtime} {s : AuditState} {c : RecordCall} {r : Logged}
    (h : r ∈ (auditStep rt s c).log) : r ∈ s.log ∨ r.call = c := by
  rcases auditStep_cases rt s c with ⟨-, hsame⟩ | ⟨event, -, hstep⟩
  · exact .inl (hsame ▸ h)
  · rw [hstep] at h
    rcases mem_append.1 h with hold | hnew
    · exact .inl hold
    · exact .inr (by rw [mem_singleton.1 hnew])

/-- The stored value is one of the two forms of the recorded event. -/
structure Logged.KeptAs (r : Logged) (w : JsValue) : Prop where
  made : eventOf r.call = some r.event
  form : w = once r.event ∨ w = twice r.event

/-- **The trail holds the log**, event by event. -/
def Kept (s : AuditState) : Prop := List.Forall₂ Logged.KeptAs s.log (readAll s.stores.trail)

variable {s : AuditState}

theorem exists_of_forall₂ {α β : Type} {R : α → β → Prop} {xs : List α} {ys : List β} {y : β}
    (h : List.Forall₂ R xs ys) (hy : y ∈ ys) : ∃ x ∈ xs, R x y := by
  induction h with
  | nil => cases hy
  | cons hx _ ih =>
    rcases mem_cons.1 hy with rfl | hy
    · exact ⟨_, mem_cons_self, hx⟩
    · obtain ⟨x, hmem, hx⟩ := ih hy
      exact ⟨x, mem_cons_of_mem _ hmem, hx⟩

/-- What is stored was recorded. -/
theorem Kept.exists_logged (h : Kept s) (hw : w ∈ readAll s.stores.trail) :
    ∃ r ∈ s.log, r.KeptAs w :=
  exists_of_forall₂ h hw

variable {r : Logged}

/-- The second form is final. -/
theorem redact_twice (v : JsValue) : redact false 1 (twice v) = twice v :=
  redact_redact (secretFree_redact v 1).jsonOf 1

/-- Another redaction leaves an event in one of its two forms. -/
theorem Logged.KeptAs.redact (h : r.KeptAs w) : r.KeptAs (Telemetry.redact false 1 w) := by
  refine ⟨h.made, .inr ?_⟩
  rcases h.form with rfl | rfl
  · rfl
  · exact redact_twice r.event

/-- **The trail goes on holding the log.** -/
theorem kept_auditStep {rt : Runtime} (h : Kept s) (c : RecordCall) : Kept (auditStep rt s c) := by
  rcases auditStep_cases rt s c with ⟨-, heq⟩ | ⟨event, hmade, heq⟩
  · rw [heq]
    exact h
  obtain ⟨hevent, instant, rfl⟩ := eventOf_eq_some hmade
  rw [heq, Kept, readAll_writeAll _ (fun w ↦ of_mem_readAll) (wellFormed_event c instant) hevent]
  refine rel_append ?_ ?_
  · exact forall₂_map_right_iff.2 (h.imp fun _ _ ↦ Logged.KeptAs.redact)
  · exact .cons ⟨hmade, .inl rfl⟩ .nil

/-- What is in the log, call by call. -/
theorem log_run (rt : Runtime) (s : AuditState) (calls : List RecordCall) :
    (Lib.run (auditStep rt) s calls).log.map (fun r ↦ (r.call, r.event)) =
      s.log.map (fun r ↦ (r.call, r.event)) ++
        calls.filterMap fun c ↦ (eventOf c).map fun event ↦ (c, event) := by
  induction calls generalizing s with
  | nil => simp
  | cons c calls ih =>
    rw [Lib.run_cons, ih]
    rcases auditStep_cases rt s c with ⟨hnone, heq⟩ | ⟨event, hmade, heq⟩
    · rw [heq, filterMap_cons_none (by rw [hnone]; rfl)]
    · rw [heq, filterMap_cons_some (by rw [hmade]; rfl)]
      simp

/-- Nothing recorded yet. -/
structure AuditState.Fresh (s : AuditState) : Prop where
  log : s.log = []
  trail : readAll s.stores.trail = []

/-- **The trail holds the log after every run.** -/
theorem kept_run {rt : Runtime} (h : s.Fresh) (calls : List RecordCall) :
    Kept (Lib.run (auditStep rt) s calls) := by
  refine Lib.run_invariant Kept (fun s c hs ↦ kept_auditStep hs c) ?_ calls
  rw [Kept, h.log, h.trail]
  exact .nil

/-! ### The fields of a stored event -/

theorem fitsIn_once {n : ℕ} (h : FitsIn n v) : FitsIn n (once v) :=
  fitsIn_jsonOf (fitsIn_redact h 1)

/-- A text of an event is stored scrubbed. -/
theorem get_once_str {fs : Fields} (hwf : (JsValue.obj fs).WellFormed) {key t : JsString}
    (hkey : key ∈ eventKeys) (h : fs.get key = .str t) :
    (once (.obj fs)).get key = .str (scrubString t) :=
  get_jsonOf_str (wellFormed_redact hwf)
    (get_redact_str (by decide) (eventKeys_plain key hkey).1 (eventKeys_plain key hkey).2 h)

/-- A text of an event is stored scrubbed once or twice. -/
theorem Logged.KeptAs.get_str (h : r.KeptAs w) (key : JsString) {t : JsString}
    (hkey : key ∈ eventKeys) (ht : ∀ instant, (eventFields r.call instant).get key = .str t) :
    w.get key = .str (scrubString t) ∨ w.get key = .str (scrubString (scrubString t)) := by
  obtain ⟨hmade, hform⟩ := h
  obtain ⟨-, instant, hevent⟩ := eventOf_eq_some hmade
  have hwf := wellFormed_event r.call instant
  rcases hform with rfl | rfl <;> rw [hevent]
  · exact .inl (get_once_str hwf hkey (ht instant))
  · exact .inr (get_redact_str (by decide) (eventKeys_plain key hkey).1 (eventKeys_plain key hkey).2
      (get_once_str hwf hkey (ht instant)))

end Utix.Audit

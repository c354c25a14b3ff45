import Utix.Telemetry.Redact

/-!
# Audit vocabulary and contexts

The part of `core/audit/audit.ts` that the ledger is built on: the sensitive actions, the actors and
outcomes, and `auditContext`, which turns a caller's `Record<string, unknown>` into a small map of
scalars.

A `Record` carries the proof that its keys are distinct: a JavaScript object cannot hold a key
twice, and no value with a repeated key can be built here either.

`contextValue` keeps null, booleans, finite numbers and texts, scrubs the secrets of a text and cuts
it to a fixed length, and skips everything else. Under a sensitive key only the mark is kept. The
number of fields is bounded, and they stay in the order of the keys, which matters to the ledger: it
hashes them in that order. What is proved here is what building an entry needs: keys stay distinct,
and no value of a context has parts of its own.
-/

namespace Utix.Audit

open Js Telemetry List

/-- A plain object that a caller passes in. -/
structure Record where
  fields : Fields
  nodup : fields.keys.Nodup

inductive AuditOutcome
  | allowed
  | denied
deriving DecidableEq

def AuditOutcome.text : AuditOutcome → JsString
  | .allowed => js "allowed"
  | .denied => js "denied"

inductive AuditActor
  | user (id : JsString)
  | maintainer (id : JsString)
  | system (id : Option JsString)
deriving DecidableEq

/-- `SENSITIVE_ACTIONS`, with the two entries the source lists twice. -/
def sensitiveActions : List JsString :=
  [js "record.state_changed", js "record.transition_denied", js "export.generated",
    js "notification.published", js "notification.cleared", js "reconciliation.reported",
    js "reconciliation.repaired", js "idempotency.claim_released", js "quota.override_granted",
    js "quota.override_revoked", js "quota.override_granted", js "quota.override_revoked",
    js "projection.replayed", js "projection.activated", js "admin.config_changed",
    js "impersonation.session_started", js "impersonation.session_ended",
    js "impersonation.session_expired", js "impersonation.action",
    js "impersonation.mutation_blocked", js "authorization.granted", js "authorization.renewed",
    js "authorization.revoked", js "authorization.cleaned_up",
    js "notification_preferences.updated", js "notification_preferences.reset",
    js "notification.suppressed_by_preference", js "notification.mandatory_override",
    js "freeze.bypassed", js "freeze.bypass_denied", js "service_mode.changed",
    js "service_mode.expired"]

def auditMaxContextKeys : ℕ := 12

def auditMaxValueLength : ℕ := 160

/-! ### Scrubbing with word boundaries -/

/-- The unit before a position is a word unit. -/
def afterWord (prev : Option UInt16) : Bool := prev.any isWord

/-- `\b` at position `i` of a text, `i > 0`. -/
def isBoundary (s : JsString) (i : ℕ) : Bool := s[i - 1]?.any isWord != s[i]?.any isWord

/-- `EMBEDDED_SECRET`: `/\b[SM][A-Z2-7]{55}\b/` -/
def embeddedSecret : Matcher := fun prev s ↦
  if afterWord prev then none
  else (keyLength isSecretMark s).bind fun n ↦ if isBoundary s n then some n else none

/-- `EMBEDDED_BEARER`: `/\bBearer\s+…\b/i`, where the greedy run of token units gives back units
until it ends at a word boundary. -/
def embeddedBearer : Matcher := fun prev s ↦
  if afterWord prev then none
  else
    (bearerParts s).bind fun p ↦
      ((List.range p.2).reverse.find? fun k ↦ isBoundary s (p.1 + k + 1)).map fun k ↦ p.1 + k + 1

def scrubSecrets (s : JsString) : JsString :=
  replaceAll embeddedBearer redacted (replaceAll embeddedSecret redacted s)

/-! ### Contexts -/

def sensitiveKeyPattern (key : JsString) : Bool :=
  [js "secret", js "seed", js "key", js "token", js "password", js "passphrase", js "auth",
    js "credential", js "bearer", js "cookie"].any (includesFold · key)

/-- What a context keeps of an entry under a key that is not sensitive; `none` when the entry is
skipped. -/
def contextValue : JsValue → Option JsValue
  | .undefined => some .null
  | .null => some .null
  | .bool b => some (.bool b)
  | .num n => if n.isFinite then some (.num n) else none
  | .str s => some (.str ((scrubSecrets s).take auditMaxValueLength))
  | .arr _ => none
  | .obj _ => none
  | .foreign _ => none

/-- The loop of `auditContext`, with the number of keys counted so far. Assigning `__proto__` counts
and adds no own property. -/
def contextFields : ℕ → Fields → Fields
  | _, [] => []
  | keys, (key, entry) :: rest =>
    if auditMaxContextKeys ≤ keys then []
    else
      match if sensitiveKeyPattern key then some (.str redacted) else contextValue entry with
      | none => contextFields keys rest
      | some v =>
        if key = js "__proto__" then contextFields (keys + 1) rest
        else (key, v) :: contextFields (keys + 1) rest

/-- `auditContext(value)`; `none` is `undefined`. -/
def auditContext (value : Option Record) : Option Fields :=
  match value with
  | none => none
  | some record =>
    let out := contextFields 0 record.fields
    if out = [] then none else some out

/-- The keys of a context are among those it was made from, in their order. -/
theorem keys_contextFields_sublist (keys : ℕ) (fs : Fields) :
    (contextFields keys fs).keys.Sublist fs.keys := by
  induction fs generalizing keys with
  | nil => exact List.Sublist.slnil
  | cons f fs ih =>
    obtain ⟨key, entry⟩ := f
    rw [contextFields]
    split
    · exact nil_sublist _
    split
    · exact (ih keys).trans (sublist_cons_self _ _)
    · split
      · exact (ih _).trans (sublist_cons_self _ _)
      · exact (ih _).cons_cons key

/-- A value of a context is a scalar. -/
theorem wellFormed_contextValue {entry v : JsValue} (h : contextValue entry = some v) :
    v.WellFormed := by
  cases entry <;> simp only [contextValue, Option.some.injEq, reduceCtorEq] at h <;>
    try (subst h; trivial)
  split at h
  · cases h
    trivial
  · cases h

/-- What holds of the mark and of every kept value holds of every value of a context. -/
theorem forall_mem_contextFields {P : JsValue → Prop} (hmark : P (.str redacted))
    (hkept : ∀ entry v, contextValue entry = some v → P v) {keys : ℕ} {fs : Fields} :
    ∀ f ∈ contextFields keys fs, P f.2 := by
  induction fs generalizing keys with
  | nil => exact nofun
  | cons f fs ih =>
    obtain ⟨key, entry⟩ := f
    rw [contextFields]
    split
    · exact nofun
    split
    · exact ih
    next v hv =>
    have hval : P v := by
      split at hv
      · obtain rfl := Option.some.inj hv
        exact hmark
      · exact hkept _ v hv
    split
    · exact ih
    intro g hg
    rcases mem_cons.1 hg with rfl | hg
    · exact hval
    · exact ih g hg

/-- **A context is a well-formed map.** -/
theorem wellFormed_auditContext {value : Option Record} {out : Fields}
    (h : auditContext value = some out) : (JsValue.obj out).WellFormed := by
  rcases value with - | record
  · exact absurd h (by simp [auditContext])
  simp only [auditContext] at h
  split at h
  · cases h
  cases h
  exact JsValue.wellFormed_obj.2
    ⟨record.nodup.sublist (keys_contextFields_sublist 0 _),
      forall_mem_contextFields trivial fun _ _ ↦ wellFormed_contextValue⟩

end Utix.Audit

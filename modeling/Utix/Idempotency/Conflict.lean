import Utix.Idempotency.Interleaved
import Utix.Ledger.Canonical

/-!
# Conflicting requests

A `begin` compares the digest of its request with the recorded one. The canonical text under the
digest determines the request as a JSON value (`canonicalize_eq_iff`), but the digest has 32 bits
only, so **a conflict is missed exactly when two canonical texts collide**
(`detectsConflict_iff`).

The store and the ledger each have a function that writes a canonical text. Without bigints the two
texts are the same (`canonicalJson_eq_canonicalize`), so what is known about the text of the ledger
carries over. The digest is the one of the source, computed and not assumed: `Collide` is a
statement about two texts that can be evaluated, and the two requests at the end of the module are a
collision that was found.
-/

namespace Utix.Idempotency

open Js JsValue Ledger

variable {xs : List JsValue} {fs : Fields} {v w : JsValue}

/-- The two canonical texts of an array agree if those of its elements do. -/
theorem canonicalElems_eq_some (h : ∀ x ∈ xs, canonicalJson x = some (canonicalize x)) :
    canonicalElems xs = some (canonicalizeElems xs) := by
  induction xs with
  | nil => rfl
  | cons x xs ih =>
    obtain ⟨hx, hxs⟩ := List.forall_mem_cons.1 h
    rw [canonicalElems, hx, ih hxs, canonicalizeElems]

/-- The two canonical texts of an object agree if those of its fields do. -/
theorem canonicalFields_eq_some (h : ∀ f ∈ fs, canonicalJson f.2 = some (canonicalize f.2)) :
    canonicalFields fs = some (canonicalizeFields fs) := by
  induction fs with
  | nil => rfl
  | cons f fs ih =>
    obtain ⟨hf, hfs⟩ := List.forall_mem_cons.1 h
    rw [canonicalFields, canonicalizeFields, ih hfs, hf]
    split <;> rfl

/-- Without bigints the store and the ledger write the same canonical text. -/
theorem canonicalJson_eq_canonicalize (h : hasBigint v = false) :
    canonicalJson v = some (canonicalize v) := by
  induction v using JsValue.induct with
  | arr xs ih =>
    rw [canonicalJson, canonicalElems_eq_some fun x hx ↦ ih x hx (hasBigintElems_iff.1 h x hx),
      canonicalize]
    rfl
  | obj fs ih =>
    rw [canonicalJson, canonicalFields_eq_some fun f hf ↦ ih f hf (hasBigintFields_iff.1 h f hf),
      canonicalize]
    rfl
  | foreign kind => cases kind <;> first | rfl | cases h
  | _ => rfl

/-- A request that has a JSON reading: objects have distinct keys, and nothing is a bigint. -/
def JsonReadable (v : JsValue) : Prop := v.WellFormed ∧ hasBigint v = false

/-- **The canonical text determines the JSON value**, and nothing more. -/
theorem canonicalize_eq_iff (hv : JsonReadable v) (hw : JsonReadable w) :
    canonicalize v = canonicalize w ↔ asJson v = asJson w := by
  have htv := canonicalJson_eq_canonicalize hv.2
  have htw := canonicalJson_eq_canonicalize hw.2
  refine ⟨fun h ↦ asJson_eq_of_canonicalJson_eq hv.1 hw.1 htv (h ▸ htw), fun h ↦ ?_⟩
  rw [canonicalJson_eq htv, canonicalJson_eq htw, h]

/-- The texts of two requests collide: they differ, and their digests do not. -/
def Collide (v w : JsValue) : Prop :=
  canonicalize v ≠ canonicalize w ∧ requestDigest v = requestDigest w

/-- **Conflicts are detected**: a replay is for the recorded request and operation, and any other
`begin` is told of the conflict. -/
def DetectsConflict (record : IdempotencyRecord) (recorded : JsValue) (request : BeginRequest)
    (answer : Option (Except IdempotencyErrorCode BeginOutcome)) : Prop :=
  ((∃ outcome, answer = some (.ok outcome)) →
    asJson request.request = asJson recorded ∧ record.operation = request.operation) ∧
  (¬(asJson request.request = asJson recorded ∧ record.operation = request.operation) →
    answer = some (.error .idempotencyKeyConflict))

/-- **A conflict is detected exactly if it is not hidden by a collision**, for every completed
record that has not expired and every request. -/
theorem detectsConflict_iff (options : IdempotencyOptions) (s : Store) (request : BeginRequest)
    (now : ℤ) (freshId : JsString) {key : JsString} {record : IdempotencyRecord}
    {recorded : JsValue} (hkey : request.key = some key)
    (hvalid : isValidIdempotencyKey key = true) (hread : read s key = some record)
    (hlive : expiredAt options record now = false) (hdone : record.hasStatus .completed = true)
    (hhash : record.requestHash = requestDigest recorded) (hrecorded : JsonReadable recorded)
    (hrequest : JsonReadable request.request) :
    DetectsConflict record recorded request (begin options s request now freshId).1 ↔
      (record.operation = request.operation → ¬Collide request.request recorded) := by
  have hne : key ≠ [] := by rintro rfl; cases hvalid
  have hdigest : request.digest = requestDigest request.request := by
    rw [BeginRequest.digest]
    split
    · next hnone => rw [hnone]; rfl
    · rfl
  have hstatus : record.hasStatus .inFlight = false := by
    rw [IdempotencyRecord.hasStatus, of_decide_eq_true hdone]
    decide
  have hsame := canonicalize_eq_iff hrequest hrecorded
  by_cases hgo : record.requestHash = request.digest ∧ record.operation = request.operation
  · obtain ⟨n, t, hbegin⟩ := begin_replays hkey hvalid hread hlive hgo.1 hgo.2 hstatus freshId
    have heq : requestDigest request.request = requestDigest recorded := by
      rw [← hdigest, ← hgo.1, hhash]
    simp [DetectsConflict, hbegin, hgo.2, Collide, heq, hsame]
  · have hbegin : (begin options s request now freshId).1 =
        some (.error .idempotencyKeyConflict) := by
      simp only [begin, hkey, if_neg hne, hvalid, Bool.true_eq_false, if_false, hread, hlive,
        Bool.false_eq_true]
      by_cases hh : record.requestHash = request.digest
      · rw [if_neg (not_not.2 hh), if_pos fun hop ↦ hgo ⟨hh, hop⟩]
      · rw [if_pos hh]
    rw [hbegin]
    refine iff_of_true ⟨?_, fun _ ↦ rfl⟩ fun hop hcollide ↦ hgo ⟨?_, hop⟩
    · rintro ⟨_, h⟩
      cases h
    · rw [hhash, hdigest, hcollide.2]

section

variable (amount : ℤ)

/-- A request to pay an amount. -/
def payRequest : BeginRequest where
  key := some (js "order-0001")
  operation := js "order.pay"
  request := .obj [(js "amount", .num (JsNum.ofInt amount))]

/-- The store after such a request was paid. -/
def paidStore : Store :=
  (complete (begin {} {} (payRequest amount) 0 (js "c1")).2 (js "order-0001") (.bool true)).2

/-- **A payment of 1080726 is answered with the record of a payment of 813499.** -/
theorem replayed_for_another_amount :
    ((begin {} (paidStore 813499) (payRequest 1080726) 1 (js "c2")).1.map fun answer ↦
      answer.toOption.map BeginOutcome.replay) = some (some true) ∧
    asJson (payRequest 1080726).request ≠ asJson (payRequest 813499).request := by
  decide +kernel

theorem readable_payRequest : JsonReadable (payRequest amount).request :=
  ⟨wellFormed_obj.2 ⟨List.nodup_singleton _, List.forall_mem_singleton.2 trivial⟩, rfl⟩

/-- The record of the payment. -/
def paidRecord : IdempotencyRecord :=
  (read (paidStore amount) (js "order-0001")).getD ⟨[]⟩

end

/-- Another amount with another digest is a conflict. -/
theorem detectsConflict_iff_pay :
    DetectsConflict (paidRecord 5) (payRequest 5).request (payRequest 7)
      (begin {} (paidStore 5) (payRequest 7) 1 (js "c2")).1 :=
  (detectsConflict_iff {} (paidStore 5) (payRequest 7) 1 (js "c2") rfl (by decide)
    (by decide +kernel) (by decide +kernel) (by decide +kernel) (by decide +kernel)
    (readable_payRequest 5) (readable_payRequest 7)).2
    fun _ hcollide ↦ absurd hcollide.2 (by decide +kernel)

end Utix.Idempotency

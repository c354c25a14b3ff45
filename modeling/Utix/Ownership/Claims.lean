import Utix.Idempotency.Interleaved
import Utix.Ownership.Lapse

/-!
# The claim of a refused call

`initiate` and `accept` claim their idempotency key before they look at anything else, and complete
it once they have done their work. In between are the refusals, and none of them concludes or
abandons the claim. So a refused call has left its key as it was only if there was a record of it
already: a new claim is in flight from then on, and the same call made again is refused for that.

`claim_released_iff` is stated for the calls of the store as they are, at any state and with any
actor. The proof follows the order of the source: claiming the key comes first, and each of the
later parts is shown to leave the idempotency store alone when it refuses. A refusal by the
idempotency store itself is not meant.
-/

namespace Utix.Ownership

open Js Idempotency

variable {options : IdempotencyOptions} {s s' : OwnershipTransferStore} {nowMs : JsNum}
  {key correlationId transferId : JsString}

/-! ### Calls with a key -/

/-- A call that claims a key. -/
inductive ClaimingCall
  | initiate (params : InitiateOwnershipTransferParams)
  | accept (params : AcceptOwnershipTransferParams)

namespace ClaimingCall

def idempotencyKey : ClaimingCall → Option JsString
  | initiate params => params.idempotencyKey
  | accept params => params.idempotencyKey

/-- The call, and what it leaves. -/
def run (options : IdempotencyOptions) (s : OwnershipTransferStore) (draw : OwnershipDraw) :
    ClaimingCall → OwnershipReply
  | initiate params => Ownership.initiate options s params draw
  | accept params => Ownership.accept options s params draw

end ClaimingCall

/-! ### The claim -/

variable {operation : JsString} {request : JsValue}

/-- **A call that goes on holds a new claim, or goes on with a settled record.** -/
theorem inFlightAt_replayOrClaim {clock : ℤ} (hkey : key ≠ [])
    (h : replayOrClaim options s (some key) operation request correlationId clock = (none, s')) :
    inFlightAt s'.idempotency key = (read s.idempotency key).isNone := by
  simp only [replayOrClaim, Option.getD_some, if_neg hkey] at h
  have heffect := begin_effect options s.idempotency
    ⟨some key, operation, request, some correlationId⟩ clock correlationId
  generalize begin options s.idempotency ⟨some key, operation, request, some correlationId⟩ clock
    correlationId = reply at h heffect
  cases heffect with
  | refused answer hanswer =>
    split at h
    · cases h
    · cases h
    · next outcome hok => exact absurd hok (hanswer outcome)
  | expired _ _ => cases h
  | claimed hsome hread hwrite =>
    cases hsome
    cases h
    rw [hread, inFlightAt, read_write (readable_claimRecord ..) hwrite]
    exact (congrArg (Option.any _) (if_pos rfl)).trans
      (hasStatus_stored (readable_claimRecord ..) .inFlight)
  | replayed hsome hread hstatus hn hwrite =>
    cases hsome
    have hreadable := (readable_of_read hread).assign_replays hn
    dsimp only at h
    split at h
    · cases h
    cases h
    rw [inFlightAt, read_write hreadable hwrite, hread]
    split
    · rw [Option.any_some, hasStatus_stored hreadable, IdempotencyRecord.hasStatus,
        get_assign_of_ne (by decide)]
      exact hstatus
    · exact hstatus

/-- Claiming a key is refused with codes of the idempotency store only. -/
theorem replayOrClaim_ne_code {idempotencyKey : Option JsString} {clock : ℤ}
    {code : OwnershipErrorCode} :
    replayOrClaim options s idempotencyKey operation request correlationId clock ≠
      (some (some (.error (.code code))), s') := by
  simp only [replayOrClaim]
  split
  · simp
  split
  · simp
  · simp
  · split <;> simp

/-! ### The refusals -/

/-- Looking for expiry touches no claim. -/
theorem idempotency_checkExpiration {p q : OwnershipTransferProposal}
    (h : checkExpiration options s p nowMs = some (q, s')) : s'.idempotency = s.idempotency := by
  rcases checkExpiration_cases h with ⟨-, rfl⟩ | ⟨-, -, -, rfl⟩
  · rfl
  · rfl

variable {failure : OwnershipFailure}

/-- A refused proposal touches no claim. -/
theorem idempotency_propose {params : InitiateOwnershipTransferParams}
    (h : propose options s params nowMs correlationId transferId = (some (.error failure), s')) :
    s'.idempotency = s.idempotency := by
  rw [propose] at h
  split at h
  · cases h
    rfl
  split at h
  · cases h
  · next hconflict =>
    cases h
    obtain rfl | ⟨_, _, _, _, hcheck⟩ := findConflict_cases hconflict
    · rfl
    · exact idempotency_checkExpiration hcheck
  split at h
  · cases h
  · exact absurd (congrArg Prod.fst h) (answerWith_ne_error _ _ _ _)

/-- A refused settlement touches no claim. -/
theorem idempotency_settlePending {actor : OwnershipActor}
    {party : OwnershipTransferProposal → JsString} {unauthorized : OwnershipErrorCode}
    {settled : OwnershipTransferProposal → JsString → OwnershipTransferProposal}
    (h : settlePending options s transferId actor nowMs party unauthorized settled =
      (some (.error failure), s')) : s'.idempotency = s.idempotency := by
  rw [settlePending] at h
  split at h
  · cases h
    rfl
  split at h
  · cases h
  next hcheck =>
  have hkept := idempotency_checkExpiration hcheck
  split_ifs at h
  · cases h
    exact hkept
  · cases h
    exact hkept
  · cases h
    exact hkept
  split at h
  · cases h
  · cases h

/-- **A refused call has left no claim in flight iff its key had a record before**: every refusal
keeps the claim that the call has made. -/
theorem claim_released_iff (options : IdempotencyOptions) (s : OwnershipTransferStore)
    (call : ClaimingCall) (draw : OwnershipDraw) {code : OwnershipErrorCode}
    (hsome : call.idempotencyKey = some key) (hkey : key ≠ [])
    (h : call.run options s draw = (some (.error (.code code)), s')) :
    inFlightAt s'.idempotency key = false ↔ (read s.idempotency key).isSome = true := by
  have hclaimed : inFlightAt s'.idempotency key = (read s.idempotency key).isNone := by
    cases call with
    | initiate params =>
      simp only [ClaimingCall.run, initiate, show params.idempotencyKey = some key from hsome] at h
      split at h
      · next hrefused =>
        cases h
        exact absurd hrefused replayOrClaim_ne_code
      · next hclaim =>
        rw [idempotency_propose h]
        exact inFlightAt_replayOrClaim hkey hclaim
    | accept params =>
      simp only [ClaimingCall.run, accept, show params.idempotencyKey = some key from hsome] at h
      split at h
      · next hrefused =>
        cases h
        exact absurd hrefused replayOrClaim_ne_code
      next hclaim =>
      split at h
      · cases h
      · next hsettle =>
        cases h
        rw [idempotency_settlePending hsettle]
        exact inFlightAt_replayOrClaim hkey hclaim
      · exact absurd (congrArg Prod.fst h) (answerWith_ne_error _ _ _ _)
  rw [hclaimed]
  cases read s.idempotency key <;> simp

/-- `ALICE` hands a ticket to `CAROL`, who has this long to accept. -/
def handover (expiresInMs : ℤ) : InitiateOwnershipTransferParams :=
  { resourceId := js "t1", currentOwner := js "ALICE", proposedOwner := js "CAROL",
    expiresInMs := some (.ofInt expiresInMs), idempotencyKey := some (js "handover-1"),
    actor := ⟨.user, js "ALICE"⟩ }

/-- What the refused call leaves. -/
def refused : OwnershipReply := initiate {} {} (handover 1000) { clock := 0 }

/-- **A window of a second is refused, and so is the corrected call**: the key is in flight. -/
theorem refused_call_keeps_claim :
    refused.1 = some (.error (.code .invalidExpiryWindow)) ∧
    inFlightAt refused.2.idempotency (js "handover-1") = true ∧
    (initiate {} refused.2 (handover 3600000) { clock := 5 }).1 =
      some (.error (.idempotency .idempotencyInFlight)) := by
  decide +kernel

/-- A refused handover under a new key leaves its claim in flight. -/
theorem claim_released_iff_handover :
    inFlightAt refused.2.idempotency (js "handover-1") = false ↔
      (read (Store.mk .empty []) (js "handover-1")).isSome = true :=
  claim_released_iff {} {} (.initiate (handover 1000)) { clock := 0 } rfl (by decide)
    (Prod.ext (by decide +kernel : refused.1 = some (.error (.code .invalidExpiryWindow))) rfl)

end Utix.Ownership

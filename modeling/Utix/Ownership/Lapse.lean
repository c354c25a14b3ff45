import Utix.Ownership.Store

/-!
# What a call does to the proposals

Looking at a proposal may expire it, so hardly any call leaves the proposals exactly as they were.
`Lapsed` is what a call does that achieves nothing else: some proposals that were overdue at its
time have expired, and every other one is as it was. A call that is refused does that and no more
(`settlePending_lapsed`, `accept_lapsed`); one that succeeds rewrites one pending proposal
(`settlePending_ok`) or files a new one (`initiate_cases`).

All of it needs that proposals lie under their own ids, `Filed`, because the code looks them up
under a key and writes them back under their id.
-/

namespace Utix.Ownership

open Js Lib Idempotency Option

/-- The proposals by their ids. -/
abbrev Proposals := Dict JsString OwnershipTransferProposal

/-- Every proposal lies under its own id. -/
def Filed (proposals : Proposals) : Prop := ∀ id p, proposals.get id = some p → p.id = id

/-- **Overdue proposals have expired, at one of these times, and nothing else has changed.** -/
def Lapsed (options : IdempotencyOptions) (times : List JsNum) (before after : Proposals) : Prop :=
  ∀ id, after.get id = before.get id ∨
    ∃ p nowMs settledAt, before.get id = some p ∧ nowMs ∈ times ∧ isOverdue options p nowMs = true ∧
      after.get id = some (p.settledAs .expired settledAt)

variable {options : IdempotencyOptions} {times : List JsNum} {before after : Proposals}
  {s s' : OwnershipTransferStore} {nowMs : JsNum}

theorem Lapsed.refl (options : IdempotencyOptions) (times : List JsNum) (proposals : Proposals) :
    Lapsed options times proposals proposals := fun _ ↦ .inl rfl

variable {p : OwnershipTransferProposal}

/-- Only a pending proposal can be overdue. -/
theorem pending_of_isOverdue (h : isOverdue options p nowMs = true) : p.status = .pending := by
  simp only [isOverdue, Bool.and_eq_true, decide_eq_true_eq] at h
  exact h.1

section

variable (h : Lapsed options times before after)
include h

theorem Lapsed.trans {last : Proposals} (h' : Lapsed options times after last) :
    Lapsed options times before last := by
  intro id
  rcases h' id with heq | ⟨p, nowMs, settledAt, hp, htime, hdue, hlast⟩
  · rw [heq]
    exact h id
  rcases h id with heq | ⟨q, _, _, _, _, _, hafter⟩
  · exact .inr ⟨p, nowMs, settledAt, heq ▸ hp, htime, hdue, hlast⟩
  -- an expired proposal is not overdue again
  have hstatus := pending_of_isOverdue hdue
  rw [← mem_unique hafter hp] at hstatus
  cases hstatus

theorem Lapsed.mono {more : List JsNum} (hmore : times ⊆ more) :
    Lapsed options more before after := by
  intro id
  rcases h id with heq | ⟨p, nowMs, settledAt, hp, htime, hrest⟩
  · exact .inl heq
  · exact .inr ⟨p, nowMs, settledAt, hp, hmore htime, hrest⟩

/-- Expired proposals stay under their ids. -/
theorem Lapsed.filed (hfiled : Filed before) : Filed after := by
  intro id q hq
  rcases h id with heq | ⟨p, _, _, hp, _, _, hafter⟩
  · exact hfiled id q (heq ▸ hq)
  · rw [← mem_unique hafter hq]
    exact hfiled id p hp

end

/-- Filing a proposal under its id. -/
theorem Filed.set (h : Filed before) (p : OwnershipTransferProposal) :
    Filed (before.set p.id p) := Dict.forall_get_set h rfl

/-- The proposal `id` is accepted. -/
def Accepted (proposals : Proposals) (id : JsString) : Prop :=
  ∃ p, proposals.get id = some p ∧ p.status = .accepted

/-- **No proposal is accepted or un-accepted by the passing of time.** -/
theorem Lapsed.accepted_iff (h : Lapsed options times before after) (id : JsString) :
    Accepted after id ↔ Accepted before id := by
  rw [Accepted, Accepted]
  rcases h id with heq | ⟨p, _, settledAt, hp, _, hdue, hafter⟩
  · rw [heq]
  rw [hp, hafter]
  constructor
  · rintro ⟨q, hq, hstatus⟩
    rw [← some.inj hq] at hstatus
    cases hstatus
  · rintro ⟨q, hq, hstatus⟩
    rw [← some.inj hq, pending_of_isOverdue hdue] at hstatus
    cases hstatus

/-- Proposals stay, and only their status and the time of settlement may change. -/
def Carried (before after : Proposals) : Prop :=
  ∀ id p, before.get id = some p →
    ∃ status settledAt, after.get id = some { p with status := status, settledAt := settledAt }

/-- No proposal that was settled changes. -/
theorem Lapsed.carried (h : Lapsed options times before after) : Carried before after := by
  intro id p hp
  rcases h id with heq | ⟨q, _, settledAt, hq, _, _, hafter⟩
  · exact ⟨p.status, p.settledAt, heq.trans hp⟩
  · rw [mem_unique hp hq]
    exact ⟨.expired, some settledAt, hafter⟩

/-! ### Looking at a proposal -/

variable {q : OwnershipTransferProposal}

/-- Looking at a proposal that has not expired changes nothing; otherwise it alone expires. -/
theorem checkExpiration_cases (h : checkExpiration options s p nowMs = some (q, s')) :
    (q = p ∧ s' = s) ∨ ∃ settledAt, isOverdue options p nowMs = true ∧
      q = p.settledAs .expired settledAt ∧ s' = s.settle q := by
  rw [checkExpiration] at h
  split at h
  · next hdue =>
    split at h
    · cases h
    · next settledAt _ =>
      cases h
      exact .inr ⟨settledAt, hdue, rfl, rfl⟩
  · cases h
    exact .inl ⟨rfl, rfl⟩

/-- Looking at a proposal expires it if it is overdue, and does no more. -/
theorem checkExpiration_lapsed {id : JsString} (hfiled : Filed s.proposalsById)
    (hp : s.proposalsById.get id = some p) (h : checkExpiration options s p nowMs = some (q, s')) :
    Lapsed options [nowMs] s.proposalsById s'.proposalsById := by
  have hid := hfiled id p hp
  rcases checkExpiration_cases h with ⟨rfl, rfl⟩ | ⟨settledAt, hdue, rfl, rfl⟩
  · exact Lapsed.refl _ _ _
  have hget : ∀ key, (s.settle (p.settledAs .expired settledAt)).proposalsById.get key =
      if id = key then some (p.settledAs .expired settledAt)
      else s.proposalsById.get key := by
    intro key
    rw [OwnershipTransferStore.settle, Dict.get_set]
    show (if p.id = key then _ else _) = _
    rw [hid]
  intro key
  rw [hget]
  split
  · next heq =>
    subst heq
    exact .inr ⟨p, nowMs, settledAt, hp, List.mem_singleton_self _, hdue, rfl⟩
  · exact .inl rfl

variable {transferId : JsString}

/-- Reading a proposal does no more than that. -/
theorem getTransfer_lapsed {found : Option OwnershipTransferProposal}
    (hfiled : Filed s.proposalsById)
    (h : getTransfer options s transferId nowMs = some (found, s')) :
    Lapsed options [nowMs] s.proposalsById s'.proposalsById := by
  rw [getTransfer] at h
  split at h
  · cases h
    exact Lapsed.refl _ _ _
  · next raw hraw =>
    obtain ⟨⟨q, next⟩, hcheck, heq⟩ := map_eq_some_iff.1 h
    cases heq
    exact checkExpiration_lapsed hfiled hraw hcheck

/-- A proposal that is found pending was pending, and looking at it has changed nothing. -/
theorem getTransfer_pending (h : getTransfer options s transferId nowMs = some (some p, s'))
    (hp : p.status = .pending) : s' = s ∧ s.proposalsById.get transferId = some p := by
  rw [getTransfer] at h
  split at h
  · cases h
  next raw hraw =>
  obtain ⟨⟨q, next⟩, hcheck, heq⟩ := map_eq_some_iff.1 h
  cases heq
  rcases checkExpiration_cases hcheck with ⟨rfl, rfl⟩ | ⟨_, _, rfl, _⟩
  · exact ⟨rfl, hraw⟩
  · cases hp

/-! ### Settling a proposal -/

section Settle

variable {actor : OwnershipActor} {party : OwnershipTransferProposal → JsString}
  {unauthorized : OwnershipErrorCode}
  {settled : OwnershipTransferProposal → JsString → OwnershipTransferProposal}

/-- **A settlement rewrites one pending proposal.** -/
theorem settlePending_ok
    (h : settlePending options s transferId actor nowMs party unauthorized settled =
      (some (.ok q), s')) :
    ∃ p settledAt, s.proposalsById.get transferId = some p ∧ p.status = .pending ∧
      q = settled p settledAt ∧ s' = s.settle q := by
  rw [settlePending] at h
  split at h
  · cases h
  next raw hraw =>
  split at h
  · cases h
  next p next hcheck =>
  split_ifs at h with hsettled hexpired hparty
  · cases h
  · cases h
  · cases h
  split at h
  · cases h
  next settledAt _ =>
  cases h
  have hpending : p.status = .pending := by
    cases hstatus : p.status <;> simp_all
  rcases checkExpiration_cases hcheck with ⟨rfl, rfl⟩ | ⟨_, _, rfl, _⟩
  · exact ⟨p, settledAt, hraw, hpending, rfl, rfl⟩
  · cases hpending

/-- **A settlement that is refused only lets overdue proposals expire.** -/
theorem settlePending_lapsed {answer : Option (Except OwnershipFailure OwnershipTransferProposal)}
    (hfiled : Filed s.proposalsById)
    (h : settlePending options s transferId actor nowMs party unauthorized settled = (answer, s'))
    (hanswer : ∀ q, answer ≠ some (.ok q)) :
    Lapsed options [nowMs] s.proposalsById s'.proposalsById := by
  rw [settlePending] at h
  split at h
  · cases h
    exact Lapsed.refl _ _ _
  next raw hraw =>
  split at h
  · cases h
    exact Lapsed.refl _ _ _
  next p next hcheck =>
  have hlapsed := checkExpiration_lapsed hfiled hraw hcheck
  split_ifs at h with hsettled hexpired hparty
  · cases h
    exact hlapsed
  · cases h
    exact hlapsed
  · cases h
    exact hlapsed
  split at h
  · cases h
    exact hlapsed
  · cases h
    exact absurd rfl (hanswer _)

end Settle

variable {draw : OwnershipDraw} {answer : Option (Except OwnershipFailure OwnershipAnswer)}

section Accept

variable {params : AcceptOwnershipTransferParams} (hkey : params.idempotencyKey = none)

include hkey

/-- A call without an idempotency key that accepts. -/
theorem accept_ok {answer : OwnershipAnswer}
    (h : accept options s params draw = (some (.ok answer), s')) :
    ∃ p settledAt, s.proposalsById.get params.transferId = some p ∧ p.status = .pending ∧
      s' = s.settle (p.settledAs .accepted settledAt) := by
  simp only [accept, replayOrClaim, answerWith, hkey, getD_none, if_true] at h
  split at h
  · cases h
  · cases h
  next heq =>
  cases h
  obtain ⟨p, settledAt, hp, hpending, rfl, hstore⟩ := settlePending_ok heq
  exact ⟨p, settledAt, hp, hpending, hstore⟩

/-- A call without an idempotency key that does not. -/
theorem accept_lapsed (hfiled : Filed s.proposalsById)
    (h : accept options s params draw = (answer, s')) (hanswer : ∀ r, answer ≠ some (.ok r)) :
    Lapsed options [params.now.getD (.ofInt draw.clock)] s.proposalsById s'.proposalsById := by
  simp only [accept, replayOrClaim, answerWith, hkey, getD_none, if_true] at h
  split at h
  · next heq =>
    cases h
    exact settlePending_lapsed hfiled heq nofun
  · next heq =>
    cases h
    exact settlePending_lapsed hfiled heq nofun
  · cases h
    exact absurd rfl (hanswer _)

end Accept

/-! ### Initiating a transfer -/

theorem answerWith_ne_error (s : OwnershipTransferStore) (idempotencyKey : Option JsString)
    (p : OwnershipTransferProposal) (failure : OwnershipFailure) :
    (answerWith s idempotencyKey p).1 ≠ some (.error failure) := by
  rw [answerWith]
  split
  · simp
  · simp

variable {resKey : JsString}

/-- The conflict check looks at one proposal at most. -/
theorem findConflict_cases {conflict : Bool}
    (h : findConflict options s resKey nowMs = some (conflict, s')) :
    s' = s ∨ ∃ id p q, s.proposalsById.get id = some p ∧
      checkExpiration options s p nowMs = some (q, s') := by
  simp only [findConflict] at h
  split at h
  · cases h
    exact .inl rfl
  split at h
  · cases h
    exact .inl rfl
  next existing hexisting =>
  obtain ⟨⟨q, next⟩, hcheck, heq⟩ := map_eq_some_iff.1 h
  obtain rfl : next = s' := congrArg Prod.snd heq
  exact .inr ⟨_, existing, q, hexisting, hcheck⟩

/-- Nor does looking for a conflicting one. -/
theorem findConflict_lapsed {conflict : Bool} (hfiled : Filed s.proposalsById)
    (h : findConflict options s resKey nowMs = some (conflict, s')) :
    Lapsed options [nowMs] s.proposalsById s'.proposalsById := by
  obtain rfl | ⟨_, _, _, hp, hcheck⟩ := findConflict_cases h
  · exact Lapsed.refl _ _ _
  · exact checkExpiration_lapsed hfiled hp hcheck

variable {params : InitiateOwnershipTransferParams}

/-- A new proposal is pending, under the id that was drawn. -/
theorem proposal_eq_some {correlationId : JsString}
    (h : params.proposal nowMs correlationId transferId = some p) :
    p.id = transferId ∧ p.status = .pending := by
  simp only [InitiateOwnershipTransferParams.proposal, bind_eq_bind,
    bind_eq_some_iff, some.injEq] at h
  obtain ⟨_, _, _, _, rfl⟩ := h
  exact ⟨rfl, rfl⟩

/-- **Initiating a transfer files one new pending proposal, or only lets overdue ones expire.** -/
theorem initiate_cases (hfiled : Filed s.proposalsById)
    (h : initiate options s params draw = (answer, s')) :
    Lapsed options [params.now.getD (.ofInt draw.clock)] s.proposalsById s'.proposalsById ∨
    (∀ failure, answer ≠ some (.error failure)) ∧ ∃ mid p,
      Lapsed options [params.now.getD (.ofInt draw.clock)] s.proposalsById mid ∧
      p.id = draw.transferId ∧ p.status = .pending ∧ s'.proposalsById = mid.set p.id p := by
  rw [initiate] at h
  have hclaim : (replayOrClaim options s params.idempotencyKey (js "ownership.propose")
      params.request (params.correlationId.getD draw.correlationId)
      draw.claimClock).2.proposalsById = s.proposalsById := by
    rw [replayOrClaim]
    split
    · rfl
    dsimp only
    split
    · rfl
    · rfl
    · split <;> rfl
  split at h
  · next heq =>
    cases h
    rw [heq] at hclaim
    left
    rw [hclaim]
    exact Lapsed.refl _ _ _
  next claimed heq =>
  rw [heq] at hclaim
  rw [propose] at h
  split at h
  · cases h
    left
    rw [hclaim]
    exact Lapsed.refl _ _ _
  split at h
  · cases h
    left
    rw [hclaim]
    exact Lapsed.refl _ _ _
  · next hconflict =>
    cases h
    left
    rw [← hclaim] at hfiled ⊢
    exact findConflict_lapsed hfiled hconflict
  next mid hconflict =>
  rw [← hclaim] at hfiled ⊢
  have hlapsed := findConflict_lapsed hfiled hconflict
  split at h
  · cases h
    exact .inl hlapsed
  next p hp =>
  obtain ⟨hid, hstatus⟩ := proposal_eq_some hp
  have hfile : (answerWith (mid.file p) params.idempotencyKey p).2.proposalsById =
      (mid.file p).proposalsById := by
    rw [answerWith]
    split <;> rfl
  rw [h] at hfile
  refine .inr ⟨fun failure hanswer ↦ ?_, mid.proposalsById, p, hlapsed, hid, hstatus, hfile⟩
  exact answerWith_ne_error _ _ _ failure ((congrArg Prod.fst h).trans hanswer)

end Utix.Ownership

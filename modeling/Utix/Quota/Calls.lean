import Utix.Quota.Spend

/-!
# Calls on a quiet storage

What `check`, `consume` and `refund` do when the storage does not call back. `consume` is the case
of `evaluate_spends` without calls inside its writes; `check` changes no account; `refund` takes the
cost off both accounts, once for each token and only inside the window.

A quiet storage is the case of the reentrant one with nothing inside its writes, so nothing is
proved twice: the facts about `consume` are instances, and `nested_commitCounter` and its companions
say that there is nothing inside.

An account is the counter of an operation and a subject together with what is reserved on it. A
store is settled (`Store.Settled`) if nothing is reserved and no counter is negative, as between any
two calls on a quiet storage, and such a store is ready for any request. `chargedBetween` is how the
shared account moves from one store to another, for callers that count units and know nothing else
of the quota. A refund is clamped at zero, so taking a cost off an account takes off less if the
account does not hold it; that it does is for the callers to show.
-/

namespace Utix.Quota

open Js List Store

/-! ### Windows -/

variable {policies : Policies} {policy : QuotaPolicy}

/-- A window has a length. -/
theorem windowMs_pos (h : policy ∈ policies.1) : 0 < policy.windowMs := by
  have hvalid := policies.2
  simp only [validatePolicies, Bool.and_eq_true, all_eq_true] at hvalid
  have hpolicy := hvalid.2 policy h
  simp only [QuotaPolicy.isValid, Bool.and_eq_true, decide_eq_true_eq] at hpolicy
  omega

/-- A later clock is in the same window or in a later one. -/
theorem windowStartOf_mono (h : policy ∈ policies.1) {a b : ℤ} (hab : a ≤ b) :
    windowStartOf policy a ≤ windowStartOf policy b :=
  have hpos := windowMs_pos h
  mul_le_mul_of_nonneg_right (Int.ediv_le_ediv hpos hab) hpos.le

/-! ### Consuming -/

theorem nested_andThen {α β : Type} {r : Ran α} {f : α → Store → Ran β} (hr : r.nested = [])
    (hf : ∀ a s, (f a s).nested = []) : (r.andThen f).nested = [] := by
  rw [Ran.andThen]
  split
  · exact hr
  · rw [hr, hf, append_nil]

theorem nested_writeCounter (s : Store) (operation subject : JsString) (counter : Counter) :
    (writeCounter quiet s operation subject counter).nested = [] :=
  nested_andThen rfl fun _ _ ↦ rfl

/-- A quiet storage makes no calls inside a write. -/
theorem nested_commitCounter (s : Store) (policy : QuotaPolicy) (subject : JsString) (cost at' : ℤ)
    (callId : ℕ) : (commitCounter quiet s policy subject cost at' callId).nested = [] := by
  rw [commitCounter]
  split
  · rfl
  · split
    · exact nested_andThen (nested_writeCounter _ _ _ _) fun _ _ ↦ rfl
    · rfl

theorem serves_quiet (policies : Policies) (at' : ℤ) (subject : JsString) :
    Serves policies at' quiet subject [] := fun s _ ↦ ⟨rfl, SpendsOn.refl s⟩

variable {at' : ℤ} {s : Store} {request : QuotaRequest}

/-- **`consume` answers, and advances its accounts by the cost of the receipt it returns.** -/
theorem consume_spends (hready : ReadyFor policies at' s request)
    (hdated : Dated policies at' request) (freshId : JsString) :
    ∃ answer, (consume policies s request freshId at').answer = some answer ∧
      Spends policies at' [request] s (consume policies s request freshId at').store
        (receiptsOf answer) := by
  obtain ⟨answer, hanswer, hspends⟩ := evaluate_spends (fun _ ↦ serves_quiet policies at' _)
    (serves_quiet policies at' _) (by simpa using hready) (by simp) (by simp) hdated freshId
  refine ⟨answer, hanswer, ?_⟩
  have hnested : (consume policies s request freshId at').nested = [] := by
    cases hvalid : validate policies request with
    | error code => rw [consume, evaluate, hvalid]
    | ok valid =>
      obtain ⟨t, -, ⟨scope, limit, denial, -, heq⟩ | ⟨-, remaining, heq⟩⟩ :=
        evaluate_cases quiet freshId hvalid hready
      · rw [consume, heq]
        refine nested_andThen (nested_andThen (nested_writeCounter _ _ _ _) fun _ _ ↦ ?_)
          fun _ _ ↦ rfl
        split <;> rfl
      rw [consume, heq]
      refine nested_andThen (nested_andThen (nested_commitCounter _ _ _ _ _ _) fun _ _ ↦ ?_)
        fun _ _ ↦ rfl
      exact nested_commitCounter _ _ _ _ _ _
  have hall : Spends policies at' [request] s (consume policies s request freshId at').store
      ((consume policies s request freshId at').nested ++ receiptsOf answer) := hspends
  rwa [hnested, nil_append] at hall

/-- No call is in flight, and no counter is negative. -/
def Store.Settled (s : Store) (policies : Policies) : Prop :=
  ∀ policy ∈ policies.1, ∀ subject, IsSubject subject →
    s.reserved (reservedKey policy.operation subject) = none ∧
      ∀ w, 0 ≤ s.usedAt (reservedKey policy.operation subject) w

/-- Between calls every account is in order. -/
theorem Store.Settled.readyFor (h : s.Settled policies) (at' : ℤ) (request : QuotaRequest) :
    ReadyFor policies at' s request := by
  intro policy cost hvalid subject hsubject
  obtain ⟨hpolicy, -, hprincipal, -⟩ := validate_eq_ok hvalid
  have hsub : IsSubject subject := by
    rcases hsubject with rfl | rfl
    · exact .inl rfl
    · exact .inr hprincipal
  obtain ⟨hfree, hused⟩ := h policy hpolicy subject hsub
  refine ⟨?_, fun entry hentry ↦ ?_⟩
  · rw [total, hfree]
    exact hused _
  · rw [hfree] at hentry
    cases hentry

/-- Spends leave a settled store settled. -/
theorem Store.Settled.of_spends {t : Store} {requests : List QuotaRequest}
    {granted : List QuotaReceipt} (h : s.Settled policies)
    (hspends : Spends policies at' requests s t granted) : t.Settled policies := by
  intro policy hpolicy subject hsub
  obtain ⟨hfree, hused⟩ := h policy hpolicy subject hsub
  have hadv := hspends.advanced policy hpolicy subject hsub trivial
  refine ⟨hadv.free hfree, fun w ↦ ?_⟩
  by_cases hw : w = windowStartOf policy at'
  · rw [hw, hadv.used]
    exact add_nonneg (hused _) (charged_nonneg hspends.source _ _)
  -- a counter of another window is one of before
  rw [usedAt]
  split
  · next counter hcounter =>
    split
    · next hstart =>
      rcases hadv.window counter hcounter with hbefore | hthis
      · have hbound := hused w
        simp only [usedAt, hbefore, if_pos hstart] at hbound
        exact hbound
      · exact absurd (hstart.symm.trans hthis) hw
    · exact le_rfl
  · exact le_rfl

/-- The units charged for an operation, to all, between two states of the store. -/
def chargedBetween (policies : Policies) (operation : JsString) (at' : ℤ) (s t : Store) : ℤ :=
  match byOperation policies operation with
  | none => 0
  | some policy =>
    t.usedAt (reservedKey policy.operation quotaGlobalSubject) (windowStartOf policy at') -
      s.usedAt (reservedKey policy.operation quotaGlobalSubject) (windowStartOf policy at')

theorem chargedBetween_self (policies : Policies) (operation : JsString) (at' : ℤ) (s : Store) :
    chargedBetween policies operation at' s s = 0 := by
  rw [chargedBetween]
  split
  · rfl
  · exact sub_self _

/-- **A call of `consume` for one unit** charges one unit when it is granted, and none when it is
refused. -/
theorem chargedBetween_consume (h : s.Settled policies) (hcost : request.cost = none)
    (hdated : Dated policies at' request) (freshId : JsString) :
    (consume policies s request freshId at').store.Settled policies ∧
    ∃ answer, (consume policies s request freshId at').answer = some answer ∧
      chargedBetween policies request.operation at' s
        (consume policies s request freshId at').store = (receiptsOf answer).length := by
  obtain ⟨answer, hanswer, hspends⟩ := consume_spends (h.readyFor at' request) hdated freshId
  refine ⟨h.of_spends hspends, answer, hanswer, ?_⟩
  rw [chargedBetween]
  split
  · next hnone =>
    cases answer with
    | error refusal => rfl
    | ok receipt =>
      obtain ⟨q, hq, policy, cost, hvalid, -⟩ := hspends.source receipt mem_cons_self
      rw [mem_singleton.1 hq, validate, hnone] at hvalid
      cases hvalid
  · next policy hpolicy =>
    have hadv := hspends.advanced policy (byOperation_eq_some hpolicy).1 quotaGlobalSubject
      (.inl rfl) trivial
    rw [hadv.used]
    cases answer with
    | error refusal =>
      rw [receiptsOf, charged_nil, add_zero, sub_self]
      rfl
    | ok receipt =>
      obtain ⟨q, hq, found, cost, hvalid, hop, -, hreceipt, -⟩ :=
        hspends.source receipt mem_cons_self
      rw [mem_singleton.1 hq, validate, hpolicy] at hvalid
      dsimp only at hvalid
      split at hvalid
      · cases hvalid
      rw [hcost] at hvalid
      cases hvalid
      have hone : (Decimal.ofInt 1).scaled 0 = 1 := by decide
      rw [receiptsOf, charged_singleton, if_pos ⟨hop, .inl rfl⟩, hreceipt, hone,
        add_sub_cancel_left]
      rfl

/-! ### Checking -/

/-- **`check` changes no account**, and a receipt it returns answers the request. -/
theorem check_spec (policies : Policies) (s : Store) (request : QuotaRequest) (freshId : JsString)
    (at' : ℤ) :
    (∀ key, SameAccount s (check policies s request freshId at').store key) ∧
      Kept s (check policies s request freshId at').store at' ∧
        ∀ r, (check policies s request freshId at').answer = some (.ok r) →
          GrantedTo policies at' request r := by
  rw [check, evaluate]
  cases hvalid : validate policies request with
  | error code =>
    exact ⟨fun _ ↦ ⟨rfl, rfl⟩, ⟨fun _ ↦ rfl, fun _ h ↦ h, rfl⟩, fun r hr ↦ absurd hr (by simp)⟩
  | ok valid =>
    obtain ⟨policy, cost⟩ := valid
    simp only [Bool.false_eq_true, if_false]
    generalize hnext : ({ s with nextCallId := s.nextCallId + 1 } : Store) = next
    have hswept₁ := swept_effectiveLimit next policy request.principal at'
    generalize effectiveLimit next policy request.principal at' = first at *
    obtain ⟨ownLimit, t₁⟩ := first
    have hswept₂ := swept_effectiveLimit t₁ policy quotaGlobalSubject at'
    simp only at hswept₁ ⊢
    generalize effectiveLimit t₁ policy quotaGlobalSubject at' = second at *
    obtain ⟨sharedLimit, t⟩ := second
    have hswept := hswept₁.trans hswept₂
    subst hnext
    simp only at hswept ⊢
    have hsame : ∀ key, SameAccount s t key := fun key ↦
      ⟨by rw [hswept.counters], by rw [hswept.reserved]⟩
    have hkept : Kept s t at' := ⟨hswept.kept.active, hswept.kept.free, hswept.kept.refunded⟩
    split
    · exact ⟨hsame, hkept, fun r hr ↦ absurd hr (by simp [Ran.andThen])⟩
    refine ⟨hsame, hkept, fun r hr ↦ ?_⟩
    simp only [Ran.andThen, Option.map_eq_some_iff] at hr
    obtain ⟨resetAt, -, hr⟩ := hr
    cases hr
    exact ⟨policy, cost, hvalid, rfl, rfl, rfl, windowStart_readCounter _ _ _ _⟩

/-! ### Refunding -/

/-- **Units are taken off one account**, in the window that starts at `w`. -/
structure TakenOff (s t : Store) (key : JsString) (w cost : ℤ) : Prop where
  used : t.usedAt key w = max 0 (s.usedAt key w - cost)
  window : ∀ counter, t.counters key = some counter → counter.windowStart = w
  others : ∀ k ≠ key, t.counters k = s.counters k
  reserved : t.reserved = s.reserved
  overrides : t.overrides = s.overrides
  refunded : t.refunded = s.refunded

/-- What one round of the loop of `refund` does to the account of its subject. -/
theorem takenOff_refundSubject (s : Store) (policy : QuotaPolicy) (cost at' : ℤ)
    {subject : JsString} (hfree : s.reserved (policy.key subject) = none) :
    TakenOff s (refundSubject s policy cost at' subject) (policy.key subject)
      (windowStartOf policy at') cost where
  used := by
    rw [refundSubject, usedAt, counters_setCounter]
    simp only [windowStart_readCounter, if_true]
    rw [used_readCounter, total, hfree]
  window counter hc := by
    rw [refundSubject, counters_setCounter] at hc
    rw [← Option.some.inj hc]
    exact windowStart_readCounter _ _ _ _
  others k hk := (sameAccount_setCounter hk _).counters
  reserved := rfl
  overrides := rfl
  refunded := rfl

end Utix.Quota

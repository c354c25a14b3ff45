import Utix.Quota.Account

/-!
# What a spend does to all accounts

`Spends policies at' requests s t granted` says that between `s` and `t` some of the requests were
granted, with these receipts, and that this is all that happened: every account has advanced by
exactly what the receipts charge to it, limits are as they were, and no account that was within its
limit has left it.

`evaluate_spends` is the specification of `evaluate` for a spending call. The storage may run any
calls inside the two writes, as long as none of them charges the account that is being written: the
new value was computed before they ran.
-/

namespace Utix.Quota

open Js List Store

/-! ### Policies and requests -/

variable {policies : Policies} {policy : QuotaPolicy} {request : QuotaRequest} {at' cost : ℤ}
  {s t u : Store} {requests : List QuotaRequest} {granted : List QuotaReceipt}
  {operation : JsString}

/-- The policy that is found is the one of the operation. -/
theorem byOperation_eq_some (h : byOperation policies operation = some policy) :
    policy ∈ policies.1 ∧ policy.operation = operation :=
  ⟨mem_of_find?_eq_some h, by simpa using find?_some h⟩

/-- An operation has one policy. -/
theorem policy_eq_of_operation_eq {p q : QuotaPolicy} (hp : p ∈ policies.1) (hq : q ∈ policies.1)
    (h : p.operation = q.operation) : p = q := by
  have hvalid := policies.2
  simp only [validatePolicies, Bool.and_eq_true, decide_eq_true_eq] at hvalid
  exact inj_on_of_nodup_map hvalid.1 hp hq h

theorem byOperation_of_mem (h : policy ∈ policies.1) :
    byOperation policies policy.operation = some policy := by
  cases hfind : byOperation policies policy.operation with
  | none =>
    have hnone := find?_eq_none.1 hfind policy h
    simp at hnone
  | some found =>
    obtain ⟨hmem, hop⟩ := byOperation_eq_some hfind
    rw [policy_eq_of_operation_eq hmem h hop]

/-- What a valid request has: a policy, a principal and a positive cost. -/
theorem validate_eq_ok (h : validate policies request = .ok (policy, cost)) :
    policy ∈ policies.1 ∧ policy.operation = request.operation ∧
      isValidPrincipal request.principal = true ∧ 1 ≤ cost := by
  rw [validate] at h
  split at h
  · cases h
  next found hfound =>
  split at h
  · cases h
  next hprincipal =>
  split at h
  · cases h
  split at h
  · cases h
  next hcost =>
  obtain ⟨rfl, rfl⟩ := Prod.mk.inj (Except.ok.inj h)
  obtain ⟨hmem, hop⟩ := byOperation_eq_some hfound
  exact ⟨hmem, hop, by simpa using hprincipal, by omega⟩

/-- The request, if it is granted, charges the account of this subject. -/
def Charges (policies : Policies) (request : QuotaRequest) (operation subject : JsString) : Prop :=
  ∃ policy cost, validate policies request = .ok (policy, cost) ∧ policy.operation = operation ∧
    (subject = quotaGlobalSubject ∨ subject = request.principal)

variable {subject : JsString}

/-- Only principals and the shared subject are charged. -/
theorem isSubject_of_charges (h : Charges policies request operation subject) :
    IsSubject subject := by
  obtain ⟨policy, cost, hvalid, -, rfl | rfl⟩ := h
  · exact .inl rfl
  · exact .inr (validate_eq_ok hvalid).2.2.1

/-- What the receipts charge to the account of a subject; every receipt charges the shared one. -/
def charged (granted : List QuotaReceipt) (operation subject : JsString) : ℤ :=
  (granted.map fun r ↦ if r.operation = operation ∧
    (subject = quotaGlobalSubject ∨ subject = r.principal) then r.cost else 0).sum

@[simp] theorem charged_nil (operation subject : JsString) : charged [] operation subject = 0 := rfl

/-- Charges add up. -/
theorem charged_append (g₁ g₂ : List QuotaReceipt) (operation subject : JsString) :
    charged (g₁ ++ g₂) operation subject =
      charged g₁ operation subject + charged g₂ operation subject := by
  rw [charged, map_append, sum_append, charged, charged]

/-- A receipt charges its principal and the shared subject. -/
theorem charged_singleton (r : QuotaReceipt) (operation subject : JsString) :
    charged [r] operation subject = if r.operation = operation ∧
      (subject = quotaGlobalSubject ∨ subject = r.principal) then r.cost else 0 := by
  simp [charged]

/-- The receipt answers the request. -/
def GrantedTo (policies : Policies) (at' : ℤ) (request : QuotaRequest) (r : QuotaReceipt) : Prop :=
  ∃ policy cost, validate policies request = .ok (policy, cost) ∧
    r.operation = policy.operation ∧ r.principal = request.principal ∧ r.cost = cost ∧
      r.windowStart = windowStartOf policy at'

/-- No charge is negative. -/
theorem charged_nonneg (h : ∀ r ∈ granted, ∃ q ∈ requests, GrantedTo policies at' q r)
    (operation subject : JsString) : 0 ≤ charged granted operation subject := by
  refine sum_nonneg fun x hx ↦ ?_
  obtain ⟨r, hr, rfl⟩ := mem_map.1 hx
  obtain ⟨q, -, policy, cost, hvalid, -, -, hcost, -⟩ := h r hr
  have := (validate_eq_ok hvalid).2.2.2
  split <;> omega

/-- What no request charges is not charged. -/
theorem charged_eq_zero (h : ∀ r ∈ granted, ∃ q ∈ requests, GrantedTo policies at' q r)
    (hnot : ∀ q ∈ requests, ¬ Charges policies q operation subject) :
    charged granted operation subject = 0 := by
  refine sum_eq_zero fun x hx ↦ ?_
  obtain ⟨r, hr, rfl⟩ := mem_map.1 hx
  obtain ⟨q, hq, policy, cost, hvalid, hop, hprincipal, -, -⟩ := h r hr
  refine if_neg fun hcharge ↦ hnot q hq ⟨policy, cost, hvalid, hop ▸ hcharge.1, ?_⟩
  rw [← hprincipal]
  exact hcharge.2

/-! ### Limits -/

/-- The override of an account that is in force. -/
def Store.active (s : Store) (key : JsString) (at' : ℤ) : Option QuotaOverride :=
  match s.overrides key with
  | some o => if o.expiresAt ≤ at' then none else some o
  | none => none

def limitOf (s : Store) (policy : QuotaPolicy) (subject : JsString) (at' : ℤ) : EffectiveLimit :=
  (effectiveLimit s policy subject at').1

/-- A limit is that of the active override, or of the policy. -/
theorem limitOf_eq (s : Store) (policy : QuotaPolicy) (subject : JsString) (at' : ℤ) :
    limitOf s policy subject at' =
      match s.active (policy.key subject) at' with
      | some o => ⟨some o.limit, true⟩
      | none =>
        ⟨if subject = quotaGlobalSubject then policy.globalLimit else some policy.limit,
          false⟩ := by
  rw [limitOf, effectiveLimit, readOverride, Store.active]
  cases s.overrides (policy.key subject) with
  | none => rfl
  | some o =>
    by_cases h : o.expiresAt ≤ at'
    · simp [h]
    · simp [h]

/-- **Overrides and refunds are as they were**, except that expired overrides may be gone. -/
structure Kept (s t : Store) (at' : ℤ) : Prop where
  active : ∀ key, t.active key at' = s.active key at'
  free : ∀ key, s.overrides key = none → t.overrides key = none
  refunded : t.refunded = s.refunded

theorem Kept.of_eq (ho : t.overrides = s.overrides) (hr : t.refunded = s.refunded) (at' : ℤ) :
    Kept s t at' :=
  ⟨fun key ↦ by rw [Store.active, ho, Store.active], fun key h ↦ by rw [ho, h], hr⟩

theorem Kept.trans (h : Kept s t at') (h' : Kept t u at') : Kept s u at' :=
  ⟨fun key ↦ (h'.active key).trans (h.active key), fun key hs ↦ h'.free key (h.free key hs),
    h'.refunded.trans h.refunded⟩

theorem SameRest.kept (h : SameRest s t) (at' : ℤ) : Kept s t at' :=
  Kept.of_eq h.overrides h.refunded at'

/-- Where overrides are kept, so are limits. -/
theorem Kept.limitOf (h : Kept s t at') (policy : QuotaPolicy) (subject : JsString) :
    limitOf t policy subject at' = limitOf s policy subject at' := by
  rw [limitOf_eq, limitOf_eq, h.active]

/-- Nothing spent is within every limit. -/
theorem exceededBy_zero (s : Store) (hp : policy ∈ policies.1) (subject : JsString) (at' : ℤ) :
    (limitOf s policy subject at').exceededBy 0 = false := by
  have hvalid := policies.2
  simp only [validatePolicies, Bool.and_eq_true, all_eq_true] at hvalid
  have hpolicy := hvalid.2 policy hp
  simp only [QuotaPolicy.isValid, Bool.and_eq_true, decide_eq_true_eq,
    Option.all_eq_true] at hpolicy
  rw [limitOf_eq, EffectiveLimit.exceededBy]
  cases s.active (policy.key subject) at' with
  | some o => simp
  | none =>
    by_cases hsub : subject = quotaGlobalSubject
    · cases hg : policy.globalLimit with
      | none => simp [hsub]
      | some g =>
        have := hpolicy.1.1.2 g hg
        simp [hsub]
        omega
    · simp [hsub]
      omega

/-- Reading a limit changes nothing but expired overrides. -/
structure Swept (s t : Store) (at' : ℤ) : Prop where
  counters : t.counters = s.counters
  reserved : t.reserved = s.reserved
  nextCallId : t.nextCallId = s.nextCallId
  kept : Kept s t at'

/-- Asking for a limit only removes overrides that have expired. -/
theorem swept_effectiveLimit (s : Store) (policy : QuotaPolicy) (subject : JsString) (at' : ℤ) :
    Swept s (effectiveLimit s policy subject at').2 at' := by
  rw [effectiveLimit, readOverride]
  cases hs : s.overrides (policy.key subject) with
  | none => exact ⟨rfl, rfl, rfl, ⟨fun _ ↦ rfl, fun _ h ↦ h, rfl⟩⟩
  | some o =>
    by_cases h : o.expiresAt ≤ at'
    · simp only [h, if_true]
      refine ⟨rfl, rfl, rfl, fun key ↦ ?_, fun key hkey ↦ ?_, rfl⟩
      · by_cases hkey : key = policy.key subject
        · simp [Store.active, put, hkey, hs, h]
        · simp [Store.active, put, hkey]
      · simp [put, hkey]
    · simp only [h, if_false]
      exact ⟨rfl, rfl, rfl, ⟨fun _ ↦ rfl, fun _ h ↦ h, rfl⟩⟩

theorem Swept.trans (h : Swept s t at') (h' : Swept t u at') : Swept s u at' :=
  ⟨h'.counters.trans h.counters, h'.reserved.trans h.reserved, h'.nextCallId.trans h.nextCallId,
    h.kept.trans h'.kept⟩

/-! ### Spends -/

/-- **Some of the requests were granted, and nothing else happened** to the accounts in `K`. -/
structure SpendsOn (K : Set JsString) (policies : Policies) (at' : ℤ) (requests : List QuotaRequest)
    (s t : Store) (granted : List QuotaReceipt) : Prop where
  source : ∀ r ∈ granted, ∃ q ∈ requests, GrantedTo policies at' q r
  calls : s.nextCallId ≤ t.nextCallId
  kept : Kept s t at'
  advanced : ∀ policy ∈ policies.1, ∀ subject, IsSubject subject →
    reservedKey policy.operation subject ∈ K →
      Advanced s t (reservedKey policy.operation subject) (windowStartOf policy at')
        (charged granted policy.operation subject)
  within : ∀ policy ∈ policies.1, ∀ subject, IsSubject subject →
    reservedKey policy.operation subject ∈ K →
      (limitOf s policy subject at').exceededBy
          (s.total (reservedKey policy.operation subject) (windowStartOf policy at')) = false →
        (limitOf s policy subject at').exceededBy
          (t.total (reservedKey policy.operation subject) (windowStartOf policy at')) = false

/-- Nothing else happened to any account. -/
abbrev Spends := SpendsOn Set.univ

/-- A computation answers, and does nothing else to the accounts in `K`; it may grant more than what
is nested in it. -/
structure Ran.SpendsOn (ran : Ran Unit) (K : Set JsString) (policies : Policies) (at' : ℤ)
    (requests : List QuotaRequest) (s : Store) (more : List QuotaReceipt) : Prop where
  answer : ran.answer = some ()
  spends : Quota.SpendsOn K policies at' requests s ran.store (ran.nested ++ more)

/-- Every account that the request charges is ready. -/
def ReadyFor (policies : Policies) (at' : ℤ) (s : Store) (request : QuotaRequest) : Prop :=
  ∀ policy cost, validate policies request = .ok (policy, cost) →
    ∀ subject, subject = quotaGlobalSubject ∨ subject = request.principal →
      Ready s (reservedKey policy.operation subject) (windowStartOf policy at')

/-- What runs inside the write for a subject serves these requests. -/
def Serves (policies : Policies) (at' : ℤ) (inner : Inner) (subject : JsString)
    (requests : List QuotaRequest) : Prop :=
  ∀ s, (∀ q ∈ requests, ReadyFor policies at' s q) → (inner subject s).answer = some () ∧
    Spends policies at' requests s (inner subject s).store (inner subject s).nested

variable {q : QuotaRequest} {qs : List QuotaRequest} {g : List QuotaReceipt}

namespace SpendsOn

variable {K K' : Set JsString} {qs' : List QuotaRequest} {g' : List QuotaReceipt}

/-- Fewer accounts to speak of, and more requests to allow. -/
theorem mono (h : SpendsOn K policies at' qs s t g) (hK : K' ⊆ K) (hqs : qs ⊆ qs') :
    SpendsOn K' policies at' qs' s t g where
  source r hr := by
    obtain ⟨q, hq, hgranted⟩ := h.source r hr
    exact ⟨q, hqs hq, hgranted⟩
  calls := h.calls
  kept := h.kept
  advanced policy hp subject hsub hkey := h.advanced policy hp subject hsub (hK hkey)
  within policy hp subject hsub hkey := h.within policy hp subject hsub (hK hkey)

/-- What is spent in two stretches adds up. -/
theorem trans (h : SpendsOn K policies at' qs s t g) (h' : SpendsOn K policies at' qs' t u g') :
    SpendsOn K policies at' (qs ++ qs') s u (g ++ g') where
  source r hr := by
    rcases mem_append.1 hr with hr | hr
    · obtain ⟨q, hq, hgranted⟩ := h.source r hr
      exact ⟨q, mem_append_left _ hq, hgranted⟩
    · obtain ⟨q, hq, hgranted⟩ := h'.source r hr
      exact ⟨q, mem_append_right _ hq, hgranted⟩
  calls := h.calls.trans h'.calls
  kept := h.kept.trans h'.kept
  advanced policy hp subject hsub hkey := by
    rw [charged_append]
    exact (h.advanced policy hp subject hsub hkey).trans (h'.advanced policy hp subject hsub hkey)
  within policy hp subject hsub hkey hw := by
    rw [← h.kept.limitOf]
    refine h'.within policy hp subject hsub hkey ?_
    rw [h.kept.limitOf]
    exact h.within policy hp subject hsub hkey hw

/-- Changes outside the accounts in `K` do not count. -/
theorem of_same (hcalls : s.nextCallId ≤ t.nextCallId) (hkept : Kept s t at')
    (hsame : ∀ key ∈ K, SameAccount s t key) :
    SpendsOn K policies at' [] s t [] where
  source := by simp
  calls := hcalls
  kept := hkept
  advanced policy _ subject _ hkey := Advanced.of_same (hsame _ hkey)
  within policy _ subject _ hkey hw := by rwa [(hsame _ hkey).total]

theorem refl (s : Store) : SpendsOn K policies at' [] s s [] :=
  of_same le_rfl ⟨fun _ ↦ rfl, fun _ h ↦ h, rfl⟩ fun _ _ ↦ ⟨rfl, rfl⟩

/-- An account that was ready is ready after the spends of others. -/
theorem readyFor (h : SpendsOn K policies at' qs s t g)
    (hq : ReadyFor policies at' s q)
    (hK : ∀ operation subject, Charges policies q operation subject →
      reservedKey operation subject ∈ K) : ReadyFor policies at' t q := by
  intro policy cost hvalid subject hsubject
  have hcharges : Charges policies q policy.operation subject :=
    ⟨policy, cost, hvalid, rfl, hsubject⟩
  exact (hq policy cost hvalid subject hsubject).of_advanced
    (h.advanced policy (validate_eq_ok hvalid).1 subject (isSubject_of_charges hcharges)
      (hK _ _ hcharges))
    (charged_nonneg h.source _ _) h.calls

/-- An account that was left out is added. -/
theorem insert (hp : policy ∈ policies.1) (hsub : IsSubject subject)
    (h : SpendsOn (K \ {policy.key subject}) policies at' qs s t g)
    (hadv : Advanced s t (policy.key subject) (windowStartOf policy at')
      (charged g policy.operation subject))
    (hwithin : (limitOf s policy subject at').exceededBy
        (s.total (policy.key subject) (windowStartOf policy at')) = false →
      (limitOf s policy subject at').exceededBy
        (t.total (policy.key subject) (windowStartOf policy at')) = false) :
    SpendsOn K policies at' qs s t g where
  source := h.source
  calls := h.calls
  kept := h.kept
  advanced policy' hp' subject' hsub' hkey := by
    by_cases heq : policy'.key subject' = policy.key subject
    · obtain ⟨hop, rfl⟩ := (reservedKey_inj hsub' hsub).1 heq
      obtain rfl := policy_eq_of_operation_eq hp' hp hop
      exact hadv
    · exact h.advanced policy' hp' subject' hsub' ⟨hkey, heq⟩
  within policy' hp' subject' hsub' hkey := by
    by_cases heq : policy'.key subject' = policy.key subject
    · obtain ⟨hop, rfl⟩ := (reservedKey_inj hsub' hsub).1 heq
      obtain rfl := policy_eq_of_operation_eq hp' hp hop
      exact hwithin
    · exact h.within policy' hp' subject' hsub' ⟨hkey, heq⟩

end SpendsOn

/-! ### A spend in flight -/

variable {r : QuotaReceipt}

section

variable {inner : Inner} {own shared : List QuotaRequest} {callId : ℕ}

/-- A principal's account is not the shared one. -/
theorem ownKey_ne_sharedKey (h : validate policies request = .ok (policy, cost)) :
    policy.key request.principal ≠ policy.key quotaGlobalSubject := by
  have hprincipal := (validate_eq_ok h).2.2.1
  intro heq
  have hsub := ((reservedKey_inj (.inr hprincipal) (.inl rfl)).1 heq).2
  rw [hsub, not_isValidPrincipal_global] at hprincipal
  cases hprincipal

/-- **Both parts of the spend are reserved**, and nothing else has changed since `s`. -/
structure Reserving (s t : Store) (policy : QuotaPolicy) (principal : JsString) (cost at' : ℤ)
    (callId : ℕ) : Prop where
  held : ∀ subject, subject = quotaGlobalSubject ∨ subject = principal →
    t.reserved (reservedKey policy.operation subject) =
      some ((s.base policy subject at').plus callId cost)
  counters : t.counters = s.counters
  other : ∀ key, key ≠ reservedKey policy.operation principal →
    key ≠ reservedKey policy.operation quotaGlobalSubject → t.reserved key = s.reserved key
  before : s.nextCallId < callId
  nextCallId : t.nextCallId = callId
  kept : Kept s t at'

theorem reserving_of_readyFor (hvalid : validate policies request = .ok (policy, cost))
    (hready : ReadyFor policies at' s request)
    (hswept : Swept (reserveCounter (reserveCounter { s with nextCallId := s.nextCallId + 1 } policy
      request.principal cost at' (s.nextCallId + 1)) policy quotaGlobalSubject cost at'
        (s.nextCallId + 1)) t at') :
    Reserving s t policy request.principal cost at' (s.nextCallId + 1) := by
  have hne := ownKey_ne_sharedKey hvalid
  -- the three moves, none of which touches the account of another
  have hfirst : ∀ subject, subject = quotaGlobalSubject ∨ subject = request.principal →
      Ready { s with nextCallId := s.nextCallId + 1 } (policy.key subject)
        (windowStartOf policy at') := fun subject hsub ↦
    (hready policy cost hvalid subject hsub).of_same ⟨rfl, rfl⟩ (Nat.le_succ _)
  have hsecond := (hfirst _ (.inl rfl)).of_same
    (sameAccount_reserveCounter hne.symm cost at' (s.nextCallId + 1)) le_rfl
  refine ⟨?_, hswept.counters, fun key h₁ h₂ ↦ ?_, Nat.lt_succ_self _, hswept.nextCallId,
    hswept.kept.active, hswept.kept.free, hswept.kept.refunded⟩
  · rintro subject (rfl | rfl)
    · rw [hswept.reserved, reserved_reserveCounter hsecond]
      congr 2
      rw [base, base, (sameAccount_reserveCounter hne.symm cost at' _).reserved]
      rfl
    · rw [hswept.reserved, (sameAccount_reserveCounter hne cost at' _).reserved,
        reserved_reserveCounter (hfirst _ (.inr rfl))]
      rfl
  · rw [hswept.reserved, (sameAccount_reserveCounter h₂ cost at' _).reserved,
      (sameAccount_reserveCounter h₁ cost at' _).reserved]

/-- A request that does not charge the account being written finds its own accounts ready. -/
theorem Reserving.readyFor (hvalid : validate policies request = .ok (policy, cost))
    (hready : ReadyFor policies at' s request)
    (hr : Reserving s t policy request.principal cost at' callId) (hq : ReadyFor policies at' s q)
    (hclean : ¬ Charges policies q policy.operation request.principal)
    (hu : ∀ key, key ≠ policy.key request.principal → SameAccount t u key)
    (hcalls : callId ≤ u.nextCallId) : ReadyFor policies at' u q := by
  intro policy' cost' hvalid' subject hsubject
  obtain ⟨hp, -, hprincipal, hcost⟩ := validate_eq_ok hvalid
  have hp' := (validate_eq_ok hvalid').1
  have hsub : IsSubject subject :=
    isSubject_of_charges ⟨policy', cost', hvalid', rfl, hsubject⟩
  have hown : policy'.key subject ≠ policy.key request.principal := fun heq ↦ by
    obtain ⟨hop, rfl⟩ := (reservedKey_inj hsub (.inr hprincipal)).1 heq
    exact hclean ⟨policy', cost', hvalid', hop, hsubject⟩
  by_cases hshared : policy'.key subject = policy.key quotaGlobalSubject
  · -- the shared account is held by this very spend
    obtain ⟨hop, rfl⟩ := (reservedKey_inj hsub (.inl rfl)).1 hshared
    obtain rfl := policy_eq_of_operation_eq hp' hp hop
    refine ((hready policy' cost hvalid _ (.inl rfl)).plus hcost hr.before hcalls ?_).1
    rw [(hu _ hown).reserved, hr.held _ (.inl rfl)]
  · refine (hq policy' cost' hvalid' subject hsubject).of_same ?_ (hr.before.le.trans hcalls)
    exact ⟨by rw [(hu _ hown).counters, hr.counters],
      by rw [(hu _ hown).reserved, hr.other _ hown hshared]⟩

/-- **A commit, seen from the other accounts**: they see what the storage ran inside the write. -/
theorem commitCounter_spendsOn {entry : Reservation}
    (hs : s.reserved (policy.key subject) = some entry)
    (hw : entry.windowStart = windowStartOf policy at')
    (hid : entry.owners.any (fun owner ↦ owner.1 = callId) = true)
    (hserves : Serves policies at' inner subject qs)
    (hready : ∀ q ∈ qs, ReadyFor policies at'
      (committing s (policy.key subject) entry callId cost) q) :
    (commitCounter inner s policy subject cost at' callId).SpendsOn {policy.key subject}ᶜ policies
      at' qs s [] := by
  obtain ⟨hanswer, hspends⟩ := hserves _ hready
  obtain ⟨counter, -, -, heq⟩ := commitCounter_eq hs hw hid hanswer
  rw [heq]
  refine ⟨rfl, ?_⟩
  have hbefore : SpendsOn {policy.key subject}ᶜ policies at' [] s
      (committing s (policy.key subject) entry callId cost) [] :=
    SpendsOn.of_same le_rfl ⟨fun _ ↦ rfl, fun _ h ↦ h, rfl⟩
      fun key hkey ↦ sameAccount_setReserved hkey _
  have hafter : ∀ u : Store, SpendsOn {policy.key subject}ᶜ policies at' [] u
      (settleAt (u.setCounter (policy.key subject) counter) (policy.key subject)) [] := fun u ↦ by
    have hrest := sameRest_settleAt (u.setCounter (policy.key subject) counter) (policy.key subject)
    refine SpendsOn.of_same hrest.nextCallId.symm.le
      (Kept.of_eq (s := u) hrest.overrides hrest.refunded at') fun key hkey ↦ ?_
    have hset : SameAccount u (u.setCounter (policy.key subject) counter) key :=
      sameAccount_setCounter hkey _
    have hsettle := sameAccount_settleAt (u.setCounter (policy.key subject) counter) hkey
    exact ⟨hsettle.counters.trans hset.counters, hsettle.reserved.trans hset.reserved⟩
  have hall := (hbefore.trans (hspends.mono (Set.subset_univ _) (List.Subset.refl qs))).trans
    (hafter _)
  simpa using hall

/-- The accounts that a spend does not charge. -/
def elsewhere (policy : QuotaPolicy) (principal : JsString) : Set JsString :=
  {key | key ≠ reservedKey policy.operation principal ∧
    key ≠ reservedKey policy.operation quotaGlobalSubject}

theorem elsewhere_eq (policy : QuotaPolicy) (principal : JsString) :
    elsewhere policy principal = (Set.univ \ {policy.key principal}) \
      {policy.key quotaGlobalSubject} := by
  ext key
  simp [elsewhere]

/-- The accounts elsewhere see neither the reservation nor the write for the principal. -/
theorem Reserving.spendsOn (hr : Reserving s t policy request.principal cost at' callId)
    (hu : SpendsOn {policy.key request.principal}ᶜ policies at' own t u g) :
    SpendsOn (elsewhere policy request.principal) policies at' own s u g := by
  have hreserved : SpendsOn (elsewhere policy request.principal) policies at' [] s t [] :=
    SpendsOn.of_same (by rw [hr.nextCallId]; exact hr.before.le) hr.kept
      fun key hkey ↦ ⟨by rw [hr.counters], hr.other key hkey.1 hkey.2⟩
  simpa using hreserved.trans (hu.mono (fun key hkey ↦ hkey.1) (List.Subset.refl _))

/-- The receipt of a spend adds nothing to the accounts elsewhere. -/
theorem SpendsOn.add_receipt
    (h : SpendsOn (elsewhere policy request.principal) policies at' qs s u g)
    (hreceipt : GrantedTo policies at' request r) (hop : r.operation = policy.operation)
    (hprincipal : r.principal = request.principal) :
    SpendsOn (elsewhere policy request.principal) policies at' (request :: qs) s u (g ++ [r]) where
  source x hx := by
    rcases mem_append.1 hx with hx | hx
    · obtain ⟨q, hq, hgranted⟩ := h.source x hx
      exact ⟨q, mem_cons_of_mem _ hq, hgranted⟩
    · rw [mem_singleton.1 hx]
      exact ⟨request, mem_cons_self, hreceipt⟩
  calls := h.calls
  kept := h.kept
  advanced policy' hp' subject hsub hkey := by
    rw [charged_append, charged_singleton, if_neg, add_zero]
    · exact h.advanced policy' hp' subject hsub hkey
    · -- the receipt charges only the two accounts of the spend
      rintro ⟨hop', rfl | rfl⟩
      · exact hkey.2 (by rw [← hop', hop])
      · exact hkey.1 (by rw [← hop', hop, hprincipal])
  within := h.within

/-- A request that leaves the shared account of an operation alone is for another operation. -/
theorem operation_ne_of_not_charges
    (hclean : ¬ Charges policies q policy.operation quotaGlobalSubject)
    (hcharges : Charges policies q operation subject) : operation ≠ policy.operation := by
  obtain ⟨policy', cost', hq, hop, -⟩ := hcharges
  rintro rfl
  exact hclean ⟨policy', cost', hq, hop, .inl rfl⟩

section

variable (hr : Reserving s t policy request.principal cost at' callId)
include hr

/-- **The commit of one part of the spend**, after others have moved its account by `d`. -/
theorem Reserving.commit {d : ℤ} (hp : policy ∈ policies.1) (hsub : IsSubject subject)
    (hsubject : subject = quotaGlobalSubject ∨ subject = request.principal)
    (hready : ReadyAt s policy subject at')
    (hmoved : Advanced t u (policy.key subject) (windowStartOf policy at') d)
    (hserves : Serves policies at' inner subject qs)
    (hinside : ∀ entry, u.reserved (policy.key subject) = some entry →
      ∀ q ∈ qs, ReadyFor policies at' (committing u (policy.key subject) entry callId cost) q)
    (hclean : ∀ q ∈ qs, ¬ Charges policies q policy.operation subject) :
    (commitCounter inner u policy subject cost at' callId).SpendsOn {policy.key subject}ᶜ policies
        at' qs u [] ∧
      Advanced s (commitCounter inner u policy subject cost at' callId).store
        (policy.key subject) (windowStartOf policy at') (d + cost) := by
  have hheld := hr.held subject hsubject
  obtain ⟨denied, hentry⟩ := hmoved.held _ hheld
  refine ⟨commitCounter_spendsOn hentry hready.base_spec.1 (any_owner_plus _ callId cost)
    hserves (hinside _ hentry), ?_⟩
  refine advanced_commit hready hr.before (by rw [hr.counters]) hheld hmoved
    fun entry hentry ↦ ?_
  obtain ⟨hanswer, hspends⟩ := hserves _ (hinside entry hentry)
  have hzero := charged_eq_zero hspends.source hclean
  exact ⟨hanswer, hzero ▸ hspends.advanced policy hp _ hsub trivial⟩

/-- What the storage runs inside the write for the shared account finds its own accounts ready. -/
theorem Reserving.readyFor_shared (hsub : IsSubject request.principal)
    (hu : SpendsOn {policy.key request.principal}ᶜ policies at' own t u g)
    (hq : ReadyFor policies at' s q)
    (hclean : ¬ Charges policies q policy.operation quotaGlobalSubject) (entry : Reservation) :
    ReadyFor policies at' (committing u (policy.key quotaGlobalSubject) entry callId cost) q := by
  have hrest := (hr.spendsOn hu).trans (SpendsOn.of_same (t := committing u
    (policy.key quotaGlobalSubject) entry callId cost) le_rfl
    ⟨fun _ ↦ rfl, fun _ h ↦ h, rfl⟩ fun key hkey ↦ sameAccount_setReserved hkey.2 _)
  refine hrest.readyFor hq fun operation subject hcharges ↦ ?_
  have hop := operation_ne_of_not_charges hclean hcharges
  have hsubject := isSubject_of_charges hcharges
  exact ⟨fun heq ↦ hop ((reservedKey_inj hsubject hsub).1 heq).1,
    fun heq ↦ hop ((reservedKey_inj hsubject (.inl rfl)).1 heq).1⟩

/-- **A granted spend.** -/
theorem grant_spends (hvalid : validate policies request = .ok (policy, cost))
    (hready : ∀ q ∈ request :: (own ++ shared), ReadyFor policies at' s q)
    (hown : Serves policies at' inner request.principal own)
    (hshared : Serves policies at' inner quotaGlobalSubject shared)
    (hcleanOwn : ∀ q ∈ own, ¬ Charges policies q policy.operation request.principal)
    (hcleanShared : ∀ q ∈ shared, ¬ Charges policies q policy.operation quotaGlobalSubject)
    (hfits : ∀ subject, subject = quotaGlobalSubject ∨ subject = request.principal →
      (limitOf s policy subject at').exceededBy
        (t.total (policy.key subject) (windowStartOf policy at')) = false)
    (hreceipt : GrantedTo policies at' request r) :
    ((commitCounter inner t policy request.principal cost at' callId).andThen fun _ u ↦
        commitCounter inner u policy quotaGlobalSubject cost at' callId).SpendsOn .univ policies at'
      (request :: (own ++ shared)) s [r] := by
  obtain ⟨hp, -, hprincipal, hcost⟩ := validate_eq_ok hvalid
  obtain ⟨policy', cost', hvalid', hrop, hrprincipal, hrcost, -⟩ := id hreceipt
  obtain ⟨rfl, rfl⟩ := Prod.mk.inj (Except.ok.inj (hvalid.symm.trans hvalid'))
  have hne := ownKey_ne_sharedKey hvalid
  have hself := hready request mem_cons_self
  have hreadyOwn := hself policy cost hvalid _ (.inr rfl)
  have hreadyShared := hself policy cost hvalid _ (.inl rfl)
  have hownSub : IsSubject request.principal := .inr hprincipal
  have hsharedSub : IsSubject quotaGlobalSubject := .inl rfl
  obtain ⟨⟨hanswer₁, hspends₁⟩, hownAdvanced⟩ := hr.commit hp hownSub (.inr rfl) hreadyOwn
    (Advanced.of_same ⟨rfl, rfl⟩) hown
    (fun entry _ q hq ↦ hr.readyFor hvalid hself (hready q (by simp [hq])) (hcleanOwn q hq)
      (fun key hkey ↦ sameAccount_setReserved hkey _) hr.nextCallId.ge) hcleanOwn
  generalize commitCounter inner t policy request.principal cost at' callId = first at *
  rw [append_nil] at hspends₁
  -- the second commit finds the shared account as the first one left it
  have hmoved := hspends₁.advanced policy hp _ hsharedSub hne.symm
  obtain ⟨⟨hanswer₂, hspends₂⟩, hsharedAdvanced⟩ := hr.commit hp hsharedSub (.inl rfl) hreadyShared
    hmoved hshared (fun entry _ q hq ↦
      hr.readyFor_shared hownSub hspends₁ (hready q (by simp [hq])) (hcleanShared q hq) entry)
    hcleanShared
  rw [Ran.andThen, hanswer₁]
  simp only
  generalize commitCounter inner first.store policy quotaGlobalSubject cost at' callId = second at *
  rw [append_nil] at hspends₂
  refine ⟨hanswer₂, ?_⟩
  have hnone : ∀ subject, charged second.nested policy.operation subject = 0 := fun subject ↦
    charged_eq_zero hspends₂.source fun q hq hcharges ↦
      operation_ne_of_not_charges (hcleanShared q hq) hcharges rfl
  have hothers := ((hr.spendsOn hspends₁).trans
    (hspends₂.mono (fun key hkey ↦ hkey.2) (List.Subset.refl _))).add_receipt hreceipt hrop
      hrprincipal
  have hownFinal : Advanced s second.store (policy.key request.principal)
      (windowStartOf policy at') cost := by
    have hadv := hownAdvanced.trans (hspends₂.advanced policy hp _ hownSub hne)
    rwa [hnone, zero_add, add_zero] at hadv
  have hownCharged :
      charged (first.nested ++ second.nested ++ [r]) policy.operation request.principal = cost := by
    have hzero := charged_eq_zero hspends₁.source hcleanOwn
    rw [charged_append, charged_append, charged_singleton, if_pos ⟨hrop, .inr hrprincipal.symm⟩,
      hzero, hnone, hrcost, zero_add, zero_add]
  have hsharedCharged :
      charged (first.nested ++ second.nested ++ [r]) policy.operation quotaGlobalSubject =
        charged first.nested policy.operation quotaGlobalSubject + cost := by
    rw [charged_append, charged_append, charged_singleton, if_pos ⟨hrop, .inl rfl⟩, hnone,
      add_zero, hrcost]
  rw [elsewhere_eq] at hothers
  refine (hothers.insert hp hsharedSub (hsharedCharged ▸ hsharedAdvanced) fun _ ↦ ?_).insert hp
    hownSub (hownCharged ▸ hownFinal) fun _ ↦ ?_
  · -- what the storage granted in between was granted within the limit
    have htotal := (hreadyShared.plus hcost hr.before hr.nextCallId.ge (hr.held _ (.inl rfl))).2
    have hwithin := hspends₁.within policy hp _ hsharedSub hne.symm
      (by rw [hr.kept.limitOf]; exact hfits _ (.inl rfl))
    rw [hr.kept.limitOf, hmoved.total, htotal] at hwithin
    rw [hsharedAdvanced.total, ← hwithin]
    congr 1
    omega
  · have htotal := (hreadyOwn.plus hcost hr.before hr.nextCallId.ge (hr.held _ (.inr rfl))).2
    rw [hownFinal.total, ← htotal]
    exact hfits _ (.inr rfl)

/-- Once both parts are released, every account is as it was. -/
theorem Reserving.sameAccount_released (hvalid : validate policies request = .ok (policy, cost))
    (hready : ReadyFor policies at' s request)
    (key : JsString) :
    SameAccount s (releaseCounter (releaseCounter t policy request.principal cost at' callId) policy
      quotaGlobalSubject cost at' callId) key := by
  have hne := ownKey_ne_sharedKey hvalid
  have hcounters : (releaseCounter (releaseCounter t policy request.principal cost at' callId)
      policy quotaGlobalSubject cost at' callId).counters = s.counters := by
    rw [(sameRest_releaseCounter _ _ _ _ _ _).2, (sameRest_releaseCounter _ _ _ _ _ _).2,
      hr.counters]
  refine ⟨by rw [hcounters], ?_⟩
  by_cases hshared : key = policy.key quotaGlobalSubject
  · subst hshared
    refine reserved_releaseCounter (hready policy cost hvalid _ (.inl rfl)) hr.before ?_
    rw [(sameAccount_releaseCounter t hne.symm cost at' callId).reserved, hr.held _ (.inl rfl)]
  · rw [(sameAccount_releaseCounter _ hshared cost at' callId).reserved]
    by_cases hown : key = policy.key request.principal
    · subst hown
      exact reserved_releaseCounter (hready policy cost hvalid _ (.inr rfl)) hr.before
        (hr.held _ (.inr rfl))
    · rw [(sameAccount_releaseCounter t hown cost at' callId).reserved, hr.other _ hown hshared]

end

/-- A refusal that is noted moves no units. -/
theorem noteDenial_spec (s : Store) (policy : QuotaPolicy) (subject : JsString) (at' denied : ℤ) :
    SameRest s (noteDenial s policy subject at' denied) ∧
      (∀ key ≠ policy.key subject, SameAccount s (noteDenial s policy subject at' denied) key) ∧
      Advanced s (noteDenial s policy subject at' denied) (policy.key subject)
        (windowStartOf policy at') 0 := by
  rw [noteDenial]
  split
  · exact ⟨⟨rfl, rfl, rfl⟩, fun _ _ ↦ ⟨rfl, rfl⟩, .of_same ⟨rfl, rfl⟩⟩
  next live hlive =>
  have hs := (Option.filter_eq_some_iff.1 hlive).1
  refine ⟨⟨rfl, rfl, rfl⟩, fun _ hkey ↦ sameAccount_setReserved hkey _, (add_zero _).symm,
    fun hfree ↦ ?_, fun entry hentry ↦ ⟨denied, ?_⟩, fun _ hc ↦ .inl hc⟩
  · cases hs.symm.trans hfree
  · cases hs.symm.trans hentry
    rw [reserved_setReserved, add_zero]

/-- A write that keeps the units of an account as they were when it was computed. -/
theorem writeCounter_spends {counter : Counter} (hp : policy ∈ policies.1)
    (hsub : IsSubject subject) (hserves : Serves policies at' inner subject qs)
    (hready : ∀ q ∈ qs, ReadyFor policies at' s q)
    (hclean : ∀ q ∈ qs, ¬ Charges policies q policy.operation subject)
    (hwindow : counter.windowStart = windowStartOf policy at')
    (hused : counter.used = s.usedAt (policy.key subject) (windowStartOf policy at')) :
    (writeCounter inner s policy.operation subject counter).SpendsOn .univ policies at' qs s
      [] := by
  obtain ⟨hanswer, hspends⟩ := hserves s hready
  have hzero := charged_eq_zero hspends.source hclean
  have hinside := hspends.advanced policy hp subject hsub trivial
  rw [writeCounter, Ran.andThen, hanswer]
  refine ⟨rfl, ?_⟩
  simp only [append_nil]
  have hoff := (hspends.mono (Set.subset_univ (Set.univ \ {policy.key subject}))
    (List.Subset.refl qs)).trans (SpendsOn.of_same
      (t := (inner subject s).store.setCounter (policy.key subject) counter)
      le_rfl ⟨fun _ ↦ rfl, fun _ h ↦ h, rfl⟩ fun key hkey ↦ sameAccount_setCounter hkey.2 _)
  rw [append_nil, append_nil] at hoff
  have hadv : Advanced s ((inner subject s).store.setCounter (policy.key subject)
      counter) (policy.key subject) (windowStartOf policy at')
      (charged (inner subject s).nested policy.operation subject) := by
    refine ⟨?_, hinside.free, hinside.held, fun c hc ↦ .inr ?_⟩
    · rw [usedAt, counters_setCounter, hzero, add_zero, ← hused]
      exact if_pos hwindow
    · rw [counters_setCounter] at hc
      exact Option.some.inj hc ▸ hwindow
  refine hoff.insert hp hsub hadv fun hwithin ↦ ?_
  rwa [hadv.total, hzero, add_zero]

/-- **A refused spend** leaves every account where it was, beside what the storage runs inside the
write. -/
theorem refuse_spends (hvalid : validate policies request = .ok (policy, cost))
    (hready : ∀ q ∈ request :: qs, ReadyFor policies at' s q)
    (hr : Reserving s t policy request.principal cost at' callId) {scope : QuotaLimitScope}
    (hsubject : (if scope = .principal then request.principal else quotaGlobalSubject) = subject)
    (hserves : Serves policies at' inner subject qs)
    (hclean : ∀ q ∈ qs, ¬ Charges policies q policy.operation subject)
    (hdate : (Date.toISOString at').isSome = true) (limit : EffectiveLimit)
    (correlationId : JsString) :
    (recordRefusal inner t policy request.principal cost at' callId scope limit
      correlationId).SpendsOn .univ policies at' qs s [] := by
  obtain ⟨iso, hiso⟩ := Option.isSome_iff_exists.1 hdate
  have hp := (validate_eq_ok hvalid).1
  have hreleased := hr.sameAccount_released hvalid (hready request mem_cons_self)
  have hsub : IsSubject subject := by
    rw [← hsubject]
    split
    · exact .inr (validate_eq_ok hvalid).2.2.1
    · exact .inl rfl
  rw [recordRefusal]
  simp only [hsubject]
  generalize hrel :
    releaseCounter (releaseCounter t policy request.principal cost at' callId) policy
      quotaGlobalSubject cost at' callId = released at *
  generalize (readCounter released policy subject at').denied + 1 = denied
  have hrest : SameRest t released := by
    have h₁ := (sameRest_releaseCounter t policy request.principal cost at' callId).1
    have h₂ := (sameRest_releaseCounter (releaseCounter t policy request.principal cost at' callId)
      policy quotaGlobalSubject cost at' callId).1
    rw [← hrel]
    exact ⟨h₂.overrides.trans h₁.overrides, h₂.refunded.trans h₁.refunded,
      h₂.nextCallId.trans h₁.nextCallId⟩
  -- the refusal is noted on the live reservation, which moves no units
  have hnoted : Spends policies at' [] s (noteDenial released policy subject at' denied) [] := by
    obtain ⟨hnote, hothers, hadv⟩ := noteDenial_spec released policy subject at' denied
    replace hadv := hadv.same_trans (hreleased _)
    refine (SpendsOn.of_same ?_ ((hr.kept.trans (hrest.kept at')).trans (hnote.kept at'))
      fun key hkey ↦ ?_).insert hp hsub hadv fun hw ↦ ?_
    · rw [hnote.nextCallId, hrest.nextCallId, hr.nextCallId]
      exact hr.before.le
    · have hsame := hothers key hkey.2
      exact ⟨hsame.counters.trans (hreleased key).counters,
        hsame.reserved.trans (hreleased key).reserved⟩
    · rwa [hadv.total, add_zero]
  generalize hcounter : ({ readStoredCounter (noteDenial released policy subject at' denied) policy
      subject at' with
    denied := max (readStoredCounter (noteDenial released policy subject at' denied) policy subject
      at').denied denied } : Counter) = counter
  have hwindow : counter.windowStart = windowStartOf policy at' := by
    rw [← hcounter]
    exact windowStart_readStoredCounter _ _ _ _
  have hused : counter.used = (noteDenial released policy subject at' denied).usedAt
      (policy.key subject) (windowStartOf policy at') := by
    rw [← hcounter]
    exact used_readStoredCounter _ _ _ _
  obtain ⟨hanswer, hwrite⟩ := writeCounter_spends hp hsub hserves
    (fun q hq ↦ hnoted.readyFor (hready q (mem_cons_of_mem _ hq)) fun _ _ _ ↦ trivial) hclean
    hwindow hused
  rw [Ran.andThen, hanswer, hiso]
  refine ⟨rfl, ?_⟩
  simpa using (hnoted.trans hwrite).trans (SpendsOn.of_same (t := pushDenial _ _) le_rfl
    ⟨fun _ ↦ rfl, fun _ h ↦ h, rfl⟩ fun key _ ↦ ⟨rfl, rfl⟩)

end

/-! ### The whole call -/

def receiptsOf : Answer → List QuotaReceipt
  | .ok r => [r]
  | .error _ => []

/-- The clock and the end of the window are instants that a `Date` holds. -/
def Dated (policies : Policies) (at' : ℤ) (request : QuotaRequest) : Prop :=
  ∀ policy cost, validate policies request = .ok (policy, cost) →
    (Date.toISOString at').isSome = true ∧
      (Date.toISOString (windowStartOf policy at' + policy.windowMs)).isSome = true

instance (policies : Policies) (at' : ℤ) (request : QuotaRequest) :
    Decidable (Dated policies at' request) :=
  match h : validate policies request with
  | .error _ => .isTrue fun _ _ hvalid ↦ by rw [h] at hvalid; cases hvalid
  | .ok (policy, cost) =>
    decidable_of_iff ((Date.toISOString at').isSome = true ∧
        (Date.toISOString (windowStartOf policy at' + policy.windowMs)).isSome = true)
      ⟨fun hdates _ _ hvalid ↦ by rw [h] at hvalid; cases hvalid; exact hdates,
        fun hdated ↦ hdated policy cost h⟩

/-- The counter that refuses, the principal's before the shared one. -/
def Refuses (s : Store) (policy : QuotaPolicy) (principal : JsString) (cost at' : ℤ) :
    QuotaLimitScope → Prop
  | .principal => (limitOf s policy principal at').exceededBy
      (s.total (reservedKey policy.operation principal) (windowStartOf policy at') + cost) = true
  | .global => (limitOf s policy principal at').exceededBy
      (s.total (reservedKey policy.operation principal) (windowStartOf policy at') + cost) = false ∧
    (limitOf s policy quotaGlobalSubject at').exceededBy
      (s.total (reservedKey policy.operation quotaGlobalSubject) (windowStartOf policy at') +
        cost) = true

/-- Both counters have room. -/
def Fits (s : Store) (policy : QuotaPolicy) (principal : JsString) (cost at' : ℤ) : Prop :=
  ∀ subject, subject = quotaGlobalSubject ∨ subject = principal →
    (limitOf s policy subject at').exceededBy
      (s.total (reservedKey policy.operation subject) (windowStartOf policy at') + cost) = false

/-- **What a valid spending call does**: it reserves, and is refused by one counter or committed to
both. -/
theorem evaluate_cases (inner : Inner) (freshId : JsString)
    (hvalid : validate policies request = .ok (policy, cost))
    (hready : ReadyFor policies at' s request) :
    ∃ t, Reserving s t policy request.principal cost at' (s.nextCallId + 1) ∧
      ((∃ scope limit denial, Refuses s policy request.principal cost at' scope ∧
          evaluate policies inner s request true freshId at' =
            (recordRefusal inner t policy request.principal cost at' (s.nextCallId + 1) scope limit
              (request.correlationId.getD freshId)).andThen fun _ u ↦
                ⟨u, some (.error (.quotaExceeded, some denial)), []⟩) ∨
        (Fits s policy request.principal cost at' ∧
          ∃ remaining, evaluate policies inner s request true freshId at' =
            ((commitCounter inner t policy request.principal cost at' (s.nextCallId + 1)).andThen
              fun _ u ↦ commitCounter inner u policy quotaGlobalSubject cost at'
                (s.nextCallId + 1)).andThen fun _ u ↦
              ⟨u, (Date.toISOString (windowStartOf policy at' + policy.windowMs)).map fun resetAt ↦
                .ok ⟨policy.operation, request.principal, cost, windowStartOf policy at', remaining,
                  resetAt, request.correlationId.getD freshId⟩, []⟩)) := by
  have hcost := (validate_eq_ok hvalid).2.2.2
  rw [evaluate, hvalid]
  simp only [if_true, add_zero, windowStart_readCounter, used_readCounter]
  generalize hres : reserveCounter (reserveCounter { s with nextCallId := s.nextCallId + 1 }
    policy request.principal cost at' (s.nextCallId + 1)) policy quotaGlobalSubject cost at'
    (s.nextCallId + 1) = reserved
  have hswept₁ := swept_effectiveLimit reserved policy request.principal at'
  have hlimit₁ : limitOf reserved policy request.principal at' =
    (effectiveLimit reserved policy request.principal at').1 := rfl
  generalize effectiveLimit reserved policy request.principal at' = first at *
  obtain ⟨ownLimit, t₁⟩ := first
  have hswept₂ := swept_effectiveLimit t₁ policy quotaGlobalSubject at'
  have hlimit₂ : limitOf t₁ policy quotaGlobalSubject at' =
    (effectiveLimit t₁ policy quotaGlobalSubject at').1 := rfl
  simp only at hswept₁ hlimit₁ ⊢
  generalize effectiveLimit t₁ policy quotaGlobalSubject at' = second at *
  obtain ⟨sharedLimit, t⟩ := second
  simp only at hswept₂ hlimit₂ ⊢
  have hswept := hswept₁.trans hswept₂
  have hr := reserving_of_readyFor hvalid hready (hres ▸ hswept)
  -- the limits that are compared are those of the store before the call
  have hkept : Kept s reserved at' := hres ▸ ⟨fun _ ↦ rfl, fun _ h ↦ h, rfl⟩
  rw [hkept.limitOf] at hlimit₁
  rw [(hkept.trans hswept₁.kept).limitOf] at hlimit₂
  have htotal : ∀ subject, subject = quotaGlobalSubject ∨ subject = request.principal →
      reserved.total (policy.key subject) (windowStartOf policy at') =
        s.total (policy.key subject) (windowStartOf policy at') + cost :=
    fun subject hsubject ↦ by
      rw [← SameAccount.total ⟨by rw [hswept.counters], by rw [hswept.reserved]⟩]
      exact ((hready policy cost hvalid subject hsubject).plus hcost hr.before hr.nextCallId.ge
        (hr.held subject hsubject)).2
  rw [htotal _ (.inr rfl), htotal _ (.inl rfl), ← hlimit₁, ← hlimit₂]
  refine ⟨t, hr, ?_⟩
  cases hown : (limitOf s policy request.principal at').exceededBy
      (s.total (policy.key request.principal) (windowStartOf policy at') + cost) with
  | true =>
    rw [if_pos rfl]
    exact .inl ⟨.principal, _, _, hown, rfl⟩
  | false =>
    rw [if_neg Bool.false_ne_true]
    cases hshared : (limitOf s policy quotaGlobalSubject at').exceededBy
        (s.total (policy.key quotaGlobalSubject) (windowStartOf policy at') + cost) with
    | true =>
      rw [if_pos rfl]
      exact .inl ⟨.global, _, _, ⟨hown, hshared⟩, rfl⟩
    | false =>
      rw [if_neg Bool.false_ne_true]
      refine .inr ⟨?_, _, rfl⟩
      rintro subject (rfl | rfl)
      · exact hshared
      · exact hown

/-- **A spending call answers, and does nothing but spend**: if it is granted, both its accounts
advance by its cost, and the spends granted inside its writes are kept. -/
theorem evaluate_spends {inner : Inner} {own shared : List QuotaRequest}
    (hown : isValidPrincipal request.principal = true →
      Serves policies at' inner request.principal own)
    (hshared : Serves policies at' inner quotaGlobalSubject shared)
    (hready : ∀ q ∈ request :: (own ++ shared), ReadyFor policies at' s q)
    (hcleanOwn : ∀ q ∈ own, ¬ Charges policies q request.operation request.principal)
    (hcleanShared : ∀ q ∈ shared, ¬ Charges policies q request.operation quotaGlobalSubject)
    (hdated : Dated policies at' request) (freshId : JsString) :
    ∃ answer, (evaluate policies inner s request true freshId at').answer = some answer ∧
      Spends policies at' (request :: (own ++ shared)) s
        (evaluate policies inner s request true freshId at').store
        ((evaluate policies inner s request true freshId at').nested ++ receiptsOf answer) := by
  cases hvalid : validate policies request with
  | error code =>
    rw [evaluate, hvalid]
    exact ⟨_, rfl, (SpendsOn.refl s).mono (Set.subset_univ _) (nil_subset _)⟩
  | ok valid =>
    obtain ⟨policy, cost⟩ := valid
    obtain ⟨-, hop, hprincipal, hcost⟩ := validate_eq_ok hvalid
    have hown := hown hprincipal
    obtain ⟨hat, hreset⟩ := hdated policy cost hvalid
    obtain ⟨resetAt, hresetAt⟩ := Option.isSome_iff_exists.1 hreset
    rw [← hop] at hcleanOwn hcleanShared
    have hreadySelf := hready request mem_cons_self
    obtain ⟨t, hr, ⟨scope, limit, denial, -, heq⟩ | ⟨hfits, remaining, heq⟩⟩ :=
      evaluate_cases inner freshId hvalid hreadySelf
    · -- which requests run inside the write depends on the refusing counter
      have hrefused : (recordRefusal inner t policy request.principal cost at' (s.nextCallId + 1)
          scope limit (request.correlationId.getD freshId)).SpendsOn .univ policies at'
            (request :: (own ++ shared)) s [] := by
        cases scope with
        | principal =>
          have hsub := cons_subset_cons request (subset_append_left own shared)
          have h := refuse_spends hvalid (fun q hq ↦ hready q (hsub hq)) hr (if_pos rfl) hown
            hcleanOwn hat limit (request.correlationId.getD freshId)
          exact ⟨h.1, h.2.mono (Set.subset_univ _) fun q hq ↦ hsub (mem_cons_of_mem _ hq)⟩
        | global =>
          have hsub := cons_subset_cons request (subset_append_right own shared)
          have h := refuse_spends hvalid (fun q hq ↦ hready q (hsub hq)) hr
            (if_neg (show ¬ QuotaLimitScope.global = .principal by decide)) hshared hcleanShared hat
            limit (request.correlationId.getD freshId)
          exact ⟨h.1, h.2.mono (Set.subset_univ _) fun q hq ↦ hsub (mem_cons_of_mem _ hq)⟩
      rw [heq, Ran.andThen, hrefused.1]
      exact ⟨_, rfl, by simpa [receiptsOf] using hrefused.2⟩
    · obtain ⟨hanswer, hspends⟩ := grant_spends hr hvalid hready hown hshared hcleanOwn hcleanShared
        (fun subject hsubject ↦ by
          rw [((hreadySelf policy cost hvalid subject hsubject).plus hcost hr.before
            hr.nextCallId.ge (hr.held subject hsubject)).2]
          exact hfits subject hsubject)
        (r := ⟨policy.operation, request.principal, cost, windowStartOf policy at', remaining,
          resetAt, request.correlationId.getD freshId⟩)
        ⟨policy, cost, hvalid, rfl, rfl, rfl, rfl⟩
      rw [heq, Ran.andThen, hanswer, hresetAt]
      exact ⟨_, rfl, by simpa [receiptsOf] using hspends⟩

end Utix.Quota

import Utix.Quota.Spend

/-!
# Spends inside writes

A storage that calls the store again from inside `setItem` makes a tree of calls: each spend writes
at most once for its principal and once for the shared subject, and inside either write further
spends may run, to any depth.

The store is written for this, and nearly gets it right. A spend inside the write of *another*
account is never lost: the reservation makes it visible to every decision, and each commit adds to
what is on disk when it starts. But a commit reads the disk **before** it hands the value to the
storage. A spend inside that very write, on the same account, lands first and is overwritten
(`nested_spend_is_lost`).

`Undisturbed` is the condition under which nothing is lost: no call inside the write of an account
charges that account, the window ends at a date, and the costs of all calls of the tree add up to
less than `2 ^ 53`. The last part is about the numbers of the language. Every value that a counter
or a reservation goes through is a sum of costs of the tree, and such sums are exact below that
bound, so the integers of the model are the numbers of the code. Above it they are not: next to a
reservation of one unit a refused spend of `2 ^ 53` leaves a reservation of nothing.
-/

namespace Utix.Quota

open Js List

/-! ### Trees of calls -/

/-- A spend, with the spends that the storage makes inside its two writes. -/
inductive SpendCall
  | consume (request : QuotaRequest) (freshId : JsString) (onOwn onShared : List SpendCall)

mutual

/-- The requests of a call and of all calls inside it. -/
def SpendCall.requests : SpendCall → List QuotaRequest
  | .consume request _ onOwn onShared => request :: (requestsAll onOwn ++ requestsAll onShared)

def requestsAll : List SpendCall → List QuotaRequest
  | [] => []
  | call :: calls => call.requests ++ requestsAll calls

end

mutual

/-- `consume(request)` on a storage that makes these calls, and the receipts it leads to. The clock
stands still. -/
def SpendCall.run (policies : Policies) (at' : ℤ) (s : Store) : SpendCall → Ran Answer
  | .consume request freshId onOwn onShared =>
    evaluate policies
      (fun subject s ↦
        if subject = quotaGlobalSubject then runAll policies at' s onShared
        else runAll policies at' s onOwn)
      s request true freshId at'

/-- One call after another, with the receipts of the calls and of those inside them. -/
def runAll (policies : Policies) (at' : ℤ) (s : Store) : List SpendCall → Ran Unit
  | [] => ⟨s, some (), []⟩
  | call :: calls =>
    let r := call.run policies at' s
    match r.answer with
    | none => ⟨r.store, none, r.nested⟩
    | some answer =>
      let rest := runAll policies at' r.store calls
      ⟨rest.store, rest.answer, r.nested ++ receiptsOf answer ++ rest.nested⟩

end

mutual

/-- No call inside the write of an account charges that account, at any depth. -/
def SpendCall.Clean (policies : Policies) : SpendCall → Prop
  | .consume request _ onOwn onShared =>
    (∀ q ∈ requestsAll onOwn, ¬ Charges policies q request.operation request.principal) ∧
      (∀ q ∈ requestsAll onShared, ¬ Charges policies q request.operation quotaGlobalSubject) ∧
        CleanAll policies onOwn ∧ CleanAll policies onShared

def CleanAll (policies : Policies) : List SpendCall → Prop
  | [] => True
  | call :: calls => call.Clean policies ∧ CleanAll policies calls

end

/-- The cost that a request asks for; one that is not a whole number is refused at once. -/
def QuotaRequest.units (request : QuotaRequest) : ℕ :=
  ((toInteger (request.cost.getD (JsNum.ofInt 1))).getD 0).toNat

/-- **What a tree of calls must keep to**: it is clean, the ends of the windows are dates, and its
costs add up to less than the bound below which the numbers of the language are exact. -/
structure Undisturbed (policies : Policies) (at' : ℤ) (calls : List SpendCall) : Prop where
  clean : CleanAll policies calls
  dated : ∀ q ∈ requestsAll calls, Dated policies at' q
  exact : ((requestsAll calls).map QuotaRequest.units).sum < 2 ^ 53

/-! ### Nothing is lost in a clean tree -/

variable {policies : Policies} {at' : ℤ}

mutual

/-- **A clean call does nothing but spend**, by induction on the tree. -/
theorem SpendCall.run_spends : ∀ (call : SpendCall) {s : Store},
    call.Clean policies → (∀ q ∈ call.requests, Dated policies at' q) →
      (∀ q ∈ call.requests, ReadyFor policies at' s q) →
        ∃ answer, (call.run policies at' s).answer = some answer ∧
          Spends policies at' call.requests s (call.run policies at' s).store
            ((call.run policies at' s).nested ++ receiptsOf answer)
  | .consume request freshId onOwn onShared, s, hclean, hdated, hready => by
    obtain ⟨hcleanOwn, hcleanShared, hallOwn, hallShared⟩ := hclean
    rw [SpendCall.requests] at hdated hready ⊢
    refine evaluate_spends (fun hprincipal t ht ↦ ?_) (fun t ht ↦ ?_) hready hcleanOwn hcleanShared
      (hdated request mem_cons_self) freshId
    · have hne : request.principal ≠ quotaGlobalSubject := fun h ↦ by
        rw [h, not_isValidPrincipal_global] at hprincipal
        cases hprincipal
      simp only [if_neg hne]
      exact runAll_spends onOwn hallOwn (fun q hq ↦ hdated q (by simp [hq])) ht
    · simp only [if_true]
      exact runAll_spends onShared hallShared (fun q hq ↦ hdated q (by simp [hq])) ht

/-- **So do clean calls one after the other.** -/
theorem runAll_spends : ∀ (calls : List SpendCall) {s : Store},
    CleanAll policies calls → (∀ q ∈ requestsAll calls, Dated policies at' q) →
      (∀ q ∈ requestsAll calls, ReadyFor policies at' s q) →
        (runAll policies at' s calls).answer = some () ∧
          Spends policies at' (requestsAll calls) s (runAll policies at' s calls).store
            (runAll policies at' s calls).nested
  | [], s, _, _, _ => by exact ⟨rfl, SpendsOn.refl s⟩
  | call :: calls, s, hclean, hdated, hready => by
    rw [requestsAll] at hdated hready ⊢
    obtain ⟨answer, hanswer, hspends⟩ := call.run_spends hclean.1
      (fun q hq ↦ hdated q (mem_append_left _ hq))
      (fun q hq ↦ hready q (mem_append_left _ hq))
    obtain ⟨hrest, hspends'⟩ := runAll_spends calls hclean.2
      (fun q hq ↦ hdated q (mem_append_right _ hq))
      (fun q hq ↦ hspends.readyFor (hready q (mem_append_right _ hq)) fun _ _ _ ↦ trivial)
    rw [runAll, hanswer]
    exact ⟨hrest, hspends.trans hspends'⟩

end

/-- No call is in flight, and nothing has been spent in this window. -/
structure Store.Untouched (s : Store) (policies : Policies) (at' : ℤ) : Prop where
  reserved : ∀ key, s.reserved key = none
  used : ∀ policy ∈ policies.1, ∀ subject,
    s.usedAt (reservedKey policy.operation subject) (windowStartOf policy at') = 0

/-- Nothing is used in a window that nobody has touched. -/
theorem Store.Untouched.total {s : Store} (h : s.Untouched policies at') {policy : QuotaPolicy}
    (hp : policy ∈ policies.1) (subject : JsString) :
    s.total (policy.key subject) (windowStartOf policy at') = 0 := by
  rw [Store.total, h.reserved]
  exact h.used policy hp subject

theorem Store.Untouched.readyFor {s : Store} (h : s.Untouched policies at') (q : QuotaRequest) :
    ReadyFor policies at' s q :=
  fun policy _ hvalid subject _ ↦
    ⟨(h.total (validate_eq_ok hvalid).1 subject).ge,
      fun _ hentry ↦ absurd ((h.reserved _).symm.trans hentry) (by simp)⟩

/-- **No update is lost in an undisturbed tree of calls.** The outermost calls return, the counter
of every subject holds exactly what the receipts charge to it, and this is within the limit. -/
theorem stored_eq_charged {policies : Policies} {at' : ℤ} {s : Store}
    (hs : s.Untouched policies at') {calls : List SpendCall}
    (hcalls : Undisturbed policies at' calls) :
    (runAll policies at' s calls).answer = some () ∧
      ∀ policy ∈ policies.1, ∀ subject, IsSubject subject →
        (readStoredCounter (runAll policies at' s calls).store policy subject at').used =
            charged (runAll policies at' s calls).nested policy.operation subject ∧
          (limitOf s policy subject at').exceededBy
            (charged (runAll policies at' s calls).nested policy.operation subject) = false := by
  obtain ⟨hanswer, hspends⟩ := runAll_spends calls hcalls.clean hcalls.dated fun q _ ↦
    hs.readyFor q
  refine ⟨hanswer, fun policy hp subject hsub ↦ ?_⟩
  have hadv := hspends.advanced policy hp subject hsub trivial
  have hwithin := hspends.within policy hp subject hsub trivial
  rw [hadv.total, hs.total hp subject, zero_add] at hwithin
  refine ⟨?_, hwithin (exceededBy_zero s hp subject at')⟩
  rw [used_readStoredCounter, hadv.used, hs.used policy hp subject, zero_add]

/-- A spend of one unit, with these spends inside its writes. -/
def spendOne (principal : JsString) (onOwn onShared : List SpendCall) : SpendCall :=
  .consume { operation := js "a", principal := principal } (js "id") onOwn onShared

/-- A spend of another principal inside the write of the first one's counter is kept. -/
theorem stored_eq_charged_interleaved :
    (readStoredCounter (runAll fivePolicies 0 {} [spendOne (js "p") [spendOne (js "q") [] []]
        []]).store fivePolicy quotaGlobalSubject 0).used =
      charged (runAll fivePolicies 0 {} [spendOne (js "p") [spendOne (js "q") [] []] []]).nested
        (js "a") quotaGlobalSubject := by
  have hclean : CleanAll fivePolicies [spendOne (js "p") [spendOne (js "q") [] []] []] := by
    refine ⟨⟨fun q hq ↦ ?_, by simp [requestsAll], ⟨⟨by simp [requestsAll], by simp [requestsAll],
      trivial, trivial⟩, trivial⟩, trivial⟩, trivial⟩
    obtain rfl : q = ⟨js "a", js "q", none, none⟩ := by
      simpa [spendOne, requestsAll, SpendCall.requests] using hq
    rintro ⟨policy, cost, -, -, h⟩
    exact absurd h (by decide)
  have hdated : ∀ q, Dated fivePolicies 0 q := fun q policy cost hvalid ↦ by
    obtain rfl := mem_singleton.1 (validate_eq_ok hvalid).1
    decide +kernel
  exact ((stored_eq_charged ⟨fun _ ↦ rfl, fun _ _ _ ↦ rfl⟩
    ⟨hclean, fun q _ ↦ hdated q, by decide +kernel⟩).2 fivePolicy mem_cons_self quotaGlobalSubject
    (.inl rfl)).1

/-- **A spend inside the write of its own counter is lost.** Both spends are granted, and the
counter records one unit. -/
theorem nested_spend_is_lost :
    (runAll fivePolicies 0 {} [spendOne (js "p") [spendOne (js "p") [] []] []]).answer = some () ∧
      charged (runAll fivePolicies 0 {} [spendOne (js "p") [spendOne (js "p") [] []] []]).nested
        (js "a") (js "p") = 2 ∧
      (readStoredCounter (runAll fivePolicies 0 {} [spendOne (js "p") [spendOne (js "p") [] []]
        []]).store fivePolicy (js "p") 0).used = 1 := by
  decide +kernel

end Utix.Quota

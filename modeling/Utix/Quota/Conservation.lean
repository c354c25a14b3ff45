import Utix.Lib.Run
import Utix.Quota.Calls

/-!
# Conservation over sequential runs

A run of `check`, `consume` and `refund`. What is spent in a window should be what the receipts of
`consume` add up to, less what was refunded. Two things stand in the way. A receipt of `check` looks
like one of `consume`, and `refund` takes the cost off counters it was never put on. And a refund is
remembered under a token made of texts the caller chooses: two spends with one correlation id share
it, and the second refund is ignored.

When only receipts of `consume` are refunded, and no two of those share a token, every counter is
exact in every state of the run.
-/

namespace Utix.Quota

open Js List Store

/-! ### Runs and their history -/

/-- A receipt that the store has returned, and what has happened to it. -/
structure Issued where
  /-- It was returned by `consume`, not by `check`. -/
  spent : Bool
  receipt : QuotaReceipt
  /-- It has been passed to `refund`. -/
  passed : Bool := false
  /-- It has been passed to `refund` inside its window. -/
  refunded : Bool := false
  deriving DecidableEq

/-- A store, its clock, and the receipts it has returned. -/
structure QuotaRun where
  store : Store := {}
  clock : ℤ
  log : List Issued := []

/-- A call; `refund` names the receipt by its place in the history. -/
inductive QuotaCall
  | check (request : QuotaRequest) (freshId : JsString) (now : ℤ)
  | consume (request : QuotaRequest) (freshId : JsString) (now : ℤ)
  | refund (index : ℕ) (now : ℤ)

/-- The clock shows the window of the receipt. -/
def inWindow (policies : Policies) (receipt : QuotaReceipt) (now : ℤ) : Bool :=
  (byOperation policies receipt.operation).any fun policy ↦
    windowStartOf policy now = receipt.windowStart

/-- The receipt that an answer carries. -/
def returned (spent : Bool) (answer : Option Answer) : List Issued :=
  match answer with
  | some answer => (receiptsOf answer).map fun receipt ↦ { spent := spent, receipt := receipt }
  | none => []

/-- An entry after its receipt was passed to `refund`. -/
def Issued.pass (policies : Policies) (e : Issued) (now : ℤ) : Issued :=
  { e with passed := true, refunded := e.refunded || inWindow policies e.receipt now }

def quotaStep (policies : Policies) (r : QuotaRun) : QuotaCall → QuotaRun
  | .check request freshId now =>
    let ran := check policies r.store request freshId now
    ⟨ran.store, now, r.log ++ returned false ran.answer⟩
  | .consume request freshId now =>
    let ran := consume policies r.store request freshId now
    ⟨ran.store, now, r.log ++ returned true ran.answer⟩
  | .refund index now =>
    match r.log[index]? with
    | none => { r with clock := now }
    | some e =>
      ⟨refund policies r.store e.receipt now, now, r.log.set index (e.pass policies now)⟩

/-! ### What the counters should hold -/

/-- The receipt counts for this subject in this window. -/
def Issued.counts (e : Issued) (operation subject : JsString) (w : ℤ) : Bool :=
  e.spent && e.receipt.operation == operation && e.receipt.windowStart == w &&
    (subject == quotaGlobalSubject || subject == e.receipt.principal)

/-- The sum of the costs of the successful `consume` calls of a subject in a window. -/
def spentIn (log : List Issued) (operation subject : JsString) (w : ℤ) : ℤ :=
  (log.map fun e ↦ if e.counts operation subject w then e.receipt.cost else 0).sum

/-- The sum of the costs of those that were refunded in that window. -/
def refundedIn (log : List Issued) (operation subject : JsString) (w : ℤ) : ℤ :=
  (log.map fun e ↦
    if e.counts operation subject w && e.refunded then e.receipt.cost else 0).sum

/-- The limit of a subject under its policy. -/
def policyLimit (policy : QuotaPolicy) (subject : JsString) : EffectiveLimit :=
  ⟨if subject = quotaGlobalSubject then policy.globalLimit else some policy.limit, false⟩

/-- The principals of the history. -/
def principals (log : List Issued) : Finset JsString :=
  (log.map fun e ↦ e.receipt.principal).toFinset

/-- **The counters are exact**: a stored counter holds what was spent in its window less what was
refunded, and so does the counter of the current or of any later window; the shared counter is the
sum over the principals; and no counter exceeds its limit. -/
structure Conserved (policies : Policies) (r : QuotaRun) : Prop where
  stored : ∀ policy ∈ policies.1, ∀ subject, IsSubject subject → ∀ counter,
    r.store.counters (reservedKey policy.operation subject) = some counter →
      counter.used = spentIn r.log policy.operation subject counter.windowStart -
        refundedIn r.log policy.operation subject counter.windowStart
  current : ∀ policy ∈ policies.1, ∀ subject, IsSubject subject → ∀ now, r.clock ≤ now →
    (readStoredCounter r.store policy subject now).used =
      spentIn r.log policy.operation subject (windowStartOf policy now) -
        refundedIn r.log policy.operation subject (windowStartOf policy now)
  shared : ∀ policy ∈ policies.1, ∀ now, r.clock ≤ now →
    (readStoredCounter r.store policy quotaGlobalSubject now).used =
      ∑ principal ∈ principals r.log, (readStoredCounter r.store policy principal now).used
  within : ∀ policy ∈ policies.1, ∀ subject, IsSubject subject → ∀ now,
    (policyLimit policy subject).exceededBy
      (readStoredCounter r.store policy subject now).used = false

/-- What a run must keep to. The clock does not go back; the end of the window of a spend is a date;
a refund is for a spend, and no other receipt with its token has been passed to `refund`. -/
def ConservingCall (policies : Policies) (r : QuotaRun) : QuotaCall → Prop
  | .check _ _ now => r.clock ≤ now
  | .consume request _ now => r.clock ≤ now ∧ Dated policies now request
  | .refund index now => r.clock ≤ now ∧ ∀ e, r.log[index]? = some e → e.spent = true ∧
      ∀ (index' : ℕ) e', r.log[index']? = some e' → e'.passed = true →
        refundToken e'.receipt = refundToken e.receipt → index' = index

/-! ### Balances -/

/-- What an entry still counts for. -/
def Issued.weight (e : Issued) (operation subject : JsString) (w : ℤ) : ℤ :=
  if e.counts operation subject w && !e.refunded then e.receipt.cost else 0

/-- What is spent and not refunded. -/
def balance (log : List Issued) (operation subject : JsString) (w : ℤ) : ℤ :=
  (log.map fun e ↦ e.weight operation subject w).sum

/-- The balance of a log is what was spent less what was refunded. -/
theorem spentIn_sub_refundedIn (log : List Issued) (operation subject : JsString) (w : ℤ) :
    spentIn log operation subject w - refundedIn log operation subject w =
      balance log operation subject w := by
  induction log with
  | nil => rfl
  | cons e log ih =>
    have hhead : (if e.counts operation subject w then e.receipt.cost else 0) -
        (if e.counts operation subject w && e.refunded then e.receipt.cost else 0) =
          e.weight operation subject w := by
      rw [Issued.weight]
      cases e.counts operation subject w <;> cases e.refunded <;> simp
    have htail : balance (e :: log) operation subject w =
        e.weight operation subject w + balance log operation subject w := by simp [balance]
    rw [htail, ← ih, ← hhead]
    simp only [spentIn, refundedIn, map_cons, sum_cons]
    ring

/-- Balances add up. -/
theorem balance_append (l₁ l₂ : List Issued) (operation subject : JsString) (w : ℤ) :
    balance (l₁ ++ l₂) operation subject w =
      balance l₁ operation subject w + balance l₂ operation subject w := by
  simp [balance]

theorem balance_cons (e : Issued) (log : List Issued) (operation subject : JsString) (w : ℤ) :
    balance (e :: log) operation subject w =
      e.weight operation subject w + balance log operation subject w := by
  simp [balance]

/-- **The shared balance is the sum over the principals.** -/
theorem balance_global (log : List Issued) (operation : JsString) (w : ℤ) (P : Finset JsString)
    (hP : ∀ e ∈ log, e.receipt.principal ∈ P ∧ e.receipt.principal ≠ quotaGlobalSubject)
    (hglobal : quotaGlobalSubject ∉ P) :
    balance log operation quotaGlobalSubject w =
      ∑ principal ∈ P, balance log operation principal w := by
  induction log with
  | nil => simp [balance]
  | cons e log ih =>
    obtain ⟨hmem, hne⟩ := hP e mem_cons_self
    have hweight : ∀ p ∈ P, e.weight operation p w =
        if p = e.receipt.principal then e.weight operation quotaGlobalSubject w else 0 := by
      intro p hp
      have hpne : p ≠ quotaGlobalSubject := fun h ↦ hglobal (h ▸ hp)
      simp only [Issued.weight, Issued.counts]
      by_cases heq : p = e.receipt.principal
      · simp [heq]
      · simp [heq, hpne]
    rw [balance_cons, ih fun e' he' ↦ hP e' (mem_cons_of_mem _ he')]
    simp only [balance_cons, Finset.sum_add_distrib]
    rw [Finset.sum_congr rfl hweight, Finset.sum_ite_eq', if_pos hmem]

/-! ### The invariant -/

/-- What is known of a receipt in the history: it was returned for a valid request, in a window that
is not later than the clock; and if it was refunded too late, its window is over. -/
structure Issued.Sound (policies : Policies) (clock : ℤ) (e : Issued) (policy : QuotaPolicy) :
    Prop where
  mem : policy ∈ policies.1
  operation : e.receipt.operation = policy.operation
  principal : isValidPrincipal e.receipt.principal = true
  cost : 1 ≤ e.receipt.cost
  window : e.receipt.windowStart ≤ windowStartOf policy clock
  passed : e.refunded = true → e.passed = true
  late : e.passed = true → e.refunded = false → e.receipt.windowStart < windowStartOf policy clock

/-- **The books of a run.** -/
structure Books (policies : Policies) (r : QuotaRun) : Prop where
  free : ∀ policy ∈ policies.1, ∀ subject, IsSubject subject →
    r.store.reserved (reservedKey policy.operation subject) = none
  overrides : ∀ key, r.store.overrides key = none
  tokens : ∀ token, token ∈ r.store.refunded ↔
    ∃ e ∈ r.log, e.passed = true ∧ refundToken e.receipt = token
  entries : ∀ e ∈ r.log, ∃ policy, e.Sound policies r.clock policy
  accounts : ∀ policy ∈ policies.1, ∀ subject, IsSubject subject →
    r.store.usedAt (reservedKey policy.operation subject) (windowStartOf policy r.clock) =
      balance r.log policy.operation subject (windowStartOf policy r.clock)
  stored : ∀ policy ∈ policies.1, ∀ subject, IsSubject subject → ∀ counter,
    r.store.counters (reservedKey policy.operation subject) = some counter →
      counter.windowStart ≤ windowStartOf policy r.clock ∧
        counter.used = balance r.log policy.operation subject counter.windowStart ∧
          (policyLimit policy subject).exceededBy counter.used = false

variable {e : Issued} {subject : JsString} {w : ℤ} {operation : JsString}

/-- A receipt counts in its own window and for its own operation. -/
theorem weight_eq_zero (h : e.receipt.operation = operation → e.receipt.windowStart ≠ w) :
    e.weight operation subject w = 0 := by
  rw [Issued.weight, Issued.counts]
  by_cases hop : e.receipt.operation = operation
  · simp [h hop]
  · simp [hop]

variable {log : List Issued}

theorem balance_eq_zero (h : ∀ e ∈ log, e.weight operation subject w = 0) :
    balance log operation subject w = 0 :=
  sum_eq_zero fun x hx ↦ by
    obtain ⟨e, he, rfl⟩ := mem_map.1 hx
    exact h e he

variable {policies : Policies} {clock : ℤ} {policy : QuotaPolicy}

/-- No balance is negative. -/
theorem balance_nonneg (h : ∀ e ∈ log, ∃ policy, e.Sound policies clock policy)
    (operation subject : JsString) (w : ℤ) : 0 ≤ balance log operation subject w :=
  sum_nonneg fun x hx ↦ by
    obtain ⟨e, he, rfl⟩ := mem_map.1 hx
    obtain ⟨policy, hsound⟩ := h e he
    have := hsound.cost
    rw [Issued.weight]
    split <;> omega

variable {now : ℤ} {store : Store}

namespace Books

variable {r : QuotaRun}

section

variable (h : Books policies r)
include h

/-- Nothing is spent in a window that has not begun. -/
theorem later_window (hp : policy ∈ policies.1) (hsub : IsSubject subject)
    (hw : windowStartOf policy r.clock < w) :
    r.store.usedAt (policy.key subject) w = 0 ∧ balance r.log policy.operation subject w = 0 := by
  constructor
  · rw [usedAt]
    cases hc : r.store.counters (policy.key subject) with
    | none => rfl
    | some counter =>
      have := (h.stored policy hp subject hsub counter hc).1
      exact if_neg (by omega)
  · refine balance_eq_zero fun e he ↦ weight_eq_zero fun hop ↦ ?_
    obtain ⟨policy', hsound⟩ := h.entries e he
    obtain rfl := policy_eq_of_operation_eq hsound.mem hp (hsound.operation.symm.trans hop)
    have := hsound.window
    omega

/-- **The clock may move on.** -/
theorem tick (hnow : r.clock ≤ now) :
    Books policies { r with clock := now } where
  free := h.free
  overrides := h.overrides
  tokens := h.tokens
  entries e he := by
    obtain ⟨policy, hsound⟩ := h.entries e he
    have hmono := windowStartOf_mono hsound.mem hnow
    exact ⟨policy, { hsound with
      window := hsound.window.trans hmono
      late := fun hpassed hrefunded ↦ (hsound.late hpassed hrefunded).trans_le hmono }⟩
  accounts policy hp subject hsub := by
    rcases (windowStartOf_mono hp hnow).lt_or_eq with hlt | heq
    · obtain ⟨hused, hbalance⟩ := h.later_window hp hsub hlt
      exact hused.trans hbalance.symm
    show r.store.usedAt _ (windowStartOf policy now) = balance r.log _ _ (windowStartOf policy now)
    rw [← heq]
    exact h.accounts policy hp subject hsub
  stored policy hp subject hsub counter hc := by
    obtain ⟨hw, hrest⟩ := h.stored policy hp subject hsub counter hc
    exact ⟨hw.trans (windowStartOf_mono hp hnow), hrest⟩

/-- In a run without overrides the limit is the one of the policy. -/
theorem limitOf (policy : QuotaPolicy) (subject : JsString) (at' : ℤ) :
    limitOf r.store policy subject at' = policyLimit policy subject := by
  rw [limitOf_eq, active, h.overrides]
  rfl

/-- What is stored is within the limit. -/
theorem exceededBy_usedAt (hp : policy ∈ policies.1)
    (hsub : IsSubject subject) (w : ℤ) :
    (policyLimit policy subject).exceededBy
      (r.store.usedAt (policy.key subject) w) = false := by
  have hzero := exceededBy_zero r.store hp subject r.clock
  rw [h.limitOf] at hzero
  rw [usedAt]
  cases hc : r.store.counters (policy.key subject) with
  | none => exact hzero
  | some counter =>
    by_cases hw : counter.windowStart = w
    · simp only [hw, if_true]
      exact (h.stored policy hp subject hsub counter hc).2.2
    · simp only [hw, if_false]
      exact hzero

/-- Between calls nothing is reserved. -/
theorem total (hp : policy ∈ policies.1) (hsub : IsSubject subject) (w : ℤ) :
    r.store.total (policy.key subject) w = r.store.usedAt (policy.key subject) w := by
  rw [Store.total, h.free policy hp subject hsub]

theorem readyFor (request : QuotaRequest) :
    ReadyFor policies r.clock r.store request := fun policy cost hvalid subject hsubject ↦ by
  have hp := (validate_eq_ok hvalid).1
  have hsub := isSubject_of_charges ⟨policy, cost, hvalid, rfl, hsubject⟩
  refine ⟨?_, fun entry he ↦ ?_⟩
  · rw [h.total hp hsub, h.accounts policy hp subject hsub]
    exact balance_nonneg h.entries _ _ _
  · rw [h.free policy hp subject hsub] at he
    cases he

/-- **The books after a call**, from what it does to the accounts: in the current window they are
balanced and within their limits, and of the other windows nothing is said that was not. -/
theorem of_accounts
    (hfree : ∀ policy ∈ policies.1, ∀ subject, IsSubject subject →
      store.reserved (policy.key subject) = none) (hoverrides : ∀ key, store.overrides key = none)
    (htokens : ∀ token, token ∈ store.refunded ↔
      ∃ e ∈ log, e.passed = true ∧ refundToken e.receipt = token)
    (hentries : ∀ e ∈ log, ∃ policy, e.Sound policies r.clock policy)
    (haccounts : ∀ policy ∈ policies.1, ∀ subject, IsSubject subject →
      store.usedAt (policy.key subject) (windowStartOf policy r.clock) =
        balance log policy.operation subject (windowStartOf policy r.clock))
    (hwithin : ∀ policy ∈ policies.1, ∀ subject, IsSubject subject →
      (policyLimit policy subject).exceededBy (store.usedAt (policy.key subject)
        (windowStartOf policy r.clock)) = false)
    (hwindow : ∀ policy ∈ policies.1, ∀ subject, IsSubject subject → ∀ counter,
      store.counters (policy.key subject) = some counter →
        r.store.counters (policy.key subject) = some counter ∨
          counter.windowStart = windowStartOf policy r.clock)
    (hbalance : ∀ policy ∈ policies.1, ∀ subject w, w ≠ windowStartOf policy r.clock →
      balance log policy.operation subject w = balance r.log policy.operation subject w) :
    Books policies ⟨store, r.clock, log⟩ where
  free := hfree
  overrides := hoverrides
  tokens := htokens
  entries := hentries
  accounts := haccounts
  stored policy hp subject hsub counter hc := by
    by_cases hw : counter.windowStart = windowStartOf policy r.clock
    · have hused : store.usedAt (policy.key subject)
          (windowStartOf policy r.clock) = counter.used := by
        have hc' : store.counters (policy.key subject) = some counter := hc
        rw [usedAt, hc']
        exact if_pos hw
      refine ⟨hw.le, ?_, hused ▸ hwithin policy hp subject hsub⟩
      rw [hw, ← hused]
      exact haccounts policy hp subject hsub
    · -- a counter of another window was there before
      obtain ⟨hle, hused, hwithin⟩ := h.stored policy hp subject hsub counter
        ((hwindow policy hp subject hsub counter hc).resolve_right hw)
      exact ⟨hle, hused.trans (hbalance policy hp subject _ hw).symm, hwithin⟩

end

end Books

variable {r : QuotaRun}

/-! ### One call -/

variable {answer : Option Answer}

theorem mem_returned {spent : Bool} (h : e ∈ returned spent answer) :
    ∃ receipt, answer = some (.ok receipt) ∧ e = { spent := spent, receipt := receipt } := by
  rcases answer with - | code | receipt
  · exact absurd h (by simp [returned])
  · exact absurd h (by simp [returned, receiptsOf])
  · exact ⟨receipt, rfl, by simpa [returned, receiptsOf] using h⟩

variable {request : QuotaRequest}

/-- A receipt is sound when it is returned. -/
theorem sound_of_grantedTo {receipt : QuotaReceipt}
    (h : GrantedTo policies now request receipt) (spent : Bool) :
    ∃ policy, Issued.Sound policies now { spent := spent, receipt := receipt } policy := by
  obtain ⟨policy, cost, hvalid, hop, hprincipal, hcost, hw⟩ := h
  obtain ⟨hp, -, hvalidPrincipal, hpos⟩ := validate_eq_ok hvalid
  exact ⟨policy, hp, hop, hprincipal ▸ hvalidPrincipal, hcost ▸ hpos, hw.le, by simp, by simp⟩

/-- New receipts are not among the refunded. -/
theorem tokens_append {spent : Bool}
    (h : ∀ token, token ∈ store.refunded ↔ ∃ e ∈ log, e.passed = true ∧
      refundToken e.receipt = token) (token : JsString) :
    token ∈ store.refunded ↔ ∃ e ∈ log ++ returned spent answer, e.passed = true ∧
      refundToken e.receipt = token := by
  rw [h]
  constructor
  · rintro ⟨e, he, hrest⟩
    exact ⟨e, mem_append_left _ he, hrest⟩
  rintro ⟨e, he, hpassed, htoken⟩
  rcases mem_append.1 he with he | he
  · exact ⟨e, he, hpassed, htoken⟩
  · obtain ⟨receipt, -, rfl⟩ := mem_returned he
    cases hpassed

/-- A check keeps the books. -/
theorem books_check (h : Books policies r)
    (request : QuotaRequest) (freshId : JsString) :
    Books policies (quotaStep policies r (.check request freshId r.clock)) := by
  obtain ⟨hsame, hkept, hgranted⟩ := check_spec policies r.store request freshId r.clock
  have hbalance : ∀ operation subject w, balance (r.log ++
      returned false (check policies r.store request freshId r.clock).answer) operation subject w =
        balance r.log operation subject w := fun operation subject w ↦ by
    rw [balance_append, add_eq_left]
    refine balance_eq_zero fun e he ↦ ?_
    obtain ⟨receipt, -, rfl⟩ := mem_returned he
    simp [Issued.weight, Issued.counts]
  refine h.of_accounts (fun policy hp subject hsub ↦ ?_)
    (fun key ↦ hkept.free key (h.overrides key)) (tokens_append fun token ↦ ?_) (fun e he ↦ ?_)
    (fun policy hp subject hsub ↦ ?_)
    (fun policy hp subject hsub ↦ ?_) (fun policy hp subject hsub counter hc ↦ .inl ?_)
    fun _ _ _ _ _ ↦ hbalance _ _ _
  · exact (hsame _).reserved.trans (h.free policy hp subject hsub)
  · rw [hkept.refunded]
    exact h.tokens token
  · rcases mem_append.1 he with he | he
    · exact h.entries e he
    · obtain ⟨receipt, hanswer, rfl⟩ := mem_returned he
      exact sound_of_grantedTo (hgranted receipt hanswer) false
  · exact ((hsame _).usedAt _).trans ((h.accounts policy hp subject hsub).trans
      (hbalance _ _ _).symm)
  · rw [(hsame _).usedAt]
    exact h.exceededBy_usedAt hp hsub _
  · exact (hsame _).counters.symm.trans hc

/-- In the window in which it is returned a receipt of `consume` weighs what it charges. -/
theorem balance_returned {answer : Answer}
    (h : ∀ receipt ∈ receiptsOf answer, GrantedTo policies now request receipt)
    (hp : policy ∈ policies.1) (subject : JsString) (w : ℤ) :
    balance (returned true (some answer)) policy.operation subject w =
      if w = windowStartOf policy now then charged (receiptsOf answer) policy.operation subject
      else 0 := by
  cases answer with
  | error code => simp [returned, receiptsOf, balance]
  | ok receipt =>
    obtain ⟨policy', cost, hvalid, hop, -, -, hw⟩ := h receipt (by simp [receiptsOf])
    simp only [returned, receiptsOf, balance, charged_singleton, map_cons, map_nil,
      sum_cons, sum_nil, add_zero, Issued.weight, Issued.counts]
    by_cases heq : receipt.operation = policy.operation
    · obtain rfl := policy_eq_of_operation_eq (validate_eq_ok hvalid).1 hp (hop.symm.trans heq)
      by_cases hwin : w = windowStartOf policy' now
      · simp [hop, hw, hwin]
      · simp [hw, hwin, Ne.symm hwin]
    · simp [heq]

/-- A spend keeps the books. -/
theorem books_consume (h : Books policies r)
    (hdated : Dated policies r.clock request) (freshId : JsString) :
    Books policies (quotaStep policies r (.consume request freshId r.clock)) := by
  obtain ⟨answer, hanswer, hspends⟩ := consume_spends (h.readyFor request) hdated freshId
  rw [quotaStep, hanswer]
  generalize (consume policies r.store request freshId r.clock).store = store at hspends
  have hgranted : ∀ receipt ∈ receiptsOf answer, GrantedTo policies r.clock request receipt :=
    fun receipt hr ↦ by
      obtain ⟨q, hq, hgranted⟩ := hspends.source receipt hr
      rwa [mem_singleton.1 hq] at hgranted
  refine h.of_accounts (fun policy hp subject hsub ↦ ?_)
    (fun key ↦ hspends.kept.free key (h.overrides key))
    (tokens_append fun token ↦ by rw [hspends.kept.refunded]; exact h.tokens token) (fun e he ↦ ?_)
    (fun policy hp subject hsub ↦ ?_) (fun policy hp subject hsub ↦ ?_)
    (fun policy hp subject hsub ↦ (hspends.advanced policy hp subject hsub trivial).window)
    fun policy hp subject w hw ↦ ?_
  · exact (hspends.advanced policy hp subject hsub trivial).free (h.free policy hp subject hsub)
  · rcases mem_append.1 he with he | he
    · exact h.entries e he
    · obtain ⟨receipt, hok, rfl⟩ := mem_returned he
      cases hok
      exact sound_of_grantedTo (hgranted receipt (by simp [receiptsOf])) true
  · rw [(hspends.advanced policy hp subject hsub trivial).used, h.accounts policy hp subject hsub,
      balance_append, balance_returned hgranted hp, if_pos rfl]
  · have hadv := hspends.advanced policy hp subject hsub trivial
    have hwithin := hspends.within policy hp subject hsub trivial
    rw [h.limitOf, hadv.total, h.total hp hsub, ← hadv.used] at hwithin
    exact hwithin (h.exceededBy_usedAt hp hsub _)
  · rw [balance_append, balance_returned hgranted hp, if_neg hw, add_zero]

section

variable (h : e.Sound policies clock policy)
include h

/-- A receipt can be refunded while its window is the present one. -/
theorem inWindow_iff (now : ℤ) :
    inWindow policies e.receipt now = true ↔ windowStartOf policy now = e.receipt.windowStart := by
  rw [inWindow, h.operation, byOperation_of_mem h.mem]
  simp

/-- A second refund of one receipt changes nothing in the history. -/
theorem pass_eq_self (hpassed : e.passed = true) : e.pass policies clock = e := by
  have hrefunded : (e.refunded || inWindow policies e.receipt clock) = e.refunded := by
    cases hr : e.refunded with
    | true => rfl
    | false =>
      have hlate := h.late hpassed hr
      have hnot : ¬ inWindow policies e.receipt clock = true := fun hin ↦ by
        rw [inWindow_iff h] at hin
        omega
      simpa using hnot
  rw [Issued.pass, hrefunded, ← hpassed]

/-- A refund lowers what a receipt counts. -/
theorem weight_pass_le (now : ℤ) (operation subject : JsString) (w : ℤ) :
    (e.pass policies now).weight operation subject w ≤ e.weight operation subject w := by
  have hcost := h.cost
  have hcounts : (e.pass policies now).counts operation subject w = e.counts operation subject w :=
    rfl
  simp only [Issued.weight, hcounts]
  cases e.counts operation subject w with
  | false => simp
  | true =>
    cases hr : e.refunded with
    | true => simp [Issued.pass, hr]
    | false =>
      have hreceipt : (e.pass policies now).receipt = e.receipt := rfl
      simp only [hreceipt, Bool.true_and, Bool.not_false, if_true]
      split <;> omega

/-- Outside the current window a refund changes no weight. -/
theorem weight_pass_eq {policy' : QuotaPolicy} (hp : policy' ∈ policies.1) (subject : JsString)
    (hw : w ≠ windowStartOf policy' clock) :
    (e.pass policies clock).weight policy'.operation subject w =
      e.weight policy'.operation subject w := by
  by_cases hwin : e.receipt.operation = policy'.operation ∧ e.receipt.windowStart = w
  · obtain ⟨hop, rfl⟩ := hwin
    obtain rfl := policy_eq_of_operation_eq h.mem hp (h.operation.symm.trans hop)
    have hnot : inWindow policies e.receipt clock = false := by
      rw [← Bool.not_eq_true, inWindow_iff h]
      exact Ne.symm hw
    simp only [Issued.weight, Issued.pass, hnot, Bool.or_false]
    rfl
  · have hzero : ∀ e' : Issued, e'.receipt = e.receipt →
        e'.weight policy'.operation subject w = 0 := fun e' he' ↦
      weight_eq_zero fun hop hws ↦ hwin ⟨he' ▸ hop, he' ▸ hws⟩
    rw [hzero e rfl, hzero (e.pass policies clock) rfl]

end

theorem exceededBy_mono {l : EffectiveLimit} {a b : ℤ} (hab : a ≤ b)
    (h : l.exceededBy b = false) : l.exceededBy a = false := by
  rw [EffectiveLimit.exceededBy] at *
  cases hl : l.limit with
  | none => rfl
  | some limit =>
    rw [hl] at h
    simp only [Option.any_some, decide_eq_false_iff_not, not_lt] at h ⊢
    omega

variable {l₁ l₂ : List Issued}

/-- **The books after an entry is passed to `refund` for the first time**, if its weight is taken
off the accounts. -/
theorem books_pass (h : Books policies r) (hlog : r.log = l₁ ++ e :: l₂)
    (hsound : e.Sound policies r.clock policy) (hreserved : store.reserved = r.store.reserved)
    (hoverrides : store.overrides = r.store.overrides)
    (hrefunded : store.refunded = r.store.refunded ++ [refundToken e.receipt])
    (haccounts : ∀ policy ∈ policies.1, ∀ subject, IsSubject subject →
      store.usedAt (policy.key subject) (windowStartOf policy r.clock) =
          r.store.usedAt (policy.key subject) (windowStartOf policy r.clock) -
            e.weight policy.operation subject (windowStartOf policy r.clock) +
              (e.pass policies r.clock).weight policy.operation subject
                (windowStartOf policy r.clock) ∧
        ∀ counter, store.counters (policy.key subject) = some counter →
          r.store.counters (policy.key subject) = some counter ∨
            counter.windowStart = windowStartOf policy r.clock) :
    Books policies ⟨store, r.clock, l₁ ++ e.pass policies r.clock :: l₂⟩ := by
  have hbalance : ∀ operation subject w,
      balance (l₁ ++ e.pass policies r.clock :: l₂) operation subject w =
        balance r.log operation subject w - e.weight operation subject w +
          (e.pass policies r.clock).weight operation subject w := fun operation subject w ↦ by
    rw [hlog, balance_append, balance_append, balance_cons, balance_cons]
    ring
  refine h.of_accounts (fun policy hp subject hsub ↦ ?_) (fun key ↦ ?_) (fun token ↦ ?_)
    (fun e' he' ↦ ?_) (fun policy hp subject hsub ↦ ?_) (fun policy hp subject hsub ↦ ?_)
    (fun policy hp subject hsub ↦ (haccounts policy hp subject hsub).2)
    fun policy hp subject w hw ↦ ?_
  · exact (congrFun hreserved _).trans (h.free policy hp subject hsub)
  · exact (congrFun hoverrides _).trans (h.overrides key)
  · rw [hrefunded, mem_append, mem_singleton, h.tokens, hlog, eq_comm]
    simp only [mem_append, mem_cons, or_and_right, exists_or, exists_eq_left]
    have hpass : (e.pass policies r.clock).passed = true := rfl
    have hreceipt : (e.pass policies r.clock).receipt = e.receipt := rfl
    simp only [hpass, hreceipt, true_and]
    constructor
    · rintro ((hl | ⟨-, he⟩ | hl) | he)
      · exact .inl hl
      · exact .inr (.inl he)
      · exact .inr (.inr hl)
      · exact .inr (.inl he)
    · rintro (hl | he | hl)
      · exact .inl (.inl hl)
      · exact .inr he
      · exact .inl (.inr (.inr hl))
  · rcases mem_append.1 he' with he' | he'
    · exact h.entries e' (by rw [hlog]; exact mem_append_left _ he')
    rcases mem_cons.1 he' with rfl | he'
    · refine ⟨policy, hsound.mem, hsound.operation, hsound.principal, hsound.cost, hsound.window,
        fun _ ↦ rfl, fun _ hnot ↦ ?_⟩
      have hin : inWindow policies e.receipt r.clock = false := (Bool.or_eq_false_iff.1 hnot).2
      rw [← Bool.not_eq_true, inWindow_iff hsound] at hin
      exact lt_of_le_of_ne hsound.window (Ne.symm hin)
    · exact h.entries e' (by rw [hlog]; simp [he'])
  · rw [(haccounts policy hp subject hsub).1, hbalance, h.accounts policy hp subject hsub]
  · refine exceededBy_mono ?_ (h.exceededBy_usedAt hp hsub (windowStartOf policy r.clock))
    have hle := weight_pass_le hsound r.clock policy.operation subject
      (windowStartOf policy r.clock)
    rw [(haccounts policy hp subject hsub).1]
    omega
  · rw [hbalance, weight_pass_eq hsound hp subject hw]
    ring

/-- In its window an entry that is not refunded weighs its cost, in its two accounts only. -/
theorem weight_unrefunded (h : e.Sound policies clock policy)
    (hspent : e.spent = true) (hrefunded : e.refunded = false) (subject : JsString) :
    e.weight policy.operation subject e.receipt.windowStart =
      if subject = quotaGlobalSubject ∨ subject = e.receipt.principal then
        e.receipt.cost else 0 := by
  simp [Issued.weight, Issued.counts, hspent, hrefunded, h.operation]

/-- A receipt counts no more than the balance it is part of. -/
theorem balance_ge_weight (h : Books policies r)
    (hlog : r.log = l₁ ++ e :: l₂) (operation subject : JsString) (w : ℤ) :
    e.weight operation subject w ≤ balance r.log operation subject w := by
  have h₁ : 0 ≤ balance l₁ operation subject w := balance_nonneg
    (fun e' he' ↦ h.entries e' (by rw [hlog]; exact mem_append_left _ he')) operation subject w
  have h₂ : 0 ≤ balance l₂ operation subject w := balance_nonneg
    (fun e' he' ↦ h.entries e' (by rw [hlog]; simp [he'])) operation subject w
  rw [hlog, balance_append, balance_cons]
  omega

/-- **A refund inside the window takes the weight of the entry off its two accounts.** -/
theorem books_refund_inWindow (h : Books policies r) (hlog : r.log = l₁ ++ e :: l₂)
    (hsound : e.Sound policies r.clock policy) (hspent : e.spent = true)
    (hrefunded : e.refunded = false)
    (hwindow : windowStartOf policy r.clock = e.receipt.windowStart) :
    Books policies ⟨refundSubject (refundSubject { r.store with
        refunded := r.store.refunded ++ [refundToken e.receipt] } policy e.receipt.cost r.clock
          e.receipt.principal) policy e.receipt.cost r.clock quotaGlobalSubject, r.clock,
      l₁ ++ e.pass policies r.clock :: l₂⟩ := by
  have hownSub : IsSubject e.receipt.principal := .inr hsound.principal
  have hsharedSub : IsSubject quotaGlobalSubject := .inl rfl
  have hkey : ∀ {policy' subject subject'}, policy' ∈ policies.1 → IsSubject subject →
      IsSubject subject' → policy'.key subject =
        policy.key subject' → policy' = policy ∧ subject = subject' :=
    fun hp' hsub hsub' heq ↦ by
      obtain ⟨hop, hsubject⟩ := (reservedKey_inj hsub hsub').1 heq
      exact ⟨policy_eq_of_operation_eq hp' hsound.mem hop, hsubject⟩
  have hne : policy.key quotaGlobalSubject ≠
      policy.key e.receipt.principal := fun heq ↦ by
    have hprincipal := hsound.principal
    rw [← (hkey hsound.mem hsharedSub hownSub heq).2, not_isValidPrincipal_global] at hprincipal
    cases hprincipal
  -- no units are lost to the clamp at zero
  have hclamp : ∀ subject, subject = quotaGlobalSubject ∨ subject = e.receipt.principal →
      IsSubject subject → e.weight policy.operation subject (windowStartOf policy r.clock) =
          e.receipt.cost ∧ e.receipt.cost ≤ r.store.usedAt (policy.key subject)
            (windowStartOf policy r.clock) := fun subject hsubject hsub ↦ by
    have hweight := weight_unrefunded hsound hspent hrefunded subject
    have hge := balance_ge_weight h hlog policy.operation subject e.receipt.windowStart
    rw [hwindow, ← hwindow, h.accounts policy hsound.mem subject hsub, hwindow]
    rw [if_pos hsubject] at hweight
    exact ⟨hweight, hweight ▸ hge⟩
  have hown := takenOff_refundSubject { r.store with
    refunded := r.store.refunded ++ [refundToken e.receipt] } policy e.receipt.cost r.clock
    (h.free policy hsound.mem _ hownSub)
  generalize refundSubject { r.store with refunded := _ } policy e.receipt.cost r.clock
    e.receipt.principal = t at hown ⊢
  have hshared := takenOff_refundSubject t policy e.receipt.cost r.clock
    (hown.reserved ▸ h.free policy hsound.mem _ hsharedSub)
  generalize refundSubject t policy e.receipt.cost r.clock quotaGlobalSubject = t' at hshared ⊢
  refine books_pass h hlog hsound (hshared.reserved.trans hown.reserved)
    (hshared.overrides.trans hown.overrides) (hshared.refunded.trans hown.refunded)
    fun policy' hp' subject hsub ↦ ?_
  rw [show (e.pass policies r.clock).weight policy'.operation subject _ = 0 by
    simp [Issued.weight, Issued.pass, (inWindow_iff hsound _).2 hwindow], add_zero]
  by_cases hsharedKey : policy'.key subject = policy.key quotaGlobalSubject
  · obtain ⟨rfl, rfl⟩ := hkey hp' hsub hsharedSub hsharedKey
    obtain ⟨hweight, hle⟩ := hclamp _ (.inl rfl) hsub
    refine ⟨?_, fun counter hc ↦ .inr (hshared.window counter hc)⟩
    rw [hshared.used, usedAt, hown.others _ hne, hweight, max_eq_right]
    · rfl
    · exact sub_nonneg.2 hle
  by_cases hownKey : policy'.key subject = policy.key e.receipt.principal
  · obtain ⟨rfl, rfl⟩ := hkey hp' hsub hownSub hownKey
    obtain ⟨hweight, hle⟩ := hclamp _ (.inr rfl) hsub
    rw [usedAt, hshared.others _ hne.symm]
    refine ⟨?_, fun counter hc ↦ .inr (hown.window counter hc)⟩
    refine hown.used.trans ?_
    rw [hweight, max_eq_right]
    · rfl
    · exact sub_nonneg.2 hle
  · have hzero : e.weight policy'.operation subject (windowStartOf policy' r.clock) = 0 := by
      by_cases hop : policy'.operation = policy.operation
      · obtain rfl := policy_eq_of_operation_eq hp' hsound.mem hop
        rw [hwindow, weight_unrefunded hsound hspent hrefunded, if_neg]
        rintro (rfl | rfl)
        · exact hsharedKey rfl
        · exact hownKey rfl
      · exact weight_eq_zero fun heq ↦ absurd (heq.symm.trans hsound.operation) hop
    have hother : t'.counters (policy'.key subject) =
        r.store.counters (policy'.key subject) :=
      (hshared.others _ hsharedKey).trans (hown.others _ hownKey)
    rw [hzero, sub_zero, usedAt, hother, usedAt]
    exact ⟨rfl, fun _ ↦ .inl⟩

/-- **A refund keeps the books**, if it is for a spend and its token is its own. -/
theorem books_refund (h : Books policies r) {index : ℕ}
    (hok : ConservingCall policies r (.refund index r.clock)) :
    Books policies (quotaStep policies r (.refund index r.clock)) := by
  rw [quotaStep]
  cases hget : r.log[index]? with
  | none => exact h
  | some e =>
    obtain ⟨hspent, htoken⟩ := hok.2 e hget
    obtain ⟨hlt, hindex⟩ := List.getElem?_eq_some_iff.1 hget
    obtain ⟨l₁, l₂, hlog, -, hset⟩ : ∃ l₁ l₂, r.log = l₁ ++ r.log[index] :: l₂ ∧
        l₁.length = index ∧ r.log.set index (e.pass policies r.clock) =
          l₁ ++ e.pass policies r.clock :: l₂ := exists_of_set hlt
    rw [hindex] at hlog
    obtain ⟨policy, hsound⟩ := h.entries e (by rw [hlog]; simp)
    have hpolicy : byOperation policies e.receipt.operation = some policy := by
      rw [hsound.operation]
      exact byOperation_of_mem hsound.mem
    simp only [refund, hpolicy, contains_iff_mem]
    split
    · next hmem =>
      -- the token is there because this very receipt was passed before
      obtain ⟨e', he', hpassed, hsame⟩ := (h.tokens _).1 hmem
      obtain ⟨index', hindex'⟩ := getElem?_of_mem he'
      obtain rfl := htoken index' e' hindex' hpassed hsame
      cases hget.symm.trans hindex'
      rw [pass_eq_self hsound hpassed, ← hindex, set_getElem_self]
      exact h
    next hnew =>
    have hpassed : e.passed = false := by
      rw [← Bool.not_eq_true]
      exact fun hpassed ↦ hnew ((h.tokens _).2 ⟨e, by rw [hlog]; simp, hpassed, rfl⟩)
    have hrefunded : e.refunded = false := by
      rw [← Bool.not_eq_true]
      exact fun hr ↦ absurd (hsound.passed hr) (by rw [hpassed]; simp)
    rw [hset]
    split
    · next hwindow =>
      have hnot : inWindow policies e.receipt r.clock = false := by
        rw [← Bool.not_eq_true, inWindow_iff hsound]
        exact hwindow
      refine books_pass h hlog hsound rfl rfl rfl fun policy' _ subject _ ↦ ⟨?_, fun _ ↦ .inl⟩
      have hsame : (e.pass policies r.clock).weight policy'.operation subject
          (windowStartOf policy' r.clock) =
            e.weight policy'.operation subject (windowStartOf policy' r.clock) := by
        simp only [Issued.weight, Issued.pass, hnot, Bool.or_false]
        rfl
      rw [hsame, sub_add_cancel]
      rfl
    · next hwindow =>
      exact books_refund_inWindow h hlog hsound hspent hrefunded (not_not.1 hwindow)

/-! ### The run -/

/-- **One call keeps the books.** -/
theorem books_step (r : QuotaRun) (call : QuotaCall)
    (h : Books policies r) (hok : ConservingCall policies r call) :
    Books policies (quotaStep policies r call) := by
  cases call with
  | check request freshId now => exact books_check (h.tick hok) request freshId
  | consume request freshId now => exact books_consume (h.tick hok.1) hok.2 freshId
  | refund index now => exact books_refund (h.tick hok.1) ⟨le_rfl, hok.2⟩

/-- Kept books are exact. -/
theorem conserved_of_books (r : QuotaRun) (h : Books policies r) :
    Conserved policies r := by
  have hused : ∀ policy ∈ policies.1, ∀ subject, IsSubject subject → ∀ now, r.clock ≤ now →
      (readStoredCounter r.store policy subject now).used =
        balance r.log policy.operation subject (windowStartOf policy now) :=
    fun policy hp subject hsub now hnow ↦ by
      rw [used_readStoredCounter]
      exact (h.tick hnow).accounts policy hp subject hsub
  have hprincipals : ∀ e ∈ r.log, e.receipt.principal ∈ principals r.log ∧
      e.receipt.principal ≠ quotaGlobalSubject := fun e he ↦ by
    obtain ⟨policy, hsound⟩ := h.entries e he
    refine ⟨mem_toFinset.2 (mem_map.2 ⟨e, he, rfl⟩), fun heq ↦ ?_⟩
    have hvalid := hsound.principal
    rw [heq, not_isValidPrincipal_global] at hvalid
    cases hvalid
  have hsubject : ∀ principal ∈ principals r.log, IsSubject principal := fun principal hp ↦ by
    obtain ⟨e, he, rfl⟩ := mem_map.1 (mem_toFinset.1 hp)
    obtain ⟨policy, hsound⟩ := h.entries e he
    exact .inr hsound.principal
  refine ⟨fun policy hp subject hsub counter hc ↦ ?_, fun policy hp subject hsub now hnow ↦ ?_,
    fun policy hp now hnow ↦ ?_, fun policy hp subject hsub now ↦ ?_⟩
  · rw [spentIn_sub_refundedIn]
    exact (h.stored policy hp subject hsub counter hc).2.1
  · rw [spentIn_sub_refundedIn]
    exact hused policy hp subject hsub now hnow
  · rw [hused policy hp _ (.inl rfl) now hnow,
      balance_global _ _ _ (principals r.log) hprincipals]
    · exact Finset.sum_congr rfl fun principal hprincipal ↦
        (hused policy hp principal (hsubject principal hprincipal) now hnow).symm
    · intro hmem
      obtain ⟨e, he, heq⟩ := mem_map.1 (mem_toFinset.1 hmem)
      exact (hprincipals e he).2 heq
  · rw [used_readStoredCounter]
    exact h.exceededBy_usedAt hp hsub _

/-- The books of an empty store are in order. -/
theorem books_empty (policies : Policies) (clock : ℤ) : Books policies { clock := clock } where
  free _ _ _ _ := rfl
  overrides _ := rfl
  tokens := by simp
  entries := by simp
  accounts _ _ _ _ := rfl
  stored _ _ _ _ _ hc := absurd hc (by simp)

/-- **Quota is conserved** in every state of every run of `check`, `consume` and `refund` with a
clock that does not go back, in which only spends are refunded and no two different refunded
receipts share a token. Limits and sums are meant to stay below `2 ^ 53`: the counters here are
exact, and a JavaScript number is so up to there. -/
theorem always_conserved (policies : Policies) (start : ℤ) {calls : List QuotaCall}
    (hcalls : Lib.Meets (quotaStep policies) (ConservingCall policies) { clock := start } calls) :
    Lib.Always (quotaStep policies) (Conserved policies) { clock := start } calls :=
  Lib.always_of_meets books_step conserved_of_books (books_empty policies start) hcalls

/-- One unit for the principal `p`. -/
def oneForP : QuotaRequest where
  operation := js "a"
  principal := js "p"

/-- A spend that is refunded. -/
theorem always_conserved_refunded :
    Lib.Always (quotaStep fivePolicies) (Conserved fivePolicies) { clock := 0 }
      [.consume oneForP (js "id") 0, .refund 0 0] := by
  have hdated : Dated fivePolicies 0 oneForP := fun policy cost hvalid ↦ by
    obtain rfl := mem_singleton.1 (validate_eq_ok hvalid).1
    decide +kernel
  have hlog : ∀ e ∈ (quotaStep fivePolicies { clock := 0 } (.consume oneForP (js "id") 0)).log,
      e.spent = true ∧ e.passed = false := by
    decide +kernel
  refine always_conserved fivePolicies 0 ⟨⟨le_rfl, hdated⟩, ⟨le_rfl, fun e he ↦
    ⟨(hlog e (mem_of_getElem? he)).1, fun index' e' he' hpassed ↦ ?_⟩⟩, trivial⟩
  rw [(hlog e' (mem_of_getElem? he')).2] at hpassed
  cases hpassed

/-- **Refunding a receipt of `check`** takes back a unit that another call spent. -/
theorem refund_of_check_not_conserved :
    ¬ Conserved fivePolicies (Lib.run (quotaStep fivePolicies) { clock := 0 }
      [.consume oneForP (js "id") 0, .check oneForP (js "other") 0, .refund 1 0]) := by
  intro h
  have hused := h.current fivePolicy mem_cons_self (js "p") (.inr (by decide)) 0 (by decide +kernel)
  have hstored : (readStoredCounter (Lib.run (quotaStep fivePolicies) { clock := 0 }
      [.consume oneForP (js "id") 0, .check oneForP (js "other") 0, .refund 1 0]).store fivePolicy
        (js "p") 0).used = 0 := by decide +kernel
  have hspent : spentIn (Lib.run (quotaStep fivePolicies) { clock := 0 }
      [.consume oneForP (js "id") 0, .check oneForP (js "other") 0, .refund 1 0]).log
        fivePolicy.operation (js "p") (windowStartOf fivePolicy 0) -
      refundedIn (Lib.run (quotaStep fivePolicies) { clock := 0 }
        [.consume oneForP (js "id") 0, .check oneForP (js "other") 0, .refund 1 0]).log
          fivePolicy.operation (js "p") (windowStartOf fivePolicy 0) = 1 := by decide +kernel
  rw [hstored, hspent] at hused
  exact absurd hused (by decide)

end Utix.Quota

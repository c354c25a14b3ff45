import Utix.Quota.Store

/-!
# The account of a subject

What the store knows about one subject in one window is an *account*: the units that are written to
storage, and a reservation if some call is in flight. A spend goes through it in two moves, and
between them other spends may come and go. The relation that survives this is
`Advanced s t key w d`: from `s` to `t` the account has moved by `d` units, on disk and in the
reservation alike, and is otherwise as it was. It composes, and a reserved and committed spend is
an advance by its cost (`advanced_commit`), whatever advances in between.
-/

namespace Utix.Quota

open Js Option List Store

/-! ### Keys -/

/-- Under which key the account of a subject is kept. -/
abbrev QuotaPolicy.key (policy : QuotaPolicy) (subject : JsString) : JsString :=
  reservedKey policy.operation subject

/-- The shared subject, or a principal. -/
def IsSubject (subject : JsString) : Prop :=
  subject = quotaGlobalSubject ∨ isValidPrincipal subject = true

theorem not_isValidPrincipal_global : isValidPrincipal quotaGlobalSubject = false := by decide

variable {subject : JsString}

/-- A subject has no bar, so the key of an account can be taken apart. -/
theorem bar_not_mem_of_isSubject (h : IsSubject subject) : (124 : UInt16) ∉ subject := by
  rcases h with rfl | h
  · decide
  · simp only [isValidPrincipal, principalPattern, Bool.and_eq_true, List.all_eq_true] at h
    intro hmem
    exact absurd (h.2.2 _ hmem) (by decide)

/-- **The key determines the operation and the subject**, although operations are free texts. -/
theorem reservedKey_inj {o₁ o₂ s₁ s₂ : JsString} (h₁ : IsSubject s₁) (h₂ : IsSubject s₂) :
    reservedKey o₁ s₁ = reservedKey o₂ s₂ ↔ o₁ = o₂ ∧ s₁ = s₂ := by
  constructor
  · intro h
    have hbar : js "|" = [124] := by decide
    simp only [reservedKey, hbar, append_assoc, singleton_append] at h
    -- a longer operation would put a bar into the other subject
    rcases append_eq_append_iff.1 h with ⟨l, rfl, hl⟩ | ⟨l, rfl, hl⟩
    · rcases l with - | ⟨c, l⟩
      · simpa using hl
      · obtain ⟨-, rfl⟩ := cons.inj hl
        exact absurd (mem_append_right l mem_cons_self) (bar_not_mem_of_isSubject h₁)
    · rcases l with - | ⟨c, l⟩
      · simpa [eq_comm] using hl
      · obtain ⟨-, rfl⟩ := cons.inj hl
        exact absurd (mem_append_right l mem_cons_self) (bar_not_mem_of_isSubject h₂)
  · rintro ⟨rfl, rfl⟩
    rfl

/-! ### What an account holds -/

section

variable (s : Store) (key : JsString)

@[simp] theorem reserved_setReserved (entry : Option Reservation) :
    (s.setReserved key entry).reserved key = entry := if_pos rfl

@[simp] theorem counters_setCounter (counter : Counter) :
    (s.setCounter key counter).counters key = some counter := if_pos rfl

@[simp] theorem reserved_setCounter (counter : Counter) :
    (s.setCounter key counter).reserved = s.reserved := rfl

end

/-- The units written to storage in the window that starts at `w`. -/
def Store.usedAt (s : Store) (key : JsString) (w : ℤ) : ℤ :=
  match s.counters key with
  | some counter => if counter.windowStart = w then counter.used else 0
  | none => 0

/-- The units of the window, with those that are reserved. -/
def Store.total (s : Store) (key : JsString) (w : ℤ) : ℤ :=
  match s.reserved key with
  | some entry => if entry.windowStart = w then entry.used else s.usedAt key w
  | none => s.usedAt key w

section

variable (s : Store) (policy : QuotaPolicy) (subject : JsString) (at' : ℤ)

/-- The stored counter shows what is used in the present window. -/
theorem used_readStoredCounter : (readStoredCounter s policy subject at').used =
    s.usedAt (policy.key subject) (windowStartOf policy at') := by
  rw [readStoredCounter, Store.usedAt]
  cases s.counters (policy.key subject) with
  | none => rfl
  | some counter => exact apply_ite Counter.used _ _ _

theorem windowStart_readStoredCounter :
    (readStoredCounter s policy subject at').windowStart = windowStartOf policy at' := by
  rw [readStoredCounter]
  split
  · split
    · next h => exact h
    · rfl
  · rfl

/-- The counter that decides shows the reservations as well. -/
theorem used_readCounter :
    (readCounter s policy subject at').used =
      s.total (policy.key subject) (windowStartOf policy at') := by
  rw [readCounter, Store.total, reservationFor]
  cases s.reserved (policy.key subject) with
  | none => exact used_readStoredCounter s policy subject at'
  | some entry =>
    by_cases hw : entry.windowStart = windowStartOf policy at'
    · simp [filter_some, hw]
    · simp [filter_some, hw, used_readStoredCounter]

theorem windowStart_readCounter :
    (readCounter s policy subject at').windowStart = windowStartOf policy at' := by
  rw [readCounter]
  cases h : reservationFor s policy subject at' with
  | none => exact windowStart_readStoredCounter s policy subject at'
  | some entry =>
    have := filter_eq_some_iff.1 h
    exact of_decide_eq_true this.2

end

/-- The account is the same in both stores. -/
structure SameAccount (s t : Store) (key : JsString) : Prop where
  counters : t.counters key = s.counters key
  reserved : t.reserved key = s.reserved key

variable {k : JsString} {s : Store} {key : JsString}

/-- Reserving on one account leaves the others alone. -/
theorem sameAccount_setReserved (h : k ≠ key) (entry : Option Reservation) :
    SameAccount s (s.setReserved key entry) k := ⟨rfl, if_neg h⟩

/-- So does writing one. -/
theorem sameAccount_setCounter (h : k ≠ key) (counter : Counter) :
    SameAccount s (s.setCounter key counter) k := ⟨if_neg h, rfl⟩

variable {t : Store}

theorem SameAccount.usedAt (h : SameAccount s t key) (w : ℤ) : t.usedAt key w = s.usedAt key w := by
  rw [Store.usedAt, h.counters, Store.usedAt]

theorem SameAccount.total (h : SameAccount s t key) (w : ℤ) : t.total key w = s.total key w := by
  rw [Store.total, h.reserved, h.usedAt, Store.total]

/-! ### Advances -/

/-- **The account has moved by `d` units**, on disk and in the reservation; only the count of
refusals may differ beside that. -/
structure Advanced (s t : Store) (key : JsString) (w d : ℤ) : Prop where
  used : t.usedAt key w = s.usedAt key w + d
  free : s.reserved key = none → t.reserved key = none
  held : ∀ entry, s.reserved key = some entry →
    ∃ denied, t.reserved key = some { entry with used := entry.used + d, denied := denied }
  window : ∀ counter, t.counters key = some counter →
    s.counters key = some counter ∨ counter.windowStart = w

namespace Advanced

variable {u : Store} {w d d' : ℤ}

/-- An untouched account has advanced by nothing. -/
theorem of_same (h : SameAccount s t key) : Advanced s t key w 0 where
  used := by rw [h.usedAt, add_zero]
  free hn := by rw [h.reserved, hn]
  held entry he := ⟨entry.denied, by rw [h.reserved, he, add_zero]⟩
  window counter hc := .inl (by rw [← h.counters, hc])

/-- Advances add up. -/
theorem trans (h : Advanced s t key w d) (h' : Advanced t u key w d') :
    Advanced s u key w (d + d') where
  used := by rw [h'.used, h.used, add_assoc]
  free hn := h'.free (h.free hn)
  held entry he := by
    obtain ⟨denied, ht⟩ := h.held entry he
    obtain ⟨denied', hu⟩ := h'.held _ ht
    exact ⟨denied', by rw [hu, add_assoc]⟩
  window counter hc := by
    rcases h'.window counter hc with ht | hw
    · exact h.window counter ht
    · exact .inr hw

theorem same_trans (h : SameAccount s t key) (h' : Advanced t u key w d) :
    Advanced s u key w d := by
  have := (of_same (w := w) h).trans h'
  rwa [zero_add] at this

/-- What decides advances as what is stored. -/
theorem total (h : Advanced s t key w d) : t.total key w = s.total key w + d := by
  rw [Store.total, Store.total]
  cases hs : s.reserved key with
  | none => rw [h.free hs]; exact h.used
  | some entry =>
    obtain ⟨denied, ht⟩ := h.held entry hs
    rw [ht]
    by_cases hw : entry.windowStart = w
    · simp [hw]
    · simp [hw, h.used]

end Advanced

/-- A call may charge the account: what is reserved of it belongs to this window, has something
left to write, and is held by earlier calls. -/
structure Ready (s : Store) (key : JsString) (w : ℤ) : Prop where
  nonneg : 0 ≤ s.total key w
  live : ∀ entry, s.reserved key = some entry →
    entry.windowStart = w ∧ 0 < entry.unwritten ∧ ∀ owner ∈ entry.owners, owner.1 ≤ s.nextCallId

/-- An account stays in order while it advances. -/
theorem Ready.of_advanced {w d : ℤ} (h : Ready s key w) (hadv : Advanced s t key w d) (hd : 0 ≤ d)
    (hcalls : s.nextCallId ≤ t.nextCallId) : Ready t key w where
  nonneg := by
    have := h.nonneg
    rw [hadv.total]
    omega
  live entry he := by
    cases hs : s.reserved key with
    | none => rw [hadv.free hs] at he; cases he
    | some entry' =>
      obtain ⟨denied, ht⟩ := hadv.held entry' hs
      cases he.symm.trans ht
      obtain ⟨hw, hlive, howners⟩ := h.live entry' hs
      exact ⟨hw, hlive, fun owner ho ↦ (howners owner ho).trans hcalls⟩

/-- The account of a subject is ready in the window of an instant. -/
abbrev ReadyAt (s : Store) (policy : QuotaPolicy) (subject : JsString) (at' : ℤ) : Prop :=
  Ready s (policy.key subject) (windowStartOf policy at')

theorem Ready.of_same {w : ℤ} (h : Ready s key w) (hsame : SameAccount s t key)
    (hcalls : s.nextCallId ≤ t.nextCallId) : Ready t key w :=
  h.of_advanced (Advanced.of_same hsame) le_rfl hcalls

/-! ### Reserving, releasing, committing -/

/-- What a reservation of the account starts from. -/
def Store.base (s : Store) (policy : QuotaPolicy) (subject : JsString) (at' : ℤ) : Reservation :=
  (s.reserved (reservedKey policy.operation subject)).getD
    ⟨windowStartOf policy at', (readStoredCounter s policy subject at').used,
      (readStoredCounter s policy subject at').denied, [], 0⟩

variable {entry : Reservation} {cost : ℤ} {callId : ℕ} {policy : QuotaPolicy} {at' : ℤ}

section Ready

/-- A reservation of the present window is the one that counts. -/
theorem reservationFor_of_live (h : s.reserved (policy.key subject) = some entry)
    (hw : entry.windowStart = windowStartOf policy at') :
    reservationFor s policy subject at' = some entry := by
  rw [reservationFor, h, filter_some, if_pos (by simpa using hw)]

section

variable (h : ReadyAt s policy subject at')
include h

/-- What a reservation starts from. -/
theorem Ready.base_spec :
    (s.base policy subject at').windowStart = windowStartOf policy at' ∧
    (s.base policy subject at').used = s.total (policy.key subject) (windowStartOf policy at') ∧
    (∀ owner ∈ (s.base policy subject at').owners, owner.1 ≤ s.nextCallId) ∧
    0 ≤ (s.base policy subject at').unwritten := by
  rw [base, Store.total]
  cases hs : s.reserved (policy.key subject) with
  | none => exact ⟨rfl, used_readStoredCounter s policy subject at', by simp, le_rfl⟩
  | some entry =>
    obtain ⟨hwindow, hunwritten, howners⟩ := h.live entry hs
    exact ⟨hwindow, by simp [hwindow], howners, hunwritten.le⟩

/-- **Reserving** adds a part to the account and touches no other. -/
theorem reserved_reserveCounter (cost : ℤ) (callId : ℕ) :
    (reserveCounter s policy subject cost at' callId).reserved (policy.key subject) =
      some ((s.base policy subject at').plus callId cost) := by
  rw [reserveCounter, reserved_setReserved, base]
  cases hs : s.reserved (policy.key subject) with
  | none =>
    rw [reservationFor, hs]
    simp [windowStart_readStoredCounter]
  | some entry => rw [reservationFor_of_live hs (h.live entry hs).1]; rfl

end

theorem sameAccount_reserveCounter (hkey : key ≠ policy.key subject) (cost at' : ℤ) (callId : ℕ) :
    SameAccount s (reserveCounter s policy subject cost at' callId) key :=
  sameAccount_setReserved hkey _

/-- A reserved account is ready for further calls. -/
theorem Ready.plus (h : ReadyAt s policy subject at') (hcost : 1 ≤ cost)
    (hid : s.nextCallId < callId) (hcalls : callId ≤ t.nextCallId)
    (ht : t.reserved (policy.key subject) = some ((s.base policy subject at').plus callId cost)) :
    ReadyAt t policy subject at' ∧
      t.total (policy.key subject) (windowStartOf policy at') =
        s.total (policy.key subject) (windowStartOf policy at') + cost := by
  have hnonneg := h.nonneg
  obtain ⟨hwindow, hused, howners, hunwritten⟩ := h.base_spec
  have htotal : t.total (policy.key subject) (windowStartOf policy at') =
      s.total (policy.key subject) (windowStartOf policy at') + cost := by
    rw [Store.total, ht, ← hused]
    exact if_pos hwindow
  refine ⟨⟨by omega, fun entry hentry ↦ ?_⟩, htotal⟩
  cases ht.symm.trans hentry
  refine ⟨hwindow, by simp only [Reservation.plus]; omega, fun owner ho ↦ ?_⟩
  rcases mem_append.1 ho with ho | ho
  · exact (howners owner ho).trans (hid.le.trans hcalls)
  · rw [mem_singleton.1 ho]
    exact hcalls

end Ready

/-- A call takes back the share it added. -/
theorem dropOwner_plus (h : ∀ owner ∈ entry.owners, owner.1 < callId) :
    dropOwner (entry.plus callId cost).owners callId = entry.owners := by
  rw [dropOwner, Reservation.plus, filter_append]
  have hall : entry.owners.filter (fun owner ↦ owner.1 ≠ callId) = entry.owners :=
    filter_eq_self.2 fun owner ho ↦ by
      have := h owner ho
      simp
      omega
  rw [hall]
  simp

theorem any_owner_plus (entry : Reservation) (callId : ℕ) (cost : ℤ) :
    (entry.plus callId cost).owners.any (fun owner ↦ owner.1 = callId) = true := by
  simp [Reservation.plus]

/-- **A reservation that is released leaves the account as it was.** -/
theorem reserved_releaseCounter (h : ReadyAt s policy subject at') (hid : s.nextCallId < callId)
    (ht : t.reserved (policy.key subject) = some ((s.base policy subject at').plus callId cost)) :
    (releaseCounter t policy subject cost at' callId).reserved (policy.key subject) =
      s.reserved (policy.key subject) := by
  have hnonneg := h.nonneg
  have hw : ((s.base policy subject at').plus callId cost).windowStart =
      windowStartOf policy at' := h.base_spec.1
  have howners := fun owner ho ↦ lt_of_le_of_lt (h.base_spec.2.2.1 owner ho) hid
  rw [releaseCounter, reservationFor_of_live ht hw]
  simp only [any_owner_plus, if_true, reserved_setReserved, dropOwner_plus howners]
  rw [Reservation.settled]
  rw [← h.base_spec.2.1] at hnonneg
  simp only [Reservation.plus, add_sub_cancel_right, max_eq_right hnonneg]
  rw [base]
  cases hs : s.reserved (policy.key subject) with
  | none => simp
  | some entry =>
    have := (h.live entry hs).2.1
    simp only [getD_some]
    rw [if_neg (by omega)]

theorem sameAccount_releaseCounter (s : Store) (hkey : key ≠ policy.key subject) (cost at' : ℤ)
    (callId : ℕ) : SameAccount s (releaseCounter s policy subject cost at' callId) key := by
  rw [releaseCounter]
  split
  · exact ⟨rfl, rfl⟩
  · split
    · exact sameAccount_setReserved hkey _
    · exact ⟨rfl, rfl⟩

/-- The fields that no reservation touches. -/
structure SameRest (s t : Store) : Prop where
  overrides : t.overrides = s.overrides
  refunded : t.refunded = s.refunded
  nextCallId : t.nextCallId = s.nextCallId

/-- Releasing changes reservations only. -/
theorem sameRest_releaseCounter (s : Store) (policy : QuotaPolicy) (subject : JsString)
    (cost at' : ℤ) (callId : ℕ) :
    SameRest s (releaseCounter s policy subject cost at' callId) ∧
      (releaseCounter s policy subject cost at' callId).counters = s.counters := by
  rw [releaseCounter]
  split
  · exact ⟨⟨rfl, rfl, rfl⟩, rfl⟩
  · split <;> exact ⟨⟨rfl, rfl, rfl⟩, rfl⟩

theorem sameAccount_settleAt (s : Store) (h : k ≠ key) : SameAccount s (settleAt s key) k := by
  rw [settleAt]
  split
  · exact ⟨rfl, rfl⟩
  · exact sameAccount_setReserved h _

theorem counters_settleAt (s : Store) (key : JsString) :
    (settleAt s key).counters = s.counters := by
  rw [settleAt]
  split <;> rfl

theorem sameRest_settleAt (s : Store) (key : JsString) : SameRest s (settleAt s key) := by
  rw [settleAt]
  split <;> exact ⟨rfl, rfl, rfl⟩

/-- **A commit** drops the owner, lets the storage run, and adds its cost to what was on disk before
that. -/
theorem commitCounter_eq {inner : Inner} (hs : s.reserved (policy.key subject) = some entry)
    (hw : entry.windowStart = windowStartOf policy at')
    (hid : entry.owners.any (fun owner ↦ owner.1 = callId) = true)
    (hinner : (inner subject
      (committing s (policy.key subject) entry callId cost)).answer = some ()) :
    ∃ counter : Counter, counter.windowStart = windowStartOf policy at' ∧
      counter.used = s.usedAt (policy.key subject) (windowStartOf policy at') + cost ∧
      commitCounter inner s policy subject cost at' callId =
        ⟨settleAt ((inner subject (committing s (policy.key subject) entry callId
            cost)).store.setCounter (policy.key subject) counter) (policy.key subject), some (),
          (inner subject (committing s (policy.key subject) entry callId cost)).nested⟩ := by
  let current := readStoredCounter (committing s (policy.key subject) entry callId cost) policy
    subject at'
  refine ⟨{ current with
      used := current.used + cost, denied := max current.denied entry.denied },
    windowStart_readStoredCounter _ _ _ _, ?_, ?_⟩
  · simp only [current, used_readStoredCounter]
    rfl
  · rw [commitCounter, reservationFor_of_live hs hw]
    simp only [hid, if_true, writeCounter, Ran.andThen, hinner, append_nil, current]

/-- **A spend that is reserved and committed advances the account by its cost**, on top of what is
granted in between, if nothing is granted to the account inside the write itself. -/
theorem advanced_commit {inner : Inner} {u : Store} {d : ℤ} (h : ReadyAt s policy subject at')
    (hid : s.nextCallId < callId)
    (hcounters : t.counters (policy.key subject) = s.counters (policy.key subject))
    (ht : t.reserved (policy.key subject) = some ((s.base policy subject at').plus callId cost))
    (hadv : Advanced t u (policy.key subject) (windowStartOf policy at') d)
    (hinner : ∀ entry, u.reserved (policy.key subject) = some entry →
      (inner subject (committing u (policy.key subject) entry callId cost)).answer = some () ∧
      Advanced (committing u (policy.key subject) entry callId cost)
        (inner subject (committing u (policy.key subject) entry callId cost)).store
        (policy.key subject) (windowStartOf policy at') 0) :
    Advanced s (commitCounter inner u policy subject cost at' callId).store
      (policy.key subject) (windowStartOf policy at') (d + cost) := by
  obtain ⟨denied, hu⟩ := hadv.held _ ht
  have howners := fun owner ho ↦ lt_of_le_of_lt (h.base_spec.2.2.1 owner ho) hid
  obtain ⟨hanswer, hquiet⟩ := hinner _ hu
  obtain ⟨counter, hwindow, hused, heq⟩ :=
    commitCounter_eq hu h.base_spec.1 (any_owner_plus _ callId cost) hanswer
  obtain ⟨denied', hentry⟩ := hquiet.held _ (reserved_setReserved _ _ _)
  rw [heq]
  refine ⟨?_, ?_, ?_, ?_⟩
  · rw [Store.usedAt, counters_settleAt, counters_setCounter]
    simp only [hwindow, if_true]
    rw [hused, hadv.used, Store.usedAt, hcounters, ← Store.usedAt, add_assoc]
  · intro hfree
    rw [settleAt, reserved_setCounter, hentry]
    simp [Reservation.settled, Reservation.plus, base, hfree]
  · intro entry hheld
    have hpos := (h.live entry hheld).2.1
    refine ⟨denied', ?_⟩
    rw [settleAt, reserved_setCounter, hentry]
    simp only [reserved_setReserved, Reservation.settled]
    rw [dropOwner_plus howners]
    simp only [Reservation.plus, base, hheld, getD_some, add_sub_cancel_right]
    rw [if_neg (by omega), add_zero, add_assoc, add_comm cost d]
  · intro counter' hc
    rw [counters_settleAt, counters_setCounter] at hc
    exact .inr (some.inj hc ▸ hwindow)

end Utix.Quota

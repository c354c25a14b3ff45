import Utix.Ledger.Calls
import Utix.Ledger.Export
import Utix.Lib.Run

/-!
# Honest runs

A run from empty storage in which the ledger alone writes its chain: appends, prunes, and calls that
only read. The chain should then always verify, and does as long as every accepted append is
**storable**: the labels of its subject are still labels once scrubbed, and so is its instant, which
must not fall behind the head either.

An accepted append that is not storable breaks the chain for good. The validation of `append` looks
at the input, the verifier looks at what redaction left of it, and the two disagree on three fields.
With a clock instead of an explicit instant there is nothing to lose — the ISO text of a clock
reading has no unit that redaction touches — except when the clock is clamped to the instant of a
head that redaction had already rewritten.

`always_verified_iff` makes this exact: **the chain verifies after every call if and only if every
accepted append of the run is storable**.
-/

namespace Utix.Ledger

open Js Audit Telemetry Option List JsNum

/-- A call on the ledger, with what it reads from the clock. -/
inductive HonestCall
  | append (input : LedgerInput) (now : ℤ)
  | prune
  | head
  | entries
  | exportLedger (actor : AuditActor) (options : LedgerExportOptions) (now : ℤ)

/-- The storage, and the entry that the last successful `append` returned. -/
structure HonestState where
  storage : Storage
  last : Option JsValue

/-- Nothing stored, nothing appended. -/
def HonestState.empty : HonestState := ⟨fun _ ↦ none, none⟩

section

variable (rt : Runtime)

/-- The effect of a call. `head`, `entries` and `export` answer from the storage and write
nothing. -/
def honestStep (limit : Option ℤ) (r : HonestState) : HonestCall → HonestState
  | .append input now =>
    match append rt r.storage input now with
    | (some (.ok entry), storage) => ⟨storage, some entry⟩
    | (_, storage) => ⟨storage, r.last⟩
  | .prune => ⟨(prune limit r.storage).2, r.last⟩
  | .head => r
  | .entries => r
  | .exportLedger _ _ _ => r

/-- `verify()` answers `ok`, counts the retained entries, and its head is the last entry that was
appended, or the anchor if there is none. -/
def Verified (r : HonestState) : Prop :=
  ∃ anchor, verify rt r.storage none =
    some (.ok (entries r.storage).length anchor ((r.last.map checkpoint).getD anchor))

/-! ### The condition -/

/-- An input that the verifier will accept in its stored form, behind the head `p`. -/
def Storable (p : Checkpoint) (input : LedgerInput) (now : ℤ) : Prop :=
  isLabel (.str (scrubString input.subject.kind)) = true ∧
    isLabel (.str (scrubString input.subject.id)) = true ∧
      match input.at' with
      | some s => InstantStays rt p s
      | none => ∀ iso, Date.toISOString now = some iso → isEarlier (.str iso) p = some true →
          InstantStays rt p p.at'.asStr

/-- Every accepted append is storable. -/
def HonestOk (r : HonestState) : HonestCall → Prop
  | .append input now =>
    Accepts rt (head r.storage) input now → Storable rt (head r.storage) input now
  | _ => True

end

/-! ### The invariant -/

/-- The stored chain verifies up to the last entry appended. -/
structure Honest (rt : Runtime) (r : HonestState) (state : StoredLedger) : Prop where
  read : read r.storage = some state
  verifies : Verifies rt (checkpoint state.anchor) state.entries
  plain : PlainAt (checkpoint state.anchor).at'
  last : state.entries.getLast? = r.last

variable {input : LedgerInput} {now : ℤ} {state : StoredLedger}

namespace Honest

variable {rt : Runtime} {r : HonestState}

section

variable (h : Honest rt r state)
include h

/-- The head of the storage is that of the chain. -/
theorem head_eq :
    head r.storage = headFrom (checkpoint state.anchor) state.entries := by
  rw [head, h.read]
  exact headOf_eq_headFrom h.verifies

theorem headOf_eq : headOf state = head r.storage := by
  rw [h.head_eq, headOf_eq_headFrom h.verifies]

/-- The head of an honest storage is a proper checkpoint. -/
theorem proper_head : (head r.storage).Proper := by
  rw [h.head_eq]
  exact proper_headFrom (accepted_of_read h.read).proper_anchor h.verifies

/-- The head of an honest storage has a text for its instant. -/
theorem plain_head : PlainAt (head r.storage).at' := by
  rw [h.head_eq]
  exact plainAt_headFrom h.plain h.verifies

theorem last_point :
    (r.last.map checkpoint).getD (checkpoint state.anchor) =
      headFrom (checkpoint state.anchor) state.entries := by
  rw [← h.last]
  rcases eq_nil_or_concat state.entries with hnil | ⟨es, e, hes⟩
  · rw [hnil]
    rfl
  · rw [hes, concat_eq_append, getLast?_concat, headFrom_concat]
    rfl

/-- **The invariant is what `verify` reports.** -/
theorem verified : Verified rt r := by
  refine ⟨checkpoint state.anchor, ?_⟩
  rw [verify, entries, h.read]
  exact verifyLedgerChain_eq_ok_iff.2 ⟨h.verifies, rfl, rfl, h.last_point⟩

/-- An accepted input is appended. -/
theorem append_of_accepts (hacc : Accepts rt (head r.storage) input now) :
    ∃ entry, (append rt r.storage input now).1 = some (.ok entry) := by
  rw [← h.headOf_eq] at hacc
  exact Ledger.append_of_accepts h.read h.verifies (h.headOf_eq ▸ h.plain_head) hacc

end

end Honest

/-! ### One append -/

variable {rt : Runtime}

/-- **An entry that was appended verifies exactly when its input was storable.** -/
theorem checkEntry_appended_iff {p : Checkpoint} (hp : p.Proper) (hplain : PlainAt p.at')
    (hvalid : input.isValid rt = true) {instant : JsString}
    (hinstant : (input.at' <|> Date.toISOString now) = some instant) {earlier : Bool}
    (hearlier : isEarlier (.str instant) p = some earlier)
    (hclamp : earlier = true → input.at' = none) {entry : JsValue}
    (hbuilt : IsBuilt rt p input (if earlier then p.at' else .str instant) entry) :
    checkEntry rt p entry = some none ↔ Storable rt p input now := by
  obtain ⟨haction, hkind⟩ := isValid_action hvalid
  obtain ⟨k, -, hk⟩ := hp.seq
  rw [checkEntry_built_iff hbuilt hk hp.hash haction hkind, Storable]
  -- the two labels are the same on both sides; the instant is decided by where it came from
  have hsplit : ∀ a b c d e : Prop, (a ∧ d ↔ e) → (a ∧ b ∧ c ∧ d ↔ b ∧ c ∧ e) := by tauto
  refine hsplit _ _ _ _ _ ?_
  cases hin : input.at' with
  | some s =>
    have hnot : earlier = false := by
      cases earlier with
      | false => rfl
      | true => exact absurd (hclamp rfl) (by simp [hin])
    obtain rfl : s = instant := by simpa [hin] using hinstant
    subst hnot
    exact instantStays_iff.symm
  | none =>
    have hiso : Date.toISOString now = some instant := by simpa [hin] using hinstant
    cases earlier with
    | true =>
      have hstored : storedValue p.at' = storedValue (.str p.at'.asStr) :=
        congrArg storedValue (exists_text_of_isEarlier hplain hearlier)
      rw [if_pos rfl, hstored, ← instantStays_iff]
      constructor
      · intro h iso _ _
        exact h
      · intro h
        exact h instant hiso hearlier
    | false =>
      rw [if_neg Bool.false_ne_true, ← instantStays_iff]
      refine iff_of_true (instantStays_of_toISOString hiso hearlier) fun iso h htrue ↦ ?_
      obtain rfl : instant = iso := mem_unique hiso h
      rw [hearlier] at htrue
      cases htrue

/-! ### One call -/

variable {limit : Option ℤ} {r : HonestState}

/-- After an append that was refused or threw, nothing has changed. -/
theorem honestStep_append_of_unchanged (hstorage : (append rt r.storage input now).2 = r.storage)
    (hno : ∀ entry, (append rt r.storage input now).1 ≠ some (.ok entry)) :
    honestStep rt limit r (.append input now) = r := by
  rw [honestStep]
  split
  · next entry _ heq => exact absurd (congrArg Prod.fst heq) (hno entry)
  · next storage _ heq =>
    have hs : storage = r.storage := by rw [← hstorage, heq]
    rw [hs]

/-- What is read after an append that stored an entry, and that the chain verifies exactly when the
entry passes its round. -/
theorem honest_extend (h : Honest rt r state) {entry : JsValue} (hjson : entry.IsJson) :
    (checkEntry rt (head r.storage) entry = some none →
        ∃ next, Honest rt ⟨extend r.storage state entry, some entry⟩ next) ∧
      (Verified rt ⟨extend r.storage state entry, some entry⟩ →
        checkEntry rt (head r.storage) entry = some none) := by
  obtain ⟨next, hread, hanchor, hentries⟩ :=
    read_extend r.storage (accepted_of_read h.read) hjson
  have hverifies : Verifies rt (checkpoint next.anchor) next.entries ↔
      checkEntry rt (head r.storage) entry = some none := by
    rw [hanchor, hentries, verifies_concat, ← h.head_eq]
    exact and_iff_right h.verifies
  refine ⟨fun hpass ↦ ⟨next, hread, hverifies.2 hpass, ?_, ?_⟩, ?_⟩
  · rw [hanchor]
    exact h.plain
  · rw [hentries, getLast?_concat]
  · rintro ⟨anchor, hverify⟩
    rw [verify, hread] at hverify
    exact hverifies.1 (verifyLedgerChain_eq_ok_iff.1 hverify).1

/-- **One append**: it keeps the chain honest if it is accepted only when storable, and otherwise
the chain no longer verifies. -/
theorem honest_append (h : Honest rt r state) (input : LedgerInput) (now : ℤ) :
    (HonestOk rt r (.append input now) →
        ∃ next, Honest rt (honestStep rt limit r (.append input now)) next) ∧
      (Verified rt (honestStep rt limit r (.append input now)) →
        HonestOk rt r (.append input now)) := by
  rcases append_cases rt r.storage input now with ⟨hstorage, hno⟩ | ⟨state', instant, earlier,
    entry, hvalid, hread, hinstant, hearlier, hclamp, hbuild, happend⟩
  · rw [honestStep_append_of_unchanged hstorage hno]
    refine ⟨fun _ ↦ ⟨state, h⟩, fun _ hacc ↦ ?_⟩
    obtain ⟨entry, hentry⟩ := h.append_of_accepts hacc
    exact absurd hentry (hno entry)
  · obtain rfl : state = state' := mem_unique h.read hread
    rw [h.headOf_eq] at hearlier hbuild
    have hbuilt := isBuilt_of_build (wellFormed_clamped h.plain_head earlier instant) hbuild
    have hstep : honestStep rt limit r (.append input now) =
        ⟨extend r.storage state entry, some entry⟩ := by
      rw [honestStep, happend]
    have hiff := checkEntry_appended_iff h.proper_head h.plain_head hvalid hinstant hearlier hclamp
      hbuilt
    have haccepts : Accepts rt (head r.storage) input now := by
      refine ⟨hvalid, ?_⟩
      cases hin : input.at' with
      | some s =>
        obtain rfl : s = instant := by simpa [hin] using hinstant
        cases earlier with
        | false => exact hearlier
        | true => exact absurd (hclamp rfl) (by simp [hin])
      | none =>
        rw [hin] at hinstant
        exact isSome_iff_exists.2 ⟨instant, hinstant⟩
    obtain ⟨hkeep, hbreak⟩ := honest_extend h hbuilt.json
    rw [hstep]
    exact ⟨fun hok ↦ hkeep (hiff.2 (hok haccepts)), fun hver _ ↦ hiff.1 (hbreak hver)⟩

/-- The anchor that `prune` makes of a verified entry. -/
theorem isCheckpoint_pointOf {fs : Fields} (hsealed : Sealed rt (.obj fs))
    (hproper : (checkpoint (.obj fs)).Proper) : isCheckpoint (pointOf fs) = true := by
  have hshape := hsealed.shape
  simp only [isEntryShape, Bool.and_eq_true] at hshape
  obtain ⟨k, hk, hseq⟩ := hproper.seq
  have hint : isInteger ((JsValue.obj fs).get (js "seq")) = true := by tauto
  have hneg : ((JsValue.obj fs).get (js "seq")).asNum.less (ofInt 0) = false := by
    have hnum : ((JsValue.obj fs).get (js "seq")).asNum = ofInt k := hseq
    rw [hnum, less_ofInt]
    simpa using hk
  have hhash : isHash ((JsValue.obj fs).get (js "hash")) = true := hshape.2
  have hpoint : isCheckpoint (pointOf fs) = (true && isInteger ((JsValue.obj fs).get (js "seq")) &&
      !((JsValue.obj fs).get (js "seq")).asNum.less (ofInt 0) &&
      isHash ((JsValue.obj fs).get (js "hash"))) := rfl
  rw [hpoint, hint, hneg, hhash]
  rfl

theorem isJson_pointOf_sealed {fs : Fields} (hsealed : Sealed rt (.obj fs))
    (hjson : (JsValue.obj fs).IsJson) : (pointOf fs).IsJson := by
  have hshape := hsealed.shape
  simp only [isEntryShape, Bool.and_eq_true] at hshape
  refine isJson_pointOf hjson ?_ ?_ ?_ <;> intro hu <;>
    simp [JsValue.get, hu, isInteger, isHash, isInstant] at hshape

/-- **Pruning keeps an honest chain honest.** -/
theorem honest_prune (h : Honest rt r state) :
    ∃ next, Honest rt (honestStep rt limit r .prune) next := by
  rcases prune_cases limit r.storage with hsame | ⟨state', before, e, after, anchor, hread, hes,
    hne, hpoint, hwrite⟩
  · exact ⟨state, by rw [honestStep, hsame]; exact h⟩
  obtain rfl : state = state' := mem_unique h.read hread
  have haccepted := accepted_of_read h.read
  have hverifies := h.verifies
  rw [hes, ← singleton_append, ← append_assoc, verifies_append, headFrom_concat]
    at hverifies
  obtain ⟨hbefore, hafter⟩ := hverifies
  have hsealed := sealed_of_verifies h.verifies e (by rw [hes]; simp)
  have hproper : (checkpoint e).Proper := by
    have := proper_headFrom haccepted.proper_anchor hbefore
    rwa [headFrom_concat] at this
  obtain ⟨s, hs, -⟩ := hsealed.exists_at
  obtain ⟨fs, rfl⟩ := hsealed.exists_fields
  obtain rfl : pointOf fs = anchor := by
    rw [pointValue_obj] at hpoint
    exact some.inj hpoint
  have hjson : ∀ x ∈ after, x.IsJson := fun x hx ↦
    haccepted.isJson_entries x (by rw [hes]; simp [hx])
  refine ⟨⟨ledgerFields (pointOf fs) after⟩, ?_, ?_, .inr ⟨s, hs⟩, ?_⟩
  · rw [honestStep, hwrite]
    exact read_ledgerFields
      (isJson_pointOf_sealed hsealed (haccepted.isJson_entries _ (by rw [hes]; simp)))
      (isCheckpoint_pointOf hsealed hproper) hjson
  · exact hafter
  · -- at least one entry is kept, so the last one is the one it was
    have hlast := h.last
    rw [hes, getLast?_append_of_ne_nil _ (by simp), getLast?_cons_of_ne_nil hne] at hlast
    exact hlast

/-! ### The run -/

/-- **A call that meets the condition keeps the storage honest.** -/
theorem honest_step (r : HonestState) (c : HonestCall) (h : ∃ state, Honest rt r state)
    (hok : HonestOk rt r c) : ∃ state, Honest rt (honestStep rt limit r c) state := by
  obtain ⟨state, h⟩ := h
  cases c with
  | append input now => exact (honest_append h input now).1 hok
  | prune => exact honest_prune h
  | head => exact ⟨state, h⟩
  | entries => exact ⟨state, h⟩
  | exportLedger actor options now => exact ⟨state, h⟩

/-- **Honest runs verify exactly when every accepted append is storable.** From empty storage, the
chain verifies after every call of the run, with all retained entries counted and the last appended
entry as its head, if and only if each append that was accepted had a subject whose labels survive
redaction and an instant that does. -/
theorem always_verified_iff (rt : Runtime) (limit : Option ℤ) (calls : List HonestCall) :
    Lib.Always (honestStep rt limit) (Verified rt) HonestState.empty calls ↔
      Lib.Meets (honestStep rt limit) (HonestOk rt) HonestState.empty calls := by
  refine Lib.always_iff_meets honest_step (fun _ ⟨_, h⟩ ↦ h.verified) (fun r c ⟨_, h⟩ hver ↦ ?_)
    ⟨⟨ledgerFields genesisValue []⟩, rfl, trivial, .inl rfl, rfl⟩ calls
  cases c with
  | append input now => exact (honest_append h input now).2 hver
  | _ => trivial

/-- A runtime that also reads one RFC 2822 date. -/
def rfcRuntime : Runtime where
  sha256Hex := fun _ ↦ ⟨ledgerGenesisHash, hashPattern_genesis⟩
  otherDate := fun s ↦ if s = js "Sat, 01 Jan 2022 00:00:00 GMT" then some 1640995200000 else none

/-- A financial event of a Saturday, with its date in RFC 2822 form. -/
def saturdayInput : LedgerInput where
  kind := .financial
  action := js "faucet.funded"
  actorId := js "friendbot"
  subject := ⟨js "account", js "GA"⟩
  at' := some (js "Sat, 01 Jan 2022 00:00:00 GMT")

/-- **The first append of an honest run can break the chain.** The date is accepted, and stored as
`[REDACTED]` because it starts with an `S`. -/
theorem verify_after_saturdayInput :
    (append rfcRuntime (fun _ ↦ none) saturdayInput 0).1.any (fun answer ↦ answer.isOk) = true ∧
      verify rfcRuntime
        (honestStep rfcRuntime none HonestState.empty (.append saturdayInput 0)).storage none =
          some (.broken .malformedEntry (some (JsNum.ofInt 1)) 0 genesis) := by
  decide +kernel

end Utix.Ledger

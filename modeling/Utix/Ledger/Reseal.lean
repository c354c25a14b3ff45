import Utix.Ledger.Calls

/-!
# Recovery

`reseal` takes a chain that does not verify, moves the stored text aside, keeps the entries that
still verify, and seals them with an entry of its own. The new entry is built behind the last good
point, and takes the instant of that point when it is later than the clock.

The sequence number and the digest of the last good point are sound whatever was stored: they passed
`isCheckpoint` or a round of the verifier. **Its instant is not**: nothing checks the `at` of an
anchor. If it compares above the clock and is not a text that stays an instant, the recovered chain
does not verify; if it cannot be compared at all, `reseal` throws. There is no other way in which
recovery fails.
-/

namespace Utix.Ledger

open Js JsValue Audit Telemetry Option List

/-! ### The last good point -/

/-- The anchor that `reseal` keeps. -/
def keptAnchor (storage : Storage) : JsValue :=
  ((read storage).map StoredLedger.anchor).getD genesisValue

/-- What `reseal` keeps of a stored chain that does not verify. -/
structure KeepsPrefix (rt : Runtime) (storage : Storage) (verified : ℕ) (lastGood : Checkpoint) :
    Prop where
  jsonAnchor : (keptAnchor storage).IsJson
  anchor : isCheckpoint (keptAnchor storage) = true
  json : ∀ e ∈ (entries storage).take verified, e.IsJson
  verifies : Verifies rt (checkpoint (keptAnchor storage)) ((entries storage).take verified)
  lastGood : lastGood = headFrom (checkpoint (keptAnchor storage)) ((entries storage).take verified)

variable {code : LedgerIntegrityCode} {storage : Storage} {lastGood : Checkpoint} {rt : Runtime}
  {verified : ℕ} {seq : Option JsNum}

/-- **A failed verification leaves a verified prefix behind a proper anchor.** -/
theorem keepsPrefix_of_broken
    (h : verify rt storage none = some (.broken code seq verified lastGood)) :
    KeepsPrefix rt storage verified lastGood := by
  rw [verify] at h
  cases hread : read storage with
  | none =>
    rw [hread] at h
    simp only [some.injEq, LedgerVerification.broken.injEq] at h
    obtain ⟨-, -, rfl, rfl⟩ := h
    refine ⟨?_, ?_, ?_, ?_, ?_⟩ <;> simp only [keptAnchor, entries, hread, map_none,
      getD_none, take_nil]
    · exact isJson_genesisValue
    · exact isCheckpoint_genesisValue
    · simp
    · trivial
    · rfl
  | some state =>
    rw [hread] at h
    obtain ⟨hver, hlast⟩ := verifyLedgerChain_eq_broken h
    have haccepted := accepted_of_read hread
    refine ⟨?_, ?_, ?_, ?_, ?_⟩ <;> simp only [keptAnchor, entries, hread, map_some, getD_some]
    · exact haccepted.isJson_anchor
    · exact haccepted.anchor
    · exact fun e he ↦ haccepted.isJson_entries e (mem_of_mem_take he)
    · exact hver
    · exact hlast

namespace KeepsPrefix

variable {rt : Runtime} {verified : ℕ}

/-- The last good point is a proper checkpoint. -/
theorem proper (h : KeepsPrefix rt storage verified lastGood) : lastGood.Proper := by
  rw [h.lastGood]
  exact proper_headFrom (proper_of_isCheckpoint h.anchor) h.verifies

end KeepsPrefix

/-! ### The quarantine -/

variable {iso : JsString} {t : ℤ}

/-- The old text is not put where the chain is stored. -/
theorem quarantineKey_ne (h : Date.toISOString t = some iso) :
    ledgerStorageKey ≠ ledgerQuarantinePrefix ++ iso := by
  intro heq
  have hlen := congrArg length heq
  have hiso := Date.length_of_toISOString h
  have hkey : ledgerStorageKey.length = 20 := by decide
  rw [length_append, hkey] at hlen
  omega

/-- The labels of a resealing entry survive redaction. -/
theorem isLabel_quarantineKey (h : Date.toISOString t = some iso) :
    isLabel (.str (scrubString (ledgerQuarantinePrefix ++ iso))) = true := by
  have hlen := Date.length_of_toISOString h
  have hkey : ledgerQuarantinePrefix.length = 26 := by decide
  have hplain : ∀ c ∈ ledgerQuarantinePrefix ++ iso, isPlainUnit c = true := by
    intro c hc
    rcases mem_append.1 hc with hc | hc
    · have hall : ledgerQuarantinePrefix.all isPlainUnit = true := by decide
      exact all_eq_true.1 hall c hc
    · exact isPlainUnit_of_isIsoUnit (Date.isIsoUnit_of_toISOString h c hc)
  have hlimit : 128 ≤ maxScannableStringLength := by decide
  rw [scrubString_eq_self hplain (by rw [length_append]; omega), isLabel]
  have hblank : isBlank (ledgerQuarantinePrefix ++ iso) = false := by
    rw [isBlank, all_append, show ledgerQuarantinePrefix.all isSpace = false by decide]
    rfl
  rw [hblank]
  simp only [Bool.not_false, Bool.true_and, decide_eq_true_eq, length_append]
  omega

/-! ### What `reseal` does -/

/-- Where the stored text is moved to. -/
def quarantine (storage : Storage) (iso : JsString) : Storage :=
  storage.setItem (ledgerQuarantinePrefix ++ iso) ((storage ledgerStorageKey).getD [])

/-- **`reseal` on a chain that does not verify**: it throws, because the clock shows no instant or
the last good instant cannot be compared with it, or it builds an entry behind the last good point
and stores it after the verified prefix. -/
theorem reseal_cases {actor : AuditActor} {id reason : JsString} (now : ℤ)
    (hid : maintainerId actor = some id) (hreason : reasonPattern reason = true)
    (hbroken : verify rt storage none = some (.broken code seq verified lastGood)) :
    ((reseal rt storage actor reason now).1 = none ∧
        read (reseal rt storage actor reason now).2 = read storage ∧
          ∀ iso, Date.toISOString now = some iso → isEarlier (.str iso) lastGood = none) ∨
      ∃ iso later dropped entry, Date.toISOString now = some iso ∧
        isEarlier (.str iso) lastGood = some later ∧
        IsBuilt rt lastGood
          (resealInput id (ledgerQuarantinePrefix ++ iso) (resealData code seq dropped reason))
          (if later then lastGood.at' else .str iso) entry ∧
        reseal rt storage actor reason now =
          (some (.ok ⟨code, ledgerQuarantinePrefix ++ iso, lastGood, dropped, entry⟩),
            write (quarantine storage iso) (ledgerFields (keptAnchor storage)
              ((entries storage).take verified ++ [entry]))) := by
  have hkeeps := keepsPrefix_of_broken hbroken
  rw [reseal, hid]
  simp only [hreason, Bool.true_eq_false, if_false, hbroken]
  cases hiso : Date.toISOString now with
  | none => exact .inl ⟨rfl, rfl, by simp⟩
  | some iso =>
    have hread : read (storage.setItem (ledgerQuarantinePrefix ++ iso)
        ((storage ledgerStorageKey).getD [])) = read storage := by
      rw [read, setItem_of_ne (quarantineKey_ne hiso), read]
    have hkept : ((read storage).map fun s ↦ s.entries.take verified).getD [] =
        (entries storage).take verified := by
      rw [entries]
      cases read storage <;> simp
    simp only [hread, hkept]
    cases hearlier : isEarlier (.str iso) lastGood with
    | none =>
      rw [isEarlier] at hearlier
      refine .inl ⟨by rw [hearlier], by rw [hearlier]; exact hread, fun iso' h ↦ ?_⟩
      cases h
      rw [isEarlier, hearlier]
    | some later =>
      have hwf : (if later then lastGood.at' else .str iso).WellFormed := by
        split
        · rw [hkeeps.lastGood]
          rcases eq_nil_or_concat ((entries storage).take verified) with hnil | ⟨es, e, hes⟩
          · rw [hnil]
            exact wellFormed_get hkeeps.jsonAnchor _
          · rw [concat_eq_append] at hes
            rw [hes, headFrom_concat]
            exact wellFormed_get (hkeeps.json e (by rw [hes]; simp)) _
        · trivial
      obtain ⟨entry, hbuild, hbuilt⟩ := @exists_build rt lastGood (resealInput id
        (ledgerQuarantinePrefix ++ iso) (resealData code seq
          (((read storage).map fun s ↦ s.entries.length).getD 0 -
            ((entries storage).take verified).length) reason)) _ hwf
      rw [isEarlier] at hearlier
      refine .inr ⟨iso, later, _, entry, rfl, ?_, hbuilt, ?_⟩
      · rw [isEarlier, hearlier]
      · rw [hearlier]
        simp only [hbuild]
        rfl

/-- A call that is refused, or that finds the chain intact, leaves the storage alone. -/
theorem reseal_eq_self_or (rt : Runtime) (storage : Storage) (actor : AuditActor)
    (reason : JsString) (now : ℤ) :
    (reseal rt storage actor reason now).2 = storage ∨
      ∃ id code seq verified lastGood, maintainerId actor = some id ∧
        reasonPattern reason = true ∧
          verify rt storage none = some (.broken code seq verified lastGood) := by
  rw [reseal]
  split
  · exact .inl rfl
  next id hid =>
  split
  · exact .inl rfl
  next hreason =>
  split
  · exact .inl rfl
  · exact .inl rfl
  · next code seq verified lastGood hbroken =>
    exact .inr ⟨id, code, seq, verified, lastGood, hid, by simpa using hreason, hbroken⟩

theorem exists_text_of_isInstant {v : JsValue} (h : isInstant rt (storedValue v) = true) :
    ∃ s, v = .str s := by
  cases v with
  | str s => exact ⟨s, rfl⟩
  | num n => cases hfin : n.isFinite <;> simp [storedValue, redact, isOmitted, jsonOf, hfin,
      isInstant] at h
  | arr xs =>
    have hred : redact false 1 (.arr xs) = .arr (redactElems false 2 xs) := by
      rw [redact, if_neg (by decide)]
    simp [storedValue, hred, isInstant, isOmitted, jsonOf] at h
  | obj fs =>
    have hred : redact false 1 (.obj fs) = .obj (redactFields false 2 fs) := by
      rw [redact, if_neg (by decide)]
    simp [storedValue, hred, isInstant, isOmitted, jsonOf] at h
  | foreign k => cases k <;> simp [storedValue, redact, isOmitted, isInstant] at h
  | _ => simp [storedValue, redact, isOmitted, isInstant, jsonOf] at h

variable {entry : JsValue}

/-- **When the resealing entry verifies.** -/
theorem checkEntry_resealed_iff (hp : lastGood.Proper) {now : ℤ} {id : JsString}
    (hiso : Date.toISOString now = some iso) {later : Bool}
    (hlater : isEarlier (.str iso) lastGood = some later) {data : Record}
    (hbuilt : IsBuilt rt lastGood (resealInput id (ledgerQuarantinePrefix ++ iso) data)
      (if later then lastGood.at' else .str iso) entry) :
    checkEntry rt lastGood entry = some none ↔
      later = false ∨ ∃ s, lastGood.at' = .str s ∧ InstantStays rt lastGood s := by
  obtain ⟨k, -, hk⟩ := hp.seq
  have hkind : isLabel (.str (scrubString (js "ledger"))) = true := by decide +kernel
  have hlabel : isLabel (.str (scrubString (ledgerQuarantinePrefix ++ iso))) = true :=
    isLabel_quarantineKey hiso
  rw [checkEntry_built_iff hbuilt hk hp.hash (show js "ledger.resealed" ∈ allActions by decide)
    (show LedgerKind.privileged = kindOf (js "ledger.resealed") by decide)]
  have hlabels : ∀ a d : Prop, (a ∧ isLabel (.str (scrubString (js "ledger"))) = true ∧
      isLabel (.str (scrubString (ledgerQuarantinePrefix ++ iso))) = true ∧ d) ↔ a ∧ d := by
    intro a d
    rw [hkind, hlabel]
    tauto
  refine (hlabels _ _).trans ?_
  cases later with
  | false =>
    rw [if_neg Bool.false_ne_true, ← instantStays_iff]
    exact iff_of_true (instantStays_of_toISOString hiso hlater) (.inl rfl)
  | true =>
    rw [if_pos rfl]
    constructor
    · intro h
      obtain ⟨s, hs⟩ := exists_text_of_isInstant h.1
      exact .inr ⟨s, hs, instantStays_iff.2 (by rw [← hs]; exact h)⟩
    · rintro (h | ⟨s, hs, hstays⟩)
      · cases h
      · have hstays' := instantStays_iff.1 hstays
        rw [← hs] at hstays'
        exact hstays'

/-! ### Recovery -/

/-- The clock shows an instant, and the instant of the last good point is not later, or is a text
that stays an instant. -/
def Resumable (rt : Runtime) (lastGood : Checkpoint) (now : ℤ) : Prop :=
  ∃ iso, Date.toISOString now = some iso ∧
    (isEarlier (.str iso) lastGood = some false ∨
      ∃ s, lastGood.at' = .str s ∧ InstantStays rt lastGood s)

/-- What a recovery promises: the chain verifies, it is the verified prefix and the resealing entry,
a further append that leaves the instant to a working clock succeeds, and the old text is kept under
the quarantine key. -/
structure Recovered (rt : Runtime) (before : Storage) (verified : ℕ) (report : ResealReport)
    (after : Storage) : Prop where
  verify : ∃ count anchor point, verify rt after none = some (.ok count anchor point)
  entries : entries after = (entries before).take verified ++ [report.entry]
  action : report.entry.get (js "action") = .str (js "ledger.resealed")
  append : ∀ (input : LedgerInput) (t : ℤ), input.isValid rt = true → input.at' = none →
    (Date.toISOString t).isSome = true → ∃ entry, (append rt after input t).1 = some (.ok entry)
  quarantine : after report.quarantineKey = before ledgerStorageKey

/-- The storage after `reseal` reads back as the verified prefix and the new entry. -/
theorem read_resealed (hkeeps : KeepsPrefix rt storage verified lastGood) (target : Storage)
    (hjson : entry.IsJson) :
    read (write target (ledgerFields (keptAnchor storage)
      ((entries storage).take verified ++ [entry]))) =
        some ⟨ledgerFields (keptAnchor storage) ((entries storage).take verified ++ [entry])⟩ := by
  refine read_ledgerFields hkeeps.jsonAnchor hkeeps.anchor fun e he ↦ ?_
  rcases mem_append.1 he with he | he
  · exact hkeeps.json e he
  · rw [mem_singleton.1 he]
    exact hjson

/-- If the new entry passes its round, everything that recovery promises follows. -/
theorem recovered_of_pass (hkeeps : KeepsPrefix rt storage verified lastGood) {now : ℤ}
    {id raw : JsString} (hiso : Date.toISOString now = some iso)
    (hraw : storage ledgerStorageKey = some raw) {data : Record} {instant : JsValue}
    (hbuilt : IsBuilt rt lastGood (resealInput id (ledgerQuarantinePrefix ++ iso) data) instant
      entry) (hpass : checkEntry rt lastGood entry = some none) (code : LedgerIntegrityCode)
    (dropped : ℕ) :
    Recovered rt storage verified
      ⟨code, ledgerQuarantinePrefix ++ iso, lastGood, dropped, entry⟩
      (write (quarantine storage iso) (ledgerFields (keptAnchor storage)
        ((entries storage).take verified ++ [entry]))) := by
  have hread := read_resealed hkeeps (quarantine storage iso) hbuilt.json
  have hver : Verifies rt (checkpoint (keptAnchor storage))
      ((entries storage).take verified ++ [entry]) :=
    verifies_concat.2 ⟨hkeeps.verifies, hkeeps.lastGood ▸ hpass⟩
  have haction : js "ledger.resealed" ∈ allActions := by decide
  have hverify := verifyLedgerChain_eq_ok_iff.2 ⟨hver, rfl, rfl, rfl⟩
  refine ⟨⟨_, _, _, (by rw [verify, hread]; exact hverify)⟩, ?_, hbuilt.get_action haction,
    fun input t hvalid hat ht ↦ ?_, ?_⟩
  · rw [entries, hread]
    rfl
  rotate_left
  · rw [write, setItem_of_ne (Ne.symm (quarantineKey_ne hiso)), quarantine, setItem_self, hraw,
      getD_some]
  obtain ⟨s, hs, -⟩ := (sealed_of_verifies hver entry (by simp)).exists_at
  refine append_of_accepts hread hver ?_ ⟨hvalid, by rw [hat]; exact ht⟩
  rw [headOf_eq_headFrom hver]
  exact .inr ⟨s, by rw [entries_ledgerFields, headFrom_concat]; exact hs⟩

/-- **Recovery succeeds exactly when the last good instant can be resumed from.** For every stored
text that does not verify, every maintainer with an id and every proper reason, `reseal` answers
`ok` and keeps all its promises if and only if the clock shows an instant and the `at` of the last
good point is not later than it, or is a text that redaction leaves an instant. -/
theorem recovered_iff_resumable {rt : Runtime} {storage : Storage} {raw id reason : JsString}
    (hraw : storage ledgerStorageKey = some raw) (hid : id ≠ [])
    (hreason : reasonPattern reason = true) {code : LedgerIntegrityCode} {seq : Option JsNum}
    {verified : ℕ} {lastGood : Checkpoint}
    (hbroken : verify rt storage none = some (.broken code seq verified lastGood)) (now : ℤ) :
    (∃ report after, reseal rt storage (.maintainer id) reason now = (some (.ok report), after) ∧
        Recovered rt storage verified report after) ↔
      Resumable rt lastGood now := by
  have hkeeps := keepsPrefix_of_broken hbroken
  have hactor : maintainerId (.maintainer id) = some id := if_neg hid
  rcases reseal_cases now hactor hreason hbroken with ⟨hthrow, -, hnone⟩ |
    ⟨iso, later, dropped, entry, hiso, hlater, hbuilt, hreseal⟩
  · refine iff_of_false ?_ ?_
    · rintro ⟨report, after, h, -⟩
      rw [h] at hthrow
      cases hthrow
    · rintro ⟨iso, hiso, hnot | ⟨s, hs, -⟩⟩
      · rw [hnone iso hiso] at hnot
        cases hnot
      · obtain ⟨b, hb⟩ := exists_isEarlier (.inr ⟨s, hs⟩) iso
        rw [hnone iso hiso] at hb
        cases hb
  · have hiff := checkEntry_resealed_iff hkeeps.proper hiso hlater hbuilt
    have hresume : checkEntry rt lastGood entry = some none ↔ Resumable rt lastGood now := by
      rw [hiff, Resumable]
      constructor
      · rintro (rfl | h)
        · exact ⟨iso, hiso, .inl hlater⟩
        · exact ⟨iso, hiso, .inr h⟩
      · rintro ⟨iso', hiso', h | h⟩
        · obtain rfl : iso = iso' := mem_unique hiso hiso'
          rw [hlater] at h
          exact .inl (some.inj h)
        · exact .inr h
    rw [← hresume]
    constructor
    · rintro ⟨report, after, h, hrec⟩
      obtain rfl := (Prod.mk.inj (hreseal.symm.trans h)).2
      obtain ⟨count, anchor, point, hverify⟩ := hrec.verify
      rw [verify, read_resealed hkeeps _ hbuilt.json] at hverify
      have hver := (verifyLedgerChain_eq_ok_iff.1 hverify).1
      rw [anchor_ledgerFields, entries_ledgerFields, verifies_concat, ← hkeeps.lastGood] at hver
      exact hver.2
    · intro hpass
      exact ⟨_, _, hreseal, recovered_of_pass hkeeps hiso hraw hbuilt hpass code dropped⟩

/-- A stored chain with one entry that is no entry, behind an anchor with this `at`. -/
def tamperedText (at' : JsValue) : JsString :=
  stringify (.obj [(js "v", .num (JsNum.ofInt 1)),
    (js "anchor", .obj [(js "seq", .num (JsNum.ofInt 0)), (js "hash", .str ledgerGenesisHash),
      (js "at", at')]), (js "entries", .arr [.null])])

/-- A storage that holds only this chain. -/
def tamperedStorage (at' : JsValue) : Storage :=
  Storage.setItem (fun _ ↦ none) ledgerStorageKey (tamperedText at')

/-- **A word in the anchor defeats recovery.** The chain is resealed with an answer `ok`, at an
instant that `Date.parse` does not read, and still does not verify. -/
theorem reseal_from_tampered_anchor :
    (reseal plainRuntime (tamperedStorage (.str (js "zzzz"))) (.maintainer (js "root"))
        (js "tampered") 1704067200000).1.any (fun answer ↦ answer.isOk) = true ∧
      verify plainRuntime (reseal plainRuntime (tamperedStorage (.str (js "zzzz")))
        (.maintainer (js "root")) (js "tampered") 1704067200000).2 none =
          some (.broken .malformedEntry (some (JsNum.ofInt 1)) 0
            ⟨JsNum.ofInt 0, ledgerGenesisHash, .str (js "zzzz")⟩) := by
  decide +kernel

/-- Behind an anchor without an instant the same chain recovers. -/
theorem recovered_iff_resumable_genesis :
    (∃ report after, reseal plainRuntime (tamperedStorage .undefined) (.maintainer (js "root"))
        (js "tampered") 1704067200000 = (some (.ok report), after) ∧
      Recovered plainRuntime (tamperedStorage .undefined) 0 report after) := by
  have hbroken : verify plainRuntime (tamperedStorage .undefined) none =
      some (.broken .malformedEntry (some (JsNum.ofInt 1)) 0 genesis) := by decide +kernel
  have hiso : Date.toISOString 1704067200000 = some (js "2024-01-01T00:00:00.000Z") := by
    decide +kernel
  have hraw : tamperedStorage .undefined ledgerStorageKey = some (tamperedText .undefined) :=
    setItem_self _ _ _
  refine (recovered_iff_resumable hraw (by decide) (by decide) hbroken 1704067200000).2
    ⟨_, hiso, .inl ?_⟩
  decide +kernel

end Utix.Ledger

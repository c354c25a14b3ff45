import Utix.Ledger.Build

/-!
# What the calls do to the stored chain

One inversion lemma for each call that writes, and the facts about reading back that every argument
over runs needs. The chain is followed through its parsed form: `read_extend` and
`read_ledgerFields` say that what is written is what is read next, so storage texts do not appear
downstream.

`Accepted` is what holds of every stored chain that is read at all: it parsed, so it is a JSON
value, and its anchor passed `isCheckpoint`. Nothing is said about its entries, which anyone may
have written. `headOf` is the head the ledger goes by, the last entry as it stands; `headFrom` is
the head the verifier reports. The two agree once the chain verifies (`headOf_eq_headFrom`).
-/

namespace Utix.Ledger

open Js JsValue List Fields

/-! ### Reading -/

/-- What `read` guarantees about a state it accepts, whoever wrote it. -/
structure StoredLedger.Accepted (state : StoredLedger) : Prop where
  json : (JsValue.obj state.fields).IsJson
  version : state.fields.get (js "v") = .num (JsNum.ofInt ledgerSchemaVersion)
  anchor : isCheckpoint state.anchor = true
  entries : state.fields.get (js "entries") = .arr state.entries

variable {es : List JsValue} {anchor : JsValue}

/-- What a ledger stores is a JSON value. -/
theorem isJson_ledgerFields (ha : anchor.IsJson) (hes : ∀ e ∈ es, e.IsJson) :
    (JsValue.obj (ledgerFields anchor es)).IsJson :=
  ⟨show List.Nodup [js "v", js "anchor", js "entries"] by decide, rfl, ha, isJsonElems_iff.2 hes,
    trivial⟩

theorem isJson_genesisValue : genesisValue.IsJson :=
  ⟨show List.Nodup [js "seq", js "hash"] by decide, rfl, trivial, trivial⟩

theorem isCheckpoint_genesisValue : isCheckpoint genesisValue = true := by decide +kernel

variable {state : StoredLedger} {storage : Storage}

/-- What is read has passed the checks of the reader. -/
theorem accepted_of_read (h : read storage = some state) : state.Accepted := by
  rw [read] at h
  split at h
  · cases h
    exact ⟨isJson_ledgerFields isJson_genesisValue (by simp), rfl, isCheckpoint_genesisValue, rfl⟩
  next raw _ =>
  obtain ⟨v, hv, hacc⟩ := Option.bind_eq_some_iff.1 h
  obtain ⟨rfl, hversion, hanchor, hentries⟩ := acceptStored_eq_some hacc
  exact ⟨isJson_of_parse hv, hversion, hanchor, hentries⟩

namespace StoredLedger.Accepted

theorem isJson_anchor (h : state.Accepted) : state.anchor.IsJson := by
  refine IsJson.get h.json fun hu ↦ ?_
  have hanchor := h.anchor
  rw [StoredLedger.anchor, hu] at hanchor
  exact absurd hanchor (by decide)

theorem isJson_entries (h : state.Accepted) : ∀ e ∈ state.entries, e.IsJson := by
  have harr : (JsValue.arr state.entries).IsJson := by
    rw [← h.entries]
    exact IsJson.get h.json (by rw [h.entries]; simp)
  exact isJson_arr.1 harr

/-- The anchor of a stored chain is a proper checkpoint, whoever wrote it. -/
theorem proper_anchor (h : state.Accepted) : (checkpoint state.anchor).Proper :=
  proper_of_isCheckpoint h.anchor

end StoredLedger.Accepted

/-- **An extended chain reads back as the old one and the new entry.** -/
theorem read_extend (storage : Storage) (h : state.Accepted) {entry : JsValue} (he : entry.IsJson) :
    ∃ next, read (extend storage state entry) = some next ∧ next.anchor = state.anchor ∧
      next.entries = state.entries ++ [entry] := by
  have harr : (JsValue.arr (state.entries ++ [entry])).IsJson := by
    refine isJson_arr.2 fun e hmem ↦ ?_
    rcases mem_append.1 hmem with hmem | hmem
    · exact h.isJson_entries e hmem
    · rw [mem_singleton.1 hmem]
      exact he
  have hjson : (JsValue.obj (state.fields.set (js "entries")
      (.arr (state.entries ++ [entry])))).IsJson := by
    obtain ⟨hnd, hvalues⟩ := isJson_obj.1 h.json
    refine isJson_obj.2 ⟨nodup_set hnd _ _, fun f hf ↦ ?_⟩
    rcases mem_set hf with hf | rfl
    · exact hvalues f hf
    · exact harr
  have hv : (state.fields.set (js "entries") (.arr (state.entries ++ [entry]))).get (js "v") =
      .num (JsNum.ofInt ledgerSchemaVersion) := by
    rw [get_set, if_neg (by decide), h.version]
  have hanchor : (state.fields.set (js "entries") (.arr (state.entries ++ [entry]))).get
      (js "anchor") = state.anchor := by
    rw [get_set, if_neg (by decide), StoredLedger.anchor]
  have hes : (state.fields.set (js "entries") (.arr (state.entries ++ [entry]))).get
      (js "entries") = .arr (state.entries ++ [entry]) := by
    rw [get_set, if_pos rfl]
  refine ⟨⟨_⟩, ?_, hanchor, ?_⟩
  · rw [extend, read_write hjson]
    exact acceptStored_obj hv (by rw [hanchor]; exact h.anchor) hes
  · rw [StoredLedger.entries, hes]

/-- **A chain that is written afresh reads back.** -/
theorem read_ledgerFields (ha : anchor.IsJson) (hcheck : isCheckpoint anchor = true)
    (hes : ∀ e ∈ es, e.IsJson) :
    read (write storage (ledgerFields anchor es)) = some ⟨ledgerFields anchor es⟩ := by
  rw [read_write (isJson_ledgerFields ha hes)]
  exact acceptStored_obj rfl hcheck rfl

@[simp] theorem anchor_ledgerFields (anchor : JsValue) (es : List JsValue) :
    (StoredLedger.mk (ledgerFields anchor es)).anchor = anchor := rfl

@[simp] theorem entries_ledgerFields (anchor : JsValue) (es : List JsValue) :
    (StoredLedger.mk (ledgerFields anchor es)).entries = es := rfl

/-! ### The head of a verified chain -/

variable {rt : Runtime}

theorem headOf_of_last (h : ∀ es e, state.entries = es ++ [e] → ∃ fs, e = .obj fs) :
    headOf state = headFrom (checkpoint state.anchor) state.entries := by
  rw [headOf]
  rcases eq_nil_or_concat state.entries with hnil | ⟨es, e, hes⟩
  · rw [hnil]
    rfl
  rw [concat_eq_append] at hes
  obtain ⟨fs, rfl⟩ := h es e hes
  rw [hes, getLast?_concat, headFrom_concat]
  rfl

/-- The head that is read off the last entry is the one the verifier reports. -/
theorem headOf_eq_headFrom (h : Verifies rt (checkpoint state.anchor) state.entries) :
    headOf state = headFrom (checkpoint state.anchor) state.entries :=
  headOf_of_last fun es e hes ↦ (sealed_of_verifies h e (by simp [hes])).exists_fields

variable {p : Checkpoint}

/-- A chain that verifies is not broken at its head. -/
theorem headBroken_of_verifies (h : Verifies rt p state.entries) :
    headBroken rt state = some false := by
  rw [headBroken]
  split
  · rfl
  next last hlast =>
  have hsealed := sealed_of_verifies h last (mem_of_getLast? hlast)
  obtain ⟨hash, hdigest, hget⟩ := hsealed.digest
  obtain ⟨fs, rfl⟩ := hsealed.exists_fields
  rw [if_neg (by simp [truthy]), if_neg (by rw [hsealed.shape]; simp), hdigest]
  simp [hget]

/-! ### Heads with a text for an instant -/

/-- No instant, or a text. -/
def PlainAt (v : JsValue) : Prop := v = .undefined ∨ ∃ s, v = .str s

section

variable (hp : PlainAt p.at')
include hp

/-- The head of a verified chain has a text for its instant. -/
theorem plainAt_headFrom (h : Verifies rt p es) : PlainAt (headFrom p es).at' := by
  rcases eq_nil_or_concat es with rfl | ⟨es, e, rfl⟩
  · exact hp
  rw [concat_eq_append] at *
  obtain ⟨s, hs, -⟩ := (sealed_of_verifies h e (by simp)).exists_at
  rw [headFrom_concat]
  exact .inr ⟨s, hs⟩

/-- Against a plain checkpoint a text can always be compared. -/
theorem exists_isEarlier (s : JsString) : ∃ b, isEarlier (.str s) p = some b := by
  rw [isEarlier]
  rcases hp with h | ⟨t, h⟩
  · exact ⟨false, by rw [h]; rfl⟩
  rw [h]
  split
  · exact ⟨_, less_str s t⟩
  · exact ⟨false, rfl⟩

theorem exists_text_of_isEarlier {v : JsValue} (h : isEarlier v p = some true) :
    p.at' = .str p.at'.asStr := by
  rcases hp with hp | ⟨s, hp⟩
  · rw [isEarlier, hp] at h
    exact absurd h (by simp [truthy])
  · rw [hp]
    rfl

theorem wellFormed_clamped (earlier : Bool) (instant : JsString) :
    (if earlier then p.at' else .str instant).WellFormed := by
  split
  · rcases hp with hp | ⟨s, hp⟩ <;> rw [hp] <;> trivial
  · trivial

end

/-! ### Appending -/

/-- An input that `append` accepts behind the head `p`: it is valid, an explicit instant is not
earlier than the head, and otherwise the clock shows an instant a `Date` can hold. -/
def Accepts (rt : Runtime) (p : Checkpoint) (input : LedgerInput) (now : ℤ) : Prop :=
  input.isValid rt = true ∧
    match input.at' with
    | some s => isEarlier (.str s) p = some false
    | none => (Date.toISOString now).isSome = true

variable {input : LedgerInput}

/-- A valid input has a known action, and the kind that belongs to it. -/
theorem isValid_action (h : input.isValid rt = true) :
    input.action ∈ allActions ∧ input.kind = kindOf input.action := by
  simp only [LedgerInput.isValid, Bool.and_eq_true, beq_iff_eq, contains_iff_mem] at h
  tauto

/-- **Behind a verified chain whose head has a text for an instant, an accepted input is
appended.** -/
theorem append_of_accepts (hread : read storage = some state)
    (hver : Verifies rt (checkpoint state.anchor) state.entries)
    (hplain : PlainAt (headOf state).at') {now : ℤ} (hacc : Accepts rt (headOf state) input now) :
    ∃ entry, (append rt storage input now).1 = some (.ok entry) := by
  obtain ⟨hvalid, hat⟩ := hacc
  obtain ⟨instant, hinstant⟩ : ∃ instant, (input.at' <|> Date.toISOString now) = some instant := by
    cases hin : input.at' with
    | some s => exact ⟨s, rfl⟩
    | none =>
      rw [hin] at hat
      obtain ⟨iso, hiso⟩ := Option.isSome_iff_exists.1 hat
      exact ⟨iso, hiso⟩
  obtain ⟨earlier, hearlier⟩ := exists_isEarlier hplain instant
  have hclamp : (earlier && input.at'.isSome) = false := by
    cases hin : input.at' with
    | some s =>
      rw [hin] at hat hinstant
      obtain rfl : s = instant := by simpa using hinstant
      have hnot : isEarlier (.str s) (headOf state) = some false := hat
      rw [hearlier] at hnot
      simpa using hnot
    | none => simp
  obtain ⟨entry, hbuild, -⟩ :=
    @exists_build rt (headOf state) input _ (wellFormed_clamped hplain earlier instant)
  refine ⟨entry, ?_⟩
  rw [append, if_neg (by simp [hvalid]), hread]
  simp only [headBroken_of_verifies hver, hinstant, hearlier, hclamp,
    Bool.false_eq_true, if_false, hbuild]

/-- **What `append` does**: it answers with an entry, which it built behind the head and stored, or
it leaves the storage alone. -/
theorem append_cases (rt : Runtime) (storage : Storage) (input : LedgerInput) (now : ℤ) :
    ((append rt storage input now).2 = storage ∧
        ∀ entry, (append rt storage input now).1 ≠ some (.ok entry)) ∨
      ∃ state instant earlier entry, input.isValid rt = true ∧ read storage = some state ∧
        (input.at' <|> Date.toISOString now) = some instant ∧
        isEarlier (.str instant) (headOf state) = some earlier ∧
        (earlier = true → input.at' = none) ∧
        build rt (headOf state) input (if earlier then (headOf state).at' else .str instant) =
          some entry ∧
        append rt storage input now = (some (.ok entry), extend storage state entry) := by
  rw [append]
  split
  · exact .inl ⟨rfl, by simp⟩
  next hvalid =>
  split
  · exact .inl ⟨rfl, by simp⟩
  next state hread =>
  split
  · exact .inl ⟨rfl, by simp⟩
  · exact .inl ⟨rfl, by simp⟩
  simp only
  split
  · exact .inl ⟨rfl, by simp⟩
  next instant hinstant =>
  split
  · exact .inl ⟨rfl, by simp⟩
  next earlier hearlier =>
  split
  · exact .inl ⟨rfl, by simp⟩
  next hclamp =>
  split
  · exact .inl ⟨rfl, by simp⟩
  next entry hbuild =>
  refine .inr ⟨state, instant, earlier, entry, by simpa using hvalid, hread,
    hinstant, hearlier, fun he ↦ ?_, hbuild, rfl⟩
  simpa [he] using hclamp

/-! ### Pruning -/

/-- The point of an object, as a value. -/
def pointOf (fs : Fields) : JsValue :=
  .obj [(js "seq", fs.get (js "seq")), (js "hash", fs.get (js "hash")), (js "at", fs.get (js "at"))]

theorem pointValue_obj (fs : Fields) : pointValue (.obj fs) = some (pointOf fs) := by
  simp [pointValue, pointOf, JsValue.get]

/-- The checkpoint that pruning stores is a JSON value. -/
theorem isJson_pointOf {fs : Fields} (hjson : (JsValue.obj fs).IsJson)
    (hseq : fs.get (js "seq") ≠ .undefined) (hhash : fs.get (js "hash") ≠ .undefined)
    (hat : fs.get (js "at") ≠ .undefined) : (pointOf fs).IsJson :=
  ⟨show List.Nodup [js "seq", js "hash", js "at"] by decide, IsJson.get hjson hseq,
    IsJson.get hjson hhash, IsJson.get hjson hat, trivial⟩

theorem one_le_ledgerLimit (limit : Option ℤ) : 1 ≤ ledgerLimit limit := by
  rw [ledgerLimit]
  omega

/-- **What `prune` does**: nothing, or it drops a non-empty prefix, keeps at least one entry, and
makes the last dropped entry the anchor. -/
theorem prune_cases (limit : Option ℤ) (storage : Storage) :
    (prune limit storage).2 = storage ∨
      ∃ state before e after anchor, read storage = some state ∧
        state.entries = before ++ e :: after ∧ after ≠ [] ∧ pointValue e = some anchor ∧
        (prune limit storage).2 = write storage (ledgerFields anchor after) := by
  rw [prune]
  split
  · exact .inl rfl
  next state hread =>
  split
  · exact .inl rfl
  next hlong =>
  have hlimit := one_le_ledgerLimit limit
  obtain ⟨d, hd⟩ : ∃ d, state.entries.length - ledgerLimit limit = d + 1 :=
    ⟨state.entries.length - ledgerLimit limit - 1, by omega⟩
  have hlt : d < state.entries.length := by omega
  simp only [hd, Nat.add_sub_cancel]
  split
  · exact .inl rfl
  next anchor hanchor =>
  refine .inr ⟨state, state.entries.take d, state.entries[d], state.entries.drop (d + 1),
    anchor, hread, ?_, ?_, ?_, rfl⟩
  · rw [← drop_eq_getElem_cons hlt, take_append_drop]
  · exact ne_nil_of_length_pos (by rw [length_drop]; omega)
  · rw [← hanchor, getD, getElem?_eq_getElem hlt, Option.getD_some]

end Utix.Ledger

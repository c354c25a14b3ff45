import Utix.Ledger.Store

/-!
# What `build` stores

`build` assembles a body, redacts it, takes it through JSON and seals it with its digest. This
module says what comes out, field by field (`IsBuilt`), and from that when the new entry passes the
round of `verifyLedgerChain` that will check it (`checkEntry_built_iff`).

The version, the kind, the action, the outcome and the predecessor's digest are made of units that
no scrubbing rule touches and come out as they went in. **The instant and the two labels of the
subject are stored in their scrubbed form**, and the verifier checks that form.
-/

namespace Utix.Ledger

open Js JsValue Audit Telemetry List Fields JsNum

/-! ### The body survives JSON -/

/-- The keys of a body. -/
def entryKeys : List JsString :=
  [js "v", js "seq", js "at", js "kind", js "action", js "actorId", js "subject", js "outcome",
    js "data", js "ref", js "refDigest", js "prevHash"]

/-- No key of an entry is sensitive. -/
theorem entryKeys_plain :
    ∀ k ∈ entryKeys, k ≠ js "__proto__" ∧ isSensitiveKey k = false ∧ k ≠ js "hash" := by
  decide +kernel

theorem keys_bodyFields (p : Checkpoint) (input : LedgerInput) (instant : JsValue) :
    (bodyFields p input instant).keys = entryKeys := rfl

variable {rt : Runtime} {p : Checkpoint} {input : LedgerInput} {instant : JsValue}

theorem wellFormed_bodyFields (h : instant.WellFormed) :
    (JsValue.obj (bodyFields p input instant)).WellFormed := by
  refine wellFormed_obj.2 ⟨?_, ?_⟩
  · rw [keys_bodyFields]
    decide
  have hopt : ∀ o : Option JsString, (optional o).WellFormed := fun o ↦ by cases o <;> trivial
  have hsubject : (JsValue.obj [(js "kind", .str input.subject.kind),
      (js "id", .str input.subject.id)]).WellFormed :=
    ⟨show List.Nodup [js "kind", js "id"] by decide, trivial, trivial, trivial⟩
  intro f hf
  simp only [bodyFields, mem_cons, not_mem_nil, or_false] at hf
  rcases hf with rfl | rfl | rfl | rfl | rfl | rfl | rfl | rfl | rfl | rfl | rfl | rfl
  case inr.inr.inr.inr.inr.inr.inr.inr.inl =>
    dsimp only
    split
    · next data hdata => exact wellFormed_auditContext hdata
    · trivial
  all_goals first | exact h | exact hsubject | exact hopt _ | trivial

/-- The stored body: redacted, and read back from JSON. -/
def storedBody (p : Checkpoint) (input : LedgerInput) (instant : JsValue) : Fields :=
  jsonOfFields (redactFields false 1 (bodyFields p input instant))

/-- The redacted body is read back from its text. -/
theorem parse_body (h : instant.WellFormed) :
    parse (stringify (redact false 0 (.obj (bodyFields p input instant)))) =
      some (.obj (storedBody p input instant)) := by
  rw [parse_stringify_jsonOf (wellFormed_redact (wellFormed_bodyFields h)), redact,
    if_neg (by decide), jsonOf, storedBody]

/-- What a field holds after redaction and JSON. -/
def storedValue (v : JsValue) : JsValue :=
  if (redact false 1 v).isOmitted then .undefined else jsonOf (redact false 1 v)

variable {key : JsString}

/-- Field by field, the stored body is the stored form of the assembled one. -/
theorem get_storedBody (hkey : key ∈ entryKeys) :
    (storedBody p input instant).get key = storedValue ((bodyFields p input instant).get key) := by
  obtain ⟨hproto, hplain, -⟩ := entryKeys_plain key hkey
  have hnd : (redactFields false 1 (bodyFields p input instant)).keys.Nodup := by
    refine List.Nodup.sublist (keys_redactFields_sublist _ _ _) ?_
    rw [keys_bodyFields]
    decide
  rw [storedBody, get_jsonOfFields hnd, get_redactFields hproto hplain, storedValue]

variable {fs : Fields}

theorem without_eq_self (h : key ∉ fs.keys) : fs.without key = fs :=
  filter_eq_self.2 fun f hf ↦
    decide_eq_true fun heq : f.1 = key ↦ h (heq ▸ mem_map_of_mem (f := Prod.fst) hf)

/-- The body of a sealed entry is what was sealed. -/
theorem bodyOf_set_hash (h : js "hash" ∉ fs.keys) (v : JsValue) :
    bodyOf (.obj (fs.set (js "hash") v)) = .obj fs := by
  rw [bodyOf, set_of_not_mem h, without, filter_append]
  rw [← without, without_eq_self h]
  simp

/-! ### The entry -/

/-- What `build` makes of a checkpoint, an input and an instant. -/
structure IsBuilt (rt : Runtime) (p : Checkpoint) (input : LedgerInput) (instant entry : JsValue) :
    Prop where
  json : entry.IsJson
  body : ∀ key ∈ entryKeys, entry.get key = storedValue ((bodyFields p input instant).get key)
  digest : ∃ hash, hashLedgerEntry rt entry = some hash ∧ entry.get (js "hash") = .str hash

/-- **`build` never throws on a well-formed instant, and this is what it returns.** -/
theorem exists_build (h : instant.WellFormed) :
    ∃ entry, build rt p input instant = some entry ∧ IsBuilt rt p input instant entry := by
  have hjson : (JsValue.obj (storedBody p input instant)).IsJson :=
    isJson_of_parse (parse_body h)
  have hkeys : (storedBody p input instant).keys.Sublist entryKeys := by
    rw [← keys_bodyFields p input instant]
    exact (keys_jsonOfFields_sublist _).trans (keys_redactFields_sublist _ _ _)
  have hnew : js "hash" ∉ (storedBody p input instant).keys := fun h ↦
    (entryKeys_plain _ (hkeys.subset h)).2.2 rfl
  obtain ⟨text, htext⟩ := exists_canonicalJson hjson
  have hstored : hashLedgerEntry rt (.obj (storedBody p input instant)) =
      some (rt.sha256Hex text).1 := by
    rw [hashLedgerEntry, bodyOf, without_eq_self hnew, htext]
    rfl
  refine ⟨.obj ((storedBody p input instant).set (js "hash") (.str (rt.sha256Hex text).1)), ?_, ?_⟩
  · rw [build, parse_body h]
    simp only [Option.bind_eq_bind, Option.bind_some, hstored, fieldsOf]
  refine ⟨?_, fun key hkey ↦ ?_, (rt.sha256Hex text).1, ?_, ?_⟩
  · obtain ⟨hnd, hvalues⟩ := isJson_obj.1 hjson
    refine isJson_obj.2 ⟨nodup_set hnd _ _, fun f hf ↦ ?_⟩
    rcases mem_set hf with hf | rfl
    · exact hvalues f hf
    · trivial
  · have hne : js "hash" ≠ key := (entryKeys_plain key hkey).2.2.symm
    rw [JsValue.get, get_set, if_neg hne, get_storedBody hkey]
  · rw [hashLedgerEntry, bodyOf_set_hash hnew, htext]
    rfl
  · rw [JsValue.get, get_set, if_pos rfl]

/-- **What `build` stores**, as far as it is read again. -/
theorem isBuilt_of_build {entry : JsValue} (hwf : instant.WellFormed)
    (h : build rt p input instant = some entry) : IsBuilt rt p input instant entry := by
  obtain ⟨entry', hbuild, hbuilt⟩ := @exists_build rt p input instant hwf
  obtain rfl : entry = entry' := Option.mem_unique h hbuild
  exact hbuilt

/-! ### Its fields -/

/-- A text is stored scrubbed. -/
theorem storedValue_str (s : JsString) : storedValue (.str s) = .str (scrubString s) := by
  simp [storedValue, redact, isOmitted, jsonOf]

theorem storedValue_ofInt (k : ℤ) :
    storedValue (.num (ofInt k)) = .num (ofInt k) := by
  simp [storedValue, redact, isOmitted, jsonOf, ofInt, isFinite]

variable {s : JsString}

/-- So is a text inside an object, under a plain key. -/
theorem get_storedValue_obj (hnd : fs.keys.Nodup) (hproto : key ≠ js "__proto__")
    (hplain : isSensitiveKey key = false) (hs : fs.get key = .str s) :
    (storedValue (.obj fs)).get key = .str (scrubString s) := by
  have hred : redact false 1 (.obj fs) = .obj (redactFields false 2 fs) := by
    rw [redact, if_neg (by decide)]
  have hkeys : (redactFields false 2 fs).keys.Nodup :=
    hnd.sublist (keys_redactFields_sublist _ _ _)
  rw [storedValue, hred, jsonOf]
  simp only [isOmitted, Bool.false_eq_true, if_false, JsValue.get]
  rw [get_jsonOfFields hkeys, get_redactFields hproto hplain, hs, redact]
  simp [isOmitted, jsonOf]

/-- No action is touched by redaction. -/
theorem scrubString_action {a : JsString} (h : a ∈ allActions) : scrubString a = a := by
  have hplain : ∀ a ∈ allActions, a.all isPlainUnit = true ∧ a.length ≤ 128 := by decide +kernel
  have hlimit : 128 ≤ maxScannableStringLength := by decide
  exact scrubString_eq_self (all_eq_true.1 (hplain a h).1) ((hplain a h).2.trans hlimit)

/-- No digest is touched by redaction. -/
theorem scrubString_hash (h : hashPattern s = true) : scrubString s = s := by
  simp only [hashPattern, Bool.and_eq_true, beq_iff_eq, all_eq_true] at h
  refine scrubString_eq_self (fun c hc ↦ isPlainUnit_of_isLowerHex (h.2 c hc)) ?_
  rw [h.1]
  decide

theorem scrubString_kind (k : LedgerKind) : scrubString k.text = k.text := by
  cases k <;> decide +kernel

theorem scrubString_outcome (o : AuditOutcome) : scrubString o.text = o.text := by
  cases o <;> decide +kernel

namespace IsBuilt

variable {entry : JsValue} (h : IsBuilt rt p input instant entry)
include h

/-- A string field is stored scrubbed. -/
theorem get_str (hkey : key ∈ entryKeys)
    (hs : (bodyFields p input instant).get key = .str s) :
    entry.get key = .str (scrubString s) := by
  rw [h.body key hkey, hs, storedValue_str]

theorem get_v :
    entry.get (js "v") = .num (ofInt ledgerSchemaVersion) := by
  rw [h.body _ (by decide)]
  exact storedValue_ofInt _

theorem isObject : entry.isObject = true := by
  have hv := h.get_v
  cases entry with
  | obj fs => rfl
  | _ => exact absurd hv (by simp [JsValue.get])

/-- The entry has the next sequence number. -/
theorem get_seq {k : ℤ} (hk : p.seq = ofInt k) :
    entry.get (js "seq") = .num (ofInt (k + 1)) := by
  have hbody : (bodyFields p input instant).get (js "seq") = .num (p.seq.add (ofInt 1)) := rfl
  rw [h.body _ (by decide), hbody, hk, ofInt_add, storedValue_ofInt]

/-- The instant is stored in its redacted form. -/
theorem get_at : entry.get (js "at") = storedValue instant := h.body _ (by decide)

theorem get_kind : entry.get (js "kind") = .str input.kind.text := by
  rw [h.get_str (by decide) rfl, scrubString_kind]

theorem get_action (ha : input.action ∈ allActions) :
    entry.get (js "action") = .str input.action := by
  rw [h.get_str (by decide) rfl, scrubString_action ha]

theorem get_outcome :
    entry.get (js "outcome") = .str (input.outcome.getD .allowed).text := by
  rw [h.get_str (by decide) rfl, scrubString_outcome]

/-- The entry names the digest of its predecessor. -/
theorem get_prevHash (hp : hashPattern p.hash = true) :
    entry.get (js "prevHash") = .str p.hash := by
  rw [h.get_str (by decide) rfl, scrubString_hash hp]

/-- A label of the subject is stored scrubbed. -/
theorem get_subject (hkey : key ∈ [js "kind", js "id"])
    (hs : get [(js "kind", .str input.subject.kind), (js "id", .str input.subject.id)] key =
      .str s) : (entry.get (js "subject")).get key = .str (scrubString s) := by
  have hbody : (bodyFields p input instant).get (js "subject") =
      .obj [(js "kind", .str input.subject.kind), (js "id", .str input.subject.id)] := rfl
  have hplain : ∀ k ∈ [js "kind", js "id"], k ≠ js "__proto__" ∧ isSensitiveKey k = false := by
    decide +kernel
  have hnd : (Fields.keys [(js "kind", .str input.subject.kind),
      (js "id", .str input.subject.id)]).Nodup := show List.Nodup [js "kind", js "id"] by decide
  rw [h.body _ (by decide), hbody]
  exact get_storedValue_obj hnd (hplain key hkey).1 (hplain key hkey).2 hs

end IsBuilt

/-! ### Its round of verification -/

/-- **When a new entry verifies.** Behind a checkpoint with an integer sequence number and a proper
digest, an entry that `build` made passes its round exactly when its stored instant and the stored
labels of its subject are still an instant and labels, and the stored instant is not earlier. -/
theorem checkEntry_built_iff {entry : JsValue} (h : IsBuilt rt p input instant entry) {k : ℤ}
    (hseq : p.seq = ofInt k) (hhash : hashPattern p.hash = true)
    (haction : input.action ∈ allActions) (hkind : input.kind = kindOf input.action) :
    checkEntry rt p entry = some none ↔
      isInstant rt (storedValue instant) = true ∧
        isLabel (.str (scrubString input.subject.kind)) = true ∧
          isLabel (.str (scrubString input.subject.id)) = true ∧
            (p.at'.truthy = true → less (storedValue instant) p.at' = some false) := by
  obtain ⟨hash, hdigest, hget⟩ := h.digest
  have hact : isAction (entry.get (js "kind")) (entry.get (js "action")) = true := by
    rw [h.get_kind, h.get_action haction, isAction, ← hkind]
    cases input.kind <;> simp [haction, LedgerKind.text]
  have hout : (entry.get (js "outcome") == .str (js "allowed") ||
      entry.get (js "outcome") == .str (js "denied")) = true := by
    rw [h.get_outcome]
    cases input.outcome.getD .allowed <;> simp [AuditOutcome.text]
  have hown : hashPattern hash = true := by
    obtain ⟨text, -, rfl⟩ := Option.map_eq_some_iff.1 hdigest
    exact (rt.sha256Hex text).2
  have hshape : isEntryShape rt entry = true ↔ isInstant rt (storedValue instant) = true ∧
      isLabel (.str (scrubString input.subject.kind)) = true ∧
        isLabel (.str (scrubString input.subject.id)) = true := by
    simp only [isEntryShape, h.isObject, h.get_v, h.get_seq hseq, h.get_at, hact,
      h.get_str (show js "actorId" ∈ entryKeys by decide) rfl,
      h.get_subject (show js "kind" ∈ [js "kind", js "id"] by decide) rfl,
      h.get_subject (show js "id" ∈ [js "kind", js "id"] by decide) rfl, hout,
      h.get_prevHash hhash, hget, isHash, hhash, hown, isInteger, isInteger_ofInt, isString,
      BEq.rfl, Bool.true_and, Bool.and_true, Bool.and_eq_true]
    tauto
  rw [checkEntry_eq_pass_iff, hshape, h.get_seq hseq, h.get_prevHash hhash, h.get_at, hseq,
    ofInt_add]
  constructor
  · rintro ⟨⟨hinstant, hkindLabel, hidLabel⟩, -, -, -, horder⟩
    exact ⟨hinstant, hkindLabel, hidLabel, horder⟩
  · rintro ⟨hinstant, hkindLabel, hidLabel, horder⟩
    exact ⟨⟨hinstant, hkindLabel, hidLabel⟩, rfl, rfl, ⟨hash, hdigest, hget⟩, horder⟩

/-! ### Stored instants -/

/-- A text that, once scrubbed, is still an instant and not earlier than the checkpoint. -/
def InstantStays (rt : Runtime) (p : Checkpoint) (s : JsString) : Prop :=
  (rt.dateParse (scrubString s)).isSome = true ∧ isEarlier (.str (scrubString s)) p = some false

/-- A checkpoint without an instant is earlier than everything. -/
theorem isEarlier_eq_false_iff {v : JsValue} :
    isEarlier v p = some false ↔ (p.at'.truthy = true → less v p.at' = some false) := by
  rw [isEarlier]
  split
  · next h => simp [h]
  · next h => simp [h]

/-- The text of a clock reading is not touched by redaction. -/
theorem scrubString_toISOString {t : ℤ} {iso : JsString} (h : Date.toISOString t = some iso) :
    scrubString iso = iso := by
  refine scrubString_eq_self
    (fun c hc ↦ isPlainUnit_of_isIsoUnit (Date.isIsoUnit_of_toISOString h c hc)) ?_
  have hlen := Date.length_of_toISOString h
  have hlimit : 27 ≤ maxScannableStringLength := by decide
  omega

/-- The reading of a clock stays what it is. -/
theorem instantStays_of_toISOString {t : ℤ} {iso : JsString} (h : Date.toISOString t = some iso)
    (hearlier : isEarlier (.str iso) p = some false) : InstantStays rt p iso := by
  rw [InstantStays, scrubString_toISOString h, Runtime.dateParse, Date.parse_toISOString h]
  exact ⟨rfl, hearlier⟩

/-- A text passes as a stored instant exactly when it stays one. -/
theorem instantStays_iff :
    InstantStays rt p s ↔ isInstant rt (storedValue (.str s)) = true ∧
      (p.at'.truthy = true → less (storedValue (.str s)) p.at' = some false) := by
  rw [InstantStays, storedValue_str, isInstant, isEarlier_eq_false_iff]

end Utix.Ledger

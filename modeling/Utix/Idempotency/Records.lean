import Utix.Idempotency.Store

/-!
# What the store reads back

A record that is written is read back as its JSON reading with a redacted response. What the store
decides on — the key, the operation, the digest, the status, the two instants — are texts, and those
come back as they were: `read_write` says so for every field but the response.

`Readable` is what a record needs for that: the shape `isRecord` checks, distinct keys, and a finite
count of replays. Records that were read are readable, and so are the rewrites of the calls.

The proofs go through the list `envelope` of these fields, not through the fields one by one: a
lemma about a field of a stored record is an instance of `get_stored_envelope`.
-/

namespace Utix.Idempotency

open Js JsValue Telemetry Lib Option List IdempotencyRecord Fields

/-! ### Keys -/

theorem storageKey_inj {k l : JsString} : storageKey k = storageKey l ↔ k = l :=
  append_right_inj _

@[simp] theorem read_remove (s : Store) (k l : JsString) :
    read (remove s k) l = if k = l then none else read s l := by
  simp only [read, remove, Dict.get_erase, storageKey_inj]
  split <;> rfl

/-! ### Readable records -/

/-- A field as a round trip through JSON leaves it. -/
def throughJson (v : JsValue) : JsValue := if v.isOmitted then .undefined else jsonOf v

variable {v : JsValue}

/-- A JSON value is read back as it is. -/
theorem throughJson_eq_self (h : v.IsJson) : throughJson v = v := by
  rw [throughJson, h.isOmitted, if_neg Bool.false_ne_true, jsonOf_eq_self h]

@[simp] theorem throughJson_str (s : JsString) : throughJson (.str s) = .str s := rfl

/-- A record that can be written and read back. -/
structure Readable (record : IdempotencyRecord) : Prop where
  shape : hasRecordShape record.fields = true
  wellFormed : (JsValue.obj record.fields).WellFormed
  finite : record.replays.isFinite = true

variable {fs : Fields}

/-- The fields that `isRecord` wants to be texts, beside the status. -/
def textNames : List JsString :=
  [js "key", js "operation", js "requestHash", js "createdAt", js "expiresAt", js "correlationId"]

/-- The fields whose types `isRecord` checks. -/
theorem hasRecordShape_iff :
    hasRecordShape fs = true ↔
      (∀ name ∈ textNames, (fs.get name).isString = true) ∧
      (∃ status : IdempotencyStatus, fs.get (js "status") = .str status.text) ∧
      isNumber (fs.get (js "replays")) = true := by
  have hstatus : ([IdempotencyStatus.inFlight, .completed, .failed].any
      fun status ↦ decide (fs.get (js "status") = .str status.text)) = true ↔
        ∃ status : IdempotencyStatus, fs.get (js "status") = .str status.text := by
    rw [List.any_eq_true]
    constructor
    · rintro ⟨status, -, h⟩
      exact ⟨status, of_decide_eq_true h⟩
    · rintro ⟨status, h⟩
      exact ⟨status, by cases status <;> simp, decide_eq_true h⟩
  simp only [hasRecordShape, textNames, Bool.and_eq_true, hstatus, forall_mem_cons,
    not_mem_nil, false_imp_iff, forall_const]
  tauto

theorem isNumber_iff : isNumber v = true ↔ ∃ n, v = .num n := by
  cases v <;> simp [isNumber]

variable {record : IdempotencyRecord}

/-- A record is an object of the shape that is checked. -/
theorem asRecord_eq_some (h : asRecord v = some record) :
    v = .obj record.fields ∧ hasRecordShape record.fields = true := by
  cases v with
  | obj fs =>
    rw [asRecord] at h
    split at h
    · next hshape =>
      cases h
      exact ⟨rfl, hshape⟩
    · cases h
  | _ => exact absurd h (by simp [asRecord])

variable {s : Store}

/-- What was read is a JSON value. -/
theorem isJson_of_read {key : JsString} (h : read s key = some record) :
    hasRecordShape record.fields = true ∧ (JsValue.obj record.fields).IsJson := by
  obtain ⟨raw, -, hraw⟩ := bind_eq_some_iff.1 h
  rw [parseRecord] at hraw
  split at hraw
  · cases hraw
  obtain ⟨v, hv, hrecord⟩ := bind_eq_some_iff.1 hraw
  obtain ⟨rfl, hshape⟩ := asRecord_eq_some hrecord
  exact ⟨hshape, isJson_of_parse hv⟩

/-- What was read can be written and read again. -/
theorem readable_of_read {key : JsString} (h : read s key = some record) : Readable record := by
  obtain ⟨hshape, hjson⟩ := isJson_of_read h
  refine ⟨hshape, wellFormed_of_isJson hjson, ?_⟩
  obtain ⟨n, hn⟩ := isNumber_iff.1 (hasRecordShape_iff.1 hshape).2.2
  have hfin : (JsValue.num n).IsJson := hn ▸ IsJson.get hjson (by rw [hn]; simp)
  rw [replays, hn]
  exact hfin

/-! ### Rewrites -/

/-- The names `isRecord` looks at. -/
def envelope : List JsString :=
  [js "key", js "operation", js "requestHash", js "status", js "createdAt", js "expiresAt",
    js "replays", js "correlationId"]

/-- The shape depends on the fields of the envelope only. -/
theorem hasRecordShape_congr {gs : Fields} (h : ∀ name ∈ envelope, fs.get name = gs.get name) :
    hasRecordShape fs = hasRecordShape gs := by
  simp only [envelope, forall_mem_cons, not_mem_nil, false_imp_iff, forall_const] at h
  obtain ⟨h₁, h₂, h₃, h₄, h₅, h₆, h₇, h₈, -⟩ := h
  simp only [hasRecordShape, h₁, h₂, h₃, h₄, h₅, h₆, h₇, h₈]

theorem wellFormed_set (h : (JsValue.obj fs).WellFormed) (name : JsString) (hv : v.WellFormed) :
    (JsValue.obj (fs.set name v)).WellFormed := by
  obtain ⟨hnd, hfs⟩ := wellFormed_obj.1 h
  refine wellFormed_obj.2 ⟨nodup_set hnd _ _, fun f hf ↦ ?_⟩
  rcases mem_set hf with hf | rfl
  · exact hfs f hf
  · exact hv

variable {name : JsString}

theorem get_assign_self (record : IdempotencyRecord) (name : JsString) (v : JsValue) :
    (record.assign name v).fields.get name = v :=
  (get_set ..).trans (if_pos rfl)

theorem get_assign_of_ne {other : JsString} (h : name ≠ other) (record : IdempotencyRecord)
    (v : JsValue) : (record.assign name v).fields.get other = record.fields.get other :=
  (get_set ..).trans (if_neg h)

/-- Assigning a field keeps a record readable, if it is none of the texts and has its own type. -/
theorem Readable.assign (h : Readable record) (hname : name ∉ textNames)
    (hstatus : name = js "status" → ∃ status : IdempotencyStatus, v = .str status.text)
    (hcount : name = js "replays" → ∃ n : JsNum, v = .num n ∧ n.isFinite = true)
    (hv : v.WellFormed) : Readable (record.assign name v) := by
  obtain ⟨hstrings, hstate, hnumber⟩ := hasRecordShape_iff.1 h.shape
  refine ⟨hasRecordShape_iff.2 ⟨fun other hother ↦ ?_, ?_, ?_⟩,
    wellFormed_set h.wellFormed _ hv, ?_⟩
  · rw [get_assign_of_ne (by rintro rfl; exact hname hother)]
    exact hstrings other hother
  · by_cases heq : name = js "status"
    · rw [heq, get_assign_self]
      exact hstatus heq
    · rw [get_assign_of_ne heq]
      exact hstate
  · by_cases heq : name = js "replays"
    · obtain ⟨n, rfl, -⟩ := hcount heq
      rw [heq, get_assign_self]
      rfl
    · rw [get_assign_of_ne heq]
      exact hnumber
  · rw [replays]
    by_cases heq : name = js "replays"
    · obtain ⟨n, rfl, hn⟩ := hcount heq
      rw [heq, get_assign_self]
      exact hn
    · rw [get_assign_of_ne heq]
      exact h.finite

/-- Counting a replay keeps a record readable. -/
theorem Readable.assign_replays (h : Readable record) {n : JsNum} (hn : n.isFinite = true) :
    Readable (record.assign (js "replays") (.num n)) :=
  h.assign (by decide) (absurd · (by decide)) (fun _ ↦ ⟨n, rfl, hn⟩) trivial

/-- The status of a claim, and what goes with it. -/
theorem Readable.assign_outcome (h : Readable record) (status : IdempotencyStatus)
    (hname : name ∉ js "status" :: js "replays" :: textNames) (hv : v.WellFormed) :
    Readable ((record.assign (js "status") (.str status.text)).assign name v) := by
  simp only [mem_cons, not_or] at hname
  exact (h.assign (by decide) (fun _ ↦ ⟨status, rfl⟩) (absurd · (by decide)) trivial).assign
    hname.2.2 (absurd · hname.1) (absurd · hname.2.1) hv

theorem isFinite_add {a b : JsNum} (ha : a.isFinite = true) (hb : b.isFinite = true) :
    (a.add b).isFinite = true := by
  cases a <;> cases b <;> simp_all [JsNum.add, JsNum.isFinite]

/-- A replay keeps a record readable. -/
theorem Readable.replayed (h : Readable record) :
    Readable (record.assign (js "replays") (.num (record.replays.add (JsNum.ofInt 1)))) :=
  h.assign_replays (isFinite_add h.finite rfl)

/-- Completing a record keeps it readable. -/
theorem Readable.completedWith (h : Readable record) {response : JsValue}
    (hresponse : response.WellFormed) : Readable (completedWith response record) :=
  h.assign_outcome .completed (by decide) hresponse

/-- Failing a record keeps it readable. -/
theorem Readable.failedWith (h : Readable record) (errorCode : JsString) :
    Readable (failedWith errorCode record) :=
  h.assign_outcome .failed (by decide) trivial

variable (record)

theorem key_completedWith (v : JsValue) : (completedWith v record).key = record.key := by
  rw [key, completedWith, get_assign_of_ne (by decide), get_assign_of_ne (by decide), key]

theorem key_failedWith (code : JsString) : (failedWith code record).key = record.key := by
  rw [key, failedWith, get_assign_of_ne (by decide), get_assign_of_ne (by decide), key]

theorem expiresAt_completedWith (v : JsValue) :
    (completedWith v record).expiresAt = record.expiresAt := by
  rw [expiresAt, completedWith, get_assign_of_ne (by decide),
    get_assign_of_ne (by decide), expiresAt]

theorem expiresAt_failedWith (code : JsString) :
    (failedWith code record).expiresAt = record.expiresAt := by
  rw [expiresAt, failedWith, get_assign_of_ne (by decide), get_assign_of_ne (by decide), expiresAt]

variable {record}

/-- A new claim is readable. -/
theorem readable_claimRecord (key : JsString) (request : BeginRequest)
    (createdAt expiresAt correlationId : JsString) :
    Readable (claimRecord key request createdAt expiresAt correlationId) := by
  refine ⟨?_, ?_, rfl⟩
  · refine hasRecordShape_iff.2 ⟨?_, ⟨.inFlight, rfl⟩, rfl⟩
    simp only [textNames, forall_mem_cons, not_mem_nil, false_imp_iff, forall_const]
    exact ⟨rfl, rfl, rfl, rfl, rfl, rfl, trivial⟩
  · refine wellFormed_obj.2 ⟨by simp only [claimRecord, Fields.keys, map]; decide, ?_⟩
    simp only [claimRecord, forall_mem_cons, not_mem_nil, false_imp_iff]
    exact ⟨trivial, trivial, trivial, trivial, trivial, trivial, trivial, trivial, fun _ ↦ trivial⟩

/-! ### Reading after writing -/

theorem wellFormed_field (h : (JsValue.obj fs).WellFormed) (name : JsString) :
    (fs.get name).WellFormed := by
  by_cases hu : fs.get name = .undefined
  · rw [hu]
    trivial
  · exact (wellFormed_obj.1 h).2 _ (get_mem hu)

/-- The response as it is written. -/
def scrubbed (v : JsValue) : JsValue := if v.isObject then redact false 0 v else v

theorem wellFormed_persistable (h : Readable record) :
    (JsValue.obj (persistable record)).WellFormed := by
  refine wellFormed_set h.wellFormed _ ?_
  have hresponse := wellFormed_field h.wellFormed (js "response")
  split
  · exact wellFormed_redact hresponse
  · exact hresponse

/-- A field as it is stored: the response scrubbed, then everything through JSON. -/
def storedField (record : IdempotencyRecord) (name : JsString) : JsValue :=
  if name = js "response" then throughJson (scrubbed record.response)
  else throughJson (record.fields.get name)

/-- What is read back under each name. -/
theorem get_stored (h : Readable record) (name : JsString) :
    (jsonOfFields (persistable record)).get name = storedField record name := by
  rw [get_jsonOfFields (wellFormed_obj.1 (wellFormed_persistable h)).1, persistable, storedField,
    get_set]
  by_cases hname : js "response" = name
  · rw [if_pos hname, if_pos hname.symm]
    rfl
  · rw [if_neg hname, if_neg (Ne.symm hname)]
    rfl

/-- The texts and the count of the envelope are stored as they are. -/
theorem storedField_envelope (h : Readable record) (hname : name ∈ envelope) :
    storedField record name = record.fields.get name := by
  have hresponse : name ≠ js "response" := by rintro rfl; revert hname; decide
  rw [storedField, if_neg hresponse]
  obtain ⟨hstrings, ⟨status, hstatus⟩, hnumber⟩ := hasRecordShape_iff.1 h.shape
  by_cases hcount : name = js "replays"
  · obtain ⟨n, hn⟩ := isNumber_iff.1 hnumber
    have hfin : n.isFinite = true := by simpa [replays, hn, asNum] using h.finite
    rw [hcount, hn]
    exact throughJson_eq_self hfin
  · by_cases hstate : name = js "status"
    · rw [hstate, hstatus, throughJson_str]
    have hmem : name ∈ textNames := by
      simp only [envelope, textNames, mem_cons, not_mem_nil, or_false] at hname ⊢
      tauto
    obtain ⟨t, ht⟩ := isString_iff.1 (hstrings name hmem)
    rw [ht, throughJson_str]

/-- The record that a write leaves in the storage. -/
def stored (record : IdempotencyRecord) : IdempotencyRecord := ⟨jsonOfFields (persistable record)⟩

/-- The envelope of a record is read back as it was written. -/
theorem get_stored_envelope (h : Readable record) (hname : name ∈ envelope) :
    (stored record).fields.get name = record.fields.get name :=
  (get_stored h name).trans (storedField_envelope h hname)

theorem key_stored (h : Readable record) : (stored record).key = record.key := by
  rw [key, get_stored_envelope h (by decide), key]

theorem expiresAt_stored (h : Readable record) : (stored record).expiresAt = record.expiresAt := by
  rw [expiresAt, get_stored_envelope h (by decide), expiresAt]

/-- **A written record is read back**, under its own key; every other key reads as before. -/
theorem read_write {t : Store} (h : Readable record) (hwrite : write s record = some t)
    (key : JsString) :
    read t key = if record.key = key then some (stored record) else read s key := by
  rw [write] at hwrite
  split at hwrite
  · cases hwrite
  cases hwrite
  simp only [read, Dict.get_set, storageKey_inj]
  split
  · have hshape : hasRecordShape (jsonOfFields (persistable record)) = true :=
      (hasRecordShape_congr fun _ hname ↦ get_stored_envelope h hname).trans h.shape
    have hne : stringify (.obj (persistable record)) ≠ [] := by simp [stringify]
    rw [bind_some, parseRecord, if_neg hne,
      parse_stringify_jsonOf (wellFormed_persistable h), bind_some, jsonOf, asRecord,
      if_pos hshape, stored]
  · rfl

/-- Writing a record announces no key. -/
theorem knownKeys_write {t : Store} (hwrite : write s record = some t) :
    t.knownKeys = s.knownKeys := by
  rw [write] at hwrite
  split at hwrite
  · cases hwrite
  · rw [← some.inj hwrite]

end Utix.Idempotency

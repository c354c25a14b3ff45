import Mathlib.Data.List.DropRight
import Utix.Idempotency.Store
import Utix.Lib.HashChain

/-!
# The tamper-evident change history

`TamperEvidentHistory` of `core/audit/tamper-evident-history.ts`. Every entry carries the digest of
its predecessor and a digest of itself, `verify` walks the list from sixty-four zeros, and `record`
appends.

The digest has no key, and nothing outside the list says how long it is or where it ends. So what
`verify` accepts is *any* list that `record` could have made (`chained_concat_iff`). Relative to a
history that was recorded, with a digest that is injective on the texts it is applied to, such a
list keeps a first part of the history, as JSON, and goes on with digests that are new
(`Continues`): entries cut off at the end are the case in which nothing is new. Whoever knows the
last digest detects everything (`forall₂_of_last_hash`).
-/

namespace Utix.Audit.History

open Js JsValue List Option JsNum

/-! ### Entries -/

inductive MutationType
  | create
  | update
  | delete
  | transfer
  | redeem
  | revoke
deriving DecidableEq

def MutationType.text : MutationType → JsString
  | .create => js "create"
  | .update => js "update"
  | .delete => js "delete"
  | .transfer => js "transfer"
  | .redeem => js "redeem"
  | .revoke => js "revoke"

/-- The state of a domain record, `Record<string, unknown>`. -/
structure RecordState where
  fields : Fields
  wellFormed : (JsValue.obj fields).WellFormed

/-- The state as a value; `none` is `null`. -/
def stateValue : Option RecordState → JsValue
  | none => .null
  | some state => .obj state.fields

/-- `Omit<ChangeHistoryEntry, 'hash'>` -/
structure EntryData where
  seq : JsNum
  recordType : JsString
  recordId : JsString
  mutationType : MutationType
  actor : JsString
  reason : JsString
  before : Option RecordState
  after : Option RecordState
  timestamp : JsString
  prevHash : JsString

structure ChangeHistoryEntry extends EntryData where
  hash : JsString

/-- The data as the object that is hashed. -/
def EntryData.fields (entry : EntryData) : Fields :=
  [(js "seq", .num entry.seq), (js "recordType", .str entry.recordType),
    (js "recordId", .str entry.recordId), (js "mutationType", .str entry.mutationType.text),
    (js "actor", .str entry.actor), (js "reason", .str entry.reason),
    (js "before", stateValue entry.before), (js "after", stateValue entry.after),
    (js "timestamp", .str entry.timestamp), (js "prevHash", .str entry.prevHash)]

/-- Some value of the entry has no JSON text. -/
def EntryData.hasBigint (entry : EntryData) : Bool := Idempotency.hasBigintFields entry.fields

structure VerificationResult where
  valid : Bool
  brokenAt : ℤ
  reason : Option JsString
deriving DecidableEq

/-- The answer for a list in which nothing is broken. -/
def intact : VerificationResult := ⟨true, -1, none⟩

/-- `'0'.repeat(64)` -/
def firstPrevHash : JsString := List.replicate 64 48

section

variable (sha256 : JsString → JsString)

/-- `computeHash(prevHash, entry)`; `none` is the `TypeError` of a bigint. -/
def computeHash (prevHash : JsString) (entry : EntryData) : Option JsString :=
  let data := { entry with prevHash := prevHash }
  if data.hasBigint then none else some (sha256 (stringify (.obj data.fields)))

/-! ### Recording -/

/-- The parameters of `record`. -/
structure RecordParams where
  recordType : JsString
  recordId : JsString
  mutationType : MutationType
  actor : JsString
  reason : JsString
  before : Option RecordState
  after : Option RecordState

section

variable (entries : List ChangeHistoryEntry)

/-- The digest the next entry names. -/
def lastHash : JsString :=
  Lib.HashChain.head ChangeHistoryEntry.hash firstPrevHash entries

section

variable (params : RecordParams)

/-- `entryData` of `record`, with the timestamp that was read. -/
def entryData (timestamp : JsString) : EntryData where
  seq := JsNum.ofInt (entries.length + 1)
  recordType := params.recordType
  recordId := params.recordId
  mutationType := params.mutationType
  actor := params.actor
  reason := params.reason
  before := params.before
  after := params.after
  timestamp := timestamp
  prevHash := lastHash entries

/-- `record` from the timestamp on. -/
def append (timestamp : JsString) : Option (List ChangeHistoryEntry) :=
  let data := entryData entries params timestamp
  (computeHash sha256 data.prevHash data).map fun hash ↦ entries ++ [⟨data, hash⟩]

/-- `record(params)` at the clock reading `now`: the entries after it; `none` is an exception. -/
def record (now : ℤ) : Option (List ChangeHistoryEntry) :=
  (Date.toISOString now).bind (append sha256 entries params)

end

end

/-- The entries after some calls of `record`. A call that throws leaves them as they are. -/
def recordAll (calls : List (RecordParams × ℤ)) : List ChangeHistoryEntry :=
  calls.foldl (fun entries call ↦ (record sha256 entries call.1 call.2).getD entries) []

/-- Entries added one after the other, none of which throws. -/
def appendAll (entries : List ChangeHistoryEntry) (calls : List (RecordParams × JsString)) :
    Option (List ChangeHistoryEntry) :=
  calls.foldlM (fun entries call ↦ append sha256 entries call.1 call.2) entries

/-! ### Verification -/

/-- The loop of `verify` from index `i` on. -/
def verifyFrom : ℕ → JsString → List ChangeHistoryEntry → Option VerificationResult
  | _, _, [] => some intact
  | i, expectedPrevHash, entry :: rest =>
    let at' := js "Entry " ++ (JsNum.ofInt i).text
    if entry.seq ≠ JsNum.ofInt (i + 1) then
      some ⟨false, i, at' ++ js ": expected seq " ++ (JsNum.ofInt (i + 1)).text ++ js ", got " ++
        entry.seq.text ++ js " — entries are missing or out of order"⟩
    else if entry.prevHash ≠ expectedPrevHash then
      some ⟨false, i, at' ++ js ": prevHash mismatch — chain broken at seq " ++ entry.seq.text⟩
    else
      match computeHash sha256 entry.prevHash entry.toEntryData with
      | none => none
      | some expectedHash =>
        if entry.hash ≠ expectedHash then
          some ⟨false, i, at' ++ js ": hash mismatch — entry data was altered after recording"⟩
        else verifyFrom (i + 1) entry.hash rest

/-- `verify()`; `none` is the `TypeError` of a bigint. -/
def verify (entries : List ChangeHistoryEntry) : Option VerificationResult :=
  verifyFrom sha256 0 firstPrevHash entries

/-- The entry carries its own digest. -/
def Sealed (entry : ChangeHistoryEntry) : Prop :=
  entry.hasBigint = false ∧ entry.hash = sha256 (stringify (.obj entry.fields))

/-- **What `verify` looks for**, from position `i` and the digest `h` on. -/
structure Chained (i : ℕ) (h : JsString) (entries : List ChangeHistoryEntry) : Prop where
  seq : ∀ j entry, entries[j]? = some entry → entry.seq = JsNum.ofInt ((i + j : ℕ) + 1)
  linked : Lib.HashChain.Linked (fun e : ChangeHistoryEntry ↦ e.prevHash) ChangeHistoryEntry.hash h
    entries
  isSealed : ∀ entry ∈ entries, Sealed sha256 entry

end

variable {sha256 : JsString → JsString}

/-! ### What verification accepts -/

theorem computeHash_self (entry : EntryData) :
    computeHash sha256 entry.prevHash entry =
      if entry.hasBigint then none else some (sha256 (stringify (.obj entry.fields))) := rfl

/-- An entry has a digest unless a bigint is in it. -/
theorem computeHash_eq_some_iff {entry : EntryData} {hash : JsString} :
    computeHash sha256 entry.prevHash entry = some hash ↔
      entry.hasBigint = false ∧ hash = sha256 (stringify (.obj entry.fields)) := by
  rw [computeHash_self]
  split
  next hbig => simp [hbig]
  next hbig => simp [hbig, eq_comm]

theorem chained_nil (i : ℕ) (h : JsString) : Chained sha256 i h [] :=
  ⟨fun j entry hj ↦ by simp at hj, trivial, nofun⟩

variable {i : ℕ} {h : JsString} {as bs : List ChangeHistoryEntry}

/-- A list of entries is chained in two parts, the second from the digest that ends the first. -/
theorem chained_append :
    Chained sha256 i h (as ++ bs) ↔ Chained sha256 i h as ∧
      Chained sha256 (i + as.length) (Lib.HashChain.head ChangeHistoryEntry.hash h as) bs := by
  constructor
  · rintro ⟨hseq, hlinked, hsealed⟩
    obtain ⟨hla, hlb⟩ := Lib.Chain.holds_append.1 hlinked
    refine ⟨⟨fun j entry hj ↦ hseq j entry ?_, hla, fun e he ↦ hsealed e (by simp [he])⟩,
      fun j entry hj ↦ ?_, hlb, fun e he ↦ hsealed e (by simp [he])⟩
    · rw [List.getElem?_append_left (List.getElem?_eq_some_iff.1 hj).1, hj]
    · have hat : (as ++ bs)[as.length + j]? = some entry := by
        rw [getElem?_append_right (by omega), Nat.add_sub_cancel_left, hj]
      rw [hseq _ _ hat, Nat.add_assoc]
  · rintro ⟨⟨hsa, hla, hea⟩, hsb, hlb, heb⟩
    refine ⟨fun j entry hj ↦ ?_, Lib.Chain.holds_append.2 ⟨hla, hlb⟩, fun e he ↦ ?_⟩
    · by_cases hlt : j < as.length
      · rw [List.getElem?_append_left hlt] at hj
        exact hsa j entry hj
      rw [getElem?_append_right (by omega)] at hj
      rw [hsb _ _ hj]
      congr 3
      omega
    · rcases mem_append.1 he with he | he
      · exact hea e he
      · exact heb e he

variable {entry : ChangeHistoryEntry}

theorem chained_singleton :
    Chained sha256 i h [entry] ↔
      entry.seq = ofInt (i + 1) ∧ entry.prevHash = h ∧ Sealed sha256 entry := by
  constructor
  · rintro ⟨hseq, hlinked, hsealed⟩
    exact ⟨hseq 0 entry rfl, hlinked.1, hsealed entry mem_cons_self⟩
  rintro ⟨hseq, hprev, hsealed⟩
  refine ⟨fun j e hj ↦ ?_, ⟨hprev, trivial⟩, fun e he ↦ mem_singleton.1 he ▸ hsealed⟩
  obtain ⟨rfl, rfl⟩ : j = 0 ∧ e = entry := by
    cases j with
    | zero => exact ⟨rfl, (some.inj hj).symm⟩
    | succ j => simp at hj
  exact hseq

/-- The first entry is sealed and numbered, and the others are chained behind it. -/
theorem chained_cons {rest : List ChangeHistoryEntry} :
    Chained sha256 i h (entry :: rest) ↔
      (entry.seq = ofInt (i + 1) ∧ entry.prevHash = h ∧ Sealed sha256 entry) ∧
        Chained sha256 (i + 1) entry.hash rest := by
  rw [← chained_singleton]
  exact (chained_append : Chained sha256 i h ([entry] ++ rest) ↔ _)

variable {entries : List ChangeHistoryEntry}

/-- **The loop finds nothing exactly in a chain.** -/
theorem verifyFrom_eq_intact_iff :
    verifyFrom sha256 i h entries = some intact ↔ Chained sha256 i h entries := by
  induction entries generalizing i h with
  | nil => exact iff_of_true rfl (chained_nil i h)
  | cons entry rest ih =>
    rw [chained_cons, verifyFrom]
    split_ifs with hseq hprev
    · exact iff_of_false (by simp [intact]) fun hc ↦ hseq hc.1.1
    · exact iff_of_false (by simp [intact]) fun hc ↦ hprev hc.1.2.1
    rw [not_not] at hseq hprev
    split
    next hnone =>
      refine iff_of_false (by simp) fun hc ↦ ?_
      rw [computeHash_eq_some_iff.2 hc.1.2.2] at hnone
      cases hnone
    next hash hsome =>
      obtain ⟨hbig, rfl⟩ := computeHash_eq_some_iff.1 hsome
      split_ifs with hhash
      · exact iff_of_false (by simp [intact]) fun hc ↦ hhash hc.1.2.2.2
      · rw [not_not] at hhash
        rw [ih]
        exact (and_iff_right ⟨hseq, hprev, hbig, hhash⟩).symm

/-- The loop throws only on an entry that has no JSON text. -/
theorem exists_hasBigint_of_verifyFrom (hthrown : verifyFrom sha256 i h entries = none) :
    ∃ e ∈ entries, e.hasBigint = true := by
  induction entries generalizing i h with
  | nil => cases hthrown
  | cons entry rest ih =>
    rw [verifyFrom] at hthrown
    split_ifs at hthrown
    split at hthrown
    next hnone =>
      rw [computeHash_self] at hnone
      exact ⟨entry, mem_cons_self, by simpa using hnone⟩
    next hash hsome =>
      split_ifs at hthrown
      obtain ⟨e, he, hbig⟩ := ih hthrown
      exact ⟨e, mem_cons_of_mem _ he, hbig⟩

/-! ### What recording makes -/

/-- The parameters that an entry was recorded with. -/
def ChangeHistoryEntry.params (entry : ChangeHistoryEntry) : RecordParams :=
  ⟨entry.recordType, entry.recordId, entry.mutationType, entry.actor, entry.reason, entry.before,
    entry.after⟩

variable {entries' : List ChangeHistoryEntry} {params : RecordParams} {timestamp : JsString}

/-- What recording appends: one sealed entry with the data of the call. -/
theorem append_eq_some_iff :
    append sha256 entries params timestamp = some entries' ↔
      ∃ entry, entries' = entries ++ [entry] ∧ Sealed sha256 entry ∧
        entry.toEntryData = entryData entries params timestamp := by
  rw [append, map_eq_some_iff]
  constructor
  · rintro ⟨hash, hhash, rfl⟩
    exact ⟨_, rfl, computeHash_eq_some_iff.1 hhash, rfl⟩
  · rintro ⟨⟨data, hash⟩, rfl, hsealed, rfl⟩
    exact ⟨hash, computeHash_eq_some_iff.2 hsealed, rfl⟩

/-- **An entry extends a chain exactly when `record` could have appended it.** -/
theorem chained_concat_iff (hchained : Chained sha256 0 firstPrevHash entries) :
    Chained sha256 0 firstPrevHash (entries ++ [entry]) ↔
      ∃ params timestamp, append sha256 entries params timestamp = some (entries ++ [entry]) := by
  rw [chained_append, and_iff_right hchained, chained_singleton]
  constructor
  · rintro ⟨hseq, hprev, hsealed⟩
    refine ⟨entry.params, entry.timestamp, append_eq_some_iff.2 ⟨entry, rfl, hsealed, ?_⟩⟩
    rcases entry with ⟨⟨seq, _, _, _, _, _, _, _, _, prev⟩, hash⟩
    simp only [Nat.zero_add] at hseq hprev
    rw [hseq, hprev]
    rfl
  · rintro ⟨params, timestamp, happend⟩
    obtain ⟨e, he, hsealed, hdata⟩ := append_eq_some_iff.1 happend
    obtain rfl : entry = e := by simpa using he
    refine ⟨?_, ?_, hsealed⟩
    · rw [hdata, Nat.zero_add]
      rfl
    · rw [hdata]
      rfl

/-- Recording keeps the list chained. -/
theorem Chained.append (hchained : Chained sha256 0 firstPrevHash entries)
    (happend : append sha256 entries params timestamp = some entries') :
    Chained sha256 0 firstPrevHash entries' := by
  obtain ⟨entry, rfl, -⟩ := append_eq_some_iff.1 happend
  exact (chained_concat_iff hchained).2 ⟨params, timestamp, happend⟩

/-- **What was recorded is a chain.** -/
theorem chained_recordAll (calls : List (RecordParams × ℤ)) :
    Chained sha256 0 firstPrevHash (recordAll sha256 calls) := by
  refine foldlRecOn calls _ (chained_nil 0 firstPrevHash) fun entries hentries call _ ↦ ?_
  cases hrecord : record sha256 entries call.1 call.2 with
  | none => exact hentries
  | some entries' =>
    obtain ⟨timestamp, -, happend⟩ := bind_eq_some_iff.1 hrecord
    exact hentries.append happend

/-- A list that was recorded from a chained one is chained. -/
theorem Chained.appendAll {calls : List (RecordParams × JsString)}
    (hchained : Chained sha256 0 firstPrevHash entries)
    (happend : appendAll sha256 entries calls = some entries') :
    Chained sha256 0 firstPrevHash entries' := by
  induction calls generalizing entries with
  | nil => exact some.inj happend ▸ hchained
  | cons call calls ih =>
    obtain ⟨between, hcall, hrest⟩ := bind_eq_some_iff.1 happend
    exact ih (hchained.append hcall) hrest

/-- **A chain can be made from any of its first parts.** -/
theorem exists_appendAll {kept new : List ChangeHistoryEntry}
    (hchained : Chained sha256 0 firstPrevHash (kept ++ new)) :
    ∃ calls, appendAll sha256 kept calls = some (kept ++ new) := by
  induction new generalizing kept with
  | nil => exact ⟨[], by rw [append_nil]; rfl⟩
  | cons entry new ih =>
    rw [append_cons] at hchained ⊢
    obtain ⟨calls, hcalls⟩ := ih hchained
    have hfirst := (chained_append.1 hchained).1
    obtain ⟨params, timestamp, hcall⟩ :=
      (chained_concat_iff (chained_append.1 hfirst).1).1 hfirst
    exact ⟨(params, timestamp) :: calls, bind_eq_some_iff.2 ⟨_, hcall, hcalls⟩⟩

/-! ### The digest determines the entry -/

/-- **The same entry, as JSON.** Only the recorded states can differ, in what JSON does not write.
-/
structure SameJson (a b : ChangeHistoryEntry) : Prop where
  seq : a.seq = b.seq
  recordType : a.recordType = b.recordType
  recordId : a.recordId = b.recordId
  mutationType : a.mutationType = b.mutationType
  actor : a.actor = b.actor
  reason : a.reason = b.reason
  before : jsonOf (stateValue a.before) = jsonOf (stateValue b.before)
  after : jsonOf (stateValue a.after) = jsonOf (stateValue b.after)
  timestamp : a.timestamp = b.timestamp
  prevHash : a.prevHash = b.prevHash
  hash : a.hash = b.hash
  hasBigint : a.hasBigint = b.hasBigint

/-- The texts that the digests of these entries are made of. -/
def hashedTexts (entries : List ChangeHistoryEntry) : Set JsString :=
  { text | ∃ e ∈ entries, text = stringify (.obj e.fields) }

theorem MutationType.text_injective : Function.Injective MutationType.text := by
  intro a b h
  cases a <;> cases b <;> first | rfl | exact absurd h (by decide)

theorem wellFormed_stateValue (state : Option RecordState) : (stateValue state).WellFormed := by
  cases state with
  | none => trivial
  | some state => exact state.wellFormed

theorem isOmitted_stateValue (state : Option RecordState) :
    (stateValue state).isOmitted = false := by
  cases state <;> rfl

/-- The JSON value that an entry is hashed as. -/
theorem jsonOf_fields (entry : EntryData) :
    jsonOf (.obj entry.fields) =
      .obj [(js "seq", jsonOf (.num entry.seq)), (js "recordType", .str entry.recordType),
        (js "recordId", .str entry.recordId), (js "mutationType", .str entry.mutationType.text),
        (js "actor", .str entry.actor), (js "reason", .str entry.reason),
        (js "before", jsonOf (stateValue entry.before)),
        (js "after", jsonOf (stateValue entry.after)),
        (js "timestamp", .str entry.timestamp), (js "prevHash", .str entry.prevHash)] := by
  simp only [EntryData.fields, jsonOf, jsonOfFields, isOmitted_stateValue]
  rfl

theorem wellFormed_fields (entry : EntryData) : (JsValue.obj entry.fields).WellFormed := by
  refine wellFormed_obj.2 ⟨?_, ?_⟩
  · show (map Prod.fst _).Nodup
    simp only [EntryData.fields, map_cons, map_nil]
    decide
  · have hbefore := wellFormed_stateValue entry.before
    have hafter := wellFormed_stateValue entry.after
    simp [EntryData.fields, WellFormed, hbefore, hafter]

variable {a b : ChangeHistoryEntry}

/-- Entries that are the same as JSON are hashed from one text. -/
theorem SameJson.text_eq (h : SameJson a b) :
    stringify (.obj a.fields) = stringify (.obj b.fields) := by
  rw [← stringify_jsonOf, ← stringify_jsonOf (.obj b.fields), jsonOf_fields, jsonOf_fields, h.seq,
    h.recordType, h.recordId, h.mutationType, h.actor, h.reason, h.before, h.after, h.timestamp,
    h.prevHash]

/-- **With an injective digest, entries that carry the same digest are the same**, as JSON. -/
theorem sameJson_of_hash_eq {m n : ℤ} (hinj : Set.InjOn sha256 (hashedTexts [a, b]))
    (ha : Sealed sha256 a) (hb : Sealed sha256 b) (hm : a.seq = ofInt m)
    (hn : b.seq = ofInt n) (hhash : a.hash = b.hash) : SameJson a b := by
  have htext : stringify (.obj a.fields) = stringify (.obj b.fields) :=
    hinj ⟨a, by simp, rfl⟩ ⟨b, by simp, rfl⟩ (by rw [← ha.2, ← hb.2, hhash])
  rw [← stringify_jsonOf, ← stringify_jsonOf (.obj b.fields)] at htext
  have hjson := stringify_injective (isJson_jsonOf (wellFormed_fields _))
    (isJson_jsonOf (wellFormed_fields _)) htext
  rw [jsonOf_fields, jsonOf_fields, hm, hn] at hjson
  have hfinite : ∀ k : ℤ, jsonOf (.num (ofInt k)) = .num (ofInt k) := fun _ ↦ rfl
  simp only [hfinite, JsValue.obj.injEq, cons.injEq, Prod.mk.injEq, JsValue.num.injEq,
    JsValue.str.injEq, true_and, and_true] at hjson
  obtain ⟨hseq, htype, hid, hmutation, hactor, hreason, hbefore, hafter, htime, hprev⟩ := hjson
  exact
    { seq := by rw [hm, hn, hseq]
      recordType := htype
      recordId := hid
      mutationType := MutationType.text_injective hmutation
      actor := hactor
      reason := hreason
      before := hbefore
      after := hafter
      timestamp := htime
      prevHash := hprev
      hash := hhash
      hasBigint := ha.1.trans hb.1.symm }

/-! ### Histories next to a recorded one -/

theorem hashedTexts_mono (h : as ⊆ bs) : hashedTexts as ⊆ hashedTexts bs :=
  fun _ ⟨e, he, ht⟩ ↦ ⟨e, h he, ht⟩

variable {e : ChangeHistoryEntry}

/-- Entries of a chained list have whole sequence numbers. -/
theorem Chained.exists_seq (hchained : Chained sha256 i h entries) (he : e ∈ entries) :
    ∃ n : ℤ, e.seq = ofInt n := by
  obtain ⟨j, hj⟩ := mem_iff_getElem?.1 he
  exact ⟨_, hchained.seq j e hj⟩

/-- Two entries of two chains with the same digest are the same, as JSON. -/
theorem Chained.sameJson (ha : Chained sha256 0 firstPrevHash as)
    (hb : Chained sha256 0 firstPrevHash bs) (hinj : Set.InjOn sha256 (hashedTexts (as ++ bs))) :
    ∀ a ∈ as, ∀ b ∈ bs, a.hash = b.hash → SameJson a b := by
  intro a hamem b hbmem hhash
  have hsub : [a, b] ⊆ as ++ bs := by simp [hamem, hbmem]
  obtain ⟨m, hm⟩ := ha.exists_seq hamem
  obtain ⟨n, hn⟩ := hb.exists_seq hbmem
  exact sameJson_of_hash_eq (hinj.mono (hashedTexts_mono hsub)) (ha.isSealed a hamem)
    (hb.isSealed b hbmem) hm hn hhash

/-- **A chain that ends in a digest of the history is a first part of the history.** -/
theorem forall₂_of_hash_eq {kept : List ChangeHistoryEntry} {m : ℕ}
    (hk : Chained sha256 0 firstPrevHash (kept ++ [e]))
    (hE : Chained sha256 0 firstPrevHash entries)
    (hinj : Set.InjOn sha256 (hashedTexts (kept ++ [e] ++ entries))) (hm : entries[m]? = some b)
    (hhash : e.hash = b.hash) :
    kept.length = m ∧ List.Forall₂ SameJson (kept ++ [e]) (entries.take (m + 1)) := by
  have hsame := hk.sameJson hE hinj
  -- the sequence number says where in the history the digest stands
  have hlen : kept.length = m := by
    have hseq := (hsame e (by simp) b (mem_of_getElem? hm) hhash).seq
    rw [hk.seq kept.length e (by simp), hE.seq m b hm] at hseq
    have := ofInt_injective hseq
    omega
  have htake : entries.take (m + 1) = entries.take m ++ [b] := by
    rw [take_add_one, hm]
    rfl
  have hfirst : Chained sha256 0 firstPrevHash (entries.take (m + 1)) :=
    (chained_append.1 ((take_append_drop (m + 1) entries).symm ▸ hE)).1
  refine ⟨hlen, (Lib.HashChain.forall₂_of_head_eq (fun x hx y hy hxy ↦ ?_) hk.linked
    hfirst.linked ?_ ?_).1⟩
  · have h := hsame x hx y (mem_of_mem_take hy) hxy
    exact ⟨h, h.prevHash⟩
  · rw [List.length_append, List.length_take, min_eq_left (List.getElem?_eq_some_iff.1 hm).1, hlen]
    rfl
  · rw [htake, Lib.HashChain.head, Lib.Chain.last_concat, Lib.Chain.last_concat, hhash]

/-- A seal depends on the JSON value of an entry only. -/
theorem SameJson.isSealed (h : SameJson a b) (hb : Sealed sha256 b) : Sealed sha256 a :=
  ⟨h.hasBigint.trans hb.1, by rw [h.hash, h.text_eq]; exact hb.2⟩

/-- A list that is a chain as JSON is a chain. -/
theorem Chained.of_sameJson (hsame : List.Forall₂ SameJson as bs) (hb : Chained sha256 i h bs) :
    Chained sha256 i h as := by
  induction hsame generalizing i h with
  | nil => exact hb
  | cons hab _ ih =>
    obtain ⟨⟨hseq, hprev, hsealed⟩, hrest⟩ := chained_cons.1 hb
    exact chained_cons.2 ⟨⟨hab.seq.trans hseq, hab.prevHash.trans hprev, hab.isSealed hsealed⟩,
      ih (hab.hash ▸ hrest)⟩

/-- **A list that continues a first part of the history**: it keeps that part, as JSON, `record`
could have appended the rest, and no digest of the rest is one of the history. -/
def Continues (sha256 : JsString → JsString) (history entries : List ChangeHistoryEntry) : Prop :=
  ∃ k ≤ history.length, List.Forall₂ SameJson (entries.take k) (history.take k) ∧
    (∃ calls, appendAll sha256 (entries.take k) calls = some entries) ∧
    ∀ e ∈ entries.drop k, e.hash ∉ history.map ChangeHistoryEntry.hash

variable {history : List ChangeHistoryEntry}

section

variable (hE : Chained sha256 0 firstPrevHash history)
include hE

/-- Whatever continues a first part of the history is accepted. -/
theorem chained_of_continues (h : Continues sha256 history entries) :
    Chained sha256 0 firstPrevHash entries := by
  obtain ⟨k, -, hsame, ⟨calls, hcalls⟩, -⟩ := h
  have hfirst : Chained sha256 0 firstPrevHash (history.take k) :=
    (chained_append.1 ((take_append_drop k history).symm ▸ hE)).1
  exact (hfirst.of_sameJson hsame).appendAll hcalls

/-- Nothing else is accepted, if the digest is injective on the texts in question. -/
theorem continues_of_chained (hinj : Set.InjOn sha256 (hashedTexts (entries ++ history)))
    (hL : Chained sha256 0 firstPrevHash entries) : Continues sha256 history entries := by
  -- the new part is what follows the last entry whose digest the history has
  let isNew : ChangeHistoryEntry → Bool := fun e ↦ e.hash ∉ history.map ChangeHistoryEntry.hash
  have hsplit := entries.rdropWhile_append_rtakeWhile (p := isNew)
  have hnew : ∀ e ∈ entries.rtakeWhile isNew, e.hash ∉ history.map ChangeHistoryEntry.hash :=
    fun e he ↦ of_decide_eq_true (mem_rtakeWhile_imp (p := isNew) he)
  have hlast := rdropWhile_last_not isNew entries
  generalize entries.rdropWhile isNew = kept at hsplit hlast
  generalize entries.rtakeWhile isNew = new at hsplit hnew
  subst hsplit
  have hkept : kept.length ≤ history.length ∧
      List.Forall₂ SameJson kept (history.take kept.length) := by
    rcases eq_nil_or_concat kept with rfl | ⟨init, e, rfl⟩
    · exact ⟨Nat.zero_le _, List.Forall₂.nil⟩
    rw [concat_eq_append] at *
    have he : e.hash ∈ history.map ChangeHistoryEntry.hash := by
      simpa [isNew] using hlast (by simp)
    obtain ⟨b, hb, hhash⟩ := mem_map.1 he
    obtain ⟨m, hm⟩ := mem_iff_getElem?.1 hb
    have hsub : init ++ [e] ++ history ⊆ init ++ [e] ++ new ++ history := by
      intro x hx
      simp only [mem_append] at hx ⊢
      tauto
    obtain ⟨rfl, hsame⟩ := forall₂_of_hash_eq (chained_append.1 hL).1 hE
      (hinj.mono (hashedTexts_mono hsub)) hm hhash.symm
    rw [List.length_append]
    exact ⟨(List.getElem?_eq_some_iff.1 hm).1, hsame⟩
  refine ⟨kept.length, hkept.1, ?_, ?_, ?_⟩
  · rw [take_left]
    exact hkept.2
  · rw [take_left]
    exact exists_appendAll hL
  · rw [drop_left]
    exact hnew

/-- **A chain that ends in the last digest of the history is the history**, as JSON. -/
theorem forall₂_of_last_hash (hinj : Set.InjOn sha256 (hashedTexts (entries ++ history)))
    (hL : Chained sha256 0 firstPrevHash entries)
    (hlast : entries.getLast?.map ChangeHistoryEntry.hash =
      history.getLast?.map ChangeHistoryEntry.hash) : List.Forall₂ SameJson entries history := by
  rcases eq_nil_or_concat entries with rfl | ⟨init, e, rfl⟩
  · have hnil : history = [] := by simpa using hlast.symm
    rw [hnil]
    exact List.Forall₂.nil
  · rw [concat_eq_append] at *
    rcases eq_nil_or_concat history with rfl | ⟨past, b, rfl⟩
    · simp at hlast
    rw [concat_eq_append] at *
    have hhash : e.hash = b.hash := by simpa using hlast
    have hat : (past ++ [b])[past.length]? = some b := by simp
    obtain ⟨-, hsame⟩ := forall₂_of_hash_eq hL hE hinj hat hhash
    rwa [take_of_length_le (by simp)] at hsame

end

/-- **What `verify` detects.** A recorded history is reported intact. Another list is reported
intact exactly if it continues a first part of the history with digests that are new; a list that
ends in the last digest of the history, exactly if it is the history, as JSON. The walk throws only
on an entry that has no JSON text. -/
theorem verify_recordAll (calls : List (RecordParams × ℤ)) (entries : List ChangeHistoryEntry)
    (hinj : Set.InjOn sha256 (hashedTexts (entries ++ recordAll sha256 calls))) :
    verify sha256 (recordAll sha256 calls) = some intact ∧
      (verify sha256 entries = some intact ↔ Continues sha256 (recordAll sha256 calls) entries) ∧
      (entries.getLast?.map ChangeHistoryEntry.hash =
          (recordAll sha256 calls).getLast?.map ChangeHistoryEntry.hash →
        (verify sha256 entries = some intact ↔
          List.Forall₂ SameJson entries (recordAll sha256 calls))) ∧
      (verify sha256 entries = none → ∃ e ∈ entries, e.hasBigint = true) := by
  have hE : Chained sha256 0 firstPrevHash (recordAll sha256 calls) := chained_recordAll calls
  have hverify : verify sha256 entries = some intact ↔ Chained sha256 0 firstPrevHash entries :=
    verifyFrom_eq_intact_iff
  refine ⟨verifyFrom_eq_intact_iff.2 hE, ?_, fun hlast ↦ ?_, exists_hasBigint_of_verifyFrom⟩
  · exact hverify.trans ⟨continues_of_chained hE hinj, chained_of_continues hE⟩
  · exact hverify.trans ⟨fun hL ↦ forall₂_of_last_hash hE hinj hL hlast, hE.of_sameJson⟩

/-! ### A history without its last entry -/

def ticketChange (mutationType : MutationType) (actor : JsString) : RecordParams :=
  ⟨js "ticket", js "t-1", mutationType, actor, js "sale", none, none⟩

/-- A ticket that is created and transferred. -/
def twoChanges : List (RecordParams × ℤ) :=
  [(ticketChange .create (js "admin"), 0), (ticketChange .transfer (js "alice"), 1)]

/-- With a digest that loses nothing, the first entry is missed. -/
theorem verify_recordAll_twoChanges :
    verify id (recordAll id twoChanges) = some intact ∧
      verify id ((recordAll id twoChanges).drop 1) ≠ some intact := by
  obtain ⟨hintact, hiff, -, -⟩ := @verify_recordAll id twoChanges
    ((recordAll id twoChanges).drop 1) Function.injective_id.injOn
  refine ⟨hintact, ?_⟩
  decide +kernel

/-- **The last change can be taken back unseen.** -/
theorem verify_take_twoChanges :
    (recordAll id twoChanges).take 1 ≠ recordAll id twoChanges ∧
      Function.Injective (id : JsString → JsString) ∧
      verify id ((recordAll id twoChanges).take 1) = some intact := by
  refine ⟨?_, Function.injective_id, by decide +kernel⟩
  intro h
  have := congrArg length h
  revert this
  decide +kernel

end Utix.Audit.History

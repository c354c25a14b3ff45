import Utix.Audit.Context
import Utix.Ledger.Canonical
import Utix.Lib.Chain

/-!
# The hash chain and its verification

The pure half of `core/ledger/ledger.ts`: the shape of an entry, the digest it must carry, and
`verifyLedgerChain`, the loop that walks a segment from its anchor. Entries and anchors are values
that may have come out of attacker controlled storage, so they are `JsValue`s and every check is the
check of the source on an arbitrary value. A comparison that throws, or a bigint that has no JSON
text, is `none`.

`Runtime` collects what the ledger takes from outside: the digest, a function into strings that
match `HASH_PATTERN`, and the part of `Date.parse` that belongs to the engine.

## What verification establishes

`checkEntry_eq_pass_iff` says what one round of the loop checks. `verifyLedgerChain_eq_ok_iff` says
that a chain verifies exactly when every entry passes its round, and then reports all of them and
the last one as head; `verifyLedgerChain_eq_broken` that a broken chain keeps the prefix before the
first failure.
-/

namespace Utix.Ledger

open Js JsValue Audit JsNum

/-! ### Vocabulary -/

def ledgerSchemaVersion : ℤ := 1

/-- `HASH_PATTERN`: `/^[0-9a-f]{64}$/` -/
def hashPattern (s : JsString) : Bool := s.length == 64 && s.all isLowerHex

def ledgerGenesisHash : JsString := List.replicate 64 48

theorem hashPattern_genesis : hashPattern ledgerGenesisHash = true := by decide

def financialActions : List JsString := [js "faucet.funded"]

def ledgerSystemActions : List JsString := [js "ledger.resealed"]

def allActions : List JsString := sensitiveActions ++ financialActions ++ ledgerSystemActions

inductive LedgerKind
  | privileged
  | financial
deriving DecidableEq

def LedgerKind.text : LedgerKind → JsString
  | .privileged => js "privileged"
  | .financial => js "financial"

def kindOf (action : JsString) : LedgerKind :=
  if action ∈ financialActions then .financial else .privileged

inductive LedgerIntegrityCode
  | corrupt
  | malformedEntry
  | sequenceGap
  | linkBroken
  | hashMismatch
  | outOfOrder
  | headMismatch
deriving DecidableEq

def LedgerIntegrityCode.text : LedgerIntegrityCode → JsString
  | .corrupt => js "ledger_corrupt"
  | .malformedEntry => js "ledger_malformed_entry"
  | .sequenceGap => js "ledger_sequence_gap"
  | .linkBroken => js "ledger_link_broken"
  | .hashMismatch => js "ledger_hash_mismatch"
  | .outOfOrder => js "ledger_out_of_order"
  | .headMismatch => js "ledger_head_mismatch"

/-- `LedgerCheckpoint`. The instant is whatever the stored object holds under `at`. -/
structure Checkpoint where
  seq : JsNum
  hash : JsString
  at' : JsValue
deriving DecidableEq

/-- `{ seq: v.seq, hash: v.hash, at: v.at }` -/
def checkpoint (v : JsValue) : Checkpoint :=
  ⟨(v.get (js "seq")).asNum, (v.get (js "hash")).asStr, v.get (js "at")⟩

def genesis : Checkpoint := ⟨JsNum.ofInt 0, ledgerGenesisHash, .undefined⟩

/-- What the ledger takes from its environment. -/
structure Runtime where
  /-- `sha256Hex` -/
  sha256Hex : JsString → { s : JsString // hashPattern s = true }
  /-- What `Date.parse` makes of a text in none of the forms the language fixes. -/
  otherDate : JsString → Option ℤ

/-- `Date.parse(text)`; `none` is `NaN`. -/
def Runtime.dateParse (rt : Runtime) : JsString → Option ℤ := Date.parse rt.otherDate

/-! ### Shapes -/

def isLabel : JsValue → Bool
  | .str s => !isBlank s && s.length ≤ 128
  | _ => false

/-- `typeof value === "string" && HASH_PATTERN.test(value)` -/
def isHash : JsValue → Bool
  | .str s => hashPattern s
  | _ => false

def isInteger : JsValue → Bool
  | .num n => n.isInteger
  | _ => false

def isCheckpoint (v : JsValue) : Bool :=
  v.isObject && isInteger (v.get (js "seq")) &&
    !(v.get (js "seq")).asNum.less (JsNum.ofInt 0) && isHash (v.get (js "hash"))

/-- `typeof item.at === "string" && !Number.isNaN(Date.parse(item.at))` -/
def isInstant (rt : Runtime) : JsValue → Bool
  | .str s => (rt.dateParse s).isSome
  | _ => false

/-- The three checks on `kind` and `action`. -/
def isAction (kind action : JsValue) : Bool :=
  match action with
  | .str a =>
    (kind == .str (js "privileged") || kind == .str (js "financial")) && allActions.contains a &&
      kind == .str (kindOf a).text
  | _ => false

def isEntryShape (rt : Runtime) (v : JsValue) : Bool :=
  v.isObject && v.get (js "v") == .num (JsNum.ofInt ledgerSchemaVersion) &&
    isInteger (v.get (js "seq")) && isInstant rt (v.get (js "at")) &&
    isAction (v.get (js "kind")) (v.get (js "action")) && (v.get (js "actorId")).isString &&
    isLabel ((v.get (js "subject")).get (js "kind")) &&
    isLabel ((v.get (js "subject")).get (js "id")) &&
    (v.get (js "outcome") == .str (js "allowed") || v.get (js "outcome") == .str (js "denied")) &&
    isHash (v.get (js "prevHash")) && isHash (v.get (js "hash"))

/-! ### The digest of an entry -/

/-- `const { hash, ...body } = entry` -/
def bodyOf : JsValue → JsValue
  | .obj fs => .obj (Fields.without fs (js "hash"))
  | _ => .obj []

/-- `hashLedgerEntry(entry)`; `none` is the `TypeError` of a bigint. -/
def hashLedgerEntry (rt : Runtime) (entry : JsValue) : Option JsString :=
  (canonicalJson (bodyOf entry)).map fun text ↦ (rt.sha256Hex text).1

/-! ### The loop -/

/-- One round of the loop of `verifyLedgerChain`: the code and the sequence number of the failure,
or nothing. `none` is an exception. -/
def checkEntry (rt : Runtime) (previous : Checkpoint) (raw : JsValue) :
    Option (Option (LedgerIntegrityCode × JsNum)) :=
  let expectedSeq := previous.seq.add (JsNum.ofInt 1)
  let seq := (raw.get (js "seq")).asNum
  if isEntryShape rt raw = false then some (some (.malformedEntry, expectedSeq))
  else if raw.get (js "seq") ≠ .num expectedSeq then some (some (.sequenceGap, expectedSeq))
  else if raw.get (js "prevHash") ≠ .str previous.hash then some (some (.linkBroken, seq))
  else
    match hashLedgerEntry rt raw with
    | none => none
    | some hash =>
      if raw.get (js "hash") ≠ .str hash then some (some (.hashMismatch, seq))
      else if previous.at'.truthy then
        (less (raw.get (js "at")) previous.at').map fun earlier ↦
          if earlier then some (.outOfOrder, seq) else none
      else some none

inductive LedgerVerification
  | ok (count : ℕ) (anchor head : Checkpoint)
  | broken (code : LedgerIntegrityCode) (seq : Option JsNum) (verified : ℕ)
      (lastGood : Checkpoint)
deriving DecidableEq

/-- The loop, with its two accumulators. -/
def verifyLoop (rt : Runtime) (anchor : Checkpoint) :
    Checkpoint → ℕ → List JsValue → Option LedgerVerification
  | previous, verified, [] => some (.ok verified anchor previous)
  | previous, verified, raw :: rest =>
    match checkEntry rt previous raw with
    | none => none
    | some (some (code, seq)) => some (.broken code (some seq) verified previous)
    | some none => verifyLoop rt anchor (checkpoint raw) (verified + 1) rest

/-- `a.seq === b.seq && a.hash === b.hash` -/
def samePoint (a b : Checkpoint) : Bool := a.seq != .nan && a.seq == b.seq && a.hash == b.hash

def verifyLedgerChain (rt : Runtime) (entries : List JsValue) (anchor : Checkpoint)
    (expectedHead : Option Checkpoint) : Option LedgerVerification :=
  match verifyLoop rt anchor anchor 0 entries with
  | some (.ok count anchor head) =>
    match expectedHead with
    | none => some (.ok count anchor head)
    | some expected =>
      if samePoint expected head || entries.any (fun e ↦ samePoint expected (checkpoint e)) ||
          samePoint expected anchor then
        some (.ok count anchor head)
      else some (.broken .headMismatch (some expected.seq) count head)
  | result => result

/-! ### What the loop establishes -/

/-- Every entry passes its round, from the checkpoint before the first. -/
def Verifies (rt : Runtime) : Checkpoint → List JsValue → Prop :=
  Lib.Chain.Holds checkpoint fun previous e ↦ checkEntry rt previous e = some none

/-- The checkpoint of the last entry, or the one before the first. -/
def headFrom : Checkpoint → List JsValue → Checkpoint := Lib.Chain.last checkpoint

theorem headFrom_cons (p : Checkpoint) (e : JsValue) (es : List JsValue) :
    headFrom p (e :: es) = headFrom (checkpoint e) es := rfl

@[simp] theorem headFrom_concat (p : Checkpoint) (es : List JsValue) (e : JsValue) :
    headFrom p (es ++ [e]) = checkpoint e := Lib.Chain.last_concat p es e

variable {rt : Runtime} {p : Checkpoint} {es : List JsValue}

/-- A chain verifies in two parts, the second from the head of the first. -/
theorem verifies_append {fs : List JsValue} :
    Verifies rt p (es ++ fs) ↔ Verifies rt p es ∧ Verifies rt (headFrom p es) fs :=
  Lib.Chain.holds_append

variable {e : JsValue}

/-- One more entry is one more round. -/
theorem verifies_concat :
    Verifies rt p (es ++ [e]) ↔ Verifies rt p es ∧ checkEntry rt (headFrom p es) e = some none :=
  Lib.Chain.holds_concat

/-- **One round of the loop.** -/
theorem checkEntry_eq_pass_iff :
    checkEntry rt p e = some none ↔
      isEntryShape rt e = true ∧ e.get (js "seq") = .num (p.seq.add (ofInt 1)) ∧
        e.get (js "prevHash") = .str p.hash ∧
          (∃ hash, hashLedgerEntry rt e = some hash ∧ e.get (js "hash") = .str hash) ∧
            (p.at'.truthy = true → less (e.get (js "at")) p.at' = some false) := by
  simp only [checkEntry]
  by_cases hshape : isEntryShape rt e = false
  · simp [hshape]
  by_cases hseq : e.get (js "seq") = .num (p.seq.add (ofInt 1))
  · by_cases hprev : e.get (js "prevHash") = .str p.hash
    · cases hdigest : hashLedgerEntry rt e with
      | none => simp [hshape, hseq, hprev]
      | some hash =>
        by_cases hhash : e.get (js "hash") = .str hash
        · cases hat : p.at'.truthy with
          | true =>
            cases hless : less (e.get (js "at")) p.at' with
            | none => simp [hshape, hseq, hprev, hhash]
            | some earlier => cases earlier <;> simp_all
          | false => simp_all
        · simp_all
    · simp [hshape, hseq, hprev]
  · simp [hshape, hseq]

theorem verifyLoop_nil (rt : Runtime) (anchor p : Checkpoint) (n : ℕ) :
    verifyLoop rt anchor p n [] = some (.ok n anchor p) := rfl

theorem verifyLoop_cons (rt : Runtime) (anchor p : Checkpoint) (n : ℕ) (e : JsValue)
    (es : List JsValue) :
    verifyLoop rt anchor p n (e :: es) =
      match checkEntry rt p e with
      | none => none
      | some (some (code, seq)) => some (.broken code (some seq) n p)
      | some none => verifyLoop rt anchor (checkpoint e) (n + 1) es := rfl

/-- The loop reports the entries it went through, and the last of them. -/
theorem verifyLoop_eq_ok_iff {anchor head a : Checkpoint} {n c : ℕ} :
    verifyLoop rt anchor p n es = some (.ok c a head) ↔
      Verifies rt p es ∧ c = n + es.length ∧ a = anchor ∧ head = headFrom p es := by
  induction es generalizing p n with
  | nil => simp [verifyLoop_nil, Verifies, headFrom, eq_comm]
  | cons e es ih =>
    rw [verifyLoop_cons, Verifies, Lib.Chain.holds_cons]
    split
    · next h => simp [h]
    · next h => simp [h]
    next h =>
    rw [ih, h, headFrom_cons, List.length_cons]
    simp only [true_and, Verifies]
    have harith : n + 1 + es.length = n + (es.length + 1) := by omega
    rw [harith]

/-- **A verified chain**: all entries pass, they are all counted, and the head is the last one. -/
theorem verifyLedgerChain_eq_ok_iff {anchor head a : Checkpoint} {c : ℕ} :
    verifyLedgerChain rt es anchor none = some (.ok c a head) ↔
      Verifies rt anchor es ∧ c = es.length ∧ a = anchor ∧ head = headFrom anchor es := by
  have hloop := @verifyLoop_eq_ok_iff rt anchor es anchor head a 0 c
  rw [zero_add] at hloop
  rw [← hloop, verifyLedgerChain]
  rcases verifyLoop rt anchor anchor 0 es with - | - | - <;> simp

variable {code : LedgerIntegrityCode} {seq : Option JsNum}

/-- The loop stops at the first entry that fails, and keeps those before it. -/
theorem verifyLoop_eq_broken {anchor lastGood : Checkpoint} {n verified : ℕ}
    (h : verifyLoop rt anchor p n es = some (.broken code seq verified lastGood)) :
    ∃ kept bad rest, es = kept ++ bad :: rest ∧ Verifies rt p kept ∧
      verified = n + kept.length ∧ lastGood = headFrom p kept := by
  induction es generalizing p n with
  | nil => exact absurd h (by simp [verifyLoop_nil])
  | cons e es ih =>
    rw [verifyLoop_cons] at h
    split at h
    · cases h
    · simp only [Option.some.injEq, LedgerVerification.broken.injEq] at h
      exact ⟨[], e, es, rfl, trivial, h.2.2.1.symm, h.2.2.2.symm⟩
    next hpass =>
    obtain ⟨kept, bad, rest, rfl, hkept, rfl, rfl⟩ := ih h
    refine ⟨e :: kept, bad, rest, rfl, ⟨hpass, hkept⟩, ?_, rfl⟩
    rw [List.length_cons]
    omega

/-- **A broken chain keeps its prefix**: the entries before the first failure verify, and they end
in `lastGood`. -/
theorem verifyLedgerChain_eq_broken {anchor lastGood : Checkpoint} {verified : ℕ}
    (h : verifyLedgerChain rt es anchor none = some (.broken code seq verified lastGood)) :
    Verifies rt anchor (es.take verified) ∧ lastGood = headFrom anchor (es.take verified) := by
  rw [verifyLedgerChain] at h
  split at h
  · cases h
  obtain ⟨kept, bad, rest, rfl, hkept, hverified, rfl⟩ := verifyLoop_eq_broken h
  rw [zero_add] at hverified
  rw [hverified, List.take_left]
  exact ⟨hkept, rfl⟩

/-! ### Entries that passed -/

/-- An entry that has the shape of one and carries its own digest. -/
structure Sealed (rt : Runtime) (e : JsValue) : Prop where
  shape : isEntryShape rt e = true
  digest : ∃ hash, hashLedgerEntry rt e = some hash ∧ e.get (js "hash") = .str hash

theorem Sealed.exists_fields (h : Sealed rt e) : ∃ fs, e = .obj fs := by
  cases e with
  | obj fs => exact ⟨fs, rfl⟩
  | _ => exact absurd h.shape (by simp [isEntryShape, JsValue.get])

/-- A sealed entry names a predecessor. -/
theorem Sealed.exists_prevHash (h : Sealed rt e) : ∃ s, e.get (js "prevHash") = .str s := by
  have hshape := h.shape
  simp only [isEntryShape, Bool.and_eq_true] at hshape
  cases hprev : e.get (js "prevHash") with
  | str s => exact ⟨s, rfl⟩
  | _ => simp [hprev, isHash] at hshape

/-- **Verification seals every entry.** -/
theorem sealed_of_verifies (h : Verifies rt p es) : ∀ e ∈ es, Sealed rt e :=
  Lib.Chain.Holds.forall_mem (fun _ _ hpass ↦
    have ⟨hshape, _, _, hdigest, _⟩ := checkEntry_eq_pass_iff.1 hpass
    ⟨hshape, hdigest⟩) h

/-- A verified entry has a text as its instant. -/
theorem Sealed.exists_at (h : Sealed rt e) :
    ∃ s, e.get (js "at") = .str s ∧ (rt.dateParse s).isSome = true := by
  have hshape := h.shape
  simp only [isEntryShape, Bool.and_eq_true] at hshape
  cases hat : e.get (js "at") with
  | str s => exact ⟨s, rfl, by simp_all [isInstant]⟩
  | _ => simp [hat, isInstant] at hshape

/-! ### Checkpoints -/

/-- A checkpoint with a natural sequence number and a proper digest. -/
structure Checkpoint.Proper (p : Checkpoint) : Prop where
  seq : ∃ k : ℤ, 0 ≤ k ∧ p.seq = JsNum.ofInt k
  hash : hashPattern p.hash = true

/-- What `isCheckpoint` accepts is proper. -/
theorem proper_of_isCheckpoint {v : JsValue} (h : isCheckpoint v = true) :
    (checkpoint v).Proper := by
  simp only [isCheckpoint, Bool.and_eq_true, Bool.not_eq_true'] at h
  obtain ⟨⟨⟨-, hint⟩, hpos⟩, hhash⟩ := h
  refine ⟨?_, ?_⟩
  · cases hseq : v.get (js "seq") with
    | num n =>
      rw [hseq] at hint hpos
      obtain ⟨k, rfl⟩ := exists_ofInt hint
      simp only [asNum, less_ofInt, decide_eq_false_iff_not, not_lt] at hpos
      exact ⟨k, hpos, by rw [checkpoint, hseq]; rfl⟩
    | _ => simp [hseq, isInteger] at hint
  · cases hget : v.get (js "hash") with
    | str s =>
      rw [hget] at hhash
      rw [checkpoint, hget]
      exact hhash
    | _ => simp [hget, isHash] at hhash

/-- An entry that passes is a proper checkpoint. -/
theorem proper_checkpoint (hp : p.Proper) (h : checkEntry rt p e = some none) :
    (checkpoint e).Proper := by
  obtain ⟨hshape, hseq, -⟩ := checkEntry_eq_pass_iff.1 h
  obtain ⟨k, hk, hpk⟩ := hp.seq
  refine ⟨⟨k + 1, by omega, ?_⟩, ?_⟩
  · rw [checkpoint, hseq, hpk, ofInt_add]
    rfl
  simp only [isEntryShape, Bool.and_eq_true] at hshape
  cases hget : e.get (js "hash") with
  | str s =>
    rw [checkpoint, hget]
    simpa [hget, isHash, asStr] using hshape.2
  | _ => simp [hget, isHash] at hshape

/-- **A verified chain ends in a proper checkpoint.** -/
theorem proper_headFrom (hp : p.Proper) (h : Verifies rt p es) : (headFrom p es).Proper :=
  h.last_induction (P := Checkpoint.Proper) (fun _ _ hq hpass ↦ proper_checkpoint hq hpass) hp

/-- A runtime for runs on fixed inputs: one digest for every text, and no date beyond the forms the
language fixes. -/
def plainRuntime : Runtime := ⟨fun _ ↦ ⟨ledgerGenesisHash, hashPattern_genesis⟩, fun _ ↦ none⟩

/-- A runtime whose digest tells texts of even and of odd length apart. -/
def parityRuntime : Runtime where
  sha256Hex text :=
    if text.length % 2 = 0 then ⟨ledgerGenesisHash, hashPattern_genesis⟩
    else ⟨List.replicate 64 49, by decide⟩
  otherDate _ := none

end Utix.Ledger

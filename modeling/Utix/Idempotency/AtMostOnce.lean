import Utix.Idempotency.Records
import Utix.Lib.Run

/-!
# One claim for each key, as long as no key is dropped

A key whose record has expired must never be claimed again: so says the contract of the module. The
store keeps no memory of it, though. The call that *finds* the record expired — a `begin`, a
`lookup` or a `sweep` — removes it, and the next `begin` with that key meets an empty storage.

## The history of a key

`KeyHistory` is told from the calls and their clock readings alone: a key is fresh, then live until
some instant, then dropped once a call has looked at it at or after that instant. `Tracks` says that
the store follows it: exactly the live keys have a record, with that expiry.

So the keys that may be claimed again are the dropped ones, and **every key is claimed at most once
exactly if no `begin` is made with a dropped key** (`claims_nodup_iff_not_revived`).
-/

namespace Utix.Idempotency

open Js JsValue Lib List

/-! ### Histories -/

/-- What a key has been through. -/
inductive KeyHistory
  | fresh
  | live (expiry : ℤ)
  | dropped
  deriving DecidableEq

/-- A call has looked at the key. -/
def KeyHistory.seenAt (now : ℤ) : KeyHistory → KeyHistory
  | .live expiry => if expiry ≤ now then .dropped else .live expiry
  | history => history

section

variable (options : IdempotencyOptions)

/-- Both instants of a claim are instants that a `Date` holds. -/
def representable (now : ℤ) : Bool :=
  (Date.toISOString now).isSome && (Date.toISOString (now + options.ttlMs)).isSome

/-- A `begin` was made with the key. -/
def KeyHistory.begun (now : ℤ) : KeyHistory → KeyHistory
  | .live expiry => (KeyHistory.live expiry).seenAt now
  | history => if representable options now then .live (now + options.ttlMs) else history

/-! ### Runs -/

/-- The calls on a store, with their clock readings. A response is a value that exists, so its
objects have distinct keys. -/
inductive StoreCall
  | begin (request : BeginRequest) (now : ℤ) (freshId : JsString)
  | complete (key : JsString) (response : {v : JsValue // v.WellFormed})
  | fail (key errorCode : JsString)
  | lookup (key : JsString) (now : ℤ)
  | sweep (at' : ℤ)

/-- A store, the keys it has claimed so far, and the history of every key. -/
structure ClaimRun where
  store : Store := {}
  claims : List JsString := []
  history : JsString → KeyHistory := fun _ ↦ .fresh

/-- The key that an answer grants: `replay: false`. -/
def granted : Option (Except IdempotencyErrorCode BeginOutcome) → List JsString
  | some (.ok ⟨false, record⟩) => [record.key]
  | _ => []

/-- The histories after a call. -/
def StoreCall.tell (history : JsString → KeyHistory) :
    StoreCall → JsString → KeyHistory
  | .begin request now _, key =>
    if request.key = some key ∧ isValidIdempotencyKey key = true then
      (history key).begun options now
    else history key
  | .lookup looked now, key => if looked = key then (history key).seenAt now else history key
  | .sweep at', key => (history key).seenAt at'
  | _, key => history key

/-- The store after a call, and the keys that the call granted. -/
def StoreCall.run (s : Store) : StoreCall → Store × List JsString
  | .begin request now freshId =>
    let reply := Idempotency.begin options s request now freshId
    (reply.2, granted reply.1)
  | .complete key response => ((Idempotency.complete s key response).2, [])
  | .fail key errorCode => ((Idempotency.fail s key errorCode).2, [])
  | .lookup key now => ((Idempotency.lookup options s key now).2, [])
  | .sweep at' => ((Idempotency.sweep options s at').2, [])

def claimStep (r : ClaimRun) (call : StoreCall) : ClaimRun :=
  ⟨(call.run options r.store).1, r.claims ++ (call.run options r.store).2,
    call.tell options r.history⟩

/-- The call does not begin with a key that was dropped. (A `begin` whose instants no `Date` holds
throws before it claims anything.) -/
def NotRevived (r : ClaimRun) : StoreCall → Prop
  | .begin request now _ => ∀ key, request.key = some key → isValidIdempotencyKey key = true →
      representable options now = true → r.history key ≠ .dropped
  | _ => True

end

/-! ### Leases -/

/-- What the storage says about who holds a key, and until when. -/
def lease (s : Store) (key : JsString) : Option (JsString × JsString) :=
  (read s key).map fun record ↦ (record.key, record.expiresAt)

variable {s : Store} {key : JsString}

variable {t : Store} {record : IdempotencyRecord}

/-- Writing a record sets the lease of its own key. -/
theorem lease_write (h : Readable record) (hwrite : write s record = some t) (key : JsString) :
    lease t key = if record.key = key then some (record.key, record.expiresAt)
      else lease s key := by
  rw [lease, read_write h hwrite]
  split
  · rw [Option.map_some, key_stored h, expiresAt_stored h]
  · rfl

/-- Removing a key ends its lease and no other. -/
theorem lease_remove (s : Store) (key other : JsString) :
    lease (remove s key) other = if key = other then none else lease s other := by
  rw [lease, read_remove]
  split <;> rfl

/-- Two stores with the same claims. -/
structure SameLeases (s t : Store) : Prop where
  lease : ∀ key, lease t key = lease s key
  known : t.knownKeys = s.knownKeys

theorem SameLeases.refl (s : Store) : SameLeases s s := ⟨fun _ ↦ rfl, rfl⟩

/-- Rewriting the record of a key under that key keeps the leases. -/
theorem sameLeases_write {old new : IdempotencyRecord} (hread : read s old.key = some old)
    (h : Readable new) (hkey : new.key = old.key) (hexpires : new.expiresAt = old.expiresAt)
    (hwrite : write s new = some t) : SameLeases s t := by
  refine ⟨fun key ↦ ?_, knownKeys_write hwrite⟩
  rw [lease_write h hwrite]
  split
  · next heq => rw [← heq, hkey, hexpires, lease, hread, Option.map_some]
  · rfl

/-! ### What the calls do to the leases -/

/-- **The records are held by their own keys.** -/
def Owned (s : Store) : Prop := ∀ key record, read s key = some record → record.key = key

/-- Completing or failing a claim keeps all leases. -/
theorem sameLeases_conclude (hs : Owned s) {outcome : IdempotencyRecord → IdempotencyRecord}
    (hread : ∀ record, Readable record → Readable (outcome record))
    (hkey : ∀ record, (outcome record).key = record.key)
    (hexpires : ∀ record, (outcome record).expiresAt = record.expiresAt) :
    SameLeases s (conclude s key outcome).2 := by
  rw [conclude]
  split
  · exact .refl s
  next existing hexisting =>
  split
  · exact .refl s
  split
  · exact .refl s
  next t hwrite =>
  have hown := hs key existing hexisting
  exact sameLeases_write (hown.symm ▸ hexisting) (hread _ (readable_of_read hexisting))
    (hkey _) (hexpires _) hwrite

variable {options : IdempotencyOptions} {request : BeginRequest} {now : ℤ}

/-- **A `begin` with a key that has no record claims it.** -/
theorem begin_claims (freshId : JsString) (hkey : request.key = some key)
    (hvalid : isValidIdempotencyKey key = true) (hread : read s key = none)
    (hdates : representable options now = true) :
    ∃ expires t, Date.toISOString (now + options.ttlMs) = some expires ∧
      (begin options s request now freshId).2 = t ∧
      granted (begin options s request now freshId).1 = [key] ∧
      (∀ other, lease t other = if key = other then some (key, expires) else lease s other) ∧
      t.knownKeys = addKey s.knownKeys key := by
  simp only [representable, Bool.and_eq_true, Option.isSome_iff_exists] at hdates
  obtain ⟨⟨created, hcreated⟩, ⟨expires, hexpires⟩⟩ := hdates
  have hne : key ≠ [] := by rintro rfl; exact absurd hvalid (by decide)
  set record := claimRecord key request created expires (request.correlationId.getD freshId)
    with hrecord
  obtain ⟨t, hwrite⟩ :
      ∃ t, write { s with knownKeys := addKey s.knownKeys key } record = some t := by
    have hresponse : record.response = .undefined := rfl
    simp only [write, persistable, hresponse, isObject, Bool.false_eq_true, if_false]
    exact ⟨_, rfl⟩
  have hbegin : begin options s request now freshId = (some (.ok ⟨false, record⟩), t) := by
    simp only [begin, hkey, if_neg hne, hvalid, Bool.true_eq_false, if_false, hread, claim,
      hcreated, hexpires, Option.bind_eq_bind, Option.bind_some, ← hrecord, hwrite]
  refine ⟨expires, t, hexpires, by rw [hbegin], by rw [hbegin]; rfl, fun other ↦ ?_,
    knownKeys_write hwrite⟩
  exact lease_write (readable_claimRecord ..) hwrite other

/-- A clock whose dates do not exist leaves the store as it is. -/
theorem begin_throws (freshId : JsString) (hkey : request.key = some key)
    (hvalid : isValidIdempotencyKey key = true) (hread : read s key = none)
    (hdates : representable options now = false) :
    begin options s request now freshId = (none, s) := by
  have hne : key ≠ [] := by rintro rfl; exact absurd hvalid (by decide)
  have hclaim : claim options s key request now freshId = none := by
    simp only [representable, Bool.and_eq_false_iff, Option.isSome_eq_false_iff,
      Option.isNone_iff_eq_none] at hdates
    rw [claim]
    rcases hdates with h | h
    · simp [h]
    · cases Date.toISOString now <;> simp [h]
  simp only [begin, hkey, if_neg hne, hvalid, Bool.true_eq_false, if_false, hread, hclaim]

/-- A `begin` with a key that has a record grants nothing; it drops the record if it has expired. -/
theorem begin_held (options : IdempotencyOptions) (hs : Owned s) (now : ℤ) (freshId : JsString)
    {existing : IdempotencyRecord} (hkey : request.key = some key)
    (hvalid : isValidIdempotencyKey key = true) (hread : read s key = some existing) :
    granted (begin options s request now freshId).1 = [] ∧
      if expiredAt options existing now then
        (begin options s request now freshId).2 = remove s key
      else SameLeases s (begin options s request now freshId).2 := by
  have hne : key ≠ [] := by rintro rfl; exact absurd hvalid (by decide)
  have hown := hs key existing hread
  simp only [begin, hkey, if_neg hne, hvalid, Bool.true_eq_false, if_false, hread]
  by_cases hexpired : expiredAt options existing now = true
  · simp only [hexpired, if_true]
    exact ⟨rfl, by rw [hown]⟩
  simp only [hexpired, Bool.false_eq_true, if_false]
  -- every branch but the last leaves the store alone
  split
  · exact ⟨rfl, .refl s⟩
  split
  · exact ⟨rfl, .refl s⟩
  split
  · exact ⟨rfl, .refl s⟩
  split
  · exact ⟨rfl, .refl s⟩
  next t hwrite =>
  refine ⟨rfl, sameLeases_write (hown.symm ▸ hread) (readable_of_read hread).replayed ?_ ?_ hwrite⟩
  · rw [IdempotencyRecord.key, get_assign_of_ne (by decide), IdempotencyRecord.key]
  · rw [IdempotencyRecord.expiresAt, get_assign_of_ne (by decide), IdempotencyRecord.expiresAt]

/-! ### Sweeping -/

/-- What is listed can be read under some key. -/
theorem exists_read_of_mem_all (h : record ∈ all options s) : ∃ key, read s key = some record := by
  rw [all] at h
  split at h
  · obtain ⟨⟨name, raw⟩, hentry, hparse⟩ := mem_filterMap.1 h
    simp only at hparse
    split at hparse
    · next hprefix =>
      obtain ⟨key, rfl⟩ := isPrefixOf_iff_prefix.1 hprefix
      exact ⟨key, by rw [read, storageKey, Dict.mem_entries_iff.1 hentry]; exact hparse⟩
    · cases hparse
  · obtain ⟨key, -, hread⟩ := mem_filterMap.1 h
    exact ⟨key, hread⟩

/-- What can be read under a known key is listed. -/
theorem mem_all_of_read (hread : read s key = some record) (hknown : key ∈ s.knownKeys) :
    record ∈ all options s := by
  rw [all]
  split
  · obtain ⟨raw, hraw, hparse⟩ := Option.bind_eq_some_iff.1 hread
    refine mem_filterMap.2 ⟨(storageKey key, raw), Dict.mem_entries_iff.2 hraw, ?_⟩
    have hprefix : startsWith (storageKey key) idempotencyStoragePrefix = true :=
      isPrefixOf_iff_prefix.2 (prefix_append _ _)
    rw [if_pos hprefix]
    exact hparse
  · exact mem_filterMap.2 ⟨key, hknown, hread⟩

/-- Forgetting keys ends their leases and no others. -/
theorem lease_foldl_forget (keys : List JsString) : ∀ (s : Store) (key : JsString),
    lease (keys.foldl forget s) key = if key ∈ keys then none else lease s key := by
  induction keys with
  | nil => intro s key; simp
  | cons k keys ih =>
    intro s key
    have hforget : lease (forget s k) key = if k = key then none else lease s key :=
      lease_remove s k key
    rw [foldl_cons, ih, hforget]
    simp only [mem_cons, eq_comm (a := key)]
    by_cases hk : k = key <;> by_cases hmem : key ∈ keys <;> simp [hk, hmem]

theorem mem_knownKeys_foldl_forget (keys : List JsString) : ∀ (s : Store) (key : JsString),
    key ∈ (keys.foldl forget s).knownKeys ↔ key ∈ s.knownKeys ∧ key ∉ keys := by
  induction keys with
  | nil => intro s key; simp
  | cons k keys ih =>
    intro s key
    have hforget : key ∈ (forget s k).knownKeys ↔ key ∈ s.knownKeys ∧ key ≠ k := by
      simp [forget, remove]
    rw [foldl_cons, ih, hforget, mem_cons, not_or, and_assoc]

section

variable (options : IdempotencyOptions)

/-- The keys that a sweep drops. -/
def swept (s : Store) (at' : ℤ) : List JsString :=
  ((all options s).filter fun record ↦ expiredAt options record at').map IdempotencyRecord.key

/-- A sweep removes the expired records of the keys it knows. -/
theorem mem_swept (hs : Owned s) (at' : ℤ)
    (hknown : ∀ record, read s key = some record → key ∈ s.knownKeys) :
    key ∈ swept options s at' ↔
      ∃ record, read s key = some record ∧ expiredAt options record at' = true := by
  simp only [swept, mem_map, mem_filter]
  constructor
  · rintro ⟨record, ⟨hall, hexpired⟩, rfl⟩
    obtain ⟨key, hread⟩ := exists_read_of_mem_all hall
    exact ⟨record, (hs key record hread).symm ▸ hread, hexpired⟩
  · rintro ⟨record, hread, hexpired⟩
    exact ⟨record, ⟨mem_all_of_read hread (hknown record hread), hexpired⟩, hs key record hread⟩

/-! ### The store follows the histories -/

/-- What the storage holds for a key with this history. -/
def Follows (key : JsString) :
    KeyHistory → Option (JsString × JsString) → Prop
  | .live expiry, l => ∃ expires, l = some (key, expires) ∧
      Date.parse options.otherDate expires = some expiry
  | _, l => l = none

end

/-- The store of a run follows the histories of its keys. -/
structure Tracks (options : IdempotencyOptions) (r : ClaimRun) : Prop where
  follows : ∀ key, Follows options key (r.history key) (lease r.store key)
  known : ∀ key expiry, r.history key = .live expiry → key ∈ r.store.knownKeys
  claimed : ∀ key, key ∈ r.claims ↔ r.history key ≠ .fresh
  once : r.claims.Nodup

variable {r : ClaimRun}

/-- The store follows the history before the first call. -/
theorem tracks_init : Tracks options {} where
  follows _ := rfl
  known _ _ h := by cases h
  claimed key := by simp
  once := nodup_nil

section

variable (h : Tracks options r)
include h

/-- A key with a record is live, and the record says until when. -/
theorem Tracks.live_of_read (hread : read r.store key = some record) :
    record.key = key ∧ ∃ expiry, r.history key = .live expiry ∧
      ∀ now, expiredAt options record now = decide (expiry ≤ now) := by
  have hfollows := h.follows key
  have hlease : lease r.store key = some (record.key, record.expiresAt) := by
    rw [lease, hread, Option.map_some]
  rw [hlease] at hfollows
  cases hhistory : r.history key with
  | live expiry =>
    rw [hhistory] at hfollows
    obtain ⟨expires, hpair, hparse⟩ := hfollows
    obtain ⟨hkey, hexpires⟩ := Prod.mk.inj (Option.some.inj hpair)
    exact ⟨hkey, expiry, rfl, fun now ↦ by rw [expiredAt, hexpires, hparse]; rfl⟩
  | fresh => rw [hhistory] at hfollows; exact absurd hfollows (by simp [Follows])
  | dropped => rw [hhistory] at hfollows; exact absurd hfollows (by simp [Follows])

theorem Tracks.owned : Owned r.store :=
  fun _ _ hread ↦ (h.live_of_read hread).1

/-- A live key has a record. -/
theorem Tracks.read_of_live {expiry : ℤ}
    (hlive : r.history key = .live expiry) : ∃ record, read r.store key = some record := by
  have hfollows := h.follows key
  rw [hlive] at hfollows
  obtain ⟨expires, hlease, -⟩ := hfollows
  obtain ⟨record, hread, -⟩ := Option.map_eq_some_iff.1 hlease
  exact ⟨record, hread⟩

/-- A key that is not live has no record. -/
theorem Tracks.read_eq_none
    (hlive : ∀ expiry, r.history key ≠ .live expiry) : read r.store key = none := by
  have hfollows := h.follows key
  refine Option.map_eq_none_iff.1 (show lease r.store key = none from ?_)
  cases hhistory : r.history key with
  | live expiry => exact absurd hhistory (hlive expiry)
  | fresh => rw [hhistory] at hfollows; exact hfollows
  | dropped => rw [hhistory] at hfollows; exact hfollows

/-- **Dropping keeps the invariant**: every key is as it was, or it was live, has lost its record
and is dropped. -/
theorem Tracks.of_dropping {history : JsString → KeyHistory}
    (hkeys : ∀ key,
      (history key = r.history key ∧ lease t key = lease r.store key ∧
        (key ∈ r.store.knownKeys → key ∈ t.knownKeys)) ∨
      ((∃ expiry, r.history key = .live expiry) ∧ history key = .dropped ∧ lease t key = none)) :
    Tracks options ⟨t, r.claims, history⟩ where
  follows key := by
    show Follows options key (history key) (lease t key)
    rcases hkeys key with ⟨hhistory, hlease, -⟩ | ⟨-, hhistory, hlease⟩
    · rw [hhistory, hlease]
      exact h.follows key
    · rw [hhistory, hlease]
      rfl
  known key expiry hlive := by
    rcases hkeys key with ⟨hhistory, -, hknown⟩ | ⟨-, hhistory, -⟩
    · exact hknown (h.known key expiry (hhistory ▸ hlive))
    · exact absurd (hhistory.symm.trans hlive) (by simp)
  claimed key := by
    show key ∈ r.claims ↔ history key ≠ .fresh
    rcases hkeys key with ⟨hhistory, -, -⟩ | ⟨⟨expiry, hlive⟩, hhistory, -⟩
    · rw [hhistory]
      exact h.claimed key
    · simp [hhistory, h.claimed key, hlive]
  once := h.once

/-- A call that keeps the leases keeps the store in step. -/
theorem Tracks.of_sameLeases (ht : SameLeases r.store t) :
    Tracks options ⟨t, r.claims, r.history⟩ :=
  h.of_dropping fun key ↦ .inl ⟨rfl, ht.lease key, fun hknown ↦ ht.known ▸ hknown⟩

/-- Looking at one key, and removing its record if it has expired. -/
theorem Tracks.look (hread : read r.store key = some record)
    (ht : if expiredAt options record now then t = remove r.store key else SameLeases r.store t) :
    Tracks options ⟨t, r.claims, fun other ↦
      if key = other then (r.history other).seenAt now else r.history other⟩ := by
  obtain ⟨-, expiry, hlive, hexpired⟩ := h.live_of_read hread
  rw [hexpired] at ht
  refine h.of_dropping fun other ↦ ?_
  by_cases hnow : expiry ≤ now
  · simp only [hnow, decide_true, if_true] at ht
    subst ht
    by_cases hother : key = other
    · subst hother
      refine .inr ⟨⟨expiry, hlive⟩, ?_, ?_⟩
      · simp [hlive, KeyHistory.seenAt, hnow]
      · rw [lease_remove, if_pos rfl]
    · refine .inl ⟨if_neg hother, ?_, fun hknown ↦ hknown⟩
      rw [lease_remove, if_neg hother]
  · simp only [hnow, decide_false, Bool.false_eq_true, if_false] at ht
    refine .inl ⟨?_, ht.lease other, fun hknown ↦ ht.known ▸ hknown⟩
    split
    · next hother => rw [← hother, hlive, KeyHistory.seenAt, if_neg hnow]
    · rfl

/-- Looking at a key without a record changes nothing. -/
theorem Tracks.look_none (hread : read r.store key = none) :
    Tracks options ⟨r.store, r.claims, fun other ↦
      if key = other then (r.history other).seenAt now else r.history other⟩ := by
  refine h.of_dropping fun other ↦ .inl ⟨?_, rfl, id⟩
  split
  · next hother =>
    subst hother
    cases hhistory : r.history key with
    | live expiry =>
      obtain ⟨record, hrecord⟩ := h.read_of_live hhistory
      cases hread.symm.trans hrecord
    | _ => rfl
  · rfl

/-- A lookup drops the key if it finds it expired, in both. -/
theorem Tracks.lookup (key : JsString) (now : ℤ) :
    Tracks options (claimStep options r (.lookup key now)) := by
  simp only [claimStep, StoreCall.run, append_nil]
  cases hread : read r.store key with
  | none =>
    have hstore : (Idempotency.lookup options r.store key now).2 = r.store := by
      rw [Idempotency.lookup, hread]
    rw [hstore]
    exact h.look_none hread
  | some record =>
    refine h.look hread ?_
    have hown := h.owned key record hread
    rw [Idempotency.lookup, hread]
    by_cases hexpired : expiredAt options record now = true
    · simp only [hexpired, if_true, hown]
    · simp only [hexpired, Bool.false_eq_true, if_false]
      exact .refl _

/-- A sweep drops every expired key, in both. -/
theorem Tracks.sweep (at' : ℤ) :
    Tracks options (claimStep options r (.sweep at')) := by
  simp only [claimStep, StoreCall.run, append_nil]
  have hknown : ∀ key record, read r.store key = some record → key ∈ r.store.knownKeys :=
    fun key record hread ↦ by
      obtain ⟨-, expiry, hlive, -⟩ := h.live_of_read hread
      exact h.known key expiry hlive
  have hstore : (Idempotency.sweep options r.store at').2 =
      (swept options r.store at').foldl forget r.store := rfl
  rw [hstore]
  refine h.of_dropping fun key ↦ ?_
  rw [lease_foldl_forget, mem_knownKeys_foldl_forget]
  have hswept := mem_swept options h.owned at' (hknown key)
  by_cases hmem : key ∈ swept options r.store at'
  · obtain ⟨record, hread, hexpired⟩ := hswept.1 hmem
    obtain ⟨-, expiry, hlive, hdate⟩ := h.live_of_read hread
    have hnow : expiry ≤ at' := of_decide_eq_true ((hdate at').symm.trans hexpired)
    refine .inr ⟨⟨expiry, hlive⟩, ?_, if_pos hmem⟩
    simp [StoreCall.tell, hlive, KeyHistory.seenAt, hnow]
  · refine .inl ⟨?_, if_neg hmem, fun hk ↦ ⟨hk, hmem⟩⟩
    cases hhistory : r.history key with
    | live expiry =>
      obtain ⟨record, hread⟩ := h.read_of_live hhistory
      obtain ⟨-, expiry', hlive, hdate⟩ := h.live_of_read hread
      obtain rfl : expiry = expiry' := by simpa [hhistory] using hlive
      have hnow : ¬expiry ≤ at' := fun hle ↦
        hmem (hswept.2 ⟨record, hread, (hdate at').trans (decide_eq_true hle)⟩)
      simp [StoreCall.tell, hhistory, KeyHistory.seenAt, hnow]
    | _ => simp [StoreCall.tell, hhistory, KeyHistory.seenAt]

end

/-! ### Beginning -/

theorem mem_addKey {keys : List JsString} {other : JsString} :
    other ∈ addKey keys key ↔ other ∈ keys ∨ other = key := by
  rw [addKey]
  split
  · next h => exact ⟨.inl, fun hother ↦ hother.elim id fun heq ↦ heq ▸ h⟩
  · simp

/-- The histories after a `begin` with a well-formed key. -/
theorem tell_begin (hkey : request.key = some key) (hvalid : isValidIdempotencyKey key = true)
    (now : ℤ) (freshId : JsString) (history : JsString → KeyHistory) :
    StoreCall.tell options history (.begin request now freshId) = fun other ↦
      if key = other then (history other).begun options now else history other := by
  funext other
  simp only [StoreCall.tell, hkey, Option.some.injEq]
  by_cases hother : key = other
  · subst hother
    simp [hvalid]
  · simp [hother]

section

variable (h : Tracks options r)
include h

/-- A claim on a fresh key. -/
theorem Tracks.claim (freshId : JsString) (hkey : request.key = some key)
    (hvalid : isValidIdempotencyKey key = true) (hfresh : r.history key = .fresh)
    (hdates : representable options now = true) :
    Tracks options (claimStep options r (.begin request now freshId)) := by
  have hread : read r.store key = none := h.read_eq_none fun expiry ↦ by simp [hfresh]
  obtain ⟨expires, t, hexpires, hstore, hgranted, hlease, hknown⟩ :=
    begin_claims freshId hkey hvalid hread hdates
  simp only [claimStep, StoreCall.run, hstore, hgranted, tell_begin hkey hvalid]
  have hbegun : (r.history key).begun options now = .live (now + options.ttlMs) := by
    rw [hfresh, KeyHistory.begun, if_pos hdates]
    simp
  refine ⟨fun other ↦ ?_, fun other expiry hlive ↦ ?_, fun other ↦ ?_, ?_⟩
  · simp only [hlease]
    by_cases hother : key = other
    · subst hother
      simp only [if_true, hbegun]
      exact ⟨expires, rfl, Date.parse_toISOString hexpires _⟩
    · simp only [if_neg hother]
      exact h.follows other
  · simp only [hknown, mem_addKey]
    by_cases hother : key = other
    · exact .inr hother.symm
    · simp only [if_neg hother] at hlive
      exact .inl (h.known other expiry hlive)
  · rw [mem_append, mem_singleton, h.claimed]
    by_cases hother : key = other
    · subst hother
      simp [hbegun]
    · simp [hother, Ne.symm hother]
  · have habsent : key ∉ r.claims := fun hmem ↦ (h.claimed key).1 hmem hfresh
    exact nodup_append.2 ⟨h.once, nodup_singleton _, fun a ha b hb ↦ by
      rintro rfl
      exact habsent (mem_singleton.1 hb ▸ ha)⟩

/-- **A `begin` that revives no dropped key keeps the invariant.** -/
theorem Tracks.begin {freshId : JsString}
    (hok : NotRevived options r (.begin request now freshId)) :
    Tracks options (claimStep options r (.begin request now freshId)) := by
  by_cases hkeys : ∃ key, request.key = some key ∧ isValidIdempotencyKey key = true
  · obtain ⟨key, hkey, hvalid⟩ := hkeys
    by_cases hlive : ∃ expiry, r.history key = .live expiry
    · obtain ⟨expiry, hlive⟩ := hlive
      obtain ⟨record, hread⟩ := h.read_of_live hlive
      obtain ⟨hgranted, hstore⟩ := begin_held options h.owned now freshId hkey hvalid hread
      have htell : StoreCall.tell options r.history (.begin request now freshId) = fun other ↦
          if key = other then (r.history other).seenAt now else r.history other := by
        rw [tell_begin hkey hvalid]
        funext other
        split
        · next hother => rw [← hother, hlive, KeyHistory.begun]
        · rfl
      simp only [claimStep, StoreCall.run, hgranted, append_nil, htell]
      exact h.look hread hstore
    · rw [not_exists] at hlive
      by_cases hdates : representable options now = true
      · have hdropped := hok key hkey hvalid hdates
        have hfresh : r.history key = .fresh := by
          cases hhistory : r.history key with
          | fresh => rfl
          | live expiry => exact absurd hhistory (hlive expiry)
          | dropped => exact absurd hhistory hdropped
        exact h.claim freshId hkey hvalid hfresh hdates
      · have hbegin := begin_throws freshId hkey hvalid (h.read_eq_none hlive)
          (Bool.eq_false_iff.2 hdates)
        have htell : StoreCall.tell options r.history (.begin request now freshId) = r.history := by
          rw [tell_begin hkey hvalid]
          funext other
          split
          · next hother =>
            subst hother
            cases hhistory : r.history key with
            | live expiry => exact absurd hhistory (hlive expiry)
            | _ => rw [KeyHistory.begun, if_neg hdates]; simp
          · rfl
        simp only [claimStep, StoreCall.run, hbegin, granted, append_nil, htell]
        exact h
  · -- a missing or malformed key changes nothing
    obtain ⟨hgranted, hstore⟩ : granted (Idempotency.begin options r.store request now freshId).1 =
        [] ∧ (Idempotency.begin options r.store request now freshId).2 = r.store := by
      rw [Idempotency.begin]
      split
      · exact ⟨rfl, rfl⟩
      next key hkey =>
      split
      · exact ⟨rfl, rfl⟩
      · rw [if_pos (Bool.eq_false_iff.2 fun hvalid ↦ hkeys ⟨key, hkey, hvalid⟩)]
        exact ⟨rfl, rfl⟩
    have htell : StoreCall.tell options r.history (.begin request now freshId) = r.history := by
      funext other
      exact if_neg fun hkey ↦ hkeys ⟨other, hkey⟩
    simp only [claimStep, StoreCall.run, hgranted, hstore, append_nil, htell]
    exact h

/-! ### Runs -/

/-- **One call.** -/
theorem Tracks.step (call : StoreCall) (hok : NotRevived options r call) :
    Tracks options (claimStep options r call) := by
  cases call with
  | begin request now freshId => exact h.begin hok
  | lookup key now => exact h.lookup key now
  | sweep at' => exact h.sweep at'
  | complete key response =>
    simp only [claimStep, StoreCall.run, append_nil]
    exact h.of_sameLeases (sameLeases_conclude h.owned (fun _ h ↦ h.completedWith response.2)
      (key_completedWith · _) (expiresAt_completedWith · _))
  | fail key errorCode =>
    simp only [claimStep, StoreCall.run, append_nil]
    exact h.of_sameLeases (sameLeases_conclude h.owned (fun _ h ↦ h.failedWith errorCode)
      (key_failedWith · _) (expiresAt_failedWith · _))

/-- Beginning with a dropped key claims it a second time. -/
theorem Tracks.not_nodup_of_revived {call : StoreCall} (hrevived : ¬NotRevived options r call) :
    ¬(claimStep options r call).claims.Nodup := by
  cases call with
  | begin request now freshId =>
    simp only [NotRevived, not_forall, not_not] at hrevived
    obtain ⟨key, hkey, hvalid, hdates, hdropped⟩ := hrevived
    have hread : read r.store key = none := h.read_eq_none fun expiry ↦ by simp [hdropped]
    obtain ⟨-, -, -, -, hgranted, -⟩ := begin_claims freshId hkey hvalid hread hdates
    have hclaimed : key ∈ r.claims := (h.claimed key).2 (by simp [hdropped])
    simp only [claimStep, StoreCall.run, hgranted]
    intro hnodup
    exact (nodup_append.1 hnodup).2.2 key hclaimed key (mem_singleton_self _) rfl
  | _ => exact absurd trivial hrevived

end

/-- **Every key is claimed at most once exactly if no dropped key is begun again**: along any
sequence of calls on a new store, at any clock readings. -/
theorem claims_nodup_iff_not_revived (options : IdempotencyOptions) (calls : List StoreCall) :
    Always (claimStep options) (fun r ↦ r.claims.Nodup) {} calls ↔
      Meets (claimStep options) (NotRevived options) {} calls :=
  always_iff_meets (fun r call (h : Tracks options r) hok ↦ h.step call hok) (fun _ h ↦ h.once)
    (fun _ _ h hnodup ↦ by_contra fun hrevived ↦ h.not_nodup_of_revived hrevived hnodup)
    tracks_init calls

/-- A `begin` with the key `order-42`. -/
def beginOrder (now : ℤ) : StoreCall :=
  .begin ⟨some (js "order-42"), js "worker.enqueue", .null, none⟩ now (js "c1")

/-- With a lifetime of one millisecond, `order-42` is claimed at 0, refused as expired at 5, and
**claimed again** at 6. -/
theorem claimed_again_after_expiry :
    (run (claimStep { ttlMs := 1 }) {} [beginOrder 0, beginOrder 5, beginOrder 6]).claims =
      [js "order-42", js "order-42"] := by
  decide +kernel

end Utix.Idempotency

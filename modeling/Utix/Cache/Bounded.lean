import Utix.Lib.Recency
import Utix.Lib.Simulation
import Utix.Workers.Gate

/-!
# The bounded cache

`createBoundedCache` of `core/cache/bounded-cache.ts`: a `Map` of entries with a bound on its size
and a time to live for each entry, and a second `Map` that names the load in flight for a key. A
read that hits and a write that is accepted delete the key and insert it again, so that the first
key of the `Map` is the one to evict.

Every operation takes the reading of the injected clock it makes, in whole milliseconds. The loads
in flight are in `Utix.Cache.Loads`; here they are only dropped.

An entry has expired when more than its time to live has passed since it was cached, and is then as
good as absent: a read deletes it, and a write replaces it whatever sequence it carries. Reading
counts as a use only if it hits. The counters of the source are in the state, and no call reads
them.
-/

namespace Utix.Cache

open Js Lib
open Workers (Role)

/-! ### Options and entries -/

inductive CacheReadErrorCode
  | cacheMiss
  | cacheExpired
deriving DecidableEq

structure BoundedCacheOptions where
  maxEntries : ℤ
  ttlMs : ℤ
  schemaVersion : ℤ := 1

structure CacheWriteOptions where
  ttlMs : Option ℤ := none
  ledgerSequence : Option ℤ := none
  sourceEntityId : Option JsString := none

structure StoredEntry (V : Type) where
  value : V
  cachedAt : ℤ
  ttlMs : ℤ
  version : ℤ
  ledgerSequence : Option ℤ
  sourceEntityId : Option JsString
deriving DecidableEq

structure CacheEntry (V : Type) extends StoredEntry V where
  key : JsString

/-- `requirePositiveInteger` accepts the number. -/
def isPositiveInteger (value : ℤ) : Bool := 1 ≤ value && value ≤ 2 ^ 53 - 1

/-- The message of the `RangeError` of `requirePositiveInteger`. -/
def rangeMessage (name : JsString) (value : ℤ) : JsString :=
  name ++ js " must be a positive safe integer, received " ++ (JsNum.ofInt value).text

/-- The variables of a cache; a load in flight is named by a number. -/
structure BoundedCache (V : Type) where
  entries : Dict JsString (StoredEntry V) := .empty
  inflight : Dict JsString ℕ := .empty
  hits : ℕ := 0
  misses : ℕ := 0
  evictions : ℕ := 0
  invalidations : ℕ := 0

/-- `createBoundedCache(options)`; `none` is the `RangeError`. -/
def createBoundedCache (V : Type) (options : BoundedCacheOptions) : Option (BoundedCache V) :=
  if isPositiveInteger options.maxEntries && isPositiveInteger options.ttlMs &&
      isPositiveInteger options.schemaVersion then
    some {}
  else none

section

variable {V : Type}

def isExpired (entry : StoredEntry V) (at' : ℤ) : Bool := at' - entry.cachedAt > entry.ttlMs

def toCacheEntry (key : JsString) (entry : StoredEntry V) : CacheEntry V := { entry with key }

/-! ### Reading and writing -/

def get (c : BoundedCache V) (key : JsString) (now : ℤ) :
    Except CacheReadErrorCode V × BoundedCache V :=
  match c.entries.get key with
  | none => (.error .cacheMiss, { c with misses := c.misses + 1 })
  | some entry =>
    if isExpired entry now then
      (.error .cacheExpired, { c with entries := c.entries.erase key, misses := c.misses + 1 })
    else
      (.ok entry.value, { c with entries := Recency.touch c.entries key entry, hits := c.hits + 1 })

/-- What `set` answers. -/
inductive WriteAnswer
  | thrown (message : JsString)
  /-- `err("cache_stale_write")` -/
  | refused
  | stored
deriving DecidableEq

section

variable (options : BoundedCacheOptions)

/-- The entry that a write stores. -/
def entryOf (value : V) (write : CacheWriteOptions) (now : ℤ) : StoredEntry V where
  value := value
  cachedAt := now
  ttlMs := write.ttlMs.getD options.ttlMs
  version := options.schemaVersion
  ledgerSequence := write.ledgerSequence
  sourceEntityId := write.sourceEntityId

/-- The write carries an older ledger than the entry it would replace. -/
def isStaleWrite (current : StoredEntry V) (write : CacheWriteOptions) (now : ℤ) : Bool :=
  !isExpired current now && current.ledgerSequence.any fun there ↦
    write.ledgerSequence.any fun new ↦ new < there

/-- Delete the first key if there are too many. -/
def evictFirst (c : BoundedCache V) : BoundedCache V :=
  if options.maxEntries < c.entries.entries.length then
    match c.entries.entries with
    | [] => c
    | (first, _) :: _ =>
      { c with entries := c.entries.erase first, evictions := c.evictions + 1 }
  else c

def set (c : BoundedCache V) (key : JsString) (value : V) (write : CacheWriteOptions) (now : ℤ) :
    WriteAnswer × BoundedCache V :=
  if write.ttlMs.any fun ttl ↦ !isPositiveInteger ttl then
    (.thrown (rangeMessage (js "ttlMs") (write.ttlMs.getD 0)), c)
  else if (c.entries.get key).any fun current ↦ isStaleWrite current write now then (.refused, c)
  else
    (.stored, evictFirst options
      { c with entries := Recency.touch c.entries key (entryOf options value write now) })

end

/-! ### Invalidation -/

def invalidate (c : BoundedCache V) (key : JsString) : Bool × BoundedCache V :=
  let removed := (c.entries.get key).isSome
  (removed,
    { c with
      inflight := c.inflight.erase key
      entries := c.entries.erase key
      invalidations := if removed then c.invalidations + 1 else c.invalidations })

/-- The keys whose entry the predicate selects. -/
def selectedKeys (c : BoundedCache V) (predicate : CacheEntry V → Bool) : List JsString :=
  (c.entries.entries.filter fun e ↦ predicate (toCacheEntry e.1 e.2)).map Prod.fst

/-- The keys that a predicate selects are those of the stored entries it holds of. -/
theorem mem_selectedKeys_iff {c : BoundedCache V} {predicate : CacheEntry V → Bool}
    {key : JsString} :
    key ∈ selectedKeys c predicate ↔
      (c.entries.get key).any (fun entry ↦ predicate (toCacheEntry key entry)) = true := by
  rw [Option.any_eq_true]
  constructor
  · intro hkey
    obtain ⟨⟨_, entry⟩, hentry, rfl⟩ := List.mem_map.1 hkey
    obtain ⟨hentry, hselected⟩ := List.mem_filter.1 hentry
    exact ⟨entry, Dict.mem_entries_iff.1 hentry, hselected⟩
  · rintro ⟨entry, hentry, hselected⟩
    exact List.mem_map.2
      ⟨(key, entry), List.mem_filter.2 ⟨Dict.mem_entries_iff.2 hentry, hselected⟩, rfl⟩

/-- `invalidateWhere(predicate)`. The loop deletes the key it stands at, which a `Map` allows. -/
def invalidateWhere (c : BoundedCache V) (predicate : CacheEntry V → Bool) : ℕ × BoundedCache V :=
  let keys := selectedKeys c predicate
  (keys.length,
    { c with
      entries := c.entries.filterKeys fun key ↦ key ∉ keys
      inflight := c.inflight.filterKeys fun key ↦ key ∉ keys
      invalidations := c.invalidations + keys.length })

/-- `clear(auth, reason)`; `none` is `err("cache_unauthorized")`. -/
def clear (c : BoundedCache V) (role : Role) : Option ℕ × BoundedCache V :=
  if role.mayRecover = false then (none, c)
  else
    let removed := c.entries.entries.length
    (some removed,
      { c with
        entries := .empty
        inflight := .empty
        invalidations := c.invalidations + removed })

/-! ### Calls -/

variable (V) in
/-- A call of the cache, with the reading of the clock. -/
inductive CacheCall
  | get (key : JsString) (now : ℤ)
  | set (key : JsString) (value : V) (write : CacheWriteOptions) (now : ℤ)
  | invalidate (key : JsString)
  | invalidateWhere (predicate : CacheEntry V → Bool)
  | clear (role : Role)

variable (V) in
/-- What a call answers. -/
inductive CacheAnswer
  | read (result : Except CacheReadErrorCode V)
  | written (answer : WriteAnswer)
  | invalidated (removed : Bool)
  | swept (removed : ℕ)
  | flushed (removed : Option ℕ)

def answer (options : BoundedCacheOptions) (c : BoundedCache V) :
    CacheCall V → CacheAnswer V × BoundedCache V
  | .get key now => ((get c key now).map .read id)
  | .set key value write now => ((set options c key value write now).map .written id)
  | .invalidate key => (invalidate c key).map .invalidated id
  | .invalidateWhere predicate => (invalidateWhere c predicate).map .swept id
  | .clear role => (clear c role).map .flushed id

end

end Utix.Cache

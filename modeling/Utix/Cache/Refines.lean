import Mathlib.Data.List.ReduceOption
import Mathlib.Data.Set.Card
import Utix.Cache.Bounded

/-!
# What the bounded cache is for

`Contents` is the cache as a user thinks of it: which entries there are, when each of them was last
used, and the ledger sequences of the writes since it came into being. No order of a `Map` occurs in
it. A `set` that brings it above its bound loses an entry that was not used for longest; a `set` is
refused if the entry there has not expired and a write since the last one *without* a sequence
carried a higher one.

`answer_refines`: the cache gives the answers that `Contents.Step` allows, call by call, and lists
its entries in the order of their last use. A write without a sequence ends the protection of the
earlier ones, since the entry that replaces it only knows its own.
-/

namespace Utix.Cache

open Js Lib List Option Bool Dict
open Workers (Role)

/-! ### The specification -/

/-- An entry, when it was last used, and the sequences of the writes of its life, newest first. -/
structure Slot (V : Type) where
  entry : StoredEntry V
  used : ℕ
  life : List (Option ℤ)

/-- The sequences since the last write that carried none. -/
def sequencesOf (life : List (Option ℤ)) : List ℤ := (life.takeWhile Option.isSome).reduceOption

/-- The contents of a cache, and how many uses there were. -/
structure Contents (V : Type) where
  slots : JsString → Option (Slot V)
  uses : ℕ

namespace Contents

variable {V : Type}

/-- Nothing is there. -/
def empty : Contents V := ⟨fun _ ↦ none, 0⟩

section

variable (s : Contents V)

/-- The keys that are there. -/
def keys : Set JsString := { key | (s.slots key).isSome = true }

/-- When a key was last used. -/
def usedAt (key : JsString) : ℕ := (s.slots key).elim 0 Slot.used

/-- Without a key. -/
def drop (key : JsString) : Contents V :=
  { s with slots := Function.update s.slots key none }

/-- The keys of the entries that a predicate selects. -/
def selected (predicate : CacheEntry V → Bool) : Set JsString :=
  { key | ∃ slot, s.slots key = some slot ∧ predicate (toCacheEntry key slot.entry) = true }

/-- Without those entries. -/
def dropWhere (predicate : CacheEntry V → Bool) : Contents V :=
  { s with slots := fun key ↦
      (s.slots key).filter fun slot ↦ !predicate (toCacheEntry key slot.entry) }

section

variable (key : JsString)

/-- Use a key now. -/
def use (entry : StoredEntry V) (life : List (Option ℤ)) : Contents V where
  slots := Function.update s.slots key (some ⟨entry, s.uses, life⟩)
  uses := s.uses + 1

/-- The life of the entry that a write at `now` continues: none, if it replaces nothing that is
live. -/
def lifeAt (now : ℤ) : List (Option ℤ) :=
  ((s.slots key).filter fun slot ↦ !isExpired slot.entry now).elim [] Slot.life

/-- Some live write since the last one without a sequence carried a higher one. -/
def Protects (write : CacheWriteOptions) (now : ℤ) : Prop :=
  ∃ slot, s.slots key = some slot ∧ isExpired slot.entry now = false ∧
    ∃ new, write.ledgerSequence = some new ∧ ∃ there ∈ sequencesOf slot.life, new < there

/-- The contents after an accepted write, before anything is evicted. -/
def write (options : BoundedCacheOptions) (key : JsString) (value : V) (write : CacheWriteOptions)
    (now : ℤ) : Contents V :=
  s.use key (entryOf options value write now) (write.ledgerSequence :: s.lifeAt key now)

/-- No key that is there was used before this one. -/
def IsLeastUsed : Prop :=
  key ∈ s.keys ∧ ∀ other ∈ s.keys, s.usedAt key ≤ s.usedAt other

end

end

/-- **What a call may answer, and what it does.** -/
inductive Step (options : BoundedCacheOptions) :
    Contents V → CacheCall V → CacheAnswer V → Contents V → Prop
  | miss {s : Contents V} {key : JsString} {now : ℤ} (hnone : s.slots key = none) :
      Step options s (.get key now) (.read (.error .cacheMiss)) s
  | expired {s : Contents V} {key : JsString} {now : ℤ} {slot : Slot V}
      (hslot : s.slots key = some slot) (hexpired : isExpired slot.entry now = true) :
      Step options s (.get key now) (.read (.error .cacheExpired)) (s.drop key)
  | hit {s : Contents V} {key : JsString} {now : ℤ} {slot : Slot V}
      (hslot : s.slots key = some slot) (hlive : isExpired slot.entry now = false) :
      Step options s (.get key now) (.read (.ok slot.entry.value)) (s.use key slot.entry slot.life)
  | badTtl {s : Contents V} {key : JsString} {value : V} {write : CacheWriteOptions} {now ttl : ℤ}
      (httl : write.ttlMs = some ttl) (hbad : isPositiveInteger ttl = false) :
      Step options s (.set key value write now)
        (.written (.thrown (rangeMessage (js "ttlMs") ttl))) s
  | refused {s : Contents V} {key : JsString} {value : V} {write : CacheWriteOptions} {now : ℤ}
      (httl : ∀ ttl, write.ttlMs = some ttl → isPositiveInteger ttl = true)
      (hprotects : s.Protects key write now) :
      Step options s (.set key value write now) (.written .refused) s
  | stored {s : Contents V} {key : JsString} {value : V} {write : CacheWriteOptions} {now : ℤ}
      (httl : ∀ ttl, write.ttlMs = some ttl → isPositiveInteger ttl = true)
      (hfree : ¬s.Protects key write now)
      (hroom : ((s.write options key value write now).keys.ncard : ℤ) ≤ options.maxEntries) :
      Step options s (.set key value write now) (.written .stored)
        (s.write options key value write now)
  | evicted {s : Contents V} {key victim : JsString} {value : V} {write : CacheWriteOptions}
      {now : ℤ} (httl : ∀ ttl, write.ttlMs = some ttl → isPositiveInteger ttl = true)
      (hfree : ¬s.Protects key write now)
      (hfull : options.maxEntries < (s.write options key value write now).keys.ncard)
      (hvictim : (s.write options key value write now).IsLeastUsed victim) :
      Step options s (.set key value write now) (.written .stored)
        ((s.write options key value write now).drop victim)
  | invalidated {s : Contents V} {key : JsString} :
      Step options s (.invalidate key) (.invalidated (s.slots key).isSome) (s.drop key)
  | swept {s : Contents V} {predicate : CacheEntry V → Bool} :
      Step options s (.invalidateWhere predicate)
        (.swept (s.selected predicate).ncard) (s.dropWhere predicate)
  | unauthorized {s : Contents V} {role : Role} (hrole : role.mayRecover = false) :
      Step options s (.clear role) (.flushed none) s
  | flushed {s : Contents V} {role : Role} (hrole : role.mayRecover = true) :
      Step options s (.clear role) (.flushed (some s.keys.ncard)) { s with slots := fun _ ↦ none }

end Contents

/-! ### The simulation -/

variable {V : Type} {options : BoundedCacheOptions}

/-- **The entries are the contents**, in the order of their last use. -/
structure Lists (c : BoundedCache V) (s : Contents V) : Prop where
  get_eq : ∀ key, c.entries.get key = (s.slots key).map Slot.entry
  ordered : Recency.Ordered s.usedAt c.entries
  used_lt : ∀ key slot, s.slots key = some slot → slot.used < s.uses
  life : ∀ key slot, s.slots key = some slot →
    slot.life.head? = some slot.entry.ledgerSequence ∧ (sequencesOf slot.life).Pairwise (· ≥ ·)

/-- The cache lists the contents, and not more than it may. -/
structure Holds (options : BoundedCacheOptions) (c : BoundedCache V) (s : Contents V) : Prop
    extends Lists c s where
  bounded : (c.entries.entries.length : ℤ) ≤ options.maxEntries

variable {key : JsString} {s : Contents V}

theorem usedAt_of_slot {slot : Slot V} (h : s.slots key = some slot) :
    s.usedAt key = slot.used := by
  rw [Contents.usedAt, h]
  rfl

variable {c c' : BoundedCache V} {life : List (Option ℤ)}

namespace Lists

variable {s' : Contents V}

/-- The cache and its contents have the same keys. -/
theorem isSome_iff (h : Lists c s) : (c.entries.get key).isSome = true ↔ key ∈ s.keys := by
  rw [h.get_eq, isSome_map]
  rfl

theorem mem_map_iff (h : Lists c s) : key ∈ c.entries.entries.map Prod.fst ↔ key ∈ s.keys := by
  rw [← h.isSome_iff, isSome_iff_exists]
  constructor
  · intro hkey
    obtain ⟨⟨_, entry⟩, hmem, rfl⟩ := mem_map.1 hkey
    exact ⟨entry, mem_entries_iff.1 hmem⟩
  · rintro ⟨entry, hentry⟩
    exact mem_map.2 ⟨(key, entry), mem_entries_iff.2 hentry, rfl⟩

/-- Keys without repetition are counted by their list. -/
theorem ncard_eq_length {keys : Set JsString} {ks : List JsString} (hnodup : ks.Nodup)
    (hmem : ∀ key, key ∈ ks ↔ key ∈ keys) : keys.ncard = ks.length := by
  have hset : keys = (ks.toFinset : Set JsString) := by
    ext key
    rw [coe_toFinset]
    exact (hmem key).symm
  rw [hset, Set.ncard_coe_finset, toFinset_card_of_nodup hnodup]

/-- The contents are as large as the `Map`. -/
theorem ncard_keys (h : Lists c s) : s.keys.ncard = c.entries.entries.length := by
  rw [ncard_eq_length c.entries.nodup fun _ ↦ h.mem_map_iff, length_map]

/-- **Entries can be taken out.** -/
theorem shrink (h : Lists c s) (hsub : c'.entries.entries.Sublist c.entries.entries)
    (hget : ∀ key, c'.entries.get key = (s'.slots key).map Slot.entry)
    (hslots : ∀ key slot, s'.slots key = some slot → s.slots key = some slot)
    (huses : s'.uses = s.uses) : Lists c' s' where
  get_eq := hget
  ordered := by
    refine h.ordered.of_sublist hsub fun e he ↦ ?_
    have hentry := hget e.1
    rw [mem_entries_iff.1 he] at hentry
    obtain ⟨slot, hslot, -⟩ := map_eq_some_iff.1 hentry.symm
    rw [usedAt_of_slot hslot, usedAt_of_slot (hslots _ _ hslot)]
  used_lt key slot hslot := huses ▸ h.used_lt key slot (hslots key slot hslot)
  life key slot hslot := h.life key slot (hslots key slot hslot)

theorem slots_drop (s : Contents V) (key l : JsString) :
    (s.drop key).slots l = if key = l then none else s.slots l := by
  by_cases hl : key = l
  · rw [if_pos hl, ← hl]
    exact Function.update_self key none s.slots
  · rw [if_neg hl]
    exact Function.update_of_ne (Ne.symm hl) none s.slots

/-- **A key can be deleted.** -/
theorem drop (h : Lists c s) (key : JsString) (hc : c'.entries = c.entries.erase key) :
    Lists c' (s.drop key) := by
  refine h.shrink (hc ▸ filter_sublist) (fun l ↦ ?_) (fun l slot hslot ↦ ?_) rfl
  · rw [hc, get_erase, slots_drop, h.get_eq]
    split <;> rfl
  rw [slots_drop] at hslot
  split at hslot
  · cases hslot
  · exact hslot

theorem slots_use (s : Contents V) (key l : JsString) (entry : StoredEntry V)
    (life : List (Option ℤ)) :
    (s.use key entry life).slots l = if key = l then some ⟨entry, s.uses, life⟩ else s.slots l := by
  by_cases hl : key = l
  · rw [if_pos hl, ← hl]
    exact Function.update_self key _ s.slots
  · rw [if_neg hl]
    exact Function.update_of_ne (Ne.symm hl) _ s.slots

/-- **A key can be used.** -/
theorem use (h : Lists c s) {entry : StoredEntry V}
    (hc : c'.entries = Recency.touch c.entries key entry)
    (hlife : life.head? = some entry.ledgerSequence ∧ (sequencesOf life).Pairwise (· ≥ ·)) :
    Lists c' (s.use key entry life) := by
  have huses : (s.use key entry life).uses = s.uses + 1 := rfl
  refine ⟨fun l ↦ ?_, ?_, fun l slot hslot ↦ ?_, fun l slot hslot ↦ ?_⟩
  · rw [hc, Recency.get_touch, slots_use, h.get_eq]
    split <;> rfl
  · rw [hc]
    refine h.ordered.touch (fun l hl ↦ ?_) fun l hl ↦ ?_
    · rw [Contents.usedAt, slots_use, if_neg (Ne.symm hl)]
      rfl
    -- the use that is made now is later than all others
    obtain ⟨slot, hslot⟩ := isSome_iff_exists.1 (h.isSome_iff.1 hl)
    rw [usedAt_of_slot hslot, Contents.usedAt, slots_use, if_pos rfl]
    exact h.used_lt l slot hslot
  · rw [slots_use] at hslot
    split at hslot
    · cases hslot
      exact Nat.lt_succ_self s.uses
    · exact (h.used_lt l slot hslot).trans (Nat.lt_succ_self s.uses)
  · rw [slots_use] at hslot
    split at hslot
    · cases hslot
      exact hlife
    · exact h.life l slot hslot

end Lists

/-! ### Ledger sequences -/

@[simp] theorem sequencesOf_none (life : List (Option ℤ)) : sequencesOf (none :: life) = [] := rfl

@[simp] theorem sequencesOf_some (q : ℤ) (life : List (Option ℤ)) :
    sequencesOf (some q :: life) = q :: sequencesOf life := by
  rw [sequencesOf, takeWhile_cons_of_pos rfl, reduceOption_cons_of_some]
  rfl

/-- The newest sequence is the highest, so the entry alone shows whether some write was higher. -/
theorem exists_higher_iff {last : Option ℤ} (hhead : life.head? = some last)
    (hmono : (sequencesOf life).Pairwise (· ≥ ·)) (new : ℤ) :
    (∃ there ∈ sequencesOf life, new < there) ↔ last.any (fun there ↦ new < there) = true := by
  obtain ⟨life, rfl⟩ : ∃ rest, life = last :: rest := by
    cases life with
    | nil => cases hhead
    | cons first rest => exact ⟨rest, by rw [some.inj hhead]⟩
  cases last with
  | none => simp
  | some q =>
    rw [sequencesOf_some] at hmono ⊢
    simp only [any_some, decide_eq_true_eq]
    constructor
    · rintro ⟨there, hmem, hlt⟩
      rcases mem_cons.1 hmem with rfl | hmem
      · exact hlt
      · exact lt_of_lt_of_le hlt ((pairwise_cons.1 hmono).1 there hmem)
    · exact fun hlt ↦ ⟨q, mem_cons_self, hlt⟩

variable {w : CacheWriteOptions}

namespace Lists

variable {key : JsString} {now : ℤ}

/-- **The check of `set` sees what protects the entry.** -/
theorem protects_iff (h : Lists c s) :
    s.Protects key w now ↔
      (c.entries.get key).any (fun current ↦ isStaleWrite current w now) = true := by
  rw [h.get_eq]
  constructor
  · rintro ⟨slot, hslot, hlive, new, hnew, hhigher⟩
    obtain ⟨hhead, hmono⟩ := h.life key slot hslot
    rw [exists_higher_iff hhead hmono] at hhigher
    simpa [hslot, isStaleWrite, hlive, hnew] using hhigher
  · intro hstale
    obtain ⟨current, hcurrent, hstale⟩ := (Option.any_eq_true _ _).1 hstale
    obtain ⟨slot, hslot, rfl⟩ := map_eq_some_iff.1 hcurrent
    obtain ⟨hhead, hmono⟩ := h.life key slot hslot
    rw [isStaleWrite, and_eq_true, not_eq_true'] at hstale
    obtain ⟨there, hthere, hnew⟩ := (Option.any_eq_true _ _).1 hstale.2
    obtain ⟨new, hnew, hlt⟩ := (Option.any_eq_true _ _).1 hnew
    refine ⟨slot, hslot, hstale.1, new, hnew, (exists_higher_iff hhead hmono new).2 ?_⟩
    rw [hthere]
    exact hlt

/-- An accepted write keeps the sequences in order. -/
theorem life_write (h : Lists c s) (hfree : ¬s.Protects key w now) :
    (sequencesOf (w.ledgerSequence :: s.lifeAt key now)).Pairwise (· ≥ ·) := by
  cases hnew : w.ledgerSequence with
  | none => exact List.Pairwise.nil
  | some new =>
    rw [sequencesOf_some, Contents.lifeAt]
    cases hlive : (s.slots key).filter fun slot ↦ !isExpired slot.entry now with
    | none => exact pairwise_singleton _ new
    | some slot =>
      obtain ⟨hslot, hexpired⟩ := filter_eq_some_iff.1 hlive
      rw [not_eq_true'] at hexpired
      refine pairwise_cons.2 ⟨fun there hthere ↦ ?_, (h.life key slot hslot).2⟩
      by_contra hlt
      exact hfree ⟨slot, hslot, hexpired, new, hnew, there, hthere, lt_of_not_ge hlt⟩

/-- **An accepted write.** -/
theorem write (h : Lists c s) {value : V} (hfree : ¬s.Protects key w now)
    (hc : c'.entries = Recency.touch c.entries key (entryOf options value w now)) :
    Lists c' (s.write options key value w now) :=
  h.use hc ⟨rfl, h.life_write hfree⟩

variable {predicate : CacheEntry V → Bool}

/-- A predicate selects the same keys on both levels. -/
theorem mem_selectedKeys (h : Lists c s) :
    key ∈ selectedKeys c predicate ↔ key ∈ s.selected predicate := by
  rw [mem_selectedKeys_iff, Option.any_eq_true, h.get_eq]
  constructor
  · rintro ⟨entry, hentry, hselected⟩
    obtain ⟨slot, hslot, rfl⟩ := map_eq_some_iff.1 hentry
    exact ⟨slot, hslot, hselected⟩
  · rintro ⟨slot, hslot, hselected⟩
    exact ⟨slot.entry, by rw [hslot]; rfl, hselected⟩

/-- **The selected entries can be taken out.** -/
theorem dropWhere (h : Lists c s)
    (hc : c'.entries = c.entries.filterKeys fun key ↦ key ∉ selectedKeys c predicate) :
    Lists c' (s.dropWhere predicate) := by
  have hslots : ∀ l, (s.dropWhere predicate).slots l =
      if l ∈ selectedKeys c predicate then none else s.slots l := by
    intro l
    have hfilter : (s.dropWhere predicate).slots l =
        (s.slots l).filter fun slot ↦ !predicate (toCacheEntry l slot.entry) := rfl
    rw [hfilter]
    cases hslot : s.slots l with
    | none => simp
    | some slot =>
      have hmem : l ∈ selectedKeys c predicate ↔
          predicate (toCacheEntry l slot.entry) = true := by
        rw [h.mem_selectedKeys]
        simp [Contents.selected, hslot]
      cases hselected : predicate (toCacheEntry l slot.entry) <;> simp [hmem, hselected]
  refine h.shrink (hc ▸ filter_sublist) (fun l ↦ ?_) (fun l slot hslot ↦ ?_) rfl
  · rw [hc, get_filterKeys, hslots, h.get_eq]
    by_cases hl : l ∈ selectedKeys c predicate <;> simp [hl]
  rw [hslots] at hslot
  split at hslot
  · cases hslot
  · exact hslot

end Lists

/-! ### Call by call -/

namespace Holds

/-- A read is a step of the contents, with the same answer. -/
theorem get_step (h : Holds options c s) (key : JsString) (now : ℤ) :
    ∃ s', Contents.Step options s (.get key now) (.read (get c key now).1) s' ∧
      Holds options (get c key now).2 s' := by
  have hget := h.get_eq key
  cases hslot : s.slots key with
  | none =>
    rw [hslot] at hget
    simp only [Cache.get, hget, map_none]
    exact ⟨s, .miss hslot, { h with }⟩
  | some slot =>
    rw [hslot] at hget
    simp only [Cache.get, hget, map_some]
    cases hexpired : isExpired slot.entry now with
    | true =>
      refine ⟨s.drop key, .expired hslot hexpired, h.toLists.drop key rfl, ?_⟩
      exact (Int.ofNat_le.2 (length_filter_le _ _)).trans h.bounded
    | false =>
      refine ⟨s.use key slot.entry slot.life, .hit hslot hexpired,
        h.toLists.use rfl (h.life key slot hslot), ?_⟩
      exact (Int.ofNat_le.2 (Recency.length_touch_of_get hget _)).trans h.bounded

section

variable (h : Holds options c s)
include h

/-- **What eviction does to contents that were just written.** -/
theorem evictFirst_step {value : V} {now : ℤ}
    (httl : ∀ ttl, w.ttlMs = some ttl → isPositiveInteger ttl = true)
    (hfree : ¬s.Protects key w now)
    (hc : c'.entries = Recency.touch c.entries key (entryOf options value w now)) :
    ∃ s', Contents.Step options s (.set key value w now) (.written .stored) s' ∧
      Holds options (evictFirst options c') s' := by
  have hlists : Lists c' (s.write options key value w now) := h.toLists.write hfree hc
  have hlength : (c'.entries.entries.length : ℤ) ≤ options.maxEntries + 1 := by
    have htouch := Recency.length_touch_le c.entries key (entryOf options value w now)
    have hbounded := h.bounded
    rw [hc]
    omega
  rw [evictFirst]
  split
  next hfull =>
    split
    next hnil =>
      -- an empty list is not too long
      have hbounded := h.bounded
      rw [hnil, length_nil] at hfull
      omega
    next first entry rest hhead =>
      have hfirst : (c'.entries.get first).isSome = true := by
        rw [mem_entries_iff.1 (hhead ▸ mem_cons_self)]
        rfl
      refine ⟨_, .evicted httl hfree (by rwa [hlists.ncard_keys])
        ⟨hlists.isSome_iff.1 hfirst, fun other hother ↦ ?_⟩, hlists.drop first rfl, ?_⟩
      · exact hlists.ordered.head_le hhead (hlists.isSome_iff.2 hother)
      · rw [hhead, length_cons] at hlength
        rw [Recency.entries_erase_head hhead]
        omega
  next hroom =>
    exact ⟨_, .stored httl hfree (by rw [hlists.ncard_keys]; exact not_lt.1 hroom), hlists,
      not_lt.1 hroom⟩

/-- A write is a step of the contents, with the same answer. -/
theorem set_step (key : JsString) (value : V) (w : CacheWriteOptions) (now : ℤ) :
    ∃ s', Contents.Step options s (.set key value w now)
        (.written (set options c key value w now).1) s' ∧
      Holds options (set options c key value w now).2 s' := by
  rw [set]
  split
  next hbad =>
    obtain ⟨ttl, httl, hbad⟩ := (Option.any_eq_true _ _).1 hbad
    rw [httl]
    exact ⟨s, .badTtl httl (by simpa using hbad), h⟩
  next hgood =>
    have httl : ∀ ttl, w.ttlMs = some ttl → isPositiveInteger ttl = true := fun ttl httl ↦ by
      simpa [httl] using hgood
    split
    next hstale => exact ⟨s, .refused httl (h.protects_iff.2 hstale), h⟩
    next hfresh => exact h.evictFirst_step httl (fun hp ↦ hfresh (h.protects_iff.1 hp)) rfl

/-- So is an invalidation by a predicate. -/
theorem invalidateWhere_step (predicate : CacheEntry V → Bool) :
    ∃ s', Contents.Step options s (.invalidateWhere predicate)
        (.swept (invalidateWhere c predicate).1) s' ∧
      Holds options (invalidateWhere c predicate).2 s' := by
  have hcount : (s.selected predicate).ncard = (selectedKeys c predicate).length :=
    Lists.ncard_eq_length (c.entries.nodup.sublist (filter_sublist.map _))
      fun _ ↦ h.mem_selectedKeys
  refine ⟨s.dropWhere predicate, ?_, h.toLists.dropWhere rfl, ?_⟩
  · rw [invalidateWhere, ← hcount]
    exact .swept
  · exact (Int.ofNat_le.2 (length_filter_le _ _)).trans h.bounded

/-- So is a flush, which the role may forbid. -/
theorem clear_step (role : Role) :
    ∃ s', Contents.Step options s (.clear role) (.flushed (clear c role).1) s' ∧
      Holds options (clear c role).2 s' := by
  rw [clear]
  split
  next hrole => exact ⟨s, .unauthorized hrole, h⟩
  next hrole =>
    rw [not_eq_false] at hrole
    rw [← h.ncard_keys]
    refine ⟨{ s with slots := fun _ ↦ none }, .flushed hrole,
      h.shrink (nil_sublist _) (fun _ ↦ rfl) (fun _ _ hslot ↦ ?_) rfl, ?_⟩
    · cases hslot
    · exact (Int.ofNat_le.2 (Nat.zero_le _)).trans h.bounded

/-- **Every call is answered as the specification allows.** -/
theorem answer_step (call : CacheCall V) :
    ∃ s', Contents.Step options s call (answer options c call).1 s' ∧
      Holds options (answer options c call).2 s' := by
  cases call with
  | get key now => exact h.get_step key now
  | set key value w now => exact h.set_step key value w now
  | invalidate key =>
    refine ⟨s.drop key, ?_, h.toLists.drop key rfl, ?_⟩
    · have hremoved : (answer options c (.invalidate key)).1 =
          .invalidated (s.slots key).isSome := by
        rw [← isSome_map, ← h.get_eq key]
        rfl
      rw [hremoved]
      exact .invalidated
    · exact (Int.ofNat_le.2 (length_filter_le _ _)).trans h.bounded
  | invalidateWhere predicate => exact h.invalidateWhere_step predicate
  | clear role => exact h.clear_step role

end

end Holds

/-- A new cache is empty on both levels. -/
theorem holds_createBoundedCache (h : createBoundedCache V options = some c) :
    Holds options c Contents.empty := by
  rw [createBoundedCache] at h
  split at h
  next hvalid =>
    cases h
    refine ⟨⟨fun _ ↦ rfl, List.Pairwise.nil, ?_, ?_⟩, ?_⟩
    · exact nofun
    · exact nofun
    · simp only [isPositiveInteger, and_eq_true, decide_eq_true_eq] at hvalid
      exact (zero_le_one' ℤ).trans hvalid.1.1.1
  next => cases h

/-- **The bounded cache refines its specification.** To any calls it gives answers that the contents
allow, it lists the contents in the order of their last use, and there are at most `maxEntries` of
them. -/
theorem answer_refines {c : BoundedCache V} (hcreated : createBoundedCache V options = some c)
    (calls : List (CacheCall V)) :
    ∃ s, Behaves (Contents.Step options) Contents.empty calls
        (respond (answer options) c calls).1 s ∧
      Lists (respond (answer options) c calls).2 s ∧
      (s.keys.ncard : ℤ) ≤ options.maxEntries := by
  obtain ⟨s, hbehaves, hholds⟩ := behaves_of_simulation
    (fun _ _ call h ↦ Holds.answer_step h call) (holds_createBoundedCache hcreated) calls
  exact ⟨s, hbehaves, hholds.toLists, hholds.ncard_keys ▸ hholds.bounded⟩

def roomForTwo : BoundedCacheOptions := { maxEntries := 2, ttlMs := 1000 }

/-- Three keys, of which the second is not used again. -/
def threeKeys : List (CacheCall ℕ) :=
  [.set (js "a") 1 {} 0, .set (js "b") 2 {} 0, .get (js "a") 0, .set (js "c") 3 {} 0]

/-- The key that was not used again is evicted. -/
theorem answer_refines_threeKeys :
    ∃ s, Behaves (Contents.Step roomForTwo) Contents.empty threeKeys
        [.written .stored, .written .stored, .read (.ok 1), .written .stored] s ∧
      s.slots (js "b") = none ∧ (s.keys.ncard : ℤ) ≤ 2 := by
  have hcreated : createBoundedCache ℕ roomForTwo = some {} := rfl
  obtain ⟨s, hbehaves, hlists, hcard⟩ := answer_refines hcreated threeKeys
  refine ⟨s, hbehaves, ?_, hcard⟩
  have hb := hlists.get_eq (js "b")
  have hgone : (respond (answer roomForTwo) {} threeKeys).2.entries.get (js "b") = none := by
    decide +kernel
  rw [hgone] at hb
  exact map_eq_none_iff.1 hb.symm

/-- **A write without a sequence ends the protection.** The entry that the write at ledger 199
replaces has not expired, and was stamped 200 before. -/
theorem stored_after_unstamped :
    (respond (answer roomForTwo) {}
      [.set (js "account:GA") 1 { ledgerSequence := some 200 } 0,
        .set (js "account:GA") 2 {} 0,
        .set (js "account:GA") 3 { ledgerSequence := some 199 } 0]).1 =
      [.written .stored, .written .stored, .written .stored] := rfl

end Utix.Cache

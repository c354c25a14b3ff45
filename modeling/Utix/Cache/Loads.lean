import Utix.Cache.Bounded

/-!
# Loads in flight

`getOrLoad` of `core/cache/bounded-cache.ts` as steps that can interleave with each other and with
every other call. A caller looks the key up and, if nothing is there and no load is in flight,
registers one; the load is started by a later microtask; when it settles its value is stored, if it
is *still* the registered load for its key; a last callback takes the registration back. A load is
named by its position in the list of all loads that were ever registered, which stands for the
identity of its promise.

A registration that was dropped never comes back (`LoadEffect.dropped`): only new loads are
registered. So what keeps a value out of the cache after an invalidation is that the invalidation
drops the registration. `invalidate` and `clear` do. `invalidateWhere` looks at the entries that are
stored, and a load is usually in flight because there is none (`never_stored_iff`).
-/

namespace Utix.Cache

open Js Lib Option Dict
open Workers (Role)

/-! ### Steps -/

/-- How far a load has come. -/
inductive LoadPhase
  /-- Registered, and waiting for its microtask. -/
  | registered
  | running
  /-- Its value was stored or not; the last callback is still to come. -/
  | settled
  | released
deriving DecidableEq

/-- A load, and the options of the write it is for. -/
structure Load where
  key : JsString
  write : CacheWriteOptions
  phase : LoadPhase

/-- A cache and all loads that were ever registered. -/
structure LoadingCache (V : Type) where
  cache : BoundedCache V
  loads : List Load := []

/-- What a load comes to. -/
inductive LoadOutcome (V : Type)
  | ok (value : V)
  | err (code : JsString)
  | rejected

/-- A step of some caller. -/
inductive LoadStep (V : Type)
  /-- A call that is no `getOrLoad`. -/
  | call (call : CacheCall V)
  /-- The part of `getOrLoad` up to the registration. -/
  | lookup (key : JsString) (write : CacheWriteOptions) (now : ℤ)
  | start (t : ℕ)
  | settle (t : ℕ) (outcome : LoadOutcome V) (now : ℤ)
  | release (t : ℕ)

variable {V : Type} (options : BoundedCacheOptions)

section

variable (s : LoadingCache V)

/-- The load moves on. -/
def setPhase (t : ℕ) (phase : LoadPhase) : LoadingCache V :=
  { s with loads := s.loads.modify t fun load ↦ { load with phase } }

/-- `getOrLoad` up to the registration: a hit answers at once, and a load in flight is joined. -/
def lookup (key : JsString) (write : CacheWriteOptions) (now : ℤ) : LoadingCache V :=
  match get s.cache key now with
  | (.ok _, cache) => { s with cache }
  | (.error _, cache) =>
    match cache.inflight.get key with
    | some _ => { s with cache }
    | none =>
      { cache := { cache with inflight := cache.inflight.set key s.loads.length }
        loads := s.loads ++ [⟨key, write, .registered⟩] }

/-- The callback of a load that has settled: what `set` answered, if it was called. -/
def settle (t : ℕ) (outcome : LoadOutcome V) (now : ℤ) : Option WriteAnswer × LoadingCache V :=
  match s.loads[t]? with
  | none => (none, s)
  | some load =>
    if load.phase ≠ .running then (none, s)
    else
      match outcome with
      | .ok value =>
        if s.cache.inflight.get load.key ≠ some t then (none, setPhase s t .settled)
        else
          let stored := set options s.cache load.key value load.write now
          (some stored.1, setPhase { s with cache := stored.2 } t .settled)
      | _ => (none, setPhase s t .settled)

/-- The last callback. -/
def release (t : ℕ) : LoadingCache V :=
  match s.loads[t]? with
  | none => s
  | some load =>
    if load.phase ≠ .settled then s
    else if s.cache.inflight.get load.key = some t then
      setPhase { s with cache := { s.cache with inflight := s.cache.inflight.erase load.key } } t
        .released
    else setPhase s t .released

/-- One step; one that is not due changes nothing. -/
def loadStep : LoadStep V → LoadingCache V
  | .call call => { s with cache := (answer options s.cache call).2 }
  | .lookup key write now => lookup s key write now
  | .start t =>
    match s.loads[t]? with
    | none => s
    | some load => if load.phase ≠ .registered then s else setPhase s t .running
  | .settle t outcome now => (settle options s t outcome now).2
  | .release t => release s t

end

/-! ### What an invalidation selects, and what it drops -/

/-- The call is an invalidation that selects the entry which the load would store. -/
def selects (load : Load) (value : V) (now : ℤ) : CacheCall V → Bool
  | .invalidate key => key = load.key
  | .invalidateWhere predicate =>
    predicate (toCacheEntry load.key (entryOf options value load.write now))
  | .clear role => role.mayRecover
  | _ => false

/-- The call drops the load that is registered for the key. -/
def dropsLoad (c : BoundedCache V) (key : JsString) : CacheCall V → Bool
  | .invalidate other => other = key
  | .invalidateWhere predicate =>
    (c.entries.get key).any fun entry ↦ predicate (toCacheEntry key entry)
  | .clear role => role.mayRecover
  | _ => false

/-- The load can still store a value. -/
structure Pending (s : LoadingCache V) (t : ℕ) (load : Load) : Prop where
  registered : s.cache.inflight.get load.key = some t
  unsettled : load.phase = .registered ∨ load.phase = .running
  ttl : ∀ ttl, load.write.ttlMs = some ttl → isPositiveInteger ttl = true

variable {options}

@[simp] theorem inflight_get (c : BoundedCache V) (key : JsString) (now : ℤ) :
    (get c key now).2.inflight = c.inflight := by
  rw [get]
  split
  · rfl
  · split <;> rfl

@[simp] theorem inflight_evictFirst (c : BoundedCache V) :
    (evictFirst options c).inflight = c.inflight := by
  rw [evictFirst]
  split
  · split <;> rfl
  · rfl

@[simp] theorem inflight_set (c : BoundedCache V) (key : JsString) (value : V)
    (write : CacheWriteOptions) (now : ℤ) :
    (set options c key value write now).2.inflight = c.inflight := by
  rw [set]
  split
  · rfl
  · split
    · rfl
    · exact inflight_evictFirst _

/-- **The registrations after a call.** -/
theorem inflight_answer (c : BoundedCache V) (call : CacheCall V) (key : JsString) :
    (answer options c call).2.inflight.get key =
      if dropsLoad c key call then none else c.inflight.get key := by
  cases call with
  | get other now => exact congrArg (Dict.get · key) (inflight_get c other now)
  | set other value write now =>
    exact congrArg (Dict.get · key) (inflight_set c other value write now)
  | invalidate other =>
    refine (get_erase c.inflight other key).trans ?_
    simp [dropsLoad]
  | invalidateWhere predicate =>
    refine (get_filterKeys c.inflight _ key).trans ?_
    by_cases hkey : key ∈ selectedKeys c predicate
    · rw [if_neg (by simpa using hkey), dropsLoad, if_pos (mem_selectedKeys_iff.1 hkey)]
    · rw [if_pos (by simpa using hkey), dropsLoad,
        if_neg fun hdrop ↦ hkey (mem_selectedKeys_iff.2 hdrop)]
  | clear role =>
    cases hrole : role.mayRecover <;> simp [answer, clear, dropsLoad, hrole]

/-! ### Loads -/

/-- Only the load in question changes its phase. -/
theorem loads_setPhase (s : LoadingCache V) (t : ℕ) (phase : LoadPhase) (u : ℕ) :
    (setPhase s t phase).loads[u]? =
      if t = u then (s.loads[u]?).map fun load ↦ { load with phase } else s.loads[u]? := by
  refine (List.getElem?_modify _ _ _ _).trans ?_
  split
  · rfl
  · exact map_id'

/-- **What a step does to the loads and their registrations.** Nothing happens to them, one load
moves on, or a new one is registered. -/
inductive LoadEffect (s : LoadingCache V) : LoadingCache V → Prop
  | kept {cache : BoundedCache V} (hinflight : ∀ key t, cache.inflight.get key = some t →
      s.cache.inflight.get key = some t) : LoadEffect s { s with cache }
  | moved {cache : BoundedCache V} {t : ℕ} {load : Load} {phase : LoadPhase}
      (hload : s.loads[t]? = some load)
      (hphase : load.phase = .registered ∧ phase = .running ∨
        load.phase = .running ∧ phase = .settled)
      (hinflight : cache.inflight = s.cache.inflight) :
      LoadEffect s (setPhase { s with cache } t phase)
  | released {cache : BoundedCache V} {t : ℕ} {load : Load} (hload : s.loads[t]? = some load)
      (hinflight : ∀ key u, cache.inflight.get key = some u →
        s.cache.inflight.get key = some u ∧ ¬(key = load.key ∧ u = t)) :
      LoadEffect s (setPhase { s with cache } t .released)
  | registered {cache : BoundedCache V} {key : JsString} {write : CacheWriteOptions}
      (hinflight : cache.inflight = s.cache.inflight.set key s.loads.length) :
      LoadEffect s ⟨cache, s.loads ++ [⟨key, write, .registered⟩]⟩

/-- **What a step does to the loads in flight**, by cases on the step. -/
theorem loadEffect (s : LoadingCache V) (step : LoadStep V) :
    LoadEffect s (loadStep options s step) := by
  have hrefl : LoadEffect s s := .kept fun _ _ h ↦ h
  cases step with
  | call call =>
    refine .kept fun key t h ↦ ?_
    rw [inflight_answer] at h
    split at h
    · cases h
    · exact h
  | lookup key write now =>
    rw [loadStep, lookup]
    have hinflight := inflight_get s.cache key now
    split
    next value cache hget =>
      rw [hget] at hinflight
      exact .kept fun _ _ h ↦ hinflight ▸ h
    next error cache hget =>
      rw [hget] at hinflight
      split
      · exact .kept fun _ _ h ↦ hinflight ▸ h
      · exact .registered (by rw [← hinflight])
  | start t =>
    rw [loadStep]
    split
    · exact hrefl
    next load hload =>
      split
      · exact hrefl
      next hphase => exact .moved hload (.inl ⟨not_not.1 hphase, rfl⟩) rfl
  | settle t outcome now =>
    rw [loadStep, settle]
    split
    · exact hrefl
    next load hload =>
      split
      · exact hrefl
      next hphase =>
        have hphase : load.phase = .registered ∧ LoadPhase.settled = .running ∨
            load.phase = .running ∧ LoadPhase.settled = .settled := .inr ⟨not_not.1 hphase, rfl⟩
        split
        · split
          · exact .moved hload hphase rfl
          · exact .moved hload hphase (inflight_set _ _ _ _ _)
        · exact .moved hload hphase rfl
  | release t =>
    rw [loadStep, release]
    split
    · exact hrefl
    next load hload =>
      split
      · exact hrefl
      split
      · refine .released hload fun key u h ↦ ?_
        rw [get_erase] at h
        split at h
        · cases h
        next hkey => exact ⟨h, fun hboth ↦ hkey hboth.1.symm⟩
      next hother =>
        exact .released hload fun key u h ↦
          ⟨h, fun hboth ↦ hother (hboth.1 ▸ hboth.2 ▸ h)⟩

variable {s s' : LoadingCache V} {t : ℕ} {load : Load}

/-- A load keeps its key and its options. -/
theorem LoadEffect.exists_load (h : LoadEffect s s') (hload : s.loads[t]? = some load) :
    ∃ phase, s'.loads[t]? = some { load with phase } := by
  have hmoved : ∀ (cache : BoundedCache V) (u : ℕ) (phase : LoadPhase), ∃ phase',
      (setPhase { s with cache } u phase).loads[t]? = some { load with phase := phase' } := by
    intro cache u phase
    rw [loads_setPhase, hload]
    split
    · exact ⟨phase, rfl⟩
    · exact ⟨load.phase, rfl⟩
  cases h with
  | kept => exact ⟨load.phase, hload⟩
  | moved => exact hmoved _ _ _
  | released => exact hmoved _ _ _
  | registered =>
    have hlt := (List.getElem?_eq_some_iff.1 hload).1
    exact ⟨load.phase, (List.getElem?_append_left hlt).trans hload⟩

/-- **Why a load will not be stored**: its registration was dropped, it has settled, or `set` throws
on its options. -/
inductive Barred (s : LoadingCache V) (t : ℕ) (load : Load) : Prop
  | dropped (hdropped : s.cache.inflight.get load.key ≠ some t)
  | settled (hsettled : load.phase = .settled ∨ load.phase = .released)
  | badTtl {ttl : ℤ} (httl : load.write.ttlMs = some ttl) (hbad : isPositiveInteger ttl = false)

/-- A load that is not pending will never be stored. -/
theorem barred_of_not_pending (h : ¬Pending s t load) : Barred s t load := by
  by_cases hregistered : s.cache.inflight.get load.key = some t
  · cases hphase : load.phase with
    | settled => exact .settled (.inl hphase)
    | released => exact .settled (.inr hphase)
    | registered | running =>
      by_cases httl : ∀ ttl, load.write.ttlMs = some ttl → isPositiveInteger ttl = true
      · exact absurd ⟨hregistered, by simp [hphase], httl⟩ h
      · push Not at httl
        obtain ⟨ttl, hsome, hbad⟩ := httl
        exact .badTtl hsome (Bool.not_eq_true _ ▸ hbad)
  · exact .dropped hregistered

/-- A registration that was dropped does not come back. -/
theorem LoadEffect.dropped (h : LoadEffect s s') {key : JsString} (ht : t < s.loads.length)
    (hdropped : s.cache.inflight.get key ≠ some t) : s'.cache.inflight.get key ≠ some t := by
  cases h with
  | kept hinflight => exact fun hback ↦ hdropped (hinflight key t hback)
  | moved _ _ hinflight => exact fun hback ↦ hdropped (hinflight ▸ hback)
  | released _ hinflight => exact fun hback ↦ hdropped (hinflight key t hback).1
  | registered hinflight =>
    -- the new load has another name
    show Dict.get _ key ≠ some t
    rw [hinflight, get_set]
    split
    · exact fun hback ↦ absurd (some.inj hback) (by omega)
    · exact hdropped

/-- A load that has settled stays settled. -/
theorem LoadEffect.settled (h : LoadEffect s s') {a b : Load} (ha : s.loads[t]? = some a)
    (hb : s'.loads[t]? = some b) (hsettled : a.phase = .settled ∨ a.phase = .released) :
    b.phase = .settled ∨ b.phase = .released := by
  cases h with
  | kept => exact mem_unique ha hb ▸ hsettled
  | moved hload hphase =>
    rw [loads_setPhase, ha] at hb
    split at hb
    next heq =>
      subst heq
      rw [ha] at hload
      rcases hphase with ⟨hphase, -⟩ | ⟨hphase, -⟩ <;>
        rw [← some.inj hload] at hphase <;> simp [hphase] at hsettled
    next => exact some.inj hb ▸ hsettled
  | released =>
    rw [loads_setPhase, ha] at hb
    split at hb
    · exact .inr (some.inj hb ▸ rfl)
    · exact some.inj hb ▸ hsettled
  | registered =>
    rw [List.getElem?_append_left (List.getElem?_eq_some_iff.1 ha).1, ha] at hb
    exact some.inj hb ▸ hsettled

/-- The load with this name will not be stored. -/
def BarredAt (t : ℕ) (s : LoadingCache V) : Prop :=
  ∃ load, s.loads[t]? = some load ∧ Barred s t load

/-- **What keeps a load from being stored stays.** -/
theorem BarredAt.step (h : BarredAt t s) (heffect : LoadEffect s s') : BarredAt t s' := by
  obtain ⟨load, hload, hbarred⟩ := h
  obtain ⟨phase, hload'⟩ := heffect.exists_load hload
  refine ⟨_, hload', ?_⟩
  cases hbarred with
  | dropped hdropped =>
    exact .dropped (heffect.dropped (List.getElem?_eq_some_iff.1 hload).1 hdropped)
  | settled hsettled => exact .settled (heffect.settled hload hload' hsettled)
  | badTtl httl hbad => exact .badTtl httl hbad

/-- What is barred once is barred after every run. -/
theorem BarredAt.run (h : BarredAt t s) (steps : List (LoadStep V)) :
    BarredAt t (Lib.run (loadStep options) s steps) :=
  run_invariant (BarredAt t) (fun s step h ↦ h.step (loadEffect s step)) h steps

/-! ### At most one load for a key -/

/-- **The loads that are registered**: one for a key, and it is still in flight. -/
structure InFlight (s : LoadingCache V) : Prop where
  one : ∀ t u a b, s.loads[t]? = some a → s.loads[u]? = some b →
    s.cache.inflight.get a.key = some t → s.cache.inflight.get b.key = some u → a.key = b.key →
      t = u
  live : ∀ key t, s.cache.inflight.get key = some t →
    ∃ load, s.loads[t]? = some load ∧ load.key = key ∧ load.phase ≠ .released

/-- A key has at most one registered load. -/
theorem one_of_dict (s : LoadingCache V) : ∀ t u a b, s.loads[t]? = some a →
    s.loads[u]? = some b → s.cache.inflight.get a.key = some t →
      s.cache.inflight.get b.key = some u → a.key = b.key → t = u := by
  intro t u a b _ _ ht hu hkey
  rw [hkey, hu] at ht
  exact (some.inj ht).symm

/-- Every step keeps the registrations in order. -/
theorem InFlight.step (h : InFlight s) (heffect : LoadEffect s s') : InFlight s' := by
  refine ⟨one_of_dict s', fun key t ht ↦ ?_⟩
  cases heffect with
  | kept hinflight => exact h.live key t (hinflight key t ht)
  | moved hload hphase hinflight =>
    next cache u load phase =>
    obtain ⟨a, ha, hkey, hlive⟩ := h.live key t (hinflight ▸ ht)
    rw [loads_setPhase]
    split
    · refine ⟨{ a with phase }, by rw [ha]; rfl, hkey, ?_⟩
      rcases hphase with ⟨-, rfl⟩ | ⟨-, rfl⟩ <;> simp
    · exact ⟨a, ha, hkey, hlive⟩
  | released hload hinflight =>
    next cache u load =>
    obtain ⟨ht, hother⟩ := hinflight key t ht
    obtain ⟨a, ha, hkey, hlive⟩ := h.live key t ht
    rw [loads_setPhase, if_neg]
    · exact ⟨a, ha, hkey, hlive⟩
    · rintro rfl
      rw [ha] at hload
      exact hother ⟨by rw [← hkey, some.inj hload], rfl⟩
  | registered hinflight =>
    next cache other write =>
    change Dict.get cache.inflight key = some t at ht
    rw [hinflight] at ht
    obtain ⟨rfl, rfl⟩ | ⟨-, ht⟩ := get_set_eq_some ht
    · exact ⟨⟨key, write, .registered⟩, by simp, rfl, by simp⟩
    · obtain ⟨a, ha, hkey, hlive⟩ := h.live key t ht
      have hlt := (List.getElem?_eq_some_iff.1 ha).1
      exact ⟨a, (List.getElem?_append_left hlt).trans ha, hkey, hlive⟩

/-- The registrations are in order after every run. -/
theorem inFlight_run (c : BoundedCache V) (hc : c.inflight = .empty) (steps : List (LoadStep V)) :
    InFlight (Lib.run (loadStep options) { cache := c } steps) := by
  refine run_invariant InFlight (fun s step h ↦ h.step (loadEffect s step)) ⟨one_of_dict _, ?_⟩
    steps
  intro key t ht
  rw [hc, get_empty] at ht
  cases ht

/-! ### Which loads are stored -/

/-- The value of a barred load is not stored when it settles. -/
theorem settle_of_barred (h : BarredAt t s) (value : V) (now : ℤ) :
    (settle options s t (.ok value) now).1 ≠ some .stored := by
  obtain ⟨load, hload, hbarred⟩ := h
  simp only [settle, hload]
  split
  · simp
  next hphase =>
    rw [not_not] at hphase
    split
    · simp
    next hregistered =>
      cases hbarred with
      | dropped hdropped => exact absurd hdropped hregistered
      | settled hsettled => simp [hphase] at hsettled
      | badTtl httl hbad => simp [set, httl, hbad]

theorem start_of_unsettled (hload : s.loads[t]? = some load)
    (hphase : load.phase = .registered ∨ load.phase = .running) :
    (loadStep options s (.start t)).cache = s.cache ∧
      (loadStep options s (.start t)).loads[t]? = some { load with phase := .running } := by
  simp only [loadStep, hload]
  rcases hphase with hphase | hphase
  · rw [if_neg (by simp [hphase])]
    exact ⟨rfl, by rw [loads_setPhase, if_pos rfl, hload]; rfl⟩
  · rw [if_pos (by simp [hphase]), hload, ← hphase]
    exact ⟨rfl, rfl⟩

/-- A read after the time to live removes the entry. -/
theorem exists_get_none (c : BoundedCache V) (key : JsString) :
    ∃ now, (get c key now).2.entries.get key = none := by
  cases hentry : c.entries.get key with
  | none => exact ⟨0, by simp only [get, hentry]⟩
  | some entry =>
    have hexpired : isExpired entry (entry.cachedAt + entry.ttlMs + 1) = true := by
      simp only [isExpired, decide_eq_true_eq]
      omega
    refine ⟨entry.cachedAt + entry.ttlMs + 1, ?_⟩
    simp only [get, hentry, hexpired, if_true, get_erase]

/-- A running load that is registered, with nothing stored under its key, is stored. -/
theorem settle_of_running (hload : s.loads[t]? = some load) (hrunning : load.phase = .running)
    (hregistered : s.cache.inflight.get load.key = some t)
    (httl : ∀ ttl, load.write.ttlMs = some ttl → isPositiveInteger ttl = true)
    (hnone : s.cache.entries.get load.key = none) (value : V) (now : ℤ) :
    (settle options s t (.ok value) now).1 = some .stored := by
  have hgood : ¬load.write.ttlMs.any (fun ttl ↦ !isPositiveInteger ttl) = true := by
    intro hbad
    obtain ⟨ttl, hsome, hbad⟩ := (any_eq_true _ _).1 hbad
    rw [httl ttl hsome] at hbad
    cases hbad
  have hset : (set options s.cache load.key value load.write now).1 = .stored := by
    rw [set, if_neg hgood, hnone]
    rfl
  simp only [settle, hload, hrunning, hregistered, ne_eq, not_true_eq_false, if_false, hset]

/-- **A load that is pending can be stored.** Once it runs and what is stored under its key has
expired, nothing stands in its way. -/
theorem exists_stored_of_pending (hload : s.loads[t]? = some load) (hpending : Pending s t load)
    (value : V) (now : ℤ) :
    ∃ steps, (settle options (Lib.run (loadStep options) s steps) t (.ok value) now).1 =
      some .stored := by
  obtain ⟨late, hnone⟩ := exists_get_none s.cache load.key
  obtain ⟨hcache, hrunning⟩ : (loadStep options s (.start t)).cache = s.cache ∧
      (loadStep options s (.start t)).loads[t]? = some { load with phase := .running } :=
    start_of_unsettled hload hpending.unsettled
  let s' := loadStep options (loadStep options s (.start t)) (.call (.get load.key late))
  have hinflight : s'.cache.inflight.get load.key = some t := by
    refine (congrArg (Dict.get · load.key) (inflight_get _ load.key late)).trans ?_
    rw [hcache]
    exact hpending.registered
  have hentries : s'.cache.entries.get load.key = none := by
    show (get (loadStep options s (.start t)).cache load.key late).2.entries.get load.key = none
    rw [hcache]
    exact hnone
  have hrunning' : s'.loads[t]? = some { load with phase := .running } := hrunning
  exact ⟨[.start t, .call (.get load.key late)],
    settle_of_running hrunning' rfl hinflight hpending.ttl hentries value now⟩

/-- **Which invalidated loads are never stored.** At any time at most one load is registered for a
key, and it is in flight. A value that an invalidation selects is never stored by a load that was
registered before, whatever happens after, exactly if the invalidation drops the registration of
the load if it could still store. -/
theorem never_stored_iff {c : BoundedCache V} (hcreated : createBoundedCache V options = some c)
    (before : List (LoadStep V)) :
    InFlight (Lib.run (loadStep options) { cache := c } before) ∧
      ∀ t load, (Lib.run (loadStep options) { cache := c } before).loads[t]? = some load →
        ∀ call : CacheCall V,
          (∀ after value now, selects options load value now call = true →
              (settle options (Lib.run (loadStep options) { cache := c }
                (before ++ .call call :: after)) t (.ok value) now).1 ≠ some .stored) ↔
            ∀ value now, selects options load value now call = true →
              Pending (Lib.run (loadStep options) { cache := c } before) t load →
                dropsLoad (Lib.run (loadStep options) { cache := c } before).cache load.key call =
                  true := by
  have hempty : c.inflight = .empty := by
    rw [createBoundedCache] at hcreated
    split at hcreated
    · exact (congrArg BoundedCache.inflight (some.inj hcreated)).symm
    · cases hcreated
  refine ⟨inFlight_run c hempty before, fun t load hload call ↦ ?_⟩
  simp only [run_append, run_cons]
  generalize Lib.run (loadStep options) { cache := c } before = s at hload ⊢
  have hafter : (loadStep options s (.call call)).cache.inflight.get load.key = _ :=
    inflight_answer s.cache call load.key
  have hload' : (loadStep options s (.call call)).loads[t]? = some load := hload
  constructor
  · intro hnever value now hselects hpending
    by_contra hkept
    -- the registration survives the call, so the load can be stored
    rw [if_neg hkept] at hafter
    obtain ⟨steps, hstored⟩ := exists_stored_of_pending hload'
      ⟨hafter.trans hpending.registered, hpending.unsettled, hpending.ttl⟩ value now
    exact hnever steps value now hselects hstored
  · intro hdrops after value now hselects
    refine settle_of_barred (BarredAt.run ?_ after) value now
    by_cases hpending : Pending s t load
    · rw [if_pos (hdrops value now hselects hpending)] at hafter
      exact ⟨load, hload', .dropped (by rw [hafter]; simp)⟩
    · exact BarredAt.step ⟨load, hload, barred_of_not_pending hpending⟩ (loadEffect s _)

/-- Ten entries, a second each. -/
def tenEntries : BoundedCacheOptions := { maxEntries := 10, ttlMs := 1000 }

/-- A view of an account is looked up. -/
def accountLookup : LoadStep ℕ := .lookup (js "account:GA") { sourceEntityId := some (js "GA") } 0

/-- The key is invalidated while the load is in flight. -/
theorem never_stored_invalidated :
    (settle tenEntries (Lib.run (loadStep tenEntries) {cache := {} }
      ([accountLookup] ++ .call (.invalidate (js "account:GA")) :: [.start 0])) 0 (.ok 7) 5).1 ≠
      some .stored := by
  have hcreated : createBoundedCache ℕ tenEntries = some {} := rfl
  obtain ⟨-, hiff⟩ := never_stored_iff hcreated [accountLookup]
  refine (hiff 0 ⟨js "account:GA", { sourceEntityId := some (js "GA") }, .registered⟩ rfl
    (.invalidate (js "account:GA"))).2 (fun value now _ _ ↦ ?_) [.start 0] 7 5 ?_
  · decide +kernel
  · decide +kernel

/-- **A load is stored although its value was invalidated.** The views of the account are
invalidated while one of them is loaded for the first time; there is no entry that could be
selected. -/
theorem stored_after_invalidateWhere :
    let bySource : CacheEntry ℕ → Bool := fun entry ↦ entry.sourceEntityId = some (js "GA")
    selects tenEntries ⟨js "account:GA", { sourceEntityId := some (js "GA") }, .registered⟩ 7 5
        (.invalidateWhere bySource) = true ∧
      (settle tenEntries (Lib.run (loadStep tenEntries) {cache := {} }
        [accountLookup, .call (.invalidateWhere bySource), .start 0]) 0 (.ok 7) 5).1 =
        some .stored := by
  decide +kernel

end Utix.Cache

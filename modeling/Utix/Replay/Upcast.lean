import Utix.Replay.Runner

/-!
# Upcasting step by step

`upcast` of `core/replay/upcast.ts` lifts an event one schema version at a time. Its loop splits at
every version on the way (`liftPayload_add`), so an event may as well be lifted in two goes. Split
off its last round, it says that the payload is the composition of the registered steps
(`upcast_succ_iff`), and a failure is the failure of one step (`error_liftPayload_iff`).

`upcast_law` collects this: lifting in two goes gives the same event, a lifted event has the version
asked for and the payload that the steps make of it, and there are three grounds for a failure.

Schema versions are integers here. The source takes any number and does not check: its loop counts
up from the version of the event, and from 1.5 it would pass by the target 3.

The two error codes are told apart in `liftPayload`, and the law says only that there is one, since
which it is follows from the first step that fails.
-/

namespace Utix.Replay

open Js

variable {P : Type}

/-- `steps.get(key)`: the step that lifts a type from a version. -/
def UpcasterRegistry.stepAt (registry : UpcasterRegistry P) (type : JsString) (version : ℤ) :
    Option (Upcaster P) :=
  registry.steps.find? fun step ↦ step.type = type ∧ step.fromVersion = version

section

variable (registry : UpcasterRegistry P) (type : JsString) (n : ℕ) (version : ℤ) (payload : P)

/-- **The loop splits anywhere.** -/
theorem liftPayload_add (m : ℕ) :
    liftPayload registry type (m + n) version payload =
      (liftPayload registry type m version payload).bind
        (liftPayload registry type n (version + m)) := by
  induction m generalizing version payload with
  | zero => simp [liftPayload, Except.bind]
  | succ m ih =>
    rw [Nat.add_right_comm, liftPayload, liftPayload]
    split
    · rfl
    · split
      · rfl
      · rw [ih, Nat.cast_succ, add_assoc, add_comm (1 : ℤ)]

/-- One round fails if there is no step, or if the step throws. -/
theorem error_liftPayload_one_iff :
    (∃ code, liftPayload registry type 1 version payload = .error code) ↔
      ∀ step, registry.stepAt type version = some step → step.upcast payload = none := by
  rw [liftPayload, ← UpcasterRegistry.stepAt]
  cases registry.stepAt type version with
  | none => simp
  | some step => cases hstep : step.upcast payload <;> simp [liftPayload, hstep]

/-- One round succeeds if there is a step, which does not throw. -/
theorem liftPayload_one_eq_ok_iff {lifted : P} :
    liftPayload registry type 1 version payload = .ok lifted ↔
      ∃ step, registry.stepAt type version = some step ∧ step.upcast payload = some lifted := by
  rw [liftPayload, ← UpcasterRegistry.stepAt]
  cases registry.stepAt type version with
  | none => simp
  | some step => cases hstep : step.upcast payload <;> simp [liftPayload, hstep]

/-- **The loop fails exactly where one of its rounds does.** -/
theorem error_liftPayload_iff :
    (∃ code, liftPayload registry type n version payload = .error code) ↔
      ∃ k < n, registry.stepAt type (version + k) = none ∨
        ∃ step reached, registry.stepAt type (version + k) = some step ∧
          liftPayload registry type k version payload = .ok reached ∧
          step.upcast reached = none := by
  induction n with
  | zero => simp [liftPayload]
  | succ n ih =>
    rw [liftPayload_add, Nat.exists_lt_succ_right, ← ih]
    cases hreached : liftPayload registry type n version payload with
    | error code => simp [Except.bind]
    | ok reached =>
      simp only [Except.bind, reduceCtorEq, exists_false, false_or, error_liftPayload_one_iff]
      cases registry.stepAt type (version + n) <;> simp

end

/-- An event is lifted by the loop, over the versions that it is behind. -/
theorem upcast_add (registry : UpcasterRegistry P) (event : ReplayEvent P) (n : ℕ) :
    upcast registry event (event.version + n) =
      (liftPayload registry event.type n event.version event.payload).map fun payload ↦
        { event with version := event.version + n, payload := payload } := by
  rw [upcast, if_neg (by omega), add_sub_cancel_left, Int.toNat_natCast]
  cases hloop : liftPayload registry event.type n event.version event.payload with
  | error code => rfl
  | ok payload =>
    rcases n with - | n
    · -- an event of the target version is returned as it is
      cases hloop
      simp [Except.map]
    · simp only [Except.map]
      rw [if_neg (by omega)]

/-- What an event is lifted to: only its version and its payload change. -/
theorem upcast_eq_ok_iff {registry : UpcasterRegistry P} {event lifted : ReplayEvent P} {t : ℤ} :
    upcast registry event t = .ok lifted ↔ ∃ (n : ℕ) (payload : P), t = event.version + n ∧
      liftPayload registry event.type n event.version event.payload = .ok payload ∧
      { event with version := t, payload := payload } = lifted := by
  constructor
  · intro hok
    have hle : event.version ≤ t := by
      by_contra hnewer
      rw [upcast, if_pos (not_le.1 hnewer)] at hok
      cases hok
    obtain ⟨n, rfl⟩ := Int.le.dest hle
    rw [upcast_add] at hok
    cases hloop : liftPayload registry event.type n event.version event.payload with
    | error code => rw [hloop] at hok; cases hok
    | ok payload =>
      rw [hloop] at hok
      exact ⟨n, payload, rfl, hloop, Except.ok.inj hok⟩
  · rintro ⟨n, payload, rfl, hloop, rfl⟩
    rw [upcast_add, hloop]
    rfl

/-- **The last round**: to lift an event by one more version is to apply the step registered for
it. -/
theorem upcast_succ_iff {registry : UpcasterRegistry P} {event lifted : ReplayEvent P} {t : ℤ}
    (hle : event.version ≤ t) :
    upcast registry event (t + 1) = .ok lifted ↔
      ∃ reached step payload, upcast registry event t = .ok reached ∧
        registry.stepAt event.type t = some step ∧ step.upcast reached.payload = some payload ∧
        lifted = { reached with version := t + 1, payload := payload } := by
  obtain ⟨n, rfl⟩ := Int.le.dest hle
  rw [add_assoc, ← Nat.cast_succ, upcast_add, upcast_add, Nat.succ_eq_add_one, liftPayload_add]
  cases liftPayload registry event.type n event.version event.payload with
  | error code => simp [Except.bind, Except.map]
  | ok reached =>
    simp only [Except.bind, Except.map, Except.ok.injEq]
    cases hround : liftPayload registry event.type 1 (event.version + n) reached with
    | error code =>
      have hfails := (error_liftPayload_one_iff registry event.type _ reached).1 ⟨code, hround⟩
      refine iff_of_false (by simp) ?_
      rintro ⟨_, step, payload, rfl, hstep, hpayload, -⟩
      simp [hfails step hstep] at hpayload
    | ok payload =>
      obtain ⟨step, hstep, hpayload⟩ := (liftPayload_one_eq_ok_iff registry _ _ _).1 hround
      simp only [Except.ok.injEq]
      constructor
      · rintro rfl
        exact ⟨_, step, payload, rfl, hstep, hpayload, rfl⟩
      · rintro ⟨_, step', payload', rfl, hstep', hpayload', rfl⟩
        obtain rfl := Option.some.inj (hstep.symm.trans hstep')
        obtain rfl := Option.some.inj (hpayload.symm.trans hpayload')
        rfl

/-- What is lifted to a version is lifted over every version on the way. -/
theorem exists_halfway {registry : UpcasterRegistry P} {event lifted : ReplayEvent P} {t₁ t₂ : ℤ}
    (hle₁ : event.version ≤ t₁) (hle₂ : t₁ ≤ t₂) (hok : upcast registry event t₂ = .ok lifted) :
    ∃ halfway, upcast registry event t₁ = .ok halfway ∧
      upcast registry halfway t₂ = .ok lifted := by
  obtain ⟨m, rfl⟩ := Int.le.dest hle₁
  obtain ⟨n, rfl⟩ := Int.le.dest hle₂
  obtain ⟨k, payload, hk, hloop, rfl⟩ := upcast_eq_ok_iff.1 hok
  obtain rfl : k = m + n := by omega
  rw [liftPayload_add] at hloop
  cases hfirst : liftPayload registry event.type m event.version event.payload with
  | error code => rw [hfirst] at hloop; cases hloop
  | ok reached =>
    rw [hfirst] at hloop
    exact ⟨_, upcast_eq_ok_iff.2 ⟨m, reached, rfl, hfirst, rfl⟩,
      upcast_eq_ok_iff.2 ⟨n, payload, rfl, hloop, rfl⟩⟩

/-- An event is not lifted exactly if it is newer than the version asked for, or if a round on the
way finds no step or one that throws. -/
theorem error_upcast_iff {registry : UpcasterRegistry P} {event : ReplayEvent P} {t : ℤ} :
    (∃ code, upcast registry event t = .error code) ↔
      t < event.version ∨ ∃ v, event.version ≤ v ∧ v < t ∧
        (registry.stepAt event.type v = none ∨
          ∃ step reached, registry.stepAt event.type v = some step ∧
            upcast registry event v = .ok reached ∧ step.upcast reached.payload = none) := by
  rcases lt_or_ge t event.version with hnewer | hle
  · simp [upcast, hnewer]
  obtain ⟨n, rfl⟩ := Int.le.dest hle
  have hfailed : (∃ code, upcast registry event (event.version + n) = .error code) ↔
      ∃ code, liftPayload registry event.type n event.version event.payload = .error code := by
    rw [upcast_add]
    cases liftPayload registry event.type n event.version event.payload <;> simp [Except.map]
  rw [hfailed, error_liftPayload_iff, or_iff_right (not_lt.2 hle)]
  constructor
  · rintro ⟨k, hk, hnone | ⟨step, reached, hstep, hloop, hthrows⟩⟩
    · exact ⟨_, by omega, by omega, .inl hnone⟩
    · exact ⟨_, by omega, by omega, .inr ⟨step, _, hstep,
        upcast_eq_ok_iff.2 ⟨k, reached, rfl, hloop, rfl⟩, hthrows⟩⟩
  · rintro ⟨v, hge, hlt, hfails⟩
    obtain ⟨k, rfl⟩ := Int.le.dest hge
    refine ⟨k, by omega, hfails.imp_right ?_⟩
    rintro ⟨step, lifted, hstep, hok, hthrows⟩
    obtain ⟨j, reached, hj, hloop, rfl⟩ := upcast_eq_ok_iff.1 hok
    obtain rfl : j = k := by omega
    exact ⟨step, reached, hstep, hloop, hthrows⟩

/-- **Upcasting composes.** What is lifted to a version is also lifted over every version on the
way, with the same result; it has the version asked for, and its payload is what the steps make of
the payload of the event, one after the other; and it fails exactly if the event is newer than that,
if a step on the way is missing, or if one throws on what it is given. Versions are whole numbers,
which the code does not check. -/
theorem upcast_law (registry : UpcasterRegistry P) (event : ReplayEvent P) :
    (∀ t₁ t₂ lifted, event.version ≤ t₁ → t₁ ≤ t₂ → upcast registry event t₂ = .ok lifted →
      ∃ halfway, upcast registry event t₁ = .ok halfway ∧ upcast registry halfway t₂ = .ok lifted) ∧
    (∀ t lifted, upcast registry event t = .ok lifted → lifted.version = t) ∧
    upcast registry event event.version = .ok event ∧
    (∀ t lifted, event.version ≤ t → (upcast registry event (t + 1) = .ok lifted ↔
      ∃ reached step payload, upcast registry event t = .ok reached ∧
        registry.stepAt event.type t = some step ∧ step.upcast reached.payload = some payload ∧
        lifted = { reached with version := t + 1, payload := payload })) ∧
    ∀ t, (∃ code, upcast registry event t = .error code) ↔
      t < event.version ∨ ∃ v, event.version ≤ v ∧ v < t ∧
        (registry.stepAt event.type v = none ∨
          ∃ step reached, registry.stepAt event.type v = some step ∧
            upcast registry event v = .ok reached ∧ step.upcast reached.payload = none) := by
  refine ⟨fun t₁ t₂ lifted ↦ exists_halfway, fun t lifted hok ↦ ?_,
    upcast_eq_ok_iff.2 ⟨0, event.payload, by simp, rfl, rfl⟩, fun t lifted ↦ upcast_succ_iff,
    fun t ↦ error_upcast_iff⟩
  obtain ⟨-, -, -, -, rfl⟩ := upcast_eq_ok_iff.1 hok
  rfl

end Utix.Replay

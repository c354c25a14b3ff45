import Utix.Replay.Isolation

/-!
# A rollback returns to the real predecessor

A replay that promotes reads the pointer when it starts, and writes the version it has read as the
previous one when it is through. As long as the lock is in its name, only a pointer change can have
come in between; `PointerSerialised` excludes that.

Rolling back twice rolls forward again because the slot that was active is ready, so it can be
active again.

`Recorded` says of every move of the pointer that the previous version it was given is the version
that was active before it; the list of moves is kept with the store for this purpose, and no call
reads it. The theorem is about every run of the system: replays that promote, explicit promotions
and rollbacks, in any order, with leases that run out in between.
-/

namespace Utix.Replay

open Lib ProjectionStore

variable {S P : Type}

/-! ### The law -/

/-- The run moves the pointer when it is through. -/
def ReplayRun.promotes (run : ReplayRun S P) : Bool := run.opts.promote && run.commitPerBatch

/-- **Nor is it moved while a run is under way that will move it.** -/
def PointerSerialised (s : System S P) (c : SystemCall S P) : Prop :=
  Serialised s c ∧ ∀ v, Moves s v c → ∀ run ∈ s.runs, run.promotes = false

/-- The law of pointer changes. -/
structure PointerLaw (store : ProjectionStore S) : Prop where
  /-- What is recorded as the previous version was the version before. -/
  recorded : ∀ move ∈ store.moves,
    move.pointer.previousVersion = move.before.map ActivePointer.version
  /-- Rolling back twice rolls forward again. -/
  rollback : ∀ role,
    (rollbackProjection (rollbackProjection store role).2 role).2.active = store.active

/-! ### One operation -/

/-- The previous version is recorded as it was. -/
def Recorded (store : ProjectionStore S) : Prop :=
  ∀ move ∈ store.moves, move.pointer.previousVersion = move.before.map ActivePointer.version

section

variable {run : ReplayRun S P} {starting : Bool} {now : ℤ} {before : Option ActivePointer}
  {store store' : ProjectionStore S}

/-- A pointer change records the version it replaces. -/
theorem recorded_setActive {pointer : ActivePointer}
    (hpointer : pointer.previousVersion = store.activeVersion) (h : Recorded store) :
    Recorded (store.setActive pointer) := by
  intro move hmove
  rcases List.mem_append.1 hmove with hold | hnew
  · exact h move hold
  · obtain rfl := List.mem_singleton.1 hnew
    exact hpointer

/-- So does a promotion whose reading of the pointer is still true. -/
theorem recorded_ops (hcurrent : run.promotes = true →
      run.active.map ActivePointer.version = before.map ActivePointer.version)
    (h : Recorded store) (hops : Ops run starting now before store store') : Recorded store' := by
  induction hops with
  | refl => exact h
  | tail _ hop ih =>
    cases hop with
    | acquire => exact ih
    | put => exact ih
    | activate hdry _ hactive hpromote hlive =>
      refine recorded_setActive ?_ ih
      rw [activeVersion, hactive]
      exact hcurrent (by simp [ReplayRun.promotes, ReplayRun.commitPerBatch, hdry, hpromote, hlive])
    | release =>
      rw [releaseLock]
      split
      · exact ih
      · exact ih

end

/-! ### Pointer changes -/

section

variable {s : System S P}

/-- A run that will move the pointer knows where it is. -/
def Current (store : ProjectionStore S) (run : ReplayRun S P) : Prop :=
  run.promotes = true → run.active.map ActivePointer.version = store.activeVersion

theorem Extends.promotes {run run' : ReplayRun S P} (h : Extends run run') :
    run'.promotes = run.promotes := by
  rw [ReplayRun.promotes, h.opts, h.commitPerBatch]
  rfl

theorem stable_current : Stable (Current (S := S) (P := P)) where
  begun := by
    intro definition opts runId slot now store result run' hbegun hwaits _ _
    obtain ⟨-, hwaiting⟩ := hbegun.stretch.waiting run' hwaits
    rw [activeVersion, hwaiting.active]
    rfl
  more := by
    intro store run run' hextends h hpromotes
    rw [hextends.active]
    exact h (hextends.promotes ▸ hpromotes)
  waiting := by
    intro store after run hwaiting h hpromotes
    rw [activeVersion, hwaiting.active]
    exact h hpromotes

/-- The invariant of pointer changes. -/
structure PointerInv (s : System S P) : Prop where
  isolation : IsolationInv s
  holder : KnownToHolder Current s
  recorded : Recorded s.store

/-- **Every serialised call keeps the records true.** -/
theorem pointerInv_step (h : PointerInv s) {c : SystemCall S P} (hc : PointerSerialised s c) :
    PointerInv (systemStep s c) where
  isolation := isolationInv_step h.isolation hc.1
  holder := by
    refine knownToHolder_step stable_current h.isolation.started hc.1.1 ?_ h.holder
    intro v hmoves run hrun _ _ _ hpromotes
    exact absurd hpromotes (by simp [hc.2 v hmoves run hrun])
  recorded := by
    refine store_step hc.1.1 h.holder ?_ ?_ ?_ h.recorded
    · intro definition opts runId slot now result hbegun _
      exact recorded_ops (fun _ ↦ rfl) h.recorded hbegun.stretch.ops
    · intro run run' now store' _ _ hcurrent hextends hops
      exact recorded_ops (stable_current.more hextends hcurrent) h.recorded hops
    · intro v _
      exact recorded_setActive rfl h.recorded

/-- **Rolling back twice rolls forward again**, if the pointer names a ready slot. -/
theorem rollbackProjection_twice {store : ProjectionStore S} (h : store.PointsReady)
    (role : Workers.Role) :
    (rollbackProjection (rollbackProjection store role).2 role).2.active = store.active := by
  rcases swapActive_cases store role (store.active.bind ActivePointer.previousVersion) with
    hsame | ⟨v, hswaps⟩
  · have hstays : (rollbackProjection store role).2 = store := hsame
    rw [hstays, hstays]
  obtain ⟨⟨a, previous⟩, hactive, hprevious⟩ := Option.bind_eq_some_iff.1 hswaps.target
  obtain rfl : previous = some v := hprevious
  have hversion : store.activeVersion = some a := by
    rw [activeVersion, hactive]
    rfl
  have hne : v ≠ a := fun heq ↦ hswaps.moves (heq ▸ hversion)
  have hback : Swaps (store.setActive ⟨v, store.activeVersion⟩) role (some a) a :=
    ⟨hswaps.role, rfl, h a hversion, by simpa [activeVersion, setActive] using hne⟩
  have hfirst : (rollbackProjection store role).2 =
      store.setActive ⟨v, store.activeVersion⟩ := swapActive_of_swaps hswaps
  have hsecond : (rollbackProjection (store.setActive ⟨v, store.activeVersion⟩) role).2 =
      (store.setActive ⟨v, store.activeVersion⟩).setActive ⟨a, some v⟩ := by
    rw [hversion] at hback ⊢
    exact swapActive_of_swaps hback
  rw [hfirst, hsecond, hactive]
  rfl

/-- **A rollback returns to the real predecessor.** Along every interleaving in which the pointer is
moved neither onto a slot that is being resumed nor while a run is under way that will move it, the
previous version is recorded as it was, and rolling back twice rolls forward again. -/
theorem pointerLaw_run (hs : s.Quiet) {calls : List (SystemCall S P)}
    (hcalls : Meets systemStep PointerSerialised s calls) :
    PointerLaw (run systemStep s calls).store := by
  have hstart : PointerInv s :=
    ⟨hs.isolationInv, by simp [KnownToHolder, hs.runs], by simp [Recorded, hs.moves]⟩
  have hstep : ∀ (s : System S P) c, PointerInv s → PointerSerialised s c →
      PointerInv (systemStep s c) := fun _ _ h ↦ pointerInv_step h
  have hinv := run_induction hstep hstart hcalls
  exact ⟨hinv.recorded, rollbackProjection_twice hinv.isolation.isolated.ready⟩

end

theorem pointerSerialised_of_runs {s : System S P} {c : SystemCall S P} (hc : Serialised s c)
    (h : (∀ v, ¬ Moves s v c) ∨ s.runs = []) : PointerSerialised s c := by
  refine ⟨hc, fun v hmoves run hrun ↦ ?_⟩
  rcases h with hstill | hnone
  · exact absurd hmoves (hstill v)
  · rw [hnone] at hrun
    cases hrun

/-- Version 3 is built and promoted, and taken back. -/
theorem pointerLaw_run_counter :
    (run systemStep ⟨counterStore, []⟩
        (counterReplay 3 { promote := some true } [] ++ [.rollback .maintainer])).store.active =
          some ⟨1, some 3⟩ ∧
      PointerLaw (run systemStep ⟨counterStore, []⟩
        (counterReplay 3 { promote := some true } [] ++ [.rollback .maintainer])).store := by
  refine ⟨by decide +kernel, pointerLaw_run counterStore_quiet ?_⟩
  exact ⟨pointerSerialised_of_runs
      (serialised_of_runs (by simp [Regular]) (by decide +kernel)) (.inr rfl),
    pointerSerialised_of_runs
      (serialised_of_runs (regular_read (by decide +kernel)) (by decide +kernel))
      (.inl fun _ ↦ id),
    pointerSerialised_of_runs
      (serialised_of_runs (regular_read (by decide +kernel)) (by decide +kernel))
      (.inl fun _ ↦ id),
    pointerSerialised_of_runs (serialised_of_runs trivial (by decide +kernel))
      (.inr (by rfl)), trivial⟩

/-- **Readers are moved while a run is under way that will move them**: version 3 replaces version
2, and version 1 is recorded as its predecessor. -/
theorem promote_during_promoting :
    (run systemStep ⟨counterStore, []⟩
      (counterReplay 3 { promote := some true } [.promote .maintainer 2])).store.moves =
        [⟨⟨2, some 1⟩, some ⟨1, none⟩⟩, ⟨⟨3, some 1⟩, some ⟨2, some 1⟩⟩] := by
  decide +kernel

end Utix.Replay

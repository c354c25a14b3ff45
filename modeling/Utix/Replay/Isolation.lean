import Utix.Replay.System

/-!
# Rebuilds are isolated

What interleaved runs and pointer changes leave of the slots: a rebuild never writes the active one,
the pointer names a ready one, and no run lowers a checkpoint once it has started.

The holder of the lock knows enough about its own slot for that (`Holds`): the slot is not past the
run, it is not ready while it is rebuilt, so that nobody can move the pointer there, and it is not
active while it is written after every batch. The last fact is the one that a pointer change can
break, for a resume finds its slot ready and leaves it so until the first batch. Pointer changes do
not take the lock; they have to be serialised with the running replays by whoever makes them, and
`Serialised` says how much of that is needed.
-/

namespace Utix.Replay

open Js Lib ReplayRun ProjectionStore

variable {S P : Type}

/-! ### The law -/

/-- The run resumes a slot and writes it after every batch. -/
def ReplayRun.resumes (run : ReplayRun S P) : Bool := run.commitPerBatch && !run.isRebuild

/-- **The pointer is not moved onto a slot that is being resumed.** -/
def Serialised (s : System S P) (c : SystemCall S P) : Prop :=
  Regular s c ∧ ∀ v, Moves s v c → ∀ run ∈ s.runs, run.resumes = true → run.version ≠ v

/-- The pointer names a slot that is ready. -/
def ProjectionStore.PointsReady (store : ProjectionStore S) : Prop :=
  ∀ v, store.activeVersion = some v → ∃ slot, store.slots v = some slot ∧ slot.status = .ready

/-- A slot write that disturbs nobody. -/
structure SlotWrite.Isolated (write : SlotWrite S) : Prop where
  /-- A rebuild does not write the active slot. -/
  rebuild : write.rebuild = true → write.active.map ActivePointer.version ≠ some write.version
  /-- The active slot stays ready. -/
  live : write.active.map ActivePointer.version = some write.version → write.slot.status = .ready
  /-- Once its run has started, it does not lower the checkpoint. -/
  checkpoint : write.starting = false → ∀ slot, write.previous = some slot →
    slot.checkpoint ≤ write.slot.checkpoint

/-- The law of isolated rebuilds. -/
structure Isolated (store : ProjectionStore S) : Prop where
  writes : ∀ write ∈ store.writes, write.Isolated
  ready : store.PointsReady

/-- A call of a run that finds the lock in the hands of another. -/
def FindsOther (s : System S P) : SystemCall S P → Prop
  | .read i _ _ _ now _ => ∃ run, s.runs[i]? = some run ∧ run.opts.dryRun = false ∧
      s.store.Refuses run.runId now
  | .readFailed i now _ => ∃ run, s.runs[i]? = some run ∧ run.opts.dryRun = false ∧
      s.store.Refuses run.runId now
  | _ => False

/-- Nothing has happened yet. -/
structure System.Quiet (s : System S P) : Prop where
  runs : s.runs = []
  writes : s.store.writes = []
  moves : s.store.moves = []
  ready : s.store.PointsReady

/-! ### One operation -/

section

variable {run : ReplayRun S P} {starting : Bool} {now : ℤ} {before : Option ActivePointer}
  {store store' : ProjectionStore S}

/-- The checkpoint of the slot is not past that of the run. -/
def ReplayRun.Covers (run : ReplayRun S P) (store : ProjectionStore S) : Prop :=
  ∀ slot, store.slots run.version = some slot → slot.checkpoint ≤ run.checkpoint

variable {status : SlotStatus}

/-- Writing a slot keeps rebuilds apart from the active version. -/
theorem isolated_putSlot (hactive : store.active = before)
    (hstatus : status = .ready ∨ run.commitPerBatch = true)
    (hcovers : starting = false → run.Covers store)
    (hrebuild : run.isRebuild = true → run.commitPerBatch = true)
    (hapart : run.commitPerBatch = true → before.map ActivePointer.version ≠ some run.version)
    (h : Isolated store) :
    Isolated (store.putSlot run.isRebuild starting run.version (run.slot status)) := by
  -- the slot that is written is active only in a run that writes it once, as ready
  have hlive : store.active.map ActivePointer.version = some run.version → status = .ready :=
    fun hversion ↦ hstatus.resolve_right fun hcommit ↦ hapart hcommit (hactive ▸ hversion)
  constructor
  · intro write hwrite
    rcases List.mem_append.1 hwrite with hold | hnew
    · exact h.writes write hold
    obtain rfl := List.mem_singleton.1 hnew
    refine ⟨fun hr ↦ ?_, hlive, fun hstarting slot hslot ↦ hcovers hstarting slot hslot⟩
    rw [hactive]
    exact hapart (hrebuild hr)
  · intro v hv
    by_cases hversion : v = run.version
    · subst hversion
      exact ⟨run.slot status, Function.update_self .., hlive hv⟩
    · obtain ⟨slot, hslot, hready⟩ := h.ready v hv
      exact ⟨slot, (Function.update_of_ne hversion _ _).trans hslot, hready⟩

/-- A run covers what it has written itself. -/
theorem covers_putSlot {rebuild : Bool} :
    run.Covers (store.putSlot rebuild starting run.version (run.slot status)) := by
  intro slot hslot
  simp only [putSlot, Function.update_self, Option.some.injEq] at hslot
  subst hslot
  exact le_rfl

/-- **The operations of a run keep the slots isolated.** -/
theorem isolated_ops (hrebuild : run.isRebuild = true → run.commitPerBatch = true)
    (hapart : run.commitPerBatch = true → before.map ActivePointer.version ≠ some run.version)
    (hcovers : starting = false → run.Covers store) (h : Isolated store)
    (hops : Ops run starting now before store store') : Isolated store' := by
  suffices hboth : Isolated store' ∧ (starting = false → run.Covers store') from hboth.1
  induction hops with
  | refl => exact ⟨h, hcovers⟩
  | tail _ hop ih =>
    cases hop with
    | acquire => exact ⟨⟨ih.1.writes, ih.1.ready⟩, ih.2⟩
    | put _ _ hactive hstatus =>
      exact ⟨isolated_putSlot hactive hstatus ih.2 hrebuild hapart ih.1, fun _ ↦ covers_putSlot⟩
    | activate _ _ _ _ _ hslot =>
      refine ⟨⟨ih.1.writes, fun v hv ↦ ?_⟩, ih.2⟩
      cases hv
      exact ⟨_, hslot, rfl⟩
    | release =>
      rw [releaseLock]
      split
      · exact ⟨⟨ih.1.writes, ih.1.ready⟩, ih.2⟩
      · exact ih

end

/-! ### What the holder knows -/

variable {s : System S P} {c : SystemCall S P}

section

/-- What the holder of the lock knows about its slot: it is not past the run, it is not ready if it
is being rebuilt, and it is not active if it is written after every batch. -/
structure Holds (store : ProjectionStore S) (run : ReplayRun S P) : Prop where
  covers : run.Covers store
  building : run.isRebuild = true → ∀ slot, store.slots run.version = some slot →
    slot.status ≠ .ready
  apart : run.commitPerBatch = true → store.activeVersion ≠ some run.version

/-- A run that writes after every batch does not write the active version. -/
theorem apart_of_commitPerBatch {run : ReplayRun S P} (h : run.commitPerBatch = true) :
    run.active.map ActivePointer.version ≠ some run.version := by
  rw [commitPerBatch, Bool.and_eq_true] at h
  simpa [live] using h.2

/-- The slot of a waiting run that has written it as building. -/
theorem holds_of_update {run : ReplayRun S P} {store after : ProjectionStore S}
    (hslots : after.slots = Function.update store.slots run.version (some (run.slot .building)))
    (hapart : run.commitPerBatch = true → after.activeVersion ≠ some run.version) :
    Holds after run := by
  have hslot : after.slots run.version = some (run.slot .building) := by
    rw [hslots, Function.update_self]
  refine ⟨fun slot h ↦ ?_, fun _ slot h ↦ ?_, hapart⟩
  · cases hslot.symm.trans h
    exact le_rfl
  · cases hslot.symm.trans h
    simp [slot]

/-- What a holder knows about its slot is stable. -/
theorem stable_holds : Stable (Holds (S := S) (P := P)) where
  begun := by
    intro definition opts runId slot now store result run' hbegun hwaits hdry
    obtain ⟨-, hwaiting⟩ := hbegun.stretch.waiting run' hwaits
    have hapart : (fresh definition opts runId store.active slot).commitPerBatch = true →
        result.1.activeVersion ≠ some (fresh definition opts runId store.active slot).version := by
      intro hcommit
      rw [activeVersion, hwaiting.active]
      exact apart_of_commitPerBatch hcommit
    rcases hwaiting.slots with hsame | ⟨-, hwrote⟩
    · rcases hbegun.source with ⟨hrebuild, -⟩ | ⟨hresume, hslot⟩
      · have hcommit := hbegun.commitPerBatch hdry hrebuild
        exact holds_of_update (hbegun.building (by rw [hcommit, hrebuild]; rfl) run' hwaits) hapart
      refine ⟨fun slot' hslot' ↦ ?_, fun hrebuild ↦ absurd hrebuild (by simp [hresume]), hapart⟩
      rw [hsame, hslot] at hslot'
      cases hslot'
      exact le_rfl
    · exact holds_of_update hwrote hapart
  more := by
    intro store run run' hextends h
    refine ⟨fun slot hslot ↦ ?_, fun hrebuild slot hslot ↦ ?_, fun hcommit ↦ ?_⟩
    · rw [hextends.version] at hslot
      exact (h.covers slot hslot).trans hextends.checkpoint
    · rw [hextends.version] at hslot
      exact h.building (hextends.isRebuild ▸ hrebuild) slot hslot
    · rw [hextends.version]
      exact h.apart (hextends.commitPerBatch ▸ hcommit)
  waiting := by
    intro store after run hwaiting h
    have hapart : run.commitPerBatch = true → after.activeVersion ≠ some run.version := by
      intro hcommit
      rw [activeVersion, hwaiting.active]
      exact h.apart hcommit
    rcases hwaiting.slots with hsame | ⟨-, hwrote⟩
    · refine ⟨?_, ?_, hapart⟩
      · rw [ReplayRun.Covers, hsame]
        exact h.covers
      · rw [hsame]
        exact h.building
    · exact holds_of_update hwrote hapart

/-- A serialised pointer change leaves it true. -/
theorem holds_setActive {run : ReplayRun S P} (hc : Serialised s c) {v : ℤ} (hmoves : Moves s v c)
    (hrun : run ∈ s.runs) (h : Holds s.store run) :
    Holds (s.store.setActive ⟨v, s.store.activeVersion⟩) run := by
  refine ⟨h.covers, h.building, fun hcommit hversion ↦ ?_⟩
  cases hversion
  cases hrebuild : run.isRebuild with
  | true =>
    obtain ⟨slot, hslot, hready⟩ := hmoves.ready
    exact h.building hrebuild slot hslot hready
  | false =>
    exact hc.2 _ hmoves run hrun (by rw [resumes, hcommit, hrebuild]; rfl) rfl

/-- The invariant of isolated rebuilds. -/
structure IsolationInv (s : System S P) : Prop where
  started : Started s
  holder : KnownToHolder Holds s
  isolated : Isolated s.store

/-- **Every call keeps the invariant.** -/
theorem isolationInv_step (h : IsolationInv s) (hc : Serialised s c) :
    IsolationInv (systemStep s c) where
  started := started_step h.started hc.1
  holder := knownToHolder_step stable_holds h.started hc.1
    (fun _ hmoves _ hrun _ _ hholds ↦ holds_setActive hc hmoves hrun hholds) h.holder
  isolated := by
    refine store_step hc.1 h.holder ?_ ?_ ?_ h.isolated
    · intro definition opts runId slot now result hbegun hdry
      exact isolated_ops (hbegun.commitPerBatch hdry) apart_of_commitPerBatch (by simp) h.isolated
        hbegun.stretch.ops
    · intro run run' now store' hrun hdry hholds hextends hops
      have hholds' := stable_holds.more hextends hholds
      refine isolated_ops (fun hrebuild ↦ ?_) hholds'.apart (fun _ ↦ hholds'.covers) h.isolated hops
      rw [hextends.commitPerBatch]
      exact h.started.rebuild run hrun hdry (hextends.isRebuild ▸ hrebuild)
    · intro v hmoves
      refine ⟨h.isolated.writes, fun w hw ↦ ?_⟩
      cases hw
      exact hmoves.ready

/-- The invariant holds while nothing runs. -/
theorem System.Quiet.isolationInv (h : s.Quiet) : IsolationInv s :=
  ⟨⟨by simp [h.runs], by simp [h.runs]⟩, by simp [KnownToHolder, h.runs],
    ⟨by simp [h.writes], h.ready⟩⟩

/-- A run that finds the lock in the hands of another leaves the store alone. -/
theorem store_of_findsOther (h : FindsOther s c) : (systemStep s c).store = s.store := by
  cases c with
  | read i registry throws batch now faults =>
    obtain ⟨run, hrun, -, hrefuses⟩ := h
    rw [systemStep, hrun]
    simp only [ofResult_store]
    refine eq_of_ops_refused ?_ (stretch_afterRead registry throws batch).ops
    rw [(extends_folded run registry throws batch).runId]
    exact hrefuses
  | readFailed i now faults =>
    obtain ⟨run, hrun, -, hrefuses⟩ := h
    rw [systemStep, hrun]
    simp only [ofResult_store]
    rcases readFailed_cases run now faults s.store with heq | hending
    · rw [heq]
    · exact eq_of_ops_refused hrefuses hending.ops
  | start => exact absurd h id
  | crash => exact absurd h id
  | promote => exact absurd h id
  | rollback => exact absurd h id

/-- **Rebuilds are isolated.** Along every interleaving in which runs have ids of their own and go
on undisturbed, and the pointer is not moved onto a slot that is being resumed: no rebuild writes
the active slot, the pointer names a ready slot, no run lowers the checkpoint of a slot once it has
started, and a run that finds the lock in the hands of another leaves the store alone. -/
theorem isolated_run (hs : s.Quiet) {calls : List (SystemCall S P)}
    (hcalls : Meets systemStep Serialised s calls) :
    Isolated (run systemStep s calls).store ∧
      Meets systemStep (fun s c ↦ FindsOther s c → (systemStep s c).store = s.store) s calls := by
  have hstep : ∀ (s : System S P) c, IsolationInv s → Serialised s c →
      IsolationInv (systemStep s c) := fun _ _ h ↦ isolationInv_step h
  exact ⟨(run_induction hstep hs.isolationInv hcalls).isolated,
    meets_of_meets hstep (fun _ _ _ _ ↦ store_of_findsOther) hs.isolationInv hcalls⟩

end

/-! ### Two versions of a counter -/

/-- A projection that counts its events. -/
def counterDefinition (version : ℤ) : ProjectionDefinition ℤ ℤ where
  version := version
  eventVersions _ := some 1
  initial := 0
  apply state _ := some (state + 1)
  validate _ := some []

/-- Two versions are ready, and the first one is active. -/
def counterStore : ProjectionStore ℤ where
  slots v := if v = 1 ∨ v = 2 then some ⟨3, 3, .ready, 3⟩ else none
  active := some ⟨1, none⟩
  lock := none
  writes := []
  moves := []

theorem counterStore_quiet : (⟨counterStore, []⟩ : System ℤ ℤ).Quiet where
  runs := rfl
  writes := rfl
  moves := rfl
  ready := by
    intro v hv
    cases hv
    exact ⟨⟨3, 3, .ready, 3⟩, rfl, rfl⟩

instance decidableOwned (store : ProjectionStore S) (owner : JsString) :
    Decidable (store.Owned owner) :=
  inferInstanceAs (Decidable (store.lock.map ReplayLock.owner = some owner))

theorem regular_read {i : ℕ} {registry : UpcasterRegistry P} {throws : ReplayEvent P → Bool}
    {batch : List (ReplayEvent P)} {now : ℤ} {faults : Faults}
    (h : ∀ run ∈ s.runs[i]?, s.store.Owned run.runId) :
    Regular s (.read i registry throws batch now faults) :=
  fun run hrun ↦ .inr (.inl (h run hrun))

theorem serialised_of_runs (hc : Regular s c) (h : ∀ run ∈ s.runs, run.resumes = false) :
    Serialised s c :=
  ⟨hc, fun _ _ run hrun hresumes ↦ absurd hresumes (by simp [h run hrun])⟩

/-- Version `version` is replayed: the run starts, gets one event, and is through. In between, some
other calls are made. -/
def counterReplay (version : ℤ) (options : ReplayOptions) (meanwhile : List (SystemCall ℤ ℤ)) :
    List (SystemCall ℤ ℤ) :=
  let fine : Faults := fun _ ↦ false
  [.start (counterDefinition version) .maintainer options (js "r") 0 fine] ++ meanwhile ++
    [.read 0 ⟨[], List.nodup_nil⟩ (fun _ ↦ false) [⟨js "e", 4, js "tick", 1, 0⟩] 1 fine,
      .read 0 ⟨[], List.nodup_nil⟩ (fun _ ↦ false) [] 2 fine]

/-- Version 3 is built and promoted, while readers are moved to version 2 and back. -/
theorem isolated_run_counter :
    (run systemStep ⟨counterStore, []⟩
        (counterReplay 3 { promote := some true }
          [.promote .maintainer 2, .rollback .maintainer])).store.active = some ⟨3, some 1⟩ ∧
      Isolated (run systemStep ⟨counterStore, []⟩
        (counterReplay 3 { promote := some true }
          [.promote .maintainer 2, .rollback .maintainer])).store := by
  refine ⟨by decide +kernel, (isolated_run counterStore_quiet ?_).1⟩
  exact ⟨serialised_of_runs (by simp [Regular]) (by decide +kernel),
    serialised_of_runs trivial (by decide +kernel),
    serialised_of_runs trivial (by decide +kernel),
    serialised_of_runs (regular_read (by decide +kernel)) (by decide +kernel),
    serialised_of_runs (regular_read (by decide +kernel)) (by decide +kernel), trivial⟩

/-- **Readers are moved onto a slot that is being resumed**: the next batch makes it a building
one. -/
theorem promote_onto_resumed :
    let s := run systemStep ⟨counterStore, []⟩
      ((counterReplay 2 { mode := some .resume } [.promote .maintainer 2]).take 3)
    s.store.active = some ⟨2, some 1⟩ ∧
      (s.store.slots 2).map ProjectionSlot.status = some .building := by
  decide +kernel

end Utix.Replay

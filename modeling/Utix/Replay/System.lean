import Utix.Replay.Effects

/-!
# Interleaved replays

Any number of runs of one projection share its store: each goes on whenever its source has answered,
promotions and rollbacks come in between, and time passes, so that a lease may run out. `System` is
the store with the runs in flight, and a call of it is one stretch of one run or one pointer change.

What keeps the runs apart is the lock. A run only writes in its own name, so a stretch of one run
that touches the store at all takes the lock away from every other run (`eq_or_lost_of_ops`). What a
run has read of the store is therefore still true as long as the lock is in its name; `Stable` says
which facts are of this kind, `knownToHolder_step` carries them through every call, and `store_step`
uses them for what holds of the store.

One thing is outside this argument. `ownsLock` takes a lock that is free or expired, so a run that
has lost its lease finds out only while the other run still holds it: `Undisturbed` asks for that.
-/

namespace Utix.Replay

open Js List ProjectionStore

variable {S P : Type}

/-! ### The system -/

/-- The store of a projection, and the runs that wait for their source. -/
structure System (S P : Type) where
  store : ProjectionStore S
  runs : List (ReplayRun S P)

/-- A run starts; the source of the `i`-th run answers, or fails; its process dies; the pointer is
moved. -/
inductive SystemCall (S P : Type)
  | start (definition : ProjectionDefinition S P) (role : Workers.Role) (options : ReplayOptions)
      (runId : JsString) (now : ℤ) (faults : Faults)
  | read (i : ℕ) (registry : UpcasterRegistry P) (throws : ReplayEvent P → Bool)
      (batch : List (ReplayEvent P)) (now : ℤ) (faults : Faults)
  | readFailed (i : ℕ) (now : ℤ) (faults : Faults)
  | crash (i : ℕ)
  | promote (role : Workers.Role) (version : ℤ)
  | rollback (role : Workers.Role)

/-- The system after a stretch, with the other runs. -/
def System.ofResult (others : List (ReplayRun S P)) :
    ProjectionStore S × Progress S P → System S P
  | (store, .waiting run) => ⟨store, run :: others⟩
  | (store, .ended _) => ⟨store, others⟩

def systemStep (s : System S P) : SystemCall S P → System S P
  | .start definition role options runId now faults =>
    .ofResult s.runs (startReplay definition role options runId now faults s.store)
  | .read i registry throws batch now faults =>
    match s.runs[i]? with
    | none => s
    | some run =>
      .ofResult (s.runs.eraseIdx i) (afterRead run now faults s.store registry throws batch)
  | .readFailed i now faults =>
    match s.runs[i]? with
    | none => s
    | some run => .ofResult (s.runs.eraseIdx i) (Replay.readFailed run now faults s.store)
  | .crash i => ⟨s.store, s.runs.eraseIdx i⟩
  | .promote role version => ⟨(promoteProjection s.store role version).2, s.runs⟩
  | .rollback role => ⟨(rollbackProjection s.store role).2, s.runs⟩

/-! ### Pointer changes -/

/-- The version the pointer names. -/
def ProjectionStore.activeVersion (store : ProjectionStore S) : Option ℤ :=
  store.active.map ActivePointer.version

/-- `swapActive` moves the pointer to `v`. -/
structure Swaps (store : ProjectionStore S) (role : Workers.Role) (target : Option ℤ) (v : ℤ) :
    Prop where
  role : mayReplay role = true
  target : target = some v
  slot : ∃ slot, store.slots v = some slot ∧ slot.status = .ready
  moves : store.activeVersion ≠ some v

variable {store : ProjectionStore S}

theorem swapActive_of_swaps {role : Workers.Role} {target : Option ℤ} {v : ℤ}
    (h : Swaps store role target v) :
    (swapActive store role target).2 = store.setActive ⟨v, store.activeVersion⟩ := by
  obtain ⟨slot, hslot, hready⟩ := h.slot
  have hmoves := h.moves
  rw [activeVersion] at hmoves
  rw [swapActive, if_neg (by simp [h.role]), h.target]
  simp [hslot, hready, hmoves, activeVersion]

/-- A pointer change is refused, or it moves the pointer to a version that may be active. -/
theorem swapActive_cases (store : ProjectionStore S) (role : Workers.Role) (target : Option ℤ) :
    (swapActive store role target).2 = store ∨ ∃ v, Swaps store role target v := by
  rw [swapActive]
  split
  · exact .inl rfl
  next hrole =>
    split
    · exact .inl rfl
    next v slot htarget =>
    split
    · exact .inl rfl
    next hready =>
    obtain ⟨w, hw, hslot⟩ := Option.bind_eq_some_iff.1 htarget
    obtain ⟨slot', hslot', heq⟩ := Option.map_eq_some_iff.1 hslot
    obtain ⟨rfl, rfl⟩ := Prod.mk.inj heq
    rw [not_or, not_not] at hready
    exact .inr ⟨w, by simpa using hrole, hw, ⟨slot', hslot', hready.1⟩, hready.2⟩

/-- The call moves the pointer to `v`. -/
def Moves (s : System S P) (v : ℤ) : SystemCall S P → Prop
  | .promote role version => Swaps s.store role (some version) v
  | .rollback role => Swaps s.store role (s.store.active.bind ActivePointer.previousVersion) v
  | _ => False

variable {c : SystemCall S P}

theorem Moves.ready {s : System S P} {v : ℤ} (h : Moves s v c) :
    ∃ slot, s.store.slots v = some slot ∧ slot.status = .ready := by
  cases c with
  | promote role version => exact h.slot
  | rollback role => exact h.slot
  | start => exact absurd h id
  | read => exact absurd h id
  | readFailed => exact absurd h id
  | crash => exact absurd h id

/-! ### Undisturbed runs -/

/-- The run is a dry one, or the lock is still in its name, or another run holds it. What is left
out: the lock has gone to another run in the meantime, and is free again or expired. -/
def ReplayRun.Undisturbed (run : ReplayRun S P) (store : ProjectionStore S) (now : ℤ) : Prop :=
  run.opts.dryRun = true ∨ store.Owned run.runId ∨ store.Refuses run.runId now

/-- A run gets an id of its own, and goes on undisturbed. -/
def Regular (s : System S P) : SystemCall S P → Prop
  | .start _ _ _ runId _ _ => ∀ run ∈ s.runs, run.runId ≠ runId
  | .read i _ _ _ now _ => ∀ run, s.runs[i]? = some run → run.Undisturbed s.store now
  | .readFailed i now _ => ∀ run, s.runs[i]? = some run → run.Undisturbed s.store now
  | _ => True

/-! ### One operation -/

variable {run : ReplayRun S P} {now : ℤ} {before : Option ActivePointer}

section

variable {starting : Bool} {store store' : ProjectionStore S}

/-- **An operation of one run leaves nothing to another**: the store is as it was, or the lock is
not in the name of the other. -/
theorem eq_or_lost_of_ops {owner : JsString} (hne : run.runId ≠ owner)
    (hops : Ops run starting now before store store') : store' = store ∨ ¬ store'.Owned owner := by
  have hother : ∀ {mid : ProjectionStore S}, mid.Owned run.runId → ¬ mid.Owned owner :=
    fun hown hown' ↦ hne (Option.mem_unique hown hown')
  induction hops with
  | refl => exact .inl rfl
  | tail _ hop ih =>
    cases hop with
    | acquire => exact .inr (hother rfl)
    | put _ hown => exact .inr (hother hown)
    | activate _ hown => exact .inr (hother hown)
    | release =>
      rw [releaseLock]
      split
      · exact .inr (by simp [ProjectionStore.Owned])
      · exact ih

/-- A run that finds the lock in the hands of another leaves the store alone. -/
theorem eq_of_ops_refused (hrefuses : store.Refuses run.runId now)
    (hops : Ops run starting now before store store') : store' = store := by
  obtain ⟨held, hlock, hne, hlive⟩ := hrefuses
  have hnot : ¬ store.Owned run.runId := by
    rw [ProjectionStore.Owned, hlock]
    simpa using hne
  induction hops with
  | refl => rfl
  | tail _ hop ih =>
    subst ih
    cases hop with
    | acquire _ hfree => exact absurd ⟨held, hlock, hne, hlive⟩ hfree
    | put _ hown => exact absurd hown hnot
    | activate _ hown => exact absurd hown hnot
    | release =>
      rw [releaseLock]
      exact if_neg hnot

end

/-! ### What the holder of the lock knows -/

/-- A fact about the store that a run finds when it starts, and that its own stretches keep. -/
structure Stable (K : ProjectionStore S → ReplayRun S P → Prop) : Prop where
  begun : ∀ {definition opts runId slot now store result run'},
    Begun (.fresh definition opts runId store.active slot) slot now store result →
    result.2 = .waiting run' → opts.dryRun = false →
    K result.1 (.fresh definition opts runId store.active slot)
  more : ∀ {store run run'}, Extends run run' → K store run → K store run'
  waiting : ∀ {store after run}, Waiting run store after → K store run → K after run

/-- The run in whose name the lock is knows `K`. -/
def KnownToHolder (K : ProjectionStore S → ReplayRun S P → Prop) (s : System S P) : Prop :=
  ∀ run ∈ s.runs, run.opts.dryRun = false → s.store.Owned run.runId → K s.store run

/-- The runs in flight have ids of their own, and a rebuild among them commits after every batch. -/
structure Started (s : System S P) : Prop where
  ids : (s.runs.map ReplayRun.runId).Nodup
  rebuild : ∀ run ∈ s.runs, run.opts.dryRun = false → run.isRebuild = true →
    run.commitPerBatch = true

variable {run' : ReplayRun S P} {K : ProjectionStore S → ReplayRun S P → Prop}
  {result : ProjectionStore S × Progress S P}

section

variable {s : System S P}

theorem Extends.retried (run : ReplayRun S P) (attempt retries : ℕ) :
    Extends run { run with attempt := attempt, retries := retries } :=
  ⟨rfl, rfl, rfl, rfl, le_rfl⟩

theorem Extends.commitPerBatch (h : Extends run run') :
    run'.commitPerBatch = run.commitPerBatch := by
  rw [ReplayRun.commitPerBatch, ReplayRun.live, ReplayRun.version, h.definition, h.opts, h.active]
  rfl

theorem Extends.isRebuild (h : Extends run run') : run'.isRebuild = run.isRebuild := by
  simp only [ReplayRun.isRebuild, h.opts]

theorem Extends.version (h : Extends run run') : run'.version = run.version := by
  simp only [ReplayRun.version, h.definition]

/-- What the system is like after a stretch of a run, given what the run is like if it waits. -/
theorem ofResult_cases (others : List (ReplayRun S P)) (result : ProjectionStore S × Progress S P) :
    (∃ run, result.2 = .waiting run ∧
        System.ofResult others result = ⟨result.1, run :: others⟩) ∨
      (System.ofResult others result = ⟨result.1, others⟩) := by
  obtain ⟨store, run | outcome⟩ := result
  · exact .inl ⟨run, rfl, rfl⟩
  · exact .inr rfl

theorem ofResult_of_ended {others : List (ReplayRun S P)}
    {result : ProjectionStore S × Progress S P} {outcome : Outcome S}
    (h : result.2 = .ended outcome) : System.ofResult others result = ⟨result.1, others⟩ := by
  obtain ⟨store, progress⟩ := result
  obtain rfl : progress = .ended outcome := h
  rfl

/-- The run that goes on is none of the others. -/
theorem Started.ne_of_mem_eraseIdx (h : Started s) {i : ℕ} {other : ReplayRun S P}
    (hrun : s.runs[i]? = some run) (hother : other ∈ s.runs.eraseIdx i) :
    run.runId ≠ other.runId := by
  obtain ⟨hi, rfl⟩ := List.getElem?_eq_some_iff.1 hrun
  have hperm := (getElem_cons_eraseIdx_perm hi).map ReplayRun.runId
  have hnodup := hperm.nodup_iff.2 h.ids
  rw [map_cons, nodup_cons] at hnodup
  exact fun heq ↦ hnodup.1 (heq ▸ mem_map_of_mem hother)

variable {others : List (ReplayRun S P)}

/-- A stretch of one run keeps what the others know. -/
theorem knownToHolder_ofResult {starting : Bool} (hops : Ops run starting now before store result.1)
    (hne : ∀ other ∈ others, run.runId ≠ other.runId) (h : KnownToHolder K ⟨store, others⟩)
    (hwaiting : ∀ run', result.2 = .waiting run' → run'.opts.dryRun = false →
      result.1.Owned run'.runId → K result.1 run') : KnownToHolder K (.ofResult others result) := by
  have hothers : ∀ other ∈ others, other.opts.dryRun = false → result.1.Owned other.runId →
      K result.1 other := by
    intro other hother hdry hown
    rcases eq_or_lost_of_ops (hne other hother) hops with hsame | hlost
    · rw [hsame] at hown ⊢
      exact h other hother hdry hown
    · exact absurd hown hlost
  rcases ofResult_cases others result with ⟨run', hrun', heq⟩ | heq <;> rw [heq]
  · intro other hother
    rcases mem_cons.1 hother with rfl | hother
    · exact hwaiting other hrun'
    · exact hothers other hother
  · exact hothers

/-- **Facts about a run in flight**: either of a stretch's two sources for them. -/
theorem knownToHolder_step (hK : Stable K)
    (hstarted : Started s) (hc : Regular s c)
    (hmoves : ∀ v, Moves s v c → ∀ run ∈ s.runs, run.opts.dryRun = false →
      s.store.Owned run.runId → K s.store run →
        K (s.store.setActive ⟨v, s.store.activeVersion⟩) run)
    (h : KnownToHolder K s) : KnownToHolder K (systemStep s c) := by
  have herased : ∀ i, KnownToHolder K ⟨s.store, s.runs.eraseIdx i⟩ :=
    fun i run hrun ↦ h run (mem_of_mem_eraseIdx hrun)
  -- a run that waits has the lock, and an undisturbed one had it before
  have hknew : ∀ {i : ℕ} {run : ReplayRun S P} {now : ℤ} {store' : ProjectionStore S},
      s.runs[i]? = some run → run.Undisturbed s.store now → run.opts.dryRun = false →
      (s.store.Refuses run.runId now → store' = s.store) → store'.Owned run.runId →
      K s.store run := by
    intro i run now store' hrun hund hdry hrefused hown
    have hmem := mem_of_getElem? hrun
    rcases hund with hwasDry | howned | hrefuses
    · exact absurd hwasDry (by simp [hdry])
    · exact h run hmem hdry howned
    · exact h run hmem hdry (hrefused hrefuses ▸ hown)
  have hswap : ∀ role target, (∀ v, Swaps s.store role target v → Moves s v c) →
      KnownToHolder K ⟨(swapActive s.store role target).2, s.runs⟩ := by
    intro role target hmove run hrun hdry hown
    rcases swapActive_cases s.store role target with hsame | ⟨v, hswaps⟩
    · simp only [hsame] at hown ⊢
      exact h run hrun hdry hown
    · simp only [swapActive_of_swaps hswaps] at hown ⊢
      exact hmoves v (hmove v hswaps) run hrun hdry hown (h run hrun hdry hown)
  cases c with
  | start definition role options runId now faults =>
    rw [systemStep]
    rcases startReplay_cases definition role options runId now faults s.store with
      ⟨hsame, outcome, hended, -⟩ | ⟨slot, hbegun⟩
    · rw [ofResult_of_ended hended, hsame]
      exact h
    · refine knownToHolder_ofResult hbegun.stretch.ops (fun run hrun ↦ (hc run hrun).symm) h
        fun run' hrun' hdry hown ↦ ?_
      obtain ⟨rfl, -⟩ := hbegun.stretch.waiting run' hrun'
      exact hK.more (.retried _ _ _) (hK.begun hbegun hrun' hdry)
  | read i registry throws batch now faults =>
    rw [systemStep]
    split
    · exact h
    next run hrun =>
    have hstretch := @stretch_afterRead _ _ run now faults s.store registry throws batch
    have hextends := extends_folded run registry throws batch
    refine knownToHolder_ofResult hstretch.ops
      (fun other hother ↦ hextends.runId ▸ hstarted.ne_of_mem_eraseIdx hrun hother) (herased i)
      fun run' hrun' hdry hown ↦ ?_
    obtain ⟨rfl, hwaiting⟩ := hstretch.waiting run' hrun'
    have hknown := hknew hrun (hc run hrun) (hextends.opts ▸ hdry)
      (fun hrefuses ↦ eq_of_ops_refused (hextends.runId ▸ hrefuses) hstretch.ops)
      (hextends.runId ▸ hown)
    exact hK.more (.retried _ _ _) (hK.waiting hwaiting (hK.more hextends hknown))
  | readFailed i now faults =>
    rw [systemStep]
    split
    · exact h
    next run hrun =>
    rcases readFailed_cases run now faults s.store with heq | hending
    · rw [heq]
      have hops : Ops run false now none s.store s.store := .refl
      refine knownToHolder_ofResult hops
        (fun other hother ↦ hstarted.ne_of_mem_eraseIdx hrun hother) (herased i)
        fun run' hrun' hdry hown ↦ ?_
      cases hrun'
      exact hK.more (.retried _ _ _) (h run (mem_of_getElem? hrun) hdry hown)
    · exact knownToHolder_ofResult hending.ops
        (fun other hother ↦ hstarted.ne_of_mem_eraseIdx hrun hother) (herased i)
        fun run' hrun' ↦ absurd hrun' (hending.not_waiting run')
  | crash i => exact herased i
  | promote role version => exact hswap role _ fun v hv ↦ hv
  | rollback role => exact hswap role _ fun v hv ↦ hv

@[simp] theorem ofResult_store (others : List (ReplayRun S P))
    (result : ProjectionStore S × Progress S P) :
    (System.ofResult others result).store = result.1 := by
  rcases ofResult_cases others result with ⟨run, -, heq⟩ | heq <;> rw [heq]

/-- **What the store is like after a call**, from what a new run, the operations of a run that knows
`K`, and a pointer change make of it. -/
theorem store_step {L : ProjectionStore S → Prop} (hc : Regular s c) (hknown : KnownToHolder K s)
    (hbegun : ∀ {definition : ProjectionDefinition S P} {opts runId slot now result},
      Begun (.fresh definition opts runId s.store.active slot) slot now s.store result →
      opts.dryRun = false → L result.1)
    (hops : ∀ {run run' now store'}, run ∈ s.runs → run.opts.dryRun = false → K s.store run →
      Extends run run' → Ops run' false now s.store.active s.store store' → L store')
    (hmoves : ∀ v, Moves s v c → L (s.store.setActive ⟨v, s.store.activeVersion⟩))
    (h : L s.store) : L (systemStep s c).store := by
  have hrun : ∀ {i : ℕ} {run run' : ReplayRun S P} {now : ℤ} {store' : ProjectionStore S},
      s.runs[i]? = some run → run.Undisturbed s.store now → Extends run run' →
      Ops run' false now s.store.active s.store store' → L store' := by
    intro i run run' now store' hrun hund hextends hrest
    have hmem := mem_of_getElem? hrun
    cases hdry : run.opts.dryRun with
    | true => exact eq_of_ops_dry (hextends.opts ▸ hdry) hrest ▸ h
    | false =>
      rcases hund with hwasDry | howned | hrefuses
      · exact absurd hwasDry (by simp [hdry])
      · exact hops hmem hdry (hknown run hmem hdry howned) hextends hrest
      · exact eq_of_ops_refused (hextends.runId ▸ hrefuses) hrest ▸ h
  have hswap : ∀ role target, (∀ v, Swaps s.store role target v → Moves s v c) →
      L (swapActive s.store role target).2 := by
    intro role target hmove
    rcases swapActive_cases s.store role target with hsame | ⟨v, hswaps⟩
    · rw [hsame]
      exact h
    · rw [swapActive_of_swaps hswaps]
      exact hmoves v (hmove v hswaps)
  cases c with
  | start definition role options runId now faults =>
    rw [systemStep, ofResult_store]
    rcases startReplay_cases definition role options runId now faults s.store with
      ⟨hsame, -⟩ | ⟨slot, hnew⟩
    · rw [hsame]
      exact h
    cases hdry : options.resolve.dryRun with
    | true =>
      rw [eq_of_ops_dry (by exact hdry) hnew.stretch.ops]
      exact h
    | false => exact hbegun hnew hdry
  | read i registry throws batch now faults =>
    rw [systemStep]
    split
    · exact h
    next run hget =>
    rw [ofResult_store]
    exact hrun hget (hc run hget) (extends_folded run registry throws batch)
      (stretch_afterRead registry throws batch).ops
  | readFailed i now faults =>
    rw [systemStep]
    split
    · exact h
    next run hget =>
    rw [ofResult_store]
    rcases readFailed_cases run now faults s.store with heq | hending
    · rw [heq]
      exact h
    · exact hrun hget (hc run hget) (.refl run) hending.ops
  | crash i => exact h
  | promote role version => exact hswap role _ fun v hv ↦ hv
  | rollback role => exact hswap role _ fun v hv ↦ hv

/-- A rebuild that writes at all commits after every batch. -/
theorem Begun.commitPerBatch {slot : ProjectionSlot S} (h : Begun run slot now store result)
    (hdry : run.opts.dryRun = false) (hrebuild : run.isRebuild = true) :
    run.commitPerBatch = true := by
  rcases h.source with ⟨-, -, hlive⟩ | ⟨hresume, -⟩
  · rw [ReplayRun.commitPerBatch, hdry, hlive hdry]
    rfl
  · exact absurd hrebuild (by simp [hresume])

theorem started_ofResult (hne : ∀ other ∈ others, run.runId ≠ other.runId)
    (hrebuild : run.opts.dryRun = false → run.isRebuild = true → run.commitPerBatch = true)
    (hwaiting : ∀ run', result.2 = .waiting run' → Extends run run') (h : Started ⟨store, others⟩) :
    Started (.ofResult others result) := by
  rcases ofResult_cases others result with ⟨run', hrun', heq⟩ | heq <;> rw [heq]
  · have hextends := hwaiting run' hrun'
    constructor
    · rw [map_cons, nodup_cons, hextends.runId]
      refine ⟨fun hmem ↦ ?_, h.ids⟩
      obtain ⟨other, hother, heq⟩ := mem_map.1 hmem
      exact hne other hother heq.symm
    · intro other hother
      rcases mem_cons.1 hother with rfl | hother
      · rw [hextends.opts, hextends.isRebuild, hextends.commitPerBatch]
        exact hrebuild
      · exact h.rebuild other hother
  · exact ⟨h.ids, h.rebuild⟩

/-- The step: a new run brings an id of its own, and no call changes the options of a run. -/
theorem started_step (h : Started s) (hc : Regular s c) : Started (systemStep s c) := by
  have herased : ∀ i, Started ⟨s.store, s.runs.eraseIdx i⟩ := fun i ↦
    ⟨h.ids.sublist ((eraseIdx_sublist s.runs i).map _),
      fun run hrun ↦ h.rebuild run (mem_of_mem_eraseIdx hrun)⟩
  cases c with
  | start definition role options runId now faults =>
    rw [systemStep]
    rcases startReplay_cases definition role options runId now faults s.store with
      ⟨-, outcome, hended, -⟩ | ⟨slot, hbegun⟩
    · rw [ofResult_of_ended hended]
      exact ⟨h.ids, h.rebuild⟩
    · refine started_ofResult (fun run hrun ↦ (hc run hrun).symm) hbegun.commitPerBatch
        (fun run' hrun' ↦ ?_) h
      obtain ⟨rfl, -⟩ := hbegun.stretch.waiting run' hrun'
      exact .retried _ _ _
  | read i registry throws batch now faults =>
    rw [systemStep]
    split
    · exact h
    next run hrun =>
    refine started_ofResult (fun other hother ↦ h.ne_of_mem_eraseIdx hrun hother)
      (h.rebuild run (mem_of_getElem? hrun)) (fun run' hrun' ↦ ?_) (herased i)
    obtain ⟨rfl, -⟩ := (stretch_afterRead registry throws batch).waiting run' hrun'
    exact (extends_folded run registry throws batch).trans (.retried _ _ _)
  | readFailed i now faults =>
    rw [systemStep]
    split
    · exact h
    next run hrun =>
    refine started_ofResult (fun other hother ↦ h.ne_of_mem_eraseIdx hrun hother)
      (h.rebuild run (mem_of_getElem? hrun)) (fun run' hrun' ↦ ?_) (herased i)
    rcases readFailed_cases run now faults s.store with heq | hending
    · rw [heq] at hrun'
      cases hrun'
      exact .retried _ _ _
    · exact absurd hrun' (hending.not_waiting run')
  | crash i => exact herased i
  | promote role version => exact ⟨h.ids, h.rebuild⟩
  | rollback role => exact ⟨h.ids, h.rebuild⟩

end

end Utix.Replay

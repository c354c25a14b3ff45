import Mathlib.Tactic.Common

/-!
# Optimistic cells

A cell holds a state and a version. A writer reads both, computes the next state at leisure, and
installs it with a compare-and-set on the version it has read; if another writer came first, nothing
happens and it may try again.

The version is what makes this safe. A snapshot that was read from the cell lies `Behind` it for
ever: its version is not larger, and if the versions agree, so do the states. So a compare-and-set
that succeeds has computed on the present state, and the history of a cell is `Serial`: applying the
committed entries one after the other to the first state gives the last one, and the version counts
them.
-/

namespace Lib.Optimistic

open List

variable {σ γ : Type*}

/-- A versioned state. -/
structure Cell (σ : Type*) where
  version : ℕ
  state : σ
  deriving DecidableEq

/-- Install a state if the version is the expected one; `none` is a lost race. -/
def Cell.compareAndSet (cell : Cell σ) (expectedVersion : ℕ) (next : σ) : Option (Cell σ) :=
  if cell.version = expectedVersion then some ⟨expectedVersion + 1, next⟩ else none

/-- The snapshot was read from the cell, now or earlier. -/
structure Behind (snapshot cell : Cell σ) : Prop where
  le : snapshot.version ≤ cell.version
  state_eq : snapshot.version = cell.version → snapshot.state = cell.state

theorem Behind.refl (cell : Cell σ) : Behind cell cell := ⟨Nat.le_refl _, fun _ ↦ rfl⟩

variable {cell next : Cell σ} {expectedVersion : ℕ} {state : σ}

/-- A compare-and-set succeeds on the version it expects, and counts it up. -/
theorem Cell.compareAndSet_eq_some (h : cell.compareAndSet expectedVersion state = some next) :
    cell.version = expectedVersion ∧ next.version = cell.version + 1 ∧ next.state = state := by
  rw [compareAndSet] at h
  split at h
  · next heq =>
    cases h
    exact ⟨heq, by rw [heq], rfl⟩
  · cases h

/-- **A snapshot stays behind**, whoever commits. -/
theorem Behind.compareAndSet {snapshot : Cell σ} (h : Behind snapshot cell)
    (hset : cell.compareAndSet expectedVersion state = some next) : Behind snapshot next := by
  obtain ⟨-, hversion, -⟩ := Cell.compareAndSet_eq_some hset
  have hle := h.le
  exact ⟨by omega, fun heq ↦ by omega⟩

/-- **The history of a cell**: entries applied one after the other, and counted by the version. -/
structure Serial (apply : σ → γ → Option σ) (start : Cell σ) (log : List γ) (cell : Cell σ) :
    Prop where
  state : log.foldlM apply start.state = some cell.state
  version : cell.version = start.version + log.length

theorem Serial.nil (apply : σ → γ → Option σ) (start : Cell σ) : Serial apply start [] start :=
  ⟨rfl, rfl⟩

variable {apply : σ → γ → Option σ}

/-- **A commit extends the history**: the entry was computed on a snapshot, and its compare-and-set
succeeded. -/
theorem Serial.concat {start snapshot : Cell σ} {log : List γ} (h : Serial apply start log cell)
    (hbehind : Behind snapshot cell) {entry : γ} (happly : apply snapshot.state entry = some state)
    (hset : cell.compareAndSet snapshot.version state = some next) :
    Serial apply start (log ++ [entry]) next := by
  obtain ⟨hcurrent, hversion, hstate⟩ := Cell.compareAndSet_eq_some hset
  rw [hbehind.state_eq hcurrent.symm] at happly
  refine ⟨?_, by rw [hversion, h.version, length_append, length_singleton, Nat.add_assoc]⟩
  rw [foldlM_append, h.state, hstate]
  show foldlM apply cell.state [entry] = some state
  rw [foldlM_cons, happly]
  rfl

/-- **What every entry preserves, the cell preserves.** -/
theorem Serial.invariant {start : Cell σ} {log : List γ} (h : Serial apply start log cell)
    {P : σ → Prop} (hstep : ∀ s entry s', P s → apply s entry = some s' → P s')
    (hstart : P start.state) : P cell.state := by
  obtain ⟨hstate, -⟩ := h
  generalize start.state = s at hstate hstart
  induction log generalizing s with
  | nil => exact Option.some.inj hstate ▸ hstart
  | cons entry log ih =>
    rw [foldlM_cons] at hstate
    obtain ⟨s', happly, hrest⟩ := Option.bind_eq_some_iff.1 hstate
    exact ih s' hrest (hstep s entry s' hstart happly)

end Lib.Optimistic

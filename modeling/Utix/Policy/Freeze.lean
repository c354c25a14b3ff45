import Utix.Js.Number

/-!
# Freeze windows

`core/policy/freeze-window.ts`: a window freezes actions from its start to its end, and an emergency
bypass lifts the one window that it names. `enforceFreeze` looks at the first window that blocks the
action. Where several do, a bypass of the first one lifts them all, and it is the order of the list
that decides whether the action runs and which window is reported.

`enforceFreeze_exact_iff` says exactly when the first window speaks for the others.

A bypass names a window and says who approved it and why. `Lifts` and `Alike` are judgements about
windows in their own terms, and `answerFor` is what the source answers once a blocking window is
found. `Exact` asks for two things: the action runs if and only if each blocking window is lifted,
and the answer, with the window that is reported, does not depend on the order of the list. Instants
are numbers of JavaScript, `NaN` included, since the windows are not validated.
-/

namespace Utix.Policy

open Js List

inductive FreezeAction
  | issuance | transfer | redemption | bulkOperation | maintenance
  deriving DecidableEq

/-- `FreezeWindow`; the reason is not read here. -/
structure FreezeWindow where
  id : JsString
  actions : List FreezeAction
  startsAt : JsNum
  endsAt : JsNum

structure EmergencyBypass where
  windowId : JsString
  approvedBy : JsString
  justification : JsString

/-- The codes of `enforceFreeze`, a frozen action with its detail. -/
inductive FreezeError
  | actionFrozen (windowId : JsString) (endsAt : JsNum)
  | invalidBypass
  deriving DecidableEq

def isText (value : JsString) : Bool := !isBlank value && value.length ≤ 256

/-- A bypass says who approved it and why. -/
def EmergencyBypass.wellFormed (bypass : EmergencyBypass) : Bool :=
  isText bypass.approvedBy && isText bypass.justification

def isFreezeActive (window : FreezeWindow) (now : JsNum) : Bool :=
  window.startsAt.atMost now && now.less window.endsAt

section

variable (action : FreezeAction) (now : JsNum) (bypass : Option EmergencyBypass)

/-- The window covers the action and is active. -/
def FreezeWindow.blocks (window : FreezeWindow) : Bool :=
  action ∈ window.actions && isFreezeActive window now

/-- What is answered about a blocking window. -/
def answerFor (blocking : FreezeWindow) : Except FreezeError Unit :=
  match bypass with
  | none => .error (.actionFrozen blocking.id blocking.endsAt)
  | some bypass =>
    if bypass.windowId = blocking.id && bypass.wellFormed then .ok () else .error .invalidBypass

/-- `enforceFreeze(input)`; what it writes to the audit trail is left out. -/
def enforceFreeze (windows : List FreezeWindow) : Except FreezeError Unit :=
  match windows.find? (·.blocks action now) with
  | none => .ok ()
  | some blocking => answerFor bypass blocking

/-- The bypass is well formed and names the window. -/
def Lifts (window : FreezeWindow) : Prop :=
  ∃ b ∈ bypass, b.wellFormed = true ∧ b.windowId = window.id

/-- Two windows are the same to the bypass: it names both or neither, and without one they have the
same name and end. -/
def Alike (v w : FreezeWindow) : Prop :=
  match bypass with
  | none => v.id = w.id ∧ v.endsAt = w.endsAt
  | some b => b.wellFormed = true → (b.windowId = v.id ↔ b.windowId = w.id)

/-- The action runs iff each blocking window is lifted, in whatever order they are listed. -/
def Exact (windows : List FreezeWindow) : Prop :=
  (enforceFreeze action now bypass windows = .ok () ↔
    ∀ w ∈ windows, w.blocks action now = true → Lifts bypass w) ∧
  ∀ windows', windows'.Perm windows →
    enforceFreeze action now bypass windows' = enforceFreeze action now bypass windows

end

variable {action : FreezeAction} {now : JsNum} {bypass : Option EmergencyBypass}
  {windows : List FreezeWindow} {v w : FreezeWindow}

/-- A window lets the action pass exactly if the bypass lifts it. -/
theorem answerFor_eq_ok_iff : answerFor bypass w = .ok () ↔ Lifts bypass w := by
  cases bypass with
  | none => simp [answerFor, Lifts]
  | some b => simp [answerFor, Lifts, and_comm]

/-- Two windows answer alike if both are lifted, or if they are reported alike. -/
theorem answerFor_eq_iff : answerFor bypass v = answerFor bypass w ↔ Alike bypass v w := by
  cases bypass with
  | none => simp [answerFor, Alike]
  | some b =>
    cases hformed : b.wellFormed with
    | false => simp [answerFor, Alike, hformed]
    | true =>
      by_cases hv : b.windowId = v.id <;> by_cases hw : b.windowId = w.id <;>
        simp [answerFor, Alike, hformed, hv, hw]

/-- Without a window that blocks, the action runs. -/
theorem enforceFreeze_of_none (h : ∀ w ∈ windows, ¬ w.blocks action now = true) :
    enforceFreeze action now bypass windows = .ok () := by
  rw [enforceFreeze, find?_eq_none.2 h]

/-- Any blocking window speaks for all, once they are alike. -/
theorem enforceFreeze_of_alike (hw : w ∈ windows) (hblocks : w.blocks action now = true)
    (h : ∀ v ∈ windows, v.blocks action now = true → Alike bypass v w) :
    enforceFreeze action now bypass windows = answerFor bypass w := by
  rw [enforceFreeze]
  cases hfind : windows.find? (·.blocks action now) with
  | none => exact absurd hblocks (find?_eq_none.1 hfind w hw)
  | some v =>
    exact answerFor_eq_iff.2 (h v (mem_of_find?_eq_some hfind) (find?_some hfind))

/-- The windows may be listed with any one of them first. -/
theorem Exact.answerFor_eq (h : Exact action now bypass windows) (hw : w ∈ windows)
    (hblocks : w.blocks action now = true) :
    answerFor bypass w = enforceFreeze action now bypass windows := by
  obtain ⟨before, after, rfl⟩ := append_of_mem hw
  rw [← h.2 _ perm_middle.symm, enforceFreeze, find?_cons_of_pos hblocks]

/-- **A bypass lifts windows one by one, whatever their order, exactly where the windows that block
the action are alike to it.** -/
theorem enforceFreeze_exact_iff (action : FreezeAction) (now : JsNum)
    (bypass : Option EmergencyBypass) (windows : List FreezeWindow) :
    Exact action now bypass windows ↔
      ∀ v ∈ windows, v.blocks action now = true →
        ∀ w ∈ windows, w.blocks action now = true → Alike bypass v w := by
  refine ⟨fun h v hv hvb w hw hwb ↦ ?_, fun h ↦ ?_⟩
  · rw [← answerFor_eq_iff, h.answerFor_eq hv hvb, h.answerFor_eq hw hwb]
  by_cases hnone : ∀ w ∈ windows, ¬ w.blocks action now = true
  · refine ⟨iff_of_true (enforceFreeze_of_none hnone) fun w hw hb ↦ absurd hb (hnone w hw), ?_⟩
    intro windows' hperm
    rw [enforceFreeze_of_none hnone, enforceFreeze_of_none fun w hw ↦ hnone w (hperm.mem_iff.1 hw)]
  · push Not at hnone
    obtain ⟨w, hw, hwb⟩ := hnone
    have halike : ∀ v ∈ windows, v.blocks action now = true → Alike bypass v w :=
      fun v hv hvb ↦ h v hv hvb w hw hwb
    rw [Exact, enforceFreeze_of_alike hw hwb halike, answerFor_eq_ok_iff]
    refine ⟨⟨fun hlifts v hv hvb ↦ ?_, fun hall ↦ hall w hw hwb⟩, fun windows' hperm ↦ ?_⟩
    · rwa [← answerFor_eq_ok_iff, answerFor_eq_iff.2 (halike v hv hvb), answerFor_eq_ok_iff]
    · exact enforceFreeze_of_alike (hperm.mem_iff.2 hw) hwb fun v hv ↦
        halike v (hperm.mem_iff.1 hv)

/-- A window on transfers, always active. -/
def transferWindow (id : JsString) : FreezeWindow :=
  ⟨id, [.transfer], .infinite true, .infinite false⟩

/-- The bypass of window `a` lifts window `b` with it, unless `b` is listed first. -/
theorem enforceFreeze_first_lifts_all :
    let bypass : EmergencyBypass := ⟨js "a", js "G", js "outage"⟩
    enforceFreeze .transfer (.ofInt 0) bypass [transferWindow (js "a"), transferWindow (js "b")] =
        .ok () ∧
      (transferWindow (js "b")).blocks .transfer (.ofInt 0) = true ∧
      ¬ Lifts bypass (transferWindow (js "b")) ∧
      enforceFreeze .transfer (.ofInt 0) bypass
        [transferWindow (js "b"), transferWindow (js "a")] = .error .invalidBypass := by
  refine ⟨by decide +kernel, by decide +kernel, ?_, by decide +kernel⟩
  rintro ⟨b, hb, -, hname⟩
  cases hb
  exact absurd hname (by decide)

end Utix.Policy

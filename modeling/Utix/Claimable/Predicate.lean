import Mathlib.Algebra.Order.Ring.Rat
import Utix.Js.Text

/-!
# Claim predicates

`isPredicateClaimableNow` of `features/claimable-balances/lib/predicate.ts`: whether a balance can
be claimed at an instant, given the predicate that Horizon sends. A predicate is a tree of JSON
objects. The source looks at the fields of an object in a fixed order and acts on the first it can
use: the connectives, of which `and` and `or` need exactly two arms, and then four kinds of bounds.
What it cannot interpret counts as false.

The truth the answer is compared with is defined apart from it. `ClaimPredicate` is what a predicate
says once it is read: connectives, an instant before which or from which on it can be claimed, and
the parts nobody can interpret. `ClaimPredicate.Holds` gives it a meaning as a proposition, with the
connectives of `Prop` and the order of the instants, and takes the truth of the uninterpreted parts
as an argument. Reading a predicate (`HorizonPredicate.claim`) picks fields and compares nothing.

The two meet in `isPredicateClaimableNow_iff`: the answer is the truth where everything unknown is
false. So the rest is about `Holds` alone. It is monotone in what stands below an even number of
`not` and antitone in what stands below an odd number (`ClaimPredicate.Holds.mono`), and for the
former the answer never reports too much (`claimable_law`). Below one `not` it does
(`claimable_negated`).

Numbers are rational, with the rounding of the source's arithmetic as a parameter: it says which
instant a bound names, and nothing is assumed about it. How `Number` and `Date.parse` read a text is
a parameter too.
-/

namespace Utix.Claimable

open Js

/-! ### The source -/

/-- The fields other than the connectives. A number that is not finite is `none`, and `others` says
that there is some other field. -/
structure Bounds where
  unconditional : Option Bool
  absBefore : Option JsString
  absBeforeEpoch : Option JsString
  absAfter : Option JsString
  absAfterEpoch : Option JsString
  relBefore : Option (JsString ⊕ Option ℚ)
  relAfter : Option (JsString ⊕ Option ℚ)
  others : Bool
deriving DecidableEq

inductive HorizonPredicate
  | node (bounds : Bounds) (and or : Option (List HorizonPredicate)) (not : Option HorizonPredicate)

structure PredicateContext where
  fundedAtMs : ℤ
  nowMs : ℤ

/-- `Number` and `Date.parse` of a text, where they are finite, and the rounding of a result. -/
structure Env where
  number : JsString → Option ℚ
  dateParse : JsString → Option ℤ
  round : ℚ → ℚ

variable (env : Env) (context : PredicateContext)

def readEpoch : (epoch iso : Option JsString) → Option ℚ
  | some text, _ => (env.number text).map (env.round <| · * 1000)
  -- an empty text is falsy
  | none, some text => if text = [] then none else (env.dateParse text).map (↑)
  | none, none => none

def readRelativeSeconds : Option (JsString ⊕ Option ℚ) → Option ℚ
  | none => none
  | some (.inl text) => env.number text
  | some (.inr seconds) => seconds

def isUnconditionalPredicate : HorizonPredicate → Bool
  | .node b and or not => b.unconditional = some true ||
      b = ⟨none, none, none, none, none, none, none, false⟩ && and.isNone && or.isNone && not.isNone

/-- `context.fundedAtMs + seconds * 1000` -/
def fundedPlus (seconds : ℚ) : ℚ := env.round (context.fundedAtMs + env.round (seconds * 1000))

/-- The part of `isPredicateClaimableNow` after the connectives. -/
def Bounds.isClaimableNow (b : Bounds) : Bool :=
  match readEpoch env b.absBeforeEpoch b.absBefore with
  | some absBeforeMs => decide (context.nowMs < absBeforeMs)
  | none =>
    match readEpoch env b.absAfterEpoch b.absAfter with
    | some absAfterMs => decide (context.nowMs ≥ absAfterMs)
    | none =>
      match readRelativeSeconds env b.relBefore with
      | some relBefore => decide (context.nowMs < fundedPlus env context relBefore)
      | none =>
        match readRelativeSeconds env b.relAfter with
        | some relAfter => decide (context.nowMs ≥ fundedPlus env context relAfter)
        | none => false

def isPredicateClaimableNow : HorizonPredicate → Bool
  | .node b and or not =>
    if isUnconditionalPredicate (.node b and or not) then true
    else match and, or, not with
      | some [p, q], _, _ => isPredicateClaimableNow p && isPredicateClaimableNow q
      | _, some [p, q], _ => isPredicateClaimableNow p || isPredicateClaimableNow q
      | _, _, some p => !isPredicateClaimableNow p
      | _, _, _ => b.isClaimableNow env context

/-! ### What a predicate says -/

/-- **What a claim predicate says**, once it is read. -/
inductive ClaimPredicate
  | unconditional
  | and (p q : ClaimPredicate)
  | or (p q : ClaimPredicate)
  | not (p : ClaimPredicate)
  /-- It can be claimed before an instant. -/
  | before (ms : ℚ)
  /-- It can be claimed from an instant on. -/
  | since (ms : ℚ)
  /-- A predicate that cannot be interpreted. -/
  | unknown (p : HorizonPredicate)

namespace ClaimPredicate

/-- **The truth of a predicate at an instant**, given that of the parts which cannot be
interpreted. -/
def Holds (now : ℚ) (truth : HorizonPredicate → Prop) : ClaimPredicate → Prop
  | unconditional => True
  | and p q => p.Holds now truth ∧ q.Holds now truth
  | or p q => p.Holds now truth ∨ q.Holds now truth
  | not p => ¬ p.Holds now truth
  | before ms => now < ms
  | since ms => ms ≤ now
  | unknown p => truth p

/-- Every part can be interpreted. -/
def Interpretable : ClaimPredicate → Prop
  | and p q | or p q => p.Interpretable ∧ q.Interpretable
  | not p => p.Interpretable
  | unknown _ => False
  | _ => True

/-- Whatever cannot be interpreted stands below an even number of `not`, or below an odd number if
`even` is false. -/
def Polarized : (even : Bool) → ClaimPredicate → Prop
  | even, and p q | even, or p q => p.Polarized even ∧ q.Polarized even
  | even, not p => p.Polarized (!even)
  | even, unknown _ => even = true
  | _, _ => True

end ClaimPredicate

/-- What the bounds of an object say, by the first of them that can be read. -/
def Bounds.claim (b : Bounds) : Option ClaimPredicate :=
  (readEpoch env b.absBeforeEpoch b.absBefore).map .before <|>
  (readEpoch env b.absAfterEpoch b.absAfter).map .since <|>
  (readRelativeSeconds env b.relBefore).map (.before <| fundedPlus env context ·) <|>
  (readRelativeSeconds env b.relAfter).map (.since <| fundedPlus env context ·)

/-- **What a predicate of Horizon says**, by the first field that can be used. -/
def HorizonPredicate.claim : HorizonPredicate → ClaimPredicate
  | .node b and or not =>
    if isUnconditionalPredicate (.node b and or not) then .unconditional
    else match and, or, not with
      | some [p, q], _, _ => .and p.claim q.claim
      | _, some [p, q], _ => .or p.claim q.claim
      | _, _, some p => .not p.claim
      | _, _, _ => (b.claim env context).getD (.unknown (.node b and or not))

/-! ### The answer is a truth -/

variable {env context}

/-- A bound that cannot be read counts as false, and the others are compared with the instant. -/
theorem Bounds.isClaimableNow_iff {b : Bounds} {p : HorizonPredicate} :
    b.isClaimableNow env context = true ↔
      ((b.claim env context).getD (.unknown p)).Holds context.nowMs fun _ ↦ False := by
  rw [isClaimableNow, claim]
  rcases readEpoch env b.absBeforeEpoch b.absBefore with - | absBeforeMs
  · rcases readEpoch env b.absAfterEpoch b.absAfter with - | absAfterMs
    · rcases readRelativeSeconds env b.relBefore with - | relBefore
      · rcases readRelativeSeconds env b.relAfter with - | relAfter
        · simp [ClaimPredicate.Holds]
        · simp [ClaimPredicate.Holds]
      · simp [ClaimPredicate.Holds]
    · simp [ClaimPredicate.Holds]
  · simp [ClaimPredicate.Holds]

/-- **The answer is the truth where everything unknown is false.** -/
theorem isPredicateClaimableNow_iff (p : HorizonPredicate) :
    isPredicateClaimableNow env context p = true ↔
      (p.claim env context).Holds context.nowMs fun _ ↦ False := by
  -- the cases are the branches of the recursion, and `claim` takes the same one
  fun_induction isPredicateClaimableNow env context p with
  | case1 b and or not h =>
    unfold HorizonPredicate.claim
    simp [h, ClaimPredicate.Holds]
  | case2 b or not p q h ihp ihq =>
    rw [HorizonPredicate.claim, if_neg h, Bool.and_eq_true, ihp, ihq]
    rfl
  | case3 b and not p q hand h ihp ihq =>
    rw [HorizonPredicate.claim, if_neg h, Bool.or_eq_true, ihp, ihq]
    · rfl
    · exact hand
  | case4 b and or p hand hor h ih =>
    rw [HorizonPredicate.claim, if_neg h, Bool.not_eq_true', ← Bool.not_eq_true, ih]
    · rfl
    all_goals assumption
  | case5 b and or not h hand hor hnot =>
    rw [HorizonPredicate.claim, if_neg h]
    · exact Bounds.isClaimableNow_iff
    all_goals assumption

/-! ### What the unknown parts can change -/

namespace ClaimPredicate

variable {now : ℚ} {truth truth' : HorizonPredicate → Prop} {p : ClaimPredicate}

/-- **More truth below an even number of `not` is more truth**, and below an odd number it is
less. -/
theorem Holds.mono (htruth : ∀ x, truth x → truth' x) :
    (p.Polarized true → p.Holds now truth → p.Holds now truth') ∧
      (p.Polarized false → p.Holds now truth' → p.Holds now truth) := by
  induction p with
  | unconditional => exact ⟨fun _ h ↦ h, fun _ h ↦ h⟩
  | before ms => exact ⟨fun _ h ↦ h, fun _ h ↦ h⟩
  | since ms => exact ⟨fun _ h ↦ h, fun _ h ↦ h⟩
  | and p q ihp ihq =>
    exact ⟨fun hpol h ↦ ⟨ihp.1 hpol.1 h.1, ihq.1 hpol.2 h.2⟩,
      fun hpol h ↦ ⟨ihp.2 hpol.1 h.1, ihq.2 hpol.2 h.2⟩⟩
  | or p q ihp ihq =>
    exact ⟨fun hpol ↦ Or.imp (ihp.1 hpol.1) (ihq.1 hpol.2),
      fun hpol ↦ Or.imp (ihp.2 hpol.1) (ihq.2 hpol.2)⟩
  | not p ih => exact ⟨fun hpol h hp ↦ h (ih.2 hpol hp), fun hpol h hp ↦ h (ih.1 hpol hp)⟩
  | unknown x => exact ⟨fun _ ↦ htruth x, fun hpol ↦ absurd hpol Bool.false_ne_true⟩

/-- Where everything can be interpreted, nothing unknown stands anywhere. -/
theorem Interpretable.polarized (h : p.Interpretable) (even : Bool) : p.Polarized even := by
  induction p generalizing even with
  | unconditional | before ms | since ms => trivial
  | and p q ihp ihq | or p q ihp ihq => exact ⟨ihp h.1 even, ihq h.2 even⟩
  | not p ih => exact ih h (!even)
  | unknown x => exact h.elim

end ClaimPredicate

/-- **A predicate that is claimable now holds whatever the unknown parts say**, if these stand below
even numbers of `not`. Without unknown parts the answer is the truth. -/
theorem claimable_law (p : HorizonPredicate) (truth : HorizonPredicate → Prop) :
    ((p.claim env context).Polarized true → isPredicateClaimableNow env context p = true →
      (p.claim env context).Holds context.nowMs truth) ∧
    ((p.claim env context).Interpretable →
      (isPredicateClaimableNow env context p = true ↔
        (p.claim env context).Holds context.nowMs truth)) := by
  have hmono := @ClaimPredicate.Holds.mono context.nowMs (fun _ ↦ False) truth
    (p.claim env context) fun _ h ↦ h.elim
  rw [isPredicateClaimableNow_iff]
  exact ⟨hmono.1, fun h ↦ ⟨hmono.1 (h.polarized true), hmono.2 (h.polarized false)⟩⟩

/-- The negation of an unknown predicate is claimable, and fails when the unknown one holds. -/
theorem claimable_negated :
    let env : Env := ⟨fun _ ↦ none, fun _ ↦ none, id⟩
    let bounds : Bounds := ⟨none, none, none, none, none, none, none, true⟩
    let p : HorizonPredicate :=
      .node { bounds with others := false } none none (some (.node bounds none none none))
    isPredicateClaimableNow env ⟨0, 0⟩ p = true ∧
      ¬ (p.claim env ⟨0, 0⟩).Holds 0 fun _ ↦ True := by
  refine ⟨by decide, ?_⟩
  simp [HorizonPredicate.claim, isUnconditionalPredicate, Bounds.claim, readEpoch,
    readRelativeSeconds, ClaimPredicate.Holds]

end Utix.Claimable

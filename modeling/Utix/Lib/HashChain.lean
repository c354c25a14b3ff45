import Mathlib.Data.List.Forall2
import Mathlib.Data.List.Induction
import Utix.Lib.Chain

/-!
# Hash chains

A chain is a list of links. Each link names the digest of its predecessor and has a digest of its
own; the digest before the first link is the *anchor*, and the digest after the last is the *head*.

If the digest determines a link up to some relation `R`, and with it the predecessor it names, then
the head determines the chain: two chains of the same length with the same head agree link by link,
and start from the same anchor (`forall₂_of_head_eq`). The argument runs from the head backwards.
-/

namespace Lib.HashChain

open List

variable {ι η : Type*} {prev digest : ι → η}

/-- Each link names the digest of the link before it. -/
def Linked (prev digest : ι → η) : η → List ι → Prop := Chain.Holds digest fun h a ↦ prev a = h

/-- The digest after the last link. -/
def head (digest : ι → η) : η → List ι → η := Chain.last digest

/-- **The head determines the chain.** -/
theorem forall₂_of_head_eq {R : ι → ι → Prop} {as bs : List ι} {h k : η}
    (hdet : ∀ a ∈ as, ∀ b ∈ bs, digest a = digest b → R a b ∧ prev a = prev b)
    (ha : Linked prev digest h as) (hb : Linked prev digest k bs)
    (hlen : as.length = bs.length) (hhead : head digest h as = head digest k bs) :
    List.Forall₂ R as bs ∧ h = k := by
  -- the induction peels the last links off both chains
  induction as using reverseRecOn generalizing bs with
  | nil =>
    obtain rfl : bs = [] := eq_nil_of_length_eq_zero hlen.symm
    exact ⟨List.Forall₂.nil, hhead⟩
  | append_singleton as a ih =>
    rcases eq_nil_or_concat bs with rfl | ⟨bs, b, rfl⟩
    · exact absurd hlen (by simp)
    rw [concat_eq_append] at *
    rw [head, Chain.last_concat, Chain.last_concat] at hhead
    obtain ⟨hR, hprev⟩ := hdet a (by simp) b (by simp) hhead
    obtain ⟨ha, hna⟩ := Chain.holds_concat.1 ha
    obtain ⟨hb, hnb⟩ := Chain.holds_concat.1 hb
    have hlen' : as.length = bs.length := by simpa using hlen
    obtain ⟨hrest, hanchor⟩ := ih
      (fun x hx y hy ↦ hdet x (mem_append_left _ hx) y (mem_append_left _ hy)) ha hb
      hlen' (by rw [head, ← hna, ← hnb, hprev])
    exact ⟨rel_append hrest (List.Forall₂.cons hR List.Forall₂.nil), hanchor⟩

end Lib.HashChain

import Utix.Ledger.Chain
import Utix.Lib.HashChain

/-!
# Tamper evidence

If the digest is injective on the texts it is applied to, the head of a verified segment determines
the segment. Two facts carry it: the sequence numbers count from the anchor to the head, so two
segments with the same anchor and the same head have the same length; and a digest determines the
entry that carries it, as a JSON value, and with it the digest it names as its predecessor. The rest
is the general argument of `Lib.HashChain`.

So any edit, removal, insertion or reordering that keeps the anchor and the head checkpoint is
rejected — what remains possible is to write the same JSON values differently.
-/

namespace Utix.Ledger

open Js JsValue List Fields JsNum

/-- The texts that verifying these entries hashes. -/
def hashedTexts (es : List JsValue) : Set JsString :=
  { text | ∃ e ∈ es, canonicalJson (bodyOf e) = some text }

/-! ### Counting -/

variable {rt : Runtime} {p : Checkpoint} {es : List JsValue}

/-- The sequence number of the head counts the entries from the anchor. -/
theorem seq_headFrom {k : ℤ} (hp : p.seq = ofInt k) (h : Verifies rt p es) :
    (headFrom p es).seq = ofInt (k + es.length) := by
  induction es generalizing p k with
  | nil => simpa [headFrom] using hp
  | cons e es ih =>
    obtain ⟨-, hseq, -⟩ := checkEntry_eq_pass_iff.1 h.1
    have he : (checkpoint e).seq = ofInt (k + 1) := by
      rw [checkpoint, hseq, hp, ofInt_add]
      rfl
    rw [headFrom_cons, ih he h.2, length_cons]
    congr 1
    push_cast
    ring

/-- An anchor that some entry continues has an integer sequence number. -/
theorem exists_seq_of_verifies_cons {e : JsValue} (h : Verifies rt p (e :: es)) :
    ∃ k : ℤ, p.seq = ofInt k := by
  obtain ⟨hshape, hseq, -⟩ := checkEntry_eq_pass_iff.1 h.1
  have hint : isInteger (e.get (js "seq")) = true := by
    simp only [isEntryShape, Bool.and_eq_true] at hshape
    tauto
  rw [hseq] at hint
  obtain ⟨n, hn⟩ := exists_ofInt hint
  exact ⟨n - 1, eq_ofInt_of_add_eq hn⟩

/-- **Segments between the same two checkpoints have the same length.** -/
theorem length_eq_of_seq_eq {as bs : List JsValue} (ha : Verifies rt p as) (hb : Verifies rt p bs)
    (hseq : (headFrom p as).seq = (headFrom p bs).seq) : as.length = bs.length := by
  have hcount : ∀ {k : ℤ}, p.seq = ofInt k → as.length = bs.length := fun {k} hk ↦ by
    rw [seq_headFrom hk ha, seq_headFrom hk hb] at hseq
    have := ofInt_injective hseq
    omega
  rcases as with - | ⟨a, as⟩
  · rcases bs with - | ⟨b, bs⟩
    · rfl
    · obtain ⟨k, hk⟩ := exists_seq_of_verifies_cons hb
      exact hcount hk
  · obtain ⟨k, hk⟩ := exists_seq_of_verifies_cons ha
    exact hcount hk

/-! ### The digest determines the entry -/

variable {fs : Fields}

theorem jsonField_without {key k : JsString} :
    jsonField (fs.without key) k = if k = key then none else jsonField fs k := by
  rw [jsonField, get_without]
  split
  · rw [if_pos rfl]
  · rfl

/-- Two entries with the same canonical body and the same digest denote the same JSON value. -/
theorem asJson_eq_of_body_eq {gs : Fields} (hfs : fs.keys.Nodup) (hgs : gs.keys.Nodup)
    (hbody : asJson (.obj (fs.without (js "hash"))) = asJson (.obj (gs.without (js "hash"))))
    (hhash : fs.get (js "hash") = gs.get (js "hash")) : asJson (.obj fs) = asJson (.obj gs) := by
  refine (asJson_obj_eq_iff hfs hgs).2 fun key ↦ ?_
  by_cases hkey : key = js "hash"
  · rw [jsonField, jsonField, hkey, hhash]
  · have hfield := (asJson_obj_eq_iff (nodup_without hfs _)
      (nodup_without hgs _)).1 hbody key
    rwa [jsonField_without, jsonField_without, if_neg hkey, if_neg hkey] at hfield

theorem wellFormed_without (h : (JsValue.obj fs).WellFormed) (key : JsString) :
    (JsValue.obj (fs.without key)).WellFormed := by
  obtain ⟨hnd, hfs⟩ := wellFormed_obj.1 h
  exact wellFormed_obj.2
    ⟨nodup_without hnd key, fun f hf ↦ hfs f (mem_of_mem_filter hf)⟩

/-- **With an injective digest, entries that carry the same digest are the same entry**, as JSON
values, and name the same predecessor. -/
theorem asJson_eq_of_hash_eq {a b : JsValue} (hinj : Set.InjOn rt.sha256Hex (hashedTexts [a, b]))
    (hwa : a.WellFormed) (hwb : b.WellFormed) (ha : Sealed rt a) (hb : Sealed rt b)
    (hhash : a.get (js "hash") = b.get (js "hash")) :
    asJson a = asJson b ∧ a.get (js "prevHash") = b.get (js "prevHash") := by
  obtain ⟨pa, hpa⟩ := ha.exists_prevHash
  obtain ⟨pb, hpb⟩ := hb.exists_prevHash
  obtain ⟨_, hda, hga⟩ := ha.digest
  obtain ⟨_, hdb, hgb⟩ := hb.digest
  obtain ⟨fs, rfl⟩ := ha.exists_fields
  obtain ⟨gs, rfl⟩ := hb.exists_fields
  obtain ⟨ta, hta, rfl⟩ := Option.map_eq_some_iff.1 hda
  obtain ⟨tb, htb, rfl⟩ := Option.map_eq_some_iff.1 hdb
  -- the digests agree, so the texts agree, so the bodies denote the same value
  have htext : ta = tb := by
    rw [hga, hgb, JsValue.str.injEq] at hhash
    exact hinj ⟨_, mem_cons_self, hta⟩ ⟨_, by simp, htb⟩ (Subtype.ext hhash)
  subst htext
  have hbody := asJson_eq_of_canonicalJson_eq (wellFormed_without hwa _) (wellFormed_without hwb _)
    hta htb
  have hjson := asJson_eq_of_body_eq (wellFormed_obj.1 hwa).1 (wellFormed_obj.1 hwb).1 hbody hhash
  refine ⟨hjson, ?_⟩
  have hprev := jsonField_eq_of_asJson_obj_eq (wellFormed_obj.1 hwa).1 (wellFormed_obj.1 hwb).1
    hjson (js "prevHash")
  have hfa : get fs (js "prevHash") = .str pa := hpa
  have hfb : get gs (js "prevHash") = .str pb := hpb
  rw [jsonField, jsonField, hfa, hfb] at hprev
  rw [hpa, hpb]
  simpa [asJson] using hprev

/-! ### The chain -/

/-- A verified chain is linked by its digests. -/
theorem linked_of_verifies (h : Verifies rt p es) :
    Lib.HashChain.Linked (fun e ↦ e.get (js "prevHash")) (fun e ↦ e.get (js "hash"))
      (.str p.hash) es := by
  induction es generalizing p with
  | nil => trivial
  | cons e es ih =>
    obtain ⟨-, -, hprev, ⟨hash, -, hhash⟩, -⟩ := checkEntry_eq_pass_iff.1 h.1
    have hpoint : JsValue.str (checkpoint e).hash = e.get (js "hash") := by
      rw [checkpoint, hhash]
      rfl
    have hrest := ih h.2
    rw [hpoint] at hrest
    exact ⟨hprev, hrest⟩

/-- Its last digest is the one of the head. -/
theorem head_of_verifies (h : Verifies rt p es) :
    Lib.HashChain.head (fun e ↦ e.get (js "hash")) (.str p.hash) es =
      .str (headFrom p es).hash := by
  induction es generalizing p with
  | nil => rfl
  | cons e es ih =>
    obtain ⟨-, -, -, ⟨hash, -, hhash⟩, -⟩ := checkEntry_eq_pass_iff.1 h.1
    have hrest := ih h.2
    rw [headFrom_cons, ← hrest, checkpoint, hhash]
    exact congrArg (Lib.HashChain.head _ · es) hhash

/-- **Tamper evidence.** With a digest that is injective on the texts it is applied to, two entry
lists that verify from one anchor and end in the same head have the same length, and hold the same
JSON values entry by entry. -/
theorem entries_eq_of_head_eq {rt : Runtime} {anchor : Checkpoint} {as bs : List JsValue}
    (hwa : ∀ e ∈ as, e.WellFormed) (hwb : ∀ e ∈ bs, e.WellFormed)
    (hinj : Set.InjOn rt.sha256Hex (hashedTexts (as ++ bs)))
    {countA countB : ℕ} {anchorA anchorB headA headB : Checkpoint}
    (ha : verifyLedgerChain rt as anchor none = some (.ok countA anchorA headA))
    (hb : verifyLedgerChain rt bs anchor none = some (.ok countB anchorB headB))
    (hseq : headA.seq = headB.seq) (hhash : headA.hash = headB.hash) :
    as.length = bs.length ∧ as.map asJson = bs.map asJson := by
  obtain ⟨hva, -, -, rfl⟩ := verifyLedgerChain_eq_ok_iff.1 ha
  obtain ⟨hvb, -, -, rfl⟩ := verifyLedgerChain_eq_ok_iff.1 hb
  have hlen := length_eq_of_seq_eq hva hvb hseq
  have hdet : ∀ a ∈ as, ∀ b ∈ bs, a.get (js "hash") = b.get (js "hash") →
      asJson a = asJson b ∧ a.get (js "prevHash") = b.get (js "prevHash") := by
    intro a ha b hb heq
    have hsub : [a, b] ⊆ as ++ bs := by simp [ha, hb]
    have htexts : hashedTexts [a, b] ⊆ hashedTexts (as ++ bs) :=
      fun _ ⟨e, he, ht⟩ ↦ ⟨e, hsub he, ht⟩
    exact asJson_eq_of_hash_eq (hinj.mono htexts) (hwa a ha) (hwb b hb)
      (sealed_of_verifies hva a ha) (sealed_of_verifies hvb b hb) heq
  have hends : Lib.HashChain.head (fun e ↦ e.get (js "hash")) (.str anchor.hash) as =
      Lib.HashChain.head (fun e ↦ e.get (js "hash")) (.str anchor.hash) bs := by
    rw [head_of_verifies hva, head_of_verifies hvb, hhash]
  obtain ⟨hall, -⟩ := Lib.HashChain.forall₂_of_head_eq hdet (linked_of_verifies hva)
    (linked_of_verifies hvb) hlen hends
  refine ⟨hlen, ?_⟩
  rw [← forall₂_eq_eq_eq, forall₂_map_left_iff, forall₂_map_right_iff]
  exact hall

/-- The fields of an entry about an account. -/
def accountFields (seq : ℤ) (id prevHash hash : JsString) : Fields :=
  [(js "v", .num (JsNum.ofInt 1)), (js "seq", .num (JsNum.ofInt seq)),
    (js "at", .str (js "2024-01-01T00:00:00.000Z")), (js "kind", .str (js "financial")),
    (js "action", .str (js "faucet.funded")), (js "actorId", .str (js "friendbot")),
    (js "subject", .obj [(js "kind", .str (js "account")), (js "id", .str id)]),
    (js "outcome", .str (js "allowed")), (js "prevHash", .str prevHash), (js "hash", .str hash)]

/-- The two entries of a chain under `parityRuntime`, each written by `write`. -/
def linked (write : Fields → Fields) : List JsValue :=
  [.obj (write (accountFields 1 (js "GAB") ledgerGenesisHash (replicate 64 49))),
    .obj (write (accountFields 2 (js "GA") (replicate 64 49) ledgerGenesisHash))]

/-- The same fields the other way round, and an `undefined` one. -/
def rewritten (fs : Fields) : Fields := (js "ref", .undefined) :: fs.reverse

/-- Two linked entries, each written in two key orders. -/
theorem entries_eq_of_head_eq_reversed :
    (linked id).length = (linked rewritten).length ∧
      (linked id).map asJson = (linked rewritten).map asJson := by
  have hverified (write) (hwrite : write = id ∨ write = rewritten) :
      verifyLedgerChain parityRuntime (linked write) genesis none = some (.ok 2 genesis
        ⟨JsNum.ofInt 2, ledgerGenesisHash, .str (js "2024-01-01T00:00:00.000Z")⟩) := by
    rcases hwrite with rfl | rfl <;> decide +kernel
  refine entries_eq_of_head_eq (fun e he ↦ ?_) (fun e he ↦ ?_) ?_ (hverified id (.inl rfl))
    (hverified rewritten (.inr rfl)) rfl rfl
  · rcases mem_pair.1 he with rfl | rfl <;>
      exact ⟨by decide +kernel, by simp [accountFields, WellFormedFields, WellFormed]; decide⟩
  · rcases mem_pair.1 he with rfl | rfl <;>
      exact ⟨by decide +kernel,
        by simp [rewritten, accountFields, WellFormedFields, WellFormed]; decide⟩
  · -- two texts are hashed, and their digests differ
    have htexts : ∀ e ∈ linked id ++ linked rewritten, ∃ f ∈ linked id,
        canonicalJson (bodyOf e) = canonicalJson (bodyOf f) := by decide +kernel
    have hdigests : ∀ e ∈ linked id, ∀ f ∈ linked id,
        (canonicalJson (bodyOf e)).map parityRuntime.sha256Hex =
          (canonicalJson (bodyOf f)).map parityRuntime.sha256Hex → e = f := by decide +kernel
    rintro x ⟨e, he, hx⟩ y ⟨f, hf, hy⟩ hxy
    obtain ⟨e', he', heq⟩ := htexts e he
    obtain ⟨f', hf', hfq⟩ := htexts f hf
    rw [heq] at hx
    rw [hfq] at hy
    obtain rfl := hdigests e' he' f' hf' (by rw [hx, hy, Option.map_some, Option.map_some, hxy])
    exact Option.some.inj (hx.symm.trans hy)

end Utix.Ledger

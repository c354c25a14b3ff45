import Utix.Ledger.Reseal
import Utix.Lib.Run

/-!
# The instants of a chain

`append`, `reseal` and the verifier compare the `at` of two entries **as texts**. A caller may pass
any text that `Date.parse` reads, and across two textual forms the order of the texts is not the
order of the instants: `"2024-01-01T01:00:00+05:00"` sorts behind `"2024-01-01T00:00:00.000Z"` and
lies four hours before it.

Among the texts that `toISOString` writes for the years 0 to 9999 the two orders agree. When every
explicit `at` is such a text and the clock shows such a year, the retained instants never decrease,
over every run of `append`, `prune` and `reseal`. The invariant does not mention verification: it
holds of chains that no longer verify.
-/

namespace Utix.Ledger

open Js JsValue Audit Telemetry List

/-! ### Runs -/

/-- A call that writes the chain. The clock is read once in each call. -/
inductive LedgerCall
  | append (input : LedgerInput) (now : ℤ)
  | prune
  | reseal (actor : AuditActor) (reason : JsString) (now : ℤ)

section

variable (rt : Runtime)

/-- The storage after a call. -/
def ledgerStep (limit : Option ℤ) (storage : Storage) : LedgerCall → Storage
  | .append input now => (append rt storage input now).2
  | .prune => (prune limit storage).2
  | .reseal actor reason now => (reseal rt storage actor reason now).2

/-- `Date.parse(v.at)` -/
def instantOf (v : JsValue) : Option ℤ :=
  match v.get (js "at") with
  | .str s => rt.dateParse s
  | _ => none

/-- The instant of the stored anchor, if it has one. -/
def anchorInstant (storage : Storage) : Option ℤ :=
  (read storage).bind fun state ↦ instantOf rt state.anchor

/-- Every retained entry has an instant, and the anchor's and theirs never decrease. -/
def Chronological (storage : Storage) : Prop :=
  ∃ instants : List ℤ, (entries storage).map (instantOf rt) = instants.map some ∧
    ((anchorInstant rt storage).toList ++ instants).Pairwise (· ≤ ·)

end

/-! ### Canonical texts -/

/-- The year of a time value has at most four digits. -/
def FourDigitYear (t : ℤ) : Prop := 0 ≤ (Date.civil t).year ∧ (Date.civil t).year ≤ 9999

/-- A text that `toISOString` writes for a year of at most four digits. -/
def IsCanonical (s : JsString) : Prop := ∃ t, FourDigitYear t ∧ Date.toISOString t = some s

/-- No instant, or a canonical text. -/
def CanonicalAt (v : JsValue) : Prop := v = .undefined ∨ ∃ s, v = .str s ∧ IsCanonical s

/-- An explicit instant is canonical, and the clock shows a year of at most four digits (or no
instant at all, and the call throws). -/
def CanonicalCall (_ : Storage) : LedgerCall → Prop
  | .append input now =>
    match input.at' with
    | some s => IsCanonical s
    | none => FourDigitYear now
  | .prune => True
  | .reseal _ _ now => FourDigitYear now

variable {s : JsString}

/-- A canonical text is read as the instant it was printed for. -/
theorem IsCanonical.dateParse (rt : Runtime) (h : IsCanonical s) :
    ∃ t, FourDigitYear t ∧ Date.toISOString t = some s ∧ rt.dateParse s = some t := by
  obtain ⟨t, hyear, hiso⟩ := h
  exact ⟨t, hyear, hiso, Date.parse_toISOString hiso rt.otherDate⟩

/-- A canonical text is not touched by redaction. -/
theorem IsCanonical.scrubString (h : IsCanonical s) : scrubString s = s := by
  obtain ⟨t, -, hiso⟩ := h
  exact scrubString_toISOString hiso

/-! ### Entries in order -/

/-- The entry has what an anchor needs, and a canonical instant that is no earlier text than that of
the checkpoint before it. -/
structure Follows (p : Checkpoint) (e : JsValue) : Prop where
  seq : e.get (js "seq") ≠ .undefined
  hash : e.get (js "hash") ≠ .undefined
  instant : ∃ s, e.get (js "at") = .str s ∧ IsCanonical s ∧ isEarlier (.str s) p = some false

/-- The entries follow one another from the checkpoint on. -/
def InOrder : Checkpoint → List JsValue → Prop := Lib.Chain.Holds checkpoint Follows

/-- The invariant of the stored chain. -/
structure StoredLedger.Ordered (state : StoredLedger) : Prop where
  anchor : CanonicalAt (checkpoint state.anchor).at'
  entries : InOrder (checkpoint state.anchor) state.entries

variable {p : Checkpoint}

theorem Follows.canonicalAt {e : JsValue} (h : Follows p e) : CanonicalAt (checkpoint e).at' := by
  obtain ⟨s, hs, hcanonical, -⟩ := h.instant
  exact .inr ⟨s, hs, hcanonical⟩

theorem Follows.exists_fields {e : JsValue} (h : Follows p e) : ∃ fs, e = .obj fs := by
  cases e with
  | obj fs => exact ⟨fs, rfl⟩
  | _ => exact absurd rfl h.seq

variable {es : List JsValue}

/-- The head of an ordered chain has a canonical instant. -/
theorem InOrder.canonicalAt (hp : CanonicalAt p.at') (h : InOrder p es) :
    CanonicalAt (headFrom p es).at' :=
  h.last_induction (P := fun q ↦ CanonicalAt q.at') (fun _ _ _ hf ↦ hf.canonicalAt) hp

variable {state : StoredLedger}

/-- **Entries in order are in order of their instants**, and none lies before the checkpoint. -/
theorem InOrder.exists_instants (rt : Runtime) (hp : CanonicalAt p.at') (h : InOrder p es) :
    ∃ instants : List ℤ, es.map (instantOf rt) = instants.map some ∧ instants.Pairwise (· ≤ ·) ∧
      ∀ s, p.at' = .str s → ∀ t₀, rt.dateParse s = some t₀ → ∀ t ∈ instants, t₀ ≤ t := by
  induction es generalizing p with
  | nil => exact ⟨[], rfl, List.Pairwise.nil, by simp⟩
  | cons e es ih =>
    obtain ⟨a, ha, hcanonical, hearlier⟩ := h.1.instant
    obtain ⟨t, hyear, hiso, hparse⟩ := hcanonical.dateParse rt
    obtain ⟨instants, hmap, hsorted, hbound⟩ := ih h.1.canonicalAt h.2
    have hbound : ∀ u ∈ instants, t ≤ u := hbound a ha t hparse
    have hinstant : instantOf rt e = some t := by rw [instantOf, ha, ← hparse]
    refine ⟨t :: instants, by rw [map_cons, hinstant, hmap, map_cons],
      pairwise_cons.2 ⟨hbound, hsorted⟩, fun s hs t₀ ht₀ u hu ↦ ?_⟩
    rcases hp with hp | ⟨s', hp, hs'⟩
    · rw [hp] at hs
      cases hs
    -- the checkpoint has a canonical text too, so comparing texts compares instants
    obtain rfl : s' = s := by simpa using hp.symm.trans hs
    obtain ⟨t₁, hyear₁, hiso₁, hparse₁⟩ := hs'.dateParse rt
    obtain rfl : t₁ = t₀ := Option.mem_unique hparse₁ ht₀
    have hlt : ¬ a < s' := by
      rw [isEarlier_eq_false_iff, hp] at hearlier
      have hne : s' ≠ [] := ne_nil_of_length_pos (by
        have := Date.length_of_toISOString hiso₁
        omega)
      simpa [truthy, hne] using hearlier
    -- canonical texts are ordered as their instants
    have hle : t₁ ≤ t := not_lt.1 fun hafter ↦ hlt (by
      rw [← (Date.toISOString_eq_some hiso₁).1, ← (Date.toISOString_eq_some hiso).1]
      exact Date.isoText_lt_isoText hafter hyear.1 hyear₁.2)
    rcases mem_cons.1 hu with rfl | hu
    · exact hle
    · exact hle.trans (hbound u hu)

/-- What is stored is in order. -/
def Storage.Ordered (storage : Storage) : Prop :=
  ∀ state, read storage = some state → state.Ordered

variable {rt : Runtime} {storage : Storage}

/-- Where texts are in order, so are their instants. -/
theorem chronological_of_ordered (h : storage.Ordered) : Chronological rt storage := by
  rw [Chronological, entries, anchorInstant]
  cases hread : read storage with
  | none => exact ⟨[], rfl, List.Pairwise.nil⟩
  | some state =>
    obtain ⟨hanchor, hentries⟩ := h state hread
    obtain ⟨instants, hmap, hsorted, hbound⟩ := hentries.exists_instants rt hanchor
    refine ⟨instants, hmap, pairwise_append.2 ⟨?_, hsorted, ?_⟩⟩
    · cases instantOf rt state.anchor <;> simp
    intro t₀ ht₀ t ht
    have hsome : instantOf rt state.anchor = some t₀ := by simpa using ht₀
    rw [instantOf] at hsome
    split at hsome
    · next s hs => exact hbound s hs t₀ hsome t ht
    · cases hsome

/-! ### One call -/

/-- The instant that `append` and `reseal` choose behind a canonical checkpoint is canonical, and is
not earlier. -/
theorem clamped_canonical (hp : CanonicalAt p.at') {instant : JsString}
    (hinstant : IsCanonical instant) {earlier : Bool}
    (h : isEarlier (.str instant) p = some earlier) :
    ∃ s, (if earlier then p.at' else .str instant) = .str s ∧ IsCanonical s ∧
      isEarlier (.str s) p = some false := by
  cases earlier with
  | false => exact ⟨instant, rfl, hinstant, h⟩
  | true =>
    rcases hp with hp | ⟨s, hp, hs⟩
    · rw [isEarlier, hp] at h
      exact absurd h (by simp [truthy])
    · refine ⟨s, hp, hs, isEarlier_eq_false_iff.2 fun _ ↦ ?_⟩
      rw [hp, less_str]
      simp

theorem storedValue_num_ne (n : JsNum) : storedValue (.num n) ≠ .undefined := by
  cases hfin : n.isFinite <;> simp [storedValue, redact, isOmitted, jsonOf, hfin]

variable {input : LedgerInput}

/-- An entry that is built with a canonical instant, not earlier than the checkpoint, follows it. -/
theorem follows_of_isBuilt {entry : JsValue} (h : IsBuilt rt p input (.str s) entry)
    (hs : IsCanonical s) (hearlier : isEarlier (.str s) p = some false) : Follows p entry := by
  obtain ⟨hash, -, hhash⟩ := h.digest
  refine ⟨?_, by rw [hhash]; simp, s, ?_, hs, hearlier⟩
  · rw [h.body _ (by decide)]
    exact storedValue_num_ne _
  · rw [h.get_at, storedValue_str, hs.scrubString]

/-- **Extending an ordered chain** by an entry that follows its head. -/
theorem Ordered.concat {anchor : JsValue} {entry : JsValue}
    (hanchor : CanonicalAt (checkpoint anchor).at') (hes : InOrder (checkpoint anchor) es)
    (h : Follows (headFrom (checkpoint anchor) es) entry) (ha : state.anchor = anchor)
    (he : state.entries = es ++ [entry]) : state.Ordered := by
  refine ⟨by rw [ha]; exact hanchor, ?_⟩
  rw [ha, he]
  exact Lib.Chain.holds_concat.2 ⟨hes, h⟩

/-- An append with a canonical instant keeps the order. -/
theorem ordered_append {now : ℤ} (hok : CanonicalCall storage (.append input now))
    (h : storage.Ordered) : (append rt storage input now).2.Ordered := by
  rcases append_cases rt storage input now with ⟨hsame, -⟩ |
    ⟨state, instant, earlier, entry, -, hread, hinstant, hearlier, -, hbuild, happend⟩
  · rw [hsame]
    exact h
  obtain ⟨hanchor, hentries⟩ := h state hread
  have hcanonical : IsCanonical instant := by
    cases hat : input.at' with
    | some s =>
      rw [CanonicalCall, hat] at hok
      rw [hat] at hinstant
      obtain rfl : s = instant := by simpa using hinstant
      exact hok
    | none =>
      rw [CanonicalCall, hat] at hok
      rw [hat] at hinstant
      exact ⟨now, hok, hinstant⟩
  rw [headOf_of_last fun es e hes ↦ (Lib.Chain.holds_concat.1 (hes ▸ hentries)).2.exists_fields]
    at hearlier hbuild
  obtain ⟨s, hs, hscanonical, hsearlier⟩ :=
    clamped_canonical (hentries.canonicalAt hanchor) hcanonical hearlier
  rw [hs] at hbuild
  have hbuilt := isBuilt_of_build (show (JsValue.str s).WellFormed from trivial) hbuild
  obtain ⟨next, hnext, hnextAnchor, hnextEntries⟩ :=
    read_extend storage (accepted_of_read hread) hbuilt.json
  intro state' hread'
  rw [happend, hnext] at hread'
  cases hread'
  exact Ordered.concat hanchor hentries (follows_of_isBuilt hbuilt hscanonical hsearlier)
    hnextAnchor hnextEntries

/-- Pruning keeps the order. -/
theorem ordered_prune {limit : Option ℤ} (h : storage.Ordered) :
    (prune limit storage).2.Ordered := by
  rcases prune_cases limit storage with hsame |
    ⟨state, before, e, after, anchor, hread, hes, -, hpoint, hprune⟩
  · rw [hsame]
    exact h
  obtain ⟨-, hentries⟩ := h state hread
  have haccepted := accepted_of_read hread
  rw [hes] at hentries
  obtain ⟨-, hfollows, hafter⟩ := Lib.Chain.holds_append.1 hentries
  obtain ⟨fs, rfl⟩ := hfollows.exists_fields
  rw [pointValue_obj] at hpoint
  cases hpoint
  have hjson : ∀ e ∈ JsValue.obj fs :: after, e.IsJson := fun e he ↦
    haccepted.isJson_entries e (by rw [hes]; exact mem_append_right _ he)
  have hat : (JsValue.obj fs).get (js "at") ≠ .undefined := by
    obtain ⟨s, hs, -⟩ := hfollows.instant
    rw [hs]
    simp
  have hpointJson :=
    isJson_pointOf (hjson _ mem_cons_self) hfollows.seq hfollows.hash hat
  intro state' hread'
  rw [hprune, read_write (isJson_ledgerFields hpointJson
    fun e he ↦ hjson e (mem_cons_of_mem _ he))] at hread'
  obtain ⟨hfields, -⟩ := acceptStored_eq_some hread'
  obtain rfl : state' = ⟨ledgerFields (pointOf fs) after⟩ := by
    cases state'
    exact congrArg StoredLedger.mk (JsValue.obj.inj hfields).symm
  exact ⟨hfollows.canonicalAt, hafter⟩

/-- What `reseal` keeps of an ordered chain is ordered. -/
theorem inOrder_kept (h : storage.Ordered) (verified : ℕ) :
    CanonicalAt (checkpoint (keptAnchor storage)).at' ∧
      InOrder (checkpoint (keptAnchor storage)) ((entries storage).take verified) := by
  rw [keptAnchor, entries]
  cases hread : read storage with
  | none => exact ⟨.inl rfl, by rw [take_nil]; trivial⟩
  | some state =>
    obtain ⟨hanchor, hentries⟩ := h state hread
    rw [← take_append_drop verified state.entries] at hentries
    exact ⟨hanchor, (Lib.Chain.holds_append.1 hentries).1⟩

/-- Resealing keeps the order, also of a chain that does not verify. -/
theorem ordered_reseal {actor : AuditActor} {reason : JsString} {now : ℤ} (hok : FourDigitYear now)
    (h : storage.Ordered) : (reseal rt storage actor reason now).2.Ordered := by
  rcases reseal_eq_self_or rt storage actor reason now with hsame |
    ⟨id, code, seq, verified, lastGood, hid, hreason, hbroken⟩
  · rw [hsame]
    exact h
  rcases reseal_cases now hid hreason hbroken with ⟨-, hread, -⟩ |
    ⟨iso, later, dropped, entry, hiso, hlater, hbuilt, hreseal⟩
  · rw [Storage.Ordered, hread]
    exact h
  have hkeeps := keepsPrefix_of_broken hbroken
  obtain ⟨hanchor, hkept⟩ := inOrder_kept h verified
  rw [hkeeps.lastGood] at hlater hbuilt
  obtain ⟨s, hs, hscanonical, hsearlier⟩ :=
    clamped_canonical (hkept.canonicalAt hanchor) ⟨now, hok, hiso⟩ hlater
  rw [hs] at hbuilt
  intro state hread
  rw [hreseal, read_resealed hkeeps _ hbuilt.json] at hread
  cases hread
  exact Ordered.concat hanchor hkept (follows_of_isBuilt hbuilt hscanonical hsearlier) rfl rfl

/-- **One call keeps the chain in order.** -/
theorem ordered_step {limit : Option ℤ} (storage : Storage) (call : LedgerCall)
    (h : storage.Ordered) (hok : CanonicalCall storage call) :
    (ledgerStep rt limit storage call).Ordered := by
  cases call with
  | append input now => exact ordered_append hok h
  | prune => exact ordered_prune h
  | reseal actor reason now => exact ordered_reseal hok h

/-- **The instants of a chain never decrease**, in every state of every run of `append`, `prune` and
`reseal` from an empty storage in which explicit instants are canonical texts and the clock shows
years of at most four digits. -/
theorem always_chronological (rt : Runtime) (limit : Option ℤ) {calls : List LedgerCall}
    (hcalls : Lib.Meets (ledgerStep rt limit) CanonicalCall (fun _ ↦ none) calls) :
    Lib.Always (ledgerStep rt limit) (Chronological rt) (fun _ ↦ none) calls := by
  refine Lib.always_of_meets ordered_step (fun _ h ↦ chronological_of_ordered h) ?_ hcalls
  intro state hread
  obtain rfl := Option.some.inj (hread : some (StoredLedger.mk (ledgerFields genesisValue [])) = _)
  exact ⟨.inl rfl, trivial⟩

/-- An event with this `at`. -/
def datedInput (at' : Option JsString) : LedgerInput where
  kind := kindOf (js "ledger.resealed")
  action := js "ledger.resealed"
  actorId := js "root"
  subject := ⟨js "ledger", js "chain"⟩
  at' := at'

/-- An append with an explicit instant, a prune, an append by a clock that stepped back, and an
attempt to reseal. -/
theorem always_chronological_clock :
    Lib.Always (ledgerStep plainRuntime none) (Chronological plainRuntime) (fun _ ↦ none)
      [.append (datedInput (some (js "2024-01-01T00:00:00.000Z"))) 0, .prune,
        .append (datedInput none) 0, .reseal (.maintainer (js "root")) (js "tampered") 0] := by
  have hyear : ∀ t ∈ [0, 1704067200000], FourDigitYear t := by
    simp only [FourDigitYear]
    decide +kernel
  exact always_chronological plainRuntime none
    ⟨⟨1704067200000, hyear _ (by simp), by decide +kernel⟩, trivial, hyear _ (by simp),
      hyear _ (by simp), trivial⟩

/-- **With an offset the instants decrease.** Both appends answer `ok`, and the second entry lies
four hours before the first. -/
theorem instants_decrease_with_offset :
    (entries (Lib.run (ledgerStep plainRuntime none) (fun _ ↦ none)
        [.append (datedInput (some (js "2024-01-01T00:00:00.000Z"))) 0,
          .append (datedInput (some (js "2024-01-01T01:00:00+05:00"))) 0])).map
      (instantOf plainRuntime) = [some 1704067200000, some 1704052800000] ∧
    ¬ Chronological plainRuntime (Lib.run (ledgerStep plainRuntime none) (fun _ ↦ none)
        [.append (datedInput (some (js "2024-01-01T00:00:00.000Z"))) 0,
          .append (datedInput (some (js "2024-01-01T01:00:00+05:00"))) 0]) := by
  have hentries : (entries (Lib.run (ledgerStep plainRuntime none) (fun _ ↦ none)
      [.append (datedInput (some (js "2024-01-01T00:00:00.000Z"))) 0,
        .append (datedInput (some (js "2024-01-01T01:00:00+05:00"))) 0])).map
      (instantOf plainRuntime) = [some 1704067200000, some 1704052800000] := by decide +kernel
  refine ⟨hentries, ?_⟩
  rintro ⟨instants, hmap, hsorted⟩
  rw [hentries] at hmap
  obtain rfl : instants = [1704067200000, 1704052800000] :=
    map_injective_iff.2 (Option.some_injective _) hmap.symm
  have h := (pairwise_append.1 hsorted).2.1
  exact absurd h (by decide)

end Utix.Ledger

import Utix.Audit.Trail

/-!
# The trail agrees with its ledger

Every recorded event is offered to the ledger, which keeps the event's id and a digest of its stored
form. `verifyAuditTrail` looks every stored event up by its id and compares digests.

The digest is taken of the form an event has once it has been redacted twice, and comparing redacts
again, so the two forms an event is stored in have the same digest: `digest_of_keptAs`. The *id* is
not protected in this way. It is redacted with the rest of the event, and an id that redaction
changes is no longer the key of its entry; two such ids can become one. So the trail and the ledger
agree on runs whose ids are not empty and survive redaction: `Identified`.

An edit of an anchored event that keeps the id and changes the redacted canonical text changes the
digest, as long as the digest function tells the texts in question apart. Nothing more can be asked
of it: digests have 64 digits.
-/

namespace Utix.Audit

open Js JsValue Telemetry Lib List Option
open Ledger (Storage Runtime canonicalJson parityRuntime)

variable {rt : Runtime}

/-! ### What is committed -/

/-- The digest the ledger gets for an event. -/
def commitment (rt : Runtime) (event : JsValue) : JsString :=
  ((canonicalJson (twice event)).map fun text ↦ (rt.sha256Hex text).1).getD []

variable {v : JsValue}

/-- The commitment to an event is the digest of its second form. -/
theorem commitment_spec (hv : v.WellFormed) :
    ∃ text, canonicalJson (twice v) = some text ∧ commitment rt v = (rt.sha256Hex text).1 := by
  have hjson : (twice v).IsJson := isJson_redact (isJson_jsonOf (wellFormed_redact hv)) 1
  obtain ⟨text, htext⟩ := Ledger.exists_canonicalJson hjson
  exact ⟨text, htext, by rw [commitment, htext]; rfl⟩

variable {c : RecordCall} {event w : JsValue}

section

variable (hmade : eventOf c = some event)
include hmade

/-- At the top of a value and in an array, an event is redacted alike. -/
theorem redact_zero_eq (hw : w = event ∨ w = once event ∨ w = twice event) :
    redact false 0 w = redact false 1 w := by
  obtain ⟨-, instant, rfl⟩ := eventOf_eq_some hmade
  have hfits := fitsIn_event c instant
  have hw' : FitsIn 2 w := by
    rcases hw with rfl | rfl | rfl
    · exact hfits
    · exact fitsIn_once hfits
    · exact fitsIn_redact (fitsIn_once hfits) 1
  exact redact_eq_of_fitsIn hw' (by decide) (by decide)

theorem wellFormed_of_eventOf : event.WellFormed := by
  obtain ⟨-, instant, rfl⟩ := eventOf_eq_some hmade
  exact wellFormed_event c instant

/-- Both forms of an event have the digest that was committed. -/
theorem auditEventDigest_eq (hw : w = once event ∨ w = twice event) :
    auditEventDigest rt w = some (commitment rt event) := by
  obtain ⟨text, htext, hcommit⟩ := @commitment_spec rt _ (wellFormed_of_eventOf hmade)
  have hred : redact false 0 w = twice event := by
    rw [redact_zero_eq hmade (.inr hw)]
    rcases hw with rfl | rfl
    · rfl
    · exact redact_twice event
  rw [auditEventDigest, hred, htext, hcommit]
  rfl

end

variable {r : Logged}

/-- **Both stored forms have the digest that was committed.** -/
theorem digest_of_keptAs (h : r.KeptAs w) : auditEventDigest rt w = some (commitment rt r.event) :=
  auditEventDigest_eq h.made h.form

/-- The stored id is the redacted one. -/
theorem get_id_of_eventOf (hmade : eventOf c = some event) :
    (once event).get (js "id") = .str (scrubString c.id) := by
  obtain ⟨-, instant, rfl⟩ := eventOf_eq_some hmade
  exact get_once_str (wellFormed_event c instant) (by decide) rfl

theorem hashPattern_commitment (hv : v.WellFormed) :
    Ledger.hashPattern (commitment rt v) = true := by
  obtain ⟨text, -, hcommit⟩ := @commitment_spec rt _ hv
  rw [hcommit]
  exact (rt.sha256Hex text).2

/-- **What committing does**: the ledger is left alone, or it has one more entry, with the id and
the digest of the event. -/
theorem commitToLedger_cases (hmade : eventOf c = some event) (ledger : Storage) (now : ℤ) :
    commitToLedger rt ledger event now = (false, ledger) ∨
      (commitToLedger rt ledger event now).1 = true ∧
        ∃ entry, Ledger.entries (commitToLedger rt ledger event now).2 =
            Ledger.entries ledger ++ [entry] ∧
          entry.get (js "ref") = .str (scrubString (scrubString c.id)) ∧
          entry.get (js "refDigest") = .str (commitment rt event) := by
  have hwf := wellFormed_of_eventOf hmade
  have hstored : parse (stringify (redact false 0 event)) = some (once event) := by
    rw [parse_stringify_jsonOf (wellFormed_redact hwf), redact_zero_eq hmade (.inl rfl)]
    rfl
  have hinput : ledgerInputForAudit rt (once event) ≠ none := by
    rw [ledgerInputForAudit, auditEventDigest_eq hmade (.inl rfl)]
    simp
  obtain ⟨input, hsome⟩ := ne_none_iff_exists'.1 hinput
  have hfields : input.ref = some (scrubString c.id) ∧
      input.refDigest = some (commitment rt event) := by
    rw [ledgerInputForAudit, auditEventDigest_eq hmade (.inl rfl)] at hsome
    cases hsome
    exact ⟨by simp only [get_id_of_eventOf hmade]; rfl, rfl⟩
  rw [commitToLedger, hstored, bind_some, hsome]
  simp only
  rcases Ledger.append_cases rt ledger input now with ⟨hsame, hnot⟩ |
    ⟨state, instant, earlier, entry, -, hread, -, -, -, hbuild, happend⟩
  · left
    split
    · next e ledger' heq => exact absurd (congrArg Prod.fst heq) (hnot e)
    · next ledger' _ heq => rw [← hsame, heq]
  · right
    rw [happend]
    have hinstant : (if earlier then (Ledger.headOf state).at' else .str instant).WellFormed := by
      split
      · have hacc := Ledger.accepted_of_read hread
        rw [Ledger.headOf]
        split
        · exact wellFormed_get hacc.isJson_anchor _
        next last hlast =>
        split
        · exact wellFormed_get (hacc.isJson_entries last (mem_of_getLast? hlast)) _
        · exact wellFormed_get hacc.isJson_anchor _
      · trivial
    have hbuilt := Ledger.isBuilt_of_build hinstant hbuild
    obtain ⟨next, hnext, -, hentries⟩ :=
      Ledger.read_extend ledger (Ledger.accepted_of_read hread) hbuilt.json
    refine ⟨rfl, entry, ?_, ?_, ?_⟩
    · rw [Ledger.entries, Ledger.entries, hnext, hread]
      exact hentries
    · refine hbuilt.get_str (by decide) ?_
      show Ledger.optional input.ref = _
      rw [hfields.1]
      rfl
    · rw [← Ledger.scrubString_hash (@hashPattern_commitment rt _ hwf)]
      refine hbuilt.get_str (by decide) ?_
      show Ledger.optional input.refDigest = _
      rw [hfields.2]
      rfl

/-! ### What the cross check answers -/

/-- No entry has the id of the event. -/
def isUnanchored (digests : Dict JsValue JsValue) (event : JsValue) : Bool :=
  (digests.get (event.get (js "id"))).isNone

/-- The entry with the id of the event has another digest. -/
def isTampered (rt : Runtime) (digests : Dict JsValue JsValue) (event : JsValue) : Bool :=
  (digests.get (event.get (js "id"))).any fun digest ↦
    (auditEventDigest rt event).any fun found ↦ digest ≠ .str found

def idOf (event : JsValue) : JsValue := event.get (js "id")

/-- The loop of the cross check counts and collects, event by event. -/
theorem crossCheckLoop_eq {digests : Dict JsValue JsValue} {events : List JsValue}
    (h : ∀ w ∈ events, (auditEventDigest rt w).isSome = true) (acc : AuditCrossCheck) :
    crossCheckLoop rt digests acc events =
      some ⟨acc.anchored +
          events.countP (fun w ↦ !isUnanchored digests w && !isTampered rt digests w),
        acc.tampered ++ (events.filter (isTampered rt digests)).map idOf,
        acc.unanchored ++ (events.filter (isUnanchored digests)).map idOf, acc.missing⟩ := by
  induction events generalizing acc with
  | nil => simp [crossCheckLoop]
  | cons w events ih =>
    have ih' := ih fun x hx ↦ h x (mem_cons_of_mem _ hx)
    obtain ⟨found, hfound⟩ := isSome_iff_exists.1 (h w mem_cons_self)
    rcases hget : digests.get (w.get (js "id")) with - | digest
    · have hun : isUnanchored digests w = true := by rw [isUnanchored, hget]; rfl
      have htam : isTampered rt digests w = false := by rw [isTampered, hget]; rfl
      rw [crossCheckLoop, hget]
      simp only [ih', countP_cons, filter_cons, hun, htam]
      simp [idOf]
    · have hun : isUnanchored digests w = false := by rw [isUnanchored, hget]; rfl
      by_cases hne : digest = .str found
      · have htam : isTampered rt digests w = false := by
          rw [isTampered, hget, hfound]
          simp [hne]
        rw [crossCheckLoop, hget]
        simp only [hfound, hne, ne_eq, not_true_eq_false, if_false, ih', countP_cons,
          filter_cons, hun, htam]
        simp [Nat.add_assoc, Nat.add_comm]
      · have htam : isTampered rt digests w = true := by
          rw [isTampered, hget, hfound]
          simpa using hne
        rw [crossCheckLoop, hget]
        simp only [hfound, ne_eq, hne, not_false_eq_true, if_true, ih', countP_cons,
          filter_cons, hun, htam]
        simp [idOf]

variable {trail : Storage}

/-- Every stored event has a digest. -/
theorem isSome_auditEventDigest (hw : w ∈ readAll trail) :
    ∃ text, canonicalJson (redact false 0 w) = some text ∧
      auditEventDigest rt w = some (rt.sha256Hex text).1 := by
  obtain ⟨text, htext⟩ := Ledger.exists_canonicalJson (isJson_redact (of_mem_readAll hw).1 0)
  exact ⟨text, htext, by rw [auditEventDigest, htext]; rfl⟩

/-- **The cross check never throws**, and this is what it answers. -/
theorem verifyAuditTrail_eq (rt : Runtime) (trail ledger : Storage) :
    ∃ anchored, verifyAuditTrail rt trail ledger = some ⟨anchored,
      ((readAll trail).filter (isTampered rt (committed (Ledger.entries ledger)))).map idOf,
      ((readAll trail).filter (isUnanchored (committed (Ledger.entries ledger)))).map idOf,
      ((committed (Ledger.entries ledger)).entries.map Prod.fst).filter fun id ↦
        !((readAll trail).map idOf).contains id⟩ := by
  have hsome : ∀ w ∈ readAll trail, (auditEventDigest rt w).isSome = true := fun w hw ↦ by
    obtain ⟨text, -, hdigest⟩ := @isSome_auditEventDigest rt _ _ hw
    rw [hdigest]
    rfl
  rw [verifyAuditTrail, crossCheckLoop_eq hsome]
  exact ⟨_, rfl⟩

/-! ### The invariant -/

/-- An event gets an id that is not empty, survives redaction, and is new. -/
def Identified (s : AuditState) (c : RecordCall) : Prop :=
  eventOf c ≠ none → c.id ≠ [] ∧ scrubString c.id = c.id ∧ ∀ r ∈ s.log, r.call.id ≠ c.id

/-- The trail holds the log, and the ledger holds the digests of the anchored part of it. -/
structure Agrees (rt : Runtime) (s : AuditState) : Prop where
  kept : Kept s
  stable : ∀ r ∈ s.log, scrubString r.call.id = r.call.id
  distinct : (s.log.map fun r ↦ r.call.id).Nodup
  ledger : ∀ k d, (committed (Ledger.entries s.stores.ledger)).get k = some d ↔
    ∃ r ∈ s.log, r.anchored = true ∧ k = .str r.call.id ∧ d = .str (commitment rt r.event)

/-- Nothing recorded, and no event in the ledger. -/
structure AuditState.Unused (s : AuditState) : Prop where
  fresh : s.Fresh
  ledger : committed (Ledger.entries s.stores.ledger) = .empty

/-- The digests that the cross check compares with. -/
abbrev AuditState.digests (s : AuditState) := committed (Ledger.entries s.stores.ledger)

variable {s : AuditState}

/-- The invariant holds before anything is recorded. -/
theorem agrees_of_unused (h : s.Unused) : Agrees rt s where
  kept := by
    rw [Kept, h.fresh.log, h.fresh.trail]
    exact .nil
  stable := by simp [h.fresh.log]
  distinct := by simp [h.fresh.log]
  ledger k d := by simp [h.ledger, h.fresh.log]

theorem truthy_str {t : JsString} : (JsValue.str t).truthy = true ↔ t ≠ [] := by
  simp [truthy]

/-- **A record keeps the agreement.** -/
theorem agrees_auditStep (h : Agrees rt s) (hok : Identified s c) :
    Agrees rt (auditStep rt s c) := by
  have hkept : Kept (auditStep rt s c) := kept_auditStep h.kept c
  rcases auditStep_cases rt s c with ⟨-, heq⟩ | ⟨event, hmade, heq⟩
  · rw [heq]
    exact h
  obtain ⟨hne, hstable, hnew⟩ := hok (by simp [hmade])
  rw [heq] at hkept ⊢
  refine ⟨hkept, ?_, ?_, fun k d ↦ ?_⟩
  · intro r hr
    rcases mem_append.1 hr with hr | hr
    · exact h.stable r hr
    · rw [mem_singleton.1 hr]
      exact hstable
  · rw [map_append]
    refine List.Nodup.append h.distinct (nodup_singleton _) ?_
    rintro id hid hc
    obtain ⟨r, hr, rfl⟩ := mem_map.1 hid
    exact hnew r hr (mem_singleton.1 hc)
  · simp only
    rcases @commitToLedger_cases rt _ _ hmade s.stores.ledger c.ledgerNow with hrefused |
      ⟨htaken, entry, hentries, href, hdigest⟩
    · rw [hrefused]
      simp [h.ledger k d]
    -- the entry is new in the map, because its reference is
    have hcommit : commitment rt event ≠ [] := by
      have hpattern := @hashPattern_commitment rt _ (wellFormed_of_eventOf hmade)
      rintro hnil
      rw [hnil] at hpattern
      exact absurd hpattern (by decide)
    rw [hentries, committed, foldl_append, foldl_cons, foldl_nil, href, hdigest, hstable, hstable,
      if_pos (by simp [truthy_str.2 hne, truthy_str.2 hcommit]), ← committed, Dict.get_set, htaken]
    by_cases hk : JsValue.str c.id = k
    · subst hk
      rw [if_pos rfl]
      constructor
      · rintro hd
        exact ⟨_, mem_append_right _ mem_cons_self, rfl, rfl, (some.inj hd).symm⟩
      rintro ⟨r, hr, -, hid, rfl⟩
      rcases mem_append.1 hr with hr | hr
      · exact absurd (JsValue.str.inj hid).symm (hnew r hr)
      · rw [mem_singleton.1 hr]
    · rw [if_neg hk, h.ledger k d]
      constructor
      · rintro ⟨r, hr, hrest⟩
        exact ⟨r, mem_append_left _ hr, hrest⟩
      rintro ⟨r, hr, hanchored, rfl, hd⟩
      rcases mem_append.1 hr with hr | hr
      · exact ⟨r, hr, hanchored, rfl, hd⟩
      · rw [mem_singleton.1 hr] at hk
        exact absurd rfl hk

/-! ### What the agreement says about the cross check -/

namespace Agrees

section

variable (h : Agrees rt s)
include h

/-- In an agreeing state a stored event is looked up under the id it was recorded with. -/
theorem idOf_eq (hr : r ∈ s.log) (hw : r.KeptAs w) : idOf w = .str r.call.id := by
  have hstable := h.stable r hr
  rcases hw.get_str (js "id") (by decide) fun _ ↦ rfl with hid | hid
  · rw [idOf, hid, hstable]
  · rw [idOf, hid, hstable, hstable]

/-- An id names one recorded event. -/
theorem eq_of_id_eq {q : Logged} (hq : q ∈ s.log) (hr : r ∈ s.log) (hid : q.call.id = r.call.id) :
    q = r :=
  inj_on_of_nodup_map h.distinct hq hr hid

/-- What the ledger has for a stored event. -/
theorem get_committed (hr : r ∈ s.log) (hw : r.KeptAs w) :
    s.digests.get (idOf w) =
      if r.anchored then some (.str (commitment rt r.event)) else none := by
  rw [h.idOf_eq hr hw]
  split
  · next hanchored => exact (h.ledger _ _).2 ⟨r, hr, hanchored, rfl, rfl⟩
  next hanchored =>
  refine eq_none_iff_forall_ne_some.2 fun d hd ↦ ?_
  obtain ⟨q, hq, hqa, hid, -⟩ := (h.ledger _ _).1 hd
  rw [h.eq_of_id_eq hr hq (JsValue.str.inj hid)] at hanchored
  exact hanchored hqa

/-- What was recorded and not touched is not reported. -/
theorem isTampered_eq_false (hr : r ∈ s.log) (hw : r.KeptAs w) :
    isTampered rt s.digests w = false := by
  rw [isTampered, ← idOf, h.get_committed hr hw, digest_of_keptAs hw]
  split <;> simp

/-- An event is unanchored exactly if the ledger refused it. -/
theorem isUnanchored_eq (hr : r ∈ s.log) (hw : r.KeptAs w) :
    isUnanchored s.digests w = !r.anchored := by
  rw [isUnanchored, ← idOf, h.get_committed hr hw]
  cases r.anchored <;> rfl

theorem map_unanchored :
    ((readAll s.stores.trail).filter (isUnanchored s.digests)).map idOf =
      (s.log.filter fun r ↦ !r.anchored).map fun r ↦ .str r.call.id := by
  have hkept := h.kept
  suffices hsub : ∀ {log : List Logged} {ws : List JsValue}, List.Forall₂ Logged.KeptAs log ws →
      log ⊆ s.log → (ws.filter (isUnanchored s.digests)).map idOf =
        (log.filter fun r ↦ !r.anchored).map fun r ↦ .str r.call.id from
    hsub hkept (List.Subset.refl _)
  intro log ws hrel hsub
  induction hrel with
  | nil => rfl
  | @cons r w log ws hw _ ih =>
    have hr := hsub mem_cons_self
    have ih' := ih (fun q hq ↦ hsub (mem_cons_of_mem _ hq))
    rw [filter_cons, filter_cons, h.isUnanchored_eq hr hw]
    split
    · rw [map_cons, map_cons, ih', h.idOf_eq hr hw]
    · exact ih'

end

end Agrees

/-! ### The law -/

/-- The stored event is left as it is; or it is an anchored one, and is changed into a value with
the same id and another redacted canonical text. -/
def EditedFrom (digests : Dict JsValue JsValue) (w w' : JsValue) : Prop :=
  w' = w ∨ ((digests.get (idOf w)).isSome = true ∧ idOf w' = idOf w ∧
    canonicalJson (redact false 0 w') ≠ canonicalJson (redact false 0 w))

/-- The texts that are hashed for a list of events. -/
def digestTexts (ws : List JsValue) : Set JsString :=
  {text | ∃ w ∈ ws, canonicalJson (redact false 0 w) = some text}

/-- What the cross check says about the trail as it is, and about an edited trail. -/
structure CrossCheckLaw (rt : Runtime) (s : AuditState) : Prop where
  agrees : ∃ anchored, verifyAuditTrail rt s.stores.trail s.stores.ledger =
    some ⟨anchored, [], (s.log.filter fun r ↦ !r.anchored).map fun r ↦ .str r.call.id, []⟩
  detects : ∀ trail : Storage,
    Set.InjOn (fun text ↦ (rt.sha256Hex text).1)
      (digestTexts (readAll s.stores.trail ++ readAll trail)) →
    List.Forall₂ (EditedFrom (committed (Ledger.entries s.stores.ledger)))
      (readAll s.stores.trail) (readAll trail) →
    ∃ check, verifyAuditTrail rt trail s.stores.ledger = some check ∧
      check.tampered = (((readAll s.stores.trail).zip (readAll trail)).filter
        fun p ↦ p.1 ≠ p.2).map fun p ↦ idOf p.1

namespace Agrees

section

variable (h : Agrees rt s)
include h

theorem tampered_eq_nil : (readAll s.stores.trail).filter
    (isTampered rt s.digests) = [] := by
  refine filter_eq_nil_iff.2 fun w hw ↦ ?_
  obtain ⟨r, hr, hkept⟩ := h.kept.exists_logged hw
  rw [h.isTampered_eq_false hr hkept]
  exact Bool.false_ne_true

/-- Every committed event is in the trail. -/
theorem missing_eq_nil :
    ((s.digests.entries.map Prod.fst).filter fun id ↦
      !((readAll s.stores.trail).map idOf).contains id) = [] := by
  refine filter_eq_nil_iff.2 fun id hid ↦ ?_
  obtain ⟨⟨k, d⟩, hmem, rfl⟩ := mem_map.1 hid
  obtain ⟨r, hr, -, rfl, -⟩ := (h.ledger k d).1 (Dict.mem_entries_iff.1 hmem)
  obtain ⟨w, hw, hkept⟩ := exists_of_forall₂ (R := flip Logged.KeptAs) (List.Forall₂.flip h.kept) hr
  have hseen : JsValue.str r.call.id ∈ (readAll s.stores.trail).map idOf :=
    mem_map.2 ⟨w, hw, h.idOf_eq hr hkept⟩
  simpa using hseen

/-- An anchored event that was edited has another digest. -/
theorem isTampered_of_edited
    (hinj : Set.InjOn (fun text ↦ (rt.sha256Hex text).1)
      (digestTexts (readAll s.stores.trail ++ readAll trail))) {w' : JsValue}
    (hw : w ∈ readAll s.stores.trail) (hw' : w' ∈ readAll trail)
    (hanchored : (s.digests.get (idOf w)).isSome = true)
    (hid : idOf w' = idOf w)
    (hne : canonicalJson (redact false 0 w') ≠ canonicalJson (redact false 0 w)) :
    isTampered rt s.digests w' = true := by
  obtain ⟨r, hr, hkept⟩ := h.kept.exists_logged hw
  obtain ⟨text, htext, hdigest⟩ := @isSome_auditEventDigest rt _ _ hw
  obtain ⟨text', htext', hdigest'⟩ := @isSome_auditEventDigest rt _ _ hw'
  have hcommit : commitment rt r.event = (rt.sha256Hex text).1 :=
    some.inj ((digest_of_keptAs hkept).symm.trans hdigest)
  have hother : (rt.sha256Hex text).1 ≠ (rt.sha256Hex text').1 := fun hsame ↦ by
    have heq := hinj ⟨w, mem_append_left _ hw, htext⟩
      ⟨w', mem_append_right _ hw', htext'⟩ hsame
    rw [htext, htext', heq] at hne
    exact hne rfl
  have hget := h.get_committed hr hkept
  split at hget
  · rw [isTampered, ← idOf, hid, hget, hdigest', hcommit]
    simpa using hother
  · rw [hget] at hanchored
    exact absurd hanchored Bool.false_ne_true

/-- Event by event, what was edited is what is reported. -/
theorem tampered_of_edited
    (hinj : Set.InjOn (fun text ↦ (rt.sha256Hex text).1)
      (digestTexts (readAll s.stores.trail ++ readAll trail))) {ws ws' : List JsValue}
    (hrel : List.Forall₂ (EditedFrom s.digests) ws ws')
    (hws : ws ⊆ readAll s.stores.trail) (hws' : ws' ⊆ readAll trail) :
    (ws'.filter (isTampered rt s.digests)).map idOf =
      ((ws.zip ws').filter fun p ↦ p.1 ≠ p.2).map fun p ↦ idOf p.1 := by
  induction hrel with
  | nil => rfl
  | @cons w w' ws ws' hedit _ ih =>
    have hw := hws mem_cons_self
    have ih' := ih (fun x hx ↦ hws (mem_cons_of_mem _ hx))
      fun x hx ↦ hws' (mem_cons_of_mem _ hx)
    rcases hedit with rfl | ⟨hanchored, hid, hne⟩
    · obtain ⟨r, hr, hkept⟩ := h.kept.exists_logged hw
      rw [filter_cons_of_neg (by simp [h.isTampered_eq_false hr hkept]), ih',
        zip_cons_cons, filter_cons_of_neg (by simp)]
    · have htampered := h.isTampered_of_edited hinj hw (hws' mem_cons_self) hanchored hid hne
      have hdiffer : w ≠ w' := fun heq ↦ hne (heq ▸ rfl)
      rw [filter_cons_of_pos htampered, map_cons, ih', zip_cons_cons,
        filter_cons_of_pos (by simpa using hdiffer), map_cons, hid]

/-- The invariant gives both halves of the law. -/
theorem crossCheckLaw : CrossCheckLaw rt s where
  agrees := by
    obtain ⟨n, hverdict⟩ := verifyAuditTrail_eq rt s.stores.trail s.stores.ledger
    exact ⟨n, by rw [hverdict, h.tampered_eq_nil, h.map_unanchored, h.missing_eq_nil]; rfl⟩
  detects trail hinj hrel := by
    obtain ⟨n, hverdict⟩ := verifyAuditTrail_eq rt trail s.stores.ledger
    exact ⟨_, hverdict, h.tampered_of_edited hinj hrel (List.Subset.refl _) (List.Subset.refl _)⟩

end

end Agrees

/-- **The trail agrees with its ledger** after every run whose events get ids that are not empty,
new, and survive redaction. -/
theorem crossCheckLaw_run {s : AuditState} (hs : s.Unused) {calls : List RecordCall}
    (hcalls : Meets (auditStep rt) Identified s calls) :
    CrossCheckLaw rt (run (auditStep rt) s calls) :=
  (run_induction (fun _ _ ↦ agrees_auditStep) (agrees_of_unused hs) hcalls).crossCheckLaw

/-- A record of an export under the given id. -/
def exportOf (id target : JsString) : RecordCall where
  input :=
    { action := js "export.generated", actor := .user (js "ada"), target := ⟨js "export", target⟩ }
  id := id
  freshCorrelation := js "c-1"
  now := 0
  ledgerNow := 0

/-- Two recorded exports, of which the second rewrites the first: the cross check is clean. -/
theorem crossCheckLaw_run_export :
    AuditState.Unused ⟨⟨fun _ ↦ none, fun _ ↦ none⟩, []⟩ ∧
      CrossCheckLaw parityRuntime (run (auditStep parityRuntime)
        ⟨⟨fun _ ↦ none, fun _ ↦ none⟩, []⟩
        [exportOf (js "id-1") (js "e-1"), exportOf (js "id-2") (js "e-10")]) := by
  have hunused : AuditState.Unused ⟨⟨fun _ ↦ none, fun _ ↦ none⟩, []⟩ := ⟨⟨rfl, rfl⟩, rfl⟩
  have hfirst : js "id-1" ≠ [] ∧ scrubString (js "id-1") = js "id-1" := by decide +kernel
  have hsecond : js "id-2" ≠ [] ∧ scrubString (js "id-2") = js "id-2" := by decide +kernel
  refine ⟨hunused, crossCheckLaw_run hunused
    ⟨fun _ ↦ ⟨hfirst.1, hfirst.2, fun r hr ↦ absurd hr not_mem_nil⟩,
      fun _ ↦ ⟨hsecond.1, hsecond.2, fun r hr ↦ ?_⟩, trivial⟩⟩
  rcases mem_log_auditStep hr with hr | hcall
  · exact absurd hr not_mem_nil
  · rw [hcall]
    decide

/-- Two ids that redaction takes for secrets are stored as one, and the first event is reported as
tampered although nobody touched it. -/
theorem verifyAuditTrail_secret_ids :
    (verifyAuditTrail parityRuntime
      (run (auditStep parityRuntime) ⟨⟨fun _ ↦ none, fun _ ↦ none⟩, []⟩
        [exportOf (js "Settlement-000001") (js "e-1"),
          exportOf (js "Settlement-000002") (js "e-10")]).stores.trail
      (run (auditStep parityRuntime) ⟨⟨fun _ ↦ none, fun _ ↦ none⟩, []⟩
        [exportOf (js "Settlement-000001") (js "e-1"),
          exportOf (js "Settlement-000002") (js "e-10")]).stores.ledger).map
      AuditCrossCheck.tampered = some [.str redacted] := by
  decide +kernel

end Utix.Audit

import Utix.Audit.Trail

/-!
# A user reads their own events

`query` answers a user with the events whose scope is `own` and whose `actorId` is the user's id.
The text `actorId` does not say what kind of actor it names: a system actor with an id, or a
maintainer who records in scope `own`, is indistinguishable from the user of that id, and a system
actor without one is indistinguishable from a user called `system`. It is also the *redacted* text:
two users whose ids are taken for secrets are both `[REDACTED]`.

`Distinct` excludes this for one user. Then what they read was recorded for them
(`exists_logged_of_isVisible`), and it is a function of the calls made for them alone
(`filter_isVisible_run`): the calls of others decide nothing. For the second fact their own events
must not change when they are redacted again (`Settled`), because every record of anyone rewrites
the trail.
-/

namespace Utix.Audit

open Js Telemetry Lib List
open Ledger (Storage Runtime)

variable {rt : Runtime} {u : JsString}

/-- The call was made for the user `u`. -/
def RecordCall.isFor (u : JsString) (c : RecordCall) : Bool := c.input.actor = .user u

/-- A call for someone else is not stored in scope `own` under the id `u`. -/
def Distinct (u : JsString) (c : RecordCall) : Prop :=
  c.isFor u = true ∨ c.input.scopeOf = .maintainer ∨
    (scrubString c.input.actorId ≠ u ∧ scrubString (scrubString c.input.actorId) ≠ u)

/-- The event of the call is not changed by redacting it again. -/
def Settled (c : RecordCall) : Prop := ∀ event, eventOf c = some event → twice event = once event

/-! ### Who is seen -/

variable {w : JsValue}

/-- **Someone else's event is not visible.** -/
theorem isVisible_eq_false {r : Logged} (h : r.KeptAs w) (hdistinct : Distinct u r.call)
    (hother : r.call.isFor u = false) : isVisible (.user u) w = false := by
  have hscope := h.get_str (js "scope") (by decide) fun _ ↦ rfl
  have hactor := h.get_str (js "actorId") (by decide) fun _ ↦ rfl
  rcases hdistinct with hfor | hmaintainer | ⟨honce, htwice⟩
  · rw [hother] at hfor
    exact absurd hfor Bool.false_ne_true
  · rw [scrubString_scope, scrubString_scope, or_self, hmaintainer] at hscope
    have hne : w.get (js "scope") ≠ .str (js "own") := by
      rw [hscope]
      decide
    simp [isVisible, hne]
  · have hne : w.get (js "actorId") ≠ .str u := by
      rcases hactor with hactor | hactor <;> rw [hactor] <;> simpa
    simp [isVisible, AuditActor.id?, Ledger.optional, hne]

variable {s : AuditState}

/-- **What the user sees was recorded for them.** -/
theorem exists_logged_of_isVisible (hs : Kept s) (hdistinct : ∀ r ∈ s.log, Distinct u r.call)
    (hw : w ∈ readAll s.stores.trail) (hvisible : isVisible (.user u) w = true) :
    ∃ r ∈ s.log, r.KeptAs w ∧ r.call.isFor u = true := by
  obtain ⟨r, hr, hkept⟩ := hs.exists_logged hw
  refine ⟨r, hr, hkept, ?_⟩
  by_contra hother
  have hhidden := isVisible_eq_false hkept (hdistinct r hr) (by simpa using hother)
  rw [hvisible] at hhidden
  exact absurd hhidden Bool.true_eq_false.mp

/-- What the user sees of a trail, from the part of its log that was recorded for them. -/
theorem filter_isVisible {log : List Logged} {ws : List JsValue}
    (h : List.Forall₂ Logged.KeptAs log ws) (hdistinct : ∀ r ∈ log, Distinct u r.call)
    (hsettled : ∀ r ∈ log, r.call.isFor u = true → Settled r.call) :
    ws.filter (isVisible (.user u)) =
      ((log.filter fun r ↦ r.call.isFor u).map fun r ↦ once r.event).filter
        (isVisible (.user u)) := by
  induction h with
  | nil => rfl
  | @cons r w log ws hr _ ih =>
    have ih' := ih (fun r hr ↦ hdistinct r (mem_cons_of_mem _ hr))
      fun r hr ↦ hsettled r (mem_cons_of_mem _ hr)
    by_cases hfor : r.call.isFor u = true
    · have hform : w = once r.event := by
        rcases hr.form with hform | hform
        · exact hform
        · rw [hform, hsettled r mem_cons_self hfor r.event hr.made]
      have hown : (r :: log).filter (fun r ↦ r.call.isFor u) =
          r :: log.filter fun r ↦ r.call.isFor u := filter_cons_of_pos hfor
      rw [hown, map_cons, filter_cons, filter_cons, ih', hform]
    · have hhidden := isVisible_eq_false hr (hdistinct r mem_cons_self) (by simpa using hfor)
      rw [filter_cons_of_neg (by simp [hhidden]), filter_cons_of_neg (by simpa using hfor), ih']

/-! ### Runs -/

variable {calls : List RecordCall}

/-- What a run logs was called in it. -/
theorem call_mem_of_mem_log (hs : s.Fresh) {r : Logged}
    (hr : r ∈ (run (auditStep rt) s calls).log) : r.call ∈ calls := by
  have hmem : (r.call, r.event) ∈
      (run (auditStep rt) s calls).log.map fun r ↦ (r.call, r.event) :=
    mem_map.2 ⟨r, hr, rfl⟩
  rw [log_run, hs.log, map_nil, nil_append] at hmem
  obtain ⟨c, hc, hmade⟩ := mem_filterMap.1 hmem
  obtain ⟨event, -, heq⟩ := Option.map_eq_some_iff.1 hmade
  obtain ⟨rfl, -⟩ := Prod.mk.inj heq
  exact hc

/-- **What the user sees after a run is decided by the calls made for them.** -/
theorem filter_isVisible_run (hs : s.Fresh) (hdistinct : ∀ c ∈ calls, Distinct u c)
    (hsettled : ∀ c ∈ calls, c.isFor u = true → Settled c) :
    (readAll (run (auditStep rt) s calls).stores.trail).filter (isVisible (.user u)) =
      ((calls.filter (RecordCall.isFor u)).filterMap fun c ↦ (eventOf c).map once).filter
        (isVisible (.user u)) := by
  rw [filter_isVisible (kept_run hs calls) (fun r hr ↦ hdistinct _ (call_mem_of_mem_log hs hr))
    fun r hr ↦ hsettled _ (call_mem_of_mem_log hs hr)]
  have hlog := log_run rt s calls
  rw [hs.log, map_nil, nil_append] at hlog
  have hpairs : ((run (auditStep rt) s calls).log.filter fun r ↦ r.call.isFor u).map
      (fun r ↦ once r.event) =
      (((run (auditStep rt) s calls).log.map fun r ↦ (r.call, r.event)).filter
        fun p ↦ p.1.isFor u).map fun p ↦ once p.2 := by
    rw [filter_map, map_map]
    rfl
  rw [hpairs, hlog]
  congr 1
  clear hpairs hlog hdistinct hsettled
  induction calls with
  | nil => rfl
  | cons c calls ih =>
    rcases hmade : eventOf c with - | event
    · rw [filterMap_cons_none (by rw [hmade]; rfl), ih]
      by_cases hfor : c.isFor u = true
      · rw [filter_cons_of_pos hfor, filterMap_cons_none (by rw [hmade]; rfl)]
      · rw [filter_cons_of_neg hfor]
    · rw [filterMap_cons_some (by rw [hmade]; rfl)]
      by_cases hfor : c.isFor u = true
      · rw [filter_cons_of_pos (by exact hfor), map_cons, ih,
          filter_cons_of_pos hfor, filterMap_cons_some (by rw [hmade]; rfl)]
      · rw [filter_cons_of_neg (by exact hfor), ih, filter_cons_of_neg hfor]

/-! ### The law -/

variable {limit : Option ℤ} {actor : AuditActor}

/-- **Audit reads are scoped**, for a user whose stored id nobody else's events carry. What `query`
answers them was recorded for them; and of two runs in which the same calls were made for them, and
their own events do not change when redacted again, `query` answers the same. -/
theorem query_user_scoped (rt : Runtime) (u : JsString) :
    (∀ s : AuditState, s.Fresh → ∀ calls, (∀ c ∈ calls, Distinct u c) →
      ∀ limit filter page,
        query limit (run (auditStep rt) s calls).stores.trail (.user u) filter = .ok page →
        ∀ w ∈ page.events, ∃ r ∈ (run (auditStep rt) s calls).log,
          r.KeptAs w ∧ r.call.input.actor = .user u) ∧
    ∀ s t : AuditState, s.Fresh → t.Fresh → ∀ calls calls' : List RecordCall,
      (∀ c ∈ calls, Distinct u c) → (∀ c ∈ calls', Distinct u c) →
      calls.filter (RecordCall.isFor u) = calls'.filter (RecordCall.isFor u) →
      (∀ c ∈ calls, c.isFor u = true → Settled c) →
      ∀ limit filter,
        query limit (run (auditStep rt) s calls).stores.trail (.user u) filter =
          query limit (run (auditStep rt) t calls').stores.trail (.user u) filter := by
  constructor
  · intro s hs calls hdistinct limit filter page hpage w hw
    rw [query] at hpage
    split at hpage
    · cases hpage
    split at hpage
    · cases hpage
    cases hpage
    obtain ⟨hmem, hvisible⟩ := mem_filter.1 (mem_filter.1 (mem_of_mem_drop hw)).1
    obtain ⟨r, hr, hkept, hfor⟩ := exists_logged_of_isVisible (kept_run hs calls)
      (fun r hr ↦ hdistinct _ (call_mem_of_mem_log hs hr)) hmem hvisible
    exact ⟨r, hr, hkept, of_decide_eq_true hfor⟩
  · intro s t hs ht calls calls' hdistinct hdistinct' hsame hsettled limit filter
    have hsettled' : ∀ c ∈ calls', c.isFor u = true → Settled c := fun c hc hfor ↦ by
      have hmem : c ∈ calls.filter (RecordCall.isFor u) :=
        hsame ▸ mem_filter.2 ⟨hc, hfor⟩
      exact hsettled c (mem_filter.1 hmem).1 hfor
    rw [query, filter_isVisible_run hs hdistinct hsettled, query,
      filter_isVisible_run ht hdistinct' hsettled', hsame]

theorem settled_of_all {c : RecordCall}
    (h : (eventOf c).all (fun event ↦ twice event = once event) = true) : Settled c := by
  intro event hmade
  rw [hmade] at h
  exact of_decide_eq_true h

/-- A generated export, recorded for the given actor. -/
def exportCall (actor : AuditActor) : RecordCall where
  input :=
    { action := js "export.generated", actor := actor, target := ⟨js "export", js "e-1"⟩ }
  id := js "id-1"
  freshCorrelation := js "corr-1"
  now := 0
  ledgerNow := 0

/-- Empty storages. -/
def emptyStores : AuditState := ⟨⟨fun _ ↦ none, fun _ ↦ none⟩, []⟩

theorem fresh_emptyStores : emptyStores.Fresh := ⟨rfl, rfl⟩

/-- What Ada reads does not depend on whether the system recorded something. -/
theorem query_user_scoped_ada :
    query none (run (auditStep Ledger.plainRuntime) emptyStores
        [exportCall (.user (js "ada")), exportCall (.system none)]).stores.trail
        (.user (js "ada")) {} =
      query none (run (auditStep Ledger.plainRuntime) emptyStores
        [exportCall (.user (js "ada"))]).stores.trail (.user (js "ada")) {} ∧
    (query none (run (auditStep Ledger.plainRuntime) emptyStores
        [exportCall (.user (js "ada"))]).stores.trail (.user (js "ada")) {}).toOption.map
      AuditPage.total = some 1 := by
  have hada : (exportCall (.user (js "ada"))).isFor (js "ada") = true := by decide +kernel
  have hsystem : (exportCall (.system none)).isFor (js "ada") = false := by decide +kernel
  have hdistinct : Distinct (js "ada") (exportCall (.system none)) :=
    .inr (.inr (by decide +kernel))
  refine ⟨(query_user_scoped Ledger.plainRuntime (js "ada")).2 emptyStores emptyStores
    fresh_emptyStores fresh_emptyStores
    [exportCall (.user (js "ada")), exportCall (.system none)] [exportCall (.user (js "ada"))]
    (forall_mem_cons.2 ⟨.inl hada, forall_mem_singleton.2 hdistinct⟩)
    (forall_mem_singleton.2 (.inl hada)) (by simp [hada, hsystem])
    (forall_mem_cons.2 ⟨fun _ ↦ ?_, forall_mem_singleton.2 fun h ↦ ?_⟩) none {},
    by decide +kernel⟩
  · exact settled_of_all (by decide +kernel)
  · rw [hsystem] at h
    exact absurd h Bool.false_ne_true

/-- A system actor that carries the id of a user: the user reads its event, which was not recorded
for them, and would read nothing without it. -/
theorem query_user_reads_system :
    (query none (run (auditStep Ledger.plainRuntime) emptyStores
        [exportCall (.system (some (js "ada")))]).stores.trail (.user (js "ada"))
        {}).toOption.map AuditPage.total = some 1 ∧
      (∀ r ∈ (run (auditStep Ledger.plainRuntime) emptyStores
        [exportCall (.system (some (js "ada")))]).log, r.call.input.actor ≠ .user (js "ada")) ∧
      (query none (run (auditStep Ledger.plainRuntime) emptyStores []).stores.trail
        (.user (js "ada")) {}).toOption.map AuditPage.total = some 0 := by
  decide +kernel

end Utix.Audit

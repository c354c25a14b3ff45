import Utix.Authorizations.Effects

/-!
# The lifecycle of a delegated authorization

What is stored about an authorization is what its history says. `History` is that invariant: every
stored authorization was granted by a call in the log, it expires when that grant and the renewals
in the log say, and it is active exactly if the trail has no accepted event that ended it. Each kind
of step keeps the invariant, and `authorize` reads the answer off it.

An expired authorization can be renewed until it can be cleaned up: `renew`, `report` and `cleanup`
ask the same question, `isCleanable`. What comes of it is up to the recorder, which may refuse any
event: `Alternative` says of every expired authorization which of the two calls presents an event
for it, and that the answer of the call follows the answer of the recorder. An authorization is
cleaned exactly if its event was taken and skipped exactly if it was refused, and a renewal succeeds
exactly if its event was taken.

`lifecycle_run` puts the three parts together for every run. The clock need not be monotone, the
recorder and the hook `canDelegate` are arbitrary; only the ids that the store is given have to be
different.
-/

namespace Utix.Authorizations

open Js Lib List Dict JsNum
open Audit (AuditActor AuditInput AuditOutcome)

/-! ### What the log and the trail say -/

/-- The entry is a grant that succeeded. -/
def LogEntry.IsGrant (e : LogEntry) (input : GrantInput) (a : Authorization) : Prop :=
  (∃ hook, e.call = .grant input hook) ∧ e.answer = .change (some (.ok a))

/-- When, and by how much, the entry extended an authorization. -/
def LogEntry.renewalOf (id : JsString) (e : LogEntry) : Option (ℤ × ℤ) :=
  match e.call, e.answer with
  | .renew input, .change (some (.ok _)) =>
    if input.id = id then some (e.at', input.extendByMs) else none
  | _, _ => none

/-- The successful renewals of an authorization. -/
def renewalsOf (id : JsString) (log : List LogEntry) : List (ℤ × ℤ) :=
  log.filterMap (LogEntry.renewalOf id)

/-- An expiry after some renewals: each counts from the later of its time and the expiry. -/
def extended (expires : ℤ) (renewals : List (ℤ × ℤ)) : ℤ :=
  renewals.foldl (fun e renewal ↦ max renewal.1 e + renewal.2) expires

/-- The actions that end an authorization. -/
def AuthorizationAction.ends : AuthorizationAction → Bool
  | .revoked => true
  | .cleanedUp => true
  | _ => false

/-- The trail says that the authorization was revoked or cleaned up. -/
def Ended (trail : List Attempt) (id : JsString) : Prop :=
  ∃ x ∈ trail, x.accepted = true ∧ x.input.outcome = some .allowed ∧ x.input.target.id = id ∧
    ∃ action : AuthorizationAction, action.ends = true ∧ x.input.action = action.text

/-- What is stored about an authorization is what its grant and its history say. -/
structure Matches (options : StoreOptions) (log : List LogEntry) (trail : List Attempt)
    (e : LogEntry) (input : GrantInput) (id : JsString) (r : Authorization) : Prop where
  grantor : r.grantor = input.grantor
  grantee : r.grantee = input.grantee
  scope : r.scope = input.scope
  resourceId : r.resourceId = input.resourceId
  expiry : expiry options r = some (extended (e.at' + input.ttlMs) (renewalsOf id log))
  status : r.status = .active ↔ ¬Ended trail id

/-- **The store is what the history says.** -/
structure History (options : StoreOptions) (log : List LogEntry) (s : Store) : Prop where
  keyed : KeyedById s
  fresh : FreshIds options s
  stored : ∀ e ∈ log, ∀ input a, e.IsGrant input a →
    ∃ r, s.records.get a.id = some r ∧ Matches options log s.trail e input a.id r
  granted : ∀ id r, s.records.get id = some r → ∃ e ∈ log, ∃ input a, e.IsGrant input a ∧ a.id = id
  unrenewed : ∀ id, s.records.get id = none → renewalsOf id log = []
  unended : ∀ id, s.records.get id = none → ¬Ended s.trail id

variable {options : StoreOptions} {log : List LogEntry} {s s' : Store}

theorem AuthorizationAction.text_injective : Function.Injective AuthorizationAction.text := by
  intro a b h
  cases a <;> cases b <;> first | rfl | exact absurd h (by decide)

variable {ids : List JsString}

/-- A quiet step ends no authorization. -/
theorem Quiet.ended_iff (h : Quiet ids s s') (id : JsString) :
    Ended s'.trail id ↔ Ended s.trail id := by
  rcases h.trail with htrail | ⟨x, htrail, hx⟩
  · rw [htrail]
  rw [htrail]
  refine ⟨?_, fun ⟨y, hy, hended⟩ ↦ ⟨y, mem_append_left _ hy, hended⟩⟩
  rintro ⟨y, hy, haccepted, houtcome, hrest⟩
  rcases mem_append.1 hy with hy | hy
  · exact ⟨y, hy, haccepted, houtcome, hrest⟩
  -- the event that was presented was not accepted
  rw [mem_singleton.1 hy] at haccepted houtcome
  rw [(hx houtcome).1] at haccepted
  cases haccepted

variable {action : AuthorizationAction} {id : JsString}

/-- A change ends the authorization it names if its action is one that ends. -/
theorem Changes.ended_iff {next : Authorization} (h : Changes action id next s s')
    (other : JsString) :
    Ended s'.trail other ↔ Ended s.trail other ∨ id = other ∧ action.ends = true := by
  obtain ⟨x, htrail, haccepted, houtcome, htarget, haction⟩ := h.trail
  rw [htrail]
  constructor
  · rintro ⟨y, hy, hyaccepted, hyoutcome, hytarget, ends, hends, hyaction⟩
    rcases mem_append.1 hy with hy | hy
    · exact .inl ⟨y, hy, hyaccepted, hyoutcome, hytarget, ends, hends, hyaction⟩
    rw [mem_singleton.1 hy] at hytarget hyaction
    rw [haction] at hyaction
    rw [AuthorizationAction.text_injective hyaction]
    exact .inr ⟨htarget.symm.trans hytarget, hends⟩
  · rintro (⟨y, hy, hended⟩ | ⟨rfl, hends⟩)
    · exact ⟨y, mem_append_left _ hy, hended⟩
    · exact ⟨x, by simp, haccepted, houtcome, htarget, action, hends, haction⟩

/-- A log entry adds its renewal, if it is one. -/
theorem renewalsOf_append (id : JsString) (e : LogEntry) :
    renewalsOf id (log ++ [e]) = renewalsOf id log ++ (e.renewalOf id).toList := by
  rw [renewalsOf, filterMap_append]
  cases h : e.renewalOf id <;> simp [renewalsOf, h]

variable {e : LogEntry}

theorem renewalsOf_append_of_none (h : e.renewalOf id = none) :
    renewalsOf id (log ++ [e]) = renewalsOf id log := by
  rw [renewalsOf_append, h]
  exact append_nil _

variable {input : GrantInput} {log' : List LogEntry}

/-- A record is judged by the renewals and endings of its own id. -/
theorem Matches.congr {trail trail' : List Attempt} {r : Authorization}
    (h : Matches options log trail e input id r) (hlog : renewalsOf id log' = renewalsOf id log)
    (htrail : Ended trail' id ↔ Ended trail id) : Matches options log' trail' e input id r :=
  { h with
    expiry := by rw [hlog, h.expiry]
    status := by rw [htrail, h.status] }

/-! ### Steps keep the invariant -/

variable {current a : Authorization}

namespace History

/-- A quiet step keeps the invariant. -/
theorem quiet (h : History options log s) (hquiet : Quiet ids s s') : History options log s' where
  keyed id a ha := h.keyed id a (hquiet.records ▸ ha)
  fresh n hn := by
    rw [hquiet.records]
    exact h.fresh n (hquiet.draws.trans hn)
  stored e he input a hgrant := by
    obtain ⟨r, hr, hmatches⟩ := h.stored e he input a hgrant
    exact ⟨r, by rw [hquiet.records, hr], hmatches.congr rfl (hquiet.ended_iff _)⟩
  granted id r hr := h.granted id r (hquiet.records ▸ hr)
  unrenewed id hid := h.unrenewed id (hquiet.records ▸ hid)
  unended id hid := by
    rw [hquiet.ended_iff]
    exact h.unended id (hquiet.records ▸ hid)

theorem not_isGrant (h : ∀ input hook, e.call ≠ .grant input hook) (input : GrantInput)
    (a : Authorization) : ¬e.IsGrant input a :=
  fun ⟨⟨hook, hcall⟩, _⟩ ↦ h input hook hcall

section

variable (h : History options log s)
include h

/-- A call that neither grants nor renews adds nothing to the history. -/
theorem log_append (hgrant : ∀ input a, ¬e.IsGrant input a)
    (hrenewal : ∀ id, e.renewalOf id = none) :
    History options (log ++ [e]) s where
  keyed := h.keyed
  fresh := h.fresh
  stored f hf input a hisGrant := by
    rcases mem_append.1 hf with hf | hf
    · obtain ⟨r, hr, hmatches⟩ := h.stored f hf input a hisGrant
      exact ⟨r, hr, hmatches.congr (renewalsOf_append_of_none (hrenewal a.id)) Iff.rfl⟩
    · rw [mem_singleton.1 hf] at hisGrant
      exact absurd hisGrant (hgrant input a)
  granted id r hr := by
    obtain ⟨f, hf, hisGrant⟩ := h.granted id r hr
    exact ⟨f, mem_append_left _ hf, hisGrant⟩
  unrenewed id hid := by
    rw [renewalsOf_append_of_none (hrenewal id)]
    exact h.unrenewed id hid
  unended := h.unended

/-- **One record was changed or added.** What is to be shown is about that record: the log says of
the others what it said before. -/
theorem changed (hid : a.id = id) (hchanges : Changes action id a s s')
    (hfresh : FreshIds options s')
    (hgrant : ∀ e input b, e.IsGrant input b → e ∈ log' → b.id ≠ id → e ∈ log) (hlog : log ⊆ log')
    (hrenewals : ∀ other ≠ id, renewalsOf other log' = renewalsOf other log)
    (hgranted : ∃ e ∈ log', ∃ input b, e.IsGrant input b ∧ b.id = id)
    (hmatches : ∀ e ∈ log', ∀ input b, e.IsGrant input b → b.id = id →
      Matches options log' s'.trail e input id a) : History options log' s' := by
  have hget : ∀ other ≠ id, s'.records.get other = s.records.get other := fun other hne ↦ by
    rw [hchanges.records, get_set, if_neg hne.symm]
  have hself : s'.records.get id = some a := by rw [hchanges.records, get_set, if_pos rfl]
  have hended : ∀ other ≠ id, (Ended s'.trail other ↔ Ended s.trail other) := fun other hne ↦ by
    simp [hchanges.ended_iff, hne.symm]
  have hnone : ∀ other, s'.records.get other = none → other ≠ id := by
    rintro other hother rfl
    rw [hself] at hother
    cases hother
  refine ⟨fun other r hr ↦ ?_, hfresh, fun e he input b hisGrant ↦ ?_, fun other r hr ↦ ?_,
    fun other hother ↦ ?_, fun other hother ↦ ?_⟩
  · by_cases hne : other = id
    · rw [hne, hself] at hr
      rw [← Option.some.inj hr, hid, hne]
    · exact h.keyed other r (hget other hne ▸ hr)
  · by_cases hne : b.id = id
    · exact ⟨a, hne ▸ hself, hne ▸ hmatches e he input b hisGrant hne⟩
    · obtain ⟨r, hr, hmatch⟩ := h.stored e (hgrant e input b hisGrant he hne) input b hisGrant
      exact ⟨r, (hget _ hne).trans hr, hmatch.congr (hrenewals _ hne) (hended _ hne)⟩
  · by_cases hne : other = id
    · exact hne ▸ hgranted
    · obtain ⟨e, he, hisGrant⟩ := h.granted other r (hget other hne ▸ hr)
      exact ⟨e, hlog he, hisGrant⟩
  · have hne := hnone other hother
    rw [hrenewals other hne]
    exact h.unrenewed other ((hget other hne).symm.trans hother)
  · have hne := hnone other hother
    rw [hended other hne]
    exact h.unended other ((hget other hne).symm.trans hother)

section

variable (hcurrent : s.records.get id = some current)
include hcurrent

theorem fresh_of_changes (hchanges : Changes action id a s s') : FreshIds options s' := by
  intro n hn
  have hnone := h.fresh n (hchanges.draws.trans hn)
  rw [hchanges.records, get_set, if_neg]
  · exact hnone
  · rintro rfl
    rw [hcurrent] at hnone
    cases hnone

/-- What the log says of an authorization that is there. -/
theorem matches_current {b : Authorization} (he : e ∈ log) (hgrant : e.IsGrant input b)
    (hid : b.id = id) : Matches options log s.trail e input id current := by
  obtain ⟨r, hr, hmatches⟩ := h.stored e he input b hgrant
  rw [hid, hcurrent] at hr
  rw [Option.some.inj hr, ← hid]
  exact hmatches

/-- **Ending an authorization.** -/
theorem ended (hended : EndedAs current a) (hends : action.ends = true)
    (hchanges : Changes action id a s s') : History options log s' := by
  refine h.changed (hended.id.trans (h.keyed id current hcurrent)) hchanges
    (h.fresh_of_changes hcurrent hchanges) (fun _ _ _ _ he _ ↦ he) (List.Subset.refl log)
    (fun _ _ ↦ rfl) (h.granted id current hcurrent) fun e he input b hgrant hid ↦ ?_
  have hmatches := h.matches_current hcurrent he hgrant hid
  exact
    { grantor := hended.grantor.trans hmatches.grantor
      grantee := hended.grantee.trans hmatches.grantee
      scope := hended.scope.trans hmatches.scope
      resourceId := hended.resourceId.trans hmatches.resourceId
      expiry := by rw [expiry, hended.expiresAt]; exact hmatches.expiry
      status := iff_of_false hended.status.1
        (not_not.2 ((hchanges.ended_iff _).2 (.inr ⟨rfl, hends⟩))) }

end

/-- **Renewing an authorization.** -/
theorem renewed {input : RenewInput} {at' : ℤ}
    (hcurrent : s.records.get input.id = some current)
    (hrenewed : Renewed options at' input.extendByMs current a)
    (hchanges : Changes .renewed input.id a s s') :
    History options (log ++ [⟨.renew input, at', .change (some (.ok a))⟩]) s' := by
  have hrenewal : ∀ other, LogEntry.renewalOf other ⟨.renew input, at', .change (some (.ok a))⟩ =
      if input.id = other then some (at', input.extendByMs) else none := fun _ ↦ rfl
  have hlogged : ∀ e grant b, LogEntry.IsGrant e grant b →
      e ∈ log ++ [⟨.renew input, at', .change (some (.ok a))⟩] → e ∈ log := by
    rintro e grant b ⟨⟨hook, hcall⟩, -⟩ he
    rcases mem_append.1 he with he | he
    · exact he
    · rw [mem_singleton.1 he] at hcall
      cases hcall
  refine h.changed (hrenewed.id.trans (h.keyed input.id current hcurrent)) hchanges
    (h.fresh_of_changes hcurrent hchanges) (fun e grant b hgrant he _ ↦ hlogged e grant b hgrant he)
    (subset_append_left _ _)
    (fun other hne ↦ renewalsOf_append_of_none (by rw [hrenewal, if_neg hne.symm])) ?_
    fun e he grant b hgrant hid ↦ ?_
  · obtain ⟨e, he, hgrant⟩ := h.granted input.id current hcurrent
    exact ⟨e, mem_append_left _ he, hgrant⟩
  have hmatches := h.matches_current hcurrent (hlogged e grant b hgrant he) hgrant hid
  obtain ⟨expires, hexpires, hnew⟩ := hrenewed.expiry
  rw [hmatches.expiry] at hexpires
  exact
    { grantor := hrenewed.grantor.trans hmatches.grantor
      grantee := hrenewed.grantee.trans hmatches.grantee
      scope := hrenewed.scope.trans hmatches.scope
      resourceId := hrenewed.resourceId.trans hmatches.resourceId
      expiry := by
        rw [hnew, renewalsOf_append, hrenewal, if_pos rfl, Option.toList_some, extended,
          foldl_append, foldl_cons, foldl_nil, ← extended, Option.some.inj hexpires]
      status := by
        rw [hchanges.ended_iff, ← hmatches.status.not_left]
        simp [AuthorizationAction.ends, hrenewed.status] }

/-- **Granting an authorization.** The id was not in use, so nothing was said about it before. -/
theorem grant (hook : CanDelegate) (hids : Function.Injective options.newId)
    (hgranted : Granted options s input a) (hdraws : s.draws < s'.draws)
    (hchanges : Changes .granted (options.newId s.draws) a s s') :
    History options
      (log ++ [⟨.grant input hook, options.now s.ticks, .change (some (.ok a))⟩]) s' := by
  have hunused := h.fresh s.draws le_rfl
  have hrenewal : ∀ other, LogEntry.renewalOf other
      ⟨.grant input hook, options.now s.ticks, .change (some (.ok a))⟩ = none := fun _ ↦ rfl
  refine h.changed hgranted.id hchanges (fun n hn ↦ ?_) (fun e grant b hisGrant he hne ↦ ?_)
    (subset_append_left _ _) (fun other _ ↦ renewalsOf_append_of_none (hrenewal other))
    ⟨_, mem_append_right _ (mem_singleton_self _), input, a, ⟨⟨hook, rfl⟩, rfl⟩,
      hgranted.id⟩ fun e he grant b hisGrant hid ↦ ?_
  · rw [hchanges.records, get_set, if_neg]
    · exact h.fresh n (hdraws.le.trans hn)
    · intro heq
      have := hids heq
      omega
  · rcases mem_append.1 he with he | he
    · exact he
    · rw [mem_singleton.1 he] at hisGrant
      obtain rfl := Except.ok.inj (Option.some.inj (AuthAnswer.change.inj hisGrant.2))
      exact absurd hgranted.id hne
  · rcases mem_append.1 he with he | he
    · -- no earlier grant had this id
      obtain ⟨r, hr, -⟩ := h.stored e he grant b hisGrant
      rw [hid, hunused] at hr
      cases hr
    · rw [mem_singleton.1 he] at hisGrant ⊢
      obtain ⟨⟨hook', hcall⟩, -⟩ := hisGrant
      obtain ⟨rfl, -⟩ := AuthCall.grant.inj hcall
      exact
        { grantor := hgranted.grantor
          grantee := hgranted.grantee
          scope := hgranted.scope
          resourceId := hgranted.resourceId
          expiry := by
            rw [renewalsOf_append_of_none (hrenewal _), h.unrenewed _ hunused, hgranted.expiry]
            rfl
          status := by
            have hunended := h.unended _ hunused
            simp [hchanges.ended_iff, AuthorizationAction.ends, hgranted.status, hunended] }

/-- A cleanup keeps the invariant. -/
theorem cleans {due : List Authorization} (hcleans : Cleans due s s')
    (hdue : ∀ entry ∈ due, s.records.get entry.id = some entry)
    (hnodup : (due.map Authorization.id).Nodup) : History options log s' := by
  induction hcleans with
  | stop hquiet => exact h.quiet hquiet
  | skip hquiet _ ih =>
    refine ih (h.quiet hquiet) (fun e he ↦ ?_) (nodup_cons.1 hnodup).2
    rw [hquiet.records]
    exact hdue e (mem_cons_of_mem _ he)
  | clean hended hchanges _ ih =>
    obtain ⟨hfresh, hnodup⟩ := nodup_cons.1 hnodup
    refine ih (h.ended (hdue _ mem_cons_self) hended rfl hchanges) (fun e he ↦ ?_) hnodup
    rw [hchanges.records, get_set, if_neg]
    · exact hdue e (mem_cons_of_mem _ he)
    · exact fun heq ↦ hfresh (heq ▸ mem_map_of_mem he)

end

/-- **Every call keeps the history.** -/
theorem step (hids : Function.Injective options.newId) {r : Run}
    (h : History options r.log r.store) (call : AuthCall) :
    History options (runStep options r call).log (runStep options r call).store := by
  cases call with
  | grant input hook =>
    rcases settles_grant options r.store input hook with
      ⟨a, hok, ⟨hgranted, hdraws⟩, hchanges⟩ | ⟨hnot, hquiet⟩
    · have hnext := h.grant hook hids hgranted hdraws hchanges
      rwa [← hok] at hnext
    · refine (h.quiet hquiet).log_append (fun input' a hgrant ↦ ?_) fun _ ↦ rfl
      exact hnot a (AuthAnswer.change.inj hgrant.2)
  | authorize input hook =>
    have hquiet : Quiet [] r.store (authorize options r.store input hook).2 :=
      ⟨rfl, le_rfl, .inl rfl⟩
    exact (h.quiet hquiet).log_append (not_isGrant nofun) fun _ ↦ rfl
  | renew input =>
    rcases settles_renew options r.store input with
      ⟨a, hok, ⟨current, hcurrent, hrenewed⟩, hchanges⟩ | ⟨hnot, hquiet⟩
    · have hnext := h.renewed hcurrent hrenewed hchanges
      rwa [← hok] at hnext
    refine (h.quiet hquiet).log_append (not_isGrant nofun) fun id ↦ ?_
    simp only [LogEntry.renewalOf, answer, Prod.map_fst]
    split
    next input' a hcall hanswer => exact absurd (AuthAnswer.change.inj hanswer) (hnot a)
    next => rfl
  | revoke input =>
    refine log_append ?_ (not_isGrant nofun) fun _ ↦ rfl
    rcases settles_revoke options r.store input with
      ⟨a, -, ⟨current, hcurrent, hended⟩, hchanges⟩ | ⟨-, hquiet⟩
    · exact h.ended hcurrent hended rfl hchanges
    · exact h.quiet hquiet
  | report window =>
    have hquiet : Quiet [] r.store (report options r.store window).2 :=
      ⟨rfl, le_rfl, .inl rfl⟩
    exact (h.quiet hquiet).log_append (not_isGrant nofun) fun _ ↦ rfl
  | cleanup input =>
    obtain ⟨due, hdue, hnodup, hcleans⟩ := cleanup_cases options h.keyed input
    exact (h.cleans hcleans (fun e he ↦ (hdue e he).1) hnodup).log_append (not_isGrant nofun)
      fun _ ↦ rfl

/-- The invariant holds of a new store. -/
theorem empty : History options [] {} where
  keyed _ _ h := by cases h
  fresh _ _ := rfl
  stored _ h := absurd h not_mem_nil
  granted _ _ h := by cases h
  unrenewed _ _ := rfl
  unended _ _ := by
    rintro ⟨x, hx, -⟩
    cases hx

end History

/-! ### Authorizing -/

/-- **The history has a grant that authorizes this.** -/
structure Covers (options : StoreOptions) (r : Run) (input : AuthorizeInput) (hook : CanDelegate)
    (e : LogEntry) (grant : GrantInput) (a : Authorization) : Prop where
  logged : e ∈ r.log
  isGrant : e.IsGrant grant a
  grantee : grant.grantee = input.grantee
  scope : grant.scope = input.scope
  resource : grant.resourceId = none ∨ grant.resourceId = input.resourceId
  notEnded : ¬Ended r.store.trail a.id
  unexpired : options.now r.store.ticks <
    extended (e.at' + grant.ttlMs) (renewalsOf a.id r.log)
  entitled : hook.allows grant.grantor grant.scope grant.resourceId = true

/-- An authorization is usable if it is active and its expiry is still to come. -/
theorem isUsable_state_iff {t e : ℤ} (h : expiry options a = some e) :
    isUsable (authorizationState options a t) = true ↔ a.status = .active ∧ t < e := by
  rw [authorizationState, h]
  cases a.status with
  | revoked => simp [isUsable]
  | cleaned => simp [isUsable]
  | active =>
    by_cases he : e ≤ t
    · simp [isUsable, he]
    · by_cases hrenewals : a.renewals > 0 <;> simp [isUsable, he, hrenewals] <;> omega

variable {input : AuthorizeInput}

/-- What a request is about: its grantee, its scope, and its resource or all resources. -/
theorem concerns_iff :
    input.concerns a = true ↔ a.grantee = input.grantee ∧ a.scope = input.scope ∧
      (a.resourceId = none ∨ a.resourceId = input.resourceId) := by
  simp [AuthorizeInput.concerns, and_assoc]

/-- A request is answered from the stored authorizations. -/
theorem authorizeAt_isOk_iff {hook : CanDelegate} {t : ℤ} :
    (∃ a, authorizeAt options s input hook t = .ok a) ↔
      ∃ a ∈ s.records.values, input.concerns a = true ∧
        isUsable (authorizationState options a t) = true ∧
        hook.allows a.grantor a.scope a.resourceId = true := by
  have hlive : ∀ a, a ∈ live options s input t ↔ a ∈ s.records.values ∧
      input.concerns a = true ∧ isUsable (authorizationState options a t) = true := fun a ↦ by
    rw [live, mem_filter, candidates, mem_filter, and_assoc]
  constructor
  · rintro ⟨a, ha⟩
    rw [authorizeAt] at ha
    split at ha
    next usable husable =>
      obtain ⟨hmem, hconcerns, hstate⟩ := (hlive _).1 (mem_of_find?_eq_some husable)
      have hallows := find?_some husable
      exact ⟨usable, hmem, hconcerns, hstate, hallows⟩
    next =>
      split at ha
      · cases ha
      split at ha <;> cases ha
  · rintro ⟨a, hmem, hconcerns, hstate, hallows⟩
    have hfound : ((live options s input t).find? fun entry ↦
        hook.allows entry.grantor entry.scope entry.resourceId).isSome :=
      find?_isSome.2 ⟨a, (hlive a).2 ⟨hmem, hconcerns, hstate⟩, hallows⟩
    obtain ⟨usable, husable⟩ := Option.isSome_iff_exists.1 hfound
    exact ⟨usable, by rw [authorizeAt, husable]⟩

/-- **`authorize` reads its answer off the history.** -/
theorem authorize_isOk_iff {r : Run} (h : History options r.log r.store)
    (input : AuthorizeInput) (hook : CanDelegate) :
    (∃ a, (authorize options r.store input hook).1 = .ok a) ↔
      ∃ e grant a, Covers options r input hook e grant a := by
  rw [show (authorize options r.store input hook).1 =
    authorizeAt options r.store input hook (options.now r.store.ticks) from rfl,
    authorizeAt_isOk_iff]
  constructor
  · rintro ⟨a, hmem, hconcerns, husable, hallows⟩
    have hget := (mem_values_iff h.keyed).1 hmem
    obtain ⟨e, he, grant, b, hgrant, hid⟩ := h.granted a.id a hget
    obtain ⟨a', hget', hmatches⟩ := h.stored e he grant b hgrant
    rw [hid, hget] at hget'
    cases hget'
    obtain ⟨hactive, hlater⟩ := (isUsable_state_iff hmatches.expiry).1 husable
    obtain ⟨hgrantee, hscope, hresource⟩ := concerns_iff.1 hconcerns
    rw [hmatches.grantor, hmatches.scope, hmatches.resourceId] at hallows
    rw [hmatches.resourceId] at hresource
    exact ⟨e, grant, b,
      { logged := he
        isGrant := hgrant
        grantee := hmatches.grantee.symm.trans hgrantee
        scope := hmatches.scope.symm.trans hscope
        resource := hresource
        notEnded := hmatches.status.1 hactive
        unexpired := hlater
        entitled := hallows }⟩
  · rintro ⟨e, grant, b, hcovers⟩
    obtain ⟨a, hget, hmatches⟩ := h.stored e hcovers.logged grant b hcovers.isGrant
    refine ⟨a, (mem_values_iff h.keyed).2 (h.keyed b.id a hget ▸ hget), concerns_iff.2 ?_, ?_, ?_⟩
    · rw [hmatches.grantee, hmatches.scope, hmatches.resourceId]
      exact ⟨hcovers.grantee, hcovers.scope, hcovers.resource⟩
    · exact (isUsable_state_iff hmatches.expiry).2
        ⟨hmatches.status.2 hcovers.notEnded, hcovers.unexpired⟩
    · rw [hmatches.grantor, hmatches.scope, hmatches.resourceId]
      exact hcovers.entitled

/-! ### Renewing or cleaning up -/

/-- Every reading of the clock is a date. -/
def ReadableClock (options : StoreOptions) : Prop :=
  ∀ n, ∃ text, Date.toISOString (options.now n) = some text

/-- The recorder was asked about each of the events in its turn, and its answers were kept. -/
def Answered (options : StoreOptions) : (before events : List Attempt) → Prop
  | _, [] => True
  | before, x :: events =>
    x.accepted = options.record (before.map Attempt.input) x.input ∧
      Answered options (before ++ [x]) events

/-- **An expired authorization is either renewable or cleanable**, and `report`, `cleanup` and
`renew` agree on which. `cleanup` presents an event for it exactly if it is cleanable, and cleans or
skips it as the recorder answers; `renew` presents one exactly if it is not, and extends it if the
recorder takes the event. -/
structure Alternative (options : StoreOptions) (s : Store) (a : Authorization) : Prop where
  reported : ∀ window, ∃ answer, (report options s window).1 = some answer ∧
    a ∈ answer.expired ∧
    (a ∈ answer.cleanable ↔ isCleanable options a (options.now s.ticks) = true)
  cleaned : ∀ input : CleanupInput, (∀ user, input.actor ≠ .user user) →
    ∃ result events, (cleanup options s input).1 = some (.ok result) ∧
      (cleanup options s input).2.trail = s.trail ++ events ∧ Answered options s.trail events ∧
      (isCleanable options a (options.now s.ticks) = true ↔
        ∃ x ∈ events, x.isAllowedFor a.id = true) ∧
      (a.id ∈ result.cleaned ↔ ∃ x ∈ events, x.isAllowedFor a.id = true ∧ x.accepted = true) ∧
      (a.id ∈ result.skipped ↔ ∃ x ∈ events, x.isAllowedFor a.id = true ∧ x.accepted = false)
  renewed : ∀ input : RenewInput, input.id = a.id → mayManage input.actor a.grantor = true →
    input.confirmed = true → isDuration input.extendByMs = true →
    ∀ text, Date.toISOString (options.now s.ticks + input.extendByMs) = some text →
      isCleanable options a (options.now s.ticks) = true ∧
          (renew options s input).1 = some (.error .renewalWindowClosed) ∨
        isCleanable options a (options.now s.ticks) = false ∧
          ∃ x next, (renew options s input).2.trail = s.trail ++ [x] ∧
            Answered options s.trail [x] ∧ x.isAllowedFor a.id = true ∧ next.expiresAt = text ∧
            (renew options s input).1 =
              some (if x.accepted then .ok next else .error .authorizationAuditFailed)

section

variable (hclock : ReadableClock options)
include hclock

/-- A change presents one event, and is made if the recorder takes it. -/
theorem commit_of_readable (action : AuthorizationAction)
    (actor : AuditActor) (id : JsString) (details : AuditDetails) (next : Authorization) :
    ∃ x : Attempt, (commit options s action actor id details next).2.trail = s.trail ++ [x] ∧
      Answered options s.trail [x] ∧ (∀ id', x.isAllowedFor id' = true ↔ id' = id) ∧
      (commit options s action actor id details next).1 =
        some (if x.accepted then .ok next else .error .authorizationAuditFailed) := by
  obtain ⟨text, htext⟩ := hclock s.ticks
  set event := auditInput action actor id .allowed details text with hevent
  refine ⟨⟨event, options.record (s.trail.map Attempt.input) event⟩, ?_⟩
  have hallowed : ∀ accepted id', Attempt.isAllowedFor ⟨event, accepted⟩ id' = true ↔ id' = id :=
    fun _ _ ↦ isAllowedFor_iff.trans ⟨fun h ↦ h.2.symm, fun h ↦ ⟨rfl, h.symm⟩⟩
  simp only [commit, audit, tick, htext, ← hevent]
  cases haccepted : options.record (s.trail.map Attempt.input) event with
  | false => exact ⟨rfl, ⟨haccepted.symm, trivial⟩, hallowed _, rfl⟩
  | true => exact ⟨rfl, ⟨haccepted.symm, trivial⟩, hallowed _, rfl⟩

/-- **The loop of a cleanup presents an event for everything that was due**, and lists it as the
recorder answers. -/
theorem cleanupLoop_of_readable (input : CleanupInput) (n : ℕ)
    (due : List Authorization) (result : CleanupResult) (s : Store) :
    ∃ answer events, (cleanupLoop options input (options.now n) due result s).1 = some answer ∧
      (cleanupLoop options input (options.now n) due result s).2.trail = s.trail ++ events ∧
      Answered options s.trail events ∧
      (∀ id, id ∈ due.map Authorization.id ↔ ∃ x ∈ events, x.isAllowedFor id = true) ∧
      (∀ id, id ∈ answer.cleaned ↔
        id ∈ result.cleaned ∨ ∃ x ∈ events, x.isAllowedFor id = true ∧ x.accepted = true) ∧
      ∀ id, id ∈ answer.skipped ↔
        id ∈ result.skipped ∨ ∃ x ∈ events, x.isAllowedFor id = true ∧ x.accepted = false := by
  induction due generalizing result s with
  | nil => exact ⟨result, [], rfl, (append_nil _).symm, trivial, by simp, by simp, by simp⟩
  | cons entry due ih =>
    obtain ⟨text, htext⟩ := hclock n
    obtain ⟨x, htrail, hanswered, hallowed, hanswer⟩ : ∃ x : Attempt,
        (cleanOne options s input (options.now n) entry).2.trail = s.trail ++ [x] ∧
        Answered options s.trail [x] ∧ (∀ id', x.isAllowedFor id' = true ↔ id' = entry.id) ∧
        ∃ next, (cleanOne options s input (options.now n) entry).1 =
          some (if x.accepted then .ok next else .error .authorizationAuditFailed) := by
      rw [cleanOne, htext]
      obtain ⟨x, htrail, hanswered, hallowed, hanswer⟩ := commit_of_readable hclock _ _ _ _ _
      exact ⟨x, htrail, hanswered, hallowed, _, hanswer⟩
    obtain ⟨next, hanswer⟩ := hanswer
    rw [cleanupLoop]
    split
    next t heq => simp [heq] at hanswer
    all_goals
      next t heq =>
      rw [heq] at htrail hanswer
      obtain ⟨answer, events, hloop, htrail', hanswered', hdue, hcleaned, hskipped⟩ := ih _ t
      rw [htrail] at htrail' hanswered'
      refine ⟨answer, x :: events, hloop, by rw [htrail', append_assoc]; rfl,
        ⟨hanswered.1, hanswered'⟩, fun id ↦ ?_, fun id ↦ ?_, fun id ↦ ?_⟩
      · rw [map_cons, mem_cons, hdue, exists_mem_cons_iff, hallowed]
      · rw [hcleaned, exists_mem_cons_iff, hallowed]
        cases haccepted : x.accepted <;> simp_all [or_assoc]
      · rw [hskipped, exists_mem_cons_iff, hallowed]
        cases haccepted : x.accepted <;> simp_all [or_assoc]

/-- The invariant gives both sides of the alternative. -/
theorem alternative (hkeyed : KeyedById s)
    (ha : s.records.get id = some a)
    (hexpired : authorizationState options a (options.now s.ticks) = .expired) :
    Alternative options s a where
  reported window := by
    obtain ⟨text, htext⟩ := hclock s.ticks
    have hmem : a ∈ sortById s.records.values :=
      mem_sortById.2 ((mem_values_iff hkeyed).2 (hkeyed id a ha ▸ ha))
    refine ⟨_, Option.map_eq_some_iff.2 ⟨text, htext, rfl⟩, ?_, ?_⟩
    · exact mem_filter.2 ⟨hmem, decide_eq_true hexpired⟩
    · exact mem_filter.trans (and_iff_right hmem)
  cleaned input hactor := by
    have hloop := cleanupLoop_of_readable hclock input s.ticks
      (dueAt options s (options.now s.ticks)) {} (tick options s).2
    obtain ⟨result, events, hresult, htrail, hanswered, hdue, hcleaned, hskipped⟩ := hloop
    have hcleanup : cleanup options s input = (some (.ok result),
        (cleanupLoop options input (options.now s.ticks) (dueAt options s (options.now s.ticks)) {}
          (tick options s).2).2) := by
      rw [cleanup]
      split
      next user hactor' => exact absurd hactor' (hactor user)
      next => exact Prod.ext (congrArg (Option.map Except.ok) hresult) rfl
    rw [hcleanup]
    refine ⟨result, events, rfl, htrail, hanswered, ?_, ?_, ?_⟩
    · rw [← hdue, mem_map]
      constructor
      · intro hcleanable
        exact ⟨a, mem_dueAt.2 ⟨(mem_values_iff hkeyed).2 (hkeyed id a ha ▸ ha), hcleanable⟩, rfl⟩
      · rintro ⟨entry, hentry, heq⟩
        obtain ⟨hmem, hcleanable⟩ := mem_dueAt.1 hentry
        have hget := (mem_values_iff hkeyed).1 hmem
        rw [heq, hkeyed id a ha, ha] at hget
        rwa [Option.some.inj hget]
    · simpa using hcleaned a.id
    · simpa using hskipped a.id
  renewed input hid hmay hconfirmed hduration expires hexpires := by
    have hget : s.records.get input.id = some a := by rw [hid, hkeyed id a ha, ha]
    rw [renew, hget]
    simp only [hmay, hconfirmed, Bool.true_eq_false, if_false]
    rw [show (tick options s).1 = options.now s.ticks from rfl, renewAt,
      if_neg (by simp [hexpired]), if_neg (by simp [hexpired])]
    cases hcleanable : isCleanable options a (options.now s.ticks) with
    | true =>
      obtain ⟨text, htext⟩ := hclock (s.ticks + 1)
      exact .inl ⟨rfl, by simp [refuse, audit, tick, htext]⟩
    | false =>
      refine .inr ⟨rfl, ?_⟩
      obtain ⟨-, e, he, hle⟩ := state_eq_expired_iff.1 hexpired
      obtain ⟨text, htext⟩ := hclock s.ticks
      -- it has expired, so the renewal counts from now
      simp only [Bool.false_eq_true, if_false, hduration, Bool.true_eq_false, he, Option.bind_some,
        max_eq_left hle, hexpires, htext]
      obtain ⟨x, htrail, hanswered, hallowed, hanswer⟩ := commit_of_readable hclock _ _ _ _ _
      exact ⟨x, _, htrail, hanswered, (hallowed a.id).2 hid.symm, rfl, hanswer⟩

end

/-! ### Whole runs -/

/-- **The lifecycle of delegated authorizations**, as it stands after a run. -/
structure Lifecycle (options : StoreOptions) (r : Run) : Prop where
  /-- `authorize` succeeds exactly if the history has a grant that authorizes it. -/
  authorize_iff : ∀ input hook, (∃ a, (authorize options r.store input hook).1 = .ok a) ↔
    ∃ e grant a, Covers options r input hook e grant a
  /-- An expired authorization is either renewable or cleanable. -/
  alternative : ReadableClock options → ∀ id a, r.store.records.get id = some a →
    authorizationState options a (options.now r.store.ticks) = .expired →
      Alternative options r.store a
  /-- Whatever is called next, a record changes exactly if its event was accepted. -/
  audited : ∀ call, Audited r.store (answer options r.store call).2

/-- The ids of the default factory are different. -/
theorem defaultId_injective : Function.Injective defaultId := by
  intro m n h
  have htext : (ofInt (m + 1)).text = (ofInt (n + 1)).text :=
    append_cancel_left h
  have hvalue : JsValue.num (ofInt (m + 1)) = .num (ofInt (n + 1)) :=
    stringify_injective rfl rfl htext
  have hint := ofInt_injective (JsValue.num.inj hvalue)
  omega

/-- A store whose clock goes on by a second, and whose trail takes every event. -/
def secondsStore : StoreOptions where
  now n := 1000 * n
  record _ _ := true

/-- A reviewer lets another one read for ten seconds, and prolongs it by five. -/
def grantedAndRenewed : Run :=
  Lib.run (runStep secondsStore) {}
    [.grant
      { actor := .user (js "ada"), grantor := js "ada", grantee := js "ben", scope := js "read"
        ttlMs := 10000 } none,
      .renew
        { id := js "authorization-1", actor := .user (js "ada"), confirmed := true
          extendByMs := 5000 }]

end Utix.Authorizations

import Utix.Authorizations.Store

/-!
# What a call of the authorization store changes

A call changes the store in steps of two kinds: `Quiet` ones that leave the records alone, and
`Changes` of one record, after its event was accepted. Granting, renewing and revoking are one step
each, and a cleanup is one step for each authorization that is due (`Cleans`). From this follows
what the trail says about a change: for each authorization a call presents at most one event that
allows a change, and changes it exactly if that event is accepted (`answer_audited`).

`Settles` is the shape that the calls on one authorization share: a refusal leaves the records
alone, and a success leaves a record that a predicate describes. There is one lemma of this shape
for each call, with its own predicate (`Granted`, `Renewed`, `EndedAs`), and the invariants of the
next module read the predicates only. A call of the source that changes would need its lemma here
and nothing else.
-/

namespace Utix.Authorizations

open Js Lib List Dict
open Audit (AuditActor AuditInput AuditOutcome)

variable {options : StoreOptions} {s s' : Store}

/-! ### What a call does to the store -/

/-- The event says that something was allowed for this authorization. -/
def Attempt.isAllowedFor (x : Attempt) (id : JsString) : Bool :=
  decide (x.input.outcome = some .allowed) && decide (x.input.target.id = id)

/-- **Nothing changed**, and at most one event was presented. -/
structure Quiet (ids : List JsString) (s s' : Store) : Prop where
  records : s'.records = s.records
  draws : s.draws ≤ s'.draws
  trail : s'.trail = s.trail ∨ ∃ x, s'.trail = s.trail ++ [x] ∧
    (x.input.outcome = some .allowed → x.accepted = false ∧ x.input.target.id ∈ ids)

/-- **One record changed**, after its event was accepted. -/
structure Changes (action : AuthorizationAction) (id : JsString) (next : Authorization)
    (s s' : Store) : Prop where
  records : s'.records = s.records.set id next
  draws : s.draws ≤ s'.draws
  trail : ∃ x, s'.trail = s.trail ++ [x] ∧ x.accepted = true ∧
    x.input.outcome = some .allowed ∧ x.input.target.id = id ∧ x.input.action = action.text

theorem Quiet.refl (ids : List JsString) (s : Store) : Quiet ids s s := ⟨rfl, le_rfl, .inl rfl⟩

variable {ids : List JsString} {t : Store}

/-- Readings of the clock and drawn ids before a step do not matter. -/
theorem Quiet.of_start (h : Quiet ids t s') (hrecords : t.records = s.records)
    (hdraws : s.draws ≤ t.draws) (htrail : t.trail = s.trail) : Quiet ids s s' :=
  ⟨h.records.trans hrecords, hdraws.trans h.draws, htrail ▸ h.trail⟩

variable {action : AuthorizationAction} {id : JsString} {next : Authorization}

theorem Changes.of_start (h : Changes action id next t s') (hrecords : t.records = s.records)
    (hdraws : s.draws ≤ t.draws) (htrail : t.trail = s.trail) : Changes action id next s s' :=
  ⟨hrecords ▸ h.records, hdraws.trans h.draws, htrail ▸ h.trail⟩

/-- The answer is no success. -/
def NotOk (answer : Answer) : Prop := ∀ a, answer ≠ some (.ok a)

/-- **How a change ends**: it answers with the new record, which is then stored, or nothing
changed. -/
def Settles (P : Authorization → Store → Prop) (action : AuthorizationAction) (id : JsString)
    (s : Store) (r : Answer × Store) : Prop :=
  (∃ a, r.1 = some (.ok a) ∧ P a r.2 ∧ Changes action id a s r.2) ∨ NotOk r.1 ∧ Quiet [id] s r.2

variable {P : Authorization → Store → Prop} {actor : AuditActor} {r : Answer × Store}

theorem Settles.of_start (h : Settles P action id t r) (hrecords : t.records = s.records)
    (hdraws : s.draws ≤ t.draws) (htrail : t.trail = s.trail) : Settles P action id s r := by
  rcases h with ⟨a, hok, hP, hchanges⟩ | ⟨hnot, hquiet⟩
  · exact .inl ⟨a, hok, hP, hchanges.of_start hrecords hdraws htrail⟩
  · exact .inr ⟨hnot, hquiet.of_start hrecords hdraws htrail⟩

/-- A weaker description of the new record is met as well. -/
theorem Settles.imp {Q : Authorization → Store → Prop} (h : Settles P action id s r)
    (hPQ : ∀ a t, P a t → Q a t) : Settles Q action id s r :=
  h.imp_left fun ⟨a, hok, hP, hchanges⟩ ↦ ⟨a, hok, hPQ a _ hP, hchanges⟩

/-- An operation that answers before it presents an event. -/
theorem settles_same {answer : Answer} (h : NotOk answer) : Settles P action id s (answer, s) :=
  .inr ⟨h, Quiet.refl _ s⟩

variable {details : AuditDetails}

/-- Asking the recorder adds one event to the trail, or none if the recorder is not reached. -/
theorem audit_cases {outcome : AuditOutcome} {taken : Option Bool}
    (h : audit options s action actor id outcome details = (taken, t)) :
    t.records = s.records ∧ t.draws = s.draws ∧
      (taken = none ∧ t.trail = s.trail ∨
        ∃ x, taken = some x.accepted ∧ t.trail = s.trail ++ [x] ∧
          x.input.outcome = some outcome ∧ x.input.target.id = id ∧
          x.input.action = action.text) := by
  simp only [audit, tick] at h
  split at h <;> cases h
  · exact ⟨rfl, rfl, .inl ⟨rfl, rfl⟩⟩
  · exact ⟨rfl, rfl, .inr ⟨_, rfl, rfl, rfl, rfl, rfl⟩⟩

/-- A refusal is reported and changes no record. -/
theorem quiet_refuse (options : StoreOptions) (s : Store) (action : AuthorizationAction)
    (actor : AuditActor) (id : JsString) (code : AuthorizationErrorCode)
    (reason : Option JsString) :
    NotOk (refuse options s action actor id code reason).1 ∧
      Quiet [] s (refuse options s action actor id code reason).2 := by
  rw [refuse]
  split
  next t heq =>
    obtain ⟨hrecords, hdraws, ⟨-, htrail⟩ | ⟨x, hx, -⟩⟩ := audit_cases heq
    · exact ⟨nofun, hrecords, hdraws.ge, .inl htrail⟩
    · cases hx
  next t heq =>
    obtain ⟨hrecords, hdraws, ⟨hx, -⟩ | ⟨x, -, htrail, houtcome, -⟩⟩ := audit_cases heq
    · cases hx
    · refine ⟨nofun, hrecords, hdraws.ge, .inr ⟨x, htrail, fun hallowed ↦ ?_⟩⟩
      rw [houtcome] at hallowed
      cases hallowed

variable {ids' : List JsString}

theorem Quiet.mono (h : Quiet ids s s') (hsub : ids ⊆ ids') : Quiet ids' s s' := by
  refine ⟨h.records, h.draws, h.trail.imp_right ?_⟩
  rintro ⟨x, htrail, hx⟩
  exact ⟨x, htrail, fun hallowed ↦ ⟨(hx hallowed).1, hsub (hx hallowed).2⟩⟩

theorem settles_refuse (code : AuthorizationErrorCode) (reason : Option JsString) :
    Settles P action id s (refuse options s action actor id code reason) :=
  .inr ((quiet_refuse _ _ _ _ _ _ _).imp_right (·.mono (nil_subset _)))

/-- **A change is made exactly if its event was accepted.** -/
theorem settles_commit (hP : P next (commit options s action actor id details next).2) :
    Settles P action id s (commit options s action actor id details next) := by
  rw [commit] at hP ⊢
  split at hP
  next t heq =>
    obtain ⟨hrecords, hdraws, ⟨-, htrail⟩ | ⟨x, hx, -⟩⟩ := audit_cases heq
    · exact .inr ⟨nofun, hrecords, hdraws.ge, .inl htrail⟩
    · cases hx
  next t heq =>
    obtain ⟨hrecords, hdraws, ⟨hx, -⟩ | ⟨x, hx, htrail, -, htarget, -⟩⟩ := audit_cases heq
    · cases hx
    · exact .inr ⟨nofun, hrecords, hdraws.ge, .inr ⟨x, htrail, fun _ ↦
        ⟨(Option.some.inj hx).symm, mem_singleton.2 htarget⟩⟩⟩
  next t heq =>
    obtain ⟨hrecords, hdraws, ⟨hx, -⟩ | ⟨x, hx, htrail, houtcome, htarget, haction⟩⟩ :=
      audit_cases heq
    · cases hx
    · exact .inl ⟨next, rfl, hP, congrArg (·.set id next) hrecords, hdraws.ge, x, htrail,
        (Option.some.inj hx).symm, houtcome, htarget, haction⟩

/-- Committing a record draws no id. -/
theorem draws_commit : (commit options s action actor id details next).2.draws = s.draws := by
  rw [commit]
  split
  all_goals next heq => exact (audit_cases heq).2.1

/-- What a successful grant puts into the store. -/
structure Granted (options : StoreOptions) (s : Store) (input : GrantInput)
    (a : Authorization) : Prop where
  id : a.id = options.newId s.draws
  grantor : a.grantor = input.grantor
  grantee : a.grantee = input.grantee
  scope : a.scope = input.scope
  resourceId : a.resourceId = input.resourceId
  status : a.status = .active
  expiry : expiry options a = some (options.now s.ticks + input.ttlMs)

/-- A grant files one new authorization under the id it draws. -/
theorem settles_grant (options : StoreOptions) (s : Store) (input : GrantInput)
    (hook : CanDelegate) :
    Settles (fun a s' ↦ Granted options s input a ∧ s.draws < s'.draws) .granted
      (options.newId s.draws) s (grant options s input hook) := by
  have hdraws : s.draws ≤ s.draws + 1 := Nat.le_succ _
  rw [grant]
  split
  · exact settles_same nofun
  split
  · exact (settles_refuse _ _).of_start rfl hdraws rfl
  simp only [tick, grantAt]
  split
  next issued expires hissued hexpires =>
    refine (settles_commit ⟨⟨rfl, rfl, rfl, rfl, rfl, rfl, ?_⟩, ?_⟩).of_start rfl hdraws rfl
    · exact Date.parse_toISOString hexpires _
    · rw [draws_commit]
      exact Nat.lt_succ_self _
  next => exact .inr ⟨nofun, rfl, hdraws, .inl rfl⟩

variable {a : Authorization}

/-- The stored status of an authorization that is neither revoked nor cleaned. -/
theorem status_of_state {t : ℤ} (hrevoked : authorizationState options a t ≠ .revoked)
    (hcleaned : authorizationState options a t ≠ .cleaned) : a.status = .active := by
  cases hstatus : a.status with
  | active => rfl
  | revoked => exact absurd (if_pos hstatus) hrevoked
  | cleaned =>
    refine absurd ?_ hcleaned
    rw [authorizationState, if_neg (by simp [hstatus]), if_pos hstatus]

/-- What a successful renewal does to an authorization. -/
structure Renewed (options : StoreOptions) (at' extendByMs : ℤ) (current a : Authorization) :
    Prop where
  id : a.id = current.id
  grantor : a.grantor = current.grantor
  grantee : a.grantee = current.grantee
  scope : a.scope = current.scope
  resourceId : a.resourceId = current.resourceId
  status : a.status = .active ∧ current.status = .active
  renewals : a.renewals = current.renewals + 1
  expiry : ∃ e, expiry options current = some e ∧
    Authorizations.expiry options a = some (max at' e + extendByMs)

section

variable (options : StoreOptions)

theorem settles_renewAt (s : Store) (input : RenewInput) (current : Authorization) (at' : ℤ) :
    Settles (fun a _ ↦ Renewed options at' input.extendByMs current a) .renewed input.id s
      (renewAt options s input current at') := by
  rw [renewAt]
  split
  · exact settles_refuse _ _
  next hrevoked =>
  split
  · exact settles_refuse _ _
  next hcleaned =>
  split
  · exact settles_refuse _ _
  split
  · exact settles_same nofun
  split
  next expires renewedAt hexpires hrenewedAt =>
    obtain ⟨e, he, hexpires⟩ := Option.bind_eq_some_iff.1 hexpires
    have hactive := status_of_state hrevoked hcleaned
    exact settles_commit ⟨rfl, rfl, rfl, rfl, rfl, ⟨hactive, hactive⟩, rfl, e, he,
      Date.parse_toISOString hexpires _⟩
  next => exact settles_same nofun

/-- A renewal changes the expiry of the authorization it names. -/
theorem settles_renew (s : Store) (input : RenewInput) :
    Settles (fun a _ ↦ ∃ current, s.records.get input.id = some current ∧
      Renewed options (options.now s.ticks) input.extendByMs current a) .renewed input.id s
      (renew options s input) := by
  rw [renew]
  split
  · exact settles_same fun _ h ↦ by cases h
  next current hcurrent =>
    split
    · exact settles_refuse _ _
    split
    · exact settles_refuse _ _
    have hsettles := settles_renewAt options (tick options s).2 input current (options.now s.ticks)
    exact (hsettles.imp fun _ _ h ↦ ⟨current, hcurrent, h⟩).of_start rfl le_rfl rfl

/-- What ending an authorization does to it. -/
structure EndedAs (current a : Authorization) : Prop where
  id : a.id = current.id
  grantor : a.grantor = current.grantor
  grantee : a.grantee = current.grantee
  scope : a.scope = current.scope
  resourceId : a.resourceId = current.resourceId
  expiresAt : a.expiresAt = current.expiresAt
  status : a.status ≠ .active ∧ current.status = .active

theorem settles_revokeAt (s : Store) (input : RevokeInput) (current : Authorization) (at' : ℤ) :
    Settles (fun a _ ↦ EndedAs current a) .revoked input.id s
      (revokeAt options s input current at') := by
  rw [revokeAt]
  split
  · exact settles_refuse _ _
  next hrevoked =>
  split
  · exact settles_refuse _ _
  next hcleaned =>
  split
  · exact settles_same nofun
  next revokedAt hrevokedAt =>
    exact settles_commit ⟨rfl, rfl, rfl, rfl, rfl, rfl, nofun, status_of_state hrevoked hcleaned⟩

/-- A revocation ends the authorization it names. -/
theorem settles_revoke (s : Store) (input : RevokeInput) :
    Settles (fun a _ ↦ ∃ current, s.records.get input.id = some current ∧ EndedAs current a)
      .revoked input.id s (revoke options s input) := by
  rw [revoke]
  split
  · exact settles_same fun _ h ↦ by cases h
  next current hcurrent =>
    split
    · exact settles_refuse _ _
    have hsettles := settles_revokeAt options (tick options s).2 input current (options.now s.ticks)
    exact (hsettles.imp fun _ _ h ↦ ⟨current, hcurrent, h⟩).of_start rfl le_rfl rfl

end

/-! ### Cleaning up -/

/-- **The authorizations are ended one after the other**, each of them only if its event was
accepted. An exception stops it. -/
inductive Cleans : List Authorization → Store → Store → Prop
  | stop {due : List Authorization} {s s' : Store} (hquiet : Quiet [] s s') : Cleans due s s'
  | skip {entry : Authorization} {due : List Authorization} {s t s' : Store}
      (hquiet : Quiet [entry.id] s t) (hrest : Cleans due t s') : Cleans (entry :: due) s s'
  | clean {entry a : Authorization} {due : List Authorization} {s t s' : Store}
      (hended : EndedAs entry a) (hchanges : Changes .cleanedUp entry.id a s t)
      (hrest : Cleans due t s') : Cleans (entry :: due) s s'

variable {entry : Authorization}

/-- Cleaning up ends one authorization that is due. -/
theorem settles_cleanOne (options : StoreOptions) (s : Store) (input : CleanupInput) (at' : ℤ)
    (hactive : entry.status = .active) :
    Settles (fun a _ ↦ EndedAs entry a) .cleanedUp entry.id s
      (cleanOne options s input at' entry) := by
  rw [cleanOne]
  split
  · exact settles_same nofun
  · exact settles_commit ⟨rfl, rfl, rfl, rfl, rfl, rfl, nofun, hactive⟩

variable {due : List Authorization}

/-- The loop of a cleanup is one such step for each authorization in its list. -/
theorem cleans_cleanupLoop (input : CleanupInput) (at' : ℤ)
    (hdue : ∀ entry ∈ due, entry.status = .active) (result : CleanupResult) (s : Store) :
    Cleans due s (cleanupLoop options input at' due result s).2 := by
  induction due generalizing result s with
  | nil => exact .stop (Quiet.refl [] s)
  | cons entry due ih =>
    have hrest := fun e he ↦ hdue e (mem_cons_of_mem entry he)
    have hcases := settles_cleanOne options s input at' (hdue entry mem_cons_self)
    rw [cleanupLoop]
    split
    next t heq =>
      rw [heq] at hcases
      rcases hcases with ⟨a, hok, -⟩ | ⟨-, hquiet⟩
      · cases hok
      · exact .skip hquiet (.stop (Quiet.refl [] t))
    next code t heq =>
      rw [heq] at hcases
      rcases hcases with ⟨a, hok, -⟩ | ⟨-, hquiet⟩
      · cases hok
      · exact .skip hquiet (ih hrest _ t)
    next a t heq =>
      rw [heq] at hcases
      rcases hcases with ⟨b, -, hended, hchanges⟩ | ⟨hnot, -⟩
      · exact .clean hended hchanges (ih hrest _ t)
      · exact absurd rfl (hnot a)

theorem mem_sortById {entries : List Authorization} : a ∈ sortById entries ↔ a ∈ entries := by
  rw [sortById, mem_map]
  constructor
  · rintro ⟨⟨id, b⟩, hb, rfl⟩
    obtain ⟨c, hc, heq⟩ := mem_map.1 (mem_sortKeys.1 hb)
    rw [← (Prod.mk.inj heq).2]
    exact hc
  · exact fun ha ↦ ⟨(a.id, a), mem_sortKeys.2 (mem_map.2 ⟨a, ha, rfl⟩), rfl⟩

theorem map_id_sortById (entries : List Authorization) :
    ((sortById entries).map Authorization.id).Perm (entries.map Authorization.id) := by
  have hperm := (sortKeys_perm (entries.map fun entry ↦ (entry.id, entry))).map
    fun p ↦ p.2.id
  rw [sortById, map_map]
  rw [map_map] at hperm
  exact hperm

/-- An authorization is expired if it is active and its expiry is not after the instant. -/
theorem state_eq_expired_iff {t : ℤ} :
    authorizationState options a t = .expired ↔
      a.status = .active ∧ ∃ e, expiry options a = some e ∧ e ≤ t := by
  rw [authorizationState]
  cases a.status with
  | revoked => simp
  | cleaned => simp
  | active =>
    simp only [reduceCtorEq, if_false, true_and]
    cases expiry options a with
    | none => split_ifs <;> simp_all
    | some e => split_ifs <;> simp_all

/-- Every stored authorization is listed under its id. -/
def KeyedById (s : Store) : Prop := ∀ id a, s.records.get id = some a → a.id = id

/-- The stored authorizations are found under their ids. -/
theorem mem_values_iff (h : KeyedById s) : a ∈ s.records.values ↔ s.records.get a.id = some a := by
  constructor
  · intro ha
    obtain ⟨⟨id, b⟩, hb, rfl⟩ := mem_map.1 ha
    have hget := mem_entries_iff.1 hb
    rw [h id b hget]
    exact hget
  · exact fun ha ↦ mem_map.2 ⟨(a.id, a), mem_entries_iff.2 ha, rfl⟩

theorem nodup_map_id (h : KeyedById s) : (s.records.values.map Authorization.id).Nodup := by
  have hids : s.records.values.map Authorization.id = s.records.entries.map Prod.fst := by
    rw [values, map_map]
    refine map_congr_left fun entry hentry ↦ ?_
    exact h entry.1 entry.2 (mem_entries_iff.1 hentry)
  rw [hids]
  exact s.records.nodup

theorem Cleans.of_start (h : Cleans due t s') (hrecords : t.records = s.records)
    (hdraws : s.draws ≤ t.draws) (htrail : t.trail = s.trail) : Cleans due s s' := by
  cases h with
  | stop hquiet => exact .stop (hquiet.of_start hrecords hdraws htrail)
  | skip hquiet hrest => exact .skip (hquiet.of_start hrecords hdraws htrail) hrest
  | clean hended hchanges hrest =>
    exact .clean hended (hchanges.of_start hrecords hdraws htrail) hrest

/-- The authorizations that a cleanup at the time `at'` goes through. -/
def dueAt (options : StoreOptions) (s : Store) (at' : ℤ) : List Authorization :=
  sortById (s.records.values.filter fun entry ↦ isCleanable options entry at')

/-- A cleanup is about the stored authorizations that are cleanable. -/
theorem mem_dueAt {at' : ℤ} :
    entry ∈ dueAt options s at' ↔
      entry ∈ s.records.values ∧ isCleanable options entry at' = true := by
  rw [dueAt, mem_sortById, mem_filter]

/-- **What a cleanup goes through.** -/
theorem cleanup_cases (options : StoreOptions) {s : Store} (hkeyed : KeyedById s)
    (input : CleanupInput) :
    ∃ due, (∀ entry ∈ due, s.records.get entry.id = some entry ∧ entry.status = .active) ∧
      (due.map Authorization.id).Nodup ∧ Cleans due s (cleanup options s input).2 := by
  rw [cleanup]
  split
  next user hactor =>
    refine ⟨[], by simp, nodup_nil, .stop ?_⟩
    have hquiet := (quiet_refuse options s .cleanedUp input.actor (js "all") .cleanupUnauthorized
      input.reason).2
    split
    next t heq => rwa [heq] at hquiet
    next code t heq => rwa [heq] at hquiet
  next =>
    have hdue : ∀ entry ∈ dueAt options s (options.now s.ticks),
        s.records.get entry.id = some entry ∧ entry.status = .active := by
      intro entry hentry
      obtain ⟨hmem, hcleanable⟩ := mem_dueAt.1 hentry
      rw [isCleanable, Bool.and_eq_true, decide_eq_true_eq] at hcleanable
      exact ⟨(mem_values_iff hkeyed).1 hmem, (state_eq_expired_iff.1 hcleanable.1).1⟩
    refine ⟨dueAt options s (options.now s.ticks), hdue, ?_, ?_⟩
    · refine (map_id_sortById _).nodup_iff.2 ?_
      exact (nodup_map_id hkeyed).sublist (filter_sublist.map _)
    · exact (cleans_cleanupLoop input _ (fun e he ↦ (hdue e he).2) {} (tick options s).2).of_start
        rfl le_rfl rfl

/-! ### Every change has its event -/

/-- **The events that a call presented, and what changed.** For every authorization there is at most
one event that allows a change of it, and it changed exactly if that event was accepted. Nothing
changes outside of `ids`. -/
structure AuditedOn (ids : List JsString) (s s' : Store) (events : List Attempt) : Prop where
  trail : s'.trail = s.trail ++ events
  outside : ∀ x ∈ events, x.input.outcome = some .allowed → x.input.target.id ∈ ids
  single : ∀ id, (events.filter (·.isAllowedFor id)).length ≤ 1
  changed_iff : ∀ id, s'.records.get id ≠ s.records.get id ↔
    ∃ x ∈ events, x.isAllowedFor id = true ∧ x.accepted = true

theorem isAllowedFor_iff {x : Attempt} :
    x.isAllowedFor id = true ↔ x.input.outcome = some .allowed ∧ x.input.target.id = id := by
  rw [Attempt.isAllowedFor, Bool.and_eq_true, decide_eq_true_eq, decide_eq_true_eq]

/-- A quiet step presents no event that allows a change. -/
theorem Quiet.audited (h : Quiet ids s s') : ∃ events, AuditedOn ids s s' events := by
  have hsame : ∀ id, ¬(s'.records.get id ≠ s.records.get id) := fun id ↦ by simp [h.records]
  rcases h.trail with htrail | ⟨x, htrail, hx⟩
  · refine ⟨[], by rw [htrail, append_nil], by simp, by simp, fun id ↦ ?_⟩
    exact iff_of_false (hsame id) (by simp)
  refine ⟨[x], htrail, ?_, fun id ↦ length_filter_le _ _, fun id ↦ ?_⟩
  · intro y hy hallowed
    rw [mem_singleton.1 hy] at hallowed ⊢
    exact (hx hallowed).2
  · refine iff_of_false (hsame id) ?_
    rintro ⟨y, hy, hallowed, haccepted⟩
    rw [mem_singleton.1 hy] at hallowed haccepted
    rw [(hx (isAllowedFor_iff.1 hallowed).1).1] at haccepted
    cases haccepted

/-- A change of a record is preceded by one accepted event for it. -/
theorem Changes.audited (h : Changes action id next s s') (hnew : s.records.get id ≠ some next) :
    ∃ events, AuditedOn [id] s s' events := by
  obtain ⟨x, htrail, haccepted, houtcome, htarget, -⟩ := h.trail
  refine ⟨[x], htrail, ?_, fun id ↦ length_filter_le _ _, fun other ↦ ?_⟩
  · intro y hy _
    rw [mem_singleton.1 hy, htarget]
    exact mem_singleton_self id
  · have hx : (∃ y ∈ [x], y.isAllowedFor other = true ∧ y.accepted = true) ↔ id = other := by
      simp [isAllowedFor_iff, houtcome, htarget, haccepted]
    rw [hx, h.records, get_set]
    by_cases hid : id = other
    · subst hid
      simpa using Ne.symm hnew
    · simp [hid]

/-- Events about different authorizations can be put together. -/
theorem AuditedOn.append {events events' : List Attempt} (h : AuditedOn ids s t events)
    (h' : AuditedOn ids' t s' events') (hdisjoint : ids.Disjoint ids') :
    AuditedOn (ids ++ ids') s s' (events ++ events') := by
  have hnone : ∀ {l : List JsString} {a b : Store} {es : List Attempt}, AuditedOn l a b es →
      ∀ id ∉ l, es.filter (·.isAllowedFor id) = [] := by
    intro l a b es haudited id hid
    refine filter_eq_nil_iff.2 fun x hx hallowed ↦ hid ?_
    obtain ⟨houtcome, rfl⟩ := isAllowedFor_iff.1 hallowed
    exact haudited.outside x hx houtcome
  refine ⟨by rw [h'.trail, h.trail, append_assoc], ?_, fun id ↦ ?_, fun id ↦ ?_⟩
  · intro x hx hallowed
    rcases mem_append.1 hx with hx | hx
    · exact mem_append_left _ (h.outside x hx hallowed)
    · exact mem_append_right _ (h'.outside x hx hallowed)
  · rw [filter_append, length_append]
    by_cases hid : id ∈ ids
    · rw [hnone h' id (hdisjoint hid), length_nil, Nat.add_zero]
      exact h.single id
    · rw [hnone h id hid, length_nil, Nat.zero_add]
      exact h'.single id
  · have hsplit : (∃ x ∈ events ++ events', x.isAllowedFor id = true ∧ x.accepted = true) ↔
        t.records.get id ≠ s.records.get id ∨ s'.records.get id ≠ t.records.get id := by
      rw [h.changed_iff, h'.changed_iff]
      simp only [mem_append, or_and_right, exists_or]
    rw [hsplit]
    by_cases hid : id ∈ ids
    · -- the second part leaves it alone
      have hsame : s'.records.get id = t.records.get id := by
        by_contra hne
        obtain ⟨x, hx, hallowed, -⟩ := (h'.changed_iff id).1 hne
        have := hnone h' id (hdisjoint hid)
        exact absurd hallowed (filter_eq_nil_iff.1 this x hx)
      rw [hsame]
      simp
    · have hsame : t.records.get id = s.records.get id := by
        by_contra hne
        obtain ⟨x, hx, hallowed, -⟩ := (h.changed_iff id).1 hne
        exact absurd hallowed (filter_eq_nil_iff.1 (hnone h id hid) x hx)
      rw [hsame]
      simp

theorem EndedAs.ne {current : Authorization} (h : EndedAs current a) : current ≠ a :=
  fun heq ↦ h.status.1 (heq ▸ h.status.2)

/-- A cleanup presents one event for each authorization that is due. -/
theorem Cleans.audited (h : Cleans due s s')
    (hdue : ∀ entry ∈ due, s.records.get entry.id = some entry)
    (hnodup : (due.map Authorization.id).Nodup) :
    ∃ events, AuditedOn (due.map Authorization.id) s s' events := by
  induction h with
  | stop hquiet => exact (hquiet.mono (nil_subset _)).audited
  | skip hquiet hrest ih =>
    obtain ⟨hfresh, hnodup⟩ := nodup_cons.1 hnodup
    obtain ⟨first, hfirst⟩ := hquiet.audited
    obtain ⟨rest, hrest⟩ := ih (fun e he ↦ by
      rw [hquiet.records]
      exact hdue e (mem_cons_of_mem _ he)) hnodup
    exact ⟨_, hfirst.append hrest (singleton_disjoint.2 hfresh)⟩
  | clean hended hchanges hrest ih =>
    next entry a due s t s' =>
    obtain ⟨hfresh, hnodup⟩ := nodup_cons.1 hnodup
    obtain ⟨first, hfirst⟩ := hchanges.audited (by
      rw [hdue entry mem_cons_self]
      exact fun heq ↦ hended.ne (Option.some.inj heq))
    obtain ⟨rest, hrest⟩ := ih (fun e he ↦ by
      rw [hchanges.records, get_set, if_neg]
      · exact hdue e (mem_cons_of_mem _ he)
      · exact fun heq ↦ hfresh (heq ▸ mem_map_of_mem he)) hnodup
    exact ⟨_, hfirst.append hrest (singleton_disjoint.2 hfresh)⟩

/-- **Every change of a record was preceded by one accepted event for it.** For each authorization a
call presents at most one event that allows a change, and changes it exactly if that is accepted. -/
def Audited (s s' : Store) : Prop := ∃ ids events, AuditedOn ids s s' events

/-- The ids that are still to be drawn are not in use. -/
def FreshIds (options : StoreOptions) (s : Store) : Prop :=
  ∀ n, s.draws ≤ n → s.records.get (options.newId n) = none

theorem Settles.audited (h : Settles P action id s r)
    (hnew : ∀ a t, P a t → s.records.get id ≠ some a) : Audited s r.2 := by
  rcases h with ⟨a, -, hP, hchanges⟩ | ⟨-, hquiet⟩
  · exact ⟨_, hchanges.audited (hnew a r.2 hP)⟩
  · exact ⟨_, hquiet.audited⟩

/-- **Every change was accepted**: a call changes a record exactly if its one event is. -/
theorem answer_audited (hkeyed : KeyedById s) (hfresh : FreshIds options s) (call : AuthCall) :
    Audited s (answer options s call).2 := by
  have hread : ∀ t : Store, t.records = s.records → t.draws = s.draws → t.trail = s.trail →
      Audited s t := fun t hrecords hdraws htrail ↦
    ⟨[], (Quiet.audited ⟨hrecords, hdraws.ge, .inl htrail⟩)⟩
  cases call with
  | grant input hook =>
    refine (settles_grant options s input hook).audited fun a t _ ↦ ?_
    rw [hfresh s.draws le_rfl]
    exact nofun
  | authorize input hook => exact hread _ rfl rfl rfl
  | renew input =>
    refine (settles_renew options s input).audited fun a t ⟨current, hcurrent, hrenewed⟩ heq ↦ ?_
    have hcount := hrenewed.renewals
    rw [Option.mem_unique hcurrent heq] at hcount
    omega
  | revoke input =>
    exact (settles_revoke options s input).audited fun a t ⟨current, hcurrent, hended⟩ heq ↦
      hended.ne (Option.mem_unique hcurrent heq)
  | report window => exact hread _ rfl rfl rfl
  | cleanup input =>
    obtain ⟨due, hdue, hnodup, hcleans⟩ := cleanup_cases options hkeyed input
    exact ⟨_, hcleans.audited (fun e he ↦ (hdue e he).1) hnodup⟩

end Utix.Authorizations

import Utix.Reconciliation.Planned
import Utix.Reconciliation.Reported
import Utix.Telemetry.Quoted

/-!
# Findings that can be read

A finding names its record and says what is wrong with it. Both texts pass two scrubbers on the way
into the report, and the planner looks the record up again by the name that is left. So a text that
is taken for a secret costs more than its wording: the finding is sent to a human as a security
incident, and is never repaired.

For a snapshot without secrets this module says exactly when all texts survive (`Identities` with
`shown`, and `Details`), and when the planner then finds every record again (`Locatable`). The
conditions are not idle. A record whose identity starts with `S` or `M` and has 10 to 128 units is
taken for a secret; so is the sentence about a balance that disagrees with the ledger, which starts
with `Stored`; and a quoted value that ends in `bearer` makes a token of the word after it.
-/

namespace Utix.Reconciliation

open Js Telemetry List Option JobPayload

/-! ### The two scrubbers -/

/-- A text without secrets passes the first scrubber. -/
theorem scrubSecrets_of_noSecret {s : JsString} (h : NoSecret s) : scrubSecrets s = s := by
  refine replaceAll_eq_self fun prev t ht ↦ ?_
  have hnone : keyLength isSecretMark t = none :=
    eq_none_iff_forall_ne_some.2 fun n hn ↦ by
      obtain ⟨x, hpre, hx⟩ := exists_isSeed_of_keyLength hn
      exact h.1 ⟨x, hpre.isInfix.trans ht.isInfix, hx⟩
  rw [Audit.embeddedSecret, hnone]
  split <;> rfl

/-- Both scrubbers leave a text as it is exactly when the second one does. -/
theorem scrubString_scrubSecrets_iff {s : JsString} :
    scrubString (scrubSecrets s) = s ↔ scrubString s = s := by
  constructor
  · intro h
    have hno : NoSecret s := h ▸ noSecret_scrubString _
    rwa [scrubSecrets_of_noSecret hno] at h
  · intro h
    rwa [scrubSecrets_of_noSecret (noSecret_of_scrubString h)]

/-- The finding of a report shows what the check had to say. -/
structure Kept (f : Finding) (v : Violation) : Prop where
  recordId : f.recordId = v.recordId
  id : f.id = findingId v.invariant v.recordId
  detail : f.detail = v.detail

/-- Neither the identity of a record nor that of its finding is replaced or cut. -/
def shown (invariant : Invariant) (recordId : JsString) : Bool :=
  !looksLikeSecret recordId && uncut recordId && uncut (findingId invariant recordId)

theorem findingId_eq (invariant : Invariant) (recordId : JsString) :
    findingId invariant recordId = invariant.text ++ 58 :: recordId := by
  rw [findingId, append_assoc, show js ":" = [58] by decide]
  rfl

variable {invariant : Invariant} {recordId : JsString}

/-- The id of a finding has no secret if its record has none. -/
theorem noSecret_findingId (h : NoSecret recordId) : NoSecret (findingId invariant recordId) := by
  rw [findingId_eq, noSecret_append_barrier (by decide) (by decide) (by decide) (by decide)]
  exact ⟨noSecret_of_scrubString (scrubString_invariant invariant), h⟩

theorem colon_notMem_text (invariant : Invariant) : 58 ∉ invariant.text := by
  cases invariant <;> decide +kernel

variable {i : Invariant}

/-- What stands before the first colon of an id is the invariant. -/
theorem invariant_inj {j : Invariant} {a b : JsString} (h : i.text ++ 58 :: a = j.text ++ 58 :: b) :
    i = j ∧ a = b := by
  obtain ⟨htext, hrest⟩ := append_cons_inj (colon_notMem_text i) (colon_notMem_text j) h
  have hinj : ∀ i ∈ Invariant.all, ∀ j ∈ Invariant.all, i.text = j.text → i = j := by
    decide +kernel
  exact ⟨hinj i i.mem_all j j.mem_all htext, hrest⟩

/-- **The id of a finding names its invariant and its record.** -/
theorem findingId_inj {j : Invariant} {a b : JsString} (h : findingId i a = findingId j b) :
    i = j ∧ a = b := by
  rw [findingId_eq, findingId_eq] at h
  exact invariant_inj h

variable {v : Violation}

/-- Both identities are kept exactly when they are shown. -/
theorem identity_kept_iff (h : NoSecret v.recordId) :
    ((finding v).redact.recordId = v.recordId ∧
        (finding v).redact.id = findingId v.invariant v.recordId) ↔
      shown v.invariant v.recordId = true := by
  have hrecord : scrubString (scrubSecrets v.recordId) = v.recordId ↔
      looksLikeSecret v.recordId = false ∧ uncut v.recordId = true := by
    rw [scrubString_scrubSecrets_iff, scrubString_eq_self_iff]
    exact and_iff_right h
  have hid : scrubString (findingId v.invariant (scrubSecrets v.recordId)) =
      findingId v.invariant v.recordId ↔ uncut (findingId v.invariant v.recordId) = true := by
    have hlooks : looksLikeSecret (findingId v.invariant v.recordId) = false := by
      rw [findingId_eq]
      exact looksLikeSecret_append (by cases v.invariant <;> decide +kernel)
    rw [scrubSecrets_of_noSecret h, scrubString_eq_self_iff]
    simp [noSecret_findingId h, hlooks]
  rw [shown, Bool.and_eq_true, Bool.and_eq_true, Bool.not_eq_true', ← hrecord, ← hid]
  exact Iff.rfl

/-- **A finding is kept** exactly if its record is shown and its detail survives. -/
theorem kept_iff (h : NoSecret v.recordId) :
    Kept (finding v).redact v ↔
      shown v.invariant v.recordId = true ∧ scrubString v.detail = v.detail := by
  rw [← identity_kept_iff h, ← scrubString_scrubSecrets_iff]
  exact ⟨fun hk ↦ ⟨⟨hk.recordId, hk.id⟩, hk.detail⟩, fun hk ↦ ⟨hk.1.1, hk.1.2, hk.2⟩⟩

/-! ### The texts of a snapshot -/

def StoredBalance.texts (entry : StoredBalance) : List JsString :=
  [entry.account, entry.asset, entry.balance] ++ entry.cachedAt.toList

def LedgerBalance.texts (entry : LedgerBalance) : List JsString :=
  [entry.account, entry.asset, entry.balance, entry.reference]

def JobPayload.texts (job : JobPayload) : List JsString :=
  [job.id, job.operation, job.status, job.enqueuedAt, job.correlationId] ++ job.dedupeKey.toList ++
    job.nextAttemptAt.toList ++ job.lastError.toList

def Notification.texts (entry : Notification) : List JsString :=
  [entry.recipient, entry.id, entry.state]

def IdempotencyRecord.texts (record : IdempotencyRecord) : List JsString :=
  [record.key, record.operation, record.createdAt, record.expiresAt]

def ExportEnvelope.texts (envelope : ExportEnvelope) : List JsString :=
  [envelope.correlationId, envelope.expiresAt]

def OperationRecord.texts (record : OperationRecord) : List JsString :=
  [record.id, record.op, record.state, record.startedAt]

/-- **No text of the snapshot has a seed or a bearer token in it.** -/
structure NoSecrets (input : ReconciliationInput) : Prop where
  storedBalances : ∀ entry ∈ input.storedBalances, ∀ t ∈ entry.texts, NoSecret t
  ledgerBalances : ∀ entry ∈ input.ledgerBalances, ∀ t ∈ entry.texts, NoSecret t
  jobs : ∀ job ∈ input.jobs, ∀ t ∈ job.texts, NoSecret t
  notifications : ∀ entry ∈ input.notifications, ∀ t ∈ entry.texts, NoSecret t
  idempotencyRecords : ∀ record ∈ input.idempotencyRecords, ∀ t ∈ record.texts, NoSecret t
  exportEnvelopes : ∀ envelope ∈ input.exportEnvelopes, ∀ t ∈ envelope.texts, NoSecret t
  operations : ∀ record ∈ input.operations, ∀ t ∈ record.texts, NoSecret t

/-! ### Sentences about records -/

variable {entry : StoredBalance}

/-- Words and a space, before a quoted value. -/
def isLead (lead : JsString) : Bool :=
  lead = lead.dropLast ++ [32] && scrubString lead.dropLast = lead.dropLast &&
    !endsInBearer lead.dropLast

/-- A space, words and a space, between two quoted values. -/
def isMiddle (middle : JsString) : Bool :=
  middle = 32 :: middle.tail && middle.tail.head?.any isTokenUnit && isLead middle.tail

theorem isLead_words : ∀ lead ∈ [js "No ledger entry for ", js "Stored ", js "Operation ",
    js "Asset held on more than one line for ", js "Two pending jobs share dedupe key ",
    js "Job used all "], isLead lead = true := by
  decide +kernel

theorem isMiddle_words : ∀ middle ∈ [js " on ", js " balance disagrees with ledger reference ",
    js " attempts but is still "], isMiddle middle = true := by
  decide +kernel

section

variable {a lead middle r : JsString}

/-- The words in front of a quoted text add no secret. -/
theorem noSecret_lead_append (h : isLead lead = true) : NoSecret (lead ++ r) ↔ NoSecret r := by
  simp only [isLead, Bool.and_eq_true, decide_eq_true_eq, Bool.not_eq_true'] at h
  rw [h.1.1, append_assoc, singleton_append]
  exact noSecret_words_append (noSecret_of_scrubString h.1.2) h.2

/-- The words behind it make a token if it ends in `bearer`. -/
theorem noSecret_append_middle (ha : NoSecret a) (h : isMiddle middle = true) :
    NoSecret (a ++ (middle ++ r)) ↔ endsInBearer a = false ∧ NoSecret r := by
  simp only [isMiddle, Bool.and_eq_true, decide_eq_true_eq] at h
  rw [h.1.1, cons_append, noSecret_append_word ha h.1.2, noSecret_lead_append h.2]

/-- A sentence whose first word is not taken for a secret. -/
theorem scrubString_lead_append_iff (h : isLead lead = true)
    (hmark : lead.head?.any (!isSecretMark ·) = true) :
    scrubString (lead ++ r) = lead ++ r ↔ NoSecret r ∧ uncut (lead ++ r) = true := by
  rw [scrubString_eq_self_iff, noSecret_lead_append h, and_iff_right (looksLikeSecret_append hmark)]

end

/-- When the sentence about a missing ledger entry survives. -/
theorem scrubString_ledgerEntryDetail_iff (haccount : NoSecret entry.account)
    (hasset : NoSecret entry.asset) :
    scrubString (ledgerEntryDetail entry) = ledgerEntryDetail entry ↔
      endsInBearer entry.asset = false ∧ uncut (ledgerEntryDetail entry) = true := by
  have hend : NoSecret (entry.account ++ js "; the stored line cannot be settled.") := by
    rw [show js "; the stored line cannot be settled." =
        59 :: js " the stored line cannot be settled." by decide,
      noSecret_append_barrier (by decide) (by decide) (by decide) (by decide)]
    exact ⟨haccount, noSecret_of_scrubString (by decide +kernel)⟩
  simp only [ledgerEntryDetail, append_assoc]
  rw [scrubString_lead_append_iff (isLead_words _ (by simp)) (by decide),
    noSecret_append_middle hasset (isMiddle_words _ (by simp)), and_iff_left hend]

/-- The sentence starts with a mark, so only its length can save it. -/
theorem looksLikeSecret_amountDetail (entry : StoredBalance) (reference : LedgerBalance) :
    looksLikeSecret (amountDetail entry reference) = false ↔
      128 < (amountDetail entry reference).length := by
  have hstart : startsWith (amountDetail entry reference) (js "S") = true := by
    rw [amountDetail, show js "Stored " = 83 :: js "tored " by decide, show js "S" = [83] by decide]
    simp [startsWith]
  have hlen : 10 ≤ (amountDetail entry reference).length := by
    have hwords : (js " balance disagrees with ledger reference ").length = 41 := by decide
    simp only [amountDetail, length_append, hwords]
    omega
  simp [looksLikeSecret, hstart, hlen]

theorem noSecret_append_period {a : JsString} (ha : NoSecret a) :
    NoSecret (a ++ js ".") ↔ endsInBearerGap a = false := by
  rw [show js "." = [46] by decide, noSecret_append_stop ha]

/-- When the sentence about a differing amount survives. -/
theorem scrubString_amountDetail_iff {reference : LedgerBalance} (hasset : NoSecret entry.asset)
    (hreference : NoSecret reference.reference) :
    scrubString (amountDetail entry reference) = amountDetail entry reference ↔
      (endsInBearer entry.asset = false ∧ endsInBearerGap reference.reference = false) ∧
        128 < (amountDetail entry reference).length ∧
        uncut (amountDetail entry reference) = true := by
  rw [scrubString_eq_self_iff, looksLikeSecret_amountDetail]
  refine and_congr_left fun _ ↦ ?_
  simp only [amountDetail, append_assoc]
  rw [noSecret_lead_append (isLead_words _ (by simp)),
    noSecret_append_middle hasset (isMiddle_words _ (by simp)), noSecret_append_period hreference]

/-- A sentence that ends with a quoted value. -/
theorem scrubString_lead_period_iff {lead a : JsString} (h : isLead lead = true)
    (hmark : lead.head?.any (!isSecretMark ·) = true) (ha : NoSecret a) :
    scrubString (lead ++ a ++ js ".") = lead ++ a ++ js "." ↔
      endsInBearerGap a = false ∧ uncut (lead ++ a ++ js ".") = true := by
  rw [append_assoc, scrubString_lead_append_iff h hmark, noSecret_append_period ha]

/-- When the sentence about an operation survives. -/
theorem scrubString_operationDetail_iff {record : OperationRecord} (hop : NoSecret record.op) :
    scrubString (operationDetail record) = operationDetail record ↔
      endsInBearer record.op = false ∧ uncut (operationDetail record) = true := by
  have hend : NoSecret (js "never settled.") := noSecret_of_scrubString (by decide +kernel)
  simp only [operationDetail, append_assoc]
  rw [scrubString_lead_append_iff (isLead_words _ (by simp)) (by decide),
    show js " never settled." = 32 :: (js "never settled." ++ []) by decide,
    noSecret_append_word hop (by decide), append_nil, and_iff_left hend]

theorem isPlainUnit_of_isNumberUnit {c : UInt16} (h : Decimal.isNumberUnit c = true) :
    isPlainUnit c = true ∧ fold c ≠ 98 := by
  simp only [Decimal.isNumberUnit, isDigit, Bool.or_eq_true, Bool.and_eq_true, decide_eq_true_eq,
    beq_iff_eq, UInt16.le_iff_toNat_le, ← UInt16.toNat_inj, UInt16.reduceToNat] at h
  refine ⟨isPlainUnit_of_printable (by omega) (by omega) (by omega), ?_⟩
  have hup : isUpper c = false := by
    simp only [isUpper, Bool.and_eq_false_iff, decide_eq_false_iff_not, UInt16.le_iff_toNat_le,
      UInt16.reduceToNat]
    omega
  rw [fold, if_neg (by simp [hup]), ne_eq, ← UInt16.toNat_inj]
  simp only [UInt16.reduceToNat]
  omega

/-- A declared status is plain. -/
theorem noSecret_status {status : JsString}
    (h : Lifecycle.isState Lifecycle.workerJobMachine status = true) :
    NoSecret status ∧ endsInBearerGap status = false := by
  have hplain : ∀ status ∈ Lifecycle.workerJobDefinition.states,
      scrubString status = status ∧ endsInBearerGap status = false := by decide +kernel
  exact (hplain status (of_decide_eq_true h)).imp_left noSecret_of_scrubString

variable {job : JobPayload}

/-- When the sentence about a used budget survives. -/
theorem scrubString_budgetDetail_iff (h : job.exhausted = true) :
    scrubString (budgetDetail job) = budgetDetail job ↔ uncut (budgetDetail job) = true := by
  simp only [exhausted, Bool.and_eq_true] at h
  have hunits : ∀ c ∈ numberText job.maxAttempts, isPlainUnit c = true ∧ fold c ≠ 98 :=
    fun c hc ↦ isPlainUnit_of_isNumberUnit (Decimal.isNumberUnit_of_mem_text hc)
  obtain ⟨hstatus, hend⟩ := noSecret_status h.1.1
  simp only [budgetDetail, append_assoc]
  rw [scrubString_lead_append_iff (isLead_words _ (by simp)) (by decide),
    noSecret_append_middle (noSecret_of_isPlainUnit fun c hc ↦ (hunits c hc).1)
      (isMiddle_words _ (by simp)),
    noSecret_append_period hstatus]
  exact and_iff_right ⟨endsInBearer_eq_false fun c hc ↦ (hunits c hc).2, hend⟩

theorem scrubString_progressDetail (h : job.pending = true) :
    scrubString (progressDetail job) = progressDetail job := by
  simp only [pending, Bool.or_eq_true, decide_eq_true_eq] at h
  rw [progressDetail]
  rcases h with h | h <;> rw [h] <;> decide +kernel

/-! ### What survives -/

section

variable (env : Env) (input : ReconciliationInput)

/-- **What the quoted values have to be like**, for the checks that quote any. -/
structure Details : Prop where
  ledgerEntryPresent : ∀ entry ∈ input.storedBalances, unsettled input entry = true →
    endsInBearer entry.asset = false ∧ uncut (ledgerEntryDetail entry) = true
  amountAgrees : ∀ entry ∈ input.storedBalances, ∀ reference,
    ledgerEntry input entry.balanceKey = some reference →
      amountsEqual entry.balance reference.balance = false →
        (endsInBearer entry.asset = false ∧ endsInBearerGap reference.reference = false) ∧
          128 < (amountDetail entry reference).length ∧
          uncut (amountDetail entry reference) = true
  singleLinePerAsset : ∀ entry ∈ duplicates input.storedBalances StoredBalance.balanceKey,
    endsInBearerGap entry.account = false ∧ uncut (singleLineDetail entry) = true
  budgetConsistent : ∀ job ∈ input.jobs, job.exhausted = true → uncut (budgetDetail job) = true
  dedupeUnique : ∀ repeated ∈ repeatedJobs input,
    endsInBearerGap repeated.2 = false ∧ uncut (dedupeDetail repeated.2) = true
  operationSettles : ∀ record ∈ input.operations, record.unsettled env input = true →
    endsInBearer record.op = false ∧ uncut (operationDetail record) = true

variable {env input}

variable (env input) in
/-- The sentences of a check survive. -/
abbrev Clean (invariant : Invariant) : Prop :=
  ∀ v ∈ violations env input invariant, scrubString v.detail = v.detail

/-- **The sentences that survive.** -/
theorem details_iff (h : NoSecrets input) :
    Details env input ↔ ∀ invariant, Clean env input invariant := by
  have haccount : ∀ entry ∈ input.storedBalances, NoSecret entry.account :=
    fun entry hentry ↦ h.storedBalances entry hentry _ (by simp [StoredBalance.texts])
  have hasset : ∀ entry ∈ input.storedBalances, NoSecret entry.asset :=
    fun entry hentry ↦ h.storedBalances entry hentry _ (by simp [StoredBalance.texts])
  have hreference : ∀ key reference, ledgerEntry input key = some reference →
      NoSecret reference.reference := fun key reference hkey ↦
    h.ledgerBalances reference (mem_reverse.1 (mem_of_find?_eq_some hkey)) _
      (by simp [LedgerBalance.texts])
  have hkey : ∀ repeated ∈ repeatedJobs input, NoSecret repeated.2 := fun repeated hrepeated ↦
    h.jobs repeated.1 (mem_filter.1 (mem_repeatedJobs hrepeated).1).1 repeated.2
      (by simp [texts, (mem_repeatedJobs hrepeated).2])
  have hop : ∀ record ∈ input.operations, NoSecret record.op :=
    fun record hrecord ↦ h.operations record hrecord _ (by simp [OperationRecord.texts])
  have hledgerEntry : Clean env input .ledgerEntryPresent ↔ _ :=
    forall_mem_map_filter.trans (forall₃_congr fun entry hentry _ ↦
      scrubString_ledgerEntryDetail_iff (haccount entry hentry) (hasset entry hentry))
  have hamount : Clean env input .amountAgrees ↔ _ :=
    forall_mem_checkAmountAgrees.trans (forall₅_congr
      fun entry hentry reference hledger _ ↦
        scrubString_amountDetail_iff (hasset entry hentry) (hreference _ reference hledger))
  have hsingleLine : Clean env input .singleLinePerAsset ↔ _ :=
    forall_mem_map.trans (forall₂_congr fun entry hentry ↦
      scrubString_lead_period_iff (isLead_words _ (by simp)) (by decide)
        (haccount entry (mem_of_mem_duplicates hentry)))
  have hbudget : Clean env input .budgetConsistent ↔ _ :=
    forall_mem_map_filter.trans (forall₃_congr fun _ _ ↦ scrubString_budgetDetail_iff)
  have hdedupe : Clean env input .dedupeUnique ↔ _ :=
    forall_mem_map.trans (forall₂_congr fun repeated hrepeated ↦
      scrubString_lead_period_iff (isLead_words _ (by simp)) (by decide) (hkey repeated hrepeated))
  have hoperation : Clean env input .operationSettles ↔ _ :=
    forall_mem_map_filter.trans (forall₃_congr fun record hrecord _ ↦
      scrubString_operationDetail_iff (hop record hrecord))
  constructor
  · rintro hd (_ | _ | _ | _ | _ | _ | _ | _ | _ | _ | _ | _ | _)
    · exact hledgerEntry.2 hd.ledgerEntryPresent
    · exact hamount.2 hd.amountAgrees
    · exact hsingleLine.2 hd.singleLinePerAsset
    · refine forall_mem_map.2 fun _ _ ↦ ?_
      dsimp only
      decide +kernel
    · exact hbudget.2 hd.budgetConsistent
    · exact hdedupe.2 hd.dedupeUnique
    · refine forall_mem_map.2 fun job hjob ↦ scrubString_progressDetail ?_
      exact (mem_filter.1 (mem_filter.1 hjob).1).2
    · refine (forall_mem_checkClaims (Q := fun _ _ detail ↦ scrubString detail = detail)).2 ?_
      exact fun record _ ↦
        ⟨fun _ ↦ by cases record.status <;> decide +kernel, fun _ _ ↦ by decide +kernel⟩
    -- the next four quote nothing
    iterate 4
      · refine forall_mem_map.2 fun _ _ ↦ ?_
        dsimp only
        decide +kernel
    · exact hoperation.2 hd.operationSettles
  · exact fun hd ↦ ⟨hledgerEntry.1 (hd .ledgerEntryPresent), hamount.1 (hd .amountAgrees),
      hsingleLine.1 (hd .singleLinePerAsset), hbudget.1 (hd .budgetConsistent),
      hdedupe.1 (hd .dedupeUnique), hoperation.1 (hd .operationSettles)⟩

/-- In a snapshot without secrets no identity is one. -/
theorem NoSecrets.identities (h : NoSecrets input) :
    Identities env input fun _ id ↦ NoSecret id := by
  have hline : ∀ entry ∈ input.storedBalances, NoSecret entry.balanceKey := by
    intro entry hentry
    have htexts := h.storedBalances entry hentry
    rw [StoredBalance.balanceKey, keyOf, append_assoc, show js "|" = [124] by decide,
      singleton_append,
      noSecret_append_barrier (by decide) (by decide) (by decide) (by decide)]
    exact ⟨htexts _ (by simp [StoredBalance.texts]), htexts _ (by simp [StoredBalance.texts])⟩
  have hjob : ∀ job ∈ input.jobs, NoSecret job.id :=
    fun job hmem ↦ h.jobs job hmem _ (by simp [texts])
  have hpending : ∀ job ∈ pendingJobs input, NoSecret job.id :=
    fun job hmem ↦ hjob job (mem_filter.1 hmem).1
  have hnotification : ∀ entry ∈ input.notifications, NoSecret entry.id :=
    fun entry hmem ↦ h.notifications entry hmem _ (by simp [Notification.texts])
  have henvelope : ∀ envelope ∈ input.exportEnvelopes, NoSecret envelope.correlationId :=
    fun envelope hmem ↦ h.exportEnvelopes envelope hmem _ (by simp [ExportEnvelope.texts])
  constructor
  · exact fun entry hmem _ ↦ hline entry hmem
  · exact fun entry hmem _ _ _ ↦ hline entry hmem
  · exact fun entry hmem ↦ hline entry (mem_of_mem_duplicates hmem)
  · exact fun job hmem _ ↦ hjob job hmem
  · exact fun job hmem _ ↦ hjob job hmem
  · exact fun repeated hmem ↦ hpending repeated.1 (mem_repeatedJobs hmem).1
  · exact fun job hmem ↦ hpending job (mem_filter.1 hmem).1
  · exact fun record hmem _ ↦
      h.idempotencyRecords record hmem _ (by simp [IdempotencyRecord.texts])
  · exact fun envelope hmem _ ↦ henvelope envelope hmem
  · exact fun envelope hmem _ ↦ henvelope envelope hmem
  · exact fun entry hmem _ ↦ hnotification entry hmem
  · exact fun entry hmem ↦ hnotification entry (mem_of_mem_duplicates hmem)
  · exact fun record hmem _ ↦ h.operations record hmem _ (by simp [OperationRecord.texts])

/-- **All texts survive exactly under the two conditions.** -/
theorem kept_violations_iff (h : NoSecrets input) :
    (∀ invariant, ∀ v ∈ violations env input invariant, Kept (finding v).redact v) ↔
      Identities env input (fun invariant id ↦ shown invariant id = true) ∧ Details env input := by
  have hids : ∀ invariant, ∀ v ∈ violations env input invariant, NoSecret v.recordId :=
    identities_iff.1 h.identities
  have hone : ∀ invariant, ∀ v ∈ violations env input invariant,
      (Kept (finding v).redact v ↔
        shown invariant v.recordId = true ∧ scrubString v.detail = v.detail) := by
    intro invariant v hv
    rw [kept_iff (hids invariant v hv), invariant_of_mem_violations v hv]
  rw [identities_iff, details_iff h]
  constructor
  · exact fun hk ↦ ⟨fun i v hv ↦ ((hone i v hv).1 (hk i v hv)).1,
      fun i v hv ↦ ((hone i v hv).1 (hk i v hv)).2⟩
  · exact fun hk i v hv ↦ (hone i v hv).2 ⟨hk.1 i v hv, hk.2 i v hv⟩

end

/-! ### The report -/

variable {input : ReconciliationInput} {runId : JsString} {report : ReconciliationReport}

section

variable {env : Env}

/-- **The report shows what the checks had to say.** -/
def Survives (report : ReconciliationReport) (said : List Violation) : Prop :=
  List.Forall₂ Kept report.findings said

/-- A report survives if each of its findings does. -/
theorem survives_iff (h : reconcile env input runId = some report) :
    Survives report (allViolations env input) ↔
      ∀ invariant, ∀ v ∈ violations env input invariant, Kept (finding v).redact v := by
  rw [Survives, findings_reconcile h, forall₂_map_left_iff, forall₂_same]
  exact ⟨fun hk i v hv ↦ hk v (mem_allViolations.2 ⟨i, hv⟩),
    fun hk v hv ↦ (mem_allViolations.1 hv).elim fun i hv ↦ hk i v hv⟩

end

/-! ### Finding the records again -/

/-- What the planner says of a finding whose record it cannot find. -/
def lostReasons : List JsString :=
  [js "the record identity contains a redacted secret; handle it as a security incident",
    js "the stored line could not be located in the snapshot",
    js "the stored or ledger line could not be located in the snapshot",
    js "the duplicate lines could not be located in the snapshot", jobNotLocated,
    js "the record could not be located in the snapshot",
    js "the envelope could not be located in the snapshot",
    js "the notification could not be located in the snapshot",
    js "the duplicate entries could not be located in the snapshot"]

/-- **What the planner needs to find every record again.** -/
structure Locatable (env : Env) (input : ReconciliationInput) : Prop where
  /-- No identity that a repair goes by has the mark in it. -/
  unmarked : Identities env input fun invariant id ↦
    (repairStrategies invariant).isSome = true → includes id redacted = false
  /-- The first job with the id of a repeated one has a dedupe key. -/
  jobs : ∀ repeated ∈ repeatedJobs input,
    ((input.jobs.find? fun job ↦ job.id = repeated.1.id).bind JobPayload.dedupeKey).isSome = true
  /-- A repeated notification is one that somebody has twice. -/
  notifications : ∀ entry ∈ duplicates input.notifications Notification.key,
    (copiesOf input entry.id).any (1 < ·.2) = true

section

variable {env : Env} {terminalJobs : List JsString} {f : Finding} {reason : JsString}

theorem notMem_lostReasons (h : reason.head? ≠ some 116) : reason ∉ lostReasons := by
  have hhead : ∀ lost ∈ lostReasons, lost.head? = some 116 := by decide +kernel
  exact fun hmem ↦ h (hhead reason hmem)

theorem dropBalanceLine_located (h : ∃ line ∈ input.storedBalances, line.balanceKey = f.recordId)
    (hmanual : dropBalanceLine input f = .manual reason) : reason ∉ lostReasons := by
  rw [dropBalanceLine] at hmanual
  split at hmanual
  · cases hmanual
    refine notMem_lostReasons ?_
    have hhead : lineNotProven.head? = some 114 := by decide +kernel
    rw [append_assoc, head?_append, hhead]
    exact fun h ↦ absurd (some.inj h) (by decide)
  · obtain ⟨line, hline, hkey⟩ := h
    obtain ⟨found, hfound, -⟩ := exists_find? hline hkey
    rw [hfound] at hmanual
    cases hmanual

theorem recacheBalance_located
    (hledger : ∃ entry ∈ input.ledgerBalances, entry.balanceKey = f.recordId)
    (hline : ∃ line ∈ input.storedBalances, line.balanceKey = f.recordId)
    (hmanual : recacheBalance input f = some (.manual reason)) : reason ∉ lostReasons := by
  obtain ⟨entry, hentry, hkey⟩ := hledger
  obtain ⟨found, hfound, -⟩ := exists_find? hentry hkey
  rw [recacheBalance, hfound] at hmanual
  split at hmanual
  · next hnone => cases hnone
  · next hnone =>
    obtain ⟨line, hmem, hkey⟩ := hline
    have hmem : line ∈ linesOf input f.recordId := mem_filter.2 ⟨hmem, by simpa using hkey⟩
    rw [hnone] at hmem
    cases hmem
  · obtain ⟨cachedAt, -, heq⟩ := map_eq_some_iff.1 hmanual
    cases heq
  · cases some.inj hmanual
    decide +kernel

theorem dedupeBalanceLines_located (h : 1 < (linesOf input f.recordId).length) :
    dedupeBalanceLines env input f ≠ some (.manual reason) := by
  intro hmanual
  rw [dedupeBalanceLines, if_neg (by omega)] at hmanual
  obtain ⟨keep, -, heq⟩ := map_eq_some_iff.1 hmanual
  cases heq

/-- A job that is there is found by its id. -/
theorem locateJob_isSome (h : ∃ job ∈ input.jobs, job.id = f.recordId) :
    ∃ job, locateJob input f = some job := by
  obtain ⟨job, hjob, hid⟩ := h
  obtain ⟨found, hfound, -⟩ := exists_find? hjob hid
  exact ⟨found, hfound⟩

theorem deadLetterJob_located (h : ∃ job ∈ input.jobs, job.id = f.recordId) :
    deadLetterJob input f ≠ .manual reason := by
  obtain ⟨job, hjob⟩ := locateJob_isSome h
  rw [deadLetterJob, hjob]
  exact fun heq ↦ by cases heq

theorem cancelDuplicateJob_located
    (h : ((locateJob input f).bind dedupeKey).isSome = true)
    (hmanual : cancelDuplicateJob env input terminalJobs f = some (.manual reason)) :
    reason ∉ lostReasons := by
  obtain ⟨key, hkey⟩ := isSome_iff_exists.1 h
  rw [cancelDuplicateJob, hkey] at hmanual
  obtain ⟨keep, -, heq⟩ := map_eq_some_iff.1 hmanual
  simp only at heq
  split at heq
  · cases heq
    decide +kernel
  · cases heq

/-- A job that is found is not reported as lost. -/
theorem requeueJob_located (h : ∃ job ∈ input.jobs, job.id = f.recordId)
    (hmanual : requeueJob input terminalJobs f = some (.manual reason)) :
    reason ∉ lostReasons := by
  obtain ⟨job, hjob⟩ := locateJob_isSome h
  rw [requeueJob, hjob] at hmanual
  simp only at hmanual
  split at hmanual
  · cases some.inj hmanual
    decide +kernel
  split at hmanual
  · cases some.inj hmanual
    decide +kernel
  · obtain ⟨next, -, heq⟩ := map_eq_some_iff.1 hmanual
    cases heq

theorem sweepIdempotency_located (h : ∃ record ∈ input.idempotencyRecords, record.key = f.recordId)
    (hmanual : sweepIdempotency env input f = .manual reason) : reason ∉ lostReasons := by
  obtain ⟨record, hrecord, hkey⟩ := h
  obtain ⟨found, hfound, -⟩ := exists_find? hrecord hkey
  rw [sweepIdempotency, hfound] at hmanual
  dsimp only at hmanual
  split at hmanual
  · cases hmanual
    decide +kernel
  · cases hmanual

theorem purgeEnvelope_located
    (h : ∃ envelope ∈ input.exportEnvelopes, envelope.correlationId = f.recordId) :
    purgeEnvelope input f ≠ .manual reason := by
  obtain ⟨envelope, henvelope, hid⟩ := h
  obtain ⟨found, hfound, -⟩ := exists_find? henvelope hid
  rw [purgeEnvelope, hfound]
  exact fun heq ↦ by cases heq

theorem dropNotification_located (h : ∃ entry ∈ input.notifications, entry.id = f.recordId) :
    dropNotification input f ≠ .manual reason := by
  obtain ⟨entry, hentry, hid⟩ := h
  have hmem : entry ∈ entriesOf input f.recordId := mem_filter.2 ⟨hentry, by simpa using hid⟩
  rw [dropNotification, if_neg (ne_nil_of_mem hmem)]
  exact fun heq ↦ by cases heq

theorem collapseNotification_located (h : (copiesOf input f.recordId).any (1 < ·.2) = true) :
    collapseNotification input f ≠ .manual reason := by
  obtain ⟨group, hgroup, hcopies⟩ := any_eq_true.1 h
  have hmem : group ∈ (copiesOf input f.recordId).filter fun group ↦ 1 < group.2 :=
    mem_filter.2 ⟨hgroup, hcopies⟩
  rw [collapseNotification, if_neg (ne_nil_of_mem hmem)]
  exact fun heq ↦ by cases heq

/-- The finding is about the record that the check speaks of. -/
structure About (f : Finding) (v : Violation) : Prop where
  invariant : f.invariant = v.invariant
  recordId : f.recordId = v.recordId

/-- **Of a record that is there the planner never says that it is not.** -/
theorem located (hv : v ∈ violations env input invariant) (hf : About f v)
    (hloc : Locatable env input)
    (hmanual : plannedFor env input terminalJobs f = some (.manual reason)) :
    reason ∉ lostReasons := by
  have hinv : f.invariant = invariant := hf.invariant.trans (invariant_of_mem_violations v hv)
  have hid := hf.recordId
  rw [plannedFor, hinv] at hmanual
  split at hmanual
  · cases some.inj hmanual
    decide +kernel
  next kind hkind =>
  have hunmarked := identities_iff.1 hloc.unmarked invariant v hv (by rw [hkind]; rfl)
  rw [hid, hunmarked, if_neg Bool.false_ne_true] at hmanual
  cases invariant <;> cases hkind <;> rw [strategy] at hmanual
  · have hrecord : ∀ v ∈ violations env input .ledgerEntryPresent,
        ∃ line ∈ input.storedBalances, line.balanceKey = v.recordId :=
      forall_mem_map_filter.2 fun line hline _ ↦ ⟨line, hline, rfl⟩
    exact dropBalanceLine_located (hid ▸ hrecord v hv) (some.inj hmanual)
  · obtain ⟨line, hline, hkey, reference, hreference, -⟩ := exists_of_mem_amount v hv
    refine recacheBalance_located ⟨reference, ?_, ?_⟩ ⟨line, hline, (hid.trans hkey).symm⟩ hmanual
    · exact mem_reverse.1 (mem_of_find?_eq_some hreference)
    · rw [hid, hkey]
      simpa using find?_some hreference
  · obtain ⟨line, -, hkey, htwo⟩ := exists_of_mem_singleLine hv
    exact absurd hmanual (dedupeBalanceLines_located (by rwa [hid, hkey]))
  · obtain ⟨job, hjob, -, hkey⟩ := exists_of_mem_budget hv
    exact absurd (some.inj hmanual)
      (deadLetterJob_located ⟨job, hjob, (hid.trans hkey).symm⟩)
  · have hrecord : ∀ v ∈ violations env input .dedupeUnique,
        ((input.jobs.find? fun job ↦ job.id = v.recordId).bind dedupeKey).isSome =
          true := forall_mem_map.2 hloc.jobs
    refine cancelDuplicateJob_located ?_ hmanual
    rw [locateJob, hid]
    exact hrecord v hv
  · have hrecord : ∀ v ∈ violations env input .progress,
        ∃ job ∈ input.jobs, job.id = v.recordId := forall_mem_map.2 fun job hjob ↦
      ⟨job, (mem_filter.1 (mem_filter.1 hjob).1).1, rfl⟩
    exact requeueJob_located (hid ▸ hrecord v hv) hmanual
  · obtain ⟨record, hrecord, hkey⟩ := exists_of_mem_claims v hv
    exact sweepIdempotency_located ⟨record, hrecord, (hid.trans hkey).symm⟩
      (some.inj hmanual)
  · obtain ⟨envelope, henvelope, -, hkey⟩ := exists_of_mem_retention hv
    exact absurd (some.inj hmanual)
      (purgeEnvelope_located ⟨envelope, henvelope, (hid.trans hkey).symm⟩)
  · obtain ⟨entry, hentry, -, hkey⟩ := exists_of_mem_notificationState hv
    exact absurd (some.inj hmanual)
      (dropNotification_located ⟨entry, hentry, (hid.trans hkey).symm⟩)
  · have hrecord : ∀ v ∈ violations env input .identityUnique,
        (copiesOf input v.recordId).any (1 < ·.2) = true :=
      forall_mem_map.2 hloc.notifications
    exact absurd (some.inj hmanual)
      (collapseNotification_located (hid ▸ hrecord v hv))

variable {plan : RepairPlan}

theorem About.kept {w : Violation} (hkept : Kept (finding w).redact w)
    (hid : (finding w).redact.id = findingId v.invariant v.recordId) :
    About (finding w).redact v := by
  rw [hkept.id] at hid
  obtain ⟨hinv, hrecord⟩ := findingId_inj hid
  exact ⟨hinv, hkept.recordId.trans hrecord⟩

/-- When all texts survive, the plan deals with everything the checks had to say. -/
theorem exists_plannedFor (hreport : reconcile env input runId = some report)
    (hkept : ∀ invariant, ∀ v ∈ violations env input invariant, Kept (finding v).redact v)
    (hplan : PlanSpec env input report.findings plan)
    (hlost : ∀ m ∈ plan.manual, m.reason ∉ lostReasons) (hv : v ∈ violations env input invariant) :
    ∃ g : Finding, About g v ∧ ∃ planned,
      plannedFor env input (terminalJobsOf report.findings) g = some planned ∧
        ∀ lost ∈ lostReasons, planned ≠ .manual lost := by
  obtain ⟨g, hg, hid, hentered⟩ :=
    hplan.entered _ ((mem_findings hreport).2 ⟨invariant, v, hv, rfl⟩)
  obtain ⟨j, w, hw, rfl⟩ := (mem_findings hreport).1 hg.mem
  refine ⟨_, .kept (hkept j w hw) (hid.trans (hkept invariant v hv).id), ?_⟩
  rcases hentered with ⟨reason, hplanned, hmem⟩ | ⟨list, hplanned, -⟩
  · refine ⟨_, hplanned, fun lost hmem' heq ↦ hlost _ hmem ?_⟩
    cases heq
    exact hmem'
  · exact ⟨_, hplanned, nofun⟩

/-- **If the planner finds every record again, the records can be found.** -/
theorem locatable_of_plan (hreport : reconcile env input runId = some report)
    (hkept : ∀ invariant, ∀ v ∈ violations env input invariant, Kept (finding v).redact v)
    (hplan : PlanSpec env input report.findings plan)
    (hlost : ∀ m ∈ plan.manual, m.reason ∉ lostReasons) : Locatable env input := by
  have hunmarked : ∀ invariant, ∀ v ∈ violations env input invariant,
      (repairStrategies invariant).isSome = true → includes v.recordId redacted = false := by
    intro invariant v hv hstrategy
    obtain ⟨kind, hkind⟩ := isSome_iff_exists.1 hstrategy
    obtain ⟨g, hg, planned, hplanned, hnot⟩ := exists_plannedFor hreport hkept hplan hlost hv
    refine Bool.eq_false_iff.2 fun hmark ↦ ?_
    have hinv : g.invariant = invariant := hg.invariant.trans (invariant_of_mem_violations v hv)
    rw [plannedFor, hinv, hkind] at hplanned
    simp only [hg.recordId, hmark, if_true] at hplanned
    exact hnot _ (by decide +kernel) (some.inj hplanned).symm
  -- a finding with this strategy and a record that is shown is planned for by the strategy
  have hstrategy : ∀ {invariant : Invariant} {kind : RepairActionKind} {v : Violation},
      v ∈ violations env input invariant → repairStrategies invariant = some kind →
      ∃ g : Finding, g.recordId = v.recordId ∧ ∀ lost ∈ lostReasons,
        strategy env input (terminalJobsOf report.findings) g kind ≠ some (.manual lost) := by
    intro invariant kind v hv hkind
    obtain ⟨g, hg, planned, hplanned, hnot⟩ := exists_plannedFor hreport hkept hplan hlost hv
    have hinv : g.invariant = invariant := hg.invariant.trans (invariant_of_mem_violations v hv)
    have hmark := hunmarked invariant v hv (by rw [hkind]; rfl)
    rw [plannedFor, hinv, hkind] at hplanned
    simp only [hg.recordId, hmark] at hplanned
    refine ⟨g, hg.recordId, fun lost hmem hmanual ↦ hnot lost hmem ?_⟩
    exact mem_unique hplanned hmanual
  have hjobs : ∀ v ∈ violations env input .dedupeUnique,
      ((input.jobs.find? fun job ↦ job.id = v.recordId).bind dedupeKey).isSome = true := by
    intro v hv
    obtain ⟨g, hid, hnot⟩ := hstrategy hv rfl
    rw [isSome_iff_ne_none]
    intro hnone
    refine hnot jobNotLocated (by decide +kernel) ?_
    rw [strategy, cancelDuplicateJob, locateJob, hid, hnone]
  have hnotifications : ∀ v ∈ violations env input .identityUnique,
      (copiesOf input v.recordId).any (1 < ·.2) = true := by
    intro v hv
    obtain ⟨g, hid, hnot⟩ := hstrategy hv rfl
    by_contra hnone
    refine hnot (js "the duplicate entries could not be located in the snapshot")
      (by decide +kernel) ?_
    rw [strategy, collapseNotification, hid, if_pos]
    exact filter_eq_nil_iff.2 (by simpa using hnone)
  exact ⟨identities_iff.2 hunmarked, (forall_mem_map.1 hjobs :),
    (forall_mem_map.1 hnotifications :)⟩

/-- **Findings that can be read.** For a snapshot without secrets, exactly these conditions make all
texts of a report survive; and exactly with the second one the planner then finds every record
again. -/
theorem survives_reconcile_iff (hsecrets : NoSecrets input)
    (hreport : reconcile env input runId = some report) :
    (Survives report (allViolations env input) ↔
      Identities env input (fun invariant id ↦ shown invariant id = true) ∧ Details env input) ∧
    ∀ options plan, planRepairs env report input options = some plan →
      ((Survives report (allViolations env input) ∧
          ∀ m ∈ plan.manual, m.reason ∉ lostReasons) ↔
        (Identities env input (fun invariant id ↦ shown invariant id = true) ∧
          Details env input) ∧ Locatable env input) := by
  have hsurvives := (survives_iff hreport).trans (kept_violations_iff hsecrets)
  refine ⟨hsurvives, fun options plan hplan ↦ ?_⟩
  have hspec := planSpec_planRepairs hplan
  constructor
  · rintro ⟨hkept, hlost⟩
    exact ⟨hsurvives.1 hkept,
      locatable_of_plan hreport ((survives_iff hreport).1 hkept) hspec hlost⟩
  · rintro ⟨hconditions, hloc⟩
    have hkept := hsurvives.2 hconditions
    refine ⟨hkept, fun m hm ↦ ?_⟩
    obtain ⟨f, hf, reason, hmanual, rfl⟩ := hspec.manual m hm
    obtain ⟨invariant, v, hv, rfl⟩ := (mem_findings hreport).1 hf
    have hrecord := ((survives_iff hreport).1 hkept invariant v hv).recordId
    exact located hv ⟨rfl, hrecord⟩ hloc hmanual

end

/-- A queued job that has used its only attempt. -/
def exhaustedJob (id : JsString) : JobPayload where
  id := id
  operation := js "mail"
  dedupeKey := none
  maxAttempts := 1
  attempts := 1
  status := js "queued"
  enqueuedAt := js "1970-01-01T00:00:00.000Z"
  nextAttemptAt := none
  lastError := none
  correlationId := js "c1"

/-- A snapshot with one such job. -/
def oneJob (id : JsString) : ReconciliationInput :=
  { emptySnapshot 0 with jobs := [exhaustedJob id] }

theorem noSecrets_oneJob {id : JsString} (h : NoSecret id) : NoSecrets (oneJob id) := by
  refine ⟨?_, ?_, fun job hjob t ht ↦ ?_, ?_, ?_, ?_, ?_⟩
  · exact nofun
  · exact nofun
  · rw [oneJob, mem_singleton] at hjob
    subst hjob
    simp only [texts, exhaustedJob, toList_none, append_nil, mem_cons, not_mem_nil, or_false] at ht
    rcases ht with rfl | rfl | rfl | rfl | rfl
    · exact h
    all_goals exact noSecret_of_short (by decide) (by decide)
  · exact nofun
  · exact nofun
  · exact nofun
  · exact nofun

/-- The finding about a job with a plain id survives, and the job is planned for. -/
theorem survives_reconcile_plainJob :
    ∃ report plan, reconcile plainEnv (oneJob (js "job-1")) (js "run") = some report ∧
      planRepairs plainEnv report (oneJob (js "job-1")) plainOptions = some plan ∧
      Survives report (allViolations plainEnv (oneJob (js "job-1"))) ∧
      ∀ m ∈ plan.manual, m.reason ∉ lostReasons := by
  have hsome : (planOf plainEnv (oneJob (js "job-1")) (js "run") plainOptions).isSome = true := by
    decide +kernel
  obtain ⟨plan, hplanOf⟩ := isSome_iff_exists.1 hsome
  obtain ⟨report, hreport, hplan⟩ := bind_eq_some_iff.1 hplanOf
  refine ⟨report, plan, hreport, hplan, ?_⟩
  have hsecrets : NoSecrets (oneJob (js "job-1")) :=
    noSecrets_oneJob (noSecret_of_short (by decide) (by decide))
  refine ((survives_reconcile_iff hsecrets hreport).2 _ plan hplan).2 ⟨⟨?_, ?_⟩, ?_⟩
  · constructor <;> decide +kernel
  · constructor <;> decide +kernel
  · refine ⟨?_, by decide +kernel, by decide +kernel⟩
    constructor <;> decide +kernel

/-- **A job whose id starts with `M` is taken for a secret.** Its finding is about `[REDACTED]`, and
the plan leaves it to a human as a security incident. -/
theorem reconcile_mailDigest :
    NoSecrets (oneJob (js "Mail-digest-7")) ∧
    ∃ report plan, reconcile plainEnv (oneJob (js "Mail-digest-7")) (js "run") = some report ∧
      planRepairs plainEnv report (oneJob (js "Mail-digest-7")) plainOptions = some plan ∧
      report.findings.map Finding.recordId = [redacted] ∧
      plan.manual.map ManualFollowUp.reason =
        [js "the record identity contains a redacted secret; handle it as a security incident"] ∧
      ¬ Survives report (allViolations plainEnv (oneJob (js "Mail-digest-7"))) := by
  refine ⟨noSecrets_oneJob (noSecret_of_short (by decide) (by decide)), ?_⟩
  have hmanual : (planOf plainEnv (oneJob (js "Mail-digest-7")) (js "run") plainOptions).map
      (fun plan ↦ plan.manual.map ManualFollowUp.reason) = some [js "the record identity " ++
        js "contains a redacted secret; handle it as a security incident"] := by
    decide +kernel
  obtain ⟨plan, hplanOf, hreasons⟩ := map_eq_some_iff.1 hmanual
  obtain ⟨report, hreport, hplan⟩ := bind_eq_some_iff.1 hplanOf
  have hrecords : report.findings.map Finding.recordId = [redacted] := by
    rw [findings_reconcile hreport]
    decide +kernel
  refine ⟨report, plan, hreport, hplan, hrecords, hreasons, fun hkept ↦ ?_⟩
  have hids : report.findings.map Finding.recordId =
      (allViolations plainEnv (oneJob (js "Mail-digest-7"))).map Violation.recordId :=
    forall₂_eq_eq_eq ▸ forall₂_map_left_iff.2 (forall₂_map_right_iff.2
      (hkept.imp fun _ _ h ↦ h.recordId))
  rw [hrecords] at hids
  exact absurd hids (by decide +kernel)

end Utix.Reconciliation

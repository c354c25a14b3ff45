import Utix.Idempotency.Interleaved
import Utix.Webhooks.Verifier

/-!
# What a webhook signature covers

The signed string joins the timestamp, the nonce and the payload with dots, and each of the three
can have dots of its own. `readings` lists the ways to take such a string apart into the parts of a
message that the verifier accepts. A signature covers one message exactly if there is one way
(`signature_covers_one_iff`).

The string is hashed as UTF-8, so the nonce must not be one of several that are encoded alike.

A timestamp is a decimal of any length. JavaScript prints a number with at most 17 digits, so where
only such a text makes for a second reading (`1700000000.20240101`, of a timestamp and the head of a
nonce) no message has it: the condition is exact for timestamps as decimals, and sufficient for
those that are JavaScript numbers. In the other direction a second reading with a text that is
printed is always a second message, and `signature_of_two_messages` is one of whole numbers.
-/

namespace Utix.Webhooks

open Js JsValue List JsNum

/-! ### The ways to read a signed string -/

/-- The ways to cut a string at a dot. -/
def cuts : JsString → List (JsString × JsString)
  | [] => []
  | c :: s =>
    (if c = 46 then [([], s)] else []) ++ (cuts s).map fun cut ↦ (c :: cut.1, cut.2)

/-- The number that is written this way. Decimals are not rounded here, so a text with more digits
than a JavaScript number prints is counted too. -/
def numberOf (text : JsString) : Option Decimal :=
  match Decimal.parseNumber text with
  | some (d, []) => if d.text = text then some d else none
  | _ => none

/-- The text is that of a payload that the verifier accepts. -/
def isPayload (text : JsString) : Bool :=
  text = js "undefined" ||
    text.length ≤ maxWebhookDataLength && (parse text).any fun v ↦ stringify v = text

/-- The nonce is one that the verifier accepts. -/
def isNonce (nonce : JsString) : Bool := nonce ≠ [] && nonce.length ≤ maxWebhookNonceLength

/-- **The ways to read a signed string** as a timestamp, a nonce and a payload. -/
def readings (s : JsString) : List (Decimal × JsString × JsString) :=
  (cuts s).flatMap fun first ↦
    match numberOf first.1 with
    | none => []
    | some timestamp =>
      ((cuts first.2).filter fun second ↦ isNonce second.1 && isPayload second.2).map
        fun second ↦ (timestamp, second.1, second.2)

/-- The signed string of a message can be read in one way only, and its nonce is encoded as no other
nonce is. -/
def HasOneReading (signed : Signed) : Prop :=
  replacement ∉ toWellFormed signed.nonce ∧
    ∀ reading ∈ readings (toWellFormed
      (signingString signed.timestamp signed.nonce signed.data)),
      reading = (signed.timestamp, signed.nonce, payloadString signed.data)

/-! ### Cuts and parts -/

theorem mem_cuts {s a b : JsString} : (a, b) ∈ cuts s ↔ s = a ++ 46 :: b := by
  induction s generalizing a with
  | nil => simp [cuts]
  | cons c s ih =>
    rw [cuts, mem_append, mem_map]
    constructor
    · rintro (h | ⟨⟨a', b'⟩, hcut, heq⟩)
      · split at h
        next hc =>
          obtain ⟨rfl, rfl⟩ := Prod.mk.inj (mem_singleton.1 h)
          rw [hc, nil_append]
        next => cases h
      · cases heq
        rw [ih.1 hcut, cons_append]
    · intro h
      cases a with
      | nil =>
        obtain ⟨rfl, rfl⟩ := cons.inj h
        exact .inl (by simp)
      | cons d a =>
        obtain ⟨rfl, rfl⟩ := cons.inj h
        exact .inr ⟨(a, b), ih.2 rfl, rfl⟩

variable {text : JsString}

theorem numberOf_eq_some {d : Decimal} : numberOf text = some d ↔ d.text = text := by
  constructor
  · intro h
    rw [numberOf] at h
    split at h
    next e hparse =>
      split at h
      next he => rw [← Option.some.inj h, he]
      next => cases h
    next => cases h
  · rintro rfl
    have hparse : Decimal.parseNumber (d.text ++ []) = some (d, []) :=
      Decimal.parseNumber_text d (by intro c hc; cases hc)
    rw [append_nil] at hparse
    rw [numberOf, hparse]
    simp

variable {nonce : JsString}

/-- The readings of a string are the ways to join it from acceptable parts. -/
theorem mem_readings {s : JsString} {timestamp : Decimal} :
    (timestamp, nonce, text) ∈ readings s ↔
      s = timestamp.text ++ 46 :: (nonce ++ 46 :: text) ∧ isNonce nonce = true ∧
        isPayload text = true := by
  rw [readings, mem_flatMap]
  constructor
  · rintro ⟨⟨first, rest⟩, hcut, hmem⟩
    split at hmem
    · cases hmem
    next d hnumber =>
      obtain ⟨⟨second, payload⟩, hsecond, heq⟩ := mem_map.1 hmem
      obtain ⟨rfl, hpair⟩ := Prod.mk.inj heq
      cases hpair
      obtain ⟨hcut', hparts⟩ := mem_filter.1 hsecond
      refine ⟨?_, Bool.and_eq_true_iff.1 hparts⟩
      rw [mem_cuts.1 hcut, numberOf_eq_some.1 hnumber, ← mem_cuts.1 hcut']
  · rintro ⟨rfl, hnonce, hpayload⟩
    refine ⟨(timestamp.text, nonce ++ 46 :: text), mem_cuts.2 rfl, ?_⟩
    rw [numberOf_eq_some.2 rfl]
    refine mem_map.2 ⟨(nonce, text), mem_filter.2 ⟨mem_cuts.2 rfl, ?_⟩, rfl⟩
    rw [hnonce, hpayload]
    rfl

/-! ### What the verifier accepts -/

/-- The conditions of `malformedReason` on the parts of a message. -/
structure Acceptable (signed : Signed) : Prop where
  nonce : isNonce signed.nonce = true
  digest : signed.digest ≠ []
  data : checkData signed.data = .ok ()

/-- The signature object of a message with these parts. -/
def signatureOf (signed : Signed) : JsValue :=
  .obj [(js "algorithm", .str signed.algorithm.text),
    (js "timestamp", .num (.finite signed.timestamp)), (js "nonce", .str signed.nonce),
    (js "signature", .str signed.digest)]

/-- A message with these parts. -/
def messageOf (signed : Signed) : JsValue :=
  .obj [(js "data", signed.data), (js "signature", signatureOf signed)]

theorem ofText_text (algorithm : Algorithm) : Algorithm.ofText algorithm.text = some algorithm := by
  cases algorithm <;> decide

variable {signed : Signed}

variable {message : JsValue}

/-- What a message is read as is acceptable. -/
theorem acceptable_of_malformedReason (h : malformedReason message = .ok signed) :
    Acceptable signed ∧ signed.data = message.get (js "data") := by
  rw [malformedReason] at h
  split at h
  · cases h
  split at h
  · cases h
  rw [checkSignature] at h
  split at h
  · cases h
  split at h
  · split at h
    · split at h
      · cases h
      next hempty =>
      split at h
      · cases h
      next hlong =>
      split at h
      · split at h
        · cases h
        next hdigest =>
          cases hdata : checkData (message.get (js "data")) with
          | error reason => rw [hdata] at h; cases h
          | ok _ =>
            rw [hdata] at h
            cases h
            refine ⟨⟨?_, hdigest, hdata⟩, rfl⟩
            simp [isNonce, hempty, not_lt.1 hlong]
      · cases h
    · cases h
  · cases h

/-- Every acceptable triple is what some message is read as. -/
theorem malformedReason_messageOf (h : Acceptable signed) :
    malformedReason (messageOf signed) = .ok signed := by
  have hsignature : (messageOf signed).get (js "signature") = signatureOf signed := rfl
  have hdata : (messageOf signed).get (js "data") = signed.data := rfl
  rw [malformedReason, hsignature, hdata, if_neg (show ¬(messageOf signed).isObject = false from
    nofun), if_neg (show ¬(signatureOf signed).isObject = false from nofun)]
  have hnonce : signed.nonce ≠ [] ∧ signed.nonce.length ≤ maxWebhookNonceLength := by
    simpa [isNonce] using h.nonce
  have halgorithm : (signatureOf signed).get (js "algorithm") = .str signed.algorithm.text := rfl
  have htimestamp : (signatureOf signed).get (js "timestamp") =
      .num (.finite signed.timestamp) := rfl
  have hnonceField : (signatureOf signed).get (js "nonce") = .str signed.nonce := rfl
  have hdigest : (signatureOf signed).get (js "signature") = .str signed.digest := rfl
  rw [checkSignature, halgorithm, asStr, ofText_text]
  simp only [htimestamp, hnonceField, hdigest]
  rw [if_neg hnonce.1, if_neg (not_lt.2 hnonce.2), if_neg h.digest, h.data]
  rfl

theorem wellFormed_messageOf (h : signed.data.WellFormed) : (messageOf signed).WellFormed := by
  refine wellFormed_obj.2 ⟨show List.Nodup [js "data", js "signature"] by decide, ?_⟩
  simp only [forall_mem_cons, not_mem_nil, false_imp_iff, implies_true, and_true]
  refine ⟨h, wellFormed_obj.2 ⟨show List.Nodup [js "algorithm", js "timestamp", js "nonce",
    js "signature"] by decide, ?_⟩⟩
  simp only [forall_mem_cons, not_mem_nil, false_imp_iff, implies_true, and_true]
  exact ⟨trivial, trivial, trivial, trivial⟩

/-! ### Payloads -/

theorem isWellFormed_payloadString (data : JsValue) : IsWellFormed (payloadString data) := by
  rw [payloadString]
  split
  · rfl
  · exact isWellFormed_stringify data

theorem isPayload_payloadString {data : JsValue} (hwf : data.WellFormed)
    (h : checkData data = .ok ()) : isPayload (payloadString data) = true := by
  rw [payloadString]
  split
  next => rfl
  next homitted =>
    have hlength : (stringify data).length ≤ maxWebhookDataLength := by
      rw [checkData] at h
      split at h
      · cases h
      split at h
      · cases h
      split at h
      · cases h
      next hlong =>
        by_contra hlt
        exact hlong ⟨Bool.eq_false_iff.2 homitted, not_le.1 hlt⟩
    rw [isPayload, parse_stringify_jsonOf hwf]
    simp [hlength, stringify_jsonOf]

/-- Every payload text is the text of data that the verifier accepts. -/
theorem exists_data_of_isPayload (h : isPayload text = true) :
    ∃ data : JsValue, data.WellFormed ∧ checkData data = .ok () ∧ payloadString data = text := by
  rw [isPayload, Bool.or_eq_true, Bool.and_eq_true, decide_eq_true_eq, decide_eq_true_eq] at h
  rcases h with rfl | ⟨hlength, hparse⟩
  · exact ⟨.foreign .function, trivial, rfl, rfl⟩
  obtain ⟨v, hv, htext⟩ := (Option.any_eq_true _ _).1 hparse
  have htext := of_decide_eq_true htext
  have hjson := isJson_of_parse hv
  have homitted : v.isOmitted = false := by
    cases v with
    | undefined => exact absurd hjson (by simp [IsJson])
    | foreign kind => exact absurd hjson (by simp [IsJson])
    | _ => rfl
  refine ⟨v, wellFormed_of_isJson hjson, ?_, ?_⟩
  · rw [checkData, if_neg, Idempotency.hasBigint_of_isJson hjson, if_neg Bool.false_ne_true,
      htext, if_neg fun hlong ↦ absurd hlong.2 (not_lt.2 hlength)]
    rintro rfl
    cases homitted
  · rw [payloadString, homitted, if_neg Bool.false_ne_true, htext]

/-! ### One signature, one message -/

theorem isNonce_toWellFormed (nonce : JsString) :
    isNonce (toWellFormed nonce) = isNonce nonce := by
  simp only [isNonce, ne_eq, ← length_eq_zero_iff, length_toWellFormed]

theorem wellFormed_data (hwf : message.WellFormed) (h : malformedReason message = .ok signed) :
    signed.data.WellFormed := by
  rw [(acceptable_of_malformedReason h).2]
  cases message with
  | obj fs => exact Idempotency.wellFormed_field hwf _
  | _ => trivial

/-- Of the three parts only the nonce can hold a lone surrogate. -/
theorem toWellFormed_signingString (timestamp : Decimal) (nonce : JsString) (data : JsValue) :
    toWellFormed (signingString timestamp nonce data) =
      timestamp.text ++ 46 :: (toWellFormed nonce ++ 46 :: payloadString data) := by
  have hdot : isScalar 46 = true := by decide
  have htext : IsWellFormed timestamp.text := isWellFormed_text (.finite timestamp)
  rw [signingString, toWellFormed_append htext,
    toWellFormed_scalar hdot, toWellFormed_append_cons hdot, isWellFormed_payloadString data]

/-- `expectedSignature` of `verifySignature` -/
def expectedSignature (config : Config) (secret : JsString) (signed : Signed) : JsString :=
  generateSignature config (signingString signed.timestamp signed.nonce signed.data) secret
    signed.algorithm

/-- The messages have the same signed timestamp, the same nonce and the same payload. -/
def SameMessage (a b : Signed) : Prop :=
  a.timestamp = b.timestamp ∧ a.nonce = b.nonce ∧ payloadString a.data = payloadString b.data

/-- Every message that the verifier accepts structurally, and that has this digest, is this one. -/
def CoversOne (config : Config) (secret : JsString) (signed : Signed) : Prop :=
  ∀ (other : JsValue) (parts : Signed), other.WellFormed → malformedReason other = .ok parts →
    parts.algorithm = signed.algorithm →
    expectedSignature config secret parts = expectedSignature config secret signed →
      SameMessage parts signed

/-- Two nonces are encoded alike if one of them has a replacement character. -/
theorem exists_other_nonce (h : replacement ∈ toWellFormed nonce) :
    ∃ other, other ≠ nonce ∧ toWellFormed other = toWellFormed nonce := by
  by_cases hwf : IsWellFormed nonce
  · -- a lone surrogate in place of a replacement character is encoded as one
    rw [hwf] at h
    obtain ⟨before, after, rfl⟩ := append_of_mem h
    rw [IsWellFormed, toWellFormed_append_cons isScalar_replacement] at hwf
    obtain ⟨hbefore, hafter⟩ := append_inj hwf (length_toWellFormed _)
    have hafter := (cons.inj hafter).2
    refine ⟨before ++ 0xDC00 :: after, fun heq ↦ ?_, ?_⟩
    · exact absurd (cons.inj (append_cancel_left heq)).1 (by decide)
    have hlone : startsPair 0xDC00 after = false := by
      cases after with
      | nil => rfl
      | cons d after =>
        rw [startsPair, show isHighSurrogate 0xDC00 = false by decide, Bool.false_and]
    rw [toWellFormed_append hbefore, toWellFormed_lone (by decide) hlone,
      toWellFormed_append hbefore, toWellFormed_scalar isScalar_replacement]
  · exact ⟨toWellFormed nonce, hwf, isWellFormed_toWellFormed nonce⟩

/-- **A signature covers one message exactly if its string has one reading.** -/
theorem signature_covers_one_iff (config : Config)
    (hhmac : ∀ algorithm secret, Set.InjOn (config.hmac algorithm secret) {s | IsWellFormed s})
    (secret : JsString) {message : JsValue} {signed : Signed} (hwf : message.WellFormed)
    (hmessage : malformedReason message = .ok signed) :
    CoversOne config secret signed ↔ HasOneReading signed := by
  have hacceptable := (acceptable_of_malformedReason hmessage).1
  constructor
  · intro hcovers
    -- a message with other parts that are encoded alike
    have hother : ∀ (timestamp : Decimal) (nonce : JsString) (data : JsValue),
        isNonce nonce = true → data.WellFormed → checkData data = .ok () →
        toWellFormed (signingString timestamp nonce data) =
          toWellFormed (signingString signed.timestamp signed.nonce signed.data) →
        timestamp = signed.timestamp ∧ nonce = signed.nonce ∧
          payloadString data = payloadString signed.data := by
      intro timestamp nonce data hnonce hdatawf hdata hstring
      have hparts : Acceptable { signed with timestamp, nonce, data } :=
        ⟨hnonce, hacceptable.digest, hdata⟩
      refine hcovers _ _ (wellFormed_messageOf hdatawf) (malformedReason_messageOf hparts) rfl ?_
      rw [expectedSignature, expectedSignature, generateSignature, generateSignature, hstring]
    have hdatawf : signed.data.WellFormed := wellFormed_data hwf hmessage
    refine ⟨fun hmem ↦ ?_, ?_⟩
    · obtain ⟨nonce, hne, hencoded⟩ := exists_other_nonce hmem
      have hnonce : isNonce nonce = true := by
        rw [← isNonce_toWellFormed, hencoded, isNonce_toWellFormed]
        exact hacceptable.nonce
      refine hne (hother signed.timestamp nonce signed.data hnonce hdatawf hacceptable.data ?_).2.1
      rw [toWellFormed_signingString, toWellFormed_signingString, hencoded]
    · rintro ⟨timestamp, nonce, text⟩ hreading
      obtain ⟨hstring, hnonce, hpayload⟩ := mem_readings.1 hreading
      obtain ⟨data, hwf', hdata', rfl⟩ := exists_data_of_isPayload hpayload
      have hsame : toWellFormed (signingString timestamp nonce data) =
          toWellFormed (signingString signed.timestamp signed.nonce signed.data) := by
        rw [signingString, ← hstring]
        exact isWellFormed_toWellFormed _
      obtain ⟨rfl, rfl, htext⟩ := hother timestamp nonce data hnonce hwf' hdata' hsame
      rw [htext]
  · rintro ⟨hnonce, hreadings⟩ other parts hotherwf hparts halgorithm hdigest
    have hacceptable' := (acceptable_of_malformedReason hparts).1
    rw [expectedSignature, expectedSignature, generateSignature, generateSignature,
      halgorithm] at hdigest
    have hstring := hhmac _ _ (isWellFormed_toWellFormed _) (isWellFormed_toWellFormed _) hdigest
    have hdatawf : parts.data.WellFormed := wellFormed_data hotherwf hparts
    have hreading := hreadings (parts.timestamp, toWellFormed parts.nonce,
      payloadString parts.data) (mem_readings.2 ⟨?_, ?_, ?_⟩)
    · obtain ⟨htimestamp, hrest⟩ := Prod.mk.inj hreading
      obtain ⟨hencoded, htext⟩ := Prod.mk.inj hrest
      rw [← hencoded, isWellFormed_toWellFormed] at hnonce
      exact ⟨htimestamp, (isWellFormed_of_replacement_not_mem hnonce).symm.trans hencoded, htext⟩
    · rw [← hstring, toWellFormed_signingString]
    · rw [isNonce_toWellFormed]
      exact hacceptable'.nonce
    · exact isPayload_payloadString hdatawf hacceptable'.data

/-! ### A signature of two messages -/

/-- A message signed at the second 1000, with the HMAC of `plainVerifier`. -/
def signedMessage (nonce : JsString) (data : JsValue) : Signed where
  algorithm := .sha256
  timestamp := Decimal.ofInt 1000
  nonce := nonce
  digest := js "1000.n1.1.5"
  data := data

/-- A message with a nonce as they are issued, and an object for its payload. -/
def issuedMessage : Signed where
  algorithm := .sha256
  timestamp := Decimal.ofInt 1000
  nonce := js "3f9a"
  digest := js "00"
  data := .obj [(js "amount", .num (JsNum.ofInt 7))]

theorem signature_covers_issuedMessage :
    CoversOne plainVerifier [] issuedMessage := by
  have hreason : malformedReason (messageOf issuedMessage) = .ok issuedMessage :=
    malformedReason_messageOf ⟨by decide, by decide, rfl⟩
  refine (signature_covers_one_iff plainVerifier (fun _ _ _ _ _ _ h ↦ h) []
    (wellFormed_messageOf ?_) hreason).2 ?_
  · exact wellFormed_obj.2 ⟨by decide, by simp [WellFormed]⟩
  · exact ⟨by decide +kernel, by decide +kernel⟩

/-- The number `1.5`. -/
def oneAndAHalf : JsValue := .num (.finite (Decimal.normalise 15 (-1)))

/-- **The payload `1.5` under the nonce `n1` and the payload `5` under the nonce `n1.1`** have one
signature, so that a message can be presented again under a nonce that was not used. -/
theorem signature_of_two_messages :
    malformedReason (messageOf (signedMessage (js "n1") oneAndAHalf)) =
        .ok (signedMessage (js "n1") oneAndAHalf) ∧
      ¬CoversOne plainVerifier [] (signedMessage (js "n1") oneAndAHalf) := by
  have hdata : checkData oneAndAHalf = .ok () ∧ checkData (.num (ofInt 5)) = .ok () :=
    ⟨rfl, rfl⟩
  refine ⟨malformedReason_messageOf ⟨by decide, by decide, hdata.1⟩, fun hcovers ↦ ?_⟩
  have hother : malformedReason (messageOf (signedMessage (js "n1.1") (.num (ofInt 5)))) =
      .ok (signedMessage (js "n1.1") (.num (ofInt 5))) :=
    malformedReason_messageOf ⟨by decide, by decide, hdata.2⟩
  have hwf : (messageOf (signedMessage (js "n1.1") (.num (ofInt 5)))).WellFormed :=
    wellFormed_messageOf trivial
  have hsame := hcovers _ _ hwf hother rfl (by decide +kernel)
  exact absurd hsame.2.1 (by decide)

end Utix.Webhooks

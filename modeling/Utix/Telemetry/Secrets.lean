import Utix.Telemetry.Redact

/-!
# No secret survives redaction

What `redact` is for. A *secret* in a text is a part of it that matches one of the two patterns of
`scrubString`. The two replacements run one after the other on a text that may have been cut, and
none of this leaves or makes a secret, because the mark `[REDACTED]` blocks both patterns:
`noSecret_scrubString`. The walk over a value carries this to every string in it, puts the mark
under every sensitive key, and keeps the shape of the value down to `maxRedactDepth`.

The shape is kept up to two things. A value under a sensitive key is replaced whole, so an array or
object there is one text afterwards. And assigning to `__proto__` does not make a field, so nothing
is said about a field of that name.
-/

namespace Utix.Telemetry

open Js List

/-! ### Secrets in a text -/

/-- `/[SM][A-Z2-7]{55}/` -/
def IsSeed (x : JsString) : Prop :=
  ∃ mark body, x = mark :: body ∧ isSecretMark mark = true ∧ body.length = 55 ∧
    ∀ c ∈ body, isBase32 c = true

/-- `/Bearer\s+…/i`: the word, white space and token units. -/
def IsBearer (x : JsString) : Prop :=
  ∃ word spaces token, x = word ++ (spaces ++ token) ∧ word.map fold = js "bearer" ∧
    spaces ≠ [] ∧ (∀ c ∈ spaces, isSpace c = true) ∧
    token ≠ [] ∧ ∀ c ∈ token, isTokenUnit c = true

/-- The text has neither a seed nor a bearer token in it. -/
def NoSecret (s : JsString) : Prop := ¬ Occurs IsSeed s ∧ ¬ Occurs IsBearer s

theorem redacted_eq : redacted = [91, 82, 69, 68, 65, 67, 84, 69, 68, 93] := by decide

variable {r : JsString}

theorem blocks_isSeed_of {b : UInt16} (hmark : (b :: r).all (!isSecretMark ·) = true)
    (hb : isBase32 b = false) :
    Blocks (b :: r) IsSeed where
  nil := by
    rintro ⟨mark, body, hx, -⟩
    exact absurd hx (cons_ne_nil mark body).symm
  starts c hc x := by
    rintro ⟨mark, body, hx, hok, -⟩
    rw [(cons.inj hx).1.symm] at hok
    exact absurd hok (by simpa using all_eq_true.1 hmark c hc)
  barrier := by
    refine ⟨b, r, rfl, ?_⟩
    rintro x ⟨mark, body, rfl, hok, -, hbody⟩ hmem
    rcases mem_cons.1 hmem with rfl | hmem
    · exact absurd hok (by simpa using all_eq_true.1 hmark b mem_cons_self)
    · have hbad := hbody b hmem
      rw [hb] at hbad
      exact Bool.false_ne_true hbad

theorem length_of_map_fold {word : JsString} (h : word.map fold = js "bearer") :
    word.length = 6 := by
  rw [← length_map, h]
  rfl

theorem blocks_isBearer_of {b : UInt16} (hmark : 98 ∉ (b :: r).map fold)
    (hword : fold b ∉ js "bearer") (hspace : isSpace b = false) (htoken : isTokenUnit b = false) :
    Blocks (b :: r) IsBearer where
  nil := by
    rintro ⟨word, spaces, token, hx, hfold, -⟩
    have hlen := length_of_map_fold hfold
    rw [(append_eq_nil_iff.1 hx.symm).1] at hlen
    exact absurd hlen (by decide)
  starts c hc x := by
    rintro ⟨word, spaces, token, hx, hfold, -⟩
    rcases word with - | ⟨d, word⟩
    · exact absurd (length_of_map_fold hfold) (by decide)
    · rw [(cons.inj hx).1] at hc
      exact hmark (mem_map.2 ⟨d, hc, (cons.inj hfold).1⟩)
  barrier := by
    refine ⟨b, r, rfl, ?_⟩
    rintro x ⟨word, spaces, token, rfl, hfold, -, hspaces, -, hunits⟩ hmem
    rcases mem_append.1 hmem with hmem | hmem
    · exact hword (hfold ▸ mem_map_of_mem hmem)
    rcases mem_append.1 hmem with hmem | hmem
    · exact Bool.false_ne_true (hspace.symm.trans (hspaces b hmem))
    · exact Bool.false_ne_true (htoken.symm.trans (hunits b hmem))

/-- No seed overlaps the mark. -/
theorem blocks_isSeed : Blocks redacted IsSeed :=
  redacted_eq ▸ blocks_isSeed_of (by decide) (by decide)

/-- Nor does a bearer token. -/
theorem blocks_isBearer : Blocks redacted IsBearer :=
  redacted_eq ▸ blocks_isBearer_of (by decide) (by decide) (by decide) (by decide)

/-! ### The matchers find them -/

/-- A seed at the head of a text is what the first pattern finds there. -/
theorem keyLength_of_isSeed {x t : JsString} (hpre : x <+: t) (hx : IsSeed x) :
    keyLength isSecretMark t = some 56 := by
  obtain ⟨v, rfl⟩ := hpre
  obtain ⟨mark, body, rfl, hmark, hlen, hbody⟩ := hx
  have htake : (body ++ v).take 55 = body := by rw [← hlen, take_left]
  rw [cons_append, keyLength, if_pos]
  simp only [htake, hmark, Bool.true_and, Bool.and_eq_true, decide_eq_true_eq, length_append,
    hlen, all_eq_true]
  exact ⟨by omega, hbody⟩

theorem isSpace_eq_false_of_isTokenUnit {c : UInt16} (h : isTokenUnit c = true) :
    isSpace c = false := by
  refine isSpace_eq_false_of_printable ?_
  simp only [isTokenUnit, isAlnum, isUpper, isLower, isDigit, Bool.or_eq_true, Bool.and_eq_true,
    decide_eq_true_eq, beq_iff_eq, UInt16.le_iff_toNat_le, ← UInt16.toNat_inj,
    UInt16.reduceToNat] at h
  omega

theorem takeWhile_eq_left {p : UInt16 → Bool} {l : JsString} (hl : ∀ c ∈ l, p c = true)
    (hr : ∀ c ∈ r.head?, p c = false) : (l ++ r).takeWhile p = l := by
  rw [takeWhile_append_of_pos hl]
  rcases r with - | ⟨c, r⟩
  · simp
  · rw [takeWhile_cons_of_neg (by simp [hr c rfl]), append_nil]

/-- A token at the head of a text is found by the second pattern, which may take more. -/
theorem bearerParts_of_isBearer {x t : JsString} (hpre : x <+: t) (hx : IsBearer x) :
    ∃ spaces token, bearerParts t = some (6 + spaces, token + 1) := by
  obtain ⟨v, rfl⟩ := hpre
  obtain ⟨word, spaces, token, rfl, hword, hne, hspaces, htoken, hunits⟩ := hx
  have hlen := length_of_map_fold hword
  rw [append_assoc, append_assoc]
  have hdrop : (word ++ (spaces ++ (token ++ v))).drop 6 = spaces ++ (token ++ v) := by
    rw [← hlen, drop_left]
  obtain ⟨c, rest, rfl⟩ := exists_cons_of_ne_nil htoken
  have hwhile : (spaces ++ (c :: rest ++ v)).takeWhile isSpace = spaces := by
    refine takeWhile_eq_left hspaces fun d hd ↦ ?_
    obtain rfl : c = d := Option.some.inj hd
    exact isSpace_eq_false_of_isTokenUnit (hunits c mem_cons_self)
  have hstarts : startsWithFold (js "bearer") (word ++ (spaces ++ (c :: rest ++ v))) = true := by
    have hsix : (js "bearer").length = word.length := by rw [hlen]; rfl
    rw [startsWithFold, hsix, take_left, hword]
    exact beq_self_eq_true _
  have hdrop' : (word ++ (spaces ++ (c :: rest ++ v))).drop (6 + spaces.length) =
      c :: rest ++ v := by
    rw [← drop_drop, hdrop, drop_left]
  rw [bearerParts, if_pos hstarts]
  simp only [hdrop, hwhile, hdrop']
  rw [cons_append, takeWhile_cons_of_pos (hunits c mem_cons_self), if_neg (by simp [hne])]
  exact ⟨spaces.length, _, rfl⟩

/-! ### Scrubbing -/

variable {s : JsString}

/-- A short text without white space has no secret in it. -/
theorem noSecret_of_short (hlen : s.length < 56) (hspace : s.all (!isSpace ·) = true) :
    NoSecret s := by
  constructor
  · rintro ⟨x, hin, mark, body, rfl, -, hbody, -⟩
    have hle := hin.length_le
    rw [length_cons, hbody] at hle
    omega
  · rintro ⟨x, hin, word, spaces, token, rfl, -, hne, hspaces, -⟩
    obtain ⟨c, rest, rfl⟩ := exists_cons_of_ne_nil hne
    have hnot := all_eq_true.1 hspace c (hin.subset (by simp))
    exact absurd (hspaces c mem_cons_self) (by simpa using hnot)

/-- The two replacements leave no secret. -/
theorem noSecret_replaceAll (candidate : JsString) :
    NoSecret (replaceAll embeddedBearer redacted
      (replaceAll embeddedSecret redacted candidate)) := by
  have hseed : ¬ Occurs IsSeed (replaceAll embeddedSecret redacted candidate) :=
    blocks_isSeed.not_occurs_replaceAll
      (fun _ _ _ hpre hx ↦ ⟨55, keyLength_of_isSeed hpre hx⟩) candidate
  refine ⟨blocks_isSeed.not_occurs_replaceAll_of_not_occurs hseed,
    blocks_isBearer.not_occurs_replaceAll (fun _ t _ hpre hx ↦ ?_) _⟩
  obtain ⟨spaces, token, hparts⟩ := bearerParts_of_isBearer hpre hx
  rw [embeddedBearer, hparts]
  exact ⟨_, rfl⟩

/-- **No secret survives scrubbing.** -/
theorem noSecret_scrubString (s : JsString) : NoSecret (scrubString s) := by
  rw [scrubString]
  split
  · exact noSecret_of_short (by decide) (by decide)
  · exact noSecret_replaceAll _

/-! ### Parts of a value -/

/-- `w` is the value `v` or a part of it. -/
inductive Within (w : JsValue) : JsValue → Prop
  | self : Within w w
  | elem {xs : List JsValue} {x : JsValue} (hx : x ∈ xs) (h : Within w x) : Within w (.arr xs)
  | field {fs : Fields} {f : JsString × JsValue} (hf : f ∈ fs) (h : Within w f.2) :
      Within w (.obj fs)

variable {w : JsValue} {xs : List JsValue}

theorem within_arr (h : Within w (.arr xs)) : w = .arr xs ∨ ∃ x ∈ xs, Within w x := by
  cases h with
  | self => exact .inl rfl
  | elem hx h => exact .inr ⟨_, hx, h⟩

variable {fs : Fields}

theorem within_obj (h : Within w (.obj fs)) : w = .obj fs ∨ ∃ f ∈ fs, Within w f.2 := by
  cases h with
  | self => exact .inl rfl
  | field hf h => exact .inr ⟨_, hf, h⟩

theorem within_str (h : Within w (.str s)) : w = .str s := by
  cases h
  rfl

/-- Every string in the value is free of secrets, and every sensitive key has the mark under it. -/
structure Scrubbed (v : JsValue) : Prop where
  strings : ∀ s, Within (.str s) v → NoSecret s
  marked : ∀ fs, Within (.obj fs) v → ∀ f ∈ fs, isSensitiveKey f.1 = true → f.2 = .str redacted

theorem scrubbed_str (h : NoSecret s) : Scrubbed (.str s) where
  strings t ht := by
    cases within_str ht
    exact h
  marked fs hfs := by cases within_str hfs

theorem scrubbed_arr (h : ∀ x ∈ xs, Scrubbed x) : Scrubbed (.arr xs) where
  strings s hs := by
    obtain heq | ⟨x, hx, hs⟩ := within_arr hs
    · cases heq
    · exact (h x hx).strings s hs
  marked fs hfs := by
    obtain heq | ⟨x, hx, hfs⟩ := within_arr hfs
    · cases heq
    · exact (h x hx).marked fs hfs

theorem scrubbed_obj (h : ∀ f ∈ fs, Scrubbed f.2)
    (hmark : ∀ f ∈ fs, isSensitiveKey f.1 = true → f.2 = .str redacted) : Scrubbed (.obj fs) where
  strings s hs := by
    obtain heq | ⟨f, hf, hs⟩ := within_obj hs
    · cases heq
    · exact (h f hf).strings s hs
  marked gs hgs := by
    obtain heq | ⟨f, hf, hgs⟩ := within_obj hgs
    · cases heq
      exact hmark
    · exact (h f hf).marked gs hgs

variable {a : Bool} {depth : ℕ}

/-- What is under a sensitive key is the mark. -/
theorem marked_redactFields (fs : Fields) :
    ∀ g ∈ redactFields a depth fs, isSensitiveKey g.1 = true → g.2 = .str redacted := by
  induction fs with
  | nil => rw [redactFields]; simp
  | cons f fs ih =>
    obtain ⟨k, x⟩ := f
    rw [redactFields]
    split
    · exact ih
    intro g hg hkey
    rcases mem_cons.1 hg with rfl | hg
    · exact if_pos hkey
    · exact ih g hg hkey

/-- **Redaction scrubs every string and marks every sensitive key.** -/
theorem scrubbed_redact (v : JsValue) (depth : ℕ) : Scrubbed (redact false depth v) := by
  have hmark : Scrubbed (.str redacted) :=
    scrubbed_str (noSecret_of_short (by decide) (by decide))
  have hcut : Scrubbed (.str (js "[TRUNCATED_DEPTH]")) :=
    scrubbed_str (noSecret_of_short (by decide) (by decide))
  induction v using JsValue.induct generalizing depth with
  | str s =>
    rw [redact]
    exact scrubbed_str (noSecret_scrubString s)
  | arr xs ih =>
    rw [redact]
    split
    · exact hcut
    · exact scrubbed_arr (forall_mem_redactElems fun x hx ↦ ih x hx (depth + 1))
  | obj fs ih =>
    rw [redact]
    split
    · exact hcut
    · exact scrubbed_obj (forall_mem_redactFields hmark fun f hf ↦ ih f hf (depth + 1))
        (marked_redactFields fs)
  | foreign kind => cases kind <;> simp only [redact] <;> constructor <;> intro _ h <;> cases h
  | _ => rw [redact]; constructor <;> intro _ h <;> cases h

/-! ### Shape -/

/-- Not an array or object. -/
def isLeaf : JsValue → Bool
  | .arr _ => false
  | .obj _ => false
  | _ => true

/-- **The same shape down to a depth**: arrays of one length, objects with the same keys in the same
order, and members of the same shape. Fields under a key in `lost` are not looked at, and of those
under a key in `closed` only the key is. -/
def SameShape (lost closed : JsString → Bool) : ℕ → JsValue → JsValue → Prop
  | 0, _, _ => True
  | n + 1, .arr xs, .arr ys => List.Forall₂ (SameShape lost closed n) xs ys
  | n + 1, .obj fs, .obj gs =>
    List.Forall₂ (fun f g ↦ f.1 = g.1 ∧ (closed f.1 = false → SameShape lost closed n f.2 g.2))
      (fs.filter fun f ↦ !lost f.1) (gs.filter fun g ↦ !lost g.1)
  | _ + 1, v, w => isLeaf v = true ∧ isLeaf w = true

variable {R : JsValue → JsValue → Prop}

theorem forall₂_redactElems (h : ∀ x ∈ xs, R x (redact a depth x)) :
    List.Forall₂ R xs (redactElems a depth xs) := by
  induction xs with
  | nil => rw [redactElems]; exact .nil
  | cons x xs ih =>
    rw [redactElems]
    exact .cons (h x mem_cons_self) (ih fun y hy ↦ h y (mem_cons_of_mem _ hy))

/-- The key that an assignment does not make a field of. -/
def isProto (key : JsString) : Bool := key = js "__proto__"

theorem forall₂_redactFields (h : ∀ f ∈ fs, R f.2 (redact a depth f.2)) :
    List.Forall₂ (fun f g ↦ f.1 = g.1 ∧ (isSensitiveKey f.1 = false → R f.2 g.2))
      (fs.filter fun f ↦ !isProto f.1) ((redactFields a depth fs).filter fun g ↦ !isProto g.1) := by
  induction fs with
  | nil => rw [redactFields]; exact .nil
  | cons f fs ih =>
    obtain ⟨k, x⟩ := f
    have ih' := ih fun f hf ↦ h f (mem_cons_of_mem _ hf)
    rw [redactFields]
    by_cases hproto : k = js "__proto__"
    · have hk : isProto k = true := decide_eq_true hproto
      rw [if_pos hproto, filter_cons_of_neg (by simp [hk])]
      exact ih'
    · have hk : isProto k = false := decide_eq_false hproto
      rw [if_neg hproto, filter_cons_of_pos (by simp [hk]), filter_cons_of_pos (by simp [hk])]
      refine .cons ⟨rfl, fun hkey ↦ ?_⟩ ih'
      rw [if_neg (by simp [hkey])]
      exact h (k, x) mem_cons_self

/-- **Redaction keeps the shape.** -/
theorem sameShape_redact (a : Bool) : ∀ (n depth : ℕ) (v : JsValue), depth + n = maxRedactDepth →
    SameShape isProto isSensitiveKey n v (redact a depth v)
  | 0, _, _, _ => trivial
  | n + 1, depth, .arr xs, h => by
    rw [redact, if_neg (by omega)]
    exact forall₂_redactElems fun x _ ↦ sameShape_redact a n (depth + 1) x (by omega)
  | n + 1, depth, .obj fs, h => by
    rw [redact, if_neg (by omega)]
    exact forall₂_redactFields fun f _ ↦ sameShape_redact a n (depth + 1) f.2 (by omega)
  | n + 1, depth, .foreign kind, _ => by
    cases kind <;> simp only [redact] <;> exact ⟨rfl, rfl⟩
  | n + 1, depth, .str s, _ => by rw [redact]; exact ⟨rfl, rfl⟩
  | n + 1, depth, .undefined, _ => by rw [redact]; exact ⟨rfl, rfl⟩
  | n + 1, depth, .null, _ => by rw [redact]; exact ⟨rfl, rfl⟩
  | n + 1, depth, .bool b, _ => by rw [redact]; exact ⟨rfl, rfl⟩
  | n + 1, depth, .num x, _ => by rw [redact]; exact ⟨rfl, rfl⟩

/-! ### The law -/

/-- The law of redaction, for a notion of shape. -/
structure RedactionLaw (shape : ℕ → JsValue → JsValue → Prop) (v w : JsValue) : Prop
    extends Scrubbed w where
  shape : shape maxRedactDepth v w

/-- **No secret survives redaction.** Every string of the result is free of secrets, every sensitive
key has the mark under it, and down to the greatest depth the result has the shape of the value, up
to the values under sensitive keys. -/
theorem redactionLaw_redact (v : JsValue) :
    RedactionLaw (SameShape isProto isSensitiveKey) v (redact false 0 v) where
  toScrubbed := scrubbed_redact v 0
  shape := sameShape_redact false maxRedactDepth 0 v (Nat.zero_add _)

/-- An object under a sensitive key. -/
def sessionRecord : JsValue := .obj [(js "auth", .obj [(js "user", .str (js "alice"))])]

/-- **A value under a sensitive key loses its shape**: it is replaced whole. -/
theorem redact_sessionRecord :
    redact false 0 sessionRecord = .obj [(js "auth", .str redacted)] ∧
    ¬ RedactionLaw (SameShape (fun _ ↦ false) fun _ ↦ false) sessionRecord
      (redact false 0 sessionRecord) := by
  have heq : redact false 0 sessionRecord = .obj [(js "auth", .str redacted)] := by decide +kernel
  refine ⟨heq, fun h ↦ ?_⟩
  have hshape := h.shape
  rw [heq] at hshape
  simp [sessionRecord, SameShape, maxRedactDepth, isLeaf] at hshape

end Utix.Telemetry

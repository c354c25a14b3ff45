import Mathlib.Data.List.TakeWhile
import Utix.Telemetry.Secrets

/-!
# Redacting again

A durable record is redacted every time it is written, and a trail rewrites all its events whenever
one is added. So what matters is what a *second* pass does to what the first one left.

The second pass is not always idle. It sees a text in which a secret has become a short mark, and
the text may now be short enough to be taken for a secret as a whole; or the marks made it longer
than what is scanned. The third pass is idle: `scrubString_of_noSecret` and `redact_redact` need
only that no secret is left, which every pass gives.

The depth a value is redacted at does not matter while it is flat enough: `redact_eq_of_fitsIn`.
-/

namespace Utix.Telemetry

open Js List JsValue

/-! ### Texts without secrets -/

variable {t : JsString} {n : ℕ}

theorem exists_isSeed_of_keyLength (h : keyLength isSecretMark t = some n) :
    ∃ x, x <+: t ∧ IsSeed x := by
  rcases t with - | ⟨c, cs⟩
  · exact absurd h (by simp [keyLength])
  rw [keyLength] at h
  split at h
  · next hok =>
    simp only [Bool.and_eq_true, decide_eq_true_eq, all_eq_true] at hok
    obtain ⟨⟨hmark, hlen⟩, hbody⟩ := hok
    exact ⟨c :: cs.take 55, cons_prefix_cons.2 ⟨rfl, take_prefix 55 cs⟩, c, cs.take 55,
      rfl, hmark, length_take_of_le hlen, hbody⟩
  · cases h

theorem exists_isBearer_of_bearerParts {parts : ℕ × ℕ} (h : bearerParts t = some parts) :
    ∃ x, x <+: t ∧ IsBearer x := by
  rw [bearerParts] at h
  split at h
  · next hword =>
    simp only at h
    split at h
    · cases h
    next hne =>
    rw [not_or] at hne
    set spaces := (t.drop 6).takeWhile isSpace with hspaces
    set token := (t.drop (6 + spaces.length)).takeWhile isTokenUnit with htoken
    have hsplit : t.take 6 ++ (spaces ++ token) <+: t := by
      have htail : spaces ++ token <+: t.drop 6 := by
        have hrest : (t.drop 6).dropWhile isSpace = t.drop (6 + spaces.length) := by
          rw [← drop_drop]
          conv_rhs => rw [← takeWhile_append_dropWhile (p := isSpace) (l := t.drop 6)]
          rw [← hspaces, drop_left]
        conv_rhs => rw [← takeWhile_append_dropWhile (p := isSpace) (l := t.drop 6)]
        rw [← hspaces, hrest]
        exact (prefix_append_right_inj spaces).2 (List.takeWhile_prefix _)
      conv_rhs => rw [← take_append_drop 6 t]
      exact (prefix_append_right_inj _).2 htail
    refine ⟨_, hsplit, t.take 6, spaces, token, rfl, ?_, hne.1, fun c hc ↦ ?_, hne.2, fun c hc ↦ ?_⟩
    · exact eq_of_beq hword
    · exact mem_takeWhile_imp hc
    · exact mem_takeWhile_imp hc
  · cases h

variable {s : JsString}

/-- A text without secrets has nothing to replace. -/
theorem NoSecret.replaceAll_eq_self (h : NoSecret s) :
    replaceAll embeddedBearer redacted (replaceAll embeddedSecret redacted s) = s := by
  have hseed : replaceAll embeddedSecret redacted s = s :=
    Js.replaceAll_eq_self fun _ t ht ↦ Option.eq_none_iff_forall_ne_some.2 fun n hn ↦ by
      obtain ⟨x, hpre, hx⟩ := exists_isSeed_of_keyLength hn
      exact h.1 ⟨x, hpre.isInfix.trans ht.isInfix, hx⟩
  have hbearer : replaceAll embeddedBearer redacted s = s :=
    Js.replaceAll_eq_self fun _ t ht ↦ Option.map_eq_none_iff.2 <|
      Option.eq_none_iff_forall_ne_some.2 fun parts hparts ↦ by
        obtain ⟨x, hpre, hx⟩ := exists_isBearer_of_bearerParts hparts
        exact h.2 ⟨x, hpre.isInfix.trans ht.isInfix, hx⟩
  rw [hseed, hbearer]

/-! ### Texts that were cut -/

/-- What is put behind a text that was cut. -/
def truncated : JsString := js "…[TRUNCATED]"

theorem truncated_eq : truncated = [8230, 91, 84, 82, 85, 78, 67, 65, 84, 69, 68, 93] := by
  decide

theorem blocks_truncated_isSeed : Blocks truncated IsSeed :=
  truncated_eq ▸ blocks_isSeed_of (by decide) (by decide)

theorem blocks_truncated_isBearer : Blocks truncated IsBearer :=
  truncated_eq ▸ blocks_isBearer_of (by decide) (by decide) (by decide) (by decide)

/-- The mark of a cut text makes no secret at the end of a text without one. -/
theorem noSecret_truncated (h : NoSecret s) : NoSecret (s ++ truncated) :=
  ⟨blocks_truncated_isSeed.not_occurs_append h.1, blocks_truncated_isBearer.not_occurs_append h.2⟩

theorem NoSecret.of_infix (h : NoSecret s) (ht : t <:+: s) : NoSecret t :=
  ⟨fun ⟨x, hx, hp⟩ ↦ h.1 ⟨x, hx.trans ht, hp⟩, fun ⟨x, hx, hp⟩ ↦ h.2 ⟨x, hx.trans ht, hp⟩⟩

/-- On a text without secrets, scrubbing replaces nothing inside: it takes the whole text for a
secret, cuts it, or leaves it. -/
theorem scrubString_of_noSecret (h : NoSecret s) :
    scrubString s =
      if looksLikeSecret s then redacted
      else if s.length > maxScannableStringLength then s.take maxScannableStringLength ++ truncated
      else s := by
  rw [scrubString]
  split
  · rfl
  simp only
  split
  · exact (noSecret_truncated (h.of_infix (List.take_prefix _ s).isInfix)).replaceAll_eq_self
  · exact h.replaceAll_eq_self

theorem scrubString_redacted : scrubString redacted = redacted := by decide +kernel

theorem looksLikeSecret_of_length (h : 128 < s.length) : looksLikeSecret s = false := by
  have hlen : ¬ s.length ≤ 128 := by omega
  simp [looksLikeSecret, hlen]

/-- A text that was cut is cut at the same place again. -/
theorem scrubString_cut (h : NoSecret s) (hlen : maxScannableStringLength < s.length) :
    scrubString (s.take maxScannableStringLength ++ truncated) =
      s.take maxScannableStringLength ++ truncated := by
  have hcut : (s.take maxScannableStringLength).length = maxScannableStringLength :=
    length_take_of_le hlen.le
  have hlong :
      maxScannableStringLength < (s.take maxScannableStringLength ++ truncated).length := by
    rw [length_append, hcut, truncated_eq]
    exact Nat.lt_add_of_pos_right (by decide)
  have h128 : 128 < maxScannableStringLength := by decide
  rw [scrubString_of_noSecret (noSecret_truncated (h.of_infix (List.take_prefix _ s).isInfix)),
    looksLikeSecret_of_length (h128.trans hlong), if_neg Bool.false_ne_true, if_pos hlong,
    take_left' hcut]

/-- **What has been scrubbed of its secrets is scrubbed once more, and no further.** -/
theorem scrubString_scrubString (h : NoSecret s) : scrubString (scrubString s) = scrubString s := by
  rw [scrubString_of_noSecret h]
  split
  · exact scrubString_redacted
  next hlook =>
  split
  · next hlen => exact scrubString_cut h hlen
  · next hlen => rw [scrubString_of_noSecret h, if_neg hlook, if_neg hlen]

/-! ### Values -/

/-- No string in the value has a secret in it. -/
def SecretFree (v : JsValue) : Prop := ∀ s, Within (.str s) v → NoSecret s

/-- No string in a redacted value holds a secret. -/
theorem secretFree_redact (v : JsValue) (depth : ℕ) : SecretFree (redact false depth v) :=
  (scrubbed_redact v depth).strings

theorem SecretFree.elem {xs : List JsValue} (h : SecretFree (.arr xs)) {x : JsValue} (hx : x ∈ xs) :
    SecretFree x := fun s hs ↦ h s (.elem hx hs)

variable {fs : Fields}

theorem SecretFree.field (h : SecretFree (.obj fs)) {f : JsString × JsValue} (hf : f ∈ fs) :
    SecretFree f.2 := fun s hs ↦ h s (.field hf hs)

theorem redactElems_eq_map (a : Bool) (depth : ℕ) (xs : List JsValue) :
    redactElems a depth xs = xs.map (redact a depth) := by
  induction xs with
  | nil => rw [redactElems, map_nil]
  | cons x xs ih => rw [redactElems, ih, map_cons]

theorem redactFields_redactFields {depth : ℕ}
    (h : ∀ f ∈ fs, redact false depth (redact false depth f.2) = redact false depth f.2) :
    redactFields false depth (redactFields false depth fs) = redactFields false depth fs := by
  induction fs with
  | nil => simp only [redactFields]
  | cons f fs ih =>
    obtain ⟨k, x⟩ := f
    have ih' := ih fun g hg ↦ h g (mem_cons_of_mem _ hg)
    rw [redactFields]
    split
    · exact ih'
    next hk =>
    rw [redactFields, if_neg hk, ih']
    split
    · rfl
    · rw [h (k, x) mem_cons_self]

variable {v : JsValue}

/-- **The third pass is idle.** -/
theorem redact_redact (hv : SecretFree v) (depth : ℕ) :
    redact false depth (redact false depth v) = redact false depth v := by
  have hcut : redact false depth (.str (js "[TRUNCATED_DEPTH]")) =
      .str (js "[TRUNCATED_DEPTH]") := by
    rw [redact]
    decide +kernel
  induction v using induct generalizing depth with
  | str s =>
    rw [redact, redact, if_neg Bool.false_ne_true, if_neg Bool.false_ne_true,
      scrubString_scrubString (hv s .self)]
  | arr xs ih =>
    by_cases hd : maxRedactDepth ≤ depth
    · rw [redact, if_pos hd, hcut]
    rw [redact, if_neg hd, redact, if_neg hd, redactElems_eq_map, redactElems_eq_map, map_map]
    refine congrArg arr (map_congr_left fun x hx ↦ ?_)
    exact ih x hx (hv.elem hx) (depth + 1) (by rw [redact]; decide +kernel)
  | obj fs ih =>
    by_cases hd : maxRedactDepth ≤ depth
    · rw [redact, if_pos hd, hcut]
    · rw [redact, if_neg hd, redact, if_neg hd]
      refine congrArg obj (redactFields_redactFields fun f hf ↦ ?_)
      exact ih f hf (hv.field hf) (depth + 1) (by rw [redact]; decide +kernel)
  | foreign kind => cases kind <;> simp only [redact]
  | _ => simp only [redact]

/-- **Redaction settles with the second pass**, and with the first one where there is no secret. -/
theorem redact_settles (v : JsValue) :
    redact false 0 (redact false 0 (redact false 0 v)) = redact false 0 (redact false 0 v) ∧
      (SecretFree v → redact false 0 (redact false 0 v) = redact false 0 v) :=
  ⟨redact_redact (secretFree_redact v 0) 0, fun hv ↦ redact_redact hv 0⟩

/-- **A message that starts with `S` changes twice**: without its token it is short enough to be
taken for a secret as a whole. -/
theorem redact_sent_bearer :
    redact false 0 (redact false 0 (.str (js "Sent: Bearer " ++ List.replicate 200 97))) ≠
      redact false 0 (.str (js "Sent: Bearer " ++ List.replicate 200 97)) := by
  have hfirst : redact false 0 (.str (js "Sent: Bearer " ++ List.replicate 200 97)) =
      .str (js "Sent: [REDACTED]") := by
    rw [redact]
    decide +kernel
  have hsecond : redact false 0 (.str (js "Sent: [REDACTED]")) = .str redacted := by
    rw [redact]
    decide +kernel
  rw [hfirst, hsecond]
  decide

/-! ### Depth -/

/-- Arrays and objects are nested at most `n` deep. -/
def FitsIn : ℕ → JsValue → Prop
  | 0, .arr _ => False
  | 0, .obj _ => False
  | n + 1, .arr xs => ∀ x ∈ xs, FitsIn n x
  | n + 1, .obj fs => ∀ f ∈ fs, FitsIn n f.2
  | _, _ => True

variable {a : Bool}

/-- The fields are redacted alike at two depths if each value is. -/
theorem redactFields_congr {d e : ℕ} (h : ∀ f ∈ fs, redact a d f.2 = redact a e f.2) :
    redactFields a d fs = redactFields a e fs := by
  induction fs with
  | nil => rw [redactFields, redactFields]
  | cons f fs ih =>
    obtain ⟨k, x⟩ := f
    rw [redactFields, redactFields, ih fun g hg ↦ h g (mem_cons_of_mem _ hg),
      h (k, x) mem_cons_self]

/-- **The depth does not matter while the value fits.** -/
theorem redact_eq_of_fitsIn {d e : ℕ} (h : FitsIn n v) (hd : d + n ≤ maxRedactDepth)
    (he : e + n ≤ maxRedactDepth) : redact a d v = redact a e v := by
  induction n generalizing d e v with
  | zero =>
    cases v with
    | arr xs => exact absurd h id
    | obj fs => exact absurd h id
    | foreign kind => cases kind <;> simp only [redact]
    | _ => simp only [redact]
  | succ n ih =>
    cases v with
    | arr xs =>
      rw [redact, redact, if_neg (by omega), if_neg (by omega), redactElems_eq_map,
        redactElems_eq_map]
      exact congrArg arr
        (map_congr_left fun x hx ↦ ih (h x hx) (by omega) (by omega))
    | obj fs =>
      rw [redact, redact, if_neg (by omega), if_neg (by omega)]
      exact congrArg obj
        (redactFields_congr fun f hf ↦ ih (h f hf) (by omega) (by omega))
    | foreign kind => cases kind <;> simp only [redact]
    | _ => simp only [redact]

theorem fitsIn_str (n : ℕ) (s : JsString) : FitsIn n (.str s) := by cases n <;> trivial

/-- Redaction makes no value deeper. -/
theorem fitsIn_redact (h : FitsIn n v) (depth : ℕ) : FitsIn n (redact a depth v) := by
  induction n generalizing v depth with
  | zero =>
    cases v with
    | arr xs => exact absurd h id
    | obj fs => exact absurd h id
    | foreign kind => cases kind <;> trivial
    | _ => trivial
  | succ n ih =>
    cases v with
    | arr xs =>
      rw [redact]
      split
      · trivial
      · exact forall_mem_redactElems fun x hx ↦ ih (h x hx) _
    | obj fs =>
      rw [redact]
      split
      · trivial
      · exact forall_mem_redactFields (fitsIn_str n _) fun f hf ↦ ih (h f hf) _
    | foreign kind => cases kind <;> trivial
    | _ => trivial

/-! ### The JSON form -/

/-- Nor does writing it as JSON and reading it back. -/
theorem fitsIn_jsonOf (h : FitsIn n v) : FitsIn n (JsValue.jsonOf v) := by
  induction n generalizing v with
  | zero =>
    cases v with
    | arr xs => exact absurd h id
    | obj fs => exact absurd h id
    | num x => rw [JsValue.jsonOf]; split <;> trivial
    | _ => rw [JsValue.jsonOf]; trivial
  | succ n ih =>
    cases v with
    | arr xs =>
      rw [JsValue.jsonOf, JsValue.jsonOfElems_eq_map]
      exact fun y hy ↦ by
        obtain ⟨x, hx, rfl⟩ := mem_map.1 hy
        exact ih (h x hx)
    | obj fs =>
      rw [JsValue.jsonOf]
      intro g hg
      obtain ⟨x, hx, -, hread⟩ := mem_jsonOfFields hg
      rw [hread]
      exact ih (h (g.1, x) hx)
    | num x => rw [JsValue.jsonOf]; split <;> trivial
    | _ => rw [JsValue.jsonOf]; trivial

/-- JSON keeps a value free of secrets. -/
theorem SecretFree.jsonOf (h : SecretFree v) : SecretFree (JsValue.jsonOf v) := by
  induction v using induct with
  | arr xs ih =>
    intro s hs
    rw [JsValue.jsonOf, JsValue.jsonOfElems_eq_map] at hs
    obtain heq | ⟨y, hy, hs⟩ := within_arr hs
    · cases heq
    · obtain ⟨x, hx, rfl⟩ := mem_map.1 hy
      exact ih x hx (h.elem hx) s hs
  | obj fs ih =>
    intro s hs
    rw [JsValue.jsonOf] at hs
    obtain heq | ⟨g, hg, hs⟩ := within_obj hs
    · cases heq
    · obtain ⟨x, hx, -, hread⟩ := mem_jsonOfFields hg
      rw [hread] at hs
      exact ih (g.1, x) hx (h.field hx) s hs
  | str s => exact h
  | num n =>
    intro s hs
    rw [JsValue.jsonOf] at hs
    split at hs <;> cases hs
  | _ =>
    intro s hs
    cases hs

/-- **Redaction keeps a JSON value a JSON value.** -/
theorem isJson_redact (h : v.IsJson) (depth : ℕ) : (redact false depth v).IsJson := by
  induction v using induct generalizing depth with
  | arr xs ih =>
    rw [redact]
    split
    · trivial
    · exact isJson_arr.2
        (forall_mem_redactElems fun x hx ↦ ih x hx (isJson_arr.1 h x hx) _)
  | obj fs ih =>
    obtain ⟨hnd, hfs⟩ := isJson_obj.1 h
    rw [redact]
    split
    · trivial
    · exact isJson_obj.2 ⟨hnd.sublist (keys_redactFields_sublist _ _ fs),
        forall_mem_redactFields trivial fun f hf ↦ ih f hf (hfs f hf) _⟩
  | undefined => exact absurd h id
  | foreign kind => exact absurd h id
  | _ => rw [redact]; exact h

end Utix.Telemetry

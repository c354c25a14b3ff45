import Utix.Telemetry.Again

/-!
# Quoting a text in a sentence

A message quotes values between words of its own. Whether scrubbing leaves it as it is depends on
where the values meet the words. A seed cannot reach over a unit that is not one of its own, so no
sentence makes one. But a value that ends in `bearer` is read on: with the word that follows it is a
bearer token, although the value alone is not (`noSecret_append_word`), and with the full stop it is
one if white space is left in between (`noSecret_append_stop`).

`scrubString_eq_self_iff` says exactly when scrubbing leaves a text as it is.
-/

namespace Utix.Telemetry

open Js List Bool

/-! ### Texts that end in the word -/

/-- The text ends in the word of a bearer token, up to white space. -/
def endsInBearer (s : JsString) : Bool :=
  startsWithFold (js "bearer").reverse (s.reverse.dropWhile isSpace)

/-- The text ends in the word of a bearer token and white space. -/
def endsInBearerGap (s : JsString) : Bool := endsInBearer s && s.getLast?.any isSpace

/-- The parts of a text that ends in the word: what comes before it, the word, and white space. -/
structure EndsInWord (s head word spaces : JsString) : Prop where
  eq : s = head ++ (word ++ spaces)
  word : word.map fold = js "bearer"
  spaces : ∀ c ∈ spaces, isSpace c = true

variable {c : UInt16}

theorem isSpace_of_fold (h : fold c = 114) : isSpace c = false := by
  refine isSpace_eq_false_of_printable ?_
  rw [fold] at h
  split at h
  · next hup =>
    simp only [isUpper, and_eq_true, decide_eq_true_eq, UInt16.le_iff_toNat_le,
      UInt16.reduceToNat] at hup
    omega
  · subst h
    decide

variable {s : JsString}

theorem EndsInWord.endsInBearer {head word spaces : JsString} (h : EndsInWord s head word spaces) :
    endsInBearer s = true := by
  have hlen := length_of_map_fold h.word
  have hfold : word.reverse.map fold = (js "bearer").reverse := by rw [map_reverse, h.word]
  have hpos : 0 < word.reverse.length := by
    rw [length_reverse, hlen]
    decide
  obtain ⟨c, rest, hcons⟩ := exists_cons_of_length_pos hpos
  have hc : isSpace c = false := by
    rw [hcons, map_cons, show (js "bearer").reverse = [114, 101, 114, 97, 101, 98] by decide]
      at hfold
    exact isSpace_of_fold (cons.inj hfold).1
  have hdrop : s.reverse.dropWhile isSpace = word.reverse ++ head.reverse := by
    rw [h.eq, reverse_append, reverse_append, append_assoc,
      dropWhile_append_of_pos fun d hd ↦ h.spaces d (mem_reverse.1 hd), hcons,
      cons_append, dropWhile_cons_of_neg (by simp [hc])]
  have hsix : (js "bearer").reverse.length = word.reverse.length := by
    rw [length_reverse, length_reverse, hlen]
    rfl
  rw [Telemetry.endsInBearer, startsWithFold, hdrop, hsix, take_left, hfold]
  exact beq_self_eq_true _

/-- A text ends in the word, with white space after it or not. -/
theorem endsInBearer_iff :
    endsInBearer s = true ↔ ∃ head word spaces, EndsInWord s head word spaces := by
  refine ⟨fun h ↦ ?_, fun ⟨_, _, _, h⟩ ↦ h.endsInBearer⟩
  set t := s.reverse.dropWhile isSpace with ht
  refine ⟨(t.drop 6).reverse, (t.take 6).reverse, (s.reverse.takeWhile isSpace).reverse, ?_, ?_, ?_⟩
  · rw [← append_assoc, ← reverse_append, take_append_drop, ← reverse_append,
      takeWhile_append_dropWhile, reverse_reverse]
  · rw [endsInBearer, startsWithFold, beq_iff_eq] at h
    rw [map_reverse, reverse_eq_iff]
    exact h
  · intro c hc
    exact mem_takeWhile_imp (mem_reverse.1 hc)

/-- With white space after the word. -/
theorem endsInBearerGap_iff :
    endsInBearerGap s = true ↔ ∃ head word spaces, EndsInWord s head word spaces ∧ spaces ≠ [] := by
  rw [endsInBearerGap, and_eq_true, endsInBearer_iff]
  constructor
  · rintro ⟨⟨head, word, spaces, h⟩, hlast⟩
    refine ⟨head, word, spaces, h, ?_⟩
    rintro rfl
    -- the last unit would be the last of the word
    obtain ⟨rest, c, hconcat⟩ := eq_nil_or_concat' word |>.resolve_left (by
      rintro rfl
      exact absurd h.word (by decide))
    have hc : fold c = 114 := by
      have hfold := h.word
      rw [hconcat, map_append, show js "bearer" = [98, 101, 97, 114, 101] ++ [114] by decide]
        at hfold
      exact (cons.inj (append_inj_right' hfold rfl)).1
    rw [h.eq, append_nil, hconcat, ← append_assoc, getLast?_concat] at hlast
    exact absurd hlast (by simp [isSpace_of_fold hc])
  · rintro ⟨head, word, spaces, h, hne⟩
    obtain ⟨rest, c, hconcat⟩ := (eq_nil_or_concat' spaces).resolve_left hne
    refine ⟨⟨head, word, spaces, h⟩, ?_⟩
    rw [h.eq, hconcat, ← append_assoc, ← append_assoc, getLast?_concat]
    exact h.spaces c (by simp [hconcat])

/-! ### Where a value meets a word -/

variable {a r : JsString}

/-- A part of a text with a separator in it is on one side of the separator, or has it inside. -/
theorem infix_append_cons {x : JsString} (h : x <:+: a ++ c :: r) :
    x <:+: a ∨ x <:+: r ∨ ∃ y z, x = y ++ c :: z ∧ y <:+ a ∧ z <+: r := by
  obtain ⟨u, v, huv⟩ := h
  rw [append_assoc] at huv
  rcases append_eq_append_iff.1 huv with ⟨y, rfl, hxv⟩ | ⟨w, rfl, hr⟩
  · rcases append_eq_append_iff.1 hxv with ⟨w, rfl, -⟩ | ⟨w, rfl, hw⟩
    · exact .inl ⟨u, w, append_assoc _ _ _⟩
    rcases w with - | ⟨d, z⟩
    · exact .inl ⟨u, [], by simp⟩
    · obtain ⟨rfl, rfl⟩ := cons.inj hw
      exact .inr (.inr ⟨y, z, rfl, suffix_append u y, prefix_append z v⟩)
  · rcases w with - | ⟨d, w⟩
    · rcases x with - | ⟨e, z⟩
      · exact .inl (List.nil_infix)
      · obtain ⟨rfl, rfl⟩ := cons.inj hr
        exact .inr (.inr ⟨[], z, rfl, nil_suffix, prefix_append z v⟩)
    · obtain ⟨-, rfl⟩ := cons.inj hr
      exact .inr (.inl ⟨w, v, append_assoc _ _ _⟩)

/-- No seed reaches over a unit that is not of base 32. -/
theorem not_occurs_isSeed_append (hc : isBase32 c = false) (ha : ¬ Occurs IsSeed a)
    (hr : ¬ Occurs IsSeed r) : ¬ Occurs IsSeed (a ++ c :: r) := by
  rintro ⟨x, hin, hx⟩
  rcases infix_append_cons hin with hin | hin | ⟨y, z, rfl, -⟩
  · exact ha ⟨x, hin, hx⟩
  · exact hr ⟨x, hin, hx⟩
  obtain ⟨mark, body, heq, hmark, -, hbody⟩ := hx
  have hmem : c ∈ mark :: body := heq ▸ mem_append_right y mem_cons_self
  rcases mem_cons.1 hmem with rfl | hmem
  · simp only [isSecretMark, or_eq_true, beq_iff_eq] at hmark
    rcases hmark with rfl | rfl <;> exact absurd hc (by decide)
  · exact false_ne_true (hc.symm.trans (hbody c hmem))

/-- Where a separator is in a text of two parts. -/
theorem append_cons_eq_append {y z t : JsString} (h : y ++ c :: z = s ++ t) :
    (∃ w, s = y ++ c :: w) ∨ ∃ w, y = s ++ w ∧ t = w ++ c :: z := by
  rcases append_eq_append_iff.1 h with ⟨w, hw, hz⟩ | ⟨w, hw, hz⟩
  · rcases w with - | ⟨d, w⟩
    · exact .inr ⟨[], by rw [hw, append_nil, append_nil], hz.symm⟩
    · obtain ⟨rfl, -⟩ := cons.inj hz
      exact .inl ⟨w, hw⟩
  · exact .inr ⟨w, hw, hz⟩

variable {p q : JsString}

/-- A text is split in one way at the first of its units of a kind. -/
theorem append_cons_inj {b : JsString} (hp : c ∉ p) (hq : c ∉ q) (h : p ++ c :: a = q ++ c :: b) :
    p = q ∧ a = b := by
  rcases append_cons_eq_append h with ⟨w, hw⟩ | ⟨w, hw, hrest⟩
  · exact absurd (hw ▸ by simp) hq
  rcases w with - | ⟨d, w⟩
  · rw [append_nil] at hw
    exact ⟨hw, (cons.inj hrest).2.symm⟩
  · obtain ⟨rfl, -⟩ := cons.inj hrest
    exact absurd (hw ▸ by simp) hp

/-- A bearer token over a separator has its word before it, and the separator is white space or a
unit of the token. -/
theorem endsInBearer_of_occurs (hc : fold c ∉ js "bearer") (ha : ¬ Occurs IsBearer a)
    (hr : ¬ Occurs IsBearer r) (h : Occurs IsBearer (a ++ c :: r)) :
    (isSpace c = true ∧ endsInBearer a = true) ∨
      (isTokenUnit c = true ∧ endsInBearerGap a = true) := by
  obtain ⟨x, hin, hx⟩ := h
  rcases infix_append_cons hin with hin | hin | ⟨y, z, rfl, ⟨head, rfl⟩, -⟩
  · exact absurd ⟨x, hin, hx⟩ ha
  · exact absurd ⟨x, hin, hx⟩ hr
  obtain ⟨word, spaces, token, heq, hword, hne, hspaces, htoken, hunits⟩ := hx
  rcases append_cons_eq_append heq with ⟨w, hw⟩ | ⟨w, rfl, hw⟩
  · -- the separator is not a letter of the word
    refine absurd ?_ hc
    rw [← hword, hw, map_append]
    exact mem_append_right _ (mem_map_of_mem mem_cons_self)
  rcases append_cons_eq_append hw.symm with ⟨u, rfl⟩ | ⟨u, rfl, rfl⟩
  · refine .inl ⟨hspaces c (by simp), endsInBearer_iff.2 ⟨head, word, w, rfl, hword, ?_⟩⟩
    exact fun e he ↦ hspaces e (by simp [he])
  rcases u with - | ⟨d, u⟩
  · refine .inr ⟨hunits c (by simp), endsInBearerGap_iff.2 ⟨head, word, spaces, ?_, hne⟩⟩
    exact ⟨by rw [append_nil], hword, hspaces⟩
  -- the token starts before the separator: with one unit of it, the word is a bearer token
  refine absurd ⟨word ++ (spaces ++ [d]), ⟨head, u, by simp⟩, word, spaces, [d], rfl, hword, hne,
    hspaces, by simp, fun e he ↦ ?_⟩ ha
  rw [mem_singleton.1 he]
  exact hunits d (by simp)

/-- A text that ends in the word makes a token of the word that follows. -/
theorem occurs_of_endsInBearer {d : UInt16} (h : endsInBearer a = true)
    (hd : isTokenUnit d = true) : Occurs IsBearer (a ++ 32 :: d :: r) := by
  obtain ⟨head, word, spaces, h⟩ := endsInBearer_iff.1 h
  refine ⟨word ++ ((spaces ++ [32]) ++ [d]), ⟨head, r, by simp [h.eq]⟩, word, spaces ++ [32], [d],
    rfl, h.word, by simp, fun c hc ↦ ?_, by simp, fun c hc ↦ mem_singleton.1 hc ▸ hd⟩
  rcases mem_append.1 hc with hc | hc
  · exact h.spaces c hc
  · rw [mem_singleton.1 hc]
    decide

/-- With white space already there, it makes one of the unit that follows. -/
theorem occurs_of_endsInBearerGap (h : endsInBearerGap a = true) (hc : isTokenUnit c = true) :
    Occurs IsBearer (a ++ c :: r) := by
  obtain ⟨head, word, spaces, h, hne⟩ := endsInBearerGap_iff.1 h
  exact ⟨word ++ (spaces ++ [c]), ⟨head, r, by simp [h.eq]⟩, word, spaces, [c], rfl, h.word, hne,
    h.spaces, by simp, fun e he ↦ mem_singleton.1 he ▸ hc⟩

/-! ### Sentences -/

theorem NoSecret.left (h : NoSecret (a ++ r)) : NoSecret a :=
  h.of_infix (prefix_append a r).isInfix

theorem NoSecret.right (h : NoSecret (a ++ c :: r)) : NoSecret r :=
  h.of_infix ((suffix_cons c r).trans (suffix_append a _)).isInfix

/-- **After words that do not end in `bearer`, a space starts afresh.** -/
theorem noSecret_words_append (ha : NoSecret a) (hend : endsInBearer a = false) :
    NoSecret (a ++ 32 :: r) ↔ NoSecret r := by
  refine ⟨NoSecret.right, fun hr ↦ ⟨not_occurs_isSeed_append (by decide) ha.1 hr.1, fun h ↦ ?_⟩⟩
  rcases endsInBearer_of_occurs (by decide) ha.2 hr.2 h with ⟨-, hbad⟩ | ⟨hbad, -⟩
  · exact false_ne_true (hend.symm.trans hbad)
  · exact absurd hbad (by decide)

/-- **A value before a word.** -/
theorem noSecret_append_word {w : JsString} (ha : NoSecret a)
    (hw : w.head?.any isTokenUnit = true) :
    NoSecret (a ++ 32 :: (w ++ r)) ↔ endsInBearer a = false ∧ NoSecret (w ++ r) := by
  obtain ⟨d, hhead, hd⟩ := (Option.any_eq_true _ _).1 hw
  obtain ⟨w', rfl⟩ := head?_eq_some_iff.1 hhead
  constructor
  · exact fun h ↦ ⟨eq_false_iff.2 fun hend ↦ h.2 (occurs_of_endsInBearer hend hd), h.right⟩
  · exact fun ⟨hend, hr⟩ ↦ (noSecret_words_append ha hend).2 hr

/-- **A value before the full stop.** -/
theorem noSecret_append_stop (ha : NoSecret a) :
    NoSecret (a ++ [46]) ↔ endsInBearerGap a = false := by
  refine ⟨fun h ↦ eq_false_iff.2 fun hend ↦ h.2 (occurs_of_endsInBearerGap hend (by decide)),
    fun hend ↦ ?_⟩
  have hnil : NoSecret [] := noSecret_of_short (by decide) (by decide)
  refine ⟨not_occurs_isSeed_append (by decide) ha.1 hnil.1, fun h ↦ ?_⟩
  rcases endsInBearer_of_occurs (by decide) ha.2 hnil.2 h with ⟨hbad, -⟩ | ⟨-, hbad⟩
  · exact absurd hbad (by decide)
  · exact false_ne_true (hend.symm.trans hbad)

/-- **A value before a unit that neither kind of secret has in it.** -/
theorem noSecret_append_barrier (hbase : isBase32 c = false) (hword : fold c ∉ js "bearer")
    (hspace : isSpace c = false) (htoken : isTokenUnit c = false) :
    NoSecret (a ++ c :: r) ↔ NoSecret a ∧ NoSecret r := by
  refine ⟨fun h ↦ ⟨h.left, h.right⟩, fun ⟨ha, hr⟩ ↦
    ⟨not_occurs_isSeed_append hbase ha.1 hr.1, fun h ↦ ?_⟩⟩
  rcases endsInBearer_of_occurs hword ha.2 hr.2 h with ⟨hbad, -⟩ | ⟨hbad, -⟩
  · exact false_ne_true (hspace.symm.trans hbad)
  · exact false_ne_true (htoken.symm.trans hbad)

theorem noSecret_of_isPlainUnit (h : ∀ c ∈ s, isPlainUnit c = true) : NoSecret s := by
  have hplain : ∀ c ∈ s, isSecretMark c = false ∧ isSpace c = false := fun c hc ↦ by
    simpa [isPlainUnit] using h c hc
  constructor
  · rintro ⟨x, hin, mark, body, rfl, hmark, -⟩
    exact false_ne_true ((hplain mark (hin.subset (by simp))).1.symm.trans hmark)
  rintro ⟨x, hin, word, spaces, token, rfl, -, hne, hspaces, -⟩
  obtain ⟨c, rest, rfl⟩ := exists_cons_of_ne_nil hne
  exact false_ne_true
    ((hplain c (hin.subset (by simp))).2.symm.trans (hspaces c mem_cons_self))

/-- A text without the first letter of the word does not end in it. -/
theorem endsInBearer_eq_false (h : ∀ c ∈ s, fold c ≠ 98) : endsInBearer s = false := by
  refine eq_false_iff.2 fun hend ↦ ?_
  obtain ⟨head, word, spaces, hs⟩ := endsInBearer_iff.1 hend
  rcases word with - | ⟨c, word⟩
  · exact absurd hs.word (by decide)
  · refine h c (by simp [hs.eq]) ?_
    exact (cons.inj (hs.word.trans (show js "bearer" = 98 :: js "earer" by decide))).1

/-! ### When scrubbing leaves a text as it is -/

/-- A sentence that does not start with a mark is not taken for a secret. -/
theorem looksLikeSecret_append (h : a.head?.any (!isSecretMark ·) = true) :
    looksLikeSecret (a ++ r) = false := by
  obtain ⟨c, hhead, hc⟩ := (Option.any_eq_true _ _).1 h
  obtain ⟨a, rfl⟩ := head?_eq_some_iff.1 hhead
  simp only [isSecretMark, not_eq_true', or_eq_false_iff, beq_eq_false_iff_ne] at hc
  rw [looksLikeSecret, show js "S" = [83] by decide, show js "M" = [77] by decide]
  simp [startsWith, isPrefixOf, Ne.symm hc.1, Ne.symm hc.2]

/-- A text that scrubbing leaves alone has no secret. -/
theorem noSecret_of_scrubString (h : scrubString s = s) : NoSecret s :=
  h ▸ noSecret_scrubString s

/-- Cutting leaves the text as it is: it is short enough, or has been cut there before. -/
def uncut (s : JsString) : Bool :=
  s.length ≤ maxScannableStringLength || s.drop maxScannableStringLength = truncated

/-- **Scrubbing leaves exactly these texts as they are.** -/
theorem scrubString_eq_self_iff :
    scrubString s = s ↔ NoSecret s ∧ looksLikeSecret s = false ∧ uncut s = true := by
  constructor
  · intro h
    have hno := noSecret_of_scrubString h
    rw [scrubString_of_noSecret hno] at h
    split at h
    · next hlooks =>
      rw [← h] at hlooks
      exact absurd hlooks (by decide)
    · next hlooks =>
      refine ⟨hno, by simpa using hlooks, ?_⟩
      split at h
      · next hlen =>
        have hdrop : s.drop maxScannableStringLength = truncated := by
          conv_lhs => rw [← h]
          exact drop_left' (length_take_of_le hlen.le)
        simp [uncut, hdrop]
      · next hlen => simp [uncut, not_lt.1 hlen]
  · rintro ⟨hno, hlooks, hcut⟩
    rw [scrubString_of_noSecret hno, if_neg (by simp [hlooks])]
    split
    · next hlen =>
      have hdrop : s.drop maxScannableStringLength = truncated := by
        simpa [uncut, not_le.2 hlen] using hcut
      rw [← hdrop, take_append_drop]
    · rfl

end Utix.Telemetry

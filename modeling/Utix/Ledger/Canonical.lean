import Utix.Js.JsonRoundTrip

/-!
# Canonical JSON

`canonicalJson` of `core/ledger/ledger.ts`: the text whose digest an entry carries. It sorts the
keys of every object by code units, drops keys whose value is `undefined`, and writes `null` for
whatever JSON cannot express. A bigint has no text: `JSON.stringify` throws.

## What the text determines

`asJson v` is the JSON value that `v` denotes — the same dropping and replacing, with the fields of
every object in key order, so that two objects which are equal as finite maps denote the *same*
value (`asJson_obj_eq_iff`). The text is the text of that value (`canonicalJson_eq`), and since a
JSON text determines its value, **two values have the same canonical text only if they denote the
same JSON value** (`asJson_eq_of_canonicalJson_eq`).
-/

namespace Utix.Ledger

open Js JsValue List Fields

mutual

/-- `canonicalJson(value)`; `none` is the `TypeError` of a bigint. -/
def canonicalJson : JsValue → Option JsString
  | .undefined => some (js "null")
  | .null => some (js "null")
  | .bool b => some (stringify (.bool b))
  | .num n => some (stringify (.num n))
  | .str s => some (stringify (.str s))
  | .foreign .bigint => none
  | .foreign _ => some (js "null")
  | .arr xs => (canonicalElems xs).map fun parts ↦ 91 :: (List.intercalate [44] parts ++ [93])
  | .obj fs =>
    (canonicalFields fs).map fun texts ↦
      123 :: (List.intercalate [44] ((sortKeys texts).map fun p ↦ quote p.1 ++ 58 :: p.2) ++ [125])

/-- The texts of the elements. -/
def canonicalElems : List JsValue → Option (List JsString)
  | [] => some []
  | x :: xs =>
    match canonicalJson x, canonicalElems xs with
    | some t, some ts => some (t :: ts)
    | _, _ => none

/-- The keys whose value is not `undefined`, with the texts of their values. -/
def canonicalFields : Fields → Option (List (JsString × JsString))
  | [] => some []
  | (k, x) :: fs =>
    if x = .undefined then canonicalFields fs
    else
      match canonicalJson x, canonicalFields fs with
      | some t, some ts => some ((k, t) :: ts)
      | _, _ => none

end

/-! ### The JSON value that a value denotes -/

mutual

/-- The JSON value that `v` denotes, with the fields of every object in key order. -/
def asJson : JsValue → JsValue
  | .undefined => .null
  | .null => .null
  | .bool b => .bool b
  | .num n => if n.isFinite then .num n else .null
  | .str s => .str s
  | .foreign _ => .null
  | .arr xs => .arr (asJsonElems xs)
  | .obj fs => .obj (sortKeys (asJsonFields fs))

/-- The elements of an array. -/
def asJsonElems : List JsValue → List JsValue
  | [] => []
  | x :: xs => asJson x :: asJsonElems xs

/-- The fields whose value is not `undefined`. -/
def asJsonFields : Fields → Fields
  | [] => []
  | (k, x) :: fs => if x = .undefined then asJsonFields fs else (k, asJson x) :: asJsonFields fs

end

variable {xs : List JsValue} {y : JsValue}

theorem mem_asJsonElems (h : y ∈ asJsonElems xs) : ∃ x ∈ xs, asJson x = y := by
  induction xs with
  | nil => cases h
  | cons x xs ih =>
    rcases mem_cons.1 h with rfl | h
    · exact ⟨x, mem_cons_self, rfl⟩
    · obtain ⟨z, hz, hy⟩ := ih h
      exact ⟨z, mem_cons_of_mem _ hz, hy⟩

variable {fs : Fields}

/-- The fields that a JSON value keeps. -/
theorem mem_asJsonFields {k : JsString} :
    (k, y) ∈ asJsonFields fs ↔ ∃ x, (k, x) ∈ fs ∧ x ≠ .undefined ∧ asJson x = y := by
  induction fs with
  | nil => simp [asJsonFields]
  | cons f fs ih =>
    obtain ⟨l, x⟩ := f
    rw [asJsonFields]
    split
    · next hx => rw [ih]; grind
    · next hx => rw [mem_cons, ih]; grind

theorem keys_asJsonFields_sublist (fs : Fields) :
    (asJsonFields fs).keys.Sublist fs.keys := by
  induction fs with
  | nil => exact List.Sublist.slnil
  | cons f fs ih =>
    obtain ⟨k, x⟩ := f
    rw [asJsonFields]
    split
    · exact ih.trans (sublist_cons_self _ _)
    · exact ih.cons_cons k

variable {v : JsValue}

/-- **A well-formed value denotes a JSON value.** -/
theorem isJson_asJson (hv : v.WellFormed) : (asJson v).IsJson := by
  induction v using JsValue.induct with
  | arr xs ih =>
    rw [asJson, isJson_arr]
    intro y hy
    obtain ⟨x, hx, rfl⟩ := mem_asJsonElems hy
    exact ih x hx (wellFormed_arr.1 hv x hx)
  | obj fs ih =>
    obtain ⟨hnd, hfs⟩ := wellFormed_obj.1 hv
    rw [asJson, isJson_obj]
    refine ⟨((sortKeys_perm _).map Prod.fst).nodup_iff.2
      (hnd.sublist (keys_asJsonFields_sublist fs)), fun f hf ↦ ?_⟩
    obtain ⟨x, hx, -, hval⟩ := mem_asJsonFields.1 (mem_sortKeys.1 hf)
    rw [← hval]
    exact ih (f.1, x) hx (hfs (f.1, x) hx)
  | num n =>
    rw [asJson]
    split
    · next h => exact h
    · trivial
  | _ => trivial

/-! ### Objects as finite maps -/

/-- What an object holds under a key: nothing, or the JSON value there. -/
def jsonField (fs : Fields) (key : JsString) : Option JsValue :=
  if fs.get key = .undefined then none else some (asJson (fs.get key))

/-- A field is kept as what is found under its key. -/
theorem mem_asJsonFields_iff_jsonField (hnd : fs.keys.Nodup) {key : JsString} :
    (key, y) ∈ asJsonFields fs ↔ jsonField fs key = some y := by
  rw [mem_asJsonFields, jsonField]
  constructor
  · rintro ⟨x, hx, hne, rfl⟩
    rw [get_eq_of_mem hnd hx, if_neg hne]
  intro h
  split at h
  · cases h
  · next hne => exact ⟨fs.get key, get_mem hne, hne, Option.some.inj h⟩

variable {gs : Fields}

section

variable (hfs : fs.keys.Nodup)
include hfs

section

variable (hgs : gs.keys.Nodup)
include hgs

/-- Sorted by distinct keys, a list of fields is determined by its members. -/
theorem sortKeys_eq_of_mem_iff (h : ∀ f, f ∈ fs ↔ f ∈ gs) : sortKeys fs = sortKeys gs := by
  have hperm : fs.Perm gs :=
    (perm_ext_iff_of_nodup (List.Nodup.of_map Prod.fst hfs) (List.Nodup.of_map Prod.fst hgs)).2 h
  have hsorted : ∀ l : Fields, (sortKeys l).Pairwise keyLe := fun l ↦
    have : Std.Total (keyLe (α := JsValue)) := ⟨fun a b ↦ le_total a.1 b.1⟩
    have : IsTrans (JsString × JsValue) keyLe := ⟨fun _ _ _ hab hbc ↦ le_trans hab hbc⟩
    pairwise_insertionSort keyLe l
  refine List.Perm.eq_of_pairwise (fun f g hf hg hfg hgf ↦ ?_) (hsorted fs) (hsorted gs)
    (((sortKeys_perm fs).trans hperm).trans (sortKeys_perm gs).symm)
  have hf' := mem_sortKeys.1 hf
  have hg' := (h g).2 (mem_sortKeys.1 hg)
  exact inj_on_of_nodup_map hfs hf' hg' (le_antisymm hfg hgf)

/-- Objects that are equal as finite maps denote the same value. -/
theorem asJson_obj_eq_of_jsonField_eq (h : ∀ key, jsonField fs key = jsonField gs key) :
    asJson (.obj fs) = asJson (.obj gs) := by
  rw [asJson, asJson]
  congr 1
  refine sortKeys_eq_of_mem_iff (hfs.sublist (keys_asJsonFields_sublist fs))
    (hgs.sublist (keys_asJsonFields_sublist gs)) fun f ↦ ?_
  rw [mem_asJsonFields_iff_jsonField hfs, mem_asJsonFields_iff_jsonField hgs, h]

/-- Objects that denote the same value are equal as finite maps. -/
theorem jsonField_eq_of_asJson_obj_eq (h : asJson (.obj fs) = asJson (.obj gs)) (key : JsString) :
    jsonField fs key = jsonField gs key := by
  rw [asJson, asJson, JsValue.obj.injEq] at h
  refine Option.ext fun y ↦ ?_
  rw [← mem_asJsonFields_iff_jsonField hfs, ← mem_asJsonFields_iff_jsonField hgs,
    ← mem_sortKeys, h, mem_sortKeys]

/-- **Objects denote the same value exactly when they are equal as finite maps**, keys with an
`undefined` value being absent. -/
theorem asJson_obj_eq_iff :
    asJson (.obj fs) = asJson (.obj gs) ↔ ∀ key, jsonField fs key = jsonField gs key :=
  ⟨jsonField_eq_of_asJson_obj_eq hfs hgs, asJson_obj_eq_of_jsonField_eq hfs hgs⟩

end

end

/-! ### The text is the text of the denoted value -/

/-- The texts of the elements are those of their JSON values. -/
theorem canonicalElems_eq (ih : ∀ x ∈ xs, ∀ t, canonicalJson x = some t → t = stringify (asJson x))
    {ts : List JsString} (h : canonicalElems xs = some ts) :
    ts = stringifyElems (asJsonElems xs) := by
  induction xs generalizing ts with
  | nil => exact (Option.some.inj h).symm
  | cons x xs ihxs =>
    rw [canonicalElems] at h
    split at h
    · next t ts' ht hts =>
      obtain rfl := Option.some.inj h
      rw [asJsonElems, stringifyElems, ih x mem_cons_self t ht,
        ihxs (fun y hy ↦ ih y (mem_cons_of_mem _ hy)) hts]
    · cases h

/-- So are the texts of the fields, under their keys. -/
theorem canonicalFields_eq
    (ih : ∀ f ∈ fs, ∀ t, canonicalJson f.2 = some t → t = stringify (asJson f.2))
    {ts : List (JsString × JsString)} (h : canonicalFields fs = some ts) :
    ts = (asJsonFields fs).map fun f ↦ (f.1, stringify f.2) := by
  induction fs generalizing ts with
  | nil => exact (Option.some.inj h).symm
  | cons f fs ihfs =>
    obtain ⟨k, x⟩ := f
    have ihfs' := fun {ts} (h : canonicalFields fs = some ts) ↦
      ihfs (fun g hg ↦ ih g (mem_cons_of_mem _ hg)) h
    rw [canonicalFields] at h
    rw [asJsonFields]
    split at h
    · next hx => rw [if_pos hx]; exact ihfs' h
    next hx =>
    split at h
    · next t ts' ht hts =>
      obtain rfl := Option.some.inj h
      have htext : t = stringify (asJson x) := ih (k, x) mem_cons_self t ht
      rw [if_neg hx, map_cons, ← ihfs' hts, htext]
    · cases h

theorem stringifyFields_eq_map (h : ∀ f ∈ fs, f.2.isOmitted = false) :
    stringifyFields fs = fs.map fun f ↦ quote f.1 ++ 58 :: stringify f.2 := by
  induction fs with
  | nil => rfl
  | cons f fs ih =>
    obtain ⟨k, x⟩ := f
    have hx : x.isOmitted = false := h (k, x) mem_cons_self
    rw [stringifyFields, hx, if_neg Bool.false_ne_true,
      ih fun g hg ↦ h g (mem_cons_of_mem _ hg), map_cons]

/-- **The canonical text is the text of the denoted value.** -/
theorem canonicalJson_eq {t : JsString} (h : canonicalJson v = some t) :
    t = stringify (asJson v) := by
  induction v using JsValue.induct generalizing t with
  | arr xs ih =>
    rw [canonicalJson] at h
    obtain ⟨ts, hts, rfl⟩ := Option.map_eq_some_iff.1 h
    rw [canonicalElems_eq (fun x hx t ht ↦ ih x hx ht) hts, asJson, stringify]
  | obj fs ih =>
    rw [canonicalJson] at h
    obtain ⟨ts, hts, rfl⟩ := Option.map_eq_some_iff.1 h
    have hwritten : ∀ f ∈ sortKeys (asJsonFields fs), f.2.isOmitted = false := fun f hf ↦ by
      obtain ⟨x, -, -, hx⟩ := mem_asJsonFields.1 (mem_sortKeys.1 hf)
      rw [← hx]
      cases x with
      | num n => rw [asJson]; split <;> rfl
      | _ => rfl
    have hsort : sortKeys ((asJsonFields fs).map fun f ↦ (f.1, stringify f.2)) =
        (sortKeys (asJsonFields fs)).map fun f ↦ (f.1, stringify f.2) :=
      (map_insertionSort keyLe keyLe (fun f : JsString × JsValue ↦ (f.1, stringify f.2))
        (asJsonFields fs) fun _ _ _ _ ↦ Iff.rfl).symm
    rw [canonicalFields_eq (fun f hf t ht ↦ ih f hf ht) hts, hsort, map_map, asJson,
      stringify, stringifyFields_eq_map hwritten]
    rfl
  | num n =>
    rw [canonicalJson] at h
    obtain rfl := Option.some.inj h
    rw [asJson]
    split
    · rfl
    · next hn => exact if_neg hn
  | foreign k => cases k <;> simp_all [canonicalJson, asJson, stringify]
  | _ => exact (Option.some.inj h).symm

theorem exists_canonicalElems (h : ∀ x ∈ xs, ∃ t, canonicalJson x = some t) :
    ∃ ts, canonicalElems xs = some ts := by
  induction xs with
  | nil => exact ⟨[], rfl⟩
  | cons x xs ih =>
    obtain ⟨t, ht⟩ := h x mem_cons_self
    obtain ⟨ts, hts⟩ := ih fun y hy ↦ h y (mem_cons_of_mem _ hy)
    exact ⟨t :: ts, by rw [canonicalElems, ht, hts]⟩

theorem exists_canonicalFields (h : ∀ f ∈ fs, ∃ t, canonicalJson f.2 = some t) :
    ∃ ts, canonicalFields fs = some ts := by
  induction fs with
  | nil => exact ⟨[], rfl⟩
  | cons f fs ih =>
    obtain ⟨k, x⟩ := f
    obtain ⟨t, ht⟩ : ∃ t, canonicalJson x = some t := h (k, x) mem_cons_self
    obtain ⟨ts, hts⟩ := ih fun g hg ↦ h g (mem_cons_of_mem _ hg)
    rw [canonicalFields]
    split
    · exact ⟨ts, hts⟩
    · exact ⟨(k, t) :: ts, by rw [ht, hts]⟩

/-- **A JSON value has a canonical text.** -/
theorem exists_canonicalJson (hv : v.IsJson) : ∃ t, canonicalJson v = some t := by
  induction v using JsValue.induct with
  | arr xs ih =>
    obtain ⟨ts, hts⟩ := exists_canonicalElems fun x hx ↦ ih x hx (isJson_arr.1 hv x hx)
    exact ⟨_, by rw [canonicalJson, hts]; rfl⟩
  | obj fs ih =>
    obtain ⟨ts, hts⟩ := exists_canonicalFields fun f hf ↦ ih f hf ((isJson_obj.1 hv).2 f hf)
    exact ⟨_, by rw [canonicalJson, hts]; rfl⟩
  | undefined => exact absurd hv id
  | foreign k => exact absurd hv id
  | _ => exact ⟨_, rfl⟩

/-- **Two values with the same canonical text denote the same JSON value.** -/
theorem asJson_eq_of_canonicalJson_eq {w : JsValue} (hv : v.WellFormed) (hw : w.WellFormed)
    {t : JsString} (htv : canonicalJson v = some t) (htw : canonicalJson w = some t) :
    asJson v = asJson w :=
  stringify_injective (isJson_asJson hv) (isJson_asJson hw)
    ((canonicalJson_eq htv).symm.trans (canonicalJson_eq htw))

end Utix.Ledger

import Utix.Js.Number

/-!
# JavaScript values

The values a program passes around and stores: primitives, arrays and plain objects, as trees. An
object is the list of its own enumerable fields in enumeration order; that its keys are distinct is
`WellFormed`, which the operations below keep. Object identity, and with it sharing and cycles, is
not part of a tree. Functions, symbols and bigints are `foreign`: a caller can put one inside an
`unknown`, and the code only ever asks which kind it is.

Properties of all values are proved by `JsValue.induct`, whose hypotheses speak about the members of
an array or object instead of about three mutually recursive lists.
-/

namespace Js

open List

/-- What `typeof` says of a value with no JSON form. -/
inductive ForeignKind
  | function
  | symbol
  | bigint
  deriving DecidableEq

inductive JsValue
  | undefined
  | null
  | bool (b : Bool)
  | num (n : JsNum)
  | str (s : JsString)
  | arr (xs : List JsValue)
  | obj (fields : List (JsString × JsValue))
  | foreign (kind : ForeignKind)

/-- The fields of an object. -/
abbrev Fields := List (JsString × JsValue)

variable {xs : List JsValue} {fs : Fields}

namespace JsValue

/-- **Induction on values**, with the members of arrays and objects as the smaller values. -/
@[elab_as_elim]
theorem induct {P : JsValue → Prop} (undefined : P .undefined) (null : P .null)
    (bool : ∀ b, P (.bool b)) (num : ∀ n, P (.num n)) (str : ∀ s, P (.str s))
    (arr : ∀ xs, (∀ x ∈ xs, P x) → P (.arr xs))
    (obj : ∀ fs : Fields, (∀ f ∈ fs, P f.2) → P (.obj fs))
    (foreign : ∀ k, P (.foreign k)) (v : JsValue) : P v := by
  refine @JsValue.rec P (fun xs ↦ ∀ x ∈ xs, P x) (fun fs ↦ ∀ f ∈ fs, P f.2) (fun f ↦ P f.2)
    undefined null bool num str arr obj foreign ?_ ?_ ?_ ?_ ?_ v
  · intro x hx
    cases hx
  · intro head tail hhead htail x hx
    rcases mem_cons.1 hx with rfl | hx
    · exact hhead
    · exact htail x hx
  · intro f hf
    cases hf
  · intro head tail hhead htail f hf
    rcases mem_cons.1 hf with rfl | hf
    · exact hhead
    · exact htail f hf
  · exact fun _ _ h ↦ h

/-! ### Equality is decidable -/

mutual

/-- Structural equality. -/
def same : JsValue → JsValue → Bool
  | .undefined, .undefined => true
  | .null, .null => true
  | .bool a, .bool b => a == b
  | .num a, .num b => a == b
  | .str a, .str b => a == b
  | .arr xs, .arr ys => sameElems xs ys
  | .obj fs, .obj gs => sameFields fs gs
  | .foreign a, .foreign b => a == b
  | _, _ => false

/-- Structural equality of elements. -/
def sameElems : List JsValue → List JsValue → Bool
  | [], [] => true
  | x :: xs, y :: ys => same x y && sameElems xs ys
  | _, _ => false

/-- Structural equality of fields. -/
def sameFields : Fields → Fields → Bool
  | [], [] => true
  | (k, x) :: fs, (l, y) :: gs => k == l && same x y && sameFields fs gs
  | _, _ => false

end

theorem sameElems_iff (h : ∀ x ∈ xs, ∀ y, same x y = true ↔ x = y) :
    ∀ ys, sameElems xs ys = true ↔ xs = ys := by
  induction xs with
  | nil => intro ys; cases ys <;> simp [sameElems]
  | cons x xs ih =>
    intro ys
    cases ys with
    | nil => simp [sameElems]
    | cons y ys =>
      rw [sameElems, Bool.and_eq_true, h x mem_cons_self,
        ih fun z hz ↦ h z (mem_cons_of_mem _ hz), cons.injEq]

theorem sameFields_iff (h : ∀ f ∈ fs, ∀ y, same f.2 y = true ↔ f.2 = y) :
    ∀ gs, sameFields fs gs = true ↔ fs = gs := by
  induction fs with
  | nil => intro gs; cases gs <;> simp [sameFields]
  | cons f fs ih =>
    intro gs
    obtain ⟨k, x⟩ := f
    cases gs with
    | nil => simp [sameFields]
    | cons g gs =>
      obtain ⟨l, y⟩ := g
      rw [sameFields, Bool.and_eq_true, Bool.and_eq_true, h (k, x) mem_cons_self,
        ih fun z hz ↦ h z (mem_cons_of_mem _ hz), cons.injEq, Prod.mk.injEq, beq_iff_eq]

/-- The test for equality decides it. -/
theorem same_iff (v : JsValue) : ∀ w, same v w = true ↔ v = w := by
  induction v using induct with
  | arr xs ih =>
    intro w
    cases w with
    | arr ys => rw [same, sameElems_iff ih, JsValue.arr.injEq]
    | _ => simp [same]
  | obj fs ih =>
    intro w
    cases w with
    | obj gs => rw [same, sameFields_iff ih, JsValue.obj.injEq]
    | _ => simp [same]
  | _ => intro w; cases w <;> simp [same]

instance : DecidableEq JsValue := fun v w ↦ decidable_of_iff _ (same_iff v w)

end JsValue

/-! ### Fields of an object -/

variable {key : JsString} {v : JsValue}

namespace Fields

/-- The value under a key; `undefined` when there is none. -/
def get : Fields → JsString → JsValue
  | [], _ => .undefined
  | (k, v) :: fs, key => if k = key then v else get fs key

/-- Assign a key: in place when it is there, at the end when it is not. -/
def set : Fields → JsString → JsValue → Fields
  | [], key, v => [(key, v)]
  | (k, w) :: fs, key, v => if k = key then (k, v) :: fs else (k, w) :: set fs key v

/-- `const { key:, ...rest } = fields` -/
def without (fs : Fields) (key : JsString) : Fields := fs.filter fun f ↦ f.1 ≠ key

/-- The keys, in enumeration order. -/
def keys (fs : Fields) : List JsString := fs.map Prod.fst

/-- Assign a list of fields one after the other, so that a later duplicate wins. -/
def ofList (fs : Fields) : Fields := fs.foldl (fun acc f ↦ acc.set f.1 f.2) []

@[simp] theorem get_nil (key : JsString) : get [] key = .undefined := rfl

theorem get_cons (k : JsString) (v : JsValue) (fs : Fields) (key : JsString) :
    get ((k, v) :: fs) key = if k = key then v else get fs key := rfl

/-- A key that is not there has the value `undefined`. -/
theorem get_of_not_mem (h : key ∉ fs.keys) : fs.get key = .undefined := by
  induction fs with
  | nil => rfl
  | cons f fs ih =>
    obtain ⟨k, v⟩ := f
    simp only [keys, map_cons, mem_cons, not_or] at h
    rw [get_cons, if_neg (Ne.symm h.1)]
    exact ih h.2

theorem get_mem (h : fs.get key ≠ .undefined) : (key, fs.get key) ∈ fs := by
  induction fs with
  | nil => exact absurd rfl h
  | cons f fs ih =>
    obtain ⟨k, v⟩ := f
    rw [get_cons] at h ⊢
    split at h
    · next hk => subst hk; simp
    · next hk => rw [if_neg hk]; exact mem_cons_of_mem _ (ih h)

/-- With distinct keys, a field that is there is the one `get` finds. -/
theorem get_eq_of_mem (hnd : fs.keys.Nodup) (h : (key, v) ∈ fs) : fs.get key = v := by
  induction fs with
  | nil => cases h
  | cons f fs ih =>
    obtain ⟨k, w⟩ := f
    rw [keys, map_cons, nodup_cons] at hnd
    rw [get_cons]
    rcases mem_cons.1 h with h | h
    · cases h
      rw [if_pos rfl]
    · have hkey : key ∈ fs.map Prod.fst := mem_map_of_mem (f := Prod.fst) h
      rw [if_neg fun hk : k = key ↦ hnd.1 (hk ▸ hkey), ih hnd.2 h]

theorem keys_set_of_mem (h : key ∈ fs.keys) : (fs.set key v).keys = fs.keys := by
  induction fs with
  | nil => cases h
  | cons f fs ih =>
    obtain ⟨k, w⟩ := f
    rw [set]
    split
    · rfl
    next hk =>
    have h' : key ∈ keys fs := by
      rcases mem_cons.1 h with h | h
      · exact absurd h.symm hk
      · exact h
    simpa [keys] using ih h'

/-- A new field comes last. -/
theorem set_of_not_mem (h : key ∉ fs.keys) : fs.set key v = fs ++ [(key, v)] := by
  induction fs with
  | nil => rfl
  | cons f fs ih =>
    obtain ⟨k, w⟩ := f
    simp only [keys, map_cons, mem_cons, not_or] at h
    rw [set, if_neg (Ne.symm h.1), ih h.2, cons_append]

theorem keys_append (fs gs : Fields) : keys (fs ++ gs) = fs.keys ++ gs.keys := map_append

/-- **Assignment keeps the keys distinct.** -/
theorem nodup_set (h : fs.keys.Nodup) (key : JsString) (v : JsValue) :
    (fs.set key v).keys.Nodup := by
  by_cases hk : key ∈ fs.keys
  · rwa [keys_set_of_mem hk]
  · rw [set_of_not_mem hk, keys_append]
    exact List.Nodup.append h (nodup_singleton _) (by simpa [keys] using hk)

/-- Assigning a field changes that field only. -/
theorem get_set (fs : Fields) (key : JsString) (v : JsValue) (k : JsString) :
    (fs.set key v).get k = if key = k then v else fs.get k := by
  induction fs with
  | nil => rfl
  | cons f fs ih =>
    obtain ⟨l, w⟩ := f
    rw [set]
    by_cases hl : l = key
    · subst hl
      rw [if_pos rfl, get_cons, get_cons]
      split <;> rfl
    · rw [if_neg hl, get_cons, get_cons, ih]
      by_cases hk : l = k
      · subst hk
        rw [if_pos rfl, if_pos rfl, if_neg (Ne.symm hl)]
      · rw [if_neg hk, if_neg hk]

variable {f : JsString × JsValue}

theorem mem_set (h : f ∈ fs.set key v) : f ∈ fs ∨ f = (key, v) := by
  induction fs with
  | nil => exact .inr (by simpa [set] using h)
  | cons g fs ih =>
    obtain ⟨k, w⟩ := g
    rw [set] at h
    split at h
    · next hk =>
      subst hk
      rcases mem_cons.1 h with h | h
      · exact .inr h
      · exact .inl (mem_cons_of_mem _ h)
    · rcases mem_cons.1 h with h | h
      · exact .inl (h ▸ mem_cons_self)
      · exact (ih h).imp_left (mem_cons_of_mem _)

theorem foldl_set_nodup : ∀ {acc : Fields}, acc.keys.Nodup →
    (fs.foldl (fun acc f ↦ acc.set f.1 f.2) acc).keys.Nodup := by
  induction fs with
  | nil => exact fun h ↦ h
  | cons f fs ih => exact fun h ↦ ih (nodup_set h _ _)

/-- An object built from a list has distinct keys. -/
theorem nodup_ofList (fs : Fields) : (ofList fs).keys.Nodup :=
  foldl_set_nodup nodup_nil

/-- Assigning distinct fields one by one appends them. -/
theorem foldl_set_of_nodup : ∀ {acc : Fields}, (acc ++ fs).keys.Nodup →
    fs.foldl (fun acc f ↦ acc.set f.1 f.2) acc = acc ++ fs := by
  induction fs with
  | nil => intro acc _; simp
  | cons f fs ih =>
    intro acc h
    obtain ⟨k, v⟩ := f
    have hk : k ∉ acc.keys := by
      rw [keys_append] at h
      intro hmem
      exact disjoint_of_nodup_append h hmem mem_cons_self
    rw [foldl_cons, set_of_not_mem hk, ih (by simpa using h), append_assoc, singleton_append]

/-- A list with distinct keys is already an object. -/
theorem ofList_eq_self (h : fs.keys.Nodup) : ofList fs = fs := by
  rw [ofList, foldl_set_of_nodup (by simpa using h), nil_append]

theorem mem_foldl_set : ∀ {acc : Fields} {f : JsString × JsValue},
    f ∈ fs.foldl (fun acc f ↦ acc.set f.1 f.2) acc → f ∈ acc ∨ f ∈ fs := by
  induction fs with
  | nil => exact .inl
  | cons g fs ih =>
    intro acc f h
    rcases ih h with h | h
    · rcases mem_set h with h | h
      · exact .inl h
      · exact .inr (h ▸ mem_cons_self)
    · exact .inr (mem_cons_of_mem _ h)

theorem mem_of_mem_ofList (h : f ∈ ofList fs) : f ∈ fs :=
  (mem_foldl_set h).resolve_left not_mem_nil

/-- Leaving out a field changes that field only. -/
theorem get_without (fs : Fields) (key k : JsString) :
    (fs.without key).get k = if k = key then .undefined else fs.get k := by
  induction fs with
  | nil => simp [without]
  | cons f fs ih =>
    obtain ⟨l, v⟩ := f
    by_cases hl : l = key
    · subst hl
      rw [without, filter_cons_of_neg (by simp), ← without, ih, get_cons]
      by_cases hk : k = l
      · simp [hk]
      · rw [if_neg hk, if_neg hk, if_neg (Ne.symm hk)]
    · rw [without, filter_cons_of_pos (by simpa using hl), ← without, get_cons, get_cons, ih]
      by_cases hlk : l = k
      · subst hlk
        simp [hl]
      · rw [if_neg hlk, if_neg hlk]

theorem nodup_without (h : fs.keys.Nodup) (key : JsString) : (fs.without key).keys.Nodup :=
  h.sublist (filter_sublist.map Prod.fst)

end Fields

namespace JsValue

/-- `v.key`, for a `v` that is not `null` or `undefined`. The names the source reads are no
properties of the prototypes, so anything but an object answers `undefined`. -/
def get : JsValue → JsString → JsValue
  | .obj fs, key => Fields.get fs key
  | _, _ => .undefined

/-- `typeof v === "object" && v !== null` -/
def isObject : JsValue → Bool
  | .arr _ => true
  | .obj _ => true
  | _ => false

/-- `typeof v === "string"` -/
def isString : JsValue → Bool
  | .str _ => true
  | _ => false

theorem isString_iff {v : JsValue} : v.isString = true ↔ ∃ s, v = .str s := by
  cases v <;> simp [isString]

/-- The text of a string value. -/
def asStr : JsValue → JsString
  | .str s => s
  | _ => []

/-- The number of a number value. -/
def asNum : JsValue → JsNum
  | .num n => n
  | _ => .nan

/-- `Boolean(v)` -/
def truthy : JsValue → Bool
  | .undefined => false
  | .null => false
  | .bool b => b
  | .num n => n ≠ .nan && n ≠ JsNum.ofInt 0
  | .str s => s ≠ []
  | _ => true

/-! ### The relational operators -/

mutual

/-- `String(v)`; `none` is a `TypeError`. An object whose own `toString` hides the inherited one has
no primitive form: a value that came out of `JSON.parse` cannot be called. -/
def toText : JsValue → Option JsString
  | .undefined => some (js "undefined")
  | .null => some (js "null")
  | .bool b => some (if b then js "true" else js "false")
  | .num n => some n.text
  | .str s => some s
  | .arr xs => (toTextElems xs).map (List.intercalate [44])
  | .obj fs => if js "toString" ∈ Fields.keys fs then none else some (js "[object Object]")
  | .foreign _ => none

/-- The texts `Array.prototype.join` puts between its commas. -/
def toTextElems : List JsValue → Option (List JsString)
  | [] => some []
  | x :: xs =>
    let head : Option JsString :=
      match x with
      | .undefined => some []
      | .null => some []
      | _ => toText x
    match head, toTextElems xs with
    | some t, some ts => some (t :: ts)
    | _, _ => none

end

/-- The digits of an unsigned decimal literal, as `Number("…")` reads it: a point needs a digit on
one side only. -/
def unsignedNumber (s : JsString) : JsNum :=
  let int := s.takeWhile isDigit
  let (frac, rest) :=
    match s.dropWhile isDigit with
    | [] => ([], [])
    | c :: cs => if c = 46 then (cs.takeWhile isDigit, cs.dropWhile isDigit) else ([], c :: cs)
  if int ++ frac = [] then .nan
  else
    match Decimal.parseExponent rest with
    | some (x, []) =>
      .finite (Decimal.normalise (Decimal.digitsValue (int ++ frac)) (x - frac.length))
    | _ => .nan

/-- The value of a digit in bases up to sixteen. -/
def hexValue (c : UInt16) : Option ℕ :=
  if isDigit c then some (c.toNat - 48)
  else if 97 ≤ c ∧ c ≤ 102 then some (c.toNat - 87)
  else if 65 ≤ c ∧ c ≤ 70 then some (c.toNat - 55)
  else none

/-- The value of a digit string in the base `b`, when all its units are digits of that base. -/
def radixValue (b : ℕ) (s : JsString) : Option ℕ :=
  s.foldl (fun acc c ↦ acc.bind fun n ↦
    (hexValue c).bind fun d ↦ if d < b then some (n * b + d) else none) (some 0)

/-- The base that the prefix of a literal such as `0x1f` announces. -/
def radixOf (c : UInt16) : Option ℕ :=
  if fold c = 120 then some 16 else if fold c = 111 then some 8
  else if fold c = 98 then some 2 else none

/-- A literal with a base, `0x1f` and the like. -/
def radixNumber : JsString → Option JsNum
  | zero :: mark :: digit :: digits =>
    if zero = 48 then
      (radixOf mark).map fun b ↦
        match radixValue b (digit :: digits) with
        | some n => JsNum.ofInt n
        | none => .nan
    else none
  | _ => none

/-- `Number(s)` -/
def numberOfText (s : JsString) : JsNum :=
  let t := ((s.dropWhile isSpace).reverse.dropWhile isSpace).reverse
  if t = [] then JsNum.ofInt 0
  else if let some n := radixNumber t then n
  else
    let (negative, u) := Decimal.splitSign t
    if u = js "Infinity" then .infinite negative
    else
      match unsignedNumber u with
      | .finite d => .finite (if negative then Decimal.normalise (-d.mantissa) d.exponent else d)
      | n => n

/-- `Number(v)` of a primitive. -/
def toNumber : JsValue → JsNum
  | .null => JsNum.ofInt 0
  | .bool b => JsNum.ofInt (if b then 1 else 0)
  | .num n => n
  | .str s => numberOfText s
  | _ => .nan

/-- The primitive an operand of `<` becomes. -/
def toPrimitive : JsValue → Option JsValue
  | .arr xs => (toText (.arr xs)).map .str
  | .obj fs => (toText (.obj fs)).map .str
  | v => some v

/-- `a < b`: two strings are compared by code units, anything else as numbers; `none` is a
`TypeError`. -/
def less (a b : JsValue) : Option Bool :=
  match toPrimitive a, toPrimitive b with
  | some (.str s), some (.str t) => some (s < t)
  | some p, some q => some ((toNumber p).less (toNumber q))
  | _, _ => none

@[simp] theorem less_str (s t : JsString) : less (.str s) (.str t) = some (decide (s < t)) := rfl

/-! ### Well-formed values -/

mutual

/-- Every object in the tree has distinct keys. -/
def WellFormed : JsValue → Prop
  | .arr xs => WellFormedElems xs
  | .obj fs => (Fields.keys fs).Nodup ∧ WellFormedFields fs
  | _ => True

/-- Every element is well formed. -/
def WellFormedElems : List JsValue → Prop
  | [] => True
  | x :: xs => WellFormed x ∧ WellFormedElems xs

/-- Every field value is well formed. -/
def WellFormedFields : Fields → Prop
  | [] => True
  | (_, x) :: fs => WellFormed x ∧ WellFormedFields fs

end

theorem wellFormedElems_iff : WellFormedElems xs ↔ ∀ x ∈ xs, WellFormed x := by
  induction xs with
  | nil => simp [WellFormedElems]
  | cons x xs ih => simp [WellFormedElems, ih]

theorem wellFormedFields_iff : WellFormedFields fs ↔ ∀ f ∈ fs, WellFormed f.2 := by
  induction fs with
  | nil => simp [WellFormedFields]
  | cons f fs ih => simp [WellFormedFields, ih]

theorem wellFormed_arr : WellFormed (.arr xs) ↔ ∀ x ∈ xs, WellFormed x := wellFormedElems_iff

/-- An object is well-formed if its keys are distinct and its fields are well-formed. -/
theorem wellFormed_obj : WellFormed (.obj fs) ↔ (Fields.keys fs).Nodup ∧ ∀ f ∈ fs, WellFormed f.2 :=
  and_congr_right fun _ ↦ wellFormedFields_iff

end JsValue

/-! ### Fields in key order -/

/-- The order of `Array.prototype.sort` on keys, lifted to fields. -/
def keyLe {α : Type*} (f g : JsString × α) : Prop := f.1 ≤ g.1

instance {α : Type*} : DecidableRel (keyLe (α := α)) :=
  fun f g ↦ inferInstanceAs (Decidable (f.1 ≤ g.1))

/-- Fields in the order of their keys. -/
def sortKeys {α : Type*} (fs : List (JsString × α)) : List (JsString × α) := fs.insertionSort keyLe

/-- Sorting the keys keeps the fields. -/
theorem sortKeys_perm {α : Type*} (fs : List (JsString × α)) : (sortKeys fs).Perm fs :=
  perm_insertionSort _ _

theorem mem_sortKeys {α : Type*} {fs : List (JsString × α)} {f : JsString × α} :
    f ∈ sortKeys fs ↔ f ∈ fs :=
  (sortKeys_perm fs).mem_iff

end Js

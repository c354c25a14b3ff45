import Utix.Js.Number
import Utix.Lib.Dict

/-!
# Schema guardrails

`core/schema/guardrails.ts`: records are checked against a schema, and a schema against the one
before it. A compatible change keeps the types of required fields only, so that old readers accept
what the new schema accepts exactly when the optional fields keep theirs.

A schema is its version, the names of the required fields and the type of each declared field. A
record is known by what `typeof` answers for each of its properties, which is all that the checks
ask of it. Looking up a type in the object of fields also finds what every object inherits, such as
`constructor`; so a required field of such a name counts as declared without being so.

`evolution_law` also says that compatibility is transitive along a chain of versions, as long as
none is `NaN`: such a version is not at most any other one, and passes the check in both directions
(`evolution_retyped`).
-/

namespace Utix.Schema

open Js Lib List

/-- What `typeof` answers. -/
inductive TypeOf
  | undefined | boolean | number | bigint | string | symbol | function | object
deriving DecidableEq

inductive FieldType
  | string | number | boolean | object
deriving DecidableEq

def FieldType.typeOf : FieldType → TypeOf
  | .string => .string
  | .number => .number
  | .boolean => .boolean
  | .object => .object

structure SchemaDefinition where
  version : JsNum
  required : List JsString
  fields : Dict JsString FieldType

structure SchemaGuardResult where
  compatible : Bool
  breaking : List JsString

/-- An object: `typeof` for each property it has or inherits. -/
abbrev JsObject := JsString → Option TypeOf

/-- What `fields[key]` finds; all of it is truthy, and what is inherited is the same everywhere. -/
inductive Slot
  | declared (type : FieldType)
  | inherited
deriving DecidableEq

def SchemaDefinition.slot (definition : SchemaDefinition) (key : JsString) : Option Slot :=
  match definition.fields.get key with
  | some type => some (.declared type)
  | none => if key ∈ prototypeKeys then some .inherited else none

/-- `value` is `none` when it is not an object. -/
def validateSchemaRecord (definition : SchemaDefinition) : Option JsObject → Bool
  | none => false
  | some record => definition.required.all (fun key ↦ (record key).isSome) &&
      definition.fields.entries.all fun (key, type) ↦ (record key).all (· = type.typeOf)

def checkSchemaEvolution (previous next : SchemaDefinition) : SchemaGuardResult :=
  let breaking :=
    previous.required.filter (fun key ↦ key ∉ next.required ∨ next.slot key = none) ++
    (previous.required.filter fun key ↦
      next.slot key ≠ none ∧ previous.slot key ≠ next.slot key).map (· ++ js ":type") ++
    if next.version.atMost previous.version then [js "version must increase"] else []
  ⟨breaking.isEmpty, breaking⟩

variable {previous next : SchemaDefinition}

abbrev Compatible (previous next : SchemaDefinition) : Prop :=
  (checkSchemaEvolution previous next).compatible = true

/-- What a change of schema is checked for: the required fields stay required and keep their types,
and the version is not at most the one before. -/
theorem compatible_iff : Compatible previous next ↔
    (∀ key ∈ previous.required, key ∈ next.required ∧ next.slot key ≠ none ∧
      previous.slot key = next.slot key) ∧ next.version.atMost previous.version = false := by
  simp only [Compatible, checkSchemaEvolution, List.isEmpty_iff, append_eq_nil_iff, map_eq_nil_iff,
    filter_eq_nil_iff, decide_eq_true_eq, ite_eq_right_iff]
  grind

/-- A record is accepted when the required fields are there and every declared field that is there
has its type. -/
theorem validateSchemaRecord_iff {definition : SchemaDefinition} {record : JsObject} :
    validateSchemaRecord definition (some record) = true ↔
      (∀ key ∈ definition.required, (record key).isSome = true) ∧
        ∀ key type, definition.fields.get key = some type →
          ∀ t ∈ record key, t = type.typeOf := by
  simp [validateSchemaRecord, ← Dict.mem_entries_iff, Option.all_eq_true]

/-- Every record that the next schema accepts was accepted before. -/
def Readable (previous next : SchemaDefinition) : Prop :=
  ∀ value, validateSchemaRecord next value = true → validateSchemaRecord previous value = true

/-- The next schema still declares every field. -/
abbrev Declares (previous next : SchemaDefinition) : Prop :=
  previous.fields.entries.map Prod.fst ⊆ next.fields.entries.map Prod.fst

/-- Old readers accept what the next schema accepts exactly if every declared field keeps its
type. -/
theorem readable_iff (h : Compatible previous next) (hdeclares : Declares previous next) :
    Readable previous next ↔
      ∀ key type, previous.fields.get key = some type → next.fields.get key = some type := by
  constructor
  · intro hreadable key type hkey
    obtain ⟨⟨key, type'⟩, hentry, rfl⟩ := mem_map.1
      (hdeclares (mem_map_of_mem (Dict.mem_entries_iff.2 hkey)))
    have hkey' := Dict.mem_entries_iff.1 hentry
    -- a record with every field of the next schema, each of the type that is declared there
    let record : JsObject := fun key ↦ match next.fields.get key with
      | some type => some type.typeOf
      | none => if key ∈ next.required then some .object else none
    have haccepted : validateSchemaRecord next (some record) = true := by
      refine validateSchemaRecord_iff.2 ⟨fun key hkey ↦ ?_, fun key type hkey ↦ ?_⟩
      · simp only [record]
        split <;> simp [hkey]
      · simp [record, hkey]
    have htype := (validateSchemaRecord_iff.1 (hreadable _ haccepted)).2 key type hkey
    simp only [record, hkey', Option.mem_some_iff, forall_eq'] at htype
    rw [hkey']
    revert htype
    cases type <;> cases type' <;> decide
  · rintro htypes (_ | record) haccepted
    · cases haccepted
    · obtain ⟨hrequired, hfields⟩ := validateSchemaRecord_iff.1 haccepted
      exact validateSchemaRecord_iff.2
        ⟨fun key hkey ↦ hrequired key ((compatible_iff.1 h).1 key hkey).1,
          fun key type hkey ↦ hfields key type (htypes key type hkey)⟩

theorem atMost_finite (a b : Decimal) :
    (JsNum.finite a).atMost (.finite b) = decide (a.value ≤ b.value) := by
  simp [JsNum.atMost, JsNum.less, JsNum.equals, Decimal.less_eq, le_iff_lt_or_eq,
    Decimal.value_injective.eq_iff]

/-- A change is compatible with what the change before it is, unless their version is `NaN`. -/
theorem Compatible.trans {d : SchemaDefinition} (hversion : next.version ≠ .nan)
    (h : Compatible previous next) (h' : Compatible next d) : Compatible previous d := by
  rw [compatible_iff] at h h' ⊢
  refine ⟨fun key hkey ↦ ?_, ?_⟩
  · obtain ⟨hmem, -, hslot⟩ := h.1 key hkey
    obtain ⟨hmem', hsome, hslot'⟩ := h'.1 key hmem
    exact ⟨hmem', hsome, hslot.trans hslot'⟩
  · have hlow := h.2
    have hhigh := h'.2
    generalize previous.version = x, next.version = y, d.version = z at *
    cases x <;> cases y <;> cases z <;>
      grind [JsNum.atMost, JsNum.less, JsNum.equals, atMost_finite]

/-- **What a compatible change keeps.** Old readers accept what the next schema accepts exactly when
it keeps the types of the optional fields too, and any later version of a chain is compatible with
any earlier one as long as no version is `NaN`. -/
theorem evolution_law :
    (∀ previous next, Compatible previous next → Declares previous next →
      (Readable previous next ↔ ∀ key type, previous.fields.get key = some type →
        next.fields.get key = some type)) ∧
    ∀ chain : List SchemaDefinition, (∀ d ∈ chain, d.version ≠ .nan) →
      chain.IsChain Compatible → chain.Pairwise Compatible := by
  refine ⟨fun _ _ ↦ readable_iff, fun chain hversions hchain ↦ ?_⟩
  induction hchain with
  | nil => exact .nil
  | singleton d => exact pairwise_singleton _ d
  | @cons_cons first second rest h hrest ih =>
    have ih := ih fun d hd ↦ hversions d (mem_cons_of_mem _ hd)
    refine pairwise_cons.2 ⟨fun d hd ↦ ?_, ih⟩
    rcases mem_cons.1 hd with rfl | hd
    · exact h
    · exact h.trans (hversions second (by simp)) (rel_of_pairwise_cons ih hd)

/-- The type of an optional field may change, and a version that is `NaN` is never too low. -/
theorem evolution_retyped :
    (∃ previous next, Compatible previous next ∧ Declares previous next ∧
      ¬ Readable previous next) ∧
    ∃ a b c, Compatible a b ∧ Compatible b c ∧ ¬ Compatible a c := by
  refine ⟨⟨⟨.ofInt 1, [], .ofList [(js "a", .string)]⟩, ⟨.ofInt 2, [], .ofList [(js "a", .number)]⟩,
    by decide +kernel, by decide +kernel, fun h ↦ ?_⟩, ⟨.ofInt 2, [], .empty⟩, ⟨.nan, [], .empty⟩,
    ⟨.ofInt 1, [], .empty⟩, by decide +kernel, by decide +kernel, by decide +kernel⟩
  exact absurd (h (some fun _ ↦ some .number) (by decide +kernel)) (by decide +kernel)

end Utix.Schema

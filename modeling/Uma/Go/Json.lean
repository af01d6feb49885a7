import Uma.Go.Strings

/-!
# `encoding/json`: values, the encoder and the decoder's parser

A JSON value is `JsonValue`. Objects keep their members in the order of the text, duplicates
included; a number keeps its text, as `json.Number` does. What Go builds from a value (a map, a
struct) is decided by the decoding functions that use the parse, later.

**The encoder** is `json.Marshal` as of Go 1.21 on strings, integers, slices and structs: strings
are quoted with `appendString` and HTML escaping on (`<`, `>`, `&` become `<` and so on, as do
U+2028 and U+2029); object members come in the order given.

**The parser** is the scanner's grammar together with the decoder's `unquote`: white space, the
literals, numbers, strings with their escapes (a `\u` escape of a lone surrogate reads as U+FFFD,
a pair as the rune it encodes), arrays and objects nested at most `maxNestingDepth` deep. A
control character inside a string, a missing separator, or anything after the value but white
space makes the text invalid. The mutual recursion runs on a fuel argument; `parse` gives it
twice the length of the text, more than any run uses, since every second call reads a character.
-/

namespace Go

/-- A JSON value. -/
inductive JsonValue
  | null
  | bool (b : Bool)
  | number (lit : String)
  | string (s : String)
  | array (elems : List JsonValue)
  | object (members : List (String × JsonValue))

/-- The kind of a value, as a `*json.UnmarshalTypeError` names it. -/
def JsonValue.kind : JsonValue → String
  | .null => "null"
  | .bool _ => "bool"
  | .number _ => "number"
  | .string _ => "string"
  | .array _ => "array"
  | .object _ => "object"

/-! ## The encoder -/

/-- `hex[n]` of `encoding/json`, for `n < 16`. -/
def hexDigit (n : Nat) : Char := Nat.digitChar n

/-- What `appendString` writes for one rune when it escapes HTML. -/
def escapeRune (c : Char) : List Char :=
  if c = '"' then ['\\', '"']
  else if c = '\\' then ['\\', '\\']
  else if c = '\n' then ['\\', 'n']
  else if c = '\r' then ['\\', 'r']
  else if c = '\t' then ['\\', 't']
  else if c.toNat < 0x20 ∨ c = '<' ∨ c = '>' ∨ c = '&' then
    ['\\', 'u', '0', '0', hexDigit (c.toNat / 16), hexDigit (c.toNat % 16)]
  else if c.toNat = 0x2028 ∨ c.toNat = 0x2029 then
    ['\\', 'u', '2', '0', '2', hexDigit (c.toNat % 16)]
  else [c]

/-- A string, quoted. -/
def encodeString (s : String) : List Char := '"' :: (s.data.flatMap escapeRune ++ ['"'])

mutual
/-- The text `json.Marshal` writes for a value. -/
def JsonValue.encode : JsonValue → List Char
  | .null => ['n', 'u', 'l', 'l']
  | .bool b => if b then ['t', 'r', 'u', 'e'] else ['f', 'a', 'l', 's', 'e']
  | .number lit => lit.data
  | .string s => encodeString s
  | .array vs => '[' :: (encodeElements vs ++ [']'])
  | .object ms => '{' :: (encodeMembers ms ++ ['}'])
/-- Array elements, separated by commas. -/
def encodeElements : List JsonValue → List Char
  | [] => []
  | [v] => v.encode
  | v :: vs => v.encode ++ ',' :: encodeElements vs
/-- Object members, separated by commas. -/
def encodeMembers : List (String × JsonValue) → List Char
  | [] => []
  | [(k, v)] => encodeString k ++ ':' :: v.encode
  | (k, v) :: ms => encodeString k ++ ':' :: (v.encode ++ ',' :: encodeMembers ms)
end

/-- An `int` slice, as `json.Marshal` writes a non-nil `[]int`. -/
def intArray (ns : List Int64) : JsonValue := .array (ns.map fun n => .number ⟨formatInt n.val⟩)

/-! ## The parser -/

/-- JSON white space. -/
def isWs (c : Char) : Bool := c == ' ' || c == '\t' || c == '\n' || c == '\r'

/-- Skip white space. -/
def skipWs (s : List Char) : List Char := s.dropWhile isWs

/-- The value of a hexadecimal digit. -/
def hexVal (c : Char) : Option Nat :=
  if '0' ≤ c ∧ c ≤ '9' then some (c.toNat - 48)
  else if 'a' ≤ c ∧ c ≤ 'f' then some (c.toNat - 87)
  else if 'A' ≤ c ∧ c ≤ 'F' then some (c.toNat - 55)
  else none

/-- The value of the four hexadecimal digits of a `\u` escape. -/
def hex4 (a b c d : Char) : Option Nat := do
  let a ← hexVal a
  let b ← hexVal b
  let c ← hexVal c
  let d ← hexVal d
  pure (((a * 16 + b) * 16 + c) * 16 + d)

/-- `utf16.IsSurrogate`. -/
def isSurrogate (r : Nat) : Bool := 0xD800 ≤ r && r < 0xE000

/-- `utf16.DecodeRune`: the rune of a surrogate pair, if the two units are one. -/
def decodeSurrogates (r₁ r₂ : Nat) : Option Char :=
  if 0xD800 ≤ r₁ ∧ r₁ < 0xDC00 ∧ 0xDC00 ≤ r₂ ∧ r₂ < 0xE000 then
    some (Char.ofNat ((r₁ - 0xD800) * 0x400 + (r₂ - 0xDC00) + 0x10000))
  else none

/-- The runes a `\u` escape of unit `r` writes, and the surrogate it leaves waiting, given the one a
`\u` escape just before it left waiting. `unquote` looks ahead from a surrogate to the escape after
it; here the surrogate waits for that escape instead, which writes the same runes: the pair's rune
if the two units are a pair, and otherwise U+FFFD for the first and the second as it stands. -/
def escapeUnit (pending : Option Nat) (r : Nat) : List Char × Option Nat :=
  let lone := if isSurrogate r then ([], some r) else ([Char.ofNat r], none)
  match pending with
  | none => lone
  | some r₁ =>
    match decodeSurrogates r₁ r with
    | some c => ([c], none)
    | none => ('�' :: lone.1, lone.2)

/-- What a surrogate left waiting writes when no escape follows it: U+FFFD. -/
def flushUnit : Option Nat → List Char
  | none => []
  | some _ => ['�']

/-- The rune a one-character escape stands for. -/
def simpleEscape : Char → Option Char
  | '"' => some '"'
  | '\\' => some '\\'
  | '/' => some '/'
  | 'b' => some (Char.ofNat 8)
  | 'f' => some (Char.ofNat 12)
  | 'n' => some '\n'
  | 'r' => some '\r'
  | 't' => some '\t'
  | _ => none

/-- Put runes in front of the text read so far. -/
def prependRunes (cs : List Char) : Option (List Char × List Char) → Option (List Char × List Char) :=
  Option.map fun (cs', s) => (cs ++ cs', s)

/-- The text of a string after its opening quote: the unquoted runes, and what follows the closing
quote. `pending` is the surrogate the last `\u` escape left waiting. -/
def parseStringBody (pending : Option Nat) : List Char → Option (List Char × List Char)
  | [] => none
  | '"' :: s => some (flushUnit pending, s)
  | '\\' :: 'u' :: a :: b :: c :: d :: s =>
    match hex4 a b c d with
    | some r => prependRunes (escapeUnit pending r).1 (parseStringBody (escapeUnit pending r).2 s)
    | none => none
  | '\\' :: e :: s =>
    match simpleEscape e with
    | some c => prependRunes (flushUnit pending ++ [c]) (parseStringBody none s)
    | none => none
  | c :: s =>
    if c.toNat < 0x20 then none else prependRunes (flushUnit pending ++ [c]) (parseStringBody none s)

/-- An optional sign of an exponent. -/
def expSign : List Char → List Char × List Char
  | '+' :: s => (['+'], s)
  | '-' :: s => (['-'], s)
  | s => ([], s)

/-- The fraction of a number: `.` and at least one digit, or nothing. -/
def parseFrac : List Char → Option (List Char × List Char)
  | '.' :: s => match s.span Char.isDigit with
    | ([], _) => none
    | (ds, s) => some ('.' :: ds, s)
  | s => some ([], s)

/-- The exponent of a number: `e` or `E`, a sign, at least one digit; or nothing. -/
def parseExp : List Char → Option (List Char × List Char)
  | e :: s =>
    if e = 'e' ∨ e = 'E' then
      match (expSign s).2.span Char.isDigit with
      | ([], _) => none
      | (ds, s') => some (e :: ((expSign s).1 ++ ds), s')
    else some ([], e :: s)
  | [] => some ([], [])

/-- The integer part of a number: `0`, or a digit from 1 to 9 and more digits. -/
def parseIntPart : List Char → Option (List Char × List Char)
  | '0' :: s => some (['0'], s)
  | c :: s => if c.isDigit then some (c :: (s.span Char.isDigit).1, (s.span Char.isDigit).2)
    else none
  | [] => none

/-- A number: `-`?, the integer part, the fraction, the exponent. -/
def parseNumber (s : List Char) : Option (List Char × List Char) := do
  let (sign, s) := match s with
    | '-' :: s => (['-'], s)
    | s => ([], s)
  let (i, s) ← parseIntPart s
  let (f, s) ← parseFrac s
  let (e, s) ← parseExp s
  pure (sign ++ i ++ f ++ e, s)

/-- `maxNestingDepth` of the scanner. -/
def maxNestingDepth : Nat := 10000

mutual
/-- One value, after white space; `depth` arrays and objects are open around it. -/
def parseValue : Nat → Nat → List Char → Option (JsonValue × List Char)
  | 0, _, _ => none
  | fuel + 1, depth, s =>
    match skipWs s with
    | 'n' :: 'u' :: 'l' :: 'l' :: s => some (.null, s)
    | 't' :: 'r' :: 'u' :: 'e' :: s => some (.bool true, s)
    | 'f' :: 'a' :: 'l' :: 's' :: 'e' :: s => some (.bool false, s)
    | '"' :: s => (parseStringBody none s).map fun (cs, s) => (.string ⟨cs⟩, s)
    | '[' :: s =>
      if depth < maxNestingDepth then
        match skipWs s with
        | ']' :: s => some (.array [], s)
        | _ => (parseElements fuel (depth + 1) s).map fun (vs, s) => (.array vs, s)
      else none
    | '{' :: s =>
      if depth < maxNestingDepth then
        match skipWs s with
        | '}' :: s => some (.object [], s)
        | _ => (parseMembers fuel (depth + 1) s).map fun (ms, s) => (.object ms, s)
      else none
    | s => (parseNumber s).map fun (cs, s) => (.number ⟨cs⟩, s)
/-- The elements of a non-empty array, through its closing bracket. -/
def parseElements : Nat → Nat → List Char → Option (List JsonValue × List Char)
  | 0, _, _ => none
  | fuel + 1, depth, s =>
    match parseValue fuel depth s with
    | none => none
    | some (v, s) =>
      match skipWs s with
      | ',' :: s => (parseElements fuel depth s).map fun (vs, s) => (v :: vs, s)
      | ']' :: s => some ([v], s)
      | _ => none
/-- The members of a non-empty object, through its closing brace. -/
def parseMembers : Nat → Nat → List Char → Option (List (String × JsonValue) × List Char)
  | 0, _, _ => none
  | fuel + 1, depth, s =>
    match skipWs s with
    | '"' :: s =>
      match parseStringBody none s with
      | none => none
      | some (k, s) =>
        match skipWs s with
        | ':' :: s =>
          match parseValue fuel depth s with
          | none => none
          | some (v, s) =>
            match skipWs s with
            | ',' :: s => (parseMembers fuel depth s).map fun (ms, s) => ((⟨k⟩, v) :: ms, s)
            | '}' :: s => some ([(⟨k⟩, v)], s)
            | _ => none
        | _ => none
    | _ => none
end

/-- The scanner's `checkValid` and the decoder together: the text is one value and white space. -/
def parse (data : List Char) : Option JsonValue :=
  match parseValue (2 * data.length + 2) 0 data with
  | some (v, s) => if skipWs s = [] then some v else none
  | none => none

/-! ## Compacting -/

/-- Where `compact` stands: between tokens, inside a string, or right after a backslash in one. -/
inductive CompactState
  | outside
  | inString
  | escaped

/-- The escape that `compact` writes, escaping HTML, for `<`, `>`, `&`, U+2028 and U+2029. -/
def htmlEscape (c : Char) : Option (List Char) :=
  if c = '<' ∨ c = '>' ∨ c = '&' then
    some ['\\', 'u', '0', '0', hexDigit (c.toNat / 16), hexDigit (c.toNat % 16)]
  else if c.toNat = 0x2028 ∨ c.toNat = 0x2029 then
    some ['\\', 'u', '2', '0', '2', hexDigit (c.toNat % 16)]
  else none

/-- `appendCompact(dst, src, true)` on text the scanner accepts: white space between tokens goes,
and the characters `htmlEscape` escapes are written escaped. -/
def compact : CompactState → List Char → List Char
  | _, [] => []
  | st, c :: s =>
    match htmlEscape c with
    | some e => e ++ compact st s
    | none =>
      match st with
      | .outside =>
        if isWs c then compact .outside s
        else c :: compact (if c = '"' then .inString else .outside) s
      | .inString =>
        c :: compact (if c = '"' then .outside else if c = '\\' then .escaped else .inString) s
      | .escaped => c :: compact .inString s

/-- `json.Marshal` on a value whose `MarshalJSON` method returned `b`: an error of the method, or
text that is not JSON, is a `*json.MarshalerError`; JSON text comes out compacted. -/
def marshalMarshaler (b : Except GoError (List Char)) : Except GoError (List Char) :=
  match b with
  | .ok b => if (parse b).isSome then .ok (compact .outside b) else .error .jsonMarshaler
  | .error _ => .error .jsonMarshaler

end Go

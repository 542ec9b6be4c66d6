import AsmTrace.Text.Quoted

/-!
# Faults of a JSON text

Why a text is not JSON, or is JSON but not what was asked for, and where.
-/

namespace AsmTrace.Json

/-- What kind of value was found. -/
inductive Shape where
  | null
  | bool (b : Bool)
  | integer (n : Int)
  /-- A number that is not an integer of 64 bits, by its shortest text. -/
  | float (text : String)
  | string (s : String)
  | sequence
  | map
  deriving DecidableEq, Repr

def Shape.describe : Shape → String
  | .null => "null"
  | .bool true => "boolean `true`"
  | .bool false => "boolean `false`"
  | .integer n => s!"integer `{n}`"
  | .float text => s!"floating point `{text}`"
  | .string s => "string " ++ Text.quoted s
  | .sequence => "sequence"
  | .map => "map"

inductive Cause where
  | endInValue | endInString | endInList | endInObject
  | expectedColon | expectedListEnd | expectedObjectEnd | expectedWord | expectedValue
  | invalidEscape | invalidNumber | numberOutOfRange | controlCharacter | keyNotString
  | loneSurrogate | endOfHexEscape | trailingComma | trailingCharacters | tooDeep
  | invalidType (found : Shape) (expected : String)
  | invalidLength (found : Nat) (expected : String)
  | unknownVariant (name : String) (expected : String)
  | missingField (name : String)
  | duplicateField (name : String)
  deriving DecidableEq, Repr

/-- Whether a text ended too early, is malformed otherwise, or says something that was not asked
for. -/
inductive Category where
  | eof | malformed | data
  deriving DecidableEq, Repr

namespace Cause

def category : Cause → Category
  | .endInValue | .endInString | .endInList | .endInObject => .eof
  | .invalidType .. | .invalidLength .. | .unknownVariant .. | .missingField _
  | .duplicateField _ => .data
  | _ => .malformed

def message : Cause → String
  | .endInValue => "EOF while parsing a value"
  | .endInString => "EOF while parsing a string"
  | .endInList => "EOF while parsing a list"
  | .endInObject => "EOF while parsing an object"
  | .expectedColon => "expected `:`"
  | .expectedListEnd => "expected `,` or `]`"
  | .expectedObjectEnd => "expected `,` or `\x7d`"
  | .expectedWord => "expected ident"
  | .expectedValue => "expected value"
  | .invalidEscape => "invalid escape"
  | .invalidNumber => "invalid number"
  | .numberOutOfRange => "number out of range"
  | .controlCharacter => "control character (\\u0000-\\u001F) found while parsing a string"
  | .keyNotString => "key must be a string"
  | .loneSurrogate => "lone leading surrogate in hex escape"
  | .endOfHexEscape => "unexpected end of hex escape"
  | .trailingComma => "trailing comma"
  | .trailingCharacters => "trailing characters"
  | .tooDeep => "recursion limit exceeded"
  | .invalidType found expected => s!"invalid type: {found.describe}, expected {expected}"
  | .invalidLength found expected => s!"invalid length {found}, expected {expected}"
  | .unknownVariant name expected => s!"unknown variant `{name}`, expected {expected}"
  | .missingField name => s!"missing field `{name}`"
  | .duplicateField name => s!"duplicate field `{name}`"

end Cause

/-- Where a fault is, by the text that is left. -/
inductive Mark where
  /-- After the last character read. -/
  | behind (rest : List Char)
  /-- At the next character. -/
  | ahead (rest : List Char)
  /-- Nowhere in particular. -/
  | nowhere
  deriving DecidableEq, Repr

structure Fault where
  cause : Cause
  mark : Mark
  deriving DecidableEq, Repr

/-- How many bytes characters take up. -/
def byteLength (cs : List Char) : Nat := cs.foldl (fun n c => n + c.utf8Size) 0

/-- The line and the column, in bytes, after some characters. -/
def position (read : List Char) : Nat × Nat :=
  let lastLine := read.reverse.takeWhile (· != '\n')
  (1 + read.count '\n', byteLength lastLine)

/-- The line and the column of a mark in a text. -/
def Mark.locate (text : List Char) : Mark → Option (Nat × Nat)
  | .nowhere => none
  | .behind rest => some (position (text.take (text.length - rest.length)))
  | .ahead rest =>
    let (line, column) := position (text.take (text.length - rest.length))
    match rest with
    | [] => some (line, column)
    | '\n' :: _ => some (line + 1, 0)
    | _ :: _ => some (line, column + 1)

/-- The message of a fault in a text, with its place. -/
def Fault.message (f : Fault) (text : String) : String :=
  match f.mark.locate text.toList with
  | some (line, column) => s!"{f.cause.message} at line {line} column {column}"
  | none => f.cause.message

end AsmTrace.Json

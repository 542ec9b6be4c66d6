/-!
# JSON values

The values that answers are made of, and their two written forms: on one line without blanks, and
spread over lines with two blanks for each level. All numbers are integers.
-/

namespace AsmTrace

inductive Json where
  | null
  | bool (b : Bool)
  | num (n : Int)
  | str (s : String)
  | arr (items : List Json)
  | obj (fields : List (String × Json))

namespace Json

/-- A hexadecimal digit in lower case. -/
def hexDigit (n : Nat) : Char := Nat.digitChar (n % 16)

/-- A character inside a string: quotes, backslashes and control characters are escaped. -/
def escape (c : Char) : List Char :=
  match c with
  | '"' => ['\\', '"']
  | '\\' => ['\\', '\\']
  | '\n' => ['\\', 'n']
  | '\r' => ['\\', 'r']
  | '\t' => ['\\', 't']
  | '\x08' => ['\\', 'b']
  | '\x0c' => ['\\', 'f']
  | c =>
    if c.toNat < 0x20 then ['\\', 'u', '0', '0', hexDigit (c.toNat / 16), hexDigit c.toNat]
    else [c]

def writeString (out s : String) : String :=
  (s.toList.foldl (fun out c => (escape c).foldl String.push out) (out.push '"')).push '"'

mutual

/-- Appends the form without blanks. -/
def writeCompact (out : String) : Json → String
  | .null => out ++ "null"
  | .bool b => out ++ (if b then "true" else "false")
  | .num n => out ++ toString n
  | .str s => writeString out s
  | .arr items => (writeItems (out.push '[') true items).push ']'
  | .obj fields => (writeFields (out.push '\x7b') true fields).push '\x7d'

def writeItems (out : String) (first : Bool) : List Json → String
  | [] => out
  | item :: rest =>
    let out := if first then out else out.push ','
    writeItems (writeCompact out item) false rest

def writeFields (out : String) (first : Bool) : List (String × Json) → String
  | [] => out
  | (key, item) :: rest =>
    let out := if first then out else out.push ','
    writeFields (writeCompact ((writeString out key).push ':') item) false rest

end

def compact (j : Json) : String := writeCompact "" j

/-- Starts a line at a level. -/
def newLine (out : String) (level : Nat) : String :=
  (List.replicate (2 * level) ' ').foldl String.push (out.push '\n')

mutual

/-- Appends the form spread over lines, from a level on. -/
def writePretty (out : String) (level : Nat) : Json → String
  | .arr (item :: rest) =>
    (newLine (prettyItems (out.push '[') (level + 1) true (item :: rest)) level).push ']'
  | .obj (field :: rest) =>
    (newLine (prettyFields (out.push '\x7b') (level + 1) true (field :: rest)) level).push '\x7d'
  | .null => out ++ "null"
  | .bool b => out ++ (if b then "true" else "false")
  | .num n => out ++ toString n
  | .str s => writeString out s
  | .arr [] => out ++ "[]"
  | .obj [] => (out.push '\x7b').push '\x7d'

def prettyItems (out : String) (level : Nat) (first : Bool) : List Json → String
  | [] => out
  | item :: rest =>
    let out := newLine (if first then out else out.push ',') level
    prettyItems (writePretty out level item) level false rest

def prettyFields (out : String) (level : Nat) (first : Bool) : List (String × Json) → String
  | [] => out
  | (key, item) :: rest =>
    let out := newLine (if first then out else out.push ',') level
    prettyFields (writePretty (writeString out key ++ ": ") level item) level false rest

end

def pretty (j : Json) : String := writePretty "" 0 j

end Json

end AsmTrace

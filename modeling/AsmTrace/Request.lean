import AsmTrace.Json.Reader

/-!
# Requests

A request is an object whose field `op` says what to do, or a list that starts with it. Whatever is
wrong with `op` or with the value as a whole is reported as soon as it is read; the other fields are
looked at when the value is complete, and the end of the text after that.
-/

namespace AsmTrace

inductive Request where
  /-- Run the program at a path. -/
  | run (session path : String)
  /-- Move to the next snapshot. -/
  | next (session : String)
  deriving DecidableEq, Repr

namespace Request

open Json (Cause Fault Shape)

/-- What a request asks for. -/
inductive Kind where
  | run | next
  deriving DecidableEq, Repr

/-- The session of a request that names none. -/
def defaultSession : String := "default"

def kindField : String := "op"

def readKindName (name : String) (rest : List Char) : Except Fault (Kind × List Char) :=
  match name with
  | "get-output" => .ok (.run, rest)
  | "next-output" => .ok (.next, rest)
  | _ => .error ⟨.unknownVariant name "`get-output` or `next-output`", .behind rest⟩

/-- The value of `op`, which has to be a string. -/
def readKind (cs : List Char) : Except Fault (Kind × List Char) :=
  let expected := "variant identifier"
  match Json.skipSpace cs with
  | '[' :: rest => .error ⟨.invalidType .sequence expected, .behind ('[' :: rest)⟩
  | '\x7b' :: rest => .error ⟨.invalidType .map expected, .behind ('\x7b' :: rest)⟩
  | cs =>
    match Json.readScalar cs with
    | .error fault => .error fault
    | .ok (.string name, rest) => readKindName name rest
    | .ok (shape, rest) => .error ⟨.invalidType shape expected, .behind rest⟩

/-- The text that is left when an object is given up. -/
def leaveObject (cs : List Char) : List Char :=
  match Json.skipSpace cs with
  | '\x7d' :: rest => rest
  | cs => cs

/-- The fields of an object: what it asks for, the others in order, and what follows. -/
def readObject (kind : Option Kind) (fields : List (String × Shape)) :
    Nat → Bool → List Char → Except Fault (Kind × List (String × Shape) × List Char)
  | 0, _, _ => .error ⟨.endInObject, .ahead []⟩
  | bound + 1, first, cs => do
    match ← Json.nextKey first cs with
    | none =>
      match kind with
      | some kind => return (kind, fields.reverse, leaveObject cs)
      | none => throw ⟨.missingField kindField, .behind (leaveObject cs)⟩
    | some cs =>
      let (key, rest) ← Json.readString (cs.length + 1) [] cs
      if key = kindField then
        if kind.isSome then throw ⟨.duplicateField kindField, .behind (leaveObject rest)⟩
        let (kind, rest) ← readKind (← Json.readColon rest)
        readObject (some kind) fields bound false rest
      else
        let rest ← Json.readColon rest
        let (shape, rest) ← Json.readValue (rest.length + 1) (Json.maxDepth - 1) rest
        readObject kind ((key, shape) :: fields) bound false rest

def readText (shape : Shape) : Except Fault String :=
  match shape with
  | .string s => .ok s
  | shape => .error ⟨.invalidType shape "a string", .nowhere⟩

/-- A field that may be given once. -/
def setField (name : String) (old : Option String) (shape : Shape) :
    Except Fault (Option String) :=
  match old with
  | some _ => .error ⟨.duplicateField name, .nowhere⟩
  | none => (readText shape).map some

/-- The request that the fields of an object describe. Other fields are ignored. -/
def ofFields (kind : Kind) (session path : Option String) :
    List (String × Shape) → Except Fault Request
  | [] =>
    .ok (match kind with
      | .run => .run (session.getD defaultSession) (path.getD "")
      | .next => .next (session.getD defaultSession))
  | (key, shape) :: rest => do
    if key = "session" then ofFields kind (← setField key session shape) path rest
    else if key = "path" ∧ kind = .run then ofFields kind session (← setField key path shape) rest
    else ofFields kind session path rest

/-- `1 element in sequence`, and `n elements in sequence` for any other number. -/
def elementsCounted (n : Nat) : String :=
  if n = 1 then "1 element in sequence" else s!"{n} elements in sequence"

def tooLong (found expected : Nat) : Fault :=
  ⟨.invalidLength found (elementsCounted expected), .nowhere⟩

/-- The text at the front of a list, or a fallback, and what follows it. -/
def nextText (fallback : String) : List Shape → Except Fault (String × List Shape)
  | [] => .ok (fallback, [])
  | shape :: rest => (readText shape).map fun s => (s, rest)

/-- The request that a list describes. -/
def ofItems (kind : Kind) (items : List Shape) : Except Fault Request := do
  let (session, rest) ← nextText defaultSession items
  match kind with
  | .next => if rest.isEmpty then return .next session else throw (tooLong items.length 1)
  | .run =>
    let (path, rest) ← nextText "" rest
    if rest.isEmpty then return .run session path else throw (tooLong items.length 2)

/-- The text that is left when a list is given up. -/
def leaveList (cs : List Char) : List Char := (Json.skipSpace cs).drop 1

/-- A list after its opening bracket. -/
def readList (cs : List Char) : Except Fault (Request × List Char) := do
  match ← Json.nextItem true cs with
  | none => throw ⟨.missingField kindField, .behind (leaveList cs)⟩
  | some cs =>
    let (kind, rest) ← readKind cs
    let (items, rest) ← Json.readItems (rest.length + 1) (Json.maxDepth - 1) false rest
    return (← ofItems kind items, rest)

/-- The request at the front of a text. -/
def readRequest (cs : List Char) : Except Fault (Request × List Char) := do
  match Json.skipSpace cs with
  | '[' :: rest => readList rest
  | '\x7b' :: rest =>
    let (kind, fields, rest) ← readObject none [] (rest.length + 1) true rest
    return (← ofFields kind none none fields, rest)
  | cs =>
    let (shape, rest) ← Json.readScalar cs
    throw ⟨.invalidType shape "internally tagged enum Request", .behind rest⟩

/-- The request that a line holds. -/
def parse (line : String) : Except Fault Request := do
  let (request, rest) ← readRequest line.toList
  match Json.skipSpace rest with
  | [] => return request
  | rest => throw ⟨.trailingCharacters, .ahead rest⟩

/-- A way to read lines as requests, which says what is wrong with a line that is none. -/
abbrev Decoder : Type := String → Except String Request

def decode : Decoder := fun line => (parse line).mapError (·.message line)

end Request

end AsmTrace

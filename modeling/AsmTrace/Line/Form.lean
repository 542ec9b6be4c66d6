import AsmTrace.Line.Literal

/-!
# The form of a line

A line holds a label, an instruction, both or nothing, and may end in a comment. Its form keeps
every name and number as it is written. No lexeme holds a comma or a semicolon, so the operands are
what stands between the commas before the comment.
-/

namespace AsmTrace.Line

/-- A number or a name, as written. -/
inductive Atom where
  | number (text : List Char)
  | name (text : List Char)
  deriving DecidableEq, Repr

/-- What is added to the base of a memory operand, as written. -/
structure Offset where
  negative : Bool
  text : List Char
  deriving DecidableEq, Repr

inductive OperandForm where
  | atom (a : Atom)
  | memory (base : Atom) (offset : Option Offset)
  deriving DecidableEq, Repr

structure InstructionForm where
  mnemonic : List Char
  operands : List OperandForm
  deriving DecidableEq, Repr

structure Form where
  label : Option (List Char)
  instruction : Option InstructionForm
  deriving DecidableEq, Repr

def readAtom (cs : List Char) : Option (Atom × List Char) :=
  match readNumber cs with
  | some (text, rest) => some (.number text, rest)
  | none => (readIdentifier cs).map fun (text, rest) => (.name text, rest)

/-- The offset of a memory operand, if there is one, and the closing bracket. -/
def readOffset (cs : List Char) : Option (Option Offset × List Char) :=
  match skipBlanks cs with
  | ']' :: rest => some (none, rest)
  | c :: rest =>
    if c = '+' ∨ c = '-' then
      match readUnsigned (skipBlanks rest) with
      | some (text, rest) =>
        match skipBlanks rest with
        | ']' :: rest => some (some ⟨c == '-', text⟩, rest)
        | _ => none
      | none => none
    else none
  | [] => none

def readOperand : List Char → Option (OperandForm × List Char)
  | '[' :: cs =>
    match readAtom (skipBlanks cs) with
    | some (base, rest) => (readOffset rest).map fun (offset, rest) => (.memory base offset, rest)
    | none => none
  | cs => (readAtom cs).map fun (a, rest) => (.atom a, rest)

/-- An operand with nothing but blanks around it. -/
def operand? (cs : List Char) : Option OperandForm :=
  match readOperand (skipBlanks cs) with
  | some (operand, rest) => if (skipBlanks rest).isEmpty then some operand else none
  | none => none

/-- The parts of a text between its commas. -/
def splitCommas : List Char → List (List Char)
  | [] => [[]]
  | c :: cs =>
    if c = ',' then [] :: splitCommas cs
    else
      match splitCommas cs with
      | part :: parts => (c :: part) :: parts
      | [] => [[c]]

def operands? (cs : List Char) : Option (List OperandForm) :=
  if (skipBlanks cs).isEmpty then some [] else (splitCommas cs).mapM operand?

/-- The instruction that a text without leading blanks holds, or nothing if it is empty. -/
def instruction? (cs : List Char) : Option (Option InstructionForm) :=
  if cs.isEmpty then some none
  else
    match readMnemonic cs with
    | some (mnemonic, rest) => (operands? rest).map fun operands => some ⟨mnemonic, operands⟩
    | none => none

/-- The label at the front of a text. -/
def readLabel (cs : List Char) : Option (List Char × List Char) :=
  match readIdentifier cs with
  | some (name, rest) =>
    match skipBlanks rest with
    | ':' :: rest => some (name, rest)
    | _ => none
  | none => none

/-- The form of a line, if it has one. -/
def Form.parse? (text : List Char) : Option Form :=
  let code := skipBlanks (withoutComment text)
  match readLabel code with
  | some (name, rest) => (instruction? (skipBlanks rest)).map fun i => ⟨some name, i⟩
  | none => (instruction? code).map fun i => ⟨none, i⟩

end AsmTrace.Line

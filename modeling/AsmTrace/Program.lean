import AsmTrace.Assembly.Decode
import AsmTrace.Line.Statements
import AsmTrace.Source

/-!
# Programs

A source text becomes a program in three passes, each over the whole text: lines are parsed, labels
are collected, statements are decoded. The first fault of the earliest pass is the one reported.
-/

namespace AsmTrace

/-- A word that memory holds before the program starts, and the line it was read from. -/
structure DataWord where
  address : Nat
  value : Word
  line : Nat
  deriving DecidableEq, Repr

structure Program where
  instructions : Array Instruction
  labels : Assembly.Labels
  data : List DataWord
  deriving DecidableEq, Repr

namespace Program

open Assembly (Labels Cause Error)

def size (p : Program) : Nat := p.instructions.size

def fetch? (p : Program) (index : Nat) : Option Instruction := p.instructions[index]?

/-- The instruction index that a code label names. -/
def codeLabel? (p : Program) (name : String) : Option Nat :=
  match p.labels.find? name with
  | some (.code index) => some index
  | _ => none

/-- Words laid out after `count` others. Addresses have 32 bits. -/
def layOut (line count : Nat) : List Int → Except Cause (List DataWord)
  | [] => .ok []
  | n :: rest => do
    let value ← Assembly.decodeImmediate n
    return ⟨count % 0x100000000, value, line⟩ :: (← layOut line (count + 1) rest)

/-- The instructions and data words of some statements, after `count` data words. -/
def decodeFrom (labels : Labels) (count : Nat) :
    List Statement → Except Error (List Instruction × List DataWord)
  | [] => .ok ([], [])
  | ⟨_, .label _⟩ :: rest => decodeFrom labels count rest
  | ⟨line, .data values⟩ :: rest => do
    let words ← (layOut line count values).mapError (.atLine line)
    let (instructions, data) ← decodeFrom labels (count + values.length) rest
    return (instructions, words ++ data)
  | ⟨line, .instruction opcode operands⟩ :: rest => do
    let operation ← (Assembly.decode labels opcode operands).mapError (.atLine line)
    let (instructions, data) ← decodeFrom labels count rest
    return (⟨line, operation⟩ :: instructions, data)

/-- The program that some statements make up. -/
def ofStatements (statements : List Statement) : Except Error Program := do
  let labels ← Labels.collect statements
  let (instructions, data) ← decodeFrom labels 0 statements
  if instructions.isEmpty then throw .emptyProgram
  return { instructions := instructions.toArray, labels, data }

/-- The statements of a source text, line by line. -/
def parse (source : Source) : Except Error (List Statement) :=
  (source.numbered.mapM fun (n, text) => Line.parse text n).map List.flatten

/-- The program that a source text describes. -/
def assemble (source : Source) : Except Error Program := parse source >>= ofStatements

end Program

end AsmTrace

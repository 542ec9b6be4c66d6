import AsmTrace.Opcode
import AsmTrace.Register

/-!
# Statements

What the lines of a program say, before labels are resolved: label definitions, data words and
instructions. `render` writes a statement back as a line.
-/

namespace AsmTrace

/-- What a memory operand starts from. -/
inductive MemoryBase where
  | register (r : Register)
  | absolute (address : Int)
  | symbol (name : String)
  deriving DecidableEq, Repr

structure MemoryOperand where
  base : MemoryBase
  displacement : Int
  deriving DecidableEq, Repr

inductive Operand where
  | register (r : Register)
  | immediate (n : Int)
  | memory (m : MemoryOperand)
  /-- A name that is not a register's. -/
  | symbol (name : String)
  deriving DecidableEq, Repr

/-- What a statement says. -/
inductive Statement.Body where
  | label (name : String)
  /-- Consecutive words of initial data. -/
  | data (values : List Int)
  | instruction (opcode : Opcode) (operands : List Operand)
  deriving DecidableEq, Repr

/-- A statement and the line it stands on. -/
structure Statement where
  line : Nat
  body : Statement.Body
  deriving DecidableEq, Repr

namespace MemoryBase

/-- A name stands for a register if it is one's. -/
def ofName (name : String) : MemoryBase :=
  match Register.ofName? name with
  | some r => .register r
  | none => .symbol name

def render : MemoryBase → String
  | .register r => r.name
  | .absolute address => toString address
  | .symbol name => name

end MemoryBase

/-- A displacement as it follows a base: with its sign, and not at all if it is zero. -/
def renderDisplacement (d : Int) : String :=
  if d = 0 then "" else if 0 < d then "+" ++ toString d else toString d

namespace MemoryOperand

def render (m : MemoryOperand) : String :=
  "[" ++ m.base.render ++ renderDisplacement m.displacement ++ "]"

end MemoryOperand

namespace Operand

/-- A name stands for a register if it is one's. -/
def ofName (name : String) : Operand :=
  match Register.ofName? name with
  | some r => .register r
  | none => .symbol name

/-- What an operand is called in messages. -/
def kind : Operand → String
  | .register _ => "register"
  | .immediate _ => "immediate"
  | .memory _ => "memory reference"
  | .symbol _ => "label"

def render : Operand → String
  | .register r => r.name
  | .immediate n => toString n
  | .memory m => m.render
  | .symbol name => name

end Operand

namespace Statement

/-- Texts with a comma and a space between them. -/
def commaSeparated : List String → String
  | [] => ""
  | [a] => a
  | a :: rest => a ++ ", " ++ commaSeparated rest

def Body.render : Body → String
  | .label name => name ++ ":"
  | .data values => "DW " ++ commaSeparated (values.map toString)
  | .instruction opcode [] => opcode.mnemonic
  | .instruction opcode operands =>
    opcode.mnemonic ++ " " ++ commaSeparated (operands.map Operand.render)

def render (s : Statement) : String := s.body.render

end Statement

end AsmTrace

import AsmTrace.Statement

/-!
# Instructions

Operations with the operands they accept, their labels resolved. `render` writes an instruction as a
line; the target of a jump is shown as an index.
-/

namespace AsmTrace

/-- A memory operand with its labels resolved: the value of the base, if any, plus a
displacement. -/
structure MemoryRef where
  base : Option Register
  displacement : Int
  deriving DecidableEq, Repr

/-- Where a value can be kept. -/
inductive Place where
  | register (r : Register)
  | memory (m : MemoryRef)
  deriving DecidableEq, Repr

/-- Where a value can come from. -/
inductive Value where
  | register (r : Register)
  | immediate (w : Word)
  | memory (m : MemoryRef)
  deriving DecidableEq, Repr

/-- An opcode with its operands. The target of a jump, a loop or a call is the index of an
instruction. -/
inductive Operation where
  | mov (dst : Place) (src : Value)
  | push (src : Value)
  | pop (dst : Place)
  | binary (op : BinaryOp) (dst : Place) (src : Value)
  | imul (dst : Register) (src : Value)
  | idiv (src : Value)
  | cqo
  | unary (op : UnaryOp) (dst : Place)
  | shift (op : ShiftOp) (dst : Place) (count : Value)
  | compare (op : CompareOp) (lhs : Place) (rhs : Value)
  | jump (condition : Option Condition) (target : Nat)
  | loop (target : Nat)
  | call (target : Nat)
  | ret
  | nop
  | hlt
  deriving DecidableEq, Repr

/-- An operation and the source line it was read from. -/
structure Instruction where
  line : Nat
  operation : Operation
  deriving DecidableEq, Repr

namespace Place

def toValue : Place → Value
  | .register r => .register r
  | .memory m => .memory m

def isMemory : Place → Bool
  | .register _ => false
  | .memory _ => true

end Place

namespace Value

def isMemory : Value → Bool
  | .memory _ => true
  | _ => false

end Value

namespace Operation

def opcode : Operation → Opcode
  | .mov .. => .mov
  | .push _ => .push
  | .pop _ => .pop
  | .binary op .. => .binary op
  | .imul .. => .imul
  | .idiv _ => .idiv
  | .cqo => .cqo
  | .unary op _ => .unary op
  | .shift op .. => .shift op
  | .compare op .. => .compare op
  | .jump condition _ => .jump condition
  | .loop _ => .loop
  | .call _ => .call
  | .ret => .ret
  | .nop => .nop
  | .hlt => .hlt

/-- Where control may go, if not to the next instruction. -/
def target? : Operation → Option Nat
  | .jump _ target | .loop target | .call target => some target
  | _ => none

end Operation

namespace MemoryRef

def render : MemoryRef → String
  | ⟨some r, d⟩ => "[" ++ r.name ++ renderDisplacement d ++ "]"
  | ⟨none, d⟩ => "[" ++ toString d ++ "]"

end MemoryRef

namespace Value

def render : Value → String
  | .register r => r.name
  | .immediate w => toString w.toInt
  | .memory m => m.render

end Value

namespace Place

def render (p : Place) : String := p.toValue.render

end Place

namespace Instruction

def opcode (i : Instruction) : Opcode := i.operation.opcode

def render (i : Instruction) : String :=
  let mnemonic := i.opcode.mnemonic
  match i.operation with
  | .mov dst src | .binary _ dst src | .shift _ dst src | .compare _ dst src =>
    mnemonic ++ " " ++ dst.render ++ ", " ++ src.render
  | .imul dst src => mnemonic ++ " " ++ dst.name ++ ", " ++ src.render
  | .idiv src | .push src => mnemonic ++ " " ++ src.render
  | .unary _ dst | .pop dst => mnemonic ++ " " ++ dst.render
  | .jump _ target | .loop target | .call target => mnemonic ++ " @" ++ toString target
  | .cqo | .ret | .nop | .hlt => mnemonic

end Instruction

end AsmTrace

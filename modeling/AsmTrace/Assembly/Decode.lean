import AsmTrace.Assembly.Labels
import AsmTrace.Instruction

/-!
# Decoding

An opcode and its operands make an operation if the operands have the shapes that the opcode accepts
and their labels are defined. Operands are checked from left to right.
-/

namespace AsmTrace.Assembly

/-- Whether an integer has 64 bits. -/
def Fits64 (n : Int) : Prop := -0x8000000000000000 ≤ n ∧ n < 0x8000000000000000

instance (n : Int) : Decidable (Fits64 n) := inferInstanceAs (Decidable (_ ∧ _))

def decodeImmediate (n : Int) : Except Cause Word :=
  match Word.ofLiteral? n with
  | some w => .ok w
  | none => .error (.valueTooWide n)

/-- A name does not stand for a value: data is reached through brackets, and code is not data. -/
def notAValue (labels : Labels) (name : String) : Cause :=
  match labels.find? name with
  | some (.data _) => .dataLabelAsValue name
  | some (.code _) => .codeLabelAsValue name
  | none => .notARegister name

/-- The register and the address that a base stands for. -/
def decodeBase (labels : Labels) : MemoryBase → Except Cause (Option Register × Int)
  | .register r => .ok (some r, 0)
  | .absolute address => .ok (none, address)
  | .symbol name =>
    match labels.find? name with
    | some (.data address) => .ok (none, address)
    | some (.code _) => .error (.codeLabelAsMemory name)
    | none => .error (.unknownLabel name)

def decodeMemory (labels : Labels) (m : MemoryOperand) : Except Cause MemoryRef := do
  let (base, address) ← decodeBase labels m.base
  let displacement := address + m.displacement
  if Fits64 displacement then return ⟨base, displacement⟩ else throw (.addressTooWide m)

/-- A place to look at. -/
def decodePlace (labels : Labels) (opcode : Opcode) : Operand → Except Cause Place
  | .register r => .ok (.register r)
  | .memory m => (decodeMemory labels m).map .memory
  | .symbol name => .error (notAValue labels name)
  | .immediate _ => .error (.immediatePlace opcode)

/-- A place to write to, which `SP` is not. -/
def decodeWritable (labels : Labels) (opcode : Opcode) : Operand → Except Cause Place
  | .register .sp => .error .stackPointerWritten
  | operand => decodePlace labels opcode operand

def decodeValue (labels : Labels) : Operand → Except Cause Value
  | .register r => .ok (.register r)
  | .immediate n => (decodeImmediate n).map .immediate
  | .memory m => (decodeMemory labels m).map .memory
  | .symbol name => .error (notAValue labels name)

/-- The instruction index that a label names. -/
def decodeTarget (labels : Labels) (opcode : Opcode) : Operand → Except Cause Nat
  | .symbol name =>
    match labels.find? name with
    | some (.code index) => .ok index
    | some (.data _) => .error (.dataLabelAsTarget name)
    | none => .error (.unknownLabel name)
  | operand => .error (.targetNotLabel opcode operand)

/-- A place and a value of which at most one is in memory. -/
def decodePair (labels : Labels) (opcode : Opcode) (place : Except Cause Place) (src : Operand) :
    Except Cause (Place × Value) := do
  let dst ← place
  let src ← decodeValue labels src
  if dst.isMemory && src.isMemory then throw (.twoMemoryOperands opcode) else return (dst, src)

def decodeMultiply (labels : Labels) (dst src : Operand) : Except Cause Operation := do
  match ← decodeWritable labels .imul dst with
  | .memory _ => throw .multiplyIntoMemory
  | .register r => return .imul r (← decodeValue labels src)

def decodeShift (labels : Labels) (op : ShiftOp) (dst count : Operand) :
    Except Cause Operation := do
  let dst ← decodeWritable labels (.shift op) dst
  let count ← decodeValue labels count
  if count.isMemory then throw .shiftByMemory else return .shift op dst count

/-- The operation of an opcode with its operands. -/
def decode (labels : Labels) (opcode : Opcode) (operands : List Operand) : Except Cause Operation :=
  match opcode, operands with
  | .mov, [dst, src] =>
    (decodePair labels opcode (decodeWritable labels opcode dst) src).map fun (d, s) => .mov d s
  | .binary op, [dst, src] =>
    (decodePair labels opcode (decodeWritable labels opcode dst) src).map
      fun (d, s) => .binary op d s
  | .compare op, [lhs, rhs] =>
    (decodePair labels opcode (decodePlace labels opcode lhs) rhs).map fun (l, r) => .compare op l r
  | .imul, [dst, src] => decodeMultiply labels dst src
  | .shift op, [dst, count] => decodeShift labels op dst count
  | .unary op, [dst] => (decodeWritable labels opcode dst).map (.unary op)
  | .pop, [dst] => (decodeWritable labels opcode dst).map .pop
  | .push, [src] => (decodeValue labels src).map .push
  | .idiv, [src] => (decodeValue labels src).map .idiv
  | .jump condition, [target] => (decodeTarget labels opcode target).map (.jump condition)
  | .loop, [target] => (decodeTarget labels opcode target).map .loop
  | .call, [target] => (decodeTarget labels opcode target).map .call
  | .cqo, [] => .ok .cqo
  | .ret, [] => .ok .ret
  | .nop, [] => .ok .nop
  | .hlt, [] => .ok .hlt
  | _, _ => .error (.operandCount opcode operands.length)

end AsmTrace.Assembly

import AsmTrace.Instruction
import AsmTrace.Trace

/-!
# What operations do

The effect of one operation on the machine and on control. An operation that fails leaves the
machine as it was, except that a popped word stays popped.
-/

namespace AsmTrace

namespace MemoryRef

/-- The nearest integer that has 64 bits. -/
def saturate64 (n : Int) : Int := max (-0x8000000000000000) (min n 0x7fffffffffffffff)

/-- The address a memory operand stands for. -/
def address (ref : MemoryRef) (m : Machine) : Int :=
  let base := match ref.base with
    | some r => (m.register r).toInt
    | none => 0
  saturate64 (base + ref.displacement)

end MemoryRef

namespace Machine

def value (m : Machine) : Value → Except Fault Word
  | .register r => .ok (m.register r)
  | .immediate w => .ok w
  | .memory ref => m.read (ref.address m)

def load (m : Machine) (p : Place) : Except Fault Word := m.value p.toValue

def store (m : Machine) (p : Place) (v : Word) : Except Fault Machine :=
  match p with
  | .register r => .ok (m.setRegister r v)
  | .memory ref => m.write (ref.address m) v

/-- Stores a result, then sets its flags. -/
def storeResult (m : Machine) (p : Place) (result : Word × Flags) : Except Fault Machine :=
  (m.store p result.1).map (·.setFlags result.2)

end Machine

namespace BinaryOp

def apply (a b : Word) (f : Flags) : BinaryOp → Word × Flags
  | .add => Arithmetic.add a b f
  | .sub => Arithmetic.sub a b f
  | .and => Arithmetic.logic (a &&& b) f
  | .or => Arithmetic.logic (a ||| b) f
  | .xor => Arithmetic.logic (a ^^^ b) f

end BinaryOp

namespace UnaryOp

/-- Complementing sets no flags. -/
def apply (a : Word) (f : Flags) : UnaryOp → Word × Flags
  | .neg => Arithmetic.neg a f
  | .not => (~~~a, f)
  | .inc => Arithmetic.inc a f
  | .dec => Arithmetic.dec a f

end UnaryOp

namespace ShiftOp

def apply (a count : Word) (f : Flags) : ShiftOp → Word × Flags
  | .shl => Arithmetic.shl a count f
  | .shr => Arithmetic.shr a count f
  | .sar => Arithmetic.sar a count f

end ShiftOp

namespace CompareOp

def flags (a b : Word) (f : Flags) : CompareOp → Flags
  | .cmp => (Arithmetic.sub a b f).2
  | .test => (Arithmetic.logic (a &&& b) f).2

end CompareOp

/-- Where control goes after an instruction. -/
inductive Control where
  | next
  | jump (target : Nat)
  | halt (reason : HaltReason)
  deriving DecidableEq, Repr

/-- What an instruction did to the machine and to the number of open calls, and where control goes,
unless it failed. -/
structure Effect where
  machine : Machine
  callDepth : Nat
  control : Except Fault Control
  deriving Repr

namespace Effect

/-- The effect of a change to the machine that is made as a whole or not at all. -/
def ofChange (m : Machine) (callDepth : Nat) : Except Fault Machine → Effect
  | .ok m' => ⟨m', callDepth, .ok .next⟩
  | .error fault => ⟨m, callDepth, .error fault⟩

/-- A change that succeeds leads to the next instruction. -/
@[simp] theorem ofChange_ok (m m' : Machine) (callDepth : Nat) :
    ofChange m callDepth (.ok m') = ⟨m', callDepth, .ok .next⟩ := rfl

/-- A change that fails is not made. -/
@[simp] theorem ofChange_error (m : Machine) (callDepth : Nat) (fault : Fault) :
    ofChange m callDepth (.error fault) = ⟨m, callDepth, .error fault⟩ := rfl

end Effect

namespace Operation

def divide (m : Machine) (src : Value) : Except Fault Machine := do
  let divisor ← m.value src
  let (quotient, remainder) ←
    (Arithmetic.idiv (m.register .dx) (m.register .ax) divisor).mapError Fault.ofDivision
  return (m.setRegister .ax quotient).setRegister .dx remainder

/-- Calling pushes the index of the instruction after the call. -/
def enter (m : Machine) (callDepth index target : Nat) : Effect :=
  match m.push (BitVec.ofNat 32 (index + 1)) with
  | .ok m' => ⟨m', callDepth + 1, .ok (.jump target)⟩
  | .error fault => ⟨m, callDepth, .error fault⟩

/-- Returning pops an instruction index, which has to be one of a program of `size` instructions.
With no call to return from, the program ends. -/
def leave (m : Machine) (callDepth size : Nat) : Effect :=
  match callDepth with
  | 0 => ⟨m, 0, .ok (.halt .ret)⟩
  | depth + 1 =>
    match m.pop with
    | .error fault => ⟨m, depth + 1, .error fault⟩
    | .ok (address, m') =>
      if 0 ≤ address.toInt ∧ address.toInt ≤ size then
        ⟨m', depth, .ok (.jump address.toNat)⟩
      else ⟨m', depth, .error (.badReturnAddress address.toInt)⟩

/-- The popped word is lost if it cannot be stored. -/
def popInto (m : Machine) (callDepth : Nat) (dst : Place) : Effect :=
  match m.pop with
  | .error fault => ⟨m, callDepth, .error fault⟩
  | .ok (v, m') => .ofChange m' callDepth (m'.store dst v)

/-- Counting down in `CX` sets no flags. -/
def countDown (m : Machine) (callDepth target : Nat) : Effect :=
  let counter := m.register .cx - 1
  ⟨m.setRegister .cx counter, callDepth, .ok (if counter = 0 then .next else .jump target)⟩

/-- The effect of an operation at an index of a program of `size` instructions. -/
def execute (size index : Nat) (m : Machine) (callDepth : Nat) : Operation → Effect
  | .mov dst src => .ofChange m callDepth do m.store dst (← m.value src)
  | .push src => .ofChange m callDepth do m.push (← m.value src)
  | .pop dst => popInto m callDepth dst
  | .binary op dst src => .ofChange m callDepth do
    let a ← m.load dst
    let b ← m.value src
    m.storeResult dst (op.apply a b m.flags)
  | .imul dst src => .ofChange m callDepth do
    let b ← m.value src
    m.storeResult (.register dst) (Arithmetic.imul (m.register dst) b m.flags)
  | .idiv src => .ofChange m callDepth (divide m src)
  | .cqo =>
    .ofChange m callDepth (.ok (m.setRegister .dx (Arithmetic.signExtension (m.register .ax))))
  | .unary op dst => .ofChange m callDepth do
    let a ← m.load dst
    m.storeResult dst (op.apply a m.flags)
  | .shift op dst count => .ofChange m callDepth do
    let a ← m.load dst
    let count ← m.value count
    m.storeResult dst (op.apply a count m.flags)
  | .compare op lhs rhs => .ofChange m callDepth do
    let a ← m.load lhs
    let b ← m.value rhs
    return m.setFlags (op.flags a b m.flags)
  | .jump condition target =>
    ⟨m, callDepth, .ok (if condition.all (·.holds m.flags) then .jump target else .next)⟩
  | .loop target => countDown m callDepth target
  | .call target => enter m callDepth index target
  | .ret => leave m callDepth size
  | .nop => ⟨m, callDepth, .ok .next⟩
  | .hlt => ⟨m, callDepth, .ok (.halt .hlt)⟩

end Operation

end AsmTrace

import AsmTrace.Config
import AsmTrace.Memory
import AsmTrace.Register
import AsmTrace.Stack

/-!
# The machine

Registers, flags, memory and stack together. The machine keeps `SP` equal to the stack's pointer, so
pushing and popping are the only ways to change it.
-/

namespace AsmTrace

structure Machine where
  registers : RegisterFile
  flags : Flags := {}
  memory : Memory
  stack : Stack
  deriving DecidableEq, Repr

/-- The state of the machine after an instruction, with the source line of the instruction. -/
structure Snapshot where
  line : Nat
  registers : RegisterFile
  flags : Flags
  memory : Cells
  /-- The words on the stack, the top one first. -/
  stack : List Word
  deriving DecidableEq, Repr

namespace Machine

/-- The machine with another stack, and `SP` following it. -/
def withStack (m : Machine) (s : Stack) : Machine :=
  { m with stack := s, registers := m.registers.set .sp s.pointer }

/-- A machine of the given sizes with nothing in it. -/
def new (c : Config) : Machine :=
  let stack : Stack := { capacity := c.stackSize }
  { registers := { sp := stack.pointer }, memory := { size := c.memorySize }, stack }

def register (m : Machine) (r : Register) : Word := m.registers.get r

def setRegister (m : Machine) (r : Register) (v : Word) : Machine :=
  { m with registers := m.registers.set r v }

def setFlags (m : Machine) (f : Flags) : Machine := { m with flags := f }

def read (m : Machine) (address : Int) : Except Fault Word := m.memory.read address

def write (m : Machine) (address : Int) (v : Word) : Except Fault Machine :=
  (m.memory.write address v).map fun mem => { m with memory := mem }

def push (m : Machine) (v : Word) : Except Fault Machine := (m.stack.push v).map m.withStack

def pop (m : Machine) : Except Fault (Word × Machine) :=
  m.stack.pop.map fun (v, s) => (v, m.withStack s)

def snapshot (m : Machine) (line : Nat) : Snapshot :=
  { line, registers := m.registers, flags := m.flags, memory := m.memory.cells,
    stack := m.stack.topFirst }

/-! ## Fields after a change -/

section Fields

variable (m : Machine) (r : Register) (v : Word) (f : Flags) (s : Stack)

@[simp] theorem setRegister_registers :
    (m.setRegister r v).registers = m.registers.set r v := rfl

/-- A register that was assigned holds the word. -/
@[simp] theorem setRegister_register : (m.setRegister r v).register r = v :=
  m.registers.get_set_self r v

/-- The other registers keep theirs. -/
theorem setRegister_register_of_ne {r s : Register} (ne : s ≠ r) :
    (m.setRegister r v).register s = m.register s :=
  RegisterFile.get_set_of_ne ne m.registers v

@[simp] theorem setRegister_flags : (m.setRegister r v).flags = m.flags := rfl

@[simp] theorem setRegister_memory : (m.setRegister r v).memory = m.memory := rfl

@[simp] theorem setRegister_stack : (m.setRegister r v).stack = m.stack := rfl

@[simp] theorem setFlags_registers : (m.setFlags f).registers = m.registers := rfl

/-- Setting flags assigns no register. -/
@[simp] theorem setFlags_register : (m.setFlags f).register r = m.register r := rfl

/-- The flags are those that were set. -/
@[simp] theorem setFlags_flags : (m.setFlags f).flags = f := rfl

@[simp] theorem setFlags_memory : (m.setFlags f).memory = m.memory := rfl

@[simp] theorem setFlags_stack : (m.setFlags f).stack = m.stack := rfl

@[simp] theorem withStack_registers :
    (m.withStack s).registers = m.registers.set .sp s.pointer := rfl

/-- `SP` follows the stack. -/
@[simp] theorem withStack_register : (m.withStack s).register .sp = s.pointer :=
  m.registers.get_set_self .sp s.pointer

/-- No other register follows it. -/
theorem withStack_register_of_ne {r : Register} (ne : r ≠ .sp) :
    (m.withStack s).register r = m.register r :=
  RegisterFile.get_set_of_ne ne m.registers s.pointer

@[simp] theorem withStack_flags : (m.withStack s).flags = m.flags := rfl

@[simp] theorem withStack_memory : (m.withStack s).memory = m.memory := rfl

/-- The stack is the one that was put there. -/
@[simp] theorem withStack_stack : (m.withStack s).stack = s := rfl

@[simp] theorem snapshot_line (line : Nat) : (m.snapshot line).line = line := rfl

@[simp] theorem snapshot_registers (line : Nat) :
    (m.snapshot line).registers = m.registers := rfl

@[simp] theorem snapshot_flags (line : Nat) : (m.snapshot line).flags = m.flags := rfl

@[simp] theorem snapshot_memory (line : Nat) : (m.snapshot line).memory = m.memory.cells := rfl

@[simp] theorem snapshot_stack (line : Nat) : (m.snapshot line).stack = m.stack.topFirst := rfl

end Fields

end Machine

end AsmTrace

import AsmTrace.Text.Caseless
import AsmTrace.Flags

/-!
# Opcodes

The operations of the machine without their operands: their mnemonics, their byte codes and how many
operands they take. Opcodes with the same operand shapes and the same kind of effect are grouped.
-/

namespace AsmTrace

/-- Operations that combine a place with a value and store the result in the place. -/
inductive BinaryOp where
  | add | sub | and | or | xor
  deriving DecidableEq, Repr

/-- Operations on one place. -/
inductive UnaryOp where
  | neg | not | inc | dec
  deriving DecidableEq, Repr

inductive ShiftOp where
  | shl | shr | sar
  deriving DecidableEq, Repr

/-- Operations that only set flags: those of a difference, and those of a conjunction. -/
inductive CompareOp where
  | cmp | test
  deriving DecidableEq, Repr

/-- A jump without a condition is always taken. -/
inductive Opcode where
  | mov
  | push
  | pop
  | binary (op : BinaryOp)
  | imul
  | idiv
  | cqo
  | unary (op : UnaryOp)
  | shift (op : ShiftOp)
  | compare (op : CompareOp)
  | jump (condition : Option Condition)
  | loop
  | call
  | ret
  | nop
  | hlt
  deriving DecidableEq, Repr

namespace Opcode

/-- The opcodes in the order of their byte codes. -/
def all : List Opcode :=
  [.mov, .push, .pop, .binary .add, .binary .sub, .imul, .idiv, .cqo, .unary .neg, .unary .inc,
    .unary .dec, .binary .and, .binary .or, .binary .xor, .unary .not, .shift .shl, .shift .shr,
    .shift .sar, .compare .cmp, .compare .test, .jump none]
  ++ Condition.all.map (fun c => .jump (some c)) ++ [.loop, .call, .ret, .nop, .hlt]

def byte (o : Opcode) : Nat := all.idxOf o

def ofByte? (b : Nat) : Option Opcode := all[b]?

/-- The mnemonic that is shown. -/
def mnemonic : Opcode → String
  | .mov => "MOV"
  | .push => "PUSH"
  | .pop => "POP"
  | .binary .add => "ADD"
  | .binary .sub => "SUB"
  | .binary .and => "AND"
  | .binary .or => "OR"
  | .binary .xor => "XOR"
  | .imul => "IMUL"
  | .idiv => "IDIV"
  | .cqo => "CQO"
  | .unary .neg => "NEG"
  | .unary .not => "NOT"
  | .unary .inc => "INC"
  | .unary .dec => "DEC"
  | .shift .shl => "SHL"
  | .shift .shr => "SHR"
  | .shift .sar => "SAR"
  | .compare .cmp => "CMP"
  | .compare .test => "TEST"
  | .jump none => "JMP"
  | .jump (some .equal) => "JE"
  | .jump (some .notEqual) => "JNE"
  | .jump (some .greater) => "JG"
  | .jump (some .greaterOrEqual) => "JGE"
  | .jump (some .less) => "JL"
  | .jump (some .lessOrEqual) => "JLE"
  | .jump (some .above) => "JA"
  | .jump (some .aboveOrEqual) => "JAE"
  | .jump (some .below) => "JB"
  | .jump (some .belowOrEqual) => "JBE"
  | .jump (some .sign) => "JS"
  | .jump (some .notSign) => "JNS"
  | .jump (some .overflow) => "JO"
  | .jump (some .notOverflow) => "JNO"
  | .loop => "LOOP"
  | .call => "CALL"
  | .ret => "RET"
  | .nop => "NOP"
  | .hlt => "HLT"

/-- Further mnemonics that are read as the opcode. -/
def aliases : Opcode → List String
  | .jump (some .equal) => ["JZ"]
  | .jump (some .notEqual) => ["JNZ"]
  | .jump (some .greater) => ["JNLE"]
  | .jump (some .greaterOrEqual) => ["JNL"]
  | .jump (some .less) => ["JNGE"]
  | .jump (some .lessOrEqual) => ["JNG"]
  | .jump (some .above) => ["JNBE"]
  | .jump (some .aboveOrEqual) => ["JNB", "JNC"]
  | .jump (some .below) => ["JNAE", "JC"]
  | .jump (some .belowOrEqual) => ["JNA"]
  | _ => []

/-- The opcode of that mnemonic or alias, in any letter case. -/
def ofMnemonic? (s : String) : Option Opcode :=
  all.find? fun o => (o.mnemonic :: o.aliases).any (Text.sameIgnoringCase s)

/-- How many operands an opcode takes. -/
def arity : Opcode → Nat
  | .cqo | .ret | .nop | .hlt => 0
  | .push | .pop | .idiv | .unary _ | .jump _ | .loop | .call => 1
  | .mov | .binary _ | .imul | .shift _ | .compare _ => 2

/-- The condition of a conditional jump. -/
def condition? : Opcode → Option Condition
  | .jump c => c
  | _ => none

/-- The list of opcodes is complete. -/
theorem mem_all (o : Opcode) : o ∈ all := by
  rcases o with
    _ | _ | _ | ⟨_ | _⟩ | _ | _ | _ | ⟨_ | _⟩ | ⟨_ | _⟩ | ⟨_ | _⟩ | ⟨_ | ⟨_ | _⟩⟩ | _ | _
    | _ | _ | _
  all_goals decide

/-- An opcode is found by its byte. -/
@[simp] theorem ofByte?_byte (o : Opcode) : ofByte? o.byte = some o := by
  have found : ∀ o ∈ all, ofByte? o.byte = some o := by decide
  exact found o (mem_all o)

end Opcode

end AsmTrace

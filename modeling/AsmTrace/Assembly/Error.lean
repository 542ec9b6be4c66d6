import AsmTrace.Line.Expectation
import AsmTrace.Statement

/-!
# Assembly errors

Why a source text is not a program, and how it is said.
-/

namespace AsmTrace.Assembly

/-- What is wrong with a line or a statement. -/
inductive Cause where
  /-- The line does not have the form of one. -/
  | malformed (expectation : Line.Expectation)
  /-- A number literal is out of range. -/
  | numberOutOfRange (text : String)
  | dataWithoutValues
  | dataNotNumeric (found : Operand)
  | unknownOpcode (mnemonic : String)
  | labelIsRegister (name : String)
  | duplicateLabel (name : String)
  | unknownLabel (name : String)
  | operandCount (opcode : Opcode) (found : Nat)
  /-- A value does not fit in a word. -/
  | valueTooWide (value : Int)
  | twoMemoryOperands (opcode : Opcode)
  | multiplyIntoMemory
  | shiftByMemory
  | stackPointerWritten
  | immediatePlace (opcode : Opcode)
  | dataLabelAsValue (name : String)
  | codeLabelAsValue (name : String)
  | notARegister (name : String)
  | codeLabelAsMemory (name : String)
  /-- The address of a memory operand does not fit in 64 bits. -/
  | addressTooWide (operand : MemoryOperand)
  | targetNotLabel (opcode : Opcode) (found : Operand)
  | dataLabelAsTarget (name : String)
  deriving DecidableEq, Repr

/-- The kinds of errors that a client can tell apart. -/
inductive ErrorKind where
  | parse | unknownOpcode | invalidOperand | unknownLabel | duplicateLabel | emptyProgram
  deriving DecidableEq, Repr

namespace Cause

def kind : Cause → ErrorKind
  | .malformed _ | .dataWithoutValues | .labelIsRegister _ | .operandCount .. => .parse
  | .unknownOpcode _ => .unknownOpcode
  | .duplicateLabel _ => .duplicateLabel
  | .unknownLabel _ => .unknownLabel
  | .numberOutOfRange _ | .dataNotNumeric _ | .valueTooWide _ | .twoMemoryOperands _
  | .multiplyIntoMemory | .shiftByMemory | .stackPointerWritten | .immediatePlace _
  | .dataLabelAsValue _ | .codeLabelAsValue _ | .notARegister _ | .codeLabelAsMemory _
  | .addressTooWide _ | .targetNotLabel .. | .dataLabelAsTarget _ => .invalidOperand

/-- `1 operand`, and `n operands` for any other number. -/
def operandsCounted (n : Nat) : String := s!"{n} operand" ++ if n = 1 then "" else "s"

def message : Cause → String
  | .malformed expectation => expectation.message
  | .numberOutOfRange text => s!"`{text}` is not a valid number"
  | .dataWithoutValues => "DW expects at least one value"
  | .dataNotNumeric found => s!"DW expects numeric values, found a {found.kind}"
  | .unknownOpcode mnemonic => s!"unknown opcode `{mnemonic}`"
  | .labelIsRegister name => s!"label `{name}` shadows a register"
  | .duplicateLabel name => s!"label `{name}` is already defined"
  | .unknownLabel name => s!"label `{name}` is not defined"
  | .operandCount opcode found =>
    s!"{opcode.mnemonic} expects {operandsCounted opcode.arity}, found {found}"
  | .valueTooWide value => s!"`{value}` does not fit in a 32-bit word"
  | .twoMemoryOperands opcode => s!"{opcode.mnemonic} cannot take two memory operands"
  | .multiplyIntoMemory => "IMUL destination must be a register"
  | .shiftByMemory => "shift count must be a register or an immediate"
  | .stackPointerWritten => "SP is maintained by the stack and cannot be written directly"
  | .immediatePlace opcode =>
    s!"{opcode.mnemonic} expects a register or memory reference, found an immediate"
  | .dataLabelAsValue name => s!"use `[{name}]` to access the data labelled `{name}`"
  | .codeLabelAsValue name => s!"code label `{name}` cannot be used as a value"
  | .notARegister name => s!"`{name}` is not a register"
  | .codeLabelAsMemory name => s!"code label `{name}` cannot be used as a memory reference"
  | .addressTooWide operand => s!"memory reference {operand.render} overflows"
  | .targetNotLabel opcode found => s!"{opcode.mnemonic} expects a label, found a {found.kind}"
  | .dataLabelAsTarget name => s!"`{name}` labels data and cannot be a jump target"

end Cause

inductive Error where
  | atLine (line : Nat) (cause : Cause)
  /-- There is no instruction at all. -/
  | emptyProgram
  deriving DecidableEq, Repr

namespace Error

def kind : Error → ErrorKind
  | .atLine _ cause => cause.kind
  | .emptyProgram => .emptyProgram

/-- The line an error was found on. -/
def line? : Error → Option Nat
  | .atLine line _ => some line
  | .emptyProgram => none

def message : Error → String
  | .atLine line cause => s!"line {line}: {cause.message}"
  | .emptyProgram => "the program does not contain any instruction"

end Error

end AsmTrace.Assembly

import AsmTrace.Assembly.Error
import AsmTrace.Line.Form

/-!
# Statements of a line

A line that has a form gives a statement for its label and one for its instruction. Operands are
read from left to right, then the mnemonic is looked up.
-/

namespace AsmTrace.Line

open Assembly (Cause Error)

def literal (text : List Char) : Except Cause Int :=
  match literalValue? text with
  | some n => .ok n
  | none => .error (.numberOutOfRange (String.ofList text))

def Atom.toBase : Atom → Except Cause MemoryBase
  | .number text => (literal text).map .absolute
  | .name text => .ok (.ofName (String.ofList text))

def Offset.toDisplacement (o : Offset) : Except Cause Int :=
  (literal o.text).map fun n => if o.negative then -n else n

def OperandForm.toOperand : OperandForm → Except Cause Operand
  | .atom (.number text) => (literal text).map .immediate
  | .atom (.name text) => .ok (.ofName (String.ofList text))
  | .memory base none => do return .memory ⟨← base.toBase, 0⟩
  | .memory base (some offset) => do
    let base ← base.toBase
    return .memory ⟨base, ← offset.toDisplacement⟩

/-- The number that an operand of a data directive is. -/
def dataValue : Operand → Except Cause Int
  | .immediate n => .ok n
  | other => .error (.dataNotNumeric other)

/-- The mnemonic of the data directive. -/
def dataMnemonic : String := "DW"

def InstructionForm.toBody (i : InstructionForm) : Except Cause Statement.Body := do
  let operands ← i.operands.mapM OperandForm.toOperand
  let mnemonic := String.ofList i.mnemonic
  if Text.sameIgnoringCase mnemonic dataMnemonic then
    if operands.isEmpty then throw .dataWithoutValues
    return .data (← operands.mapM dataValue)
  else
    match Opcode.ofMnemonic? mnemonic with
    | some opcode => return .instruction opcode operands
    | none => throw (.unknownOpcode mnemonic)

/-- What a line of this form says, label first. -/
def Form.bodies (f : Form) : Except Cause (List Statement.Body) := do
  let labels := (f.label.map fun name => Statement.Body.label (String.ofList name)).toList
  match f.instruction with
  | some i => return labels ++ [← i.toBody]
  | none => return labels

/-- What a line says. -/
def bodies (text : String) : Except Cause (List Statement.Body) :=
  match Form.parse? text.toList with
  | some form => form.bodies
  | none => .error (.malformed (.ofText text.toList))

/-- The statements of a line. -/
def parse (text : String) (line : Nat) : Except Error (List Statement) :=
  match bodies text with
  | .ok bs => .ok (bs.map (Statement.mk line))
  | .error cause => .error (.atLine line cause)

end AsmTrace.Line

import AsmTrace.Json
import AsmTrace.Trace

/-!
# Snapshots and traces as JSON

Registers come in their fixed order, memory by ascending address and the stack from its bottom.
-/

namespace AsmTrace

def HaltReason.name : HaltReason → String
  | .hlt => "hlt"
  | .ret => "return"
  | .endOfProgram => "end_of_program"

namespace Json

def word (w : Word) : Json := .num w.toInt

/-- A value, or null if there is none. -/
def option {α : Type} (f : α → Json) : Option α → Json
  | some a => f a
  | none => .null

end Json

def Flags.toJson (f : Flags) : Json :=
  .obj [("zero", .bool f.zero), ("carry", .bool f.carry), ("sign", .bool f.sign),
    ("overflow", .bool f.overflow)]

def RegisterFile.toJson (f : RegisterFile) : Json :=
  .obj (f.toList.map fun (r, w) => (r.name, .word w))

def Cells.toJson (c : Cells) : Json := .obj (c.entries.map fun (a, w) => (toString a, .word w))

def Snapshot.toJson (s : Snapshot) : Json :=
  .obj [("line_num", .num s.line), ("registers", s.registers.toJson), ("flags", s.flags.toJson),
    ("memory", s.memory.toJson), ("stack", .arr (s.stack.reverse.map .word))]

def Trace.toJson (t : Trace) : Json :=
  .obj [("snapshots", .arr (t.snapshots.map Snapshot.toJson)),
    ("halt_reason", .option (fun r => .str r.name) t.haltReason),
    ("output", .option .word t.output)]

end AsmTrace

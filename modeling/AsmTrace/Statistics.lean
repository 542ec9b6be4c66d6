import AsmTrace.Opcode

/-!
# Execution statistics

How often each opcode was executed.
-/

namespace AsmTrace

/-- The counts of the opcodes, in the order of their byte codes. -/
structure Statistics where
  counts : List Nat := List.replicate Opcode.all.length 0
  deriving DecidableEq, Repr

namespace Statistics

/-- Counts one more execution of an opcode. -/
def record (s : Statistics) (o : Opcode) : Statistics := ⟨s.counts.modify o.byte (· + 1)⟩

def count (s : Statistics) (o : Opcode) : Nat := s.counts.getD o.byte 0

def total (s : Statistics) : Nat := s.counts.foldl (· + ·) 0

/-- The opcodes that were executed, in the order of their byte codes. -/
def executed (s : Statistics) : List (Opcode × Nat) :=
  (Opcode.all.map fun o => (o, s.count o)).filter fun (_, n) => 0 < n

end Statistics

end AsmTrace

/-!
# Limits of a run
-/

namespace AsmTrace

structure Config where
  /-- How many instructions a run may execute. -/
  stepLimit : Nat := 10000
  /-- How many words of memory there are. -/
  memorySize : UInt32 := 1024
  /-- How many words fit on the stack. -/
  stackSize : Nat := 256
  deriving DecidableEq, Repr

end AsmTrace

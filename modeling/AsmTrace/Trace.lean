import AsmTrace.Machine

/-!
# Traces

The snapshots of a run in the order in which its instructions were executed. The trace of a run that
came to its end also says how.
-/

namespace AsmTrace

inductive HaltReason where
  /-- A halt instruction. -/
  | hlt
  /-- A return with no call to return from. -/
  | ret
  /-- There was no further instruction. -/
  | endOfProgram
  deriving DecidableEq, Repr

/-- How a run ended: why, and with which value in `AX`. -/
structure Ending where
  reason : HaltReason
  output : Word
  deriving DecidableEq, Repr

structure Trace where
  snapshots : List Snapshot := []
  ending : Option Ending := none
  deriving DecidableEq, Repr

namespace Trace

def length (t : Trace) : Nat := t.snapshots.length

def isComplete (t : Trace) : Bool := t.ending.isSome

def haltReason (t : Trace) : Option HaltReason := t.ending.map Ending.reason

def output (t : Trace) : Option Word := t.ending.map Ending.output

/-- The snapshot at a position, counted from 0. -/
def get? (t : Trace) (i : Nat) : Option Snapshot := t.snapshots[i]?

end Trace

/-- A run that stopped at a fault: the line at fault, and the snapshots up to it. -/
structure RunFailure where
  line : Nat
  fault : Fault
  snapshots : List Snapshot
  deriving DecidableEq, Repr

namespace RunFailure

def partialTrace (f : RunFailure) : Trace := { snapshots := f.snapshots }

def message (f : RunFailure) : String := s!"line {f.line}: {f.fault.message}"

end RunFailure

end AsmTrace

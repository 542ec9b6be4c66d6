import AsmTrace.Arithmetic

/-!
# Faults

What can go wrong while a program runs, and how it is said.
-/

namespace AsmTrace

inductive Fault where
  | outOfBounds (address : Int) (size : UInt32)
  | stackUnderflow
  | stackOverflow (capacity : Nat)
  | divisionByZero
  | divisionOverflow (dividend divisor : Int)
  | badReturnAddress (address : Int)
  | stepLimitExceeded (limit : Nat)
  deriving DecidableEq, Repr

namespace Fault

def message : Fault → String
  | .outOfBounds address size =>
    s!"Memory address {address} is out of bounds (memory has {size.toNat} words)"
  | .stackUnderflow => "Cannot pop from an empty stack"
  | .stackOverflow capacity => s!"Stack overflow: the stack holds at most {capacity} values"
  | .divisionByZero => "Division by zero"
  | .divisionOverflow dividend divisor =>
    s!"Division overflow: {dividend} / {divisor} does not fit in 32 bits"
  | .badReturnAddress address => s!"Return address {address} is outside the program"
  | .stepLimitExceeded limit => s!"Step limit of {limit} instructions exceeded"

def ofDivision : Arithmetic.DivisionError → Fault
  | .byZero => .divisionByZero
  | .overflow dividend divisor => .divisionOverflow dividend divisor

end Fault

end AsmTrace

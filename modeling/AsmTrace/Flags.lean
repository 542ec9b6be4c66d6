/-!
# Flags and conditions

Arithmetic, logic and comparisons leave four flags; a conditional jump tests a condition on them.
-/

namespace AsmTrace

structure Flags where
  zero : Bool := false
  carry : Bool := false
  sign : Bool := false
  overflow : Bool := false
  deriving DecidableEq, Repr

/-- What a conditional jump asks. After a comparison, the orders named greater and less are the
signed ones, those named above and below the unsigned ones. -/
inductive Condition where
  | equal | notEqual
  | greater | greaterOrEqual | less | lessOrEqual
  | above | aboveOrEqual | below | belowOrEqual
  | sign | notSign
  | overflow | notOverflow
  deriving DecidableEq, Repr

namespace Condition

def all : List Condition :=
  [.equal, .notEqual, .greater, .greaterOrEqual, .less, .lessOrEqual, .above, .aboveOrEqual, .below,
    .belowOrEqual, .sign, .notSign, .overflow, .notOverflow]

def holds (f : Flags) : Condition → Bool
  | .equal => f.zero
  | .notEqual => !f.zero
  | .greater => !f.zero && f.sign == f.overflow
  | .greaterOrEqual => f.sign == f.overflow
  | .less => f.sign != f.overflow
  | .lessOrEqual => f.zero || f.sign != f.overflow
  | .above => !f.carry && !f.zero
  | .aboveOrEqual => !f.carry
  | .below => f.carry
  | .belowOrEqual => f.carry || f.zero
  | .sign => f.sign
  | .notSign => !f.sign
  | .overflow => f.overflow
  | .notOverflow => !f.overflow

end Condition

end AsmTrace

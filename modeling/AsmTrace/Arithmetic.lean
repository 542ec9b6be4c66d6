import AsmTrace.Flags
import AsmTrace.Word

/-!
# Arithmetic and flags

What the arithmetic and logic operations compute. Each takes the flags as they are and gives the
result with the flags as they become.
-/

namespace AsmTrace.Arithmetic

/-- The flags with zero and sign set for a result. -/
def resultFlags (r : Word) (f : Flags) : Flags := { f with zero := r == 0, sign := r.msb }

/-- There is a carry if the sum is below an addend, and an overflow if the addends have one sign and
the sum the other. -/
def add (a b : Word) (f : Flags) : Word × Flags :=
  let r := a + b
  (r, { resultFlags r f with
    carry := r.ult a
    overflow := a.msb == b.msb && r.msb != a.msb })

/-- The carry is the borrow; there is an overflow if the operands have different signs and the
difference has that of the second. -/
def sub (a b : Word) (f : Flags) : Word × Flags :=
  let r := a - b
  (r, { resultFlags r f with
    carry := a.ult b
    overflow := a.msb != b.msb && r.msb != a.msb })

/-- The result of a bitwise operation clears carry and overflow. -/
def logic (r : Word) (f : Flags) : Word × Flags :=
  (r, { resultFlags r f with carry := false, overflow := false })

/-- Carry and overflow both say that the product needs more than its low word. -/
def imul (a b : Word) (f : Flags) : Word × Flags :=
  let r := a * b
  let tooWide := a.signExtend 64 * b.signExtend 64 != r.signExtend 64
  (r, { resultFlags r f with carry := tooWide, overflow := tooWide })

def neg (a : Word) (f : Flags) : Word × Flags :=
  let r := -a
  (r, { resultFlags r f with carry := a != 0, overflow := a == BitVec.intMin 32 })

/-- Incrementing keeps the carry. -/
def inc (a : Word) (f : Flags) : Word × Flags :=
  let r := a + 1
  (r, { resultFlags r f with overflow := a == BitVec.intMax 32 })

/-- Decrementing keeps the carry. -/
def dec (a : Word) (f : Flags) : Word × Flags :=
  let r := a - 1
  (r, { resultFlags r f with overflow := a == BitVec.intMin 32 })

/-- A shift looks at the low five bits of its count. -/
def shiftCount (count : Word) : Nat := count.toNat % 32

def shl (a count : Word) (f : Flags) : Word × Flags :=
  match shiftCount count with
  | 0 => (a, f)
  | n + 1 =>
    let r := a <<< (n + 1)
    let out := a.getLsbD (31 - n)
    (r, { resultFlags r f with carry := out, overflow := r.msb != out })

def shr (a count : Word) (f : Flags) : Word × Flags :=
  match shiftCount count with
  | 0 => (a, f)
  | n + 1 =>
    let r := a >>> (n + 1)
    (r, { resultFlags r f with carry := a.getLsbD n, overflow := a.msb })

def sar (a count : Word) (f : Flags) : Word × Flags :=
  match shiftCount count with
  | 0 => (a, f)
  | n + 1 =>
    let r := a.sshiftRight (n + 1)
    (r, { resultFlags r f with carry := a.getLsbD n, overflow := false })

/-- Why a division has no result. -/
inductive DivisionError where
  | byZero
  | overflow (dividend divisor : Int)
  deriving DecidableEq, Repr

/-- The quotient and the remainder of the double word `high:low` by a divisor, rounded toward
zero. -/
def idiv (high low divisor : Word) : Except DivisionError (Word × Word) :=
  let dividend := (high ++ low : BitVec 64).toInt
  if divisor = 0 then .error .byZero
  else
    let q := dividend.tdiv divisor.toInt
    if -0x80000000 ≤ q ∧ q < 0x80000000 then
      .ok (BitVec.ofInt 32 q, BitVec.ofInt 32 (dividend.tmod divisor.toInt))
    else .error (.overflow dividend divisor.toInt)

/-- The high word that extends a word by its sign. -/
def signExtension (a : Word) : Word := if a.msb then -1 else 0

end AsmTrace.Arithmetic

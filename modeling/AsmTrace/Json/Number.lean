import AsmTrace.Decimal.Shortest
import AsmTrace.Json.Fault

/-!
# JSON numbers

A number without a fraction and an exponent is an integer if it has 64 bits. Any other number is the
double that its first digits, as many as fit in 64 bits, give when scaled by a power of ten. Minus
zero is such a double.
-/

namespace AsmTrace.Json

/-- The largest unsigned integer of 64 bits. -/
def maxSignificand : Nat := 0xffffffffffffffff

/-- Digits read so far: those that fit and a decimal exponent for the others. -/
structure Significand where
  value : Nat
  exponent : Int

/-- Appends the digits of a whole part. After the first that does not fit, they only scale. -/
def Significand.whole (s : Significand) : List Char → Significand
  | [] => s
  | c :: cs =>
    let next := 10 * s.value + (c.toNat - '0'.toNat)
    if next ≤ maxSignificand then Significand.whole ⟨next, s.exponent⟩ cs
    else ⟨s.value, s.exponent + (cs.length + 1)⟩

/-- Appends the digits of a fraction up to the first that does not fit. -/
def Significand.fraction (s : Significand) : List Char → Significand
  | [] => s
  | c :: cs =>
    let next := 10 * s.value + (c.toNat - '0'.toNat)
    if next ≤ maxSignificand then Significand.fraction ⟨next, s.exponent - 1⟩ cs else s

/-- The largest power of ten that is a double. -/
def maxPower : Nat := 308

def powerOfTen (n : Nat) : Float := Float.ofScientific 1 false n

/-- A double times a power of ten, unless it is too large. Three divisions by the largest power make
every double zero. -/
def scaleDouble (f : Float) (e : Int) : Nat → Option Float
  | 0 => some f
  | bound + 1 =>
    if e.natAbs ≤ maxPower then
      if 0 ≤ e then
        let g := f * powerOfTen e.natAbs
        if g.isInf then none else some g
      else some (f / powerOfTen e.natAbs)
    else if f == 0 then some f
    else if 0 ≤ e then none
    else scaleDouble (f / powerOfTen maxPower) (e + maxPower) bound

/-- The shape of a double. -/
def floatShape (negative : Bool) (f : Float) : Shape :=
  .float (Decimal.renderDouble (if negative then -f else f))

def Significand.toShape (s : Significand) (negative : Bool) (rest : List Char) :
    Except Fault (Shape × List Char) :=
  match scaleDouble (UInt64.ofNat s.value).toFloat s.exponent 5 with
  | some f => .ok (floatShape negative f, rest)
  | none => .error ⟨.numberOutOfRange, .behind rest⟩

/-- The largest exponent that is read. -/
def maxExponent : Nat := 0x7fffffff

/-- What an exponent that is too large makes of a number. -/
def hugeExponent (s : Significand) (negative down : Bool) (rest : List Char) :
    Except Fault (Shape × List Char) :=
  if s.value != 0 && !down then .error ⟨.numberOutOfRange, .behind rest⟩
  else .ok (floatShape negative 0, rest)

/-- The rest of a number after the mark of its exponent. -/
def readExponent (s : Significand) (negative : Bool) (cs : List Char) :
    Except Fault (Shape × List Char) :=
  let (down, cs) := match cs with
    | '+' :: cs => (false, cs)
    | '-' :: cs => (true, cs)
    | cs => (false, cs)
  match cs with
  | [] => .error ⟨.endInValue, .behind []⟩
  | c :: after =>
    if !c.isDigit then .error ⟨.invalidNumber, .behind after⟩
    else
      let digits := cs.takeWhile Char.isDigit
      let rest := cs.dropWhile Char.isDigit
      let e := digits.foldl (fun n c => 10 * n + (c.toNat - '0'.toNat)) 0
      if maxExponent < e then hugeExponent s negative down rest
      else
        Significand.toShape ⟨s.value, if down then s.exponent - e else s.exponent + e⟩ negative rest

/-- The rest of a number after its digits, which is an exponent or nothing. -/
def readScale (s : Significand) (negative : Bool) (cs : List Char) :
    Except Fault (Shape × List Char) :=
  match cs with
  | c :: rest => if c = 'e' ∨ c = 'E' then readExponent s negative rest else s.toShape negative cs
  | [] => s.toShape negative []

/-- The rest of a number after its decimal point. -/
def readFraction (s : Significand) (negative : Bool) (cs : List Char) :
    Except Fault (Shape × List Char) :=
  let digits := cs.takeWhile Char.isDigit
  let rest := cs.dropWhile Char.isDigit
  if digits.isEmpty then
    .error ⟨if rest.isEmpty then .endInValue else .invalidNumber, .ahead rest⟩
  else readScale (s.fraction digits) negative rest

/-- A number without a fraction and an exponent. -/
def integerShape (s : Significand) (negative : Bool) (rest : List Char) :
    Except Fault (Shape × List Char) :=
  if s.exponent != 0 then s.toShape negative rest
  else if !negative then .ok (.integer s.value, rest)
  else if s.value = 0 ∨ 0x8000000000000000 < s.value then
    .ok (floatShape true (UInt64.ofNat s.value).toFloat, rest)
  else .ok (.integer (-(s.value : Int)), rest)

/-- The rest of a number after its whole part. -/
def readTail (s : Significand) (negative : Bool) (cs : List Char) :
    Except Fault (Shape × List Char) :=
  match cs with
  | '.' :: rest => readFraction s negative rest
  | c :: rest =>
    if c = 'e' ∨ c = 'E' then readExponent s negative rest else integerShape s negative cs
  | [] => integerShape s negative []

/-- A number after its sign. -/
def readNumber (negative : Bool) (cs : List Char) : Except Fault (Shape × List Char) :=
  match cs with
  | [] => .error ⟨.endInValue, .behind []⟩
  | '0' :: rest =>
    if (rest.takeWhile Char.isDigit).isEmpty then readTail ⟨0, 0⟩ negative rest
    else .error ⟨.invalidNumber, .ahead rest⟩
  | c :: rest =>
    if c.isDigit then
      readTail (Significand.whole ⟨0, 0⟩ (cs.takeWhile Char.isDigit)) negative
        (cs.dropWhile Char.isDigit)
    else .error ⟨.invalidNumber, .behind rest⟩

end AsmTrace.Json

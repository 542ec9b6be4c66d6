/-!
# Shortest decimal digits

The decimal number with the fewest digits that still lies closest to a given binary floating-point
number, as written by formats that promise to read back the same number.
-/

namespace AsmTrace.Decimal

/-- The positive number `mantissa * 2 ^ exponent`. The next number below is half as far away as the
next one above if `closerBelow` holds. -/
structure Binary where
  mantissa : Nat
  exponent : Int
  closerBelow : Bool

/-- The number `digits * 10 ^ exponent`. -/
structure Digits where
  digits : Nat
  exponent : Int

/-- An interval around a number, all as fractions over one denominator. -/
structure Rounding where
  low : Nat
  value : Nat
  high : Nat
  denominator : Nat
  /-- Whether the ends of the interval belong to it. -/
  closed : Bool

/-- The numbers that round to a binary number: half-way to its neighbours, where an even mantissa
wins. -/
def Binary.rounding (b : Binary) : Rounding :=
  let up := Nat.pow 2 (b.exponent - 2).toNat
  { low := (4 * b.mantissa - (if b.closerBelow then 1 else 2)) * up
    value := 4 * b.mantissa * up
    high := (4 * b.mantissa + 2) * up
    denominator := Nat.pow 2 (2 - b.exponent).toNat
    closed := b.mantissa % 2 == 0 }

/-- The interval with everything divided by a power of ten. -/
def Rounding.scale (r : Rounding) (k : Int) : Rounding :=
  let up := Nat.pow 10 (-k).toNat
  { r with
    low := r.low * up
    value := r.value * up
    high := r.high * up
    denominator := r.denominator * Nat.pow 10 k.toNat }

def Rounding.contains (r : Rounding) (n : Nat) : Bool :=
  let x := n * r.denominator
  if r.closed then r.low ≤ x && x ≤ r.high else r.low < x && x < r.high

/-- The integer nearest to the number among those next to it that lie in the interval. -/
def Rounding.nearest? (r : Rounding) : Option Nat :=
  let below := r.value / r.denominator
  let rest := r.value % r.denominator
  match r.contains below, r.contains (below + 1) with
  | true, true =>
    let up := r.denominator < 2 * rest || (2 * rest == r.denominator && below % 2 == 1)
    some (if up then below + 1 else below)
  | true, false => some below
  | false, true => some (below + 1)
  | false, false => none

/-- How many decimal digits the whole part of a number has, if it is not zero. -/
def Rounding.wholeDigits (r : Rounding) : Nat := (Nat.toDigits 10 (r.value / r.denominator)).length

/-- The least `s ≤ bound` for which the number times `10 ^ s` is at least one, counted from `s`. -/
def Rounding.leadingZeros (r : Rounding) : Nat → Nat → Nat
  | 0, s => s
  | bound + 1, s =>
    if r.denominator ≤ r.value * Nat.pow 10 s then s else r.leadingZeros bound (s + 1)

/-- The exponent of the first decimal digit of a number. No double needs more than 324 places. -/
def Rounding.decimalExponent (r : Rounding) : Int :=
  if r.denominator ≤ r.value then (r.wholeDigits : Int) - 1 else -(r.leadingZeros 330 1 : Int)

/-- Without final zeros. -/
def Digits.trim : Nat → Digits → Digits
  | 0, d => d
  | bound + 1, d =>
    if d.digits % 10 = 0 then Digits.trim bound ⟨d.digits / 10, d.exponent + 1⟩ else d

/-- Tries `n` digits, then more. -/
def Rounding.search (r : Rounding) (first : Int) : Nat → Nat → Digits
  | 0, _ => ⟨r.value / r.denominator, 0⟩
  | bound + 1, n =>
    let k := first + 1 - n
    match (r.scale k).nearest? with
    | some d => Digits.trim 20 ⟨d, k⟩
    | none => r.search first bound (n + 1)

/-- The fewest digits that read back. Seventeen are enough for a double. -/
def Binary.shortest (b : Binary) : Digits :=
  let r := b.rounding
  r.search r.decimalExponent 20 1

/-- A positive finite double. -/
def Binary.ofDouble (f : Float) : Binary :=
  let bits := f.toBits.toNat
  let fraction : Nat := bits % 0x10000000000000
  let biased : Nat := bits / 0x10000000000000 % 0x800
  if biased = 0 then ⟨fraction, -1074, false⟩
  else ⟨0x10000000000000 + fraction, (biased : Int) - 1075, fraction == 0 && biased != 1⟩

/-- Digits with a decimal point if the number has at most sixteen digits before it and at most four
zeros after it, and with a signed exponent otherwise. -/
def Digits.render (d : Digits) : String :=
  let ds := Nat.toDigits 10 d.digits
  let point := (ds.length : Int) + d.exponent
  let zeros (n : Int) : List Char := List.replicate n.toNat '0'
  if 0 ≤ d.exponent ∧ point ≤ 16 then String.ofList (ds ++ zeros d.exponent) ++ ".0"
  else if 0 < point ∧ point ≤ 16 then
    String.ofList (ds.take point.toNat ++ '.' :: ds.drop point.toNat)
  else if -5 < point ∧ point ≤ 0 then "0." ++ String.ofList (zeros (-point) ++ ds)
  else
    let mantissa := match ds with
      | c :: [] => [c]
      | c :: rest => c :: '.' :: rest
      | [] => []
    let sign := if 0 < point then "+" else ""
    String.ofList mantissa ++ "e" ++ sign ++ toString (point - 1)

/-- The shortest text of a finite double. -/
def renderDouble (f : Float) : String :=
  let sign := if 0x8000000000000000 ≤ f.toBits.toNat then "-" else ""
  if f == 0 then sign ++ "0.0" else sign ++ (Binary.ofDouble f).shortest.render

end AsmTrace.Decimal

import AsmTrace.Line.Lexeme

/-!
# Number literals

A literal is decimal, hexadecimal after `0x` or binary after `0b`, and may have a minus sign in
front. It has a value if its magnitude is below `0x8000000000000000`.
-/

namespace AsmTrace.Line

def isHexDigit (c : Char) : Bool :=
  c.isDigit || ('a' ≤ c && c ≤ 'f') || ('A' ≤ c && c ≤ 'F')

def isBinaryDigit (c : Char) : Bool := c == '0' || c == '1'

/-- A zero, a radix mark in either case, and at least one digit of the radix. -/
def readMarked (lower upper : Char) (isDigit : Char → Bool) :
    List Char → Option (List Char × List Char)
  | '0' :: x :: cs =>
    if x = lower ∨ x = upper then
      (readRun isDigit isDigit cs).map fun (ds, rest) => ('0' :: x :: ds, rest)
    else none
  | _ => none

/-- A literal without a sign. A radix mark that no digit follows is not part of the literal. -/
def readUnsigned (cs : List Char) : Option (List Char × List Char) :=
  (readMarked 'x' 'X' isHexDigit cs).or
    ((readMarked 'b' 'B' isBinaryDigit cs).or (readRun Char.isDigit Char.isDigit cs))

/-- A literal, with its sign directly before it if it has one. -/
def readNumber : List Char → Option (List Char × List Char)
  | '-' :: cs => (readUnsigned cs).map fun (ds, rest) => ('-' :: ds, rest)
  | cs => readUnsigned cs

def digitValue (c : Char) : Nat :=
  if c.isDigit then c.toNat - '0'.toNat
  else if 'a' ≤ c then c.toNat - 'a'.toNat + 10
  else c.toNat - 'A'.toNat + 10

/-- The positional value of digits in a radix. -/
def ofDigits (radix : Nat) (ds : List Char) : Nat :=
  ds.foldl (fun n c => radix * n + digitValue c) 0

/-- The value of a literal without a sign. -/
def magnitude : List Char → Nat
  | '0' :: x :: ds =>
    if x = 'x' ∨ x = 'X' then ofDigits 16 ds
    else if x = 'b' ∨ x = 'B' then ofDigits 2 ds
    else ofDigits 10 ('0' :: x :: ds)
  | ds => ofDigits 10 ds

/-- The value of a literal, if it is in range. -/
def literalValue? : List Char → Option Int
  | '-' :: ds => if magnitude ds < 0x8000000000000000 then some (-(magnitude ds : Int)) else none
  | ds => if magnitude ds < 0x8000000000000000 then some (magnitude ds) else none

end AsmTrace.Line

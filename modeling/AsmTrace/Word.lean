/-!
# Machine words

A word is 32 bits wide. `BitVec.toInt` is its signed reading, `BitVec.toNat` its unsigned one.
-/

namespace AsmTrace

/-- A 32-bit word. -/
abbrev Word := BitVec 32

namespace Word

/-- The word a literal denotes. A literal may be a signed value or an unsigned bit pattern, so that
`-1` and `0xFFFFFFFF` are the same word. -/
def ofLiteral? (n : Int) : Option Word :=
  if -0x80000000 ≤ n ∧ n < 0x100000000 then some (BitVec.ofInt 32 n) else none

/-- A literal becomes a word exactly if it fits one, signed or not. -/
theorem ofLiteral?_eq_some_iff {n : Int} {w : Word} :
    ofLiteral? n = some w ↔ (-0x80000000 ≤ n ∧ n < 0x100000000) ∧ BitVec.ofInt 32 n = w := by
  simp [ofLiteral?]

end Word

end AsmTrace

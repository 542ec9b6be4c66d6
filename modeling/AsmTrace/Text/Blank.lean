/-!
# White space

The characters with the Unicode property `White_Space`, and texts made of nothing else.
-/

namespace AsmTrace.Text

/-- The inclusive code point ranges of `White_Space`. -/
def whiteRanges : List (Nat × Nat) :=
  [(0x09, 0x0d), (0x20, 0x20), (0x85, 0x85), (0xa0, 0xa0), (0x1680, 0x1680), (0x2000, 0x200a),
    (0x2028, 0x2029), (0x202f, 0x202f), (0x205f, 0x205f), (0x3000, 0x3000)]

/-- Whether a code point lies in one of some inclusive ranges. -/
def inRanges (ranges : List (Nat × Nat)) (n : Nat) : Bool :=
  ranges.any fun (lo, hi) => decide (lo ≤ n) && decide (n ≤ hi)

def isWhite (c : Char) : Bool := inRanges whiteRanges c.toNat

/-- Whether a text is empty or holds white space only. -/
def isBlank (s : String) : Bool := s.toList.all isWhite

end AsmTrace.Text

/-!
# Lines of a text

A line ends at a line feed; one carriage return directly before that line feed belongs to the
ending. A carriage return anywhere else is part of its line, and a final line feed starts no further
line. The same rule splits characters and bytes.
-/

namespace AsmTrace.Text

variable {α : Type} [DecidableEq α]

/-- The line whose items, last one first, are `rev`, without a final carriage return. -/
def closeLine (cr : α) : List α → List α
  | [] => []
  | c :: rev => if c = cr then rev.reverse else (c :: rev).reverse

/-- The lines of a text of which `rev`, last item first, is already read. -/
def splitLinesFrom (lf cr : α) (rev : List α) : List α → List (List α)
  | [] => if rev.isEmpty then [] else [rev.reverse]
  | c :: cs =>
    if c = lf then closeLine cr rev :: splitLinesFrom lf cr [] cs
    else splitLinesFrom lf cr (c :: rev) cs

/-- The lines of a text, without their endings. -/
def splitLines (lf cr : α) (text : List α) : List (List α) := splitLinesFrom lf cr [] text

/-- The lines of a string. -/
def lines (s : String) : List String := (splitLines '\n' '\r' s.toList).map String.ofList

/-- The lines of some bytes. -/
def byteLines (bytes : ByteArray) : List (List UInt8) := splitLines 0x0a 0x0d bytes.toList

/-- A line feed ends a line. -/
@[simp] theorem splitLinesFrom_lf (lf cr : α) (rev cs : List α) :
    splitLinesFrom lf cr rev (lf :: cs) = closeLine cr rev :: splitLinesFrom lf cr [] cs := by
  simp [splitLinesFrom]

/-- Any other character belongs to it. -/
theorem splitLinesFrom_cons {lf c : α} (h : c ≠ lf) (cr : α) (rev cs : List α) :
    splitLinesFrom lf cr rev (c :: cs) = splitLinesFrom lf cr (c :: rev) cs := by
  simp [splitLinesFrom, h]

end AsmTrace.Text

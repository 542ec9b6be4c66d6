import AsmTrace.Text.Lines

/-!
# Source texts

The text of a program and its lines, which are numbered from 1.
-/

namespace AsmTrace

structure Source where
  /-- Where the text was read from, if it was. -/
  path? : Option String := none
  text : String
  deriving DecidableEq, Repr

namespace Source

/-- A byte order mark, which is not part of the text when it stands first. -/
def byteOrderMark : Char := '\uFEFF'

def ofText (text : String) : Source :=
  match text.toList with
  | c :: rest => if c = byteOrderMark then { text := String.ofList rest } else { text }
  | [] => { text }

def lines (s : Source) : List String := Text.lines s.text

def lineCount (s : Source) : Nat := s.lines.length

/-- The line of that number. -/
def line? (s : Source) : Nat → Option String
  | 0 => none
  | n + 1 => s.lines[n]?

/-- The lines with their numbers. -/
def numbered (s : Source) : List (Nat × String) :=
  s.lines.zipIdx.map fun (l, i) => (i + 1, l)

end Source

end AsmTrace

/-!
# Lexemes of a line

The smallest parts of a line. A reader takes the longest lexeme at the front of a text and gives it
together with what follows, or nothing if there is none.
-/

namespace AsmTrace.Line

/-- The characters that may stand between lexemes. -/
def isBlank (c : Char) : Bool := c == ' ' || c == '\t' || c == '\r'

def skipBlanks (cs : List Char) : List Char := cs.dropWhile isBlank

/-- A line up to its comment. No lexeme holds a semicolon, so the first one starts the comment. -/
def withoutComment (cs : List Char) : List Char := cs.takeWhile (· != ';')

/-- A character of one class and all those of another class that follow it. -/
def readRun (first next : Char → Bool) : List Char → Option (List Char × List Char)
  | [] => none
  | c :: cs => if first c then some (c :: cs.takeWhile next, cs.dropWhile next) else none

def isIdentifierStart (c : Char) : Bool := c.isAlpha || c == '_' || c == '.'

def isIdentifierPart (c : Char) : Bool := c.isAlphanum || c == '_' || c == '.'

/-- A name of a label or a register. -/
def readIdentifier : List Char → Option (List Char × List Char) :=
  readRun isIdentifierStart isIdentifierPart

def readMnemonic : List Char → Option (List Char × List Char) :=
  readRun Char.isAlpha Char.isAlphanum

/-- A lexeme and what follows it make up the text read. -/
theorem append_eq_of_readRun {first next : Char → Bool} {cs l r : List Char}
    (h : readRun first next cs = some (l, r)) : l ++ r = cs := by
  cases cs with
  | nil => simp [readRun] at h
  | cons c cs =>
    simp only [readRun] at h
    split at h
    · simp only [Option.some.injEq, Prod.mk.injEq] at h
      obtain ⟨rfl, rfl⟩ := h
      simp [List.takeWhile_append_dropWhile]
    · simp at h

end AsmTrace.Line

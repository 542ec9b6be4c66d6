import AsmTrace.Line.Literal

/-!
# What a malformed line lacks

A line that has no form is reported by a column and the rules of the grammar that could have gone on
there. The report follows a left-to-right match of the grammar in which alternatives are tried in
order: it keeps the furthest position at which a rule failed and the rules that failed there. A rule
of which exactly one part failed where the rule itself starts leaves the report to that part; any
other failed rule stands for its parts.
-/

namespace AsmTrace.Line

/-- The rules of the grammar that a report can name, in the order in which it names them. -/
inductive Rule where
  | endOfLine | identifier | unsigned | number | sign | displacement | memoryBase | memory | operand
  | operands | mnemonic | instruction | label | line
  deriving DecidableEq, Repr

namespace Rule

def all : List Rule :=
  [.endOfLine, .identifier, .unsigned, .number, .sign, .displacement, .memoryBase, .memory,
    .operand, .operands, .mnemonic, .instruction, .label, .line]

def name : Rule → String
  | .endOfLine => "EOI"
  | .identifier => "identifier"
  | .unsigned => "unsigned"
  | .number => "number"
  | .sign => "sign"
  | .displacement => "displacement"
  | .memoryBase => "mem_base"
  | .memory => "memory"
  | .operand => "operand"
  | .operands => "operands"
  | .mnemonic => "mnemonic"
  | .instruction => "instruction"
  | .label => "label"
  | .line => "line"

end Rule

/-- The furthest position at which a rule failed, and the rules that failed there, oldest first. -/
structure Attempts where
  position : Nat := 0
  rules : List Rule := []
  deriving DecidableEq, Repr

namespace Attempts

/-- How many failures are kept for a position. -/
def countAt (a : Attempts) (position : Nat) : Nat :=
  if position = a.position then a.rules.length else 0

/-- Keeps the failure of a rule at a position where `before` failures were kept when it was
tried. -/
def fail (a : Attempts) (rule : Rule) (position before : Nat) : Attempts :=
  if a.countAt position = before + 1 then a
  else if position = a.position then { a with rules := a.rules.take before ++ [rule] }
  else if a.position < position then { position, rules := [rule] }
  else a

end Attempts

/-- A position in a line: how many characters precede it and which ones follow. -/
structure Cursor where
  position : Nat
  rest : List Char
  deriving DecidableEq, Repr

/-- Matches a part of the grammar at a cursor. -/
abbrev Matcher := Cursor → Attempts → Option Cursor × Attempts

namespace Matcher

/-- Blanks, and after them a comment, which takes all that is left. -/
def skip (cur : Cursor) : Cursor :=
  let blanks := cur.rest.takeWhile isBlank
  let rest := cur.rest.dropWhile isBlank
  match rest with
  | ';' :: _ => ⟨cur.position + cur.rest.length, []⟩
  | _ => ⟨cur.position + blanks.length, rest⟩

/-- A character. -/
def char (c : Char) : Matcher := fun cur attempts =>
  match cur.rest with
  | d :: rest => (if d = c then some ⟨cur.position + 1, rest⟩ else none, attempts)
  | [] => (none, attempts)

/-- A lexeme, inside which no failure is kept. -/
def lexeme (read : List Char → Option (List Char × List Char)) : Matcher := fun cur attempts =>
  ((read cur.rest).map fun (l, rest) => ⟨cur.position + l.length, rest⟩, attempts)

/-- One part after another, with what may be skipped between them. -/
def andThen (first second : Matcher) : Matcher := fun cur attempts =>
  match first cur attempts with
  | (some next, attempts) => second (skip next) attempts
  | (none, attempts) => (none, attempts)

def orElse (first second : Matcher) : Matcher := fun cur attempts =>
  match first cur attempts with
  | (some next, attempts) => (some next, attempts)
  | (none, attempts) => second cur attempts

def optional (m : Matcher) : Matcher := fun cur attempts =>
  match m cur attempts with
  | (some next, attempts) => (some next, attempts)
  | (none, attempts) => (some cur, attempts)

/-- A part any number of times, at most `bound`. -/
def many (m : Matcher) : Nat → Matcher
  | 0 => fun cur attempts => (some cur, attempts)
  | bound + 1 => fun cur attempts =>
    match m (skip cur) attempts with
    | (some next, attempts) => many m bound next attempts
    | (none, attempts) => (some cur, attempts)

/-- A part that a report can name. -/
def named (rule : Rule) (m : Matcher) : Matcher := fun cur attempts =>
  let before := attempts.countAt cur.position
  match m cur attempts with
  | (some next, attempts) => (some next, attempts)
  | (none, attempts) => (none, attempts.fail rule cur.position before)

def identifier : Matcher := named .identifier (lexeme readIdentifier)

def unsigned : Matcher := named .unsigned (lexeme readUnsigned)

def number : Matcher := named .number (lexeme readNumber)

def sign : Matcher := named .sign (orElse (char '+') (char '-'))

def displacement : Matcher := named .displacement (andThen sign unsigned)

def memoryBase : Matcher := named .memoryBase (orElse number identifier)

def memory : Matcher :=
  named .memory <|
    andThen (char '[') (andThen memoryBase (andThen (optional displacement) (char ']')))

def operand : Matcher := named .operand (orElse memory (orElse number identifier))

/-- A list of operands; a text of `length` characters has no more commas than that. -/
def operands (length : Nat) : Matcher :=
  named .operands fun cur attempts =>
    match operand cur attempts with
    | (some next, attempts) => many (andThen (char ',') operand) length next attempts
    | (none, attempts) => (none, attempts)

def mnemonic : Matcher := named .mnemonic (lexeme readMnemonic)

def instruction (length : Nat) : Matcher :=
  named .instruction (andThen mnemonic (optional (operands length)))

def label : Matcher := named .label (andThen identifier (char ':'))

def endOfLine : Matcher :=
  named .endOfLine fun cur attempts => (if cur.rest.isEmpty then some cur else none, attempts)

def line (length : Nat) : Matcher :=
  named .line fun cur attempts =>
    andThen (optional label) (andThen (optional (instruction length)) endOfLine) (skip cur) attempts

end Matcher

/-- What a line lacks: a column, counted from 1 after the last line feed, and the rules that could
have gone on there. -/
structure Expectation where
  column : Nat
  rules : List Rule
  deriving DecidableEq, Repr

namespace Expectation

/-- The report on a line. -/
def ofText (text : List Char) : Expectation :=
  let attempts := (Matcher.line text.length ⟨0, text⟩ {}).2
  let before := (text.take attempts.position).reverse.takeWhile (· != '\n')
  { column := before.length + 1
    rules := Rule.all.filter fun r => attempts.rules.contains r }

/-- `a`, `a or b`, or `a, b, or c`. -/
def disjunction : List String → String
  | [] => ""
  | [a] => a
  | [a, b] => a ++ " or " ++ b
  | names => String.intercalate ", " names.dropLast ++ ", or " ++ names.getLastD ""

def message (e : Expectation) : String :=
  s!"column {e.column}: expected " ++ disjunction (e.rules.map Rule.name)

end Expectation

end AsmTrace.Line

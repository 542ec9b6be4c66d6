import AsmTrace.Statement

/-!
# The grammar of lines

Which texts are lines of a program, and what each of them says. A line is a label, an instruction,
both or neither, and it may end in a comment:

    [identifier :] [mnemonic [operand {, operand}]] [; comment]

with blanks between any two of its parts. The rules say what a text consists of and nothing about
how it is read.
-/

namespace AsmTrace.Line.Grammar

/-! ## Lexemes -/

/-- The characters that may stand between lexemes. -/
def Blank (c : Char) : Prop := c = ' ' ∨ c = '\t' ∨ c = '\r'

def Blanks (cs : List Char) : Prop := ∀ c ∈ cs, Blank c

/-- A letter, an underscore or a full stop, and then also digits. -/
inductive Identifier : List Char → Prop
  | mk {c : Char} {cs : List Char} (first : c.isAlpha ∨ c = '_' ∨ c = '.')
      (next : ∀ d ∈ cs, d.isAlphanum ∨ d = '_' ∨ d = '.') : Identifier (c :: cs)

/-- A letter, and then also digits. -/
inductive Mnemonic : List Char → Prop
  | mk {c : Char} {cs : List Char} (first : c.isAlpha) (next : ∀ d ∈ cs, d.isAlphanum) :
      Mnemonic (c :: cs)

/-- A text is a name in any letter case. -/
def Spells (cs : List Char) (name : String) : Prop :=
  Text.upper (String.ofList cs) = Text.upper name

/-! ## Numbers -/

/-- The digits in ascending order, of which a radix has the first ones. -/
def digits : List Char :=
  ['0', '1', '2', '3', '4', '5', '6', '7', '8', '9', 'a', 'b', 'c', 'd', 'e', 'f']

/-- A character is a digit of a radix, in either case. -/
def Digit (radix : Nat) (c : Char) (d : Nat) : Prop := d < radix ∧ digits[d]? = some c.toLower

/-- Digits of a radix with their positional value. -/
inductive Numeral (radix : Nat) : List Char → Nat → Prop
  | digit {c : Char} {d : Nat} : Digit radix c d → Numeral radix [c] d
  | snoc {cs : List Char} {c : Char} {n d : Nat} : Numeral radix cs n → Digit radix c d →
      Numeral radix (cs ++ [c]) (radix * n + d)

inductive Unsigned : List Char → Nat → Prop
  | decimal {cs : List Char} {n : Nat} : Numeral 10 cs n → Unsigned cs n
  | hexadecimal {x : Char} {cs : List Char} {n : Nat} (mark : x = 'x' ∨ x = 'X') :
      Numeral 16 cs n → Unsigned ('0' :: x :: cs) n
  | binary {x : Char} {cs : List Char} {n : Nat} (mark : x = 'b' ∨ x = 'B') :
      Numeral 2 cs n → Unsigned ('0' :: x :: cs) n

/-- A number without a sign, in range. -/
def Magnitude (cs : List Char) (n : Nat) : Prop := Unsigned cs n ∧ n < 0x8000000000000000

/-- A number in range, with its sign directly before it if it has one. -/
inductive Number : List Char → Int → Prop
  | positive {cs : List Char} {n : Nat} : Magnitude cs n → Number cs n
  | negative {cs : List Char} {n : Nat} : Magnitude cs n → Number ('-' :: cs) (-n)

/-! ## Operands -/

/-- What a memory operand starts from: an identifier is a register if it is one's name. -/
inductive Base : List Char → MemoryBase → Prop
  | number {cs : List Char} {n : Int} : Number cs n → Base cs (.absolute n)
  | register {cs : List Char} {r : Register} : Identifier cs → Spells cs r.name →
      Base cs (.register r)
  | symbol {cs : List Char} : Identifier cs → (∀ r : Register, ¬ Spells cs r.name) →
      Base cs (.symbol (String.ofList cs))

/-- What follows the base of a memory operand. -/
inductive Displacement : List Char → Int → Prop
  | none : Displacement [] 0
  | plus {b₁ cs b₂ : List Char} {n : Nat} : Blanks b₁ → Magnitude cs n → Blanks b₂ →
      Displacement ('+' :: (b₁ ++ cs ++ b₂)) n
  | minus {b₁ cs b₂ : List Char} {n : Nat} : Blanks b₁ → Magnitude cs n → Blanks b₂ →
      Displacement ('-' :: (b₁ ++ cs ++ b₂)) (-n)

inductive OperandText : List Char → Operand → Prop
  | number {cs : List Char} {n : Int} : Number cs n → OperandText cs (.immediate n)
  | register {cs : List Char} {r : Register} : Identifier cs → Spells cs r.name →
      OperandText cs (.register r)
  | symbol {cs : List Char} : Identifier cs → (∀ r : Register, ¬ Spells cs r.name) →
      OperandText cs (.symbol (String.ofList cs))
  | memory {b₁ base b₂ offset : List Char} {b : MemoryBase} {d : Int} : Blanks b₁ →
      Base base b → Blanks b₂ → Displacement offset d →
      OperandText ('[' :: (b₁ ++ base ++ b₂ ++ offset ++ [']'])) (.memory ⟨b, d⟩)

/-- One operand or more, with commas between them. -/
inductive OperandsText : List Char → List Operand → Prop
  | single {cs : List Char} {o : Operand} : OperandText cs o → OperandsText cs [o]
  | cons {cs b₁ b₂ rest : List Char} {o : Operand} {os : List Operand} : OperandText cs o →
      Blanks b₁ → Blanks b₂ → OperandsText rest os →
      OperandsText (cs ++ b₁ ++ ',' :: (b₂ ++ rest)) (o :: os)

/-! ## Lines -/

/-- What a mnemonic says with operands: it is that of an opcode, or it is `DW` and the operands are
one number or more. -/
inductive Says (mnemonic : List Char) (os : List Operand) : Statement.Body → Prop
  | instruction {opcode : Opcode} {name : String} : name ∈ opcode.mnemonic :: opcode.aliases →
      Spells mnemonic name → Says mnemonic os (.instruction opcode os)
  | data {values : List Int} : Spells mnemonic "DW" → values ≠ [] →
      os = values.map Operand.immediate → Says mnemonic os (.data values)

/-- A mnemonic, and its operands if it has any. The mnemonic ends where letters and digits do. -/
inductive InstructionText : List Char → Statement.Body → Prop
  | bare {mnemonic : List Char} {body : Statement.Body} : Mnemonic mnemonic →
      Says mnemonic [] body → InstructionText mnemonic body
  | withOperands {mnemonic b cs : List Char} {os : List Operand} {body : Statement.Body} :
      Mnemonic mnemonic → Blanks b → OperandsText cs os →
      (∀ c ∈ (b ++ cs).head?, ¬ c.isAlphanum) → Says mnemonic os body →
      InstructionText (mnemonic ++ b ++ cs) body

inductive LabelText : List Char → Statement.Body → Prop
  | mk {cs b : List Char} : Identifier cs → Blanks b →
      LabelText (cs ++ b ++ [':']) (.label (String.ofList cs))

/-- A part that may be missing, and then is empty and says nothing. -/
inductive Optional (part : List Char → Statement.Body → Prop) :
    List Char → List Statement.Body → Prop
  | none : Optional part [] []
  | some {cs : List Char} {body : Statement.Body} : part cs body → Optional part cs [body]

inductive CommentText : List Char → Prop
  | none : CommentText []
  | some (cs : List Char) : CommentText (';' :: cs)

/-- A line and what it says, its label first. -/
inductive LineText : List Char → List Statement.Body → Prop
  | mk {b₁ label b₂ instruction b₃ comment : List Char} {ls is : List Statement.Body} :
      Blanks b₁ → Optional LabelText label ls → Blanks b₂ →
      Optional InstructionText instruction is → Blanks b₃ → CommentText comment →
      LineText (b₁ ++ label ++ b₂ ++ instruction ++ b₃ ++ comment) (ls ++ is)

end AsmTrace.Line.Grammar

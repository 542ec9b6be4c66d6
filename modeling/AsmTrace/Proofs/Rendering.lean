import AsmTrace.Assembly.Decode
import AsmTrace.Proofs.Lines

/-!
# Statements written back

A statement that was parsed can be written as a line again, and the line says the same statement.
The parser accepts exactly the lines of the grammar, so it is enough that what `render` writes is of
the grammar, part by part: each theorem here takes a text of the grammar and gives the rendering of
what the text says in its place.
-/

namespace AsmTrace

/-! ## Integers of a statement -/

def MemoryBase.integers : MemoryBase → List Int
  | .absolute address => [address]
  | .register _ | .symbol _ => []

def Operand.integers : Operand → List Int
  | .immediate n => [n]
  | .memory m => m.base.integers ++ [m.displacement]
  | .register _ | .symbol _ => []

/-- The integers that a statement holds: values, immediates, addresses and displacements. -/
def Statement.Body.integers : Statement.Body → List Int
  | .label _ => []
  | .data values => values
  | .instruction _ operands => operands.flatMap Operand.integers

namespace Line

open Grammar Result
open Assembly (Fits64)

/-- The integers that a literal can have for its value. -/
def InRange (n : Int) : Prop := -0x8000000000000000 < n ∧ n < 0x8000000000000000

/-- The negation of an integer in range has 64 bits. -/
theorem InRange.fits_neg {n : Int} (h : InRange n) : Fits64 (-n) := by
  unfold InRange at h
  unfold Fits64
  omega

/-! ## Numbers -/

/-- The character of a digit is that digit. -/
theorem digit_digitChar {d : Nat} (h : d < 10) : Digit 10 d.digitChar d := by
  have table : ∀ d < 10, Digit 10 d.digitChar d := by decide
  exact table d h

/-- Decimal digits have the number that they are made from for their value. -/
theorem numeral_toDigits (n : Nat) : Numeral 10 (Nat.toDigits 10 n) n := by
  induction n using Nat.strongRecOn with
  | ind n ih =>
    rcases Nat.lt_or_ge n 10 with lt | ge
    · rw [Nat.toDigits_of_lt_base lt]
      exact .digit (digit_digitChar lt)
    · have front := ih (n / 10) (Nat.div_lt_self (by omega) (by decide))
      have whole := Numeral.snoc front (digit_digitChar (Nat.mod_lt n (by decide)))
      rwa [Nat.div_add_mod, ← Nat.toDigits_of_base_le (by decide) ge] at whole

/-- The decimal digits of a number are a magnitude with its value. -/
theorem magnitude_toDigits {n : Nat} (h : n < 0x8000000000000000) :
    Magnitude (Nat.toDigits 10 n) n :=
  ⟨.decimal (numeral_toDigits n), h⟩

/-- An integer that is not negative is shown by its digits. -/
theorem toList_toString_natCast (n : Nat) : (toString (n : Int)).toList = Nat.toDigits 10 n := by
  rw [Int.toString_eq_repr, Int.repr_eq_if, if_pos (Int.natCast_nonneg n), Int.toNat_natCast,
    Nat.toList_repr]

/-- A negative integer is shown by a minus sign and its digits. -/
theorem toList_toString_neg {n : Nat} (pos : 0 < n) :
    (toString (-n : Int)).toList = '-' :: Nat.toDigits 10 n := by
  rw [Int.toString_eq_repr, Int.repr_eq_if, if_neg (by omega), Int.neg_neg, Int.toNat_natCast,
    String.toList_append, Nat.toList_repr]
  rfl

/-- An integer in range is shown as a number of the grammar with its value. -/
theorem number_toString {n : Int} (h : InRange n) : Number (toString n).toList n := by
  obtain ⟨above, below⟩ := h
  obtain ⟨m, rfl | rfl⟩ := Int.eq_nat_or_neg n
  · rw [toList_toString_natCast]
    exact .positive (magnitude_toDigits (by omega))
  · rcases Nat.eq_zero_or_pos m with rfl | pos
    · have zero : Magnitude (Nat.toDigits 10 0) 0 := magnitude_toDigits (by decide)
      exact .positive zero
    · rw [toList_toString_neg pos]
      exact .negative (magnitude_toDigits (by omega))

/-- The numbers of the grammar are in range. -/
theorem inRange_of_number {l : List Char} {n : Int} (h : Number l n) : InRange n := by
  cases h with
  | positive h | negative h =>
    have lt := h.2
    unfold InRange
    omega

/-- An integer in range is read back from how it is shown. -/
@[simp] theorem literal_toString {n : Int} (h : InRange n) : literal (toString n).toList = .ok n :=
  (readAtom_number (number_toString h) (stops_nil _)).2

/-- What a literal is read as is in range. -/
theorem inRange_of_literal {text : List Char} {n : Int} (h : literal text = .ok n) : InRange n := by
  rw [literal_eq_ok] at h
  unfold literalValue? at h
  split at h
  all_goals
    obtain ⟨lt, ⟨⟩⟩ := Option.ite_none_right_eq_some.1 h
    unfold InRange
    omega

/-! ## Operands -/

/-- The name of a register is an identifier. -/
theorem identifier_name (r : Register) : Identifier r.name.toList := by
  have read : readIdentifier r.name.toList = some (r.name.toList, []) := by cases r <;> rfl
  exact (readIdentifier_eq_some.1 read).2.1

theorem spells_toList (name : String) : Spells name.toList name := by
  rw [Spells, String.ofList_toList]

/-- The base of a memory operand is rendered as a base of the grammar. -/
theorem base_render {l : List Char} {b : MemoryBase} (h : Base l b) : Base b.render.toList b := by
  cases h with
  | number number => exact .number (number_toString (inRange_of_number number))
  | register => exact .register (identifier_name _) (spells_toList _)
  | symbol identifier other =>
    rw [MemoryBase.render, String.toList_ofList]
    exact .symbol identifier other

/-- The displacements of the grammar are in range. -/
theorem inRange_of_displacement {t : List Char} {d : Int} (h : Displacement t d) : InRange d := by
  cases h with
  | none => exact ⟨by decide, by decide⟩
  | plus _ inRange _ => exact inRange_of_number (.positive inRange)
  | minus _ inRange _ => exact inRange_of_number (.negative inRange)

/-- A displacement in range is rendered as one of the grammar. -/
theorem displacement_render {d : Int} (h : InRange d) :
    Displacement (renderDisplacement d).toList d := by
  obtain ⟨above, below⟩ := h
  unfold renderDisplacement
  obtain ⟨m, rfl | rfl⟩ := Int.eq_nat_or_neg d
  · by_cases zero : (m : Int) = 0
    · rw [if_pos zero, zero]
      exact .none
    · rw [if_neg zero, if_pos (by omega), String.toList_append, toList_toString_natCast]
      have text := Displacement.plus blanks_nil (magnitude_toDigits (n := m) (by omega)) blanks_nil
      simpa using text
  · by_cases zero : (-m : Int) = 0
    · rw [if_pos zero, zero]
      exact .none
    · rw [if_neg zero, if_neg (by omega), toList_toString_neg (by omega)]
      have text := Displacement.minus blanks_nil (magnitude_toDigits (n := m) (by omega)) blanks_nil
      simpa using text

/-- An operand is rendered as one of the grammar. -/
theorem operand_render {l : List Char} {o : Operand} (h : OperandText l o) :
    OperandText o.render.toList o := by
  cases h with
  | number number => exact .number (number_toString (inRange_of_number number))
  | register => exact .register (identifier_name _) (spells_toList _)
  | symbol identifier other =>
    rw [Operand.render, String.toList_ofList]
    exact .symbol identifier other
  | memory _ base _ displaced =>
    have text := OperandText.memory blanks_nil (base_render base) blanks_nil
      (displacement_render (inRange_of_displacement displaced))
    simpa [Operand.render, MemoryOperand.render] using text

theorem blanks_space : Blanks [' '] := by simp [Blanks, Blank]

/-- A list with more than one part starts with the first part and a comma. -/
theorem commaSeparated_cons {first : String} {rest : List String} (h : rest ≠ []) :
    Statement.commaSeparated (first :: rest) = first ++ ", " ++ Statement.commaSeparated rest := by
  obtain ⟨second, more, rfl⟩ := List.exists_cons_of_ne_nil h
  rfl

/-- A text of operands has an operand. -/
theorem operands_ne_nil_of_text {l : List Char} {os : List Operand} (h : OperandsText l os) :
    os ≠ [] := by
  cases h <;> exact List.cons_ne_nil _ _

/-- Operands are rendered as a list of the grammar. -/
theorem operands_render {l : List Char} {os : List Operand} (h : OperandsText l os) :
    OperandsText (Statement.commaSeparated (os.map Operand.render)).toList os := by
  induction h with
  | single operand => exact .single (operand_render operand)
  | @cons cs b₁ b₂ rest o os operand _ _ more ih =>
    have nonempty : os.map Operand.render ≠ [] := by simpa using operands_ne_nil_of_text more
    have text := OperandsText.cons (operand_render operand) blanks_nil blanks_space ih
    rw [List.map_cons, commaSeparated_cons nonempty, String.toList_append, String.toList_append]
    simpa using text

/-! ## Labels and instructions -/

/-- A label is rendered as one of the grammar. -/
theorem label_render {t : List Char} {body : Statement.Body} (h : LabelText t body) :
    LabelText body.render.toList body := by
  obtain @⟨name, b, identifier, -⟩ := h
  have text := LabelText.mk identifier blanks_nil
  simpa [Statement.Body.render] using text

/-- The mnemonic of an opcode is one of the grammar. -/
theorem mnemonic_opcode (o : Opcode) : Mnemonic o.mnemonic.toList := by
  have table : Opcode.all.all (fun o =>
      readMnemonic o.mnemonic.toList == some (o.mnemonic.toList, [])) = true := by decide +kernel
  have read := List.all_eq_true.1 table o o.mem_all
  exact (readMnemonic_eq_some.1 (beq_iff_eq.1 read)).2.1

theorem mnemonic_data : Mnemonic dataMnemonic.toList :=
  (readMnemonic_eq_some.1 (rfl : readMnemonic dataMnemonic.toList = some (_, []))).2.1

/-- A mnemonic with a space between it and its operands. -/
theorem instruction_spaced {mnemonic cs : List Char} {os : List Operand} {body : Statement.Body}
    (isMnemonic : Mnemonic mnemonic) (operands : OperandsText cs os)
    (said : Says mnemonic os body) : InstructionText (mnemonic ++ ' ' :: cs) body := by
  have text := InstructionText.withOperands isMnemonic blanks_space operands (by simp) said
  simpa using text

/-- What is said with some operands is said by its rendering. -/
theorem says_render {mnemonic cs : List Char} {os : List Operand} {body : Statement.Body}
    (operands : OperandsText cs os) (said : Says mnemonic os body) :
    InstructionText body.render.toList body := by
  have rendered := operands_render operands
  cases said with
  | @instruction opcode =>
    have text := instruction_spaced (mnemonic_opcode opcode) rendered
      (.instruction List.mem_cons_self (spells_toList _))
    obtain ⟨o, more, rfl⟩ := List.exists_cons_of_ne_nil (operands_ne_nil_of_text operands)
    simpa [Statement.Body.render] using text
  | @data values _ nonempty numbers =>
    subst numbers
    have text := instruction_spaced mnemonic_data rendered
      (.data (spells_toList dataMnemonic) nonempty rfl)
    have same : (values.map Operand.immediate).map Operand.render = values.map toString := by
      rw [List.map_map]
      rfl
    rw [same] at text
    simpa [Statement.Body.render, dataMnemonic] using text

/-- An instruction is rendered as one of the grammar. -/
theorem instruction_render {t : List Char} {body : Statement.Body} (h : InstructionText t body) :
    InstructionText body.render.toList body := by
  cases h with
  | withOperands _ _ operands _ said => exact says_render operands said
  | bare _ said =>
    cases said with
    | @instruction opcode =>
      exact .bare (mnemonic_opcode opcode) (.instruction List.mem_cons_self (spells_toList _))
    | data _ nonempty numbers => exact absurd (List.map_eq_nil_iff.1 numbers.symm) nonempty

/-! ## Lines -/

/-- A label and an instruction, each of which may be missing, with a space between them or not. -/
theorem lineText_of_parts {label instruction b : List Char} {ls is : List Statement.Body}
    (isLabel : Optional LabelText label ls) (blanks : Blanks b)
    (isInstruction : Optional InstructionText instruction is) :
    LineText (label ++ b ++ instruction) (ls ++ is) := by
  simpa using LineText.mk blanks_nil isLabel blanks isInstruction blanks_nil .none

/-- A label alone is a line. -/
theorem lineText_label {t : List Char} {body : Statement.Body} (h : LabelText t body) :
    LineText body.render.toList [body] := by
  simpa using lineText_of_parts (.some (label_render h)) blanks_nil .none

/-- An instruction alone is a line. -/
theorem lineText_instruction {t : List Char} {body : Statement.Body} (h : InstructionText t body) :
    LineText body.render.toList [body] := by
  simpa using lineText_of_parts .none blanks_nil (.some (instruction_render h))

/-- What a line says can be written on lines of their own, and on one line. -/
theorem lineText_render {text : List Char} {bs : List Statement.Body} (h : LineText text bs) :
    (∀ body ∈ bs, LineText body.render.toList [body]) ∧
      LineText (" ".intercalate (bs.map Statement.Body.render)).toList bs := by
  obtain ⟨-, label, -, instruction, -, -⟩ := h
  cases label with
  | none =>
    cases instruction with
    | none => exact ⟨by simp, lineText_of_parts .none blanks_nil .none⟩
    | some instruction =>
      have line := lineText_instruction instruction
      exact ⟨by simpa using line, line⟩
  | some label =>
    have line := lineText_label label
    cases instruction with
    | none => exact ⟨by simpa using line, line⟩
    | some instruction =>
      have line' := lineText_instruction instruction
      have both := lineText_of_parts (.some (label_render label)) blanks_space
        (.some (instruction_render instruction))
      refine ⟨by simpa using ⟨line, line'⟩, ?_⟩
      simpa [String.intercalate_cons_cons] using both

/-! ## Ranges -/

/-- The integers in a base are in range. -/
theorem inRange_of_base {l : List Char} {b : MemoryBase} (h : Base l b) :
    ∀ n ∈ b.integers, InRange n := by
  cases h with
  | number number => simpa [MemoryBase.integers] using inRange_of_number number
  | register | symbol => simp [MemoryBase.integers]

/-- The integers in an operand are in range. -/
theorem inRange_of_operand {l : List Char} {o : Operand} (h : OperandText l o) :
    ∀ n ∈ o.integers, InRange n := by
  cases h with
  | number number => simpa [Operand.integers] using inRange_of_number number
  | register | symbol => simp [Operand.integers]
  | memory _ base _ displaced =>
    intro n mem
    rcases List.mem_append.1 mem with mem | mem
    · exact inRange_of_base base n mem
    · rw [List.mem_singleton.1 mem]
      exact inRange_of_displacement displaced

/-- The integers in a list of operands are in range. -/
theorem inRange_of_operands {l : List Char} {os : List Operand} (h : OperandsText l os) :
    ∀ n ∈ os.flatMap Operand.integers, InRange n := by
  induction h with
  | single operand => simpa using inRange_of_operand operand
  | cons operand _ _ _ ih =>
    intro n mem
    rw [List.flatMap_cons, List.mem_append] at mem
    rcases mem with mem | mem
    · exact inRange_of_operand operand n mem
    · exact ih n mem

/-- The integers in what a mnemonic says are those of its operands. -/
theorem inRange_of_says {mnemonic : List Char} {os : List Operand} {body : Statement.Body}
    (h : ∀ n ∈ os.flatMap Operand.integers, InRange n) (said : Says mnemonic os body) :
    ∀ n ∈ body.integers, InRange n := by
  cases said with
  | instruction => exact h
  | data _ _ numbers =>
    subst numbers
    intro n mem
    exact h n (List.mem_flatMap.2 ⟨.immediate n, List.mem_map_of_mem mem, List.mem_singleton.2 rfl⟩)

/-- Every integer that a line says is in range. -/
theorem inRange_of_lineText {text : List Char} {bs : List Statement.Body} (h : LineText text bs) :
    ∀ body ∈ bs, ∀ n ∈ body.integers, InRange n := by
  obtain ⟨-, label, -, instruction, -, -⟩ := h
  intro body mem
  rcases List.mem_append.1 mem with mem | mem
  · cases label with
    | none => cases mem
    | some label =>
      cases label
      rw [List.mem_singleton.1 mem]
      simp [Statement.Body.integers]
  · cases instruction with
    | none => cases mem
    | some instruction =>
      rw [List.mem_singleton.1 mem]
      cases instruction with
      | bare _ said => exact inRange_of_says (by simp) said
      | withOperands _ _ operands _ said =>
        exact inRange_of_says (inRange_of_operands operands) said

/-- What was parsed can be written back and parsed again: each statement of a line on a line of its
own, and all of them on one line. Every integer that a statement holds is above the least of 64
bits, so that its decimal form is a literal with this value, and it can be negated, as can the value
of any literal. -/
theorem parse_render {text : String} {line : Nat} {statements : List Statement}
    (parsed : parse text line = .ok statements) :
    (∀ s ∈ statements, parse s.render line = .ok [s]) ∧
    parse (" ".intercalate (statements.map Statement.render)) line = .ok statements ∧
    (∀ s ∈ statements, ∀ n ∈ s.body.integers,
      (-0x8000000000000000 < n ∧ n < 0x8000000000000000) ∧ literal (toString n).toList = .ok n ∧
        Fits64 (-n)) ∧
    ∀ digits n, literal digits = .ok n → Fits64 (-n) := by
  obtain ⟨bs, said, rfl⟩ := parse_eq_ok.1 parsed
  rw [bodies_eq_ok_iff] at said
  obtain ⟨single, all⟩ := lineText_render said
  refine ⟨?_, ?_, ?_, fun _ _ value => (inRange_of_literal value).fits_neg⟩
  · intro s mem
    obtain ⟨body, inBodies, rfl⟩ := List.mem_map.1 mem
    exact parse_eq_ok.2 ⟨[body], bodies_eq_ok_iff.2 (single body inBodies), rfl⟩
  · rw [List.map_map]
    exact parse_eq_ok.2 ⟨bs, bodies_eq_ok_iff.2 all, rfl⟩
  · intro s mem n held
    obtain ⟨body, inBodies, rfl⟩ := List.mem_map.1 mem
    have inRange := inRange_of_lineText said body inBodies n held
    exact ⟨inRange, literal_toString inRange, inRange.fits_neg⟩

/-- An alias, a displacement below an address, literals of three radices and the least integer that
can be written. -/
theorem parse_render_least :
    ∃ statements, parse "l : jz [0X10 - 0b11] , -9223372036854775807 ; c" 4 = .ok statements ∧
      statements.map Statement.render = ["l:", "JE [16-3], -9223372036854775807"] ∧
      (∀ s ∈ statements, parse s.render 4 = .ok [s]) ∧
      parse "l: JE [16-3], -9223372036854775807" 4 = .ok statements := by
  let statements : List Statement := [⟨4, .label "l"⟩, ⟨4, .instruction (.jump (some .equal))
    [.memory ⟨.absolute 16, -3⟩, .immediate (-9223372036854775807)]⟩]
  have parsed : parse "l : jz [0X10 - 0b11] , -9223372036854775807 ; c" 4 = .ok statements := by
    decide +kernel
  have rendered : statements.map Statement.render =
      ["l:", "JE [16-3], -9223372036854775807"] := by decide +kernel
  obtain ⟨single, all, -⟩ := parse_render parsed
  rw [rendered] at all
  exact ⟨statements, parsed, rendered, single, all⟩

end Line

end AsmTrace

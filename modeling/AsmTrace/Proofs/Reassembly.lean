import AsmTrace.Proofs.ExactArithmetic
import AsmTrace.Proofs.OperandShapes
import AsmTrace.Proofs.Rendering

/-!
# Instructions read back

The line that shows an instruction has no labels in it: what they named is written out.
`Value.written` is the operand that stands there for a value. Such an operand stands for the value
whatever labels there are (`Denotes.written`), and its text is of the grammar as long as its
integers are in range (`operandText_written`). So an instruction that is shown assembles to itself.
-/

namespace AsmTrace

/-! ## What is shown -/

/-- The memory operand that shows a reference. -/
def MemoryRef.written : MemoryRef → MemoryOperand
  | ⟨some r, d⟩ => ⟨.register r, d⟩
  | ⟨none, d⟩ => ⟨.absolute d, 0⟩

/-- The operand that shows a value. -/
def Value.written : Value → Operand
  | .register r => .register r
  | .immediate w => .immediate w.toInt
  | .memory ref => .memory ref.written

/-- The values among the operands of an operation. -/
def Operation.values (op : Operation) : List Value :=
  op.operands.filterMap fun
    | .value v => some v
    | .target _ => none

/-- The statement that shows an operation without a target. -/
def Operation.written (op : Operation) : Statement.Body :=
  .instruction op.opcode (op.values.map Value.written)

@[simp] theorem MemoryRef.render_written (ref : MemoryRef) : ref.written.render = ref.render := by
  obtain ⟨base, d⟩ := ref
  cases base with
  | some r => rfl
  | none =>
    have zero : renderDisplacement 0 = "" := rfl
    rw [written, MemoryOperand.render, zero, String.append_empty]
    rfl

@[simp] theorem Value.render_written (v : Value) : v.written.render = v.render := by
  cases v with
  | register | immediate => rfl
  | memory ref => exact ref.render_written

theorem Value.render_single (opcode : Opcode) (v : Value) :
    (Statement.Body.instruction opcode [v.written]).render =
      opcode.mnemonic ++ " " ++ v.render := by
  rw [← v.render_written]
  rfl

theorem Value.render_pair (opcode : Opcode) (v w : Value) :
    (Statement.Body.instruction opcode [v.written, w.written]).render =
      opcode.mnemonic ++ " " ++ v.render ++ ", " ++ w.render := by
  have shown : (Statement.Body.instruction opcode [v.written, w.written]).render =
      opcode.mnemonic ++ " " ++ (v.written.render ++ ", " ++ w.written.render) := rfl
  rw [shown, v.render_written, w.render_written]
  simp only [String.append_assoc]

/-- The line that shows an instruction without a target is the rendering of a statement. -/
theorem Instruction.render_eq {i : Instruction} (noTarget : i.operation.target? = none) :
    i.render = i.operation.written.render := by
  obtain ⟨line, op⟩ := i
  cases op with
  | mov dst src | binary _ dst src | shift _ dst src | compare _ dst src =>
    exact (Value.render_pair _ dst.toValue src).symm
  | imul dst src => exact (Value.render_pair _ (.register dst) src).symm
  | idiv src | push src => exact (Value.render_single _ src).symm
  | unary _ dst | pop dst => exact (Value.render_single _ dst.toValue).symm
  | jump | loop | call => cases noTarget
  | cqo | ret | nop | hlt => rfl

/-! ## Reading it -/

namespace Line

open Grammar

/-- A value that literals can show: every one but a reference to memory with a displacement too
large to be written. -/
def Literal (v : Value) : Prop := ∀ ref, v = .memory ref → InRange ref.displacement

/-- The integer of a word is in range. -/
theorem inRange_word (w : Word) : InRange w.toInt := by
  obtain ⟨above, below⟩ := Arithmetic.fitsSigned_toInt w
  unfold InRange
  omega

theorem inRange_zero : InRange 0 := ⟨by decide, by decide⟩

/-- A memory operand is rendered as one of the grammar. -/
theorem operandText_memory {base : MemoryBase} {text : List Char} {d : Int}
    (isBase : Base text base) (inRange : InRange d) :
    OperandText (Operand.memory ⟨base, d⟩).render.toList (.memory ⟨base, d⟩) :=
  operand_render (.memory blanks_nil isBase blanks_nil (displacement_render inRange))

/-- What a value is written as is rendered as an operand of the grammar. -/
theorem operandText_written {v : Value} (literal : Literal v) :
    OperandText v.written.render.toList v.written := by
  cases v with
  | register r => exact .register (identifier_name r) (spells_toList r.name)
  | immediate w => exact .number (number_toString (inRange_word w))
  | memory ref =>
    have inRange := literal ref rfl
    obtain ⟨base, d⟩ := ref
    cases base with
    | some r => exact operandText_memory (.register (identifier_name r) (spells_toList _)) inRange
    | none => exact operandText_memory (.number (number_toString inRange)) inRange_zero

/-- Operands that have texts have one together. -/
theorem exists_operandsText {os : List Operand} (nonempty : os ≠ [])
    (texts : ∀ o ∈ os, OperandText o.render.toList o) : ∃ cs, OperandsText cs os := by
  induction os with
  | nil => exact absurd rfl nonempty
  | cons o rest ih =>
    obtain ⟨text, texts⟩ := List.forall_mem_cons.1 texts
    cases rest with
    | nil => exact ⟨_, .single text⟩
    | cons o' more =>
      obtain ⟨cs, following⟩ := ih (List.cons_ne_nil o' more) texts
      exact ⟨_, .cons text blanks_nil blanks_nil following⟩

/-- An opcode with operands that have texts is an instruction of the grammar. -/
theorem exists_instructionText (opcode : Opcode) {os : List Operand}
    (texts : ∀ o ∈ os, OperandText o.render.toList o) :
    ∃ t, InstructionText t (.instruction opcode os) := by
  have said : Says opcode.mnemonic.toList os (.instruction opcode os) :=
    .instruction List.mem_cons_self (spells_toList opcode.mnemonic)
  by_cases nonempty : os = []
  · rw [nonempty] at said ⊢
    exact ⟨_, .bare (mnemonic_opcode opcode) said⟩
  · obtain ⟨cs, operands⟩ := exists_operandsText nonempty texts
    exact ⟨_, instruction_spaced (mnemonic_opcode opcode) operands said⟩

/-- What shows an operation says one statement. -/
theorem parse_written {op : Operation} (literals : ∀ v ∈ op.values, Literal v) (line : Nat) :
    parse op.written.render line = .ok [⟨line, op.written⟩] := by
  have texts : ∀ o ∈ op.values.map Value.written, OperandText o.render.toList o := by
    intro o mem
    obtain ⟨v, isValue, rfl⟩ := List.mem_map.1 mem
    exact operandText_written (literals v isValue)
  obtain ⟨t, text⟩ := exists_instructionText op.opcode texts
  exact parse_eq_ok.2 ⟨_, bodies_eq_ok_iff.2 (lineText_instruction text), rfl⟩

end Line

/-! ## Decoding it -/

namespace Assembly

variable {labels : Labels} {opcode : Opcode} {operand : Operand} {operands : List Operand}

/-- An address alone refers to itself. -/
theorem refersTo_absolute {d : Int} (fits : Fits64 d) (labels : Labels) :
    RefersTo labels ⟨.absolute d, 0⟩ ⟨none, d⟩ := by
  have refers : RefersTo labels ⟨.absolute d, 0⟩ ⟨none, d + 0⟩ := .absolute (by rwa [Int.add_zero])
  rwa [Int.add_zero] at refers

/-- The integer of a word denotes the word. -/
theorem denotes_word (w : Word) (labels : Labels) :
    Denotes labels (.immediate w.toInt) (.value (.immediate w)) := by
  obtain ⟨lower, upper⟩ := Arithmetic.fitsSigned_toInt w
  have denotes :
      Denotes labels (.immediate w.toInt) (.value (.immediate (BitVec.ofInt 32 w.toInt))) :=
    .immediate lower (by omega)
  rwa [BitVec.ofInt_toInt] at denotes

/-- What a reference is written as refers to it, whatever the labels. -/
theorem RefersTo.written {m : MemoryOperand} {ref : MemoryRef} (h : RefersTo labels m ref)
    (labels' : Labels) : RefersTo labels' ref.written ref := by
  cases h with
  | register fits => exact .register fits
  | absolute fits | data _ fits => exact refersTo_absolute fits labels'

/-- What shows a value stands for it whatever labels there are. -/
theorem Denotes.written {v : Value} (h : Denotes labels operand (.value v)) (labels' : Labels) :
    Denotes labels' v.written (.value v) := by
  cases h with
  | register r => exact .register r
  | immediate => exact denotes_word _ labels'
  | memory refers => exact .memory (refers.written labels')

/-- Only `SP` is shown as `SP`. -/
theorem Denotes.eq_sp_of_written {v : Value} (h : Denotes labels operand (.value v))
    (shown : v.written = .register .sp) : operand = .register .sp := by
  cases h with
  | register r => exact shown
  | immediate | memory => cases shown

/-- A value is decoded from what it is written as. -/
theorem decodeValue_written {v : Value} (h : decodeValue labels operand = .ok v)
    (labels' : Labels) :
    decodeValue labels' v.written = .ok v :=
  decodeValue_eq_ok.2 ((decodeValue_eq_ok.1 h).written labels')

/-- So is a place. -/
theorem decodePlace_written {p : Place} (h : decodePlace labels opcode operand = .ok p)
    (labels' : Labels) : decodePlace labels' opcode p.toValue.written = .ok p :=
  decodePlace_eq_ok.2 ((decodePlace_eq_ok.1 h).written labels')

/-- So is a place to write to. -/
theorem decodeWritable_written {p : Place} (h : decodeWritable labels opcode operand = .ok p)
    (labels' : Labels) : decodeWritable labels' opcode p.toValue.written = .ok p := by
  obtain ⟨place, writable⟩ := decodeWritable_eq_ok.1 h
  exact decodeWritable_eq_ok.2 ⟨place.written labels', mt place.eq_sp_of_written writable⟩

/-- What shows an operation without a target decodes to it whatever labels there are. -/
theorem Decoded.written {op : Operation} (h : Decoded labels opcode operands op)
    (noTarget : op.target? = none) (labels' : Labels) :
    Decoded labels' op.opcode (op.values.map Value.written) op := by
  cases h with
  | mov place value apart =>
    exact .mov (decodeWritable_written place labels') (decodeValue_written value labels') apart
  | binary place value apart =>
    exact .binary (decodeWritable_written place labels') (decodeValue_written value labels') apart
  -- a comparison stores nothing, so `SP` may stand first
  | compare place value apart =>
    exact .compare (decodePlace_written place labels') (decodeValue_written value labels') apart
  | imul place value =>
    exact .imul (decodeWritable_written place labels') (decodeValue_written value labels')
  | shift place value count =>
    exact .shift (decodeWritable_written place labels') (decodeValue_written value labels') count
  | unary place => exact .unary (decodeWritable_written place labels')
  | pop place => exact .pop (decodeWritable_written place labels')
  | push value => exact .push (decodeValue_written value labels')
  | idiv value => exact .idiv (decodeValue_written value labels')
  | jump | loop | call => cases noTarget
  | cqo => exact .cqo
  | ret => exact .ret
  | nop => exact .nop
  | hlt => exact .hlt

/-- The displacement of a reference has 64 bits. -/
theorem RefersTo.fits {m : MemoryOperand} {ref : MemoryRef} (h : RefersTo labels m ref) :
    Fits64 ref.displacement := by
  cases h with
  | register fits | absolute fits | data _ fits => exact fits

/-- The displacements of what operands stand for have 64 bits. -/
theorem Decoded.fits {op : Operation} (h : Decoded labels opcode operands op) {ref : MemoryRef}
    (mem : Value.memory ref ∈ op.values) : Fits64 ref.displacement := by
  obtain ⟨-, -, denoted⟩ := h.takes
  obtain ⟨d, isOperand, isValue⟩ := List.mem_filterMap.1 mem
  cases d with
  | target => cases isValue
  | value v =>
    cases isValue
    obtain ⟨k, atIndex⟩ := List.mem_iff_getElem?.1 isOperand
    obtain ⟨operand, -, stands⟩ := Result.exists_left denoted atIndex
    cases stands with
    | memory refers => exact refers.fits

end Assembly

namespace Program

open Assembly

/-- Every instruction of an assembled program that names no target and has no reference to memory
with the least displacement assembles to itself: the line that shows it says one instruction, which
decodes to the very same one, under any labels and after any data. -/
theorem shown_reassembles {source : Source} {p : Program} (assembled : assemble source = .ok p)
    {index : Nat} {i : Instruction} (fetched : p.fetch? index = some i)
    (noTarget : i.operation.target? = none)
    (least : ∀ ref, Value.memory ref ∈ i.operation.values →
      ref.displacement ≠ -0x8000000000000000) :
    ∃ operands, Line.parse i.render i.line = .ok [⟨i.line, .instruction i.opcode operands⟩] ∧
      ∀ labels count,
        decodeFrom labels count [⟨i.line, .instruction i.opcode operands⟩] = .ok ([i], []) := by
  obtain ⟨statements, -, resolves⟩ := resolves_of_assemble assembled
  obtain ⟨opcode, operands, decoded⟩ := resolves.decoded fetched
  have literals : ∀ v ∈ i.operation.values, Line.Literal v := by
    rintro v mem ref rfl
    obtain ⟨lower, upper⟩ := decoded.fits mem
    have ne := least ref mem
    exact ⟨by omega, upper⟩
  refine ⟨i.operation.values.map Value.written, ?_, fun labels count => ?_⟩
  · rw [Instruction.render_eq noTarget]
    exact Line.parse_written literals i.line
  · have again := decode_of_decoded (decoded.written noTarget labels)
    exact Result.bind_eq_ok.2 ⟨i.operation, Result.mapError_eq_ok.2 again, rfl⟩

/-- A label with a displacement is shown as an address, here a negative one, and an unsigned
immediate as a signed one. -/
theorem shown_reassembles_address :
    ∃ p i, assemble (.ofText "x: dw 7\nmov [x - 1], 0xFFFFFFFF") = .ok p ∧ p.fetch? 0 = some i ∧
      i.operation.target? = none ∧ i.render = "MOV [-1], -1" ∧
      ∃ operands, Line.parse "MOV [-1], -1" 2 = .ok [⟨2, .instruction .mov operands⟩] ∧
        ∀ labels count,
          decodeFrom labels count [⟨2, .instruction .mov operands⟩] = .ok ([i], []) := by
  let i : Instruction := ⟨2, .mov (.memory ⟨none, -1⟩) (.immediate 0xFFFFFFFF)⟩
  let p : Program :=
    { instructions := #[i]
      labels := ⟨[("x", .data 0)]⟩
      data := [⟨0, 0x7, 1⟩] }
  have assembled : assemble (.ofText "x: dw 7\nmov [x - 1], 0xFFFFFFFF") = .ok p := by
    decide +kernel
  have fetched : p.fetch? 0 = some i := rfl
  have least : ∀ ref, Value.memory ref ∈ i.operation.values →
      ref.displacement ≠ -0x8000000000000000 := by
    intro ref mem
    have values : i.operation.values = [.memory ⟨none, -1⟩, .immediate 0xFFFFFFFF] := rfl
    rw [values, List.mem_pair] at mem
    obtain mem | mem := mem
    · cases mem
      decide
    · cases mem
  have shown : i.render = "MOV [-1], -1" := by decide +kernel
  obtain ⟨operands, parsed, decoded⟩ := shown_reassembles assembled fetched rfl least
  rw [shown] at parsed
  exact ⟨p, i, assembled, fetched, rfl, shown, operands, parsed, decoded⟩

end Program

end AsmTrace

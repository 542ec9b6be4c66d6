import AsmTrace.Proofs.Decoding

/-!
# Operand shapes

What operands stand for, and which of them an opcode takes, said without decoding any. Decoding
succeeds on exactly the operands that an opcode takes and gives the operation of that opcode with
what they stand for (`decode_takes_exactly`).
-/

namespace AsmTrace

/-- What an operand of an operation can be. -/
inductive Denotation where
  | value (v : Value)
  /-- The index of an instruction. -/
  | target (index : Nat)
  deriving DecidableEq, Repr

/-- The operands of an operation in the order in which they are written. -/
def Operation.operands : Operation → List Denotation
  | .mov dst src | .binary _ dst src | .shift _ dst src | .compare _ dst src =>
    [.value dst.toValue, .value src]
  | .imul dst src => [.value (.register dst), .value src]
  | .idiv src | .push src => [.value src]
  | .unary _ dst | .pop dst => [.value dst.toValue]
  | .jump _ target | .loop target | .call target => [.target target]
  | .cqo | .ret | .nop | .hlt => []

namespace Assembly

open Result

variable {labels : Labels} {opcode : Opcode} {operand : Operand} {operands : List Operand}
  {op : Operation}

/-! ## What operands stand for -/

/-- A memory operand resolves if it starts from a register, a number or a data label, and the number
or the address with the displacement added has 64 bits. -/
inductive RefersTo (labels : Labels) : MemoryOperand → MemoryRef → Prop
  | register {r : Register} {d : Int} (fits : Fits64 d) :
      RefersTo labels ⟨.register r, d⟩ ⟨some r, d⟩
  | absolute {address d : Int} (fits : Fits64 (address + d)) :
      RefersTo labels ⟨.absolute address, d⟩ ⟨none, address + d⟩
  | data {name : String} {address : Nat} {d : Int}
      (found : labels.find? name = some (.data address)) (fits : Fits64 (address + d)) :
      RefersTo labels ⟨.symbol name, d⟩ ⟨none, address + d⟩

/-- What an operand stands for. An immediate is the word with the same last 32 bits. -/
inductive Denotes (labels : Labels) : Operand → Denotation → Prop
  | register (r : Register) : Denotes labels (.register r) (.value (.register r))
  | immediate {n : Int} (lower : -0x80000000 ≤ n) (upper : n ≤ 0xffffffff) :
      Denotes labels (.immediate n) (.value (.immediate (BitVec.ofInt 32 n)))
  | memory {m : MemoryOperand} {ref : MemoryRef} (refers : RefersTo labels m ref) :
      Denotes labels (.memory m) (.value (.memory ref))
  | label {name : String} {index : Nat} (found : labels.find? name = some (.code index)) :
      Denotes labels (.symbol name) (.target index)

/-- A register, an immediate that fits in a word or a memory operand that resolves. -/
def IsSource (labels : Labels) (operand : Operand) : Prop := ∃ v, Denotes labels operand (.value v)

/-- A register or a memory operand that resolves. -/
def IsPlace (labels : Labels) (operand : Operand) : Prop :=
  ∃ p : Place, Denotes labels operand (.value p.toValue)

/-- A place that may be written to. -/
def IsWritable (labels : Labels) (operand : Operand) : Prop :=
  IsPlace labels operand ∧ operand ≠ .register .sp

/-- A code label. -/
def IsTarget (labels : Labels) (operand : Operand) : Prop :=
  ∃ index, Denotes labels operand (.target index)

def IsMemory (operand : Operand) : Prop := ∃ m, operand = .memory m

/-- The operands that an opcode takes. -/
def Takes (labels : Labels) : Opcode → List Operand → Prop
  | .mov, [dst, src] | .binary _, [dst, src] =>
    IsWritable labels dst ∧ IsSource labels src ∧ ¬ (IsMemory dst ∧ IsMemory src)
  | .imul, [dst, src] => (∃ r, dst = .register r ∧ r ≠ .sp) ∧ IsSource labels src
  | .shift _, [dst, count] => IsWritable labels dst ∧ IsSource labels count ∧ ¬ IsMemory count
  | .compare _, [lhs, rhs] =>
    IsPlace labels lhs ∧ IsSource labels rhs ∧ ¬ (IsMemory lhs ∧ IsMemory rhs)
  | .unary _, [dst] | .pop, [dst] => IsWritable labels dst
  | .idiv, [src] | .push, [src] => IsSource labels src
  | .jump _, [target] | .loop, [target] | .call, [target] => IsTarget labels target
  | .cqo, [] | .ret, [] | .nop, [] | .hlt, [] => True
  | _, _ => False

/-! ## Decoding one operand -/

/-- A memory operand is decoded exactly as what it refers to. -/
theorem decodeMemory_eq_ok {m : MemoryOperand} {ref : MemoryRef} :
    decodeMemory labels m = .ok ref ↔ RefersTo labels m ref := by
  constructor
  · intro h
    obtain ⟨⟨base, address⟩, resolved, h⟩ := bind_eq_ok.1 h
    dsimp only at h
    split at h
    · next fits =>
      cases h
      obtain ⟨start, d⟩ := m
      cases start with
      | register r =>
        cases resolved
        rw [Int.zero_add] at fits ⊢
        exact .register fits
      | absolute address =>
        cases resolved
        exact .absolute fits
      | symbol name =>
        simp only [decodeBase] at resolved
        split at resolved
        · next address found =>
          cases resolved
          exact .data found fits
        · cases resolved
        · cases resolved
    · cases h
  · intro h
    cases h with
    | register fits =>
      refine bind_eq_ok.2 ⟨(some _, 0), rfl, ?_⟩
      simp only [Int.zero_add, if_pos fits]
      rfl
    | absolute fits =>
      refine bind_eq_ok.2 ⟨(none, _), rfl, ?_⟩
      simp only [if_pos fits]
      rfl
    | data found fits =>
      refine bind_eq_ok.2 ⟨(none, _), by simp only [decodeBase, found]; rfl, ?_⟩
      simp only [if_pos fits]
      rfl

/-- A value is decoded exactly as what it denotes. -/
theorem decodeValue_eq_ok {v : Value} :
    decodeValue labels operand = .ok v ↔ Denotes labels operand (.value v) := by
  constructor
  · intro h
    cases operand with
    | register r =>
      cases h
      exact .register r
    | immediate n =>
      obtain ⟨w, decoded, rfl⟩ := map_eq_ok.1 h
      obtain ⟨⟨lower, upper⟩, rfl⟩ :=
        Word.ofLiteral?_eq_some_iff.1 (Program.decodeImmediate_eq_ok.1 decoded)
      exact .immediate lower (by omega)
    | memory m =>
      obtain ⟨ref, decoded, rfl⟩ := map_eq_ok.1 h
      exact .memory (decodeMemory_eq_ok.1 decoded)
    | symbol name => cases h
  · intro h
    cases h with
    | register r => rfl
    | immediate lower upper =>
      refine map_eq_ok.2 ⟨_, Program.decodeImmediate_eq_ok.2 ?_, rfl⟩
      exact Word.ofLiteral?_eq_some_iff.2 ⟨⟨lower, by omega⟩, rfl⟩
    | memory refers => exact map_eq_ok.2 ⟨_, decodeMemory_eq_ok.2 refers, rfl⟩

/-- A place is decoded exactly as what it denotes. -/
theorem decodePlace_eq_ok {p : Place} :
    decodePlace labels opcode operand = .ok p ↔ Denotes labels operand (.value p.toValue) := by
  constructor
  · intro h
    cases operand with
    | register r =>
      cases h
      exact .register r
    | immediate n => cases h
    | memory m =>
      obtain ⟨ref, decoded, rfl⟩ := map_eq_ok.1 h
      exact .memory (decodeMemory_eq_ok.1 decoded)
    | symbol name => cases h
  · intro h
    cases p with
    | register r =>
      cases h
      rfl
    | memory ref =>
      cases h with
      | memory refers => exact map_eq_ok.2 ⟨ref, decodeMemory_eq_ok.2 refers, rfl⟩

/-- A place to write to likewise, unless it is `SP`. -/
theorem decodeWritable_eq_ok {p : Place} :
    decodeWritable labels opcode operand = .ok p ↔
      Denotes labels operand (.value p.toValue) ∧ operand ≠ .register .sp := by
  unfold decodeWritable
  split
  · simp
  · next other =>
    rw [decodePlace_eq_ok]
    exact ⟨fun h => ⟨h, other⟩, And.left⟩

/-- A target is decoded exactly as what it denotes. -/
theorem decodeTarget_eq_ok {index : Nat} :
    decodeTarget labels opcode operand = .ok index ↔ Denotes labels operand (.target index) := by
  constructor
  · intro h
    unfold decodeTarget at h
    split at h
    · split at h
      · next found =>
        cases h
        exact .label found
      · cases h
      · cases h
    · cases h
  · intro h
    cases h with
    | label found => simp only [decodeTarget, found]

/-! ## Decoding an instruction -/

/-- What an operand denotes is in memory exactly if the operand is. -/
theorem Denotes.isMemory_iff {v : Value} (h : Denotes labels operand (.value v)) :
    v.isMemory = true ↔ IsMemory operand := by
  cases h with
  | register r => simp [Value.isMemory, IsMemory]
  | immediate lower upper => simp [Value.isMemory, IsMemory]
  | memory refers => simp [Value.isMemory, IsMemory]

@[simp] theorem isMemory_toValue (p : Place) : p.toValue.isMemory = p.isMemory := by
  cases p <;> rfl

/-- Whether two operands are both in memory can be told before they are decoded. -/
theorem apart_iff {dst src : Operand} {d : Place} {s : Value}
    (place : Denotes labels dst (.value d.toValue)) (value : Denotes labels src (.value s)) :
    ¬ (d.isMemory ∧ s.isMemory) ↔ ¬ (IsMemory dst ∧ IsMemory src) := by
  rw [← isMemory_toValue, place.isMemory_iff, value.isMemory_iff]

/-- Decoded operands are taken and stand for what the operation has. -/
theorem Decoded.takes (h : Decoded labels opcode operands op) :
    Takes labels opcode operands ∧ op.opcode = opcode ∧
      List.Forall₂ (Denotes labels) operands op.operands := by
  cases h with
  | mov place value apart | binary place value apart =>
    obtain ⟨place, writable⟩ := decodeWritable_eq_ok.1 place
    have value := decodeValue_eq_ok.1 value
    exact ⟨⟨⟨⟨_, place⟩, writable⟩, ⟨_, value⟩, (apart_iff place value).1 apart⟩, rfl,
      .cons place (.cons value .nil)⟩
  | compare place value apart =>
    have place := decodePlace_eq_ok.1 place
    have value := decodeValue_eq_ok.1 value
    exact ⟨⟨⟨_, place⟩, ⟨_, value⟩, (apart_iff place value).1 apart⟩, rfl,
      .cons place (.cons value .nil)⟩
  | @imul dst src r s place value =>
    obtain ⟨place, writable⟩ := decodeWritable_eq_ok.1 place
    have value := decodeValue_eq_ok.1 value
    have register : dst = .register r := by
      cases place
      rfl
    refine ⟨⟨⟨r, register, ?_⟩, ⟨_, value⟩⟩, rfl, .cons place (.cons value .nil)⟩
    rintro rfl
    exact writable register
  | shift place value count =>
    obtain ⟨place, writable⟩ := decodeWritable_eq_ok.1 place
    have value := decodeValue_eq_ok.1 value
    exact ⟨⟨⟨⟨_, place⟩, writable⟩, ⟨_, value⟩, mt value.isMemory_iff.2 count⟩, rfl,
      .cons place (.cons value .nil)⟩
  | unary place | pop place =>
    obtain ⟨place, writable⟩ := decodeWritable_eq_ok.1 place
    exact ⟨⟨⟨_, place⟩, writable⟩, rfl, .cons place .nil⟩
  | push value | idiv value =>
    have value := decodeValue_eq_ok.1 value
    exact ⟨⟨_, value⟩, rfl, .cons value .nil⟩
  | jump target | loop target | call target =>
    have target := decodeTarget_eq_ok.1 target
    exact ⟨⟨_, target⟩, rfl, .cons target .nil⟩
  | cqo | ret | nop | hlt => exact ⟨trivial, rfl, .nil⟩

/-- Operands that are taken decode to any operation that has what they stand for. -/
theorem decoded_of_takes (takes : Takes labels op.opcode operands)
    (denoted : List.Forall₂ (Denotes labels) operands op.operands) :
    Decoded labels op.opcode operands op := by
  cases op with
  | mov d s | binary kind d s =>
    obtain _ | ⟨place, _ | ⟨value, _ | _⟩⟩ := denoted
    obtain ⟨⟨-, writable⟩, -, apart⟩ := takes
    constructor
    · exact decodeWritable_eq_ok.2 ⟨place, writable⟩
    · exact decodeValue_eq_ok.2 value
    · exact (apart_iff place value).2 apart
  | compare kind l r =>
    obtain _ | ⟨place, _ | ⟨value, _ | _⟩⟩ := denoted
    obtain ⟨-, -, apart⟩ := takes
    constructor
    · exact decodePlace_eq_ok.2 place
    · exact decodeValue_eq_ok.2 value
    · exact (apart_iff place value).2 apart
  | imul r s =>
    obtain _ | ⟨place, _ | ⟨value, _ | _⟩⟩ := denoted
    obtain ⟨⟨r', rfl, ne⟩, -⟩ := takes
    constructor
    · refine decodeWritable_eq_ok.2 ⟨place, ?_⟩
      rintro ⟨⟩
      exact ne rfl
    · exact decodeValue_eq_ok.2 value
  | shift kind d s =>
    obtain _ | ⟨place, _ | ⟨value, _ | _⟩⟩ := denoted
    obtain ⟨⟨-, writable⟩, -, count⟩ := takes
    constructor
    · exact decodeWritable_eq_ok.2 ⟨place, writable⟩
    · exact decodeValue_eq_ok.2 value
    · exact mt value.isMemory_iff.1 count
  | unary kind d | pop d =>
    obtain _ | ⟨place, _ | _⟩ := denoted
    constructor
    exact decodeWritable_eq_ok.2 ⟨place, takes.2⟩
  | push s | idiv s =>
    obtain _ | ⟨value, _ | _⟩ := denoted
    constructor
    exact decodeValue_eq_ok.2 value
  | jump condition index | loop index | call index =>
    obtain _ | ⟨target, _ | _⟩ := denoted
    constructor
    exact decodeTarget_eq_ok.2 target
  | cqo | ret | nop | hlt =>
    cases denoted
    constructor

/-- Operands that are taken stand for something. -/
theorem exists_denoted (takes : Takes labels opcode operands) :
    ∃ op : Operation, op.opcode = opcode ∧ List.Forall₂ (Denotes labels) operands op.operands := by
  unfold Takes at takes
  split at takes
  · obtain ⟨⟨⟨d, place⟩, -⟩, ⟨s, value⟩, -⟩ := takes
    exact ⟨.mov d s, rfl, .cons place (.cons value .nil)⟩
  · next kind dst src =>
    obtain ⟨⟨⟨d, place⟩, -⟩, ⟨s, value⟩, -⟩ := takes
    exact ⟨.binary kind d s, rfl, .cons place (.cons value .nil)⟩
  · obtain ⟨⟨r, rfl, -⟩, ⟨s, value⟩⟩ := takes
    exact ⟨.imul r s, rfl, .cons (.register r) (.cons value .nil)⟩
  · next kind dst count =>
    obtain ⟨⟨⟨d, place⟩, -⟩, ⟨s, value⟩, -⟩ := takes
    exact ⟨.shift kind d s, rfl, .cons place (.cons value .nil)⟩
  · next kind lhs rhs =>
    obtain ⟨⟨d, place⟩, ⟨s, value⟩, -⟩ := takes
    exact ⟨.compare kind d s, rfl, .cons place (.cons value .nil)⟩
  · next kind dst =>
    obtain ⟨⟨d, place⟩, -⟩ := takes
    exact ⟨.unary kind d, rfl, .cons place .nil⟩
  · obtain ⟨⟨d, place⟩, -⟩ := takes
    exact ⟨.pop d, rfl, .cons place .nil⟩
  · obtain ⟨s, value⟩ := takes
    exact ⟨.idiv s, rfl, .cons value .nil⟩
  · obtain ⟨s, value⟩ := takes
    exact ⟨.push s, rfl, .cons value .nil⟩
  · next condition operand =>
    obtain ⟨index, target⟩ := takes
    exact ⟨.jump condition index, rfl, .cons target .nil⟩
  · obtain ⟨index, target⟩ := takes
    exact ⟨.loop index, rfl, .cons target .nil⟩
  · obtain ⟨index, target⟩ := takes
    exact ⟨.call index, rfl, .cons target .nil⟩
  · exact ⟨.cqo, rfl, .nil⟩
  · exact ⟨.ret, rfl, .nil⟩
  · exact ⟨.nop, rfl, .nil⟩
  · exact ⟨.hlt, rfl, .nil⟩
  · cases takes

@[simp] theorem length_operands (op : Operation) : op.operands.length = op.opcode.arity := by
  cases op <;> rfl

/-- An instruction is decoded exactly if its opcode takes the operands, and as what they denote. -/
theorem decode_eq_ok : decode labels opcode operands = .ok op ↔
    Takes labels opcode operands ∧ op.opcode = opcode ∧
      List.Forall₂ (Denotes labels) operands op.operands := by
  constructor
  · intro decoded
    exact (decoded_of_decode decoded).takes
  · rintro ⟨takes, rfl, denoted⟩
    exact decode_of_decoded (decoded_of_takes takes denoted)

/-- Decoding succeeds if and only if the operands are as many as the opcode has and of the shapes
that it takes. It gives the operation of that opcode whose operands are what the written ones stand
for, and the instruction has the line of its statement. -/
theorem decode_takes_exactly (labels : Labels) (opcode : Opcode) (operands : List Operand)
    (line count : Nat) :
    ((∃ op, decode labels opcode operands = .ok op) ↔
      operands.length = opcode.arity ∧ Takes labels opcode operands) ∧
    (∀ op, decode labels opcode operands = .ok op ↔
      Takes labels opcode operands ∧ op.opcode = opcode ∧
        List.Forall₂ (Denotes labels) operands op.operands) ∧
    ∀ i, Program.decodeFrom labels count [⟨line, .instruction opcode operands⟩] = .ok ([i], []) ↔
      decode labels opcode operands = .ok i.operation ∧ i.line = line := by
  refine ⟨⟨?_, ?_⟩, fun op => decode_eq_ok, ?_⟩
  · rintro ⟨op, decoded⟩
    obtain ⟨takes, rfl, denoted⟩ := decode_eq_ok.1 decoded
    exact ⟨denoted.length_eq.trans (length_operands op), takes⟩
  · rintro ⟨-, takes⟩
    obtain ⟨op, rfl, denoted⟩ := exists_denoted takes
    exact ⟨op, decode_eq_ok.2 ⟨takes, rfl, denoted⟩⟩
  · intro i
    rw [Program.decodeFrom, bind_eq_ok]
    constructor
    · rintro ⟨op, decoded, h⟩
      cases h
      exact ⟨mapError_eq_ok.1 decoded, rfl⟩
    · rintro ⟨decoded, rfl⟩
      exact ⟨i.operation, mapError_eq_ok.2 decoded, rfl⟩

end Assembly

end AsmTrace

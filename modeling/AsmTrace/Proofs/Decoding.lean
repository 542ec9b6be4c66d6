import AsmTrace.Program
import AsmTrace.Proofs.Results

/-!
# Decoding

What an opcode and its operands decode to, and what the statements of a source text do: the
instructions of a program are its instruction statements, decoded one by one and in order; its data
words are the values of its data statements, at ascending addresses.
-/

namespace AsmTrace

/-! ## Operations -/

namespace Assembly

open Result

/-- `Decoded labels opcode operands op` holds when `op` is the operation of an opcode with operands
of the shapes that the opcode accepts. -/
inductive Decoded (labels : Labels) : Opcode → List Operand → Operation → Prop
  | mov {dst src d s} (place : decodeWritable labels .mov dst = .ok d)
      (value : decodeValue labels src = .ok s) (apart : ¬ (d.isMemory ∧ s.isMemory)) :
      Decoded labels .mov [dst, src] (.mov d s)
  | binary {kind dst src d s} (place : decodeWritable labels (.binary kind) dst = .ok d)
      (value : decodeValue labels src = .ok s) (apart : ¬ (d.isMemory ∧ s.isMemory)) :
      Decoded labels (.binary kind) [dst, src] (.binary kind d s)
  | compare {kind lhs rhs l r} (place : decodePlace labels (.compare kind) lhs = .ok l)
      (value : decodeValue labels rhs = .ok r) (apart : ¬ (l.isMemory ∧ r.isMemory)) :
      Decoded labels (.compare kind) [lhs, rhs] (.compare kind l r)
  | imul {dst src r s} (place : decodeWritable labels .imul dst = .ok (.register r))
      (value : decodeValue labels src = .ok s) : Decoded labels .imul [dst, src] (.imul r s)
  | shift {kind dst src d s} (place : decodeWritable labels (.shift kind) dst = .ok d)
      (value : decodeValue labels src = .ok s) (count : ¬ s.isMemory) :
      Decoded labels (.shift kind) [dst, src] (.shift kind d s)
  | unary {kind dst d} (place : decodeWritable labels (.unary kind) dst = .ok d) :
      Decoded labels (.unary kind) [dst] (.unary kind d)
  | pop {dst d} (place : decodeWritable labels .pop dst = .ok d) :
      Decoded labels .pop [dst] (.pop d)
  | push {src s} (value : decodeValue labels src = .ok s) : Decoded labels .push [src] (.push s)
  | idiv {src s} (value : decodeValue labels src = .ok s) : Decoded labels .idiv [src] (.idiv s)
  | jump {condition operand index}
      (target : decodeTarget labels (.jump condition) operand = .ok index) :
      Decoded labels (.jump condition) [operand] (.jump condition index)
  | loop {operand index} (target : decodeTarget labels .loop operand = .ok index) :
      Decoded labels .loop [operand] (.loop index)
  | call {operand index} (target : decodeTarget labels .call operand = .ok index) :
      Decoded labels .call [operand] (.call index)
  | cqo : Decoded labels .cqo [] .cqo
  | ret : Decoded labels .ret [] .ret
  | nop : Decoded labels .nop [] .nop
  | hlt : Decoded labels .hlt [] .hlt

variable {labels : Labels} {opcode : Opcode} {operands : List Operand} {op : Operation}

/-- Two operands that are decoded: each by itself, and not both in memory. -/
theorem of_decodePair {place : Except Cause Place} {src : Operand} {d : Place} {s : Value}
    (h : decodePair labels opcode place src = .ok (d, s)) :
    place = .ok d ∧ decodeValue labels src = .ok s ∧ ¬ (d.isMemory ∧ s.isMemory) := by
  obtain ⟨d', hd, h⟩ := bind_eq_ok.1 h
  obtain ⟨s', hs, h⟩ := bind_eq_ok.1 h
  split at h
  · cases h
  · next apart =>
    cases h
    exact ⟨hd, hs, by simpa using apart⟩

/-- What is decoded has the shape of its opcode. -/
theorem decoded_of_decode (h : decode labels opcode operands = .ok op) :
    Decoded labels opcode operands op := by
  unfold decode at h
  split at h
  · obtain ⟨⟨d, s⟩, pair, rfl⟩ := map_eq_ok.1 h
    obtain ⟨place, value, apart⟩ := of_decodePair pair
    exact .mov place value apart
  · obtain ⟨⟨d, s⟩, pair, rfl⟩ := map_eq_ok.1 h
    obtain ⟨place, value, apart⟩ := of_decodePair pair
    exact .binary place value apart
  · obtain ⟨⟨l, r⟩, pair, rfl⟩ := map_eq_ok.1 h
    obtain ⟨place, value, apart⟩ := of_decodePair pair
    exact .compare place value apart
  -- multiplication, which has no memory to store to
  · obtain ⟨p, place, h⟩ := bind_eq_ok.1 h
    cases p with
    | memory ref => cases h
    | register r =>
      obtain ⟨v, value, h⟩ := bind_eq_ok.1 h
      cases h
      exact .imul place value
  -- shifts, which have no count in memory
  · obtain ⟨p, place, h⟩ := bind_eq_ok.1 h
    obtain ⟨v, value, h⟩ := bind_eq_ok.1 h
    split at h
    · cases h
    · next count =>
      cases h
      exact .shift place value count
  -- one operand
  · obtain ⟨d, place, rfl⟩ := map_eq_ok.1 h
    exact .unary place
  · obtain ⟨d, place, rfl⟩ := map_eq_ok.1 h
    exact .pop place
  · obtain ⟨s, value, rfl⟩ := map_eq_ok.1 h
    exact .push value
  · obtain ⟨s, value, rfl⟩ := map_eq_ok.1 h
    exact .idiv value
  · obtain ⟨index, target, rfl⟩ := map_eq_ok.1 h
    exact .jump target
  · obtain ⟨index, target, rfl⟩ := map_eq_ok.1 h
    exact .loop target
  · obtain ⟨index, target, rfl⟩ := map_eq_ok.1 h
    exact .call target
  -- no operand
  · cases h
    exact .cqo
  · cases h
    exact .ret
  · cases h
    exact .nop
  · cases h
    exact .hlt
  · cases h

/-- Two operands are decoded if each is and they are not both in memory. -/
theorem decodePair_of_ok {place : Except Cause Place} {src : Operand} {d : Place} {s : Value}
    (decoded : place = .ok d) (value : decodeValue labels src = .ok s)
    (apart : ¬ (d.isMemory ∧ s.isMemory)) : decodePair labels opcode place src = .ok (d, s) := by
  have apart : ¬ (d.isMemory && s.isMemory) = true := by simpa using apart
  refine bind_eq_ok.2 ⟨d, decoded, bind_eq_ok.2 ⟨s, value, ?_⟩⟩
  rw [if_neg apart]
  rfl

/-- Every shape of an opcode is decoded. -/
theorem decode_of_decoded (h : Decoded labels opcode operands op) :
    decode labels opcode operands = .ok op := by
  cases h with
  | mov place value apart | binary place value apart | compare place value apart =>
    exact map_eq_ok.2 ⟨_, decodePair_of_ok place value apart, rfl⟩
  | imul place value => exact bind_eq_ok.2 ⟨_, place, bind_eq_ok.2 ⟨_, value, rfl⟩⟩
  | shift place value count =>
    refine bind_eq_ok.2 ⟨_, place, bind_eq_ok.2 ⟨_, value, ?_⟩⟩
    rw [if_neg count]
    rfl
  | unary place | pop place => exact map_eq_ok.2 ⟨_, place, rfl⟩
  | push value | idiv value => exact map_eq_ok.2 ⟨_, value, rfl⟩
  | jump target | loop target | call target => exact map_eq_ok.2 ⟨_, target, rfl⟩
  | cqo | ret | nop | hlt => rfl

end Assembly

/-! ## Statements -/

namespace Statement

def isInstruction (s : Statement) : Bool :=
  match s.body with
  | .instruction .. => true
  | _ => false

/-- The values of a data statement, each with the line of the statement. -/
def items (s : Statement) : List (Nat × Int) :=
  match s.body with
  | .data values => values.map fun n => (s.line, n)
  | _ => []

/-- The name that a label statement defines. -/
def labelName? (s : Statement) : Option String :=
  match s.body with
  | .label name => some name
  | _ => none

@[simp] theorem length_items_data (line : Nat) (values : List Int) :
    (items ⟨line, .data values⟩).length = values.length := by
  simp [items]

end Statement

namespace Program

open Assembly Result

/-- How many instruction statements there are. -/
def instructionCount (statements : List Statement) : Nat :=
  (statements.filter Statement.isInstruction).length

/-- How many data words there are. -/
def wordCount (statements : List Statement) : Nat := (statements.flatMap Statement.items).length

/-- A statement decodes to an instruction on its own line. -/
def Decodes (labels : Labels) (s : Statement) (i : Instruction) : Prop :=
  ∃ opcode operands, s.body = .instruction opcode operands ∧
    decode labels opcode operands = .ok i.operation ∧ i.line = s.line

/-- A value of a data statement and the word that holds it. -/
def Holds (item : Nat × Int) (word : DataWord) : Prop :=
  Word.ofLiteral? item.2 = some word.value ∧ word.line = item.1

/-- An immediate is decoded if it fits a word, as that word. -/
theorem decodeImmediate_eq_ok {n : Int} {w : Word} :
    decodeImmediate n = .ok w ↔ Word.ofLiteral? n = some w := by
  unfold decodeImmediate
  cases Word.ofLiteral? n <;> simp

/-- Words are laid out one by one at ascending addresses. -/
theorem layOut_spec {line count : Nat} {values : List Int} {words : List DataWord}
    (h : layOut line count values = .ok words) :
    List.Forall₂ Holds (values.map fun n => (line, n)) words ∧
      ∀ (k : Nat) (word : DataWord), words[k]? = some word →
        word.address = (count + k) % 0x100000000 := by
  induction values generalizing count words with
  | nil =>
    cases h
    exact ⟨.nil, by simp⟩
  | cons n rest ih =>
    obtain ⟨w, hw, h⟩ := bind_eq_ok.1 h
    obtain ⟨words', hr, h⟩ := bind_eq_ok.1 h
    cases h
    obtain ⟨holds, addresses⟩ := ih hr
    refine ⟨.cons ⟨decodeImmediate_eq_ok.1 hw, rfl⟩ holds, ?_⟩
    intro k word hk
    cases k with
    | zero =>
      cases hk
      rfl
    | succ k =>
      rw [addresses k word hk]
      congr 1
      omega

/-- What decoding gives, after `count` data words. -/
theorem decodeFrom_spec {labels : Labels} {count : Nat} {statements : List Statement}
    {instructions : List Instruction} {data : List DataWord}
    (h : decodeFrom labels count statements = .ok (instructions, data)) :
    List.Forall₂ (Decodes labels) (statements.filter Statement.isInstruction) instructions ∧
      List.Forall₂ Holds (statements.flatMap Statement.items) data ∧
      ∀ (k : Nat) (word : DataWord), data[k]? = some word →
        word.address = (count + k) % 0x100000000 := by
  induction statements generalizing count instructions data with
  | nil =>
    cases h
    exact ⟨.nil, .nil, by simp⟩
  | cons s rest ih =>
    obtain ⟨line, body⟩ := s
    cases body with
    | label name => exact ih h
    | data values =>
      obtain ⟨words, hw, h⟩ := bind_eq_ok.1 h
      obtain ⟨⟨instructions', data'⟩, hr, h⟩ := bind_eq_ok.1 h
      cases h
      obtain ⟨decoded, held, addresses⟩ := ih hr
      obtain ⟨held', addresses'⟩ := layOut_spec (mapError_eq_ok.1 hw)
      refine ⟨decoded, List.rel_append held' held, ?_⟩
      intro k word hk
      have length : words.length = values.length := by simpa using held'.length_eq.symm
      rcases Nat.lt_or_ge k words.length with lt | ge
      · rw [List.getElem?_append_left lt] at hk
        exact addresses' k word hk
      · rw [List.getElem?_append_right ge] at hk
        rw [addresses _ word hk]
        congr 1
        omega
    | instruction opcode operands =>
      obtain ⟨operation, ho, h⟩ := bind_eq_ok.1 h
      obtain ⟨⟨instructions', data'⟩, hr, h⟩ := bind_eq_ok.1 h
      cases h
      obtain ⟨decoded, held, addresses⟩ := ih hr
      exact ⟨.cons ⟨opcode, operands, rfl, mapError_eq_ok.1 ho, rfl⟩ decoded, held, addresses⟩

/-- `Resolves statements p` says what the program that some statements make up consists of. -/
structure Resolves (statements : List Statement) (p : Program) : Prop where
  labels : Labels.collect statements = .ok p.labels
  instructions : List.Forall₂ (Decodes p.labels) (statements.filter Statement.isInstruction)
    p.instructions.toList
  data : List.Forall₂ Holds (statements.flatMap Statement.items) p.data
  addresses : ∀ (k : Nat) (word : DataWord), p.data[k]? = some word →
    word.address = k % 0x100000000
  nonempty : p.instructions.toList ≠ []

/-- A program that is built from statements resolves them. -/
theorem resolves_of_ofStatements {statements : List Statement} {p : Program}
    (h : ofStatements statements = .ok p) : Resolves statements p := by
  obtain ⟨labels, hl, h⟩ := bind_eq_ok.1 h
  obtain ⟨⟨instructions, data⟩, hd, h⟩ := bind_eq_ok.1 h
  obtain ⟨decoded, held, addresses⟩ := decodeFrom_spec hd
  dsimp only at h
  split at h
  · cases h
  · next nonempty =>
    cases h
    exact ⟨hl, decoded, held, fun k word hk => by simpa using addresses k word hk,
      by simpa using nonempty⟩

/-- Every instruction of a program is the decoding of an opcode with operands. -/
theorem Resolves.decoded {statements : List Statement} {p : Program} (r : Resolves statements p)
    {index : Nat} {i : Instruction} (fetched : p.fetch? index = some i) :
    ∃ opcode operands, Decoded p.labels opcode operands i.operation := by
  have fetched : p.instructions.toList[index]? = some i := by
    rwa [Array.getElem?_toList]
  obtain ⟨s, -, opcode, operands, -, decoded, -⟩ := exists_left r.instructions fetched
  exact ⟨opcode, operands, decoded_of_decode decoded⟩

/-- A program that is assembled resolves the statements of its source. -/
theorem resolves_of_assemble {source : Source} {p : Program} (h : assemble source = .ok p) :
    ∃ statements, parse source = .ok statements ∧ Resolves statements p := by
  obtain ⟨statements, parsed, h⟩ := bind_eq_ok.1 h
  exact ⟨statements, parsed, resolves_of_ofStatements h⟩

end Program

end AsmTrace

import AsmTrace.Line.Statements
import AsmTrace.Proofs.Literals
import AsmTrace.Proofs.Results

/-!
# Operands and the grammar

The operands of a line are read as the grammar says. A text between two commas is an operand with
blanks around it, and since no operand has a comma in it, cutting the text at its commas gives the
operands (`padded_operands_iff`).
-/

namespace AsmTrace

/-- Of things that are all listed and of which one at most is looked for, that one is found. -/
theorem find?_eq_some_iff_of_unique {α : Type} {p : α → Bool} {l : List α} (listed : ∀ a, a ∈ l)
    (unique : ∀ a b, p a = true → p b = true → a = b) {a : α} :
    l.find? p = some a ↔ p a = true := by
  constructor
  · exact List.find?_some
  · intro h
    cases found : l.find? p with
    | none => exact absurd h (List.find?_eq_none.1 found a (listed a))
    | some b => rw [unique a b h (List.find?_some found)]

namespace Line

open Grammar Result
open Assembly (Cause)

/-! ## Names -/

/-- Names are compared without regard to case. -/
theorem spells_iff {cs : List Char} {name : String} :
    Text.sameIgnoringCase (String.ofList cs) name = true ↔ Spells cs name :=
  Text.sameIgnoringCase_iff

/-- A text names a register exactly if it spells its name. -/
theorem ofName?_eq_some_iff {cs : List Char} {r : Register} :
    Register.ofName? (String.ofList cs) = some r ↔ Spells cs r.name := by
  have distinct : ∀ r s : Register, Text.upper r.name = Text.upper s.name → r = s := by
    intro r s
    cases r <;> cases s <;> decide
  rw [Register.ofName?, find?_eq_some_iff_of_unique Register.mem_all, Text.sameIgnoringCase_comm,
    spells_iff]
  intro r s hr hs
  rw [Text.sameIgnoringCase_iff] at hr hs
  exact distinct r s (hr.trans hs.symm)

/-- A text names no register exactly if it spells no register's name. -/
theorem ofName?_eq_none_iff {cs : List Char} :
    Register.ofName? (String.ofList cs) = none ↔ ∀ r : Register, ¬ Spells cs r.name := by
  rw [Option.eq_none_iff_forall_ne_some]
  exact forall_congr' fun r => not_congr ofName?_eq_some_iff

/-- An identifier as a base is the register of that name, or a symbol. -/
theorem base_ofName {cs : List Char} (h : Identifier cs) :
    Base cs (.ofName (String.ofList cs)) := by
  unfold MemoryBase.ofName
  split
  · next r named => exact .register h (ofName?_eq_some_iff.1 named)
  · next other => exact .symbol h (ofName?_eq_none_iff.1 other)

/-- An identifier is an operand: a register if it names one, and else a label. -/
theorem operand_ofName {cs : List Char} (h : Identifier cs) :
    OperandText cs (.ofName (String.ofList cs)) := by
  unfold Operand.ofName
  split
  · next r named => exact .register h (ofName?_eq_some_iff.1 named)
  · next other => exact .symbol h (ofName?_eq_none_iff.1 other)

/-! ## Atoms -/

/-- A literal is accepted exactly if it has a value. -/
@[simp] theorem literal_eq_ok {text : List Char} {n : Int} :
    literal text = .ok n ↔ literalValue? text = some n := by
  unfold literal
  cases literalValue? text <;> simp

/-- A number is read back as its text, with its value. -/
theorem readAtom_number {l r : List Char} {n : Int} (h : Number l n)
    (ends : Stops isIdentifierPart r) :
    readAtom (l ++ r) = some (.number l, r) ∧ literal l = .ok n := by
  obtain ⟨read, value⟩ := readNumber_append h ends
  exact ⟨by rw [readAtom, read], literal_eq_ok.2 value⟩

/-- An identifier is read back as its text. -/
theorem readAtom_identifier {l r : List Char} (h : Identifier l)
    (ends : Stops isIdentifierPart r) : readAtom (l ++ r) = some (.name l, r) := by
  rw [readAtom, readNumber_identifier h, readIdentifier_eq_some.2 ⟨rfl, h, ends⟩]
  rfl

/-- What is read as a number or a name is a base and an operand of the grammar. -/
theorem of_readAtom {cs r : List Char} {a : Atom} (h : readAtom cs = some (a, r)) :
    ∃ l, cs = l ++ r ∧ (∀ b, a.toBase = .ok b → Base l b) ∧
      ∀ o, (OperandForm.atom a).toOperand = .ok o → OperandText l o := by
  unfold readAtom at h
  split at h
  · next text rest read =>
    cases h
    obtain ⟨rfl, number⟩ := number_of_readNumber read
    refine ⟨text, rfl, fun b hb => ?_, fun o ho => ?_⟩
    · obtain ⟨n, value, rfl⟩ := map_eq_ok.1 hb
      exact .number (number n (literal_eq_ok.1 value))
    · obtain ⟨n, value, rfl⟩ := map_eq_ok.1 ho
      exact .number (number n (literal_eq_ok.1 value))
  · obtain ⟨⟨text, rest⟩, read, h⟩ := Option.map_eq_some_iff.1 h
    cases h
    obtain ⟨rfl, identifier, -⟩ := readIdentifier_eq_some.1 read
    refine ⟨text, rfl, fun b hb => ?_, fun o ho => ?_⟩
    · cases hb
      exact base_ofName identifier
    · cases ho
      exact operand_ofName identifier

/-- A base is read back as its text, with its meaning. -/
theorem readAtom_base {l r : List Char} {b : MemoryBase} (h : Base l b)
    (ends : Stops isIdentifierPart r) :
    ∃ a, readAtom (l ++ r) = some (a, r) ∧ a.toBase = .ok b := by
  cases h with
  | number number =>
    obtain ⟨read, value⟩ := readAtom_number number ends
    exact ⟨_, read, by rw [Atom.toBase, value]; rfl⟩
  | register identifier named =>
    refine ⟨_, readAtom_identifier identifier ends, ?_⟩
    rw [Atom.toBase, MemoryBase.ofName, ofName?_eq_some_iff.2 named]
  | symbol identifier other =>
    refine ⟨_, readAtom_identifier identifier ends, ?_⟩
    rw [Atom.toBase, MemoryBase.ofName, ofName?_eq_none_iff.2 other]

/-! ## Characters of an atom

Where the parts of a line start and end is seen from the characters that numbers and names have. -/

/-- The characters of numbers and names. -/
def IsAtomic (c : Char) : Prop := isIdentifierPart c = true ∨ c = '-'

/-- No atom holds a blank, a bracket or a separator. -/
theorem IsAtomic.apart {c : Char} (h : IsAtomic c) :
    isBlank c = false ∧ c ≠ '[' ∧ c ≠ ',' ∧ c ≠ ';' ∧ c ≠ ':' := by
  rcases h with part | rfl
  · refine ⟨Bool.eq_false_iff.2 fun blank => ?_, ?_, ?_, ?_, ?_⟩
    · simp [not_isIdentifierPart_of_blank (isBlank_iff.1 blank)] at part
    all_goals
      rintro rfl
      cases part
  · decide

/-- A magnitude is made of characters of atoms. -/
theorem isAtomic_of_unsigned {l : List Char} {n : Nat} (h : Unsigned l n) :
    ∀ c ∈ l, IsAtomic c := by
  have digits {radix : Nat} {ds : List Char} (numeral : Numeral radix ds n) :
      ∀ c ∈ ds, IsAtomic c := fun c hc =>
    .inl (isIdentifierPart_of_digit ((numeral_iff.1 numeral).2.1 c hc))
  cases h with
  | decimal numeral => exact digits numeral
  | hexadecimal mark numeral | binary mark numeral =>
    refine List.forall_mem_cons.2 ⟨.inl rfl, List.forall_mem_cons.2 ⟨?_, digits numeral⟩⟩
    rcases mark with rfl | rfl <;> exact .inl rfl

/-- So is a number. -/
theorem isAtomic_of_number {l : List Char} {n : Int} (h : Number l n) : ∀ c ∈ l, IsAtomic c := by
  cases h with
  | positive h => exact isAtomic_of_unsigned h.1
  | negative h => exact List.forall_mem_cons.2 ⟨.inr rfl, isAtomic_of_unsigned h.1⟩

/-- So is an identifier. -/
theorem isAtomic_of_identifier {l : List Char} (h : Identifier l) : ∀ c ∈ l, IsAtomic c := by
  obtain ⟨first, next⟩ := h
  refine List.forall_mem_cons.2 ⟨.inl ?_, fun c hc => .inl (isIdentifierPart_iff.2 (next c hc))⟩
  exact isIdentifierPart_iff.2 (first.imp_left fun h => by simp [Char.isAlphanum, h])

theorem number_ne_nil {l : List Char} {n : Int} (h : Number l n) : l ≠ [] := by
  cases h with
  | positive h =>
    obtain ⟨c, cs, rfl, -⟩ := exists_digit_of_unsigned h.1
    exact List.cons_ne_nil _ _
  | negative h => exact List.cons_ne_nil _ _

theorem identifier_ne_nil {l : List Char} (h : Identifier l) : l ≠ [] := by
  cases h
  exact List.cons_ne_nil _ _

/-- A base consists of atomic characters, and there is one. -/
theorem base_isAtomic {l : List Char} {b : MemoryBase} (h : Base l b) :
    l ≠ [] ∧ ∀ c ∈ l, IsAtomic c := by
  cases h with
  | number number => exact ⟨number_ne_nil number, isAtomic_of_number number⟩
  | register identifier _ | symbol identifier _ =>
    exact ⟨identifier_ne_nil identifier, isAtomic_of_identifier identifier⟩

/-- An atom does not start with a blank. -/
theorem stops_blank_append {l : List Char} (ne : l ≠ []) (atomic : ∀ c ∈ l, IsAtomic c)
    (r : List Char) : Stops isBlank (l ++ r) := by
  obtain ⟨c, cs, rfl⟩ := List.exists_cons_of_ne_nil ne
  exact stops_cons.2 (atomic c List.mem_cons_self).apart.1

/-- Blanks end an atom, and so does what ended it without them. -/
theorem stops_part_append {b : List Char} (blanks : Blanks b) {r : List Char}
    (ends : Stops isIdentifierPart r) : Stops isIdentifierPart (b ++ r) := by
  cases b with
  | nil => exact ends
  | cons c cs => exact stops_cons.2 (not_isIdentifierPart_of_blank (blanks c List.mem_cons_self))

/-! ## Memory operands -/

/-- The displacement that an offset stands for, which is zero if there is none. -/
def displacement : Option Offset → Except Cause Int
  | none => .ok 0
  | some offset => offset.toDisplacement

/-- A memory operand has a meaning if its base and its displacement have. -/
theorem toOperand_memory {base : Atom} {offset : Option Offset} {o : Operand} :
    (OperandForm.memory base offset).toOperand = .ok o ↔
      ∃ b d, base.toBase = .ok b ∧ displacement offset = .ok d ∧ o = .memory ⟨b, d⟩ := by
  cases offset with
  | none =>
    rw [OperandForm.toOperand, bind_eq_ok]
    constructor
    · rintro ⟨b, hb, h⟩
      exact ⟨b, 0, hb, rfl, (pure_eq_ok.1 h).symm⟩
    · rintro ⟨b, d, hb, ⟨⟩, rfl⟩
      exact ⟨b, hb, rfl⟩
  | some offset =>
    rw [OperandForm.toOperand, bind_eq_ok]
    constructor
    · rintro ⟨b, hb, h⟩
      obtain ⟨d, hd, h⟩ := bind_eq_ok.1 h
      exact ⟨b, d, hb, hd, (pure_eq_ok.1 h).symm⟩
    · rintro ⟨b, d, hb, hd, rfl⟩
      exact ⟨b, hb, bind_eq_ok.2 ⟨d, hd, rfl⟩⟩

/-- A magnitude after blanks is read back as its text, with its value. -/
theorem readUnsigned_skipBlanks {b l r : List Char} {n : Nat} (blanks : Blanks b)
    (h : Magnitude l n) (ends : Stops isIdentifierPart r) :
    readUnsigned (skipBlanks (b ++ (l ++ r))) = some (l, r) ∧ literal l = .ok (n : Int) := by
  obtain ⟨unsigned, range⟩ := h
  have ne : l ≠ [] := number_ne_nil (.positive ⟨unsigned, range⟩)
  rw [skipBlanks_append blanks,
    skipBlanks_of_stops (stops_blank_append ne (isAtomic_of_unsigned unsigned) r)]
  exact ⟨readUnsigned_append unsigned ends,
    literal_eq_ok.2 ((literalValue?_of_unsigned unsigned).trans (if_pos range))⟩

/-- A literal without a sign that is accepted is in range. -/
theorem magnitude_of_literal {l : List Char} {n : Int} (unsigned : Unsigned l (magnitude l))
    (value : literal l = .ok n) : Magnitude l (magnitude l) ∧ n = magnitude l := by
  rw [literal_eq_ok, literalValue?_of_unsigned unsigned, Option.ite_none_right_eq_some] at value
  obtain ⟨range, ⟨⟩⟩ := value
  exact ⟨⟨unsigned, range⟩, rfl⟩

/-- What is read as an offset is a displacement of the grammar. -/
theorem of_readOffset {cs r : List Char} {offset : Option Offset}
    (h : readOffset cs = some (offset, r)) :
    ∃ b t, Blanks b ∧ cs = b ++ (t ++ ']' :: r) ∧
      ∀ d, displacement offset = .ok d → Displacement t d := by
  obtain ⟨b, blanks, skipped⟩ := exists_skipBlanks cs
  unfold readOffset at h
  split at h
  · next rest found =>
    cases h
    refine ⟨b, [], blanks, by rw [skipped, found]; rfl, ?_⟩
    rintro d ⟨⟩
    exact .none
  · next c rest _ found =>
    split at h
    · next sign =>
      split at h
      · next text rest₁ read =>
        split at h
        · next rest₂ closed =>
          cases h
          obtain ⟨b₁, blanks₁, skipped₁⟩ := exists_skipBlanks rest
          obtain ⟨b₂, blanks₂, skipped₂⟩ := exists_skipBlanks rest₁
          obtain ⟨split, unsigned⟩ := unsigned_of_readUnsigned read
          refine ⟨b, c :: (b₁ ++ text ++ b₂), blanks, ?_, ?_⟩
          · rw [skipped, found, skipped₁, split, skipped₂, closed]
            simp
          · intro d displaced
            obtain ⟨n, value, rfl⟩ := map_eq_ok.1 displaced
            obtain ⟨inRange, rfl⟩ := magnitude_of_literal unsigned value
            rcases sign with rfl | rfl
            · exact .plus blanks₁ inRange blanks₂
            · exact .minus blanks₁ inRange blanks₂
        · cases h
      · cases h
    · cases h
  · cases h

/-- A displacement is read whole, with the bracket that closes the operand. -/
theorem readOffset_append {b t : List Char} {d : Int} (blanks : Blanks b) (h : Displacement t d)
    (r : List Char) :
    ∃ offset, readOffset (b ++ (t ++ ']' :: r)) = some (offset, r) ∧
      displacement offset = .ok d := by
  have ends {b : List Char} (blanks : Blanks b) : Stops isIdentifierPart (b ++ ']' :: r) :=
    stops_part_append blanks (stops_cons.2 (by decide))
  rw [readOffset]
  cases h with
  | none =>
    rw [List.nil_append, skipBlanks_cons blanks rfl]
    exact ⟨none, rfl, rfl⟩
  | @plus b₁ l b₂ n blanks₁ inRange blanks₂ =>
    obtain ⟨read, value⟩ := readUnsigned_skipBlanks blanks₁ inRange (ends blanks₂)
    have closed := skipBlanks_cons blanks₂ (c := ']') rfl r
    rw [List.cons_append, skipBlanks_cons blanks rfl]
    refine ⟨some ⟨false, l⟩, by simp [read, closed], ?_⟩
    simp [displacement, Offset.toDisplacement, value, Except.map]
  | @minus b₁ l b₂ n blanks₁ inRange blanks₂ =>
    obtain ⟨read, value⟩ := readUnsigned_skipBlanks blanks₁ inRange (ends blanks₂)
    have closed := skipBlanks_cons blanks₂ (c := ']') rfl r
    rw [List.cons_append, skipBlanks_cons blanks rfl]
    refine ⟨some ⟨true, l⟩, by simp [read, closed], ?_⟩
    simp [displacement, Offset.toDisplacement, value, Except.map]

/-! ## Operands between commas -/

/-- A text is an operand with blanks around it. -/
def Padded (cs : List Char) (o : Operand) : Prop :=
  ∃ b₁ l b₂, Blanks b₁ ∧ OperandText l o ∧ Blanks b₂ ∧ cs = b₁ ++ (l ++ b₂)

/-- What is read as an operand is one. -/
theorem of_readOperand {cs r : List Char} {f : OperandForm} {o : Operand}
    (h : readOperand cs = some (f, r)) (value : f.toOperand = .ok o) :
    ∃ l, cs = l ++ r ∧ OperandText l o := by
  unfold readOperand at h
  split at h
  · next cs =>
    split at h
    · next base rest read =>
      obtain ⟨⟨offset, rest'⟩, closed, h⟩ := Option.map_eq_some_iff.1 h
      cases h
      obtain ⟨b, d, toBase, displaced, rfl⟩ := toOperand_memory.1 value
      obtain ⟨b₁, blanks₁, skipped⟩ := exists_skipBlanks cs
      obtain ⟨l, split, ofBase, -⟩ := of_readAtom read
      obtain ⟨b₂, t, blanks₂, split', ofDisplacement⟩ := of_readOffset closed
      refine ⟨_, ?_, .memory blanks₁ (ofBase b toBase) blanks₂ (ofDisplacement d displaced)⟩
      rw [skipped, split, split']
      simp
    · cases h
  · obtain ⟨⟨a, rest⟩, read, h⟩ := Option.map_eq_some_iff.1 h
    cases h
    obtain ⟨l, split, -, ofOperand⟩ := of_readAtom read
    exact ⟨l, split, ofOperand o value⟩

/-- An operand that starts like an atom is one. -/
theorem readOperand_of_atomic {l : List Char} (ne : l ≠ []) (atomic : ∀ c ∈ l, IsAtomic c)
    (r : List Char) :
    readOperand (l ++ r) = (readAtom (l ++ r)).map fun (a, rest) => (.atom a, rest) := by
  obtain ⟨c, cs, rfl⟩ := List.exists_cons_of_ne_nil ne
  unfold readOperand
  split
  · next eq =>
    cases eq
    exact absurd rfl (atomic '[' List.mem_cons_self).apart.2.1
  · rfl

/-- An identifier is read back as an operand. -/
theorem readOperand_identifier {l r : List Char} (h : Identifier l)
    (ends : Stops isIdentifierPart r) :
    readOperand (l ++ r) = some (.atom (.name l), r) := by
  rw [readOperand_of_atomic (identifier_ne_nil h) (isAtomic_of_identifier h),
    readAtom_identifier h ends]
  rfl

/-- An operand is read whole. -/
theorem readOperand_append {l r : List Char} {o : Operand} (h : OperandText l o)
    (ends : Stops isIdentifierPart r) :
    ∃ f, readOperand (l ++ r) = some (f, r) ∧ f.toOperand = .ok o := by
  cases h with
  | number number =>
    obtain ⟨read, value⟩ := readAtom_number number ends
    rw [readOperand_of_atomic (number_ne_nil number) (isAtomic_of_number number), read]
    exact ⟨_, rfl, by rw [OperandForm.toOperand, value]; rfl⟩
  | register identifier named =>
    refine ⟨_, readOperand_identifier identifier ends, ?_⟩
    rw [OperandForm.toOperand, Operand.ofName, ofName?_eq_some_iff.2 named]
  | symbol identifier other =>
    refine ⟨_, readOperand_identifier identifier ends, ?_⟩
    rw [OperandForm.toOperand, Operand.ofName, ofName?_eq_none_iff.2 other]
  | @memory b₁ base b₂ offset b d blanks₁ isBase blanks₂ displaced =>
    obtain ⟨ne, atomic⟩ := base_isAtomic isBase
    have ends : Stops isIdentifierPart (b₂ ++ (offset ++ ']' :: r)) := by
      refine stops_part_append blanks₂ ?_
      cases displaced <;> exact stops_cons.2 rfl
    obtain ⟨a, read, toBase⟩ := readAtom_base isBase ends
    obtain ⟨offset', closed, value⟩ := readOffset_append blanks₂ displaced r
    refine ⟨.memory a offset', ?_, toOperand_memory.2 ⟨b, d, toBase, value, rfl⟩⟩
    have text : '[' :: (b₁ ++ base ++ b₂ ++ offset ++ [']']) ++ r =
        '[' :: (b₁ ++ (base ++ (b₂ ++ (offset ++ ']' :: r)))) := by simp
    rw [text, readOperand, skipBlanks_append blanks₁,
      skipBlanks_of_stops (stops_blank_append ne atomic _), read]
    simp [closed]

/-- An operand does not start with a blank. -/
theorem stops_blank_operand {l : List Char} {o : Operand} (h : OperandText l o) (r : List Char) :
    Stops isBlank (l ++ r) := by
  cases h with
  | number number => exact stops_blank_append (number_ne_nil number) (isAtomic_of_number number) r
  | register identifier _ | symbol identifier _ =>
    exact stops_blank_append (identifier_ne_nil identifier) (isAtomic_of_identifier identifier) r
  | memory => exact stops_cons.2 rfl

/-- A text of which nothing is left after skipping blanks is blank. -/
theorem blanks_of_skipBlanks_isEmpty {cs : List Char} (h : (skipBlanks cs).isEmpty = true) :
    Blanks cs := by
  obtain ⟨b, blanks, skipped⟩ := exists_skipBlanks cs
  rw [List.isEmpty_iff.1 h, List.append_nil] at skipped
  rwa [skipped]

/-- A text is read as an operand if it is one with blanks around it. -/
theorem padded_iff {cs : List Char} {o : Operand} :
    (∃ f, operand? cs = some f ∧ f.toOperand = .ok o) ↔ Padded cs o := by
  constructor
  · rintro ⟨f, h, value⟩
    unfold operand? at h
    split at h
    · next form rest read =>
      obtain ⟨empty, ⟨⟩⟩ := Option.ite_none_right_eq_some.1 h
      obtain ⟨b₁, blanks₁, skipped⟩ := exists_skipBlanks cs
      obtain ⟨l, split, operand⟩ := of_readOperand read value
      exact ⟨b₁, l, rest, blanks₁, operand, blanks_of_skipBlanks_isEmpty empty,
        by rw [skipped, split]⟩
    · cases h
  · rintro ⟨b₁, l, b₂, blanks₁, operand, blanks₂, rfl⟩
    have ends : Stops isIdentifierPart b₂ := by
      simpa using stops_part_append blanks₂ (stops_nil _)
    obtain ⟨f, read, value⟩ := readOperand_append operand ends
    refine ⟨f, ?_, value⟩
    rw [operand?, skipBlanks_append blanks₁, skipBlanks_of_stops (stops_blank_operand operand b₂),
      read]
    simp [skipBlanks_blanks blanks₂]

/-! ## Separators -/

/-- `Inner cs` holds when `cs` has none of the characters that separate the parts of a line. -/
def Inner (cs : List Char) : Prop := ∀ c ∈ cs, c ≠ ',' ∧ c ≠ ';' ∧ c ≠ ':'

@[simp] theorem inner_nil : Inner [] := by simp [Inner]

@[simp] theorem inner_cons {c : Char} {cs : List Char} :
    Inner (c :: cs) ↔ (c ≠ ',' ∧ c ≠ ';' ∧ c ≠ ':') ∧ Inner cs := List.forall_mem_cons

@[simp] theorem inner_append {cs ds : List Char} : Inner (cs ++ ds) ↔ Inner cs ∧ Inner ds :=
  List.forall_mem_append

/-- Blanks have no separator. -/
theorem inner_of_blanks {b : List Char} (h : Blanks b) : Inner b := by
  intro c hc
  rcases h c hc with rfl | rfl | rfl <;> decide

/-- Nor have atoms. -/
theorem inner_of_isAtomic {l : List Char} (h : ∀ c ∈ l, IsAtomic c) : Inner l :=
  fun c hc => (h c hc).apart.2.2

/-- Nor have displacements. -/
theorem inner_of_displacement {t : List Char} {d : Int} (h : Displacement t d) : Inner t := by
  cases h with
  | none => exact inner_nil
  | plus blanks₁ inRange blanks₂ | minus blanks₁ inRange blanks₂ =>
    simp [inner_of_blanks blanks₁, inner_of_blanks blanks₂,
      inner_of_isAtomic (isAtomic_of_unsigned inRange.1)]

/-- Nor have operands. -/
theorem inner_of_operand {l : List Char} {o : Operand} (h : OperandText l o) : Inner l := by
  cases h with
  | number number => exact inner_of_isAtomic (isAtomic_of_number number)
  | register identifier _ | symbol identifier _ =>
    exact inner_of_isAtomic (isAtomic_of_identifier identifier)
  | memory blanks₁ isBase blanks₂ displaced =>
    simp [inner_of_blanks blanks₁, inner_of_blanks blanks₂,
      inner_of_isAtomic (base_isAtomic isBase).2, inner_of_displacement displaced]

/-- A text without separators is one piece. -/
theorem splitCommas_of_inner {cs : List Char} (h : Inner cs) : splitCommas cs = [cs] := by
  induction cs with
  | nil => rfl
  | cons c cs ih =>
    obtain ⟨⟨comma, -⟩, inner⟩ := inner_cons.1 h
    rw [splitCommas, if_neg comma, ih inner]

/-- A piece ends at the first comma. -/
theorem splitCommas_append {cs : List Char} (h : Inner cs) (rest : List Char) :
    splitCommas (cs ++ ',' :: rest) = cs :: splitCommas rest := by
  induction cs with
  | nil => rfl
  | cons c cs ih =>
    obtain ⟨⟨comma, -⟩, inner⟩ := inner_cons.1 h
    rw [List.cons_append, splitCommas, if_neg comma, ih inner]

/-- A text has one part, or a part up to its first comma and those after it. -/
theorem splitCommas_cases (cs : List Char) :
    splitCommas cs = [cs] ∨
      ∃ l rest, cs = l ++ ',' :: rest ∧ splitCommas cs = l :: splitCommas rest := by
  induction cs with
  | nil => exact .inl rfl
  | cons c cs ih =>
    by_cases comma : c = ','
    · subst comma
      exact .inr ⟨[], cs, rfl, rfl⟩
    · rw [splitCommas, if_neg comma]
      rcases ih with one | ⟨l, rest, rfl, more⟩
      · exact .inl (by rw [one])
      · exact .inr ⟨c :: l, rest, rfl, by rw [more]⟩

/-- The parts of a text are padded operands if the text is a list of operands with blanks around
it. -/
theorem padded_operands_iff {cs : List Char} {os : List Operand} :
    List.Forall₂ Padded (splitCommas cs) os ↔
      ∃ b₁ l b₂, Blanks b₁ ∧ OperandsText l os ∧ Blanks b₂ ∧ cs = b₁ ++ (l ++ b₂) := by
  constructor
  · intro h
    generalize cut : splitCommas cs = parts at h
    induction h generalizing cs with
    | nil => rcases splitCommas_cases cs with one | ⟨l, rest, -, more⟩ <;> simp_all
    | @cons part o parts os head tail ih =>
      obtain ⟨b₁, l, b₂, blanks₁, operand, blanks₂, rfl⟩ := head
      rcases splitCommas_cases cs with one | ⟨part, rest, rfl, more⟩
      · cases cut.symm.trans one
        cases tail
        exact ⟨b₁, l, b₂, blanks₁, .single operand, blanks₂, rfl⟩
      · cases cut.symm.trans more
        obtain ⟨b₁', l', b₂', blanks₁', operands, blanks₂', rfl⟩ := ih rfl
        exact ⟨b₁, _, b₂', blanks₁, .cons operand blanks₂ blanks₁' operands, blanks₂', by simp⟩
  · rintro ⟨b₁, l, b₂, blanks₁, operands, blanks₂, rfl⟩
    induction operands generalizing b₁ with
    | @single l o operand =>
      rw [splitCommas_of_inner (by simp [inner_of_blanks, inner_of_operand operand, *])]
      exact .cons ⟨b₁, l, b₂, blanks₁, operand, blanks₂, rfl⟩ .nil
    | @cons l b b' rest o os operand blanks blanks' _ ih =>
      have text : b₁ ++ (l ++ b ++ ',' :: (b' ++ rest) ++ b₂) =
          b₁ ++ (l ++ b) ++ ',' :: (b' ++ (rest ++ b₂)) := by simp
      rw [text, splitCommas_append (by simp [inner_of_blanks, inner_of_operand operand, *])]
      exact .cons ⟨b₁, l, b, blanks₁, operand, blanks, rfl⟩ (ih b' blanks')

end Line

end AsmTrace

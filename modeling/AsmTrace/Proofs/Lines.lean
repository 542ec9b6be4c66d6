import AsmTrace.Proofs.Operands

/-!
# Lines and the grammar

Parsing a line succeeds on exactly the lines of the grammar and gives the statements that the
grammar gives (`parse_eq_ok_iff`). The parser finds the comment, the label and the commas first and
the operands last, which is no other order than that of the grammar: a semicolon, a colon or a comma
is never part of anything else.
-/

namespace AsmTrace.Line

open Grammar Result
open Assembly (Cause)

/-! ## Mnemonics -/

/-- A text is the mnemonic of an opcode exactly if it spells its name or an alias. -/
theorem ofMnemonic?_eq_some_iff {cs : List Char} {o : Opcode} :
    Opcode.ofMnemonic? (String.ofList cs) = some o ↔
      ∃ name ∈ o.mnemonic :: o.aliases, Spells cs name := by
  have distinct : ∀ o ∈ Opcode.all, ∀ o' ∈ Opcode.all, ∀ name ∈ o.mnemonic :: o.aliases,
      ∀ name' ∈ o'.mnemonic :: o'.aliases, Text.upper name = Text.upper name' → o = o' := by
    decide +kernel
  have spelled (o : Opcode) :
      (o.mnemonic :: o.aliases).any (Text.sameIgnoringCase (String.ofList cs)) = true ↔
        ∃ name ∈ o.mnemonic :: o.aliases, Spells cs name := by
    rw [List.any_eq_true]
    exact exists_congr fun name => and_congr_right fun _ => spells_iff
  rw [Opcode.ofMnemonic?, find?_eq_some_iff_of_unique Opcode.mem_all, spelled]
  intro o o' ho ho'
  obtain ⟨name, mem, same⟩ := (spelled o).1 ho
  obtain ⟨name', mem', same'⟩ := (spelled o').1 ho'
  exact distinct o (Opcode.mem_all o) o' (Opcode.mem_all o') name mem name' mem'
    (same.symm.trans same')

/-- The data directive is not an opcode. -/
theorem not_spells_data {cs : List Char} {o : Opcode} {name : String}
    (mem : name ∈ o.mnemonic :: o.aliases) (spells : Spells cs name) : ¬ Spells cs "DW" := by
  have other : ∀ o ∈ Opcode.all, ∀ name ∈ o.mnemonic :: o.aliases,
      Text.upper name ≠ Text.upper "DW" := by decide +kernel
  exact fun data => other o (Opcode.mem_all o) name mem (spells.symm.trans data)

/-- The operands of data are immediates. -/
theorem mapM_dataValue_eq_ok {os : List Operand} {values : List Int} :
    os.mapM dataValue = .ok values ↔ os = values.map Operand.immediate := by
  have number (o : Operand) (n : Int) : dataValue o = .ok n ↔ o = .immediate n := by
    cases o <;> simp [dataValue]
  simp only [mapM_eq_ok, number]
  rw [← List.forall₂_map_right_iff (R := (· = ·)), List.forall₂_eq_eq_eq]

/-- What a mnemonic with operands says is what the grammar says that it does. -/
theorem toBody_eq_ok {i : InstructionForm} {body : Statement.Body} :
    i.toBody = .ok body ↔
      ∃ os, i.operands.mapM OperandForm.toOperand = .ok os ∧ Says i.mnemonic os body := by
  rw [InstructionForm.toBody, bind_eq_ok]
  refine exists_congr fun os => and_congr_right fun _ => ?_
  by_cases data : Text.sameIgnoringCase (String.ofList i.mnemonic) dataMnemonic = true
  · simp only [data, if_true]
    rw [spells_iff] at data
    constructor
    · intro h
      split at h
      · cases h
      · next nonempty =>
        obtain ⟨values, numbers, h⟩ := bind_eq_ok.1 h
        cases h
        obtain rfl := mapM_dataValue_eq_ok.1 numbers
        exact .data data (by simpa using nonempty) rfl
    · intro said
      cases said with
      | instruction mem spells => exact absurd data (not_spells_data mem spells)
      | data _ nonempty numbers =>
        rw [if_neg (by simpa [numbers] using nonempty)]
        exact bind_eq_ok.2 ⟨_, mapM_dataValue_eq_ok.2 numbers, rfl⟩
  · simp only [data, Bool.false_eq_true, if_false]
    rw [spells_iff] at data
    constructor
    · intro h
      split at h
      · next opcode found =>
        cases h
        obtain ⟨name, mem, spells⟩ := ofMnemonic?_eq_some_iff.1 found
        exact .instruction mem spells
      · cases h
    · intro said
      cases said with
      | instruction mem spells =>
        rw [ofMnemonic?_eq_some_iff.2 ⟨_, mem, spells⟩]
        rfl
      | data spells => exact absurd spells data

/-! ## Instructions -/

/-- Operands do not start with a blank. -/
theorem stops_blank_operands {l : List Char} {os : List Operand} (h : OperandsText l os)
    (r : List Char) : Stops isBlank (l ++ r) := by
  cases h with
  | single operand => exact stops_blank_operand operand r
  | cons operand _ _ _ =>
    rw [List.append_assoc, List.append_assoc]
    exact stops_blank_operand operand _

theorem operands_ne_nil {l : List Char} {os : List Operand} (h : OperandsText l os) : l ≠ [] := by
  rintro rfl
  -- a blank after empty operands would be their first character
  exact absurd (stops_cons.1 (stops_blank_operands h [' '])) (by decide)

/-- The operands after a mnemonic are none, or a list of them with blanks around it. -/
theorem operands_iff {cs : List Char} {os : List Operand} :
    (∃ fs, operands? cs = some fs ∧ fs.mapM OperandForm.toOperand = .ok os) ↔
      (Blanks cs ∧ os = []) ∨
        ∃ b₁ l b₂, Blanks b₁ ∧ OperandsText l os ∧ Blanks b₂ ∧ cs = b₁ ++ (l ++ b₂) := by
  have cut : (∃ fs, (splitCommas cs).mapM operand? = some fs ∧
      fs.mapM OperandForm.toOperand = .ok os) ↔ List.Forall₂ Padded (splitCommas cs) os := by
    simp only [mapM_eq_some, mapM_eq_ok, forall₂_comp_iff, padded_iff]
  rw [operands?]
  by_cases empty : (skipBlanks cs).isEmpty = true
  · rw [if_pos empty]
    constructor
    · rintro ⟨fs, ⟨⟩, h⟩
      exact .inl ⟨blanks_of_skipBlanks_isEmpty empty, (pure_eq_ok.1 h).symm⟩
    · rintro (⟨-, rfl⟩ | ⟨b₁, l, b₂, blanks₁, operands, -, rfl⟩)
      · exact ⟨[], rfl, rfl⟩
      · rw [skipBlanks_append blanks₁,
          skipBlanks_of_stops (stops_blank_operands operands b₂)] at empty
        simp [operands_ne_nil operands] at empty
  · rw [if_neg empty, cut, padded_operands_iff, or_iff_right]
    rintro ⟨blanks, -⟩
    simp [skipBlanks_blanks blanks] at empty

/-- What an instruction says, which is nothing if there is none. -/
def instructionBodies : Option InstructionForm → Except Cause (List Statement.Body)
  | none => .ok []
  | some i => i.toBody.map fun body => [body]

theorem stops_isAlphanum_of_blanks {b : List Char} (h : Blanks b) : Stops Char.isAlphanum b := by
  have ends := stops_part_append h (stops_nil isIdentifierPart)
  rw [List.append_nil] at ends
  exact ends.of_imp isIdentifierPart_of_isAlphanum

theorem stops_blank_mnemonic {mnemonic : List Char} (isMnemonic : Mnemonic mnemonic)
    (rest : List Char) : Stops isBlank (mnemonic ++ rest) := by
  obtain ⟨first, -⟩ := isMnemonic
  refine stops_cons.2 (Bool.eq_false_iff.2 fun blank => ?_)
  rcases isBlank_iff.1 blank with rfl | rfl | rfl <;> cases first

/-- A mnemonic that ends where letters and digits do is read whole. -/
theorem instruction?_mnemonic {mnemonic rest : List Char} (isMnemonic : Mnemonic mnemonic)
    (ends : Stops Char.isAlphanum rest) :
    instruction? (mnemonic ++ rest) = (operands? rest).map fun fs => some ⟨mnemonic, fs⟩ := by
  have nonempty : ¬ (mnemonic ++ rest).isEmpty = true := by
    cases isMnemonic
    simp
  rw [instruction?, if_neg nonempty, readMnemonic_eq_some.2 ⟨rfl, isMnemonic, ends⟩]

/-- A mnemonic and operands that it takes are read as an instruction. -/
theorem instruction?_append {mnemonic rest : List Char} {os : List Operand} {body : Statement.Body}
    (isMnemonic : Mnemonic mnemonic) (ends : Stops Char.isAlphanum rest)
    (operands : ∃ fs, operands? rest = some fs ∧ fs.mapM OperandForm.toOperand = .ok os)
    (said : Says mnemonic os body) :
    ∃ i, instruction? (mnemonic ++ rest) = some i ∧ instructionBodies i = .ok [body] := by
  obtain ⟨fs, forms, values⟩ := operands
  refine ⟨some ⟨mnemonic, fs⟩, ?_, map_eq_ok.2 ⟨body, toBody_eq_ok.2 ⟨os, values, said⟩, rfl⟩⟩
  rw [instruction?_mnemonic isMnemonic ends, forms, Option.map_some]

/-- A text is read as an instruction if it is one, or is empty. -/
theorem instruction_iff {cs : List Char} (start : Stops isBlank cs) {is : List Statement.Body} :
    (∃ i, instruction? cs = some i ∧ instructionBodies i = .ok is) ↔
      ∃ t b, Optional InstructionText t is ∧ Blanks b ∧ cs = t ++ b := by
  constructor
  · rintro ⟨i, h, said⟩
    unfold instruction? at h
    split at h
    · next empty =>
      cases h
      cases said
      exact ⟨[], [], .none, blanks_nil, List.isEmpty_iff.1 empty⟩
    · split at h
      · next mnemonic rest read =>
        obtain ⟨fs, forms, rfl⟩ := Option.map_eq_some_iff.1 h
        obtain ⟨body, toBody, rfl⟩ := map_eq_ok.1 said
        obtain ⟨os, values, said⟩ := toBody_eq_ok.1 toBody
        obtain ⟨rfl, isMnemonic, ends⟩ := readMnemonic_eq_some.1 read
        rcases operands_iff.1 ⟨fs, forms, values⟩ with
          ⟨blanks, rfl⟩ | ⟨b₁, l, b₂, blanks₁, operands, blanks₂, rfl⟩
        · exact ⟨mnemonic, rest, .some (.bare isMnemonic said), blanks, rfl⟩
        · refine ⟨_, b₂, .some (.withOperands isMnemonic blanks₁ operands ?_ said), blanks₂,
            by simp⟩
          intro c hc
          refine Bool.eq_false_iff.1 (ends c ?_)
          rw [← List.append_assoc, List.head?_append, Option.mem_def.1 hc]
          rfl
      · cases h
  · rintro ⟨t, b, text, blanks, rfl⟩
    cases text with
    | none =>
      -- a text of blanks that does not start with one is empty
      obtain rfl : b = [] := (skipBlanks_of_stops start).symm.trans (skipBlanks_blanks blanks)
      exact ⟨none, rfl, rfl⟩
    | some instruction =>
      cases instruction with
      | bare isMnemonic said =>
        exact instruction?_append isMnemonic (stops_isAlphanum_of_blanks blanks)
          (operands_iff.2 (.inl ⟨blanks, rfl⟩)) said
      | @withOperands mnemonic b₁ l os _ isMnemonic blanks₁ operands ends said =>
        rw [List.append_assoc, List.append_assoc]
        refine instruction?_append isMnemonic ?_
          (operands_iff.2 (.inr ⟨b₁, l, b, blanks₁, operands, blanks, rfl⟩)) said
        intro c hc
        obtain ⟨d, ds, text⟩ := List.exists_cons_of_ne_nil
          (List.append_ne_nil_of_right_ne_nil b₁ (operands_ne_nil operands))
        rw [← List.append_assoc, text] at hc
        exact Bool.eq_false_iff.2 (ends c (text ▸ hc))

/-- Blanks before an instruction are skipped, and nothing of the instruction. -/
theorem skipBlanks_instruction {t b : List Char} {is : List Statement.Body}
    (h : Optional InstructionText t is) (blanks : Blanks b) :
    ∃ b', Blanks b' ∧ skipBlanks (t ++ b) = t ++ b' := by
  cases h with
  | none => exact ⟨[], blanks_nil, skipBlanks_blanks blanks⟩
  | some instruction =>
    refine ⟨b, blanks, skipBlanks_of_stops ?_⟩
    cases instruction with
    | bare isMnemonic _ => exact stops_blank_mnemonic isMnemonic b
    | withOperands isMnemonic _ _ _ _ =>
      rw [List.append_assoc, List.append_assoc]
      exact stops_blank_mnemonic isMnemonic _

/-! ## Labels and comments -/

/-- What is read as a label: an identifier, blanks and a colon. -/
theorem readLabel_eq_some {cs name rest : List Char} :
    readLabel cs = some (name, rest) ↔
      ∃ b, Identifier name ∧ Blanks b ∧ cs = name ++ (b ++ ':' :: rest) := by
  constructor
  · intro h
    unfold readLabel at h
    split at h
    · next name' rest' read =>
      split at h
      · next rest'' colon =>
        cases h
        obtain ⟨rfl, identifier, -⟩ := readIdentifier_eq_some.1 read
        obtain ⟨b, blanks, skipped⟩ := exists_skipBlanks rest'
        exact ⟨b, identifier, blanks, by rw [skipped, colon]⟩
      · cases h
    · cases h
  · rintro ⟨b, identifier, blanks, rfl⟩
    have ends : Stops isIdentifierPart (b ++ ':' :: rest) :=
      stops_part_append blanks (stops_cons.2 (by decide))
    rw [readLabel, readIdentifier_eq_some.2 ⟨rfl, identifier, ends⟩]
    simp only [skipBlanks_cons blanks (c := ':') rfl rest]

/-- A text is what comes before its comment, and the comment. -/
theorem exists_comment (text : List Char) :
    ∃ comment, CommentText comment ∧ text = withoutComment text ++ comment := by
  refine ⟨text.dropWhile (· != ';'), ?_, List.takeWhile_append_dropWhile.symm⟩
  have starts := stops_dropWhile (· != ';') text
  generalize text.dropWhile (· != ';') = comment at starts ⊢
  cases comment with
  | nil => exact .none
  | cons c cs =>
    obtain rfl : c = ';' := by simpa using stops_cons.1 starts
    exact .some cs

/-- A comment is cut off. -/
theorem withoutComment_append {cs comment : List Char} (h : ';' ∉ cs)
    (isComment : CommentText comment) : withoutComment (cs ++ comment) = cs := by
  refine takeWhile_append_of_stops ?_ ?_
  · intro c hc
    exact bne_iff_ne.2 fun same => h (same ▸ hc)
  · cases isComment with
    | none => exact stops_nil _
    | some cs => exact stops_cons.2 (by decide)

/-! ## Lines -/

theorem not_mem_of_inner {cs : List Char} (h : Inner cs) : ';' ∉ cs ∧ ':' ∉ cs :=
  ⟨fun mem => (h _ mem).2.1 rfl, fun mem => (h _ mem).2.2 rfl⟩

/-- Operands have neither comment nor label. -/
theorem not_mem_operands {l : List Char} {os : List Operand} (h : OperandsText l os) :
    ';' ∉ l ∧ ':' ∉ l := by
  induction h with
  | single operand => exact not_mem_of_inner (inner_of_operand operand)
  | cons operand blanks blanks' _ ih =>
    have first := not_mem_of_inner (inner_of_operand operand)
    have before := not_mem_of_inner (inner_of_blanks blanks)
    have after := not_mem_of_inner (inner_of_blanks blanks')
    simp_all

theorem inner_of_mnemonic {mnemonic : List Char} (h : Mnemonic mnemonic) : Inner mnemonic := by
  obtain ⟨first, next⟩ := h
  exact inner_of_isAtomic (isAtomic_of_identifier (.mk (.inl first) fun c hc => .inl (next c hc)))

/-- No instruction has a semicolon or a colon in it. -/
theorem not_mem_instruction {t : List Char} {is : List Statement.Body}
    (h : Optional InstructionText t is) : ';' ∉ t ∧ ':' ∉ t := by
  cases h with
  | none => simp
  | some instruction =>
    cases instruction with
    | bare isMnemonic _ => exact not_mem_of_inner (inner_of_mnemonic isMnemonic)
    | withOperands isMnemonic blanks operands _ _ =>
      have first := not_mem_of_inner (inner_of_mnemonic isMnemonic)
      have between := not_mem_of_inner (inner_of_blanks blanks)
      have last := not_mem_operands operands
      simp_all

theorem not_mem_label {t : List Char} {ls : List Statement.Body} (h : Optional LabelText t ls) :
    ';' ∉ t := by
  cases h with
  | none => simp
  | some label =>
    obtain ⟨identifier, blanks⟩ := label
    have name := (not_mem_of_inner (inner_of_isAtomic (isAtomic_of_identifier identifier))).1
    have between := (not_mem_of_inner (inner_of_blanks blanks)).1
    simp_all

/-- A line says its label and then its instruction. -/
theorem formBodies_eq_ok {label : Option (List Char)} {i : Option InstructionForm}
    {bs : List Statement.Body} :
    (Form.mk label i).bodies = .ok bs ↔ ∃ is, instructionBodies i = .ok is ∧
      bs = (label.map fun name => Statement.Body.label (String.ofList name)).toList ++ is := by
  cases i with
  | none => simp [Form.bodies, instructionBodies, pure, Except.pure, eq_comm]
  | some i =>
    rw [Form.bodies, instructionBodies, bind_eq_ok]
    simp only [map_eq_ok]
    constructor
    · rintro ⟨body, toBody, h⟩
      exact ⟨[body], ⟨body, toBody, rfl⟩, (pure_eq_ok.1 h).symm⟩
    · rintro ⟨_, ⟨body, toBody, rfl⟩, rfl⟩
      exact ⟨body, toBody, rfl⟩

/-- What a line is read to say, it says. -/
theorem lineText_of_bodies {text : List Char} {f : Form} {bs : List Statement.Body}
    (parsed : Form.parse? text = some f) (said : f.bodies = .ok bs) : LineText text bs := by
  obtain ⟨comment, isComment, uncommented⟩ := exists_comment text
  obtain ⟨b₁, blanks₁, skipped⟩ := exists_skipBlanks (withoutComment text)
  rw [Form.parse?] at parsed
  split at parsed
  · next name rest label =>
    obtain ⟨i, read, rfl⟩ := Option.map_eq_some_iff.1 parsed
    obtain ⟨is, toBodies, rfl⟩ := formBodies_eq_ok.1 said
    obtain ⟨b, identifier, blanks, split⟩ := readLabel_eq_some.1 label
    obtain ⟨b₂, blanks₂, skipped'⟩ := exists_skipBlanks rest
    obtain ⟨t, b₃, instruction, blanks₃, split'⟩ :=
      (instruction_iff (stops_skipBlanks rest)).1 ⟨i, read, toBodies⟩
    have line :=
      LineText.mk blanks₁ (.some (.mk identifier blanks)) blanks₂ instruction blanks₃ isComment
    rw [uncommented, skipped, split, skipped', split']
    simpa using line
  · obtain ⟨i, read, rfl⟩ := Option.map_eq_some_iff.1 parsed
    obtain ⟨is, toBodies, rfl⟩ := formBodies_eq_ok.1 said
    obtain ⟨t, b₃, instruction, blanks₃, split⟩ :=
      (instruction_iff (stops_skipBlanks _)).1 ⟨i, read, toBodies⟩
    have line := LineText.mk blanks₁ .none blanks_nil instruction blanks₃ isComment
    rw [uncommented, skipped, split]
    simpa using line

/-- What stands before the instruction of a line: a label or none, with blanks around it. -/
inductive Front : List Char → List Statement.Body → Prop
  | mk {b₁ label b₂ : List Char} {ls : List Statement.Body} : Blanks b₁ →
      Optional LabelText label ls → Blanks b₂ → Front (b₁ ++ label ++ b₂) ls

/-- A line is read up to its comment, and its instruction after its label. -/
theorem parse?_append {front code comment : List Char} {ls : List Statement.Body}
    (isFront : Front front ls) (plain : ';' ∉ code ∧ ':' ∉ code) (isComment : CommentText comment) :
    ∃ name : Option (List Char),
      (name.map fun name => Statement.Body.label (String.ofList name)).toList = ls ∧
      Form.parse? (front ++ code ++ comment) =
        (instruction? (skipBlanks code)).map fun i => ⟨name, i⟩ := by
  obtain @⟨b₁, label, b₂, _, blanks₁, isLabel, blanks₂⟩ := isFront
  have uncommented : withoutComment (b₁ ++ label ++ b₂ ++ code ++ comment) =
      b₁ ++ label ++ b₂ ++ code := by
    refine withoutComment_append ?_ isComment
    have blank {b : List Char} (blanks : Blanks b) : ';' ∉ b :=
      (not_mem_of_inner (inner_of_blanks blanks)).1
    simp [blank blanks₁, blank blanks₂, not_mem_label isLabel, plain.1]
  rw [Form.parse?, uncommented]
  cases isLabel with
  | none =>
    have front : skipBlanks (b₁ ++ [] ++ b₂ ++ code) = skipBlanks code := by
      rw [List.append_nil, List.append_assoc, skipBlanks_append blanks₁, skipBlanks_append blanks₂]
    -- a label has a colon, and an instruction has none
    have unlabelled : readLabel (skipBlanks code) = none := by
      rw [Option.eq_none_iff_forall_ne_some]
      rintro ⟨name, rest⟩ found
      obtain ⟨b, -, -, split⟩ := readLabel_eq_some.1 found
      have colon : ':' ∈ skipBlanks code := by simp [split]
      exact plain.2 ((List.dropWhile_sublist isBlank).subset colon)
    refine ⟨none, rfl, ?_⟩
    simp only [front, unlabelled]
  | some isLabel =>
    obtain @⟨name, b, identifier, blanks⟩ := isLabel
    have front : skipBlanks (b₁ ++ (name ++ b ++ [':']) ++ b₂ ++ code) =
        name ++ (b ++ ':' :: (b₂ ++ code)) := by
      have starts := stops_blank_append (identifier_ne_nil identifier)
        (isAtomic_of_identifier identifier) (b ++ ':' :: (b₂ ++ code))
      refine Eq.trans ?_ ((skipBlanks_append blanks₁ _).trans (skipBlanks_of_stops starts))
      simp
    have labelled : readLabel (name ++ (b ++ ':' :: (b₂ ++ code))) = some (name, b₂ ++ code) :=
      readLabel_eq_some.2 ⟨b, identifier, blanks, rfl⟩
    refine ⟨some name, rfl, ?_⟩
    simp only [front, labelled, skipBlanks_append blanks₂]

/-- What a line says, it is read to say. -/
theorem bodies_of_lineText {text : List Char} {bs : List Statement.Body} (h : LineText text bs) :
    ∃ f, Form.parse? text = some f ∧ f.bodies = .ok bs := by
  obtain @⟨b₁, label, b₂, t, b₃, comment, ls, is, blanks₁, isLabel, blanks₂, instruction, blanks₃,
    isComment⟩ := h
  obtain ⟨b, blanks, skipped⟩ := skipBlanks_instruction instruction blanks₃
  obtain ⟨i, read, toBodies⟩ :=
    (instruction_iff (skipped ▸ stops_skipBlanks (t ++ b₃))).2 ⟨t, b, instruction, blanks, rfl⟩
  have plain : ';' ∉ t ++ b₃ ∧ ':' ∉ t ++ b₃ := by
    have code := not_mem_instruction instruction
    have after := not_mem_of_inner (inner_of_blanks blanks₃)
    simp [code, after]
  obtain ⟨name, rfl, parsed⟩ := parse?_append (.mk blanks₁ isLabel blanks₂) plain isComment
  rw [skipped, read, Option.map_some, ← List.append_assoc] at parsed
  exact ⟨⟨name, i⟩, parsed, formBodies_eq_ok.2 ⟨is, toBodies, rfl⟩⟩

/-- What is read from a line is what the grammar says. -/
theorem bodies_eq_ok_iff {text : String} {bs : List Statement.Body} :
    bodies text = .ok bs ↔ LineText text.toList bs := by
  constructor
  · intro h
    unfold bodies at h
    split at h
    · next f parsed => exact lineText_of_bodies parsed h
    · cases h
  · intro h
    obtain ⟨f, parsed, said⟩ := bodies_of_lineText h
    rw [bodies, parsed]
    exact said

/-- What is read from a line has its number. -/
theorem parse_eq_ok {text : String} {line : Nat} {statements : List Statement} :
    parse text line = .ok statements ↔
      ∃ bs, bodies text = .ok bs ∧ statements = bs.map (Statement.mk line) := by
  unfold parse
  cases bodies text with
  | error cause => simp
  | ok bs => simp [eq_comm]

/-- Data is given as one value or more. -/
theorem data_nil_not_mem {text : List Char} {bs : List Statement.Body} (h : LineText text bs) :
    Statement.Body.data [] ∉ bs := by
  have said {mnemonic : List Char} {os : List Operand} {body : Statement.Body}
      (said : Says mnemonic os body) : Statement.Body.data [] ≠ body := by
    rintro rfl
    cases said with
    | data _ nonempty _ => exact nonempty rfl
  obtain ⟨-, label, -, instruction, -, -⟩ := h
  rw [List.mem_append]
  rintro (mem | mem)
  · cases label with
    | none => cases mem
    | some label =>
      cases label
      cases List.mem_singleton.1 mem
  · cases instruction with
    | none => cases mem
    | some instruction =>
      have same := List.mem_singleton.1 mem
      cases instruction with
      | bare _ h => exact said h same
      | withOperands _ _ _ _ h => exact said h same

/-- A line is parsed to statements on that line if and only if it is one of the grammar, and they
are those that the grammar gives. -/
theorem parse_eq_ok_iff (text : String) (line : Nat) (statements : List Statement) :
    parse text line = .ok statements ↔
      ∃ bs, LineText text.toList bs ∧ statements = bs.map (Statement.mk line) := by
  simp only [parse_eq_ok, bodies_eq_ok_iff]

end AsmTrace.Line

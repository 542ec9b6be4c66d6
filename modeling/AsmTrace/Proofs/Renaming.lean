import AsmTrace.Proofs.LabelResolution

/-!
# Renaming labels

Names are looked up and compared, and that no label is named like a register is checked; nothing
else is asked of a name. So statements with other names make up the same program, if different names
stay different and no label comes to be named like a register (`ofStatements_rename`). Decoding sees
names only through the table of labels: it does the same with two tables in which a name and its new
name are found alike (`decode_rename`).
-/

namespace AsmTrace

open Assembly Result

/-! ## Names of a statement -/

def MemoryBase.names : MemoryBase → List String
  | .symbol name => [name]
  | .register _ | .absolute _ => []

def Operand.names : Operand → List String
  | .symbol name => [name]
  | .memory m => m.base.names
  | .register _ | .immediate _ => []

/-- The names that a statement holds: of the label that it defines, or of those that it refers
to. -/
def Statement.names (s : Statement) : List String :=
  match s.body with
  | .label name => [name]
  | .data _ => []
  | .instruction _ operands => operands.flatMap Operand.names

/-- The label that a statement defines is among its names. -/
theorem Statement.mem_names_of_labelName? {s : Statement} {name : String}
    (named : s.labelName? = some name) : name ∈ s.names := by
  obtain ⟨line, body⟩ := s
  cases body with
  | label other =>
    cases named
    exact List.mem_singleton.2 rfl
  | data values => cases named
  | instruction opcode operands => cases named

/-- The labels that statements define are among their names. -/
theorem Statement.labelNames_subset (statements : List Statement) :
    statements.filterMap Statement.labelName? ⊆ statements.flatMap Statement.names := by
  intro name mem
  obtain ⟨s, inStatements, named⟩ := List.mem_filterMap.1 mem
  exact List.mem_flatMap.2 ⟨s, inStatements, s.mem_names_of_labelName? named⟩

/-- `Renames r names` holds when `r` keeps those names apart and makes none of them a register's. -/
structure Renames (r : String → String) (names : List String) : Prop where
  injective : ∀ a ∈ names, ∀ b ∈ names, r a = r b → a = b
  proper : ∀ a ∈ names, Register.ofName? (r a) = none

/-! ## Other names -/

variable (r : String → String)

def MemoryBase.rename : MemoryBase → MemoryBase
  | .register reg => .register reg
  | .absolute address => .absolute address
  | .symbol name => .symbol (r name)

def MemoryOperand.rename (m : MemoryOperand) : MemoryOperand := { m with base := m.base.rename r }

def Operand.rename : Operand → Operand
  | .register reg => .register reg
  | .immediate n => .immediate n
  | .memory m => .memory (m.rename r)
  | .symbol name => .symbol (r name)

def Statement.rename (s : Statement) : Statement :=
  { s with
    body := match s.body with
      | .label name => .label (r name)
      | .data values => .data values
      | .instruction opcode operands => .instruction opcode (operands.map (Operand.rename r)) }

namespace Assembly

def Labels.rename (ls : Labels) : Labels := ⟨ls.entries.map (Prod.map r id)⟩

def Cause.rename : Cause → Cause
  | .labelIsRegister name => .labelIsRegister (r name)
  | .duplicateLabel name => .duplicateLabel (r name)
  | .unknownLabel name => .unknownLabel (r name)
  | .dataLabelAsValue name => .dataLabelAsValue (r name)
  | .codeLabelAsValue name => .codeLabelAsValue (r name)
  | .notARegister name => .notARegister (r name)
  | .codeLabelAsMemory name => .codeLabelAsMemory (r name)
  | .dataLabelAsTarget name => .dataLabelAsTarget (r name)
  | .addressTooWide operand => .addressTooWide (operand.rename r)
  | .targetNotLabel opcode found => .targetNotLabel opcode (found.rename r)
  | .dataNotNumeric found => .dataNotNumeric (found.rename r)
  | cause => cause

def Error.rename : Error → Error
  | .atLine line cause => .atLine line (cause.rename r)
  | .emptyProgram => .emptyProgram

/-- Renaming changes the names in a cause, and not its kind. -/
@[simp] theorem Cause.kind_rename (cause : Cause) : (cause.rename r).kind = cause.kind := by
  cases cause <;> rfl

/-- Nor that of an error. -/
@[simp] theorem Error.kind_rename (e : Error) : (e.rename r).kind = e.kind := by
  cases e with
  | atLine line cause => exact cause.kind_rename r
  | emptyProgram => rfl

/-- Nor the line of an error. -/
@[simp] theorem Error.line?_rename (e : Error) : (e.rename r).line? = e.line? := by
  cases e <;> rfl

end Assembly

def Program.rename (p : Program) : Program := { p with labels := p.labels.rename r }

/-! ## Decoding -/

namespace Assembly

/-- `FoundAlike r labels labels' names` holds when each of the names is found in `labels` as its new
name is in `labels'`. -/
def FoundAlike (labels labels' : Labels) (names : List String) : Prop :=
  ∀ a ∈ names, labels'.find? (r a) = labels.find? a

variable {r} {labels labels' : Labels} {operand : Operand}

/-- A computation whose errors have the new names. -/
theorem both_map {α β : Type} (f : α → β) (x : Except Cause α) :
    (both (Cause.rename r) id x).map f = both (Cause.rename r) id (x.map f) := by
  cases x <;> rfl

/-- An immediate has no names. -/
theorem decodeImmediate_rename (n : Int) :
    both (Cause.rename r) id (decodeImmediate n) = decodeImmediate n := by
  unfold decodeImmediate
  cases Word.ofLiteral? n <;> rfl

/-- Why a name is no value is renamed with it. -/
theorem notAValue_rename {name : String} (same : labels'.find? (r name) = labels.find? name) :
    notAValue labels' (r name) = (notAValue labels name).rename r := by
  unfold notAValue
  rw [same]
  rcases labels.find? name with _ | (_ | _) <;> rfl

/-- The base of a memory operand is decoded alike. -/
theorem decodeBase_rename {base : MemoryBase}
    (same : FoundAlike r labels labels' base.names) :
    decodeBase labels' (base.rename r) = both (Cause.rename r) id (decodeBase labels base) := by
  cases base with
  | register | absolute => rfl
  | symbol name =>
    simp only [MemoryBase.rename, decodeBase, same name List.mem_cons_self]
    rcases labels.find? name with _ | (_ | _) <;> rfl

/-- A memory operand is decoded alike. -/
theorem decodeMemory_rename {m : MemoryOperand}
    (same : FoundAlike r labels labels' m.base.names) :
    decodeMemory labels' (m.rename r) = both (Cause.rename r) id (decodeMemory labels m) := by
  unfold decodeMemory
  rw [MemoryOperand.rename, decodeBase_rename same]
  refine both_bind _ fun resolved => ?_
  dsimp only [id]
  split <;> rfl

/-- A place is decoded alike. -/
theorem decodePlace_rename (opcode : Opcode) (same : FoundAlike r labels labels' operand.names) :
    decodePlace labels' opcode (operand.rename r) =
      both (Cause.rename r) id (decodePlace labels opcode operand) := by
  cases operand with
  | register | immediate => rfl
  | memory m =>
    rw [Operand.rename, decodePlace, decodePlace, decodeMemory_rename same, both_map]
  | symbol name => exact congrArg Except.error (notAValue_rename (same name List.mem_cons_self))

/-- A place to write to is decoded alike. -/
theorem decodeWritable_rename (opcode : Opcode) (same : FoundAlike r labels labels' operand.names) :
    decodeWritable labels' opcode (operand.rename r) =
      both (Cause.rename r) id (decodeWritable labels opcode operand) := by
  cases operand with
  | register r' => cases r' <;> rfl
  | immediate | memory | symbol => exact decodePlace_rename opcode same

/-- A value is decoded alike. -/
theorem decodeValue_rename (same : FoundAlike r labels labels' operand.names) :
    decodeValue labels' (operand.rename r) =
      both (Cause.rename r) id (decodeValue labels operand) := by
  cases operand with
  | register => rfl
  | immediate n => rw [Operand.rename, decodeValue, decodeValue, ← both_map, decodeImmediate_rename]
  | memory m =>
    rw [Operand.rename, decodeValue, decodeValue, decodeMemory_rename same, both_map]
  | symbol name => exact congrArg Except.error (notAValue_rename (same name List.mem_cons_self))

/-- The target of a jump is decoded alike, if its label is found alike. -/
theorem decodeTarget_rename (opcode : Opcode) (same : FoundAlike r labels labels' operand.names) :
    decodeTarget labels' opcode (operand.rename r) =
      both (Cause.rename r) id (decodeTarget labels opcode operand) := by
  cases operand with
  | register | immediate | memory => rfl
  | symbol name =>
    simp only [Operand.rename, decodeTarget, same name List.mem_cons_self]
    rcases labels.find? name with _ | (_ | _) <;> rfl

/-- A place and a value are decoded alike. -/
theorem decodePair_rename (opcode : Opcode) (place : Except Cause Place)
    (same : FoundAlike r labels labels' operand.names) :
    decodePair labels' opcode (both (Cause.rename r) id place) (operand.rename r) =
      both (Cause.rename r) id (decodePair labels opcode place operand) := by
  unfold decodePair
  rw [decodeValue_rename same]
  refine both_bind _ fun dst => both_bind _ fun src => ?_
  dsimp only [id]
  split <;> rfl

/-- The operands of `IMUL` are decoded alike. -/
theorem decodeMultiply_rename {dst src : Operand} (sameDst : FoundAlike r labels labels' dst.names)
    (sameSrc : FoundAlike r labels labels' src.names) :
    decodeMultiply labels' (dst.rename r) (src.rename r) =
      both (Cause.rename r) id (decodeMultiply labels dst src) := by
  unfold decodeMultiply
  rw [decodeWritable_rename _ sameDst, decodeValue_rename sameSrc]
  refine both_bind _ fun place => ?_
  cases place with
  | register reg => exact both_bind _ fun value => rfl
  | memory ref => rfl

/-- The operands of a shift are decoded alike. -/
theorem decodeShift_rename (op : ShiftOp) {dst count : Operand}
    (sameDst : FoundAlike r labels labels' dst.names)
    (sameCount : FoundAlike r labels labels' count.names) :
    decodeShift labels' op (dst.rename r) (count.rename r) =
      both (Cause.rename r) id (decodeShift labels op dst count) := by
  unfold decodeShift
  rw [decodeWritable_rename _ sameDst, decodeValue_rename sameCount]
  refine both_bind _ fun place => both_bind _ fun value => ?_
  dsimp only [id]
  split <;> rfl

/-- With other names, an instruction decodes to the same operation, or to the same error with the
other names. -/
theorem decode_rename (opcode : Opcode) {operands : List Operand}
    (same : FoundAlike r labels labels' (operands.flatMap Operand.names)) :
    decode labels' opcode (operands.map (Operand.rename r)) =
      both (Cause.rename r) id (decode labels opcode operands) := by
  have each : ∀ operand ∈ operands, FoundAlike r labels labels' operand.names :=
    fun operand mem a named => same a (List.mem_flatMap.2 ⟨operand, mem, named⟩)
  match operands with
  | [] => cases opcode <;> rfl
  | [a] =>
    have ha := each a List.mem_cons_self
    have place := decodeWritable_rename opcode ha
    have target := decodeTarget_rename opcode ha
    cases opcode with
    | unary | pop => exact (congrArg (Except.map _) place).trans (both_map _ _)
    | push | idiv => exact (congrArg (Except.map _) (decodeValue_rename ha)).trans (both_map _ _)
    | jump | loop | call => exact (congrArg (Except.map _) target).trans (both_map _ _)
    | _ => rfl
  | [a, b] =>
    have ha := each a List.mem_cons_self
    have hb := each b (List.mem_cons_of_mem a List.mem_cons_self)
    have written := decodePair_rename opcode (decodeWritable labels opcode a) hb
    have compared := decodePair_rename opcode (decodePlace labels opcode a) hb
    rw [← decodeWritable_rename opcode ha] at written
    rw [← decodePlace_rename opcode ha] at compared
    cases opcode with
    | mov | binary => exact (congrArg (Except.map _) written).trans (both_map _ _)
    | compare => exact (congrArg (Except.map _) compared).trans (both_map _ _)
    | imul => exact decodeMultiply_rename ha hb
    | shift op => exact decodeShift_rename op ha hb
    | _ => rfl
  | a :: b :: c :: rest =>
    have count : ((a :: b :: c :: rest).map (Operand.rename r)).length =
        (a :: b :: c :: rest).length := List.length_map _
    have cause := congrArg (Cause.operandCount opcode) count
    cases opcode <;> exact congrArg Except.error cause

/-! ## Labels -/

namespace Labels

variable {ls : Labels} {names : List String}

/-- A table finds a new name as it found the old one. -/
theorem foundAlike_rename (renames : Renames r names) (within : ls.names ⊆ names) :
    FoundAlike r ls (ls.rename r) names := by
  intro a mem
  obtain ⟨entries⟩ := ls
  unfold find? rename
  induction entries with
  | nil => rfl
  | cons entry entries ih =>
    obtain ⟨name, target⟩ := entry
    have rest := ih fun b hb => within (List.mem_cons_of_mem name hb)
    have same : (r a == r name) = (a == name) := by
      rw [Bool.eq_iff_iff, beq_iff_eq, beq_iff_eq]
      exact ⟨renames.injective a mem name (within List.mem_cons_self), congrArg r⟩
    simp only [List.map_cons, Prod.map, id, List.lookup_cons, same]
    rw [← rest]

/-- A renamed label is defined where the label is, and refused where it is. -/
theorem define_rename (renames : Renames r names) (within : ls.names ⊆ names) {name : String}
    (mem : name ∈ names) (proper : Register.ofName? name = none) (target : LabelTarget) :
    (ls.rename r).define (r name) target =
      both (Cause.rename r) (Labels.rename r) (ls.define name target) := by
  unfold define
  rw [renames.proper name mem, proper, foundAlike_rename renames within name mem]
  cases ls.find? name with
  | none => simp [both, rename]
  | some found => rfl

/-- Where a label points does not depend on names. -/
@[simp] theorem targetBefore_rename (index address : Nat) (statements : List Statement) :
    targetBefore index address (statements.map (Statement.rename r)) =
      targetBefore index address statements := by
  induction statements with
  | nil => rfl
  | cons s rest ih =>
    obtain ⟨line, _ | _ | _⟩ := s
    · exact ih
    · rfl
    · rfl

/-- No label that the statements define is named like a register. -/
def Proper (statements : List Statement) : Prop :=
  ∀ name ∈ statements.filterMap Statement.labelName?, Register.ofName? name = none

/-- Labels that could be collected are proper names. -/
theorem proper_of_ahead {index address : Nat} {statements : List Statement} {ls' : Labels}
    (h : ls.ahead index address statements = .ok ls') : Proper statements := by
  induction statements generalizing ls index address with
  | nil => exact List.forall_mem_nil _
  | cons s rest ih =>
    obtain ⟨line, body⟩ := s
    cases body with
    | label name =>
      rw [ahead] at h
      cases defined : ls.define name (targetBefore index address rest) with
      | error cause => simp [defined] at h
      | ok ls₁ =>
        rw [defined] at h
        exact List.forall_mem_cons.2 ⟨(define_eq_ok.1 defined).1, ih h⟩
    | data values => exact ih h
    | instruction opcode operands => exact ih h

/-- Defining a label adds its name. -/
theorem names_define {name : String} {target : LabelTarget} {ls' : Labels}
    (defined : ls.define name target = .ok ls') : ls'.names = ls.names ++ [name] := by
  obtain ⟨-, -, rfl⟩ := define_eq_ok.1 defined
  simp [Labels.names]

/-- Renamed statements have a renamed table. -/
theorem ahead_rename (renames : Renames r names) (within : ls.names ⊆ names)
    {statements : List Statement} (inside : ∀ s ∈ statements, s.names ⊆ names)
    (proper : Proper statements) (index address : Nat) :
    (ls.rename r).ahead index address (statements.map (Statement.rename r)) =
      both (Error.rename r) (Labels.rename r) (ls.ahead index address statements) := by
  induction statements generalizing ls index address with
  | nil => rfl
  | cons s rest ih =>
    obtain ⟨here, inside'⟩ := List.forall_mem_cons.1 inside
    obtain ⟨line, body⟩ := s
    cases body with
    | label name =>
      obtain ⟨unlike, proper'⟩ := List.forall_mem_cons.1 proper
      have mem : name ∈ names := here List.mem_cons_self
      simp only [List.map_cons, Statement.rename, ahead, targetBefore_rename]
      rw [define_rename renames within mem unlike]
      cases defined : ls.define name (targetBefore index address rest) with
      | error cause => rfl
      | ok ls' =>
        refine ih ?_ inside' proper' index address
        rw [names_define defined]
        exact List.append_subset.2 ⟨within, List.cons_subset.2 ⟨mem, List.nil_subset names⟩⟩
    | data values => exact ih within inside' proper index _
    | instruction opcode operands => exact ih within inside' proper (index + 1) address

/-- The renamed program has the renamed labels. -/
theorem collect_rename {statements : List Statement}
    (renames : Renames r (statements.flatMap Statement.names)) (proper : Proper statements) :
    collect (statements.map (Statement.rename r)) =
      both (Error.rename r) (Labels.rename r) (collect statements) := by
  have inside : ∀ s ∈ statements, s.names ⊆ statements.flatMap Statement.names :=
    fun s mem a named => List.mem_flatMap.2 ⟨s, mem, named⟩
  rw [collect_eq_ahead, collect_eq_ahead]
  have within : ({} : Labels).names ⊆ statements.flatMap Statement.names := List.nil_subset _
  exact ahead_rename renames within inside proper 0 0

/-- The labels collected are names of the program. -/
theorem names_subset_of_collect {statements : List Statement} {labels : Labels}
    (collected : collect statements = .ok labels) :
    labels.names ⊆ statements.flatMap Statement.names := by
  rw [collect_eq_ahead] at collected
  obtain ⟨entries, -⟩ := entries_of_ahead collected
  rw [Labels.names, entries, List.nil_append, map_fst_table]
  exact Statement.labelNames_subset statements

end Labels

end Assembly

/-! ## Programs -/

namespace Program

variable {r} {labels labels' : Labels} {statements : List Statement}

/-- Data has no names. -/
theorem layOut_rename (line count : Nat) (values : List Int) :
    both (Cause.rename r) id (layOut line count values) = layOut line count values := by
  induction values generalizing count with
  | nil => rfl
  | cons n rest ih =>
    rw [layOut]
    cases decoded : decodeImmediate n with
    | error cause =>
      have kept := decodeImmediate_rename (r := r) n
      rw [decoded] at kept
      exact congrArg Except.error (Except.error.inj kept)
    | ok w =>
      have kept := ih (count + 1)
      cases laid : layOut line (count + 1) rest with
      | error cause =>
        rw [laid] at kept
        exact congrArg Except.error (Except.error.inj kept)
      | ok words => rfl

/-- A line is put on a renamed cause as on the cause. -/
theorem mapError_rename {α : Type} (x : Except Cause α) (line : Nat) :
    (both (Cause.rename r) id x).mapError (.atLine line) =
      both (Error.rename r) id (x.mapError (.atLine line)) := by
  cases x <;> rfl

/-- Renamed statements decode to the same instructions and data words. -/
theorem decodeFrom_rename (same : FoundAlike r labels labels' (statements.flatMap Statement.names))
    (count : Nat) :
    decodeFrom labels' count (statements.map (Statement.rename r)) =
      both (Error.rename r) id (decodeFrom labels count statements) := by
  induction statements generalizing count with
  | nil => rfl
  | cons s rest ih =>
    have later := ih fun a mem => same a (List.mem_append_right _ mem)
    have here : FoundAlike r labels labels' s.names :=
      fun a mem => same a (List.mem_append_left _ mem)
    obtain ⟨line, body⟩ := s
    cases body with
    | label name => exact later count
    | data values =>
      have words := mapError_rename (r := r) (layOut line count values) line
      rw [layOut_rename] at words
      simp only [List.map_cons, Statement.rename, decodeFrom]
      rw [later]
      conv => lhs; rw [words]
      exact both_bind _ fun words => both_bind _ fun decoded => rfl
    | instruction opcode operands =>
      simp only [List.map_cons, Statement.rename, decodeFrom]
      rw [later, decode_rename opcode here, mapError_rename]
      exact both_bind _ fun operation => both_bind _ fun decoded => rfl

/-- Renamed statements make up the same program with renamed labels, or have the same error with the
new names, if no label is named like a register before or after. -/
theorem ofStatements_rename (renames : Renames r (statements.flatMap Statement.names))
    (proper : Labels.Proper statements) :
    ofStatements (statements.map (Statement.rename r)) =
      both (Error.rename r) (Program.rename r) (ofStatements statements) := by
  unfold ofStatements
  rw [Labels.collect_rename renames proper]
  refine both_bind_of_ok fun labels collected => ?_
  have within := Labels.names_subset_of_collect collected
  rw [decodeFrom_rename (Labels.foundAlike_rename renames within)]
  refine both_bind _ fun decoded => ?_
  obtain ⟨instructions, data⟩ := decoded
  cases instructions with
  | nil => rfl
  | cons i is => rfl

/-- Labels may be renamed in any way that keeps different names apart and makes none a register's.
What could be assembled then assembles to the same instructions and data words, with the new names
in the table of labels. If none of the old names was a register's either, what could not be
assembled fails with an error of the same kind on the same line, and the other way round. -/
theorem assembled_renamed (renames : Renames r (statements.flatMap Statement.names)) :
    (∀ p, ofStatements statements = .ok p →
      ofStatements (statements.map (Statement.rename r)) =
        .ok { p with labels := p.labels.rename r }) ∧
    ((∀ name ∈ statements.flatMap Statement.names, Register.ofName? name = none) →
      ∀ kind line,
        (∃ e, ofStatements statements = .error e ∧ e.kind = kind ∧ e.line? = line) ↔
        ∃ e, ofStatements (statements.map (Statement.rename r)) = .error e ∧ e.kind = kind ∧
          e.line? = line) := by
  constructor
  · intro p assembled
    obtain ⟨labels, collected, -⟩ := bind_eq_ok.1 assembled
    rw [Labels.collect_eq_ahead] at collected
    rw [ofStatements_rename renames (Labels.proper_of_ahead collected), assembled]
    rfl
  · intro proper kind line
    have properLabels : Labels.Proper statements :=
      fun name mem => proper name (Statement.labelNames_subset statements mem)
    rw [ofStatements_rename renames properLabels]
    cases ofStatements statements with
    | ok p =>
      constructor
      · rintro ⟨e, h, -⟩
        cases h
      · rintro ⟨e, h, -⟩
        cases h
    | error e =>
      constructor
      · rintro ⟨_, ⟨⟩, rfl, rfl⟩
        exact ⟨e.rename r, rfl, e.kind_rename r, e.line?_rename r⟩
      · rintro ⟨_, ⟨⟩, rfl, rfl⟩
        exact ⟨e, rfl, (e.kind_rename r).symm, (e.line?_rename r).symm⟩

/-- Two names that change places, with a reference to each; and the same with a reference to a
third, which is not defined. -/
theorem assembled_renamed_swapped :
    ∃ (r : String → String) (labelled : List Statement) (jump : Statement) (p : Program),
      Renames r ((jump :: labelled).flatMap Statement.names) ∧
      ofStatements labelled = .ok p ∧ p.labels = ⟨[("x", .data 0), ("y", .code 0)]⟩ ∧
      ofStatements (labelled.map (Statement.rename r)) =
        .ok { p with labels := ⟨[("y", .data 0), ("x", .code 0)]⟩ } ∧
      ∃ e, ofStatements ((jump :: labelled).map (Statement.rename r)) = .error e ∧
        e.kind = .unknownLabel ∧ e.line? = some 1 := by
  let r (name : String) : String := if name = "x" then "y" else if name = "y" then "x" else name
  let labelled : List Statement := [⟨2, .label "x"⟩, ⟨2, .data [7]⟩, ⟨3, .label "y"⟩,
    ⟨3, .instruction .push [.memory ⟨.symbol "x", 0⟩]⟩, ⟨4, .instruction .loop [.symbol "y"]⟩]
  let jump : Statement := ⟨1, .instruction .call [.symbol "z"]⟩
  have names : (jump :: labelled).flatMap Statement.names = ["z", "x", "y", "x", "y"] := rfl
  have renames : Renames r ((jump :: labelled).flatMap Statement.names) := by
    rw [names]
    exact ⟨by decide +kernel, by decide +kernel⟩
  have proper : ∀ name ∈ (jump :: labelled).flatMap Statement.names,
      Register.ofName? name = none := by
    rw [names]
    decide +kernel
  have renames' : Renames r (labelled.flatMap Statement.names) :=
    ⟨fun a ha b hb => renames.injective a (List.mem_cons_of_mem "z" ha) b
        (List.mem_cons_of_mem "z" hb),
      fun a ha => renames.proper a (List.mem_cons_of_mem "z" ha)⟩
  have ok : ofStatements labelled = .ok
      { instructions := #[⟨3, .push (.memory ⟨none, 0⟩)⟩, ⟨4, .loop 0⟩]
        labels := ⟨[("x", .data 0), ("y", .code 0)]⟩
        data := [⟨0, 7, 2⟩] } := by decide +kernel
  have failed : ofStatements (jump :: labelled) = .error (.atLine 1 (.unknownLabel "z")) := by
    decide +kernel
  have fails := (assembled_renamed renames).2 proper .unknownLabel (some 1)
  exact ⟨r, labelled, jump, _, renames, ok, rfl, (assembled_renamed renames').1 _ ok,
    fails.1 ⟨_, failed, rfl, rfl⟩⟩

end Program

end AsmTrace

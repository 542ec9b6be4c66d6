import AsmTrace.Proofs.LabelResolution
import AsmTrace.Proofs.Runs

/-!
# Line numbers

Lines are counted once, when a source text is split, and every number that is reported later comes
from there: statements keep the number of their line, instructions and data words that of their
statement. A failing instruction leaves the program counter where it is, so that the line looked up
after it is its own.
-/

namespace AsmTrace

namespace Source

variable {source : Source} {n : Nat} {text : String}

/-- The source text has a line of that number. -/
def HasLine (source : Source) (n : Nat) : Prop := 1 ≤ n ∧ n ≤ source.lineCount

/-- A line that is found has a number of the source. -/
theorem hasLine_of_line? (h : source.line? n = some text) : source.HasLine n := by
  cases n with
  | zero => cases h
  | succ n =>
    obtain ⟨lt, -⟩ := List.getElem?_eq_some_iff.1 h
    exact ⟨Nat.le_add_left 1 n, lt⟩

/-- Every number of the source has a line. -/
theorem exists_line? (h : source.HasLine n) : ∃ text, source.line? n = some text := by
  obtain ⟨pos, le⟩ := h
  cases n with
  | zero => cases pos
  | succ n => exact ⟨_, List.getElem?_eq_getElem le⟩

/-- The numbered lines are those that are found by their number. -/
@[simp] theorem mem_numbered : (n, text) ∈ source.numbered ↔ source.line? n = some text := by
  rw [numbered, List.mem_map]
  constructor
  · rintro ⟨⟨l, i⟩, mem, same⟩
    cases same
    exact List.mem_zipIdx_iff_getElem?.1 mem
  · intro h
    cases n with
    | zero => cases h
    | succ n => exact ⟨(text, n), List.mem_zipIdx_iff_getElem?.2 h, rfl⟩

/-- Lines are numbered in ascending order. -/
theorem pairwise_numbered (source : Source) : source.numbered.Pairwise (·.1 < ·.1) := by
  have indices : (source.lines.zipIdx.map Prod.snd).Pairwise (· < ·) := by
    rw [List.zipIdx_map_snd]
    exact List.pairwise_lt_range' 1
  rw [List.pairwise_map] at indices
  rw [numbered, List.pairwise_map]
  exact indices.imp Nat.succ_lt_succ

end Source

namespace Line

/-- A line that is refused is refused with its number. -/
theorem parse_eq_error {text : String} {line : Nat} {e : Assembly.Error} :
    parse text line = .error e ↔ ∃ cause, bodies text = .error cause ∧ e = .atLine line cause := by
  unfold parse
  cases bodies text with
  | error cause => simp [eq_comm]
  | ok bs => simp

/-- Of what a line says, everything but the last is a label. -/
theorem pairwise_of_lineText {text : List Char} {bs : List Statement.Body}
    (h : Grammar.LineText text bs) : bs.Pairwise fun a _ => ∃ name, a = .label name := by
  obtain ⟨-, label, -, instruction, -, -⟩ := h
  cases label with
  | none =>
    cases instruction with
    | none => exact .nil
    | some _ => exact List.pairwise_singleton _ _
  | some label =>
    obtain @⟨name, -, -, -⟩ := label
    cases instruction with
    | none => exact List.pairwise_singleton _ _
    | some _ => exact List.pairwise_pair.2 ⟨_, rfl⟩

end Line

open Assembly Result

/-! ## Lines of statements -/

/-- The line that a statement is numbered with says it. -/
def Source.Says (source : Source) (s : Statement) : Prop :=
  ∃ text group, source.line? s.line = some text ∧ Line.parse text s.line = .ok group ∧ s ∈ group

/-- What a source says has a number of the source. -/
theorem Source.Says.hasLine {source : Source} {s : Statement} (h : source.Says s) :
    source.HasLine s.line := by
  obtain ⟨text, -, line, -⟩ := h
  exact hasLine_of_line? line

namespace Program

variable {source : Source} {statements : List Statement} {p : Program}

/-- Numbered lines and the statements on each of them. -/
abbrev Grouped (lines : List (Nat × String)) (groups : List (List Statement)) : Prop :=
  List.Forall₂ (fun line group => Line.parse line.2 line.1 = .ok group) lines groups

/-- What is read from a source is read line by line. -/
theorem grouped_of_parse (parsed : parse source = .ok statements) :
    ∃ groups, Grouped source.numbered groups ∧ statements = groups.flatten := by
  obtain ⟨groups, grouped, same⟩ := map_eq_ok.1 parsed
  exact ⟨groups, mapM_eq_ok.1 grouped, same.symm⟩

/-- What is read from a line has its number. -/
theorem line_of_mem_group {n : Nat} {text : String} {group : List Statement} {s : Statement}
    (parsed : Line.parse text n = .ok group) (mem : s ∈ group) : s.line = n := by
  obtain ⟨bs, -, rfl⟩ := Line.parse_eq_ok.1 parsed
  obtain ⟨body, -, rfl⟩ := List.mem_map.1 mem
  rfl

/-- What is read from lines is read from the one with its number. -/
theorem exists_line_of_mem {lines : List (Nat × String)} {groups : List (List Statement)}
    (grouped : Grouped lines groups) {s : Statement} (mem : s ∈ groups.flatten) :
    ∃ text group, (s.line, text) ∈ lines ∧ Line.parse text s.line = .ok group ∧ s ∈ group := by
  obtain ⟨group, inGroups, inGroup⟩ := List.mem_flatten.1 mem
  obtain ⟨k, hk⟩ := List.mem_iff_getElem?.1 inGroups
  obtain ⟨⟨n, text⟩, hl, parsed⟩ := exists_left grouped hk
  cases line_of_mem_group parsed inGroup
  exact ⟨text, group, List.mem_of_getElem? hl, parsed, inGroup⟩

/-- What is read from a source is said by it. -/
theorem said_of_mem (parsed : parse source = .ok statements) {s : Statement}
    (mem : s ∈ statements) : source.Says s := by
  obtain ⟨groups, grouped, rfl⟩ := grouped_of_parse parsed
  obtain ⟨text, group, inLines, ofLine, inGroup⟩ := exists_line_of_mem grouped mem
  exact ⟨text, group, Source.mem_numbered.1 inLines, ofLine, inGroup⟩

/-- Of two instruction statements the first stands on an earlier line. -/
theorem pairwise_of_grouped {lines : List (Nat × String)} {groups : List (List Statement)}
    (grouped : Grouped lines groups) (ascending : lines.Pairwise (·.1 < ·.1)) :
    groups.flatten.Pairwise fun s t =>
      s.isInstruction = true → t.isInstruction = true → s.line < t.line := by
  induction grouped with
  | nil => exact .nil
  | @cons line group lines groups parsed rest ih =>
    rw [List.pairwise_cons] at ascending
    rw [List.flatten_cons, List.pairwise_append]
    refine ⟨?_, ih ascending.2, ?_⟩
    · -- on one line only the last statement can be an instruction
      obtain ⟨bs, said, rfl⟩ := Line.parse_eq_ok.1 parsed
      rw [List.pairwise_map]
      refine (Line.pairwise_of_lineText (Line.bodies_eq_ok_iff.1 said)).imp ?_
      rintro _ b ⟨name, rfl⟩ instruction
      cases instruction
    · intro s inGroup t inRest _ _
      obtain ⟨text, -, inLines, -, -⟩ := exists_line_of_mem rest inRest
      rw [line_of_mem_group parsed inGroup]
      exact ascending.1 _ inLines

/-- The lines of instructions are those of their statements. -/
theorem Resolves.lines_eq (r : Resolves statements p) :
    (statements.filter Statement.isInstruction).map Statement.line =
      p.instructions.toList.map Instruction.line := by
  have lines : List.Forall₂ (fun s i => Statement.line s = Instruction.line i)
      (statements.filter Statement.isInstruction) p.instructions.toList :=
    r.instructions.imp fun s i ⟨_, _, _, _, line⟩ => line.symm
  have mapped := List.forall₂_map_left_iff.2 (List.forall₂_map_right_iff.2 lines)
  rwa [List.forall₂_eq_eq_eq] at mapped

/-- The lines of instructions increase. -/
theorem Resolves.pairwise_line (r : Resolves statements p)
    (parsed : parse source = .ok statements) :
    p.instructions.toList.Pairwise (·.line < ·.line) := by
  obtain ⟨groups, grouped, rfl⟩ := grouped_of_parse parsed
  have ascending := List.pairwise_filter.2 (pairwise_of_grouped grouped source.pairwise_numbered)
  rw [← List.pairwise_map (f := Statement.line) (R := (· < ·)), r.lines_eq,
    List.pairwise_map] at ascending
  exact ascending

/-- Where lines ascend, instructions on the same line are the same. -/
theorem eq_of_line_eq (ascending : p.instructions.toList.Pairwise (·.line < ·.line)) {j k : Nat}
    {i i' : Instruction} (fetched : p.fetch? j = some i) (fetched' : p.fetch? k = some i')
    (same : i.line = i'.line) : j = k := by
  obtain ⟨ltj, rfl⟩ := Array.getElem?_eq_some_iff.1 fetched
  obtain ⟨ltk, rfl⟩ := Array.getElem?_eq_some_iff.1 fetched'
  have ordered := List.pairwise_iff_getElem.1 ascending
  simp only [Array.length_toList, Array.getElem_toList] at ordered
  rcases Nat.lt_trichotomy j k with lt | eq | gt
  · have := ordered j k ltj ltk lt
    omega
  · exact eq
  · have := ordered k j ltk ltj gt
    omega

/-- Every instruction is decoded from a statement of the source. -/
theorem Resolves.exists_statement (r : Resolves statements p)
    (parsed : parse source = .ok statements)
    {index : Nat} {i : Instruction} (fetched : p.fetch? index = some i) :
    ∃ s, source.Says s ∧ Decodes p.labels s i := by
  have fetched : p.instructions.toList[index]? = some i := by rwa [Array.getElem?_toList]
  obtain ⟨s, hs, decodes⟩ := exists_left r.instructions fetched
  have mem := List.mem_of_mem_filter (List.mem_of_getElem? hs)
  exact ⟨s, said_of_mem parsed mem, decodes⟩

/-- The data statement that a data word comes from. -/
theorem Resolves.exists_data (r : Resolves statements p) {k : Nat} {word : DataWord}
    (hk : p.data[k]? = some word) :
    ∃ before values after j n, statements = before ++ ⟨word.line, .data values⟩ :: after ∧
      k = wordCount before + j ∧ values[j]? = some n ∧ Word.ofLiteral? n = some word.value := by
  obtain ⟨⟨line, n⟩, item, value, same⟩ := exists_left r.data hk
  obtain ⟨before, ⟨line', body⟩, after, j, rfl, position, inItems⟩ :=
    exists_of_getElem?_flatMap item
  cases body with
  | label name => cases inItems
  | instruction opcode operands => cases inItems
  | data values =>
    change (values.map fun n => (line', n))[j]? = some (line, n) at inItems
    rw [List.getElem?_map, Option.map_eq_some_iff] at inItems
    obtain ⟨n', hn, pair⟩ := inItems
    cases pair
    cases same
    exact ⟨before, values, after, j, n, rfl, position, hn, value⟩

end Program

/-! ## Lines of assembly errors -/

/-- The error is on the line of one of the statements. -/
def Assembly.Error.IsAmong (statements : List Statement) (e : Error) : Prop :=
  ∃ s ∈ statements, ∃ cause, e = .atLine s.line cause

theorem Assembly.Error.IsAmong.cons {statements : List Statement} {e : Error} (s : Statement)
    (h : e.IsAmong statements) : e.IsAmong (s :: statements) := by
  obtain ⟨t, mem, cause, rfl⟩ := h
  exact ⟨t, List.mem_cons_of_mem s mem, cause, rfl⟩

/-- A label that is refused is refused at the line of a statement. -/
theorem Assembly.Labels.isAmong_of_ahead {ls : Labels} {index address : Nat}
    {statements : List Statement} {e : Error} (h : ls.ahead index address statements = .error e) :
    e.IsAmong statements := by
  induction statements generalizing ls index address with
  | nil => cases h
  | cons s rest ih =>
    obtain ⟨line, body⟩ := s
    cases body with
    | label name =>
      rw [ahead] at h
      cases defined : ls.define name (targetBefore index address rest) with
      | error cause =>
        rw [defined] at h
        cases h
        exact ⟨_, List.mem_cons_self, cause, rfl⟩
      | ok ls' =>
        rw [defined] at h
        exact (ih h).cons _
    | data values => exact (ih h).cons _
    | instruction opcode operands => exact (ih h).cons _

namespace Program

variable {source : Source} {statements : List Statement}

/-- A statement that is refused is refused at its line. -/
theorem isAmong_of_decodeFrom {labels : Labels} {count : Nat} {e : Error}
    (h : decodeFrom labels count statements = .error e) : e.IsAmong statements := by
  induction statements generalizing count e with
  | nil => cases h
  | cons s rest ih =>
    obtain ⟨line, body⟩ := s
    cases body with
    | label name => exact (ih h).cons _
    | data values =>
      rcases bind_eq_error.1 h with h | ⟨words, -, h⟩
      · obtain ⟨cause, -, rfl⟩ := mapError_eq_error.1 h
        exact ⟨_, List.mem_cons_self, cause, rfl⟩
      · rcases bind_eq_error.1 h with h | ⟨decoded, -, h⟩
        · exact (ih h).cons _
        · cases h
    | instruction opcode operands =>
      rcases bind_eq_error.1 h with h | ⟨operation, -, h⟩
      · obtain ⟨cause, -, rfl⟩ := mapError_eq_error.1 h
        exact ⟨_, List.mem_cons_self, cause, rfl⟩
      · rcases bind_eq_error.1 h with h | ⟨decoded, -, h⟩
        · exact (ih h).cons _
        · cases h

/-- A program that is refused is empty or refused at the line of a statement. -/
theorem isAmong_of_ofStatements {e : Error} (h : ofStatements statements = .error e) :
    e = .emptyProgram ∨ e.IsAmong statements := by
  rcases bind_eq_error.1 h with h | ⟨labels, -, h⟩
  · rw [Labels.collect_eq_ahead] at h
    exact .inr (Labels.isAmong_of_ahead h)
  · rcases bind_eq_error.1 h with h | ⟨⟨instructions, data⟩, -, h⟩
    · exact .inr (isAmong_of_decodeFrom h)
    · dsimp only at h
      split at h
      · cases h
        exact .inl rfl
      · cases h

/-- A source that cannot be read has the line that is named. -/
theorem hasLine_of_parse_error {e : Error} (h : parse source = .error e) :
    ∃ line cause, e = .atLine line cause ∧ source.HasLine line := by
  obtain ⟨⟨n, text⟩, mem, failed⟩ := exists_of_mapM_eq_error (map_eq_error.1 h)
  obtain ⟨cause, -, rfl⟩ := Line.parse_eq_error.1 failed
  exact ⟨n, cause, rfl, Source.hasLine_of_line? (Source.mem_numbered.1 mem)⟩

/-- So has one that cannot be assembled, unless it is empty. -/
theorem hasLine_of_assemble_error {e : Error} (h : assemble source = .error e) :
    e = .emptyProgram ∨ ∃ line cause, e = .atLine line cause ∧ source.HasLine line := by
  rcases bind_eq_error.1 h with h | ⟨statements, parsed, h⟩
  · exact .inr (hasLine_of_parse_error h)
  · rcases isAmong_of_ofStatements h with rfl | ⟨s, mem, cause, rfl⟩
    · exact .inl rfl
    · exact .inr ⟨s.line, cause, rfl, (said_of_mem parsed mem).hasLine⟩

end Program

/-! ## Lines of runs -/

namespace Execution

variable {p : Program} {c : Config} {e : Execution}

/-- A snapshot is on the line of the instruction that was executed. -/
theorem line_of_recorded {s : Snapshot} (h : (e.step p c).recorded = some s) :
    ∃ i, p.fetch? e.pc = some i ∧ s.line = i.line := by
  have stepping := stepping_step p c e
  generalize e.step p c = step at stepping h
  cases stepping with
  | idle => cases h
  | ended => cases h
  | limited => cases h
  | failed => cases h
  | executed _ fetched =>
    cases h
    exact ⟨_, fetched, rfl⟩

/-- A step that fails has an instruction, and does not go past it. -/
theorem nextLine_of_error {fault : Fault} (h : (e.step p c).answer = .error fault) :
    ∃ i, p.fetch? e.pc = some i ∧ (e.step p c).after.nextLine p = i.line := by
  have stepping := stepping_step p c e
  generalize e.step p c = step at stepping h
  cases stepping with
  | idle => cases h
  | ended => cases h
  | executed => cases h
  | limited _ fetched => exact ⟨_, fetched, nextLine_of_fetch fetched⟩
  | failed _ fetched => exact ⟨_, fetched, nextLine_of_fetch fetched⟩

end Execution

namespace Program

open Execution

variable {source : Source} {statements : List Statement} {p : Program} {c : Config} {f : RunFailure}

/-- A run that fails before its first instruction: after all the data words before it, one cannot be
written, and the line is that of the data statement with this word. -/
def FailsAtWord (source : Source) (p : Program) (c : Config) (f : RunFailure) : Prop :=
  ∃ k word m, p.data[k]? = some word ∧ loadData (Machine.new c) (p.data.take k) = .ok m ∧
    m.write word.address word.value = .error f.fault ∧ f.snapshots = [] ∧
    ∃ before values after j n,
      parse source = .ok (before ++ ⟨f.line, .data values⟩ :: after) ∧ k = wordCount before + j ∧
        values[j]? = some n ∧ Word.ofLiteral? n = some word.value

/-- A run that fails at an instruction: its snapshots lead to the instruction, which was to give the
next one, and the line is that of this instruction. -/
def FailsAtInstruction (p : Program) (c : Config) (f : RunFailure) : Prop :=
  ∃ m e i, loadData (Machine.new c) p.data = .ok m ∧
    Proceeds p c (loadedWith c m) f.snapshots e ∧ p.fetch? e.pc = some i ∧
    (e.step p c).answer = .error f.fault ∧ f.line = i.line

/-- Every snapshot has the line of an instruction. -/
theorem exists_instruction_of_snapshot :
    ∀ s ∈ snapshotsOf (p.run c), ∃ index i, p.fetch? index = some i ∧ s.line = i.line :=
  forall_snapshots (I := fun _ => True) (fun _ _ => trivial)
    fun e _ => ⟨trivial, fun _ recorded => ⟨e.pc, line_of_recorded recorded⟩⟩

/-- A run fails at a word of data or at an instruction. -/
theorem fails_cases (parsed : parse source = .ok statements) (r : Resolves statements p)
    (failed : p.run c = .error f) : FailsAtWord source p c f ∨ FailsAtInstruction p c f := by
  rcases run_cases p c (e := new c) (.inl rfl) with
    ⟨line, fault, loading, failed'⟩ | ⟨m, ss, e, loaded, proceeds, last, concluded⟩
  · cases failed.symm.trans failed'
    obtain ⟨k, word, m, hk, loaded, unwritten, rfl⟩ := exists_of_loadData_error loading
    obtain ⟨before, values, after, j, n, rfl, position, value, literal⟩ := r.exists_data hk
    exact .inl ⟨k, word, m, hk, loaded, unwritten, rfl, before, values, after, j, n, parsed,
      position, value, literal⟩
  · change conclusion? p (e.step p c) ss = some (p.run c) at concluded
    rw [failed] at concluded
    unfold conclusion? at concluded
    split at concluded
    · cases concluded
    · next fault answer =>
      have recorded : (e.step p c).recorded = none := (failed_of_error answer).2
      obtain ⟨i, fetched, line⟩ := nextLine_of_error answer
      rw [recorded, Option.toList_none, List.append_nil] at concluded
      cases concluded
      exact .inr ⟨m, e, i, loaded, proceeds, fetched, answer, line⟩
    · cases concluded

/-- Every line number that is reported is that of a line of the source text, and of the right one.
An assembly error is on a line of the text, unless there is no instruction at all. The instructions
of a program are those that their lines say, on lines that increase, so that a line has at most one
of them. Snapshots are on lines of the text, and a run that fails is on the line of the data
statement whose word could not be loaded or of the instruction that was to be executed next. -/
theorem reported_lines (source : Source) (c : Config) :
    (∀ e, assemble source = .error e →
      e = .emptyProgram ∨ ∃ line cause, e = .atLine line cause ∧ source.HasLine line) ∧
    ∀ p, assemble source = .ok p →
      (∀ index i, p.fetch? index = some i → ∃ s, source.Says s ∧ Decodes p.labels s i) ∧
      p.instructions.toList.Pairwise (·.line < ·.line) ∧
      (∀ j k i i', p.fetch? j = some i → p.fetch? k = some i' → i.line = i'.line → j = k) ∧
      (∀ s ∈ snapshotsOf (p.run c), source.HasLine s.line) ∧
      ∀ f, p.run c = .error f →
        source.HasLine f.line ∧ (FailsAtWord source p c f ∨ FailsAtInstruction p c f) := by
  refine ⟨fun e => hasLine_of_assemble_error, ?_⟩
  intro p assembled
  obtain ⟨statements, parsed, r⟩ := resolves_of_assemble assembled
  have stated : ∀ index i, p.fetch? index = some i → ∃ s, source.Says s ∧ Decodes p.labels s i :=
    fun _ _ => r.exists_statement parsed
  have hasLine {index : Nat} {i : Instruction} (fetched : p.fetch? index = some i) :
      source.HasLine i.line := by
    obtain ⟨s, said, -, -, -, -, line⟩ := stated index i fetched
    rw [line]
    exact said.hasLine
  have ascending := r.pairwise_line parsed
  refine ⟨stated, ascending, fun _ _ _ _ => eq_of_line_eq ascending, ?_, ?_⟩
  · intro s mem
    obtain ⟨index, i, fetched, line⟩ := exists_instruction_of_snapshot s mem
    rw [line]
    exact hasLine fetched
  · intro f failed
    have fails := fails_cases parsed r failed
    refine ⟨?_, fails⟩
    rcases fails with ⟨_, _, _, _, _, _, _, before, values, after, _, _, parsed, -⟩ |
      ⟨_, _, i, _, _, fetched, _, line⟩
    · exact (said_of_mem parsed (List.mem_append_right before List.mem_cons_self)).hasLine
    · rw [line]
      exact hasLine fetched

/-- The third of three words on line 2 that a memory of 2 has no room for. -/
theorem reported_lines_word :
    ∃ p f, assemble (.ofText "nop\nx: dw 1, 2, 3\nhlt") = .ok p ∧
      p.run { memorySize := 2 } = .error f ∧ f.line = 2 ∧
      FailsAtWord (.ofText "nop\nx: dw 1, 2, 3\nhlt") p { memorySize := 2 } f := by
  let p : Program :=
    { instructions := #[⟨1, .nop⟩, ⟨3, .hlt⟩]
      labels := ⟨[("x", .data 0)]⟩
      data := [⟨0, 1, 2⟩, ⟨1, 2, 2⟩, ⟨2, 3, 2⟩] }
  have assembled : assemble (.ofText "nop\nx: dw 1, 2, 3\nhlt") = .ok p := by decide +kernel
  have line : (p.run { memorySize := 2 }).mapError RunFailure.line = .error 2 := by decide +kernel
  cases failed : p.run { memorySize := 2 } with
  | ok t =>
    rw [failed] at line
    cases line
  | error f =>
    rw [failed] at line
    obtain ⟨-, -, -, -, failures⟩ := (reported_lines _ { memorySize := 2 }).2 p assembled
    refine ⟨p, f, assembled, failed, Except.error.inj line, (failures f failed).2.resolve_right ?_⟩
    rintro ⟨m, -, -, loaded, -⟩
    have unloaded : (loadData (Machine.new { memorySize := 2 }) p.data).isOk = false := by
      decide +kernel
    rw [loaded] at unloaded
    cases unloaded

end Program

end AsmTrace

import AsmTrace.Engine
import AsmTrace.Proofs.LineNumbers

/-!
# Renumbering lines

Line numbers are carried along and never looked at. Statements with other line numbers make up the
same program with these numbers (`ofStatements_renumber`), and its runs are the same but for them
(`run_renumber`). Lines that say nothing do no more than to give the others other numbers
(`parseLines_interspersed`), wherever they are inserted.
-/

namespace AsmTrace

open Assembly Result

/-! ## Other line numbers -/

variable (m : Nat → Nat)

def Statement.renumber (s : Statement) : Statement := { s with line := m s.line }

def Instruction.renumber (i : Instruction) : Instruction := { i with line := m i.line }

def DataWord.renumber (word : DataWord) : DataWord := { word with line := m word.line }

def Snapshot.renumber (s : Snapshot) : Snapshot := { s with line := m s.line }

def Assembly.Error.renumber : Error → Error
  | .atLine line cause => .atLine (m line) cause
  | .emptyProgram => .emptyProgram

def Program.renumber (p : Program) : Program :=
  { p with
    instructions := p.instructions.map (Instruction.renumber m)
    data := p.data.map (DataWord.renumber m) }

def Trace.renumber (t : Trace) : Trace :=
  { t with snapshots := t.snapshots.map (Snapshot.renumber m) }

def RunFailure.renumber (f : RunFailure) : RunFailure :=
  { f with line := m f.line, snapshots := f.snapshots.map (Snapshot.renumber m) }

def RunError.renumber : RunError → RunError
  | .load error => .load error
  | .assembly error => .assembly (error.renumber m)
  | .execution failure => .execution (failure.renumber m)

def Step.renumber (s : Step) : Step := { s with recorded := s.recorded.map (Snapshot.renumber m) }

/-! ## Assembling -/

/-- A cause on a line that is renumbered. -/
theorem mapError_atLine {α : Type} (x : Except Cause α) (line : Nat) :
    x.mapError (.atLine (m line)) = both (Error.renumber m) id (x.mapError (.atLine line)) := by
  cases x <;> rfl

/-- A line with another number is read as the same with that number. -/
theorem Line.parse_renumber (text : String) (n : Nat) :
    Line.parse text (m n) =
      both (Error.renumber m) (List.map (Statement.renumber m)) (Line.parse text n) := by
  unfold Line.parse
  cases bodies text with
  | error cause => rfl
  | ok bs => simp [both, Statement.renumber, Function.comp_def]

/-- Labels do not depend on line numbers. -/
theorem Assembly.Labels.ahead_renumber (ls : Labels) (index address : Nat)
    (statements : List Statement) :
    ls.ahead index address (statements.map (Statement.renumber m)) =
      both (Error.renumber m) id (ls.ahead index address statements) := by
  have target (index address : Nat) (rest : List Statement) :
      targetBefore index address (rest.map (Statement.renumber m)) =
        targetBefore index address rest := by
    induction rest with
    | nil => rfl
    | cons s rest ih =>
      obtain ⟨line, _ | _ | _⟩ := s
      · exact ih
      · rfl
      · rfl
  induction statements generalizing ls index address with
  | nil => rfl
  | cons s rest ih =>
    obtain ⟨line, body⟩ := s
    cases body with
    | label name =>
      simp only [List.map_cons, Statement.renumber, ahead, target]
      cases ls.define name (targetBefore index address rest) with
      | error cause => rfl
      | ok ls' => exact ih ls' index address
    | data values => exact ih ls index _
    | instruction opcode operands => exact ih ls (index + 1) address

namespace Program

/-- Renumbered data is laid out at the same addresses. -/
theorem layOut_renumber (line count : Nat) (values : List Int) :
    layOut (m line) count values =
      (layOut line count values).map (List.map (DataWord.renumber m)) := by
  induction values generalizing count with
  | nil => rfl
  | cons n rest ih =>
    simp only [layOut, ih]
    cases decodeImmediate n with
    | error cause => rfl
    | ok w =>
      cases layOut line (count + 1) rest with
      | error cause => rfl
      | ok words => rfl

/-- Renumbered statements are decoded as the renumbered program. -/
theorem decodeFrom_renumber (labels : Labels) (count : Nat) (statements : List Statement) :
    decodeFrom labels count (statements.map (Statement.renumber m)) =
      both (Error.renumber m)
        (Prod.map (List.map (Instruction.renumber m)) (List.map (DataWord.renumber m)))
        (decodeFrom labels count statements) := by
  induction statements generalizing count with
  | nil => rfl
  | cons s rest ih =>
    obtain ⟨line, body⟩ := s
    cases body with
    | label name => exact ih count
    | data values =>
      have words : (layOut (m line) count values).mapError (.atLine (m line)) =
          both (Error.renumber m) (List.map (DataWord.renumber m))
            ((layOut line count values).mapError (.atLine line)) := by
        rw [layOut_renumber]
        cases layOut line count values <;> rfl
      simp only [List.map_cons, Statement.renumber, decodeFrom]
      rw [words, ih]
      refine both_bind _ fun ws => both_bind _ fun decoded => ?_
      simp [both, pure, Except.pure]
    | instruction opcode operands =>
      simp only [List.map_cons, Statement.renumber, decodeFrom]
      rw [mapError_atLine, ih]
      exact both_bind _ fun op => both_bind _ fun decoded => rfl

/-- They make the renumbered program, or fail with the renumbered error. -/
theorem ofStatements_renumber (statements : List Statement) :
    ofStatements (statements.map (Statement.renumber m)) =
      both (Error.renumber m) (Program.renumber m) (ofStatements statements) := by
  unfold ofStatements
  rw [Labels.collect_eq_ahead, Labels.collect_eq_ahead, Labels.ahead_renumber]
  refine both_bind _ fun labels => ?_
  simp only [id]
  rw [decodeFrom_renumber]
  refine both_bind _ fun decoded => ?_
  obtain ⟨instructions, data⟩ := decoded
  cases instructions with
  | nil => rfl
  | cons i is => simp [both, pure, Except.pure, renumber]

end Program

/-! ## Running -/

@[simp] theorem Program.fetch?_renumber (p : Program) (index : Nat) :
    (p.renumber m).fetch? index = (p.fetch? index).map (Instruction.renumber m) :=
  Array.getElem?_map

@[simp] theorem Program.size_renumber (p : Program) : (p.renumber m).size = p.size := Array.size_map

namespace Execution

variable {p : Program} {c : Config} {e e₁ : Execution} {ss : List Snapshot}

/-- An instruction does the same whatever its line. -/
@[simp] theorem perform_renumber (size : Nat) (i : Instruction) (e : Execution) :
    perform size (i.renumber m) e = (perform size i e).renumber m := by
  simp only [perform, Instruction.renumber]
  cases (i.operation.execute size e.pc e.machine e.callDepth).control with
  | error fault => rfl
  | ok control => rfl

/-- A step does the same, and its snapshot has the new number. -/
@[simp] theorem step_renumber (p : Program) (c : Config) (e : Execution) :
    e.step (p.renumber m) c = (e.step p c).renumber m := by
  by_cases active : e.Active
  · rw [step_of_active active, step_of_active active]
    unfold advance
    rw [Program.fetch?_renumber, Program.size_renumber]
    cases p.fetch? e.pc with
    | none => rfl
    | some i =>
      dsimp only [Option.map_some]
      split
      · exact perform_renumber m p.size i _
      · rfl
  · rw [step_of_not_active active, step_of_not_active active]
    rfl

/-- The renumbered program makes the same steps. -/
theorem Proceeds.renumber (h : Proceeds p c e ss e₁) :
    Proceeds (p.renumber m) c e (ss.map (Snapshot.renumber m)) e₁ := by
  induction h with
  | refl e => exact .refl e
  | cons goes _ ih =>
    refine .cons ?_ ih
    rw [Goes, step_renumber, show _ = _ from goes]
    rfl

/-- Renumbered data is loaded alike. -/
theorem loadData_renumber (machine : Machine) (words : List DataWord) :
    loadData machine (words.map (DataWord.renumber m)) =
      both (Prod.map m id) id (loadData machine words) := by
  induction words generalizing machine with
  | nil => rfl
  | cons word words ih =>
    simp only [List.map_cons, loadData, DataWord.renumber]
    cases machine.write word.address word.value with
    | error fault => rfl
    | ok machine => exact ih machine

/-- The line of a failure is looked up where there is an instruction. -/
theorem conclusion?_renumber (p : Program) (c : Config) (e : Execution) (ss : List Snapshot) :
    conclusion? (p.renumber m) (e.step (p.renumber m) c) (ss.map (Snapshot.renumber m)) =
      (conclusion? p (e.step p c) ss).map (both (RunFailure.renumber m) (Trace.renumber m)) := by
  have recorded : ss.map (Snapshot.renumber m) ++ ((e.step p c).renumber m).recorded.toList =
      (ss ++ (e.step p c).recorded.toList).map (Snapshot.renumber m) := by
    cases same : (e.step p c).recorded <;> simp [Step.renumber, same]
  cases answer : (e.step p c).answer with
  | error fault =>
    have answer' : (e.step (p.renumber m) c).answer = .error fault := by
      rw [step_renumber]
      exact answer
    obtain ⟨i, fetched, line⟩ := nextLine_of_error answer
    obtain ⟨i', fetched', line'⟩ := nextLine_of_error answer'
    rw [Program.fetch?_renumber, fetched] at fetched'
    cases fetched'
    simp only [conclusion?, answer, answer', line, line']
    rw [step_renumber, recorded]
    rfl
  | ok status =>
    rw [step_renumber]
    have answer' : ((e.step p c).renumber m).answer = .ok status := answer
    simp only [conclusion?, answer, answer', recorded]
    cases status <;> rfl

end Execution

open Execution in
/-- A run is the same but for the line numbers that it reports. -/
theorem Program.run_renumber (p : Program) (c : Config) :
    (p.renumber m).run c = both (RunFailure.renumber m) (Trace.renumber m) (p.run c) := by
  have data : (p.renumber m).data = p.data.map (DataWord.renumber m) := rfl
  rcases run_cases p c (e := new c) (.inl rfl) with
    ⟨line, fault, loading, failed⟩ | ⟨machine, ss, e, loaded, proceeds, -, concluded⟩
  · have loading' : loadData (new c).machine (p.renumber m).data = .error (m line, fault) := by
      rw [data, loadData_renumber, loading]
      rfl
    rw [Program.run, Program.run, run_of_loading loading', failed]
    rfl
  · have loaded' : loadData (new c).machine (p.renumber m).data = .ok machine := by
      rw [data, loadData_renumber, loaded]
      rfl
    refine run_of_proceeds loaded' (proceeds.renumber m) ?_
    rw [conclusion?_renumber, concluded]
    rfl

/-! ## Inserting lines -/

/-- `Spaced m old new` holds when `new` is `old` with lines inserted that say nothing. Line `n` of
`old` has become line `m n`. -/
structure Source.Spaced (old new : Source) : Prop where
  increasing : ∀ j k, old.HasLine j → old.HasLine k → j < k → m j < m k
  kept : ∀ n text, old.line? n = some text → new.line? (m n) = some text
  inserted : ∀ n text, new.line? n = some text →
    (∃ k, old.HasLine k ∧ m k = n) ∨ Line.parse text n = .ok []

/-- Numbered lines, and the same with others inserted, one after the other. -/
inductive Interspersed : List (Nat × String) → List (Nat × String) → Prop
  | nil : Interspersed [] []
  | keep {n : Nat} {text : String} {lines lines' : List (Nat × String)} :
      Interspersed lines lines' → Interspersed ((n, text) :: lines) ((m n, text) :: lines')
  | insert {n : Nat} {text : String} {lines lines' : List (Nat × String)} :
      Line.parse text n = .ok [] → Interspersed lines lines' →
      Interspersed lines ((n, text) :: lines')

variable {m}

/-- Where each line has come to tells which lines were inserted. -/
theorem interspersed_of_ascending {lines lines' : List (Nat × String)}
    (increasing : lines.Pairwise fun a b => m a.1 < m b.1)
    (ascending : lines'.Pairwise fun a b => a.1 < b.1)
    (kept : ∀ line ∈ lines, (m line.1, line.2) ∈ lines')
    (inserted : ∀ line ∈ lines',
      (∃ old ∈ lines, m old.1 = line.1) ∨ Line.parse line.2 line.1 = .ok []) :
    Interspersed m lines lines' := by
  induction lines' generalizing lines with
  | nil =>
    cases lines with
    | nil => exact .nil
    | cons line lines => cases kept line List.mem_cons_self
  | cons line' lines' ih =>
    obtain ⟨n, text⟩ := line'
    obtain ⟨first, rest⟩ := List.pairwise_cons.1 ascending
    by_cases here : ∃ old ∈ lines, m old.1 = n
    · -- the earliest of the old lines is the one that has come to `n`
      obtain ⟨old, inOld, rfl⟩ := here
      cases lines with
      | nil => cases inOld
      | cons line lines =>
        obtain ⟨before, increasing⟩ := List.pairwise_cons.1 increasing
        have head : (m line.1, line.2) = (m old.1, text) := by
          rcases List.mem_cons.1 (kept line List.mem_cons_self) with same | later
          · exact same
          · have after := first _ later
            rcases List.mem_cons.1 inOld with rfl | inOld
            · exact absurd after (Nat.lt_irrefl _)
            · exact absurd (before old inOld) (Nat.lt_asymm after)
        rw [← head] at first ⊢
        refine .keep (ih increasing rest ?_ ?_)
        · intro line₁ mem
          rcases List.mem_cons.1 (kept line₁ (List.mem_cons_of_mem _ mem)) with same | later
          · have number : m line₁.1 = m line.1 := congrArg Prod.fst (same.trans head.symm)
            exact absurd (before line₁ mem) (by omega)
          · exact later
        · intro line₁ mem
          refine (inserted line₁ (List.mem_cons_of_mem _ mem)).imp_left ?_
          rintro ⟨old₁, mem₁, number⟩
          rcases List.mem_cons.1 mem₁ with rfl | mem₁
          · exact absurd (first line₁ mem) (by omega)
          · exact ⟨old₁, mem₁, number⟩
    · have nothing := (inserted (n, text) List.mem_cons_self).resolve_left here
      refine .insert nothing (ih increasing rest ?_ ?_)
      · intro line mem
        rcases List.mem_cons.1 (kept line mem) with same | later
        · exact absurd ⟨line, mem, congrArg Prod.fst same⟩ here
        · exact later
      · intro line mem
        exact inserted line (List.mem_cons_of_mem _ mem)

/-- Spacing a source puts lines without statements between its own. -/
theorem Source.Spaced.interspersed {old new : Source} (h : old.Spaced m new) :
    Interspersed m old.numbered new.numbered := by
  refine interspersed_of_ascending ?_ new.pairwise_numbered ?_ ?_
  · refine old.pairwise_numbered.imp_of_mem ?_
    intro a b memA memB lt
    exact h.increasing _ _ (hasLine_of_line? (mem_numbered.1 memA))
      (hasLine_of_line? (mem_numbered.1 memB)) lt
  · rintro ⟨n, text⟩ mem
    exact mem_numbered.2 (h.kept n text (mem_numbered.1 mem))
  · rintro ⟨n, text⟩ mem
    refine (h.inserted n text (mem_numbered.1 mem)).imp_left ?_
    rintro ⟨k, hasLine, rfl⟩
    obtain ⟨old, line⟩ := exists_line? hasLine
    exact ⟨(k, old), mem_numbered.2 line, rfl⟩

namespace Program

/-- The statements of numbered lines. -/
def parseLines (lines : List (Nat × String)) : Except Error (List Statement) :=
  (lines.mapM fun (n, text) => Line.parse text n).map List.flatten

theorem parseLines_cons (n : Nat) (text : String) (lines : List (Nat × String)) :
    parseLines ((n, text) :: lines) = do
      let group ← Line.parse text n
      let rest ← parseLines lines
      return group ++ rest := by
  simp only [parseLines, List.mapM_cons]
  cases Line.parse text n with
  | error e => rfl
  | ok group =>
    cases lines.mapM fun (n, text) => Line.parse text n with
    | error e => rfl
    | ok groups => rfl

/-- Lines that say nothing add no statement and take none away. -/
theorem parseLines_interspersed {lines lines' : List (Nat × String)}
    (h : Interspersed m lines lines') :
    parseLines lines' =
      both (Error.renumber m) (List.map (Statement.renumber m)) (parseLines lines) := by
  induction h with
  | nil => rfl
  | keep _ ih =>
    rw [parseLines_cons, parseLines_cons, Line.parse_renumber, ih]
    refine both_bind _ fun group => both_bind _ fun rest => ?_
    simp [both, pure, Except.pure]
  | @insert n text lines lines' nothing _ ih =>
    rw [parseLines_cons, nothing, ← ih]
    cases parseLines lines' with
    | error e => rfl
    | ok statements => rfl

end Program

namespace Source

variable {old new : Source}

/-- A spaced source is assembled as the renumbered program. -/
theorem Spaced.assemble (h : old.Spaced m new) :
    Program.assemble new = both (Error.renumber m) (Program.renumber m) (Program.assemble old) := by
  change Program.parseLines new.numbered >>= _ = both _ _ (Program.parseLines old.numbered >>= _)
  rw [Program.parseLines_interspersed h.interspersed]
  exact both_bind _ (Program.ofStatements_renumber m)

/-- A source that is assembled as the renumbered program has the renumbered run. -/
theorem run_of_assemble
    (h : Program.assemble new = both (Error.renumber m) (Program.renumber m) (Program.assemble old))
    (c : Config) :
    new.run c = both (RunError.renumber m) (Prod.map (Program.renumber m) (Trace.renumber m))
      (old.run c) := by
  have assembly : ∀ e, .assembly (Error.renumber m e) = RunError.renumber m (.assembly e) :=
    fun _ => rfl
  have execution : ∀ f, .execution (RunFailure.renumber m f) = RunError.renumber m (.execution f) :=
    fun _ => rfl
  unfold Source.run
  rw [h, mapError_both assembly]
  refine both_bind _ fun p => ?_
  rw [Program.run_renumber, mapError_both execution]
  exact both_bind _ fun t => rfl

/-- Lines that say nothing can be inserted anywhere. Assembling gives the same error or the same
program, and running the same error or the same program and trace, with every line number moved to
where the line has come to. -/
theorem run_spaced (spaced : old.Spaced m new) :
    Program.assemble new = both (Error.renumber m) (Program.renumber m) (Program.assemble old) ∧
    ∀ c, new.run c =
      both (RunError.renumber m) (Prod.map (Program.renumber m) (Trace.renumber m)) (old.run c) :=
  ⟨spaced.assemble, run_of_assemble spaced.assemble⟩

/-- A division by zero that blank lines and comments move from line 2 to line 5. -/
theorem run_spaced_division :
    ∃ (m : Nat → Nat) (old new : Source), old = .ofText "jmp x\nx: idiv bx" ∧
      new = .ofText "; first\n\njmp x\n\t; then\nx: idiv bx\n" ∧ old.Spaced m new ∧
      (old.run {}).mapError RunError.line? = .error (some 2) ∧
      (new.run {}).mapError RunError.line? = .error (some 5) ∧
      new.run {} = both (RunError.renumber m) (Prod.map (Program.renumber m) (Trace.renumber m))
        (old.run {}) := by
  let old : Source := .ofText "jmp x\nx: idiv bx"
  let new : Source := .ofText "; first\n\njmp x\n\t; then\nx: idiv bx\n"
  let m (n : Nat) : Nat := if n = 1 then 3 else 5
  have lines : old.lines = ["jmp x", "x: idiv bx"] := by decide +kernel
  have lines' : new.lines = ["; first", "", "jmp x", "\t; then", "x: idiv bx"] := by decide +kernel
  have count : old.lineCount = 2 := congrArg List.length lines
  have count' : new.lineCount = 5 := congrArg List.length lines'
  have spaced : old.Spaced m new := by
    refine ⟨?_, ?_, ?_⟩
    · rintro j k ⟨pos, -⟩ ⟨-, le⟩ lt
      rw [count] at le
      obtain ⟨rfl, rfl⟩ : j = 1 ∧ k = 2 := by omega
      decide
    · intro n text h
      obtain ⟨pos, le⟩ := hasLine_of_line? h
      rw [count] at le
      obtain rfl | rfl : n = 1 ∨ n = 2 := by omega
      all_goals
        simp only [line?, lines] at h
        cases h
        simp only [m, line?, lines']
        rfl
    · intro n text h
      obtain ⟨pos, le⟩ := hasLine_of_line? h
      rw [count'] at le
      have hasLine : ∀ k, 1 ≤ k → k ≤ 2 → old.HasLine k := fun k pos le => ⟨pos, count ▸ le⟩
      obtain rfl | rfl | (rfl | rfl | rfl) : n = 3 ∨ n = 5 ∨ n = 1 ∨ n = 2 ∨ n = 4 := by omega
      · exact .inl ⟨1, hasLine 1 (by decide) (by decide), rfl⟩
      · exact .inl ⟨2, hasLine 2 (by decide) (by decide), rfl⟩
      all_goals
        simp only [line?, lines'] at h
        cases h
        exact .inr (by decide +kernel)
  exact ⟨m, old, new, rfl, rfl, spaced, by decide +kernel, by decide +kernel,
    (run_spaced spaced).2 {}⟩

end Source

end AsmTrace

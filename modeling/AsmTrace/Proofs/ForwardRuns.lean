import AsmTrace.Proofs.History
import AsmTrace.Proofs.LineNumbers
import AsmTrace.Proofs.StepLimit

/-!
# Programs that only go forward

Without calls there is nothing to return to, so a return ends the program, and if all targets lie
ahead every step that goes on leads further into the program. What a run records is then part of
what lay ahead of it (`Proceeds.sublist_remaining`), from which its length and the order of its
lines follow. If no instruction leads anywhere but to the next, it is all of what lay ahead
(`Proceeds.eq_remaining`).
-/

namespace AsmTrace

namespace Program

variable {p : Program} {pc : Nat} {i : Instruction}

/-- The program has no call, and every target lies ahead of the instruction that names it. -/
def Forward (p : Program) : Prop :=
  ∀ index i, p.fetch? index = some i →
    i.opcode ≠ .call ∧ ∀ target, i.operation.target? = some target → index < target

/-- The program has no jump, loop or call and neither returns nor halts. -/
def Straight (p : Program) : Prop :=
  ∀ index i, p.fetch? index = some i →
    i.operation.target? = none ∧ i.opcode ≠ .ret ∧ i.opcode ≠ .hlt

/-- The lines of the instructions from an index on. -/
def remaining (p : Program) (pc : Nat) : List Nat :=
  (p.instructions.toList.drop pc).map Instruction.line

theorem drop_of_fetch (fetched : p.fetch? pc = some i) :
    p.instructions.toList.drop pc = i :: p.instructions.toList.drop (pc + 1) := by
  obtain ⟨lt, rfl⟩ := Array.getElem?_eq_some_iff.1 fetched
  rw [List.drop_eq_getElem_cons (by simpa using lt), Array.getElem_toList]

theorem remaining_of_fetch (fetched : p.fetch? pc = some i) :
    p.remaining pc = i.line :: p.remaining (pc + 1) := by
  rw [remaining, drop_of_fetch fetched, List.map_cons, remaining]

theorem remaining_of_beyond (beyond : p.fetch? pc = none) : p.remaining pc = [] := by
  have le := Array.getElem?_eq_none_iff.1 beyond
  rw [remaining, List.drop_eq_nil_of_le (by simpa using le), List.map_nil]

theorem sublist_remaining {pc' : Nat} (le : pc ≤ pc') :
    (p.remaining pc').Sublist (p.remaining pc) :=
  (List.drop_sublist_drop_left _ le).map Instruction.line

theorem length_remaining_zero (p : Program) : (p.remaining 0).length = p.size := by
  simp [remaining, size]

end Program

/-! ## Steps -/

theorem Operation.depthAfter_zero {op : Operation} (notCall : op.opcode ≠ .call) :
    depthAfter 0 op = 0 := by
  cases op with
  | call target => exact absurd rfl notCall
  | _ => rfl

/-- An operation that is no jump, loop or call and neither returns nor halts. -/
def Operation.Plain (op : Operation) : Prop :=
  op.target? = none ∧ op.opcode ≠ .ret ∧ op.opcode ≠ .hlt

/-- Unless it fails, such an operation leads to the next instruction. -/
theorem Operation.Plain.next {op : Operation} {size index depth : Nat} {m : Machine} {k : Control}
    (plain : op.Plain) (control : (op.execute size index m depth).control = .ok k) : k = .next := by
  obtain ⟨noTarget, notRet, notHlt⟩ := plain
  cases k with
  | next => rfl
  | jump target =>
    rcases target_of_jump control with jumps | ⟨returns, -⟩
    · cases noTarget.symm.trans jumps
    · exact absurd (congrArg Operation.opcode returns) notRet
  | halt reason =>
    rcases halt_iff.1 control with ⟨halts, -⟩ | ⟨⟨returns, -⟩, -⟩
    · exact absurd (congrArg Operation.opcode halts) notHlt
    · exact absurd (congrArg Operation.opcode returns) notRet

namespace Execution

variable {p : Program} {c : Config} {e e₁ : Execution} {i : Instruction} {s : Snapshot}
  {ss : List Snapshot}

/-- If no call is open, a step that goes on leads ahead, and opens none. -/
theorem Goes.forward (forward : p.Forward) (outermost : e.callDepth = 0) (goes : Goes p c e s e₁) :
    e.pc < e₁.pc ∧ e₁.callDepth = 0 := by
  obtain ⟨-, -, i, k, fetched, control, rfl, running, -⟩ := goes.performed
  obtain ⟨notCall, targets⟩ := forward e.pc i fetched
  constructor
  · cases k with
    | next => exact Nat.lt_succ_self e.pc
    | jump target =>
      rcases Operation.target_of_jump control with jumps | ⟨returns, -⟩
      · exact targets target jumps
      · -- with no call open, a return halts
        have halts : (e.effectOf p i).control = .ok (.halt .ret) :=
          Operation.halt_iff.2 (.inr ⟨⟨returns, outermost⟩, rfl⟩)
        cases halts.symm.trans control
    | halt reason => cases running
  · rw [performed_callDepth, effectOf, Operation.callDepth_execute control, outermost]
    exact Operation.depthAfter_zero notCall

/-- In a straight program every instruction leads to the next. -/
theorem next_of_straight (straight : p.Straight) (fetched : p.fetch? e.pc = some i) {k : Control}
    (control : (e.effectOf p i).control = .ok k) : k = .next :=
  Operation.Plain.next (straight e.pc i fetched) control

/-! ## Runs -/

/-- What a chain records, followed by what still lies ahead, is part of what lay ahead of it. -/
theorem Proceeds.sublist_remaining (forward : p.Forward) (outermost : e.callDepth = 0)
    (h : Proceeds p c e ss e₁) :
    (ss.map Snapshot.line ++ p.remaining e₁.pc).Sublist (p.remaining e.pc) := by
  induction h with
  | refl => exact List.Sublist.refl _
  | @cons e e₁ e₂ s ss goes _ ih =>
    obtain ⟨ahead, outermost⟩ := goes.forward forward outermost
    obtain ⟨-, -, i, -, fetched, -, -, -, recorded⟩ := goes.performed
    rw [Program.remaining_of_fetch fetched, recorded]
    exact ((ih outermost).trans (Program.sublist_remaining ahead)).cons_cons i.line

/-- In a straight program it is all of it. -/
theorem Proceeds.eq_remaining (straight : p.Straight) (h : Proceeds p c e ss e₁) :
    ss.map Snapshot.line ++ p.remaining e₁.pc = p.remaining e.pc := by
  induction h with
  | refl => rfl
  | @cons e e₁ e₂ s ss goes _ ih =>
    obtain ⟨-, -, i, k, fetched, control, rfl, -, rfl⟩ := goes.performed
    cases next_of_straight straight fetched control
    rw [Program.remaining_of_fetch fetched, List.map_cons, List.cons_append, ih]
    rfl

/-- The last step records no more than the next instruction. -/
theorem recorded_sublist_remaining (p : Program) (c : Config) (e : Execution) :
    ((e.step p c).recorded.toList.map Snapshot.line).Sublist (p.remaining e.pc) := by
  cases recorded : (e.step p c).recorded with
  | none => exact List.nil_sublist _
  | some s =>
    obtain ⟨i, fetched, line⟩ := line_of_recorded recorded
    rw [Program.remaining_of_fetch fetched, ← line]
    exact (List.nil_sublist _).cons_cons s.line

/-- A forward program that comes to a further instruction has recorded less than its size. -/
theorem Proceeds.length_lt (forward : p.Forward) {m : Machine}
    (h : Proceeds p c (loadedWith c m) ss e₁)
    (fetched : p.fetch? e₁.pc = some i) : ss.length < p.size := by
  have le := (h.sublist_remaining forward rfl).length_le
  have size : (p.remaining (loadedWith c m).pc).length = p.size := p.length_remaining_zero
  rw [size, Program.remaining_of_fetch fetched] at le
  simp only [List.length_append, List.length_map, List.length_cons] at le
  omega

/-- A straight program can end only after its last instruction. -/
theorem ended_of_straight (straight : p.Straight) {t : Trace} (active : e.Active)
    (h : conclusion? p (e.step p c) ss = some (.ok t)) :
    p.fetch? e.pc = none ∧ t.snapshots = ss ∧ t.haltReason = some .endOfProgram := by
  have stepping := stepping_step p c e
  generalize e.step p c = s at stepping h
  cases stepping with
  | idle inactive => exact absurd active inactive
  | ended _ beyond =>
    cases h
    exact ⟨beyond, List.append_nil ss, rfl⟩
  | limited => cases h
  | failed => cases h
  | executed _ fetched _ control =>
    cases next_of_straight straight fetched control
    cases h

end Execution

namespace Program

open Execution

variable {p : Program}

/-- A run of a forward program records some of its instructions, in their order. -/
theorem Forward.sublist_run (forward : p.Forward) (c : Config) :
    ((snapshotsOf (p.run c)).map Snapshot.line).Sublist (p.remaining 0) := by
  rcases run_cases p c (e := new c) (.inl rfl) with
    ⟨line, fault, -, failed⟩ | ⟨m, ss, e₁, -, proceeds, -, concluded⟩
  · rw [Program.run, failed]
    exact List.nil_sublist _
  · have ahead : (ss.map Snapshot.line ++ p.remaining e₁.pc).Sublist (p.remaining 0) :=
      proceeds.sublist_remaining forward rfl
    rw [Program.run, snapshotsOf_conclusion concluded, List.map_append]
    exact ((recorded_sublist_remaining p c e₁).append_left _).trans ahead

/-- A limit of the size of a forward program is never exceeded. -/
theorem Forward.not_limited (forward : p.Forward) {c : Config} (enough : p.size ≤ c.stepLimit)
    {f : RunFailure} (failed : p.run c = .error f) (limit : Nat) :
    f.fault ≠ .stepLimitExceeded limit := by
  intro limited
  rcases run_cases p c (e := new c) (.inl rfl) with
    ⟨line, fault, loading, failed'⟩ | ⟨m, ss, e₁, -, proceeds, -, concluded⟩
  · cases failed.symm.trans failed'
    exact loadData_notLimited p.data loading limit (congrArg Except.error limited)
  · change _ = some (p.run c) at concluded
    rw [failed] at concluded
    rcases conclusion_cases (proceeds.active (.inl rfl)) concluded with
      ⟨-, t, ht, -⟩ | ⟨i, fetched, ⟨reached, -⟩ | ⟨-, line, fault, other, hf⟩ | ⟨-, t, ht, -⟩⟩
    · cases ht
    · -- the limit is checked before the instruction is executed, which is not in `ss` yet
      have lt := proceeds.length_lt forward fetched
      have steps : e₁.steps = ss.length := proceeds.steps_eq.trans (Nat.zero_add _)
      omega
    · cases hf
      exact other limit (congrArg Except.error limited)
    · cases ht

/-- A run of a straight program that does not fail records all of its instructions. -/
theorem Straight.run_eq (straight : p.Straight) {c : Config} {t : Trace} (ok : p.run c = .ok t) :
    t.snapshots.map Snapshot.line = p.remaining 0 ∧ t.haltReason = some .endOfProgram := by
  rcases run_cases p c (e := new c) (.inl rfl) with
    ⟨line, fault, -, failed⟩ | ⟨m, ss, e₁, -, proceeds, -, concluded⟩
  · cases ok.symm.trans failed
  · change _ = some (p.run c) at concluded
    rw [ok] at concluded
    obtain ⟨beyond, rfl, reason⟩ :=
      ended_of_straight straight (proceeds.active (.inl rfl)) concluded
    have all := proceeds.eq_remaining straight
    rw [remaining_of_beyond beyond, List.append_nil] at all
    exact ⟨all, reason⟩

/-- An assembled program without calls whose targets all lie ahead runs through once: the lines of
the snapshots, in a complete trace or a partial one, ascend, there are at most as many as
instructions, and a limit of that many steps is not exceeded. If it has no jumps, loops, returns and
halts either, a run that does not fail records every instruction once, in the order of the program,
and ends after the last. -/
theorem forward_runs_once {source : Source} {p : Program} (assembled : assemble source = .ok p)
    (forward : p.Forward) (c : Config) :
    ((snapshotsOf (p.run c)).map Snapshot.line).Pairwise (· < ·) ∧
    (snapshotsOf (p.run c)).length ≤ p.size ∧
    (p.size ≤ c.stepLimit →
      ∀ f, p.run c = .error f → ∀ limit, f.fault ≠ .stepLimitExceeded limit) ∧
    (p.Straight → ∀ t, p.run c = .ok t →
      t.snapshots.map Snapshot.line = p.instructions.toList.map Instruction.line ∧
      t.haltReason = some .endOfProgram) := by
  obtain ⟨statements, parsed, r⟩ := resolves_of_assemble assembled
  have ascending : (p.remaining 0).Pairwise (· < ·) := List.pairwise_map.2 (r.pairwise_line parsed)
  have part := forward.sublist_run c
  refine ⟨ascending.sublist part, ?_, fun enough _ => forward.not_limited enough,
    fun straight _ => straight.run_eq⟩
  have le := part.length_le
  rwa [List.length_map, length_remaining_zero] at le

/-- A loop that leads ahead over an instruction, and a straight program around a data word, each
with a limit of its size. -/
theorem forward_runs_once_exact :
    (∃ p, assemble (.ofText "loop a\nnop\na: ret") = .ok p ∧ p.Forward ∧ p.size = 3 ∧
      (snapshotsOf (p.run { stepLimit := 3 })).map Snapshot.line = [1, 3] ∧
      ((snapshotsOf (p.run { stepLimit := 3 })).map Snapshot.line).Pairwise (· < ·) ∧
      ∀ f, p.run { stepLimit := 3 } = .error f → ∀ limit, f.fault ≠ .stepLimitExceeded limit) ∧
    ∃ p t, assemble (.ofText "inc ax\nx: dw 2\ncqo") = .ok p ∧ p.Straight ∧ p.size = 2 ∧
      p.run { stepLimit := 2 } = .ok t ∧ t.snapshots.map Snapshot.line = [1, 3] ∧
      t.haltReason = some .endOfProgram := by
  constructor
  · let p : Program :=
      { instructions := #[⟨1, .loop 2⟩, ⟨2, .nop⟩, ⟨3, .ret⟩]
        labels := ⟨[("a", .code 2)]⟩
        data := [] }
    have assembled : assemble (.ofText "loop a\nnop\na: ret") = .ok p := by decide +kernel
    have forward : p.Forward := by
      rintro (_ | _ | _ | index) i ⟨⟩
      · exact ⟨by decide, fun target h => by cases h; decide⟩
      all_goals exact ⟨by decide, nofun⟩
    obtain ⟨ascending, -, unlimited, -⟩ := forward_runs_once assembled forward { stepLimit := 3 }
    exact ⟨p, assembled, forward, rfl, by decide +kernel, ascending, unlimited (by decide)⟩
  · let p : Program :=
      { instructions := #[⟨1, .unary .inc (.register .ax)⟩, ⟨3, .cqo⟩]
        labels := ⟨[("x", .data 0)]⟩
        data := [⟨0, 2, 2⟩] }
    have assembled : assemble (.ofText "inc ax\nx: dw 2\ncqo") = .ok p := by decide +kernel
    have forward : p.Forward := by
      rintro (_ | _ | index) i ⟨⟩
      all_goals exact ⟨by decide, nofun⟩
    have straight : p.Straight := by
      rintro (_ | _ | index) i ⟨⟩
      all_goals exact ⟨rfl, by decide, by decide⟩
    have ok : (p.run { stepLimit := 2 }).isOk := by decide +kernel
    cases ran : p.run { stepLimit := 2 } with
    | error f =>
      rw [ran] at ok
      cases ok
    | ok t =>
      obtain ⟨-, -, -, all⟩ := forward_runs_once assembled forward { stepLimit := 2 }
      exact ⟨p, t, assembled, straight, rfl, ran, all straight t ran⟩

end Program

end AsmTrace

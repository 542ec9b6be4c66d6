import AsmTrace.Proofs.Bookkeeping
import AsmTrace.Proofs.Endings
import AsmTrace.Proofs.OpenCalls

/-!
# The history of a run

The instructions that a run executes, each with the execution after it. Along a history the call
depth is the number of open calls, so an instruction halts the run if and only if it is a halt, or a
return with no open call before it (`halted_iff_of_history`). A run goes on after every instruction
but the last; how it ends is told by the last one (`tells_run`).
-/

namespace AsmTrace

/-! ## Calls, returns and halts -/

namespace Operation

variable {m : Machine} {size index depth : Nat} {op : Operation}

@[simp] theorem callDepth_ofChange (x : Except Fault Machine) :
    (Effect.ofChange m depth x).callDepth = depth := by
  cases x <;> rfl

/-- A change of the machine does not halt. -/
theorem ofChange_ne_halt (x : Except Fault Machine) (reason : HaltReason) :
    (Effect.ofChange m depth x).control ≠ .ok (.halt reason) := by
  cases x with
  | ok m' => simp [Effect.ofChange]
  | error fault => simp [Effect.ofChange]

/-- A return that succeeds closes a call, if one is open. -/
theorem callDepth_leave {k : Control} (h : (leave m depth size).control = .ok k) :
    (leave m depth size).callDepth = depth - 1 := by
  unfold leave at h ⊢
  cases depth with
  | zero => rfl
  | succ depth =>
    dsimp only at h ⊢
    split at h
    · cases h
    · split <;> rfl

/-- A return halts exactly if no call is open. -/
theorem halt_leave_iff {reason : HaltReason} :
    (leave m depth size).control = .ok (.halt reason) ↔ depth = 0 ∧ reason = .ret := by
  unfold leave
  cases depth with
  | zero => simp [eq_comm]
  | succ depth =>
    dsimp only
    split
    · simp
    · split <;> simp

/-- An operation that does not fail counts the open calls on. -/
theorem callDepth_execute {k : Control} (h : (op.execute size index m depth).control = .ok k) :
    (op.execute size index m depth).callDepth = depthAfter depth op := by
  cases op with
  | mov | push | binary | imul | idiv | cqo | unary | shift | compare => exact callDepth_ofChange _
  | pop dst =>
    simp only [execute, popInto]
    split
    · rfl
    · exact callDepth_ofChange _
  | jump | loop | nop | hlt => rfl
  | call target =>
    simp only [execute, enter] at h ⊢
    split at h
    · rfl
    · cases h
  | ret => exact callDepth_leave h

/-- A halt ends the program, and so does a return when no call is open. -/
theorem halt_iff {reason : HaltReason} :
    (op.execute size index m depth).control = .ok (.halt reason) ↔
      op = .hlt ∧ reason = .hlt ∨ (op = .ret ∧ depth = 0) ∧ reason = .ret := by
  cases op with
  | mov | push | binary | imul | idiv | cqo | unary | shift | compare =>
    simp only [reduceCtorEq, false_and, or_self, iff_false]
    exact ofChange_ne_halt _ reason
  | pop dst =>
    simp only [execute, popInto, reduceCtorEq, false_and, or_self, iff_false]
    split
    · simp
    · exact ofChange_ne_halt _ reason
  | jump condition target =>
    simp only [execute]
    split <;> simp
  | loop target =>
    simp only [execute, countDown]
    split <;> simp
  | call target =>
    simp only [execute, enter]
    split <;> simp
  | ret =>
    simp only [execute, reduceCtorEq, false_and, true_and, false_or]
    exact halt_leave_iff
  | nop => simp [execute]
  | hlt => simp [execute, eq_comm]

end Operation

namespace Execution

variable {p : Program} {c : Config} {e e₁ : Execution} {i : Instruction}

@[simp] theorem performed_halted_iff {k : Control} {reason : HaltReason} :
    (e.performed p i k).status = .halted reason ↔ k = .halt reason := by
  cases k <;> simp

/-- Nothing is executed once the execution has ended. -/
theorem executes?_of_not_active (h : ¬ e.Active) : e.executes? p c = none :=
  if_neg fun executes => h executes.1

/-- What it takes for a step to execute an instruction. -/
theorem performed_of_executes (h : e.executes? p c = some i) :
    ∃ k, p.fetch? e.pc = some i ∧ (e.effectOf p i).control = .ok k ∧
      (e.step p c).after = e.performed p i k := by
  rcases executes?_cases p c e with ⟨i', k, executes, fetched, control, after, -⟩ | ⟨executes, -⟩
  · cases executes.symm.trans h
    exact ⟨k, fetched, control, after⟩
  · cases executes.symm.trans h

/-- A step counts open calls as its operation does. -/
theorem callDepth_of_executes (h : e.executes? p c = some i) :
    (e.step p c).after.callDepth = Operation.depthAfter e.callDepth i.operation := by
  obtain ⟨k, -, control, after⟩ := performed_of_executes h
  rw [after, performed_callDepth]
  exact Operation.callDepth_execute control

/-- A step halts for `HLT` or for a return without a call. -/
theorem halted_iff_of_executes (h : e.executes? p c = some i) {reason : HaltReason} :
    (e.step p c).after.status = .halted reason ↔
      i.operation = .hlt ∧ reason = .hlt ∨
        (i.operation = .ret ∧ e.callDepth = 0) ∧ reason = .ret := by
  obtain ⟨k, -, control, after⟩ := performed_of_executes h
  have ends : (e.effectOf p i).control = .ok (.halt reason) ↔ _ := Operation.halt_iff
  rw [after, performed_halted_iff, ← ends, control, Except.ok.injEq]

theorem pc_le_of_executes (inside : p.TargetsInside) (h : e.executes? p c = some i) :
    (e.step p c).after.pc ≤ p.size := by
  obtain ⟨k, fetched, control, after⟩ := performed_of_executes h
  rw [after]
  exact pc_performed_le inside fetched control

/-- An instruction that halts leaves control where it is. -/
theorem pc_lt_of_halted (h : e.executes? p c = some i) {reason : HaltReason}
    (halted : (e.step p c).after.status = .halted reason) : (e.step p c).after.pc < p.size := by
  obtain ⟨k, fetched, -, after⟩ := performed_of_executes h
  rw [after, performed_halted_iff] at halted
  rw [after, halted]
  exact Program.lt_size_of_fetch fetched

/-! ## Events -/

/-- An executed instruction, and the execution after it. -/
structure Event where
  instruction : Instruction
  after : Execution
  deriving DecidableEq, Repr

namespace Event

def operation (ev : Event) : Operation := ev.instruction.operation

/-- The snapshot that is recorded for the instruction. -/
def snapshot (ev : Event) : Snapshot := ev.after.machine.snapshot ev.instruction.line

end Event

/-- The instructions that stepping executes, at most `bound` of them, up to the first step that
executes none. -/
def events (p : Program) (c : Config) : Nat → Execution → List Event
  | 0, _ => []
  | bound + 1, e =>
    match e.executes? p c with
    | none => []
    | some i => ⟨i, (e.step p c).after⟩ :: events p c bound (e.step p c).after

/-- The events from a step that executes. -/
theorem events_of_executes (h : e.executes? p c = some i) (bound : Nat) :
    events p c (bound + 1) e = ⟨i, (e.step p c).after⟩ :: events p c bound (e.step p c).after := by
  simp only [events, h]

theorem events_eq_nil (h : e.executes? p c = none) (bound : Nat) : events p c bound e = [] := by
  cases bound with
  | zero => rfl
  | succ bound => simp only [events, h]

/-- Every event is the execution of an instruction by a step, with as many calls open as the
operations before it leave open. -/
theorem exists_step_of_events {bound : Nat} {before after : List Event} {ev : Event}
    (past : List Operation) (counted : e.callDepth = Operation.openCalls past)
    (h : events p c bound e = before ++ ev :: after) :
    ∃ e' : Execution, e'.executes? p c = some ev.instruction ∧ ev.after = (e'.step p c).after ∧
      e'.callDepth = Operation.openCalls (past ++ before.map Event.operation) := by
  induction bound generalizing e past before with
  | zero => simp [events] at h
  | succ bound ih =>
    cases executes : e.executes? p c with
    | none => simp [events_eq_nil executes] at h
    | some i =>
      rw [events_of_executes executes] at h
      cases before with
      | nil =>
        obtain ⟨rfl, -⟩ := List.cons.inj h
        exact ⟨e, executes, rfl, by simpa using counted⟩
      | cons first before =>
        obtain ⟨rfl, later⟩ := List.cons.inj h
        -- the events after the first one have its operation in their past
        have counted' : (e.step p c).after.callDepth =
            Operation.openCalls (past ++ [i.operation]) := by
          rw [callDepth_of_executes executes, counted, Operation.openCalls, Operation.openCalls,
            List.foldl_concat]
        obtain ⟨e', executes', after', depth⟩ := ih _ counted' later
        refine ⟨e', executes', after', ?_⟩
        rw [depth, List.append_assoc]
        rfl

/-! ## Chains of events -/

/-- `Passes p c e evs e₁` holds when steps lead from `e` to `e₁` that execute the instructions of
`evs` and go on. -/
inductive Passes (p : Program) (c : Config) : Execution → List Event → Execution → Prop
  | refl (e : Execution) : Passes p c e [] e
  | cons {e e₁ : Execution} {i : Instruction} {evs : List Event}
      (executes : e.executes? p c = some i) (active : (e.step p c).after.Active)
      (rest : Passes p c (e.step p c).after evs e₁) :
      Passes p c e (⟨i, (e.step p c).after⟩ :: evs) e₁

/-- A step that goes on executes an instruction, and records it. -/
theorem Goes.executes {s : Snapshot} (h : Goes p c e s e₁) :
    ∃ i, e.executes? p c = some i ∧ s = e₁.machine.snapshot i.line := by
  rcases executes?_cases p c e with ⟨i, k, executes, -, -, after, recorded⟩ | ⟨-, recorded, -⟩
  · rw [h] at after recorded
    cases recorded
    refine ⟨i, executes, ?_⟩
    rw [show e₁ = e.performed p i k from after, performed_machine]
  · rw [h] at recorded
    cases recorded

/-- Every chain of steps is one of events. -/
theorem Proceeds.exists_passes {ss : List Snapshot} (h : Proceeds p c e ss e₁) :
    ∃ evs, Passes p c e evs e₁ ∧ evs.map Event.snapshot = ss := by
  induction h with
  | refl e => exact ⟨[], .refl e, rfl⟩
  | @cons e e₁ e₂ s ss goes _ ih =>
    obtain ⟨evs, passes, rfl⟩ := ih
    obtain ⟨i, executes, rfl⟩ := goes.executes
    have after : (e.step p c).after = e₁ := congrArg Step.after goes
    subst after
    exact ⟨_, .cons executes goes.active passes, rfl⟩

namespace Passes

variable {evs : List Event}

theorem active (h : Passes p c e evs e₁) : ∀ ev ∈ evs, ev.after.Active := by
  induction h with
  | refl => simp
  | cons _ active _ ih => exact List.forall_mem_cons.2 ⟨active, ih⟩

/-- An execution stands where its last event has led. -/
theorem exists_last (h : Passes p c e evs e₁) :
    evs = [] ∧ e₁ = e ∨ ∃ earlier last, evs = earlier ++ [last] ∧ e₁ = last.after := by
  induction h with
  | refl e => exact .inl ⟨rfl, rfl⟩
  | cons _ _ _ ih =>
    rcases ih with ⟨rfl, rfl⟩ | ⟨earlier, last, rfl, rfl⟩
    · exact .inr ⟨[], _, rfl, rfl⟩
    · exact .inr ⟨_ :: earlier, last, rfl, rfl⟩

/-- The events after some that have passed. -/
theorem events_eq (h : Passes p c e evs e₁) (bound : Nat) :
    events p c (evs.length + bound) e = evs ++ events p c bound e₁ := by
  induction h with
  | refl => rw [List.length_nil, Nat.zero_add, List.nil_append]
  | cons executes _ _ ih =>
    rw [List.length_cons, Nat.add_right_comm, events_of_executes executes, ih]
    rfl

end Passes

/-- The last step of a run executes an instruction that halts, or finds none, or fails. -/
theorem last_step_cases {ss : List Snapshot} {r : Except RunFailure Trace} (active : e.Active)
    (concluded : conclusion? p (e.step p c) ss = some r) :
    (∃ i reason, e.executes? p c = some i ∧ e.steps < c.stepLimit ∧
      (e.step p c).after.status = .halted reason ∧
      r = .ok ⟨ss ++ [(e.step p c).after.machine.snapshot i.line],
        some ⟨reason, (e.step p c).after.output⟩⟩) ∨
    (e.executes? p c = none ∧ p.fetch? e.pc = none ∧ r = .ok ⟨ss, some ⟨.endOfProgram, e.output⟩⟩) ∨
    (e.executes? p c = none ∧ ∃ line fault, r = .error ⟨line, fault, ss⟩) := by
  have stepping := stepping_step p c e
  unfold executes?
  generalize e.step p c = s at stepping concluded
  cases stepping with
  | idle inactive => exact absurd active inactive
  | ended _ beyond =>
    cases concluded
    rw [Option.toList_none, List.append_nil]
    exact .inr (.inl ⟨by rw [beyond, ite_self], beyond, rfl⟩)
  | limited | failed =>
    cases concluded
    rw [Option.toList_none, List.append_nil]
    exact .inr (.inr ⟨if_neg fun executes => Bool.noConfusion executes.2, _, _, rfl⟩)
  | @executed i k _ fetched allowed control =>
    cases k with
    | next => cases concluded
    | jump target => cases concluded
    | halt reason =>
      cases concluded
      exact .inl ⟨i, reason, by rw [if_pos ⟨active, rfl⟩, fetched], allowed, rfl, rfl⟩

end Execution

/-! ## Histories -/

open Execution

namespace Program

variable {p : Program} {c : Config} {before after : List Event} {ev : Event}

/-- What a run executes. -/
def history (p : Program) (c : Config) : List Event :=
  match loadData (Machine.new c) p.data with
  | .ok m => events p c c.stepLimit (loadedWith c m)
  | .error _ => []

/-- Every event is a step, with the calls that were open before it. -/
theorem exists_step_of_history (h : p.history c = before ++ ev :: after) :
    ∃ e : Execution, e.executes? p c = some ev.instruction ∧ ev.after = (e.step p c).after ∧
      e.callDepth = Operation.openCalls (before.map Event.operation) := by
  unfold history at h
  split at h
  · exact exists_step_of_events [] rfl h
  · simp at h

/-- An executed instruction halts the run if and only if it is a halt, or a return with no open call
before it. -/
theorem halted_iff_of_history (h : p.history c = before ++ ev :: after) {reason : HaltReason} :
    ev.after.status = .halted reason ↔
      ev.operation = .hlt ∧ reason = .hlt ∨
        (ev.operation = .ret ∧ ¬ Operation.HasOpenCall (before.map Event.operation)) ∧
          reason = .ret := by
  obtain ⟨e, executes, ran, counted⟩ := exists_step_of_history h
  rw [ran, halted_iff_of_executes executes, counted, Operation.hasOpenCall_iff, Decidable.not_not]
  rfl

/-! ## How a run ends -/

/-- `Tells p evs r` holds when the last event of `evs` ends the run with the result `r`, or leads to
where there is no instruction, or when `r` is a failure; all other events go on. -/
inductive Tells (p : Program) : List Event → Except RunFailure Trace → Prop
  | halted {earlier : List Event} {last : Event} {reason : HaltReason}
      (active : ∀ ev ∈ earlier, ev.after.Active) (halts : last.after.status = .halted reason) :
      Tells p (earlier ++ [last])
        (.ok ⟨(earlier ++ [last]).map Event.snapshot, some ⟨reason, last.after.output⟩⟩)
  | ended {earlier : List Event} {last : Event} (active : ∀ ev ∈ earlier ++ [last], ev.after.Active)
      (beyond : p.fetch? last.after.pc = none) :
      Tells p (earlier ++ [last])
        (.ok ⟨(earlier ++ [last]).map Event.snapshot, some ⟨.endOfProgram, last.after.output⟩⟩)
  | failed {evs : List Event} (active : ∀ ev ∈ evs, ev.after.Active) (line : Nat) (fault : Fault) :
      Tells p evs (.error ⟨line, fault, evs.map Event.snapshot⟩)

/-- A chain of events and the step after it tell how the run ends. -/
theorem tells_of_passes {e e₁ : Execution} {evs : List Event} {r : Except RunFailure Trace}
    (first : ∃ i, p.fetch? e.pc = some i) (passes : Passes p c e evs e₁) (active : e₁.Active)
    (counted : e₁.steps = evs.length) (le : evs.length ≤ c.stepLimit)
    (concluded : conclusion? p (e₁.step p c) (evs.map Event.snapshot) = some r) :
    Tells p (events p c c.stepLimit e) r := by
  obtain ⟨bound, limit⟩ := Nat.exists_eq_add_of_le le
  rw [limit, passes.events_eq]
  rcases last_step_cases active concluded with
    ⟨i, reason, executes, allowed, halts, rfl⟩ | ⟨executes, beyond, rfl⟩ |
      ⟨executes, line, fault, rfl⟩
  · -- the limit leaves room for the instruction that halts
    obtain ⟨bound, rfl⟩ : ∃ n, bound = n + 1 := Nat.exists_eq_add_one.2 (by omega)
    have idle : (e₁.step p c).after.executes? p c = none :=
      executes?_of_not_active (not_active_iff.2 (.inl ⟨reason, halts⟩))
    rw [events_of_executes executes, events_eq_nil idle]
    have told : Tells p (evs ++ [⟨i, (e₁.step p c).after⟩]) _ := .halted passes.active halts
    rwa [List.map_append] at told
  · rw [events_eq_nil executes, List.append_nil]
    rcases passes.exists_last with ⟨rfl, rfl⟩ | ⟨earlier, last, rfl, rfl⟩
    · obtain ⟨i, fetched⟩ := first
      cases beyond.symm.trans fetched
    · exact .ended passes.active beyond
  · rw [events_eq_nil executes, List.append_nil]
    exact .failed passes.active line fault

/-- The history of a run tells how it ends. -/
theorem tells_run (first : ∃ i, p.fetch? 0 = some i) (c : Config) :
    Tells p (p.history c) (p.run c) := by
  unfold history
  rcases Execution.run_cases p c (e := .new c) (.inl rfl) with
    ⟨line, fault, loading, failed⟩ | ⟨m, ss, e, loaded, proceeds, -, concluded⟩
  · rw [show loadData (Machine.new c) p.data = _ from loading, run, failed]
    exact .failed (by simp) line fault
  · rw [show loadData (Machine.new c) p.data = _ from loaded]
    have counted := proceeds.steps_eq
    have le := proceeds.length_le
    have active := proceeds.active (.inl rfl)
    obtain ⟨evs, passes, rfl⟩ := proceeds.exists_passes
    rw [List.length_map] at counted le
    rw [show ({ new c with machine := m } : Execution).steps = 0 from rfl] at counted le
    exact tells_of_passes first passes active (counted.trans (Nat.zero_add _)) le concluded

/-! ## Well-formed runs -/

/-- None of the events is a halt, or a return with no open call before it. -/
def GoesOn (evs : List Event) : Prop :=
  ∀ before ev after, evs = before ++ ev :: after → ev.operation ≠ .hlt ∧
    (ev.operation = .ret → Operation.HasOpenCall (before.map Event.operation))

/-- `EndsFor p earlier last reason` holds when `reason` says what the last event of a run did. -/
structure EndsFor (p : Program) (earlier : List Event) (last : Event) (reason : HaltReason) :
    Prop where
  hlt : reason = .hlt ↔ last.operation = .hlt
  ret : reason = .ret ↔
    last.operation = .ret ∧ ¬ Operation.HasOpenCall (earlier.map Event.operation)
  endOfProgram : reason = .endOfProgram ↔ last.after.pc = p.size

/-- No event that the run goes on after is one that would have ended it. -/
theorem goesOn_of_active {evs : List Event} (rest : List Event) (h : p.history c = evs ++ rest)
    (active : ∀ ev ∈ evs, ev.after.Active) : GoesOn evs := by
  rintro before ev after rfl
  rw [List.append_assoc, List.cons_append] at h
  have notHalted (reason : HaltReason) : ev.after.status ≠ .halted reason := by
    intro halted
    exact not_active_iff.2 (.inl ⟨reason, halted⟩) (active ev (by simp))
  constructor
  · intro halt
    exact notHalted .hlt ((halted_iff_of_history h).2 (.inl ⟨halt, rfl⟩))
  · intro ret
    apply Classical.byContradiction
    intro none
    exact notHalted .ret ((halted_iff_of_history h).2 (.inr ⟨⟨ret, none⟩, rfl⟩))

/-- A history whose last event halts ends for that reason. -/
theorem endsFor_of_halted {earlier : List Event} {last : Event} {reason : HaltReason}
    (h : p.history c = earlier ++ [last]) (halts : last.after.status = .halted reason) :
    EndsFor p earlier last reason := by
  have same (other : HaltReason) : reason = other ↔ last.after.status = .halted other := by
    rw [halts, Status.halted.injEq]
  refine ⟨?_, ?_, ?_⟩
  · rw [same, halted_iff_of_history h]
    simp
  · rw [same, halted_iff_of_history h]
    simp
  · obtain ⟨e, executes, ran, -⟩ := exists_step_of_history h
    have inside : last.after.pc < p.size := by
      rw [ran] at halts ⊢
      exact pc_lt_of_halted executes halts
    rw [same, halted_iff_of_history h]
    simp [Nat.ne_of_lt inside]

/-- A history whose last event leaves the program ends at its end. -/
theorem endsFor_of_beyond {earlier : List Event} {last : Event} (targets : p.TargetsInside)
    (h : p.history c = earlier ++ [last]) (goesOn : GoesOn (earlier ++ [last]))
    (beyond : p.fetch? last.after.pc = none) : EndsFor p earlier last .endOfProgram := by
  obtain ⟨notHalt, matched⟩ := goesOn earlier last [] rfl
  refine ⟨iff_of_false nofun notHalt, iff_of_false nofun fun ret => ret.2 (matched ret.1),
    iff_of_true rfl ?_⟩
  obtain ⟨e, executes, ran, -⟩ := exists_step_of_history h
  have inside : last.after.pc ≤ p.size := by
    rw [ran]
    exact pc_le_of_executes targets executes
  exact Nat.le_antisymm inside (Array.getElem?_eq_none_iff.1 beyond)

/-- Every event of a run of an assembled program is shown by a snapshot. If the run comes to its
end, there is a last event, whose snapshot shows the output; the reason that is given says what this
event did, and no event before it could have ended the run. If the run fails, it has no reason and
no output, and no event could have ended it. -/
theorem run_well_formed {source : Source} (assembled : assemble source = .ok p) (c : Config) :
    snapshotsOf (p.run c) = (p.history c).map Event.snapshot ∧
    (∀ t, p.run c = .ok t → 0 < t.length ∧ t.isComplete = true ∧
      ∃ earlier last reason, p.history c = earlier ++ [last] ∧ GoesOn earlier ∧
        t.EndsWith last.snapshot ∧ t.haltReason = some reason ∧ EndsFor p earlier last reason) ∧
    (∀ f, p.run c = .error f → f.partialTrace.haltReason = none ∧ f.partialTrace.output = none ∧
      GoesOn (p.history c)) := by
  have told := tells_run (exists_first_of_assemble assembled) c
  have targets := targetsInside_of_assemble assembled
  generalize h : p.history c = evs at told
  generalize p.run c = r at told
  cases told with
  | @halted earlier last reason active halts =>
    refine ⟨rfl, ?_, nofun⟩
    rintro t ⟨⟩
    have shows : Trace.EndsWith ⟨(earlier ++ [last]).map Event.snapshot,
        some ⟨reason, last.after.output⟩⟩ last.snapshot := ⟨by simp, rfl⟩
    exact ⟨shows.length_pos, shows.isComplete, earlier, last, reason, rfl,
      goesOn_of_active [last] h active, shows, rfl, endsFor_of_halted h halts⟩
  | @ended earlier last active beyond =>
    refine ⟨rfl, ?_, nofun⟩
    rintro t ⟨⟩
    have shows : Trace.EndsWith ⟨(earlier ++ [last]).map Event.snapshot,
        some ⟨.endOfProgram, last.after.output⟩⟩ last.snapshot := ⟨by simp, rfl⟩
    have goesOn : GoesOn (earlier ++ [last]) :=
      goesOn_of_active [] (by rw [h, List.append_nil]) active
    have before : ∀ ev ∈ earlier, ev.after.Active :=
      fun ev mem => active ev (List.mem_append_left _ mem)
    exact ⟨shows.length_pos, shows.isComplete, earlier, last, .endOfProgram, rfl,
      goesOn_of_active [last] h before, shows, rfl, endsFor_of_beyond targets h goesOn beyond⟩
  | failed active line fault =>
    refine ⟨rfl, nofun, ?_⟩
    rintro f ⟨⟩
    exact ⟨rfl, rfl, goesOn_of_active [] (by rw [h, List.append_nil]) active⟩

/-- A return from the only call goes on to a return that has none to return from. -/
theorem run_well_formed_returned :
    ∃ p, assemble (.ofText "call f\nret\nf: ret") = .ok p ∧
      ∃ t earlier last, p.run {} = .ok t ∧ p.history {} = earlier ++ [last] ∧
        earlier.map Event.operation = [.call 2, .ret] ∧ GoesOn earlier ∧
        t.haltReason = some .ret ∧ t.EndsWith last.snapshot := by
  have ran : ((assemble (.ofText "call f\nret\nf: ret")).toOption.map fun p =>
      ((p.run {}).toOption.isSome, (p.history {}).map Event.operation)) =
      some (true, [.call 2, .ret] ++ [.ret]) := by decide +kernel
  cases assembled : assemble (.ofText "call f\nret\nf: ret") with
  | error e =>
    rw [assembled] at ran
    cases ran
  | ok p =>
    rw [assembled] at ran
    obtain ⟨ended, operations⟩ := Prod.mk.inj (Option.some.inj ran)
    obtain ⟨-, completed, -⟩ := run_well_formed assembled {}
    cases h : p.run {} with
    | error f =>
      rw [h] at ended
      cases ended
    | ok t =>
      obtain ⟨-, -, earlier, last, reason, events, goesOn, shows, told, ends⟩ := completed t h
      rw [events, List.map_append] at operations
      obtain ⟨before, final⟩ := List.append_inj' operations rfl
      have unmatched : ¬ Operation.HasOpenCall (earlier.map Event.operation) := by
        rw [before, Operation.hasOpenCall_iff]
        decide
      have ret : reason = .ret := ends.ret.2 ⟨List.head_eq_of_cons_eq final, unmatched⟩
      exact ⟨p, rfl, t, earlier, last, h, events, before, goesOn, ret ▸ told, shows⟩

end Program

end AsmTrace

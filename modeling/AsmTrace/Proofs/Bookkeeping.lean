import AsmTrace.Proofs.LabelResolution
import AsmTrace.Proofs.Recordings

/-!
# What an execution keeps count of

Along every stepping of an assembled program, failed steps included, the program counter stays
within the program, and the number of steps, the statistics and the recorder all tell of the same
instructions: those that were executed, in that order. `Recording.Ledger` is the invariant; each
step extends it by the instruction that it executes, if any.
-/

namespace AsmTrace

/-! ## Statistics -/

/-- The list of opcodes is in the order of their bytes. -/
theorem Opcode.pairwise_byte : Opcode.all.Pairwise (·.byte < ·.byte) := by decide

/-- The byte of an opcode is an index into the counts. -/
theorem Opcode.byte_lt (o : Opcode) : o.byte < Opcode.all.length :=
  List.idxOf_lt_length_iff.2 o.mem_all

@[simp] theorem Opcode.byte_inj {o o' : Opcode} : o.byte = o'.byte ↔ o = o' := by
  constructor
  · intro h
    exact Option.some.inj (by rw [← ofByte?_byte o, h, ofByte?_byte])
  · rintro rfl
    rfl

namespace Statistics

/-- The statistics of some executed opcodes. -/
def tally (opcodes : List Opcode) : Statistics := opcodes.foldl record {}

variable {s : Statistics}

@[simp] theorem length_tally (opcodes : List Opcode) :
    (tally opcodes).counts.length = Opcode.all.length := by
  suffices kept : ∀ s : Statistics, (opcodes.foldl record s).counts.length = s.counts.length by
    rw [tally, kept]
    exact List.length_replicate
  induction opcodes with
  | nil =>
    intro s
    rfl
  | cons o rest ih =>
    intro s
    rw [List.foldl_cons, ih]
    exact List.length_modify ..

@[simp] theorem tally_concat (opcodes : List Opcode) (o : Opcode) :
    tally (opcodes ++ [o]) = (tally opcodes).record o := by
  rw [tally, List.foldl_concat, tally]

/-- Recording an opcode adds one to its count, and to no other. -/
theorem count_record (h : s.counts.length = Opcode.all.length) (o o' : Opcode) :
    (s.record o).count o' = s.count o' + if o = o' then 1 else 0 := by
  have lt : o'.byte < s.counts.length := h ▸ o'.byte_lt
  simp only [count, record, List.getD_eq_getElem?_getD, List.getElem?_modify, Opcode.byte_inj,
    List.getElem?_eq_getElem lt]
  split <;> rfl

theorem foldl_succ (counts : List Nat) (acc : Nat) :
    counts.foldl (· + ·) (acc + 1) = counts.foldl (· + ·) acc + 1 := by
  induction counts generalizing acc with
  | nil => rfl
  | cons n rest ih => rw [List.foldl_cons, List.foldl_cons, Nat.add_right_comm, ih]

/-- A count that is raised by one raises the sum by one. -/
theorem foldl_modify {counts : List Nat} {i : Nat} (lt : i < counts.length) (acc : Nat) :
    (counts.modify i (· + 1)).foldl (· + ·) acc = counts.foldl (· + ·) acc + 1 := by
  induction counts generalizing i acc with
  | nil => cases lt
  | cons n rest ih =>
    cases i with
    | zero =>
      rw [List.modify_zero_cons, List.foldl_cons, List.foldl_cons, ← Nat.add_assoc, foldl_succ]
    | succ i =>
      rw [List.modify_succ_cons, List.foldl_cons, List.foldl_cons]
      exact ih (Nat.lt_of_succ_lt_succ lt) (acc + n)

/-- Recording an opcode adds one to the total. -/
theorem total_record (h : s.counts.length = Opcode.all.length) (o : Opcode) :
    (s.record o).total = s.total + 1 :=
  foldl_modify (h ▸ o.byte_lt) 0

/-- Each opcode is counted as often as it was executed. -/
@[simp] theorem count_tally (opcodes : List Opcode) (o : Opcode) :
    (tally opcodes).count o = opcodes.count o := by
  induction opcodes using List.reverseRecOn with
  | nil =>
    simp only [tally, List.foldl_nil, count, List.getD_eq_getElem?_getD, List.count_nil]
    rw [List.getElem?_replicate]
    split <;> rfl
  | append_singleton rest o' ih =>
    rw [tally_concat, count_record (length_tally rest), ih, List.count_append, List.count_singleton]
    simp only [beq_iff_eq]

/-- The total is the number of opcodes recorded. -/
@[simp] theorem total_tally (opcodes : List Opcode) : (tally opcodes).total = opcodes.length := by
  induction opcodes using List.reverseRecOn with
  | nil => decide
  | append_singleton rest o ih =>
    rw [tally_concat, total_record (length_tally rest), ih, List.length_append,
      List.length_singleton]

/-- The opcodes listed are those with a count, each with its count. -/
theorem mem_executed (s : Statistics) (o : Opcode) (n : Nat) :
    (o, n) ∈ s.executed ↔ 0 < n ∧ s.count o = n := by
  simp only [executed, List.mem_filter, List.mem_map, Prod.mk.injEq, decide_eq_true_eq]
  constructor
  · rintro ⟨⟨o', -, rfl, rfl⟩, pos⟩
    exact ⟨pos, rfl⟩
  · rintro ⟨pos, rfl⟩
    exact ⟨⟨o, o.mem_all, rfl, rfl⟩, pos⟩

/-- They are listed in the order of their bytes. -/
theorem pairwise_executed (s : Statistics) : s.executed.Pairwise (·.1.byte < ·.1.byte) := by
  apply List.Pairwise.filter
  exact List.pairwise_map.2 Opcode.pairwise_byte

end Statistics

/-! ## Where control can go -/

namespace Operation

variable {m : Machine} {size index depth target : Nat}

/-- A change of the machine is not a jump. -/
theorem ofChange_ne_jump (x : Except Fault Machine) :
    (Effect.ofChange m depth x).control ≠ .ok (.jump target) := by
  cases x with
  | ok m' => simp [Effect.ofChange]
  | error fault => simp [Effect.ofChange]

/-- A popped address is looked at before it is jumped to. -/
theorem le_of_leave (h : (leave m depth size).control = .ok (.jump target)) : target ≤ size := by
  unfold leave at h
  split at h
  · cases h
  · split at h
    · cases h
    · next address m' popped =>
      split at h
      · next inside =>
        cases h
        -- a word that is not negative is its own index
        have lt := address.isLt
        rw [BitVec.toInt_eq_toNat_cond] at inside
        split at inside <;> omega
      · cases h

/-- An operation jumps to its target, or it returns to an index that is in the program. -/
theorem target_of_jump {op : Operation}
    (h : (op.execute size index m depth).control = .ok (.jump target)) :
    op.target? = some target ∨ op = .ret ∧ target ≤ size := by
  cases op with
  -- these change the machine and go on to the next instruction
  | mov | push | binary | imul | idiv | cqo | unary | shift | compare =>
    exact absurd h (ofChange_ne_jump _)
  | pop dst =>
    simp only [execute, popInto] at h
    split at h
    · cases h
    · exact absurd h (ofChange_ne_jump _)
  | jump condition index =>
    simp only [execute] at h
    split at h
    · cases h
      exact .inl rfl
    · cases h
  | loop index =>
    simp only [execute, countDown] at h
    split at h
    · cases h
    · cases h
      exact .inl rfl
  | call index =>
    simp only [execute, enter] at h
    split at h
    · cases h
      exact .inl rfl
    · cases h
  | ret => exact .inr ⟨rfl, le_of_leave h⟩
  | nop | hlt => cases h

end Operation

namespace Program

open Assembly

variable {p : Program}

/-- No instruction of the program jumps out of it. -/
def TargetsInside (p : Program) : Prop :=
  ∀ index i target, p.fetch? index = some i → i.operation.target? = some target → target ≤ p.size

/-- A label of code points into the program or just past it. -/
theorem le_of_mem_table {name : String} {index address k : Nat} {statements : List Statement}
    (mem : (name, .code k) ∈ Labels.table index address statements) :
    k ≤ index + instructionCount statements := by
  induction statements generalizing index address with
  | nil => cases mem
  | cons s rest ih =>
    obtain ⟨line, other | values | ⟨opcode, operands⟩⟩ := s
    · rcases List.mem_cons.1 mem with here | later
      · have target : .code k = Labels.targetBefore index address rest := (Prod.mk.inj here).2
        rw [Labels.targetBefore_eq] at target
        split at target
        · cases target
          exact Nat.le_add_right ..
        · split at target
          · cases target
            exact Nat.le_add_right ..
          · cases target
      · exact ih later
    · exact ih mem
    · have le : k ≤ index + 1 + instructionCount rest := ih mem
      have count : instructionCount (⟨line, .instruction opcode operands⟩ :: rest) =
          instructionCount rest + 1 := rfl
      omega

/-- Code labels name an instruction or the end, however many data words there are. -/
theorem targetsInside_of_assemble {source : Source} (h : assemble source = .ok p) :
    p.TargetsInside := by
  intro index i target fetched jumps
  obtain ⟨statements, -, r⟩ := resolves_of_assemble h
  obtain ⟨opcode, operands, decoded⟩ := r.decoded fetched
  obtain ⟨name, found⟩ := decoded.exists_label jumps
  have mem := Labels.mem_of_find?_eq_some found
  rw [r.entries_eq.1] at mem
  have le := le_of_mem_table mem
  rw [r.size_eq]
  omega

theorem lt_size_of_fetch {index : Nat} {i : Instruction} (h : p.fetch? index = some i) :
    index < p.size :=
  (Array.getElem?_eq_some_iff.1 h).1

end Program

/-! ## The ledger -/

namespace Execution

variable {p : Program} {c : Config} {e : Execution}

/-- The instruction that a step executes: the one at the program counter, if the execution has not
ended and the step does not fail. -/
def executes? (p : Program) (c : Config) (e : Execution) : Option Instruction :=
  if e.Active ∧ (e.step p c).answer.isOk then p.fetch? e.pc else none

/-- A step executes an instruction or leaves the books alone. -/
theorem executes?_cases (p : Program) (c : Config) (e : Execution) :
    (∃ i k, e.executes? p c = some i ∧ p.fetch? e.pc = some i ∧ (e.effectOf p i).control = .ok k ∧
      (e.step p c).after = e.performed p i k ∧
      (e.step p c).recorded = some ((e.effectOf p i).machine.snapshot i.line)) ∨
    (e.executes? p c = none ∧ (e.step p c).recorded = none ∧ (e.step p c).after.pc = e.pc ∧
      (e.step p c).after.steps = e.steps ∧ (e.step p c).after.statistics = e.statistics) := by
  have stepping := stepping_step p c e
  unfold executes?
  generalize e.step p c = s at stepping
  cases stepping with
  | idle inactive => exact .inr ⟨if_neg fun executes => inactive executes.1, rfl, rfl, rfl, rfl⟩
  | ended _ beyond => exact .inr ⟨by rw [beyond, ite_self], rfl, rfl, rfl, rfl⟩
  | limited | failed =>
    exact .inr ⟨if_neg fun executes => Bool.noConfusion executes.2, rfl, rfl, rfl, rfl⟩
  | @executed i k active fetched allowed control =>
    exact .inl ⟨i, k, by rw [if_pos ⟨active, rfl⟩, fetched], fetched, control, rfl, rfl⟩

/-- An instruction goes on inside the program or just past it. -/
theorem pc_performed_le (inside : p.TargetsInside) {i : Instruction} {k : Control}
    (fetched : p.fetch? e.pc = some i) (control : (e.effectOf p i).control = .ok k) :
    (e.performed p i k).pc ≤ p.size := by
  have lt := Program.lt_size_of_fetch fetched
  cases k with
  | next => exact lt
  | jump target =>
    rcases Operation.target_of_jump control with jumps | ⟨-, le⟩
    · exact inside _ i target fetched jumps
    · exact le
  | halt reason => exact Nat.le_of_lt lt

end Execution

namespace Recording

variable {p : Program} {c : Config} {r : Recording} {is : List Instruction}

/-- The instructions that a number of steps execute, in that order. -/
def executed (p : Program) (c : Config) (n : Nat) : List Instruction :=
  (List.range n).filterMap fun k => (after p c k).execution.executes? p c

/-- The instructions executed after one more step. -/
theorem executed_succ (p : Program) (c : Config) (n : Nat) :
    executed p c (n + 1) =
      executed p c n ++ ((after p c n).execution.executes? p c).toList := by
  rw [executed, List.range_succ, List.filterMap_append, executed]
  cases h : (after p c n).execution.executes? p c <;> simp [h]

/-- `Ledger p is r` holds when the books of `r` tell of the instructions `is`, and control is in the
program. -/
structure Ledger (p : Program) (is : List Instruction) (r : Recording) : Prop where
  inside : r.execution.pc ≤ p.size
  steps : r.execution.steps = is.length
  statistics : r.execution.statistics = .tally (is.map Instruction.opcode)
  lines : r.snapshots.map Snapshot.line = is.map Instruction.line

/-- The ledger is right before the first step. -/
theorem ledger_new (p : Program) (c : Config) : Ledger p [] (new c) :=
  ⟨Nat.zero_le _, rfl, rfl, rfl⟩

/-- A step enters the instruction that it executes. -/
theorem Ledger.step (targets : p.TargetsInside) (h : Ledger p is r) :
    Ledger p (is ++ (r.execution.executes? p c).toList) (r.step p c) := by
  unfold Recording.step
  rcases Execution.executes?_cases p c r.execution with
    ⟨i, k, executes, fetched, control, after, recorded⟩ |
    ⟨executes, recorded, pc, steps, statistics⟩
  · rw [executes, after, recorded, Option.toList_some, Option.toList_some]
    refine ⟨Execution.pc_performed_le targets fetched control, ?_, ?_, ?_⟩
    · rw [Execution.performed_steps, h.steps, List.length_append, List.length_singleton]
    · rw [Execution.performed_statistics, h.statistics, List.map_append, List.map_singleton,
        Statistics.tally_concat]
    · rw [List.map_append, List.map_append, h.lines]
      rfl
  · rw [executes, recorded, Option.toList_none, Option.toList_none, List.append_nil,
      List.append_nil]
    exact ⟨pc ▸ h.inside, steps.trans h.steps, statistics.trans h.statistics, h.lines⟩

/-- The books are kept along any number of steps. -/
theorem ledger_after (targets : p.TargetsInside) (c : Config) (n : Nat) :
    Ledger p (executed p c n) (after p c n) := by
  induction n with
  | zero => exact ledger_new p c
  | succ n ih =>
    rw [executed_succ]
    exact ih.step targets

/-- There is a snapshot for each instruction. -/
theorem Ledger.length_snapshots (h : Ledger p is r) : r.snapshots.length = is.length := by
  simpa using congrArg List.length h.lines

/-- After any number of steps of an assembled program, whether some have failed or not: control is
in the program; the steps are as many as the snapshots and as the statistics count, and within the
limit; each opcode is counted as often as it was executed, and those that were are listed in the
order of their bytes; the snapshots are on the lines of the executed instructions; and if the
execution has halted or failed, no further step changes anything. -/
theorem books_kept {source : Source} {p : Program} (assembled : Program.assemble source = .ok p)
    (c : Config) (n : Nat) :
    (after p c n).execution.pc ≤ p.size ∧
    (after p c n).execution.steps = (after p c n).snapshots.length ∧
    (after p c n).execution.steps = (after p c n).execution.statistics.total ∧
    (after p c n).execution.steps ≤ c.stepLimit ∧
    (∀ o, (after p c n).execution.statistics.count o =
      ((executed p c n).filter (·.opcode = o)).length) ∧
    (∀ o k, (o, k) ∈ (after p c n).execution.statistics.executed ↔
      0 < k ∧ (after p c n).execution.statistics.count o = k) ∧
    (after p c n).execution.statistics.executed.Pairwise (·.1.byte < ·.1.byte) ∧
    (after p c n).snapshots.map Snapshot.line = (executed p c n).map Instruction.line ∧
    (((∃ reason, (after p c n).execution.status = .halted reason) ∨
        (after p c n).execution.status = .failed) →
      ∀ k, after p c (n + k) = after p c n ∧
        answer p c (n + k) = .ok (after p c n).execution.status) := by
  have ledger := ledger_after (Program.targetsInside_of_assemble assembled) c n
  refine ⟨ledger.inside, ?_, ?_, steps_le p c n, ?_, Statistics.mem_executed _,
    Statistics.pairwise_executed _, ledger.lines, ?_⟩
  · rw [ledger.steps, ledger.length_snapshots]
  · rw [ledger.steps, ledger.statistics, Statistics.total_tally, List.length_map]
  · intro o
    rw [ledger.statistics, Statistics.count_tally, List.count_eq_length_filter, List.filter_map,
      List.length_map]
    rfl
  · intro ended k
    have inactive := Execution.not_active_iff.2 ended
    refine ⟨after_add inactive k, ?_⟩
    rw [answer, after_add inactive k, Execution.step_of_not_active inactive]

/-- A loop of two rounds and a division by zero after it, stepped on beyond the failure. -/
theorem books_kept_beyond_failure :
    ∃ p, Program.assemble (.ofText "mov cx, 2\nl: inc ax\nloop l\nidiv bx") = .ok p ∧
      (after p {} 7).execution.status = .failed ∧
      (after p {} 7).execution.steps = (after p {} 7).snapshots.length ∧
      (after p {} 7).execution.statistics.count (.unary .inc) =
        ((executed p {} 7).filter (·.opcode = .unary .inc)).length ∧
      (after p {} 7).snapshots.map Snapshot.line = (executed p {} 7).map Instruction.line ∧
      ∀ k, after p {} (7 + k) = after p {} 7 ∧ answer p {} (7 + k) = .ok .failed := by
  have fails : ((Program.assemble (.ofText "mov cx, 2\nl: inc ax\nloop l\nidiv bx")).toOption.map
      fun p => (after p {} 7).execution.status) = some .failed := by decide +kernel
  cases assembled : Program.assemble (.ofText "mov cx, 2\nl: inc ax\nloop l\nidiv bx") with
  | error e =>
    rw [assembled] at fails
    cases fails
  | ok p =>
    rw [assembled] at fails
    have failed : (after p {} 7).execution.status = .failed := Option.some.inj fails
    obtain ⟨-, steps, -, -, count, -, -, lines, ended⟩ := books_kept assembled {} 7
    have ended := ended (.inr failed)
    rw [failed] at ended
    exact ⟨p, rfl, failed, steps, count _, lines, ended⟩

end Recording

end AsmTrace

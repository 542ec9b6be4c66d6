import AsmTrace.Proofs.Decoding
import AsmTrace.Proofs.Primitives
import AsmTrace.Proofs.Runs

/-!
# The stack pointer and the bounds of the machine

Along every execution of an assembled program the stack fits its capacity, `SP` is the stack's
pointer and memory holds no word out of bounds. Two things make this go through: the decoder accepts
`SP` nowhere an operation assigns a register, and pushing and popping are the only other ways to
change it.
-/

namespace AsmTrace

namespace Machine

/-! ## The invariant -/

/-- `Coherent c m` holds when the stack and the memory of `m` are within the sizes that `c` gives
and `SP` is in step with the stack. -/
structure Coherent (c : Config) (m : Machine) : Prop where
  capacity : m.stack.capacity = c.stackSize
  memorySize : m.memory.size = c.memorySize
  room : m.stack.size ≤ m.stack.capacity
  pointer : m.registers.get .sp = m.stack.pointer
  bounded : ∀ entry ∈ m.memory.cells.entries, entry.1 < m.memory.size.toNat

/-- A new machine is coherent. -/
theorem coherent_new (c : Config) : Coherent c (new c) where
  capacity := rfl
  memorySize := rfl
  room := Nat.zero_le _
  pointer := rfl
  bounded := by simp [new]

namespace Coherent

variable {c : Config} {m m' : Machine} {v : Word}

/-- Assigning a register other than `SP` keeps a machine coherent. -/
theorem setRegister {r : Register} (v : Word) (h : Coherent c m) (hr : r ≠ .sp) :
    Coherent c (m.setRegister r v) :=
  { h with pointer := (RegisterFile.get_set_of_ne hr.symm m.registers v).trans h.pointer }

theorem setFlags (f : Flags) (h : Coherent c m) : Coherent c (m.setFlags f) := { h with }

/-- So does a write. -/
theorem write {address : Int} (h : Coherent c m) (hw : m.write address v = .ok m') :
    Coherent c m' := by
  obtain ⟨mem, written, rfl⟩ := Result.map_eq_ok.1 hw
  unfold Memory.write at written
  split at written
  · next inBounds =>
    cases written
    refine { h with bounded := fun entry mem => ?_ }
    rcases mem_setEntry mem with rfl | mem
    · have := inBounds.1
      have := inBounds.2
      change address.toNat < m.memory.size.toNat
      omega
    · exact h.bounded entry mem
  · cases written

/-- So does a stack that fits, with `SP` after it. -/
theorem withStack {s : Stack} (h : Coherent c m) (capacity : s.capacity = m.stack.capacity)
    (room : s.size ≤ s.capacity) : Coherent c (m.withStack s) where
  capacity := capacity.trans h.capacity
  memorySize := h.memorySize
  room := room
  pointer := RegisterFile.get_set_self m.registers .sp s.pointer
  bounded := h.bounded

/-- So does a push. -/
theorem push (h : Coherent c m) (hp : m.push v = .ok m') : Coherent c m' := by
  obtain ⟨s, hs, rfl⟩ := Result.map_eq_ok.1 hp
  unfold Stack.push at hs
  split at hs
  · next lt =>
    cases hs
    exact h.withStack rfl lt
  · cases hs

/-- So does a pop. -/
theorem pop (h : Coherent c m) (hp : m.pop = .ok (v, m')) : Coherent c m' := by
  obtain ⟨⟨w, s⟩, hs, hm⟩ := Result.map_eq_ok.1 hp
  cases hm
  have room := h.room
  unfold Stack.pop at hs
  split at hs
  · cases hs
  · next w' rest top =>
    cases hs
    refine h.withStack rfl ?_
    rw [Stack.size, top, List.length_cons] at room
    exact Nat.le_of_succ_le room

/-- Everything but assigning `SP` keeps the invariant. -/
theorem kept (c : Config) : Kept (· ≠ .sp) (Coherent c) where
  setRegister := setRegister
  setFlags := setFlags
  write := write
  push := push
  pop := pop

/-- So does loading data. -/
theorem loadData {words : List DataWord} (h : Coherent c m)
    (loaded : Execution.loadData m words = .ok m') : Coherent c m' :=
  Execution.loadData_keeps write h loaded

end Coherent

end Machine

/-! ## Operations of assembled programs -/

namespace Assembly

variable {labels : Labels} {opcode : Opcode} {operand : Operand}

/-- A place to write to is not `SP`. -/
theorem decodeWritable_ne_sp {p : Place} (h : decodeWritable labels opcode operand = .ok p) :
    ∀ r ∈ p.assigned, r ≠ .sp := by
  unfold decodeWritable at h
  split at h
  · cases h
  · next notSp =>
    intro r mem
    cases operand with
    | register r' =>
      cases h
      cases List.mem_singleton.1 mem
      rintro rfl
      exact notSp rfl
    | immediate n => cases h
    | memory m =>
      obtain ⟨ref, -, rfl⟩ := Result.map_eq_ok.1 h
      cases mem
    | symbol name => cases h

/-- No register that a decoded operation assigns is `SP`. -/
theorem Decoded.ne_sp {operands : List Operand} {op : Operation}
    (h : Decoded labels opcode operands op) : ∀ r ∈ op.assigned, r ≠ .sp := by
  cases h with
  | mov place | binary place | shift place | unary place | pop place | imul place =>
    exact decodeWritable_ne_sp place
  -- all others assign fixed registers or none; a comparison, which accepts `SP`, assigns none
  | _ => simp [Operation.assigned]

end Assembly

/-! ## Reachable executions -/

namespace Program

/-- No instruction of the program assigns `SP`. -/
def SparesStackPointer (p : Program) : Prop :=
  ∀ index i, p.fetch? index = some i → ∀ r ∈ i.operation.assigned, r ≠ .sp

/-- No instruction that is assembled assigns `SP`. -/
theorem sparesStackPointer_of_assemble {source : Source} {p : Program}
    (h : assemble source = .ok p) : p.SparesStackPointer := by
  intro index i fetched
  obtain ⟨statements, -, r⟩ := resolves_of_assemble h
  obtain ⟨opcode, operands, decoded⟩ := r.decoded fetched
  exact decoded.ne_sp

end Program

namespace Execution

variable {p : Program} {c : Config} {e : Execution}

/-- One step keeps the machine coherent, and the snapshot it records is of that machine. -/
theorem coherent_step (spares : p.SparesStackPointer) (h : e.machine.Coherent c) :
    (e.step p c).after.machine.Coherent c ∧
      ∀ s ∈ (e.step p c).recorded, ∃ m line, m.Coherent c ∧ s = Machine.snapshot m line := by
  have stepping := stepping_step p c e
  generalize e.step p c = s at stepping
  cases stepping with
  | idle => exact ⟨h, by simp⟩
  | ended => exact ⟨h, by simp⟩
  | limited => exact ⟨h, by simp⟩
  | @failed i fault _ fetched =>
    exact ⟨(Machine.Coherent.kept c).execute h (spares _ i fetched) _ _ _, by simp⟩
  | @executed i k _ fetched =>
    have kept := (Machine.Coherent.kept c).execute h (spares _ i fetched) p.size e.pc e.callDepth
    refine ⟨by rw [performed_machine]; exact kept, ?_⟩
    rintro s ⟨⟩
    exact ⟨_, _, kept, rfl⟩

/-- Every reachable machine is coherent. -/
theorem Reachable.coherent (spares : p.SparesStackPointer) (h : Reachable p c e) :
    e.machine.Coherent c := by
  induction h with
  | new => exact Machine.coherent_new c
  | loaded loaded => exact (Machine.coherent_new c).loadData loaded
  | step _ ih => exact (coherent_step spares ih).1

/-- Every snapshot of a run is of a coherent machine. -/
theorem coherent_snapshots (spares : p.SparesStackPointer) :
    ∀ s ∈ snapshotsOf (p.run c), ∃ m line, m.Coherent c ∧ s = Machine.snapshot m line :=
  forall_snapshots (I := fun e => e.machine.Coherent c)
    (fun _ loaded => (Machine.coherent_new c).loadData loaded) fun _ => coherent_step spares

end Execution

/-- The pointer of a stack within its capacity counts what still fits, up to the largest signed
word. -/
theorem Stack.toInt_pointer {s : Stack} (room : s.size ≤ s.capacity) :
    s.pointer.toInt = min ((s.capacity : Int) - s.size) 0x7fffffff := by
  have toNat : s.pointer.toNat = min (s.capacity - s.size) 0x7fffffff := by
    rw [pointer, BitVec.toNat_ofNat]
    omega
  rw [BitVec.toInt_eq_toNat_of_lt (by omega), toNat]
  omega

/-- In every snapshot of every run of an assembled program the stack holds at most as many words as
it may, `SP` says how many more fit and all of memory is in bounds. In every execution that can be
reached the stack is within its capacity, and the next instruction comes out the same whatever would
happen if `SP` was assigned or if the pointer of an overfull stack was asked for. -/
theorem stack_pointer_in_step {source : Source} {p : Program}
    (assembled : Program.assemble source = .ok p) (c : Config) :
    (∀ s ∈ snapshotsOf (p.run c), s.stack.length ≤ c.stackSize ∧
      (s.registers.get .sp).toInt = min ((c.stackSize : Int) - s.stack.length) 0x7fffffff ∧
      ∀ entry ∈ s.memory.entries, entry.1 < c.memorySize.toNat) ∧
    ∀ e, Execution.Reachable p c e → e.machine.stack.size ≤ e.machine.stack.capacity ∧
      ∀ q : Primitives, q.Sound → ∀ i, p.fetch? e.pc = some i →
        q.execute p.size e.pc e.machine e.callDepth i.operation =
          i.operation.execute p.size e.pc e.machine e.callDepth := by
  have spares := Program.sparesStackPointer_of_assemble assembled
  constructor
  · intro s mem
    obtain ⟨m, line, coherent, rfl⟩ := Execution.coherent_snapshots spares s mem
    have room := coherent.room
    have pointer := Stack.toInt_pointer room
    rw [coherent.capacity] at room pointer
    refine ⟨room, ?_, ?_⟩
    · rw [Machine.snapshot_registers, coherent.pointer]
      exact pointer
    · rw [← coherent.memorySize]
      exact coherent.bounded
  · intro e reachable
    have coherent := reachable.coherent spares
    refine ⟨coherent.room, ?_⟩
    intro q sound i fetched
    exact sound.execute_eq (spares e.pc i fetched) coherent.room p.size e.pc e.callDepth

/-- A program that pushes, pops into memory and overflows its stack of one word. -/
theorem stack_pointer_in_step_overflow :
    ∃ p, Program.assemble (.ofText "push 7\npop [3]\npush sp\npush 1") = .ok p ∧
      ∀ s ∈ snapshotsOf (p.run { memorySize := 4, stackSize := 1 }), s.stack.length ≤ 1 ∧
        (s.registers.get .sp).toInt = min (1 - (s.stack.length : Int)) 0x7fffffff ∧
        ∀ entry ∈ s.memory.entries, entry.1 < 4 := by
  have assembles :
      (Program.assemble (.ofText "push 7\npop [3]\npush sp\npush 1")).isOk = true := by
    decide +kernel
  cases assembled : Program.assemble (.ofText "push 7\npop [3]\npush sp\npush 1") with
  | error e => rw [assembled] at assembles; cases assembles
  | ok p => exact ⟨p, rfl, (stack_pointer_in_step assembled { memorySize := 4, stackSize := 1 }).1⟩

end AsmTrace

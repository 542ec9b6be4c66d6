import AsmTrace.Proofs.FailedSteps
import AsmTrace.Proofs.Faults
import AsmTrace.Proofs.MemorySize
import AsmTrace.Proofs.Reassembly

/-!
# Effective addresses

The address of a memory operand is the sum of a signed word and a displacement, held to 64 bits.
Memory has fewer words than 32 bits can count, so a sum that is cut off lies far outside of it, and
so does what it is cut off to. Operands in memory are therefore read and written where the exact sum
says, and refused where the exact sum is outside. An operation fails for an address out of bounds if
and only if one of the sums that it gets to is (`Operation.refused_iff`).
-/

namespace AsmTrace

/-! ## Exact sums -/

namespace MemoryRef

/-- The signed value of the base, which is zero if there is none, plus the displacement. -/
def sum (ref : MemoryRef) (m : Machine) : Int :=
  (ref.base.elim 0 fun r => (m.register r).toInt) + ref.displacement

/-- The address of a reference is its sum, cut to 64 bits. -/
theorem address_eq (ref : MemoryRef) (m : Machine) : ref.address m = saturate64 (ref.sum m) := by
  unfold address sum
  cases ref.base <;> rfl

end MemoryRef

open MemoryRef (saturate64)

namespace Memory

variable {m : Memory} {n : Int}

/-- Holding an integer to 64 bits takes none into memory and none out of it. -/
@[simp] theorem inBounds_saturate64 : m.InBounds (saturate64 n) ↔ m.InBounds n := by
  have small := m.size.toNat_lt
  unfold InBounds saturate64
  omega

/-- The integers in memory have 64 bits already. -/
theorem InBounds.saturate64_eq (h : m.InBounds n) : saturate64 n = n := by
  have small := m.size.toNat_lt
  unfold InBounds at h
  unfold saturate64
  omega

end Memory

namespace Machine

variable {m : Machine} {ref : MemoryRef}

/-- Cutting a sum to 64 bits does not bring it into bounds or out of them. -/
@[simp] theorem inBounds_address :
    m.memory.InBounds (ref.address m) ↔ m.memory.InBounds (ref.sum m) := by
  rw [ref.address_eq, Memory.inBounds_saturate64]

/-- Reading in bounds gives what was written there, or zero. -/
theorem value_of_inBounds (h : m.memory.InBounds (ref.sum m)) :
    m.value (.memory ref) = .ok ((m.memory.cells.get? (ref.sum m).toNat).getD 0) := by
  rw [value, read, Memory.read, if_pos (inBounds_address.2 h), ref.address_eq, h.saturate64_eq]

/-- Reading out of bounds fails with the address. -/
theorem value_of_outside (h : ¬ m.memory.InBounds (ref.sum m)) :
    m.value (.memory ref) = .error (.outOfBounds (saturate64 (ref.sum m)) m.memory.size) := by
  rw [value, read, Memory.read, if_neg (mt inBounds_address.1 h), ref.address_eq]

/-- Writing in bounds changes one cell. -/
theorem store_of_inBounds (h : m.memory.InBounds (ref.sum m)) (v : Word) :
    m.store (.memory ref) v = .ok { m with memory :=
      { m.memory with cells := m.memory.cells.insert (ref.sum m).toNat v } } := by
  rw [store, write, Memory.write, if_pos (inBounds_address.2 h), ref.address_eq, h.saturate64_eq]
  rfl

/-- Writing out of bounds fails with the address. -/
theorem store_of_outside (h : ¬ m.memory.InBounds (ref.sum m)) (v : Word) :
    m.store (.memory ref) v =
      .error (.outOfBounds (saturate64 (ref.sum m)) m.memory.size) := by
  rw [store, write_of_outside (mt inBounds_address.1 h), ref.address_eq]

end Machine

/-! ## Operations that are refused -/

/-- A computation fails because an address is out of bounds. -/
def Refused {α : Type} (x : Except Fault α) : Prop :=
  ∃ fault, x = .error fault ∧ fault.IsOutOfBounds

@[simp] theorem not_refused_ok {α : Type} (a : α) : ¬ Refused (.ok a : Except Fault α) := by
  rintro ⟨fault, ⟨⟩, -⟩

/-- A computation is not refused if its faults are others. -/
theorem not_refused_of_raises {α : Type} {x : Except Fault α}
    (h : Raises (fun fault => ¬ fault.IsOutOfBounds) x) : ¬ Refused x :=
  fun ⟨fault, failed, outside⟩ => h fault failed outside

@[simp] theorem refused_map {α β : Type} {x : Except Fault α} {f : α → β} :
    Refused (x.map f) ↔ Refused x := by
  simp only [Refused, Result.map_eq_error]

@[simp] theorem refused_ofChange {m : Machine} {depth : Nat} {x : Except Fault Machine} :
    Refused (Effect.ofChange m depth x).control ↔ Refused x := by
  cases x with
  | ok m' => exact iff_of_false (not_refused_ok _) (not_refused_ok _)
  | error fault => simp only [Refused, Effect.ofChange, Except.error.injEq]

/-- The exact sum of an operand that is in memory. -/
def Value.sum? (m : Machine) : Value → Option Int
  | .memory ref => some (ref.sum m)
  | .register _ | .immediate _ => none

/-- The operand is in memory, but memory does not have its exact sum. -/
def Value.Outside (m : Machine) (v : Value) : Prop := ∃ s ∈ v.sum? m, ¬ m.memory.InBounds s

@[simp] theorem Value.outside_memory {m : Machine} {ref : MemoryRef} :
    (Value.memory ref).Outside m ↔ ¬ m.memory.InBounds (ref.sum m) := by
  simp [Outside, sum?]

@[simp] theorem Value.not_outside_register (m : Machine) (r : Register) :
    ¬ (Value.register r).Outside m := by
  simp [Outside, sum?]

@[simp] theorem Value.not_outside_immediate (m : Machine) (w : Word) :
    ¬ (Value.immediate w).Outside m := by
  simp [Outside, sum?]

namespace Machine

variable {m : Machine} {v : Value} {p : Place} {w : Word}

/-- Reading an operand is refused exactly if it is out of bounds. -/
@[simp] theorem refused_value : Refused (m.value v) ↔ v.Outside m := by
  cases v with
  | register r => exact iff_of_false (not_refused_ok _) (Value.not_outside_register m r)
  | immediate w => exact iff_of_false (not_refused_ok _) (Value.not_outside_immediate m w)
  | memory ref =>
    rw [Value.outside_memory]
    by_cases inBounds : m.memory.InBounds (ref.sum m)
    · rw [value_of_inBounds inBounds]
      exact iff_of_false (not_refused_ok _) (not_not_intro inBounds)
    · rw [value_of_outside inBounds]
      exact iff_of_true ⟨_, rfl, _, _, rfl⟩ inBounds

/-- Storing is refused exactly if the place is out of bounds. -/
@[simp] theorem refused_store : Refused (m.store p w) ↔ p.toValue.Outside m := by
  cases p with
  | register r => exact iff_of_false (not_refused_ok _) (Value.not_outside_register m r)
  | memory ref =>
    rw [Place.toValue, Value.outside_memory]
    by_cases inBounds : m.memory.InBounds (ref.sum m)
    · rw [store_of_inBounds inBounds]
      exact iff_of_false (not_refused_ok _) (not_not_intro inBounds)
    · rw [store_of_outside inBounds]
      exact iff_of_true ⟨_, rfl, _, _, rfl⟩ inBounds

/-- Setting flags makes no difference to that. -/
@[simp] theorem refused_storeResult {result : Word × Flags} :
    Refused (m.storeResult p result) ↔ p.toValue.Outside m :=
  refused_map.trans refused_store

/-- Looking up a value fails for no other reason, so that what is done with it then matters only if
the operand is not outside. -/
theorem refused_value_bind {α : Type} {f : Word → Except Fault α} {Q : Prop}
    (next : ∀ w, Refused (f w) ↔ Q) : Refused (m.value v >>= f) ↔ v.Outside m ∨ Q := by
  rw [← refused_value]
  cases looked : m.value v with
  | ok w => exact (next w).trans (or_iff_right (not_refused_ok w)).symm
  | error fault =>
    have refused : fault.IsOutOfBounds :=
      raises_value (P := Fault.IsOutOfBounds) (fun a size => ⟨a, size, rfl⟩) v fault looked
    exact iff_of_true ⟨fault, rfl, refused⟩ (.inl ⟨fault, rfl, refused⟩)

end Machine

/-- The exact sums of the operands in memory that an operation gets to. A pop gets to its operand
with the word gone from the stack, and not at all if there is none. -/
def Operation.sums (m : Machine) : Operation → List Int
  | .pop dst =>
    match m.stack.topFirst with
    | [] => []
    | _ :: rest => (dst.toValue.sum? (m.leaving rest)).toList
  | op => op.values.filterMap (·.sum? m)

namespace Operation

open Machine

variable {m : Machine} {op : Operation} {size index depth : Nat}

/-- A pop is refused exactly if there is a word and its place is out of bounds. -/
theorem refused_popInto {dst : Place} :
    Refused (popInto m depth dst).control ↔
      ∃ s ∈ (Operation.pop dst).sums m, ¬ m.memory.InBounds s := by
  cases top : m.stack.topFirst with
  | nil =>
    simp only [popInto, sums, pop_of_nil top, top]
    refine iff_of_false ?_ (by simp)
    rintro ⟨fault, ⟨⟩, address, size, ⟨⟩⟩
  | cons v rest =>
    simp only [popInto, sums, pop_of_cons top, top, Option.mem_toList]
    exact refused_ofChange.trans refused_store

/-- A push is never out of bounds. -/
theorem raises_push_inside (v : Word) : Raises (fun fault => ¬ fault.IsOutOfBounds) (m.push v) :=
  raises_push (by rintro capacity ⟨address, size, ⟨⟩⟩) v

/-- Nor is a pop. -/
theorem raises_pop_inside : Raises (fun fault => ¬ fault.IsOutOfBounds) m.pop :=
  raises_pop (by rintro ⟨address, size, ⟨⟩⟩)

/-- Nor is a division whose divisor is known. -/
theorem raises_divide_inside (divisor : Word) : Raises (fun fault => ¬ fault.IsOutOfBounds)
    ((Arithmetic.idiv (m.register .dx) (m.register .ax) divisor).mapError Fault.ofDivision) := by
  cases Arithmetic.idiv (m.register .dx) (m.register .ax) divisor with
  | ok result => exact .ok _
  | error cause =>
    refine .error ?_
    rintro ⟨address, size, outside⟩
    cases cause <;> cases outside

/-- An operation other than a pop is refused for any of its operands that is outside. -/
theorem refused_of_not_pop (other : ∀ dst, op ≠ .pop dst) :
    Refused (op.execute size index m depth).control ↔ ∃ v ∈ op.values, v.Outside m := by
  have pair (v w : Value) : v.Outside m ∨ w.Outside m ↔ ∃ x ∈ [v, w], x.Outside m := by simp
  have single (v : Value) : v.Outside m ↔ ∃ x ∈ [v], x.Outside m := by simp
  have nothing {k : Control} : Refused (.ok k) ↔ ∃ x ∈ ([] : List Value), x.Outside m :=
    iff_of_false (not_refused_ok k) (by simp)
  cases op with
  | pop dst => exact absurd rfl (other dst)
  | mov dst src =>
    refine refused_ofChange.trans ((refused_value_bind fun w => refused_store).trans ?_)
    exact or_comm.trans (pair dst.toValue src)
  | push src =>
    have push (w : Word) : ¬ Refused (m.push w) := not_refused_of_raises (raises_push_inside w)
    refine refused_ofChange.trans ((refused_value_bind fun w => iff_false_intro (push w)).trans ?_)
    exact (or_iff_left id).trans (single src)
  | binary kind dst src =>
    refine refused_ofChange.trans ((refused_value_bind (v := dst.toValue) fun a =>
      refused_value_bind fun b => refused_storeResult).trans ?_)
    exact Iff.trans (by tauto) (pair dst.toValue src)
  | imul dst src =>
    refine refused_ofChange.trans ((refused_value_bind fun b => refused_storeResult).trans ?_)
    exact or_comm.trans (pair (.register dst) src)
  | idiv src =>
    refine refused_ofChange.trans ((refused_value_bind fun d => iff_false_intro ?_).trans ?_)
    · exact not_refused_of_raises ((raises_divide_inside d).bind fun result => .ok _)
    · exact (or_iff_left id).trans (single src)
  | unary kind dst =>
    refine refused_ofChange.trans ((refused_value_bind (v := dst.toValue) fun a =>
      refused_storeResult).trans ?_)
    exact or_self_iff.trans (single dst.toValue)
  | shift kind dst count =>
    refine refused_ofChange.trans ((refused_value_bind (v := dst.toValue) fun a =>
      refused_value_bind fun b => refused_storeResult).trans ?_)
    exact Iff.trans (by tauto) (pair dst.toValue count)
  | compare kind lhs rhs =>
    refine refused_ofChange.trans ((refused_value_bind (v := lhs.toValue) fun a =>
      refused_value_bind fun b => iff_false_intro (not_refused_ok _)).trans ?_)
    exact Iff.trans (by tauto) (pair lhs.toValue rhs)
  | cqo | jump | loop | nop | hlt => exact nothing
  | call target =>
    refine iff_of_false (not_refused_of_raises ?_) (by simp [values, operands])
    simp only [execute, enter]
    split
    · exact .ok _
    · next fault pushed => exact .error (raises_push_inside _ fault pushed)
  | ret =>
    refine iff_of_false (not_refused_of_raises ?_) (by simp [values, operands])
    simp only [execute, leave]
    split
    · exact .ok _
    · split
      · next fault popped => exact .error (raises_pop_inside fault popped)
      · split
        · exact .ok _
        · refine .error ?_
          rintro ⟨address, size, ⟨⟩⟩

/-- An operand is out of bounds exactly if one of the sums is. -/
theorem exists_outside_iff {vs : List Value} :
    (∃ v ∈ vs, v.Outside m) ↔ ∃ s ∈ vs.filterMap (·.sum? m), ¬ m.memory.InBounds s := by
  simp only [Value.Outside, List.mem_filterMap, Option.mem_def]
  constructor
  · rintro ⟨v, mem, s, sum, outside⟩
    exact ⟨s, ⟨v, mem, sum⟩, outside⟩
  · rintro ⟨s, ⟨v, mem, sum⟩, outside⟩
    exact ⟨v, mem, s, sum, outside⟩

/-- An operation is refused if and only if a sum that it gets to is outside of memory. -/
theorem refused_iff : Refused (op.execute size index m depth).control ↔
    ∃ s ∈ op.sums m, ¬ m.memory.InBounds s := by
  cases op with
  | pop dst => exact refused_popInto
  | _ => exact (refused_of_not_pop (by rintro dst ⟨⟩)).trans exists_outside_iff

end Operation

namespace Execution

/-- A step is refused exactly if it executes an instruction with a sum out of bounds. -/
theorem refused_step_iff {p : Program} {c : Config} {e : Execution} :
    Refused (e.step p c).answer ↔ e.Active ∧ e.steps < c.stepLimit ∧
      ∃ i, p.fetch? e.pc = some i ∧
        ∃ s ∈ i.operation.sums e.machine, ¬ e.machine.memory.InBounds s := by
  constructor
  · rintro ⟨fault, answer, outside⟩
    have stepping := stepping_step p c e
    generalize e.step p c = step at stepping answer
    cases stepping with
    | idle | ended | executed => cases answer
    | limited =>
      cases answer
      obtain ⟨address, size, ⟨⟩⟩ := outside
    | failed active fetched allowed control =>
      cases answer
      exact ⟨active, allowed, _, fetched, Operation.refused_iff.1 ⟨fault, control, outside⟩⟩
  · rintro ⟨active, allowed, i, fetched, reached⟩
    have refused : Refused (i.operation.execute p.size e.pc e.machine e.callDepth).control :=
      Operation.refused_iff.2 reached
    obtain ⟨fault, control, outside⟩ := refused
    rw [step_of_fault active fetched allowed control]
    exact ⟨fault, rfl, outside⟩

end Execution

/-! ## Operands at their exact sums -/

namespace Machine

/-- An operand in memory stands for the word at the exact sum of its base and its displacement. The
address that is computed for it is in bounds if and only if the exact sum is, it is read and written
there, and otherwise refused. So a step fails for an address out of bounds if and only if it
executes an operation that gets to an exact sum outside of memory. -/
theorem addressed_exactly (m : Machine) (ref : MemoryRef) :
    (m.memory.InBounds (ref.address m) ↔ 0 ≤ ref.sum m ∧ ref.sum m < m.memory.size.toNat) ∧
    (m.value (.memory ref) =
      if 0 ≤ ref.sum m ∧ ref.sum m < m.memory.size.toNat then
        .ok ((m.memory.cells.get? (ref.sum m).toNat).getD 0)
      else .error (.outOfBounds (saturate64 (ref.sum m)) m.memory.size)) ∧
    (∀ v, m.store (.memory ref) v =
      if 0 ≤ ref.sum m ∧ ref.sum m < m.memory.size.toNat then
        .ok { m with memory :=
          { m.memory with cells := m.memory.cells.insert (ref.sum m).toNat v } }
      else .error (.outOfBounds (saturate64 (ref.sum m)) m.memory.size)) ∧
    ∀ (p : Program) (c : Config) (e : Execution),
      (∃ address size, (e.step p c).answer = .error (.outOfBounds address size)) ↔
        e.Active ∧ e.steps < c.stepLimit ∧ ∃ i, p.fetch? e.pc = some i ∧
          ∃ s ∈ i.operation.sums e.machine, ¬ (0 ≤ s ∧ s < e.machine.memory.size.toNat) := by
  refine ⟨inBounds_address, ?_, fun v => ?_, fun p c e => ?_⟩
  · split
    · next inside => exact value_of_inBounds inside
    · next outside => exact value_of_outside outside
  · split
    · next inside => exact store_of_inBounds inside v
    · next outside => exact store_of_outside outside v
  · refine Iff.trans ?_ Execution.refused_step_iff
    constructor
    · rintro ⟨address, size, answer⟩
      exact ⟨_, answer, address, size, rfl⟩
    · rintro ⟨fault, answer, address, size, rfl⟩
      exact ⟨address, size, answer⟩

/-- The greatest base in the largest memory: a sum of more than 64 bits, the one after the last
word, and that of the last word. -/
theorem addressed_exactly_last :
    ∃ m : Machine, m.register .bx = 0x7fffffff ∧ m.memory.size = 0xffffffff ∧
      m.value (.memory ⟨some .bx, 0x7fffffffffffffff⟩) =
        .error (.outOfBounds 0x7fffffffffffffff 0xffffffff) ∧
      m.store (.memory ⟨some .bx, 0x80000000⟩) 5 = .error (.outOfBounds 0xffffffff 0xffffffff) ∧
      ∃ m', m.store (.memory ⟨some .bx, 0x7fffffff⟩) 5 = .ok m' ∧
        m'.memory.cells.get? 0xfffffffe = some 5 := by
  let m : Machine := (Machine.new { memorySize := 0xffffffff }).setRegister .bx 0x7fffffff
  obtain ⟨-, wide, -, -⟩ := addressed_exactly m ⟨some .bx, 0x7fffffffffffffff⟩
  obtain ⟨-, -, beyond, -⟩ := addressed_exactly m ⟨some .bx, 0x80000000⟩
  obtain ⟨-, -, last, -⟩ := addressed_exactly m ⟨some .bx, 0x7fffffff⟩
  have cut : saturate64 (MemoryRef.sum ⟨some .bx, 0x7fffffffffffffff⟩ m) = 0x7fffffffffffffff := by
    decide
  have kept : saturate64 (MemoryRef.sum ⟨some .bx, 0x80000000⟩ m) = 0xffffffff := by decide
  rw [if_neg (by decide), cut] at wide
  replace beyond := beyond 5
  rw [if_neg (by decide), kept] at beyond
  replace last := last 5
  rw [if_pos (by decide)] at last
  exact ⟨m, rfl, rfl, wide, beyond, _, last, by decide⟩

end Machine

end AsmTrace

import AsmTrace.Proofs.Runs

/-!
# Which faults operations raise

An address out of bounds is a fault that any operation may raise. All others belong to certain
operations, and `Operation.MayRaise` is the table. What an operation computes raises no other faults
on the way (`Raises`), so the table is complete (`Operation.mayRaise_of_error`).
-/

namespace AsmTrace

/-- Every fault of a computation is one that `P` allows. -/
def Raises {α : Type} (P : Fault → Prop) (x : Except Fault α) : Prop :=
  ∀ fault, x = .error fault → P fault

namespace Raises

variable {α β : Type} {P : Fault → Prop} {x : Except Fault α}

theorem ok (a : α) : Raises P (.ok a : Except Fault α) := by
  intro fault h
  cases h

theorem error {fault : Fault} (allowed : P fault) : Raises P (.error fault : Except Fault α) := by
  intro fault' h
  cases h
  exact allowed

/-- A computation raises only what its parts raise. -/
theorem bind {f : α → Except Fault β} (hx : Raises P x) (hf : ∀ a, Raises P (f a)) :
    Raises P (x >>= f) := by
  cases x with
  | error fault => exact .error (hx fault rfl)
  | ok a => exact hf a

/-- What is done with a result raises nothing. -/
theorem map {f : α → β} (hx : Raises P x) : Raises P (x.map f) := by
  cases x with
  | error fault => exact .error (hx fault rfl)
  | ok a => exact .ok (f a)

/-- The effect of a change raises what the change does. -/
theorem ofChange {m : Machine} {depth : Nat} {x : Except Fault Machine} (hx : Raises P x) :
    Raises P (Effect.ofChange m depth x).control := by
  cases x with
  | error fault => exact .error (hx fault rfl)
  | ok m' => exact .ok _

end Raises

/-! ## Parts of operations -/

namespace Machine

variable {P : Fault → Prop} {m : Machine}

/-- A push raises nothing but an overflow. -/
theorem raises_push (overflow : ∀ capacity, P (.stackOverflow capacity)) (v : Word) :
    Raises P (m.push v) := by
  refine .map ?_
  unfold Stack.push
  split
  · exact .ok _
  · exact .error (overflow _)

/-- A pop raises nothing but an underflow. -/
theorem raises_pop (underflow : P .stackUnderflow) : Raises P m.pop := by
  refine .map ?_
  unfold Stack.pop
  split
  · exact .error underflow
  · exact .ok _

variable (outside : ∀ address size, P (.outOfBounds address size))
include outside

/-- A write raises nothing but an address out of bounds. -/
theorem raises_write (address : Int) (v : Word) : Raises P (m.write address v) := by
  refine .map ?_
  unfold Memory.write
  split
  · exact .ok _
  · exact .error (outside _ _)

/-- Reading an operand raises nothing but an address out of bounds, and only in memory. -/
theorem raises_value (v : Value) : Raises P (m.value v) := by
  cases v with
  | register r => exact .ok _
  | immediate w => exact .ok _
  | memory ref =>
    change Raises P (m.memory.read _)
    unfold Memory.read
    split
    · exact .ok _
    · exact .error (outside _ _)

/-- Storing raises nothing but an address out of bounds, and only in memory. -/
theorem raises_store (p : Place) (v : Word) : Raises P (m.store p v) := by
  cases p with
  | register r => exact .ok _
  | memory ref => exact raises_write outside _ v

/-- Setting flags after storing raises nothing more. -/
theorem raises_storeResult (p : Place) (result : Word × Flags) :
    Raises P (m.storeResult p result) :=
  .map (raises_store outside p _)

end Machine

/-! ## Operations -/

namespace Operation

/-- The faults that an operation may raise. -/
inductive MayRaise : Operation → Fault → Prop
  | outOfBounds (op : Operation) (address : Int) (size : UInt32) :
      MayRaise op (.outOfBounds address size)
  | push (src : Value) (capacity : Nat) : MayRaise (.push src) (.stackOverflow capacity)
  | call (target capacity : Nat) : MayRaise (.call target) (.stackOverflow capacity)
  | pop (dst : Place) : MayRaise (.pop dst) .stackUnderflow
  | ret : MayRaise .ret .stackUnderflow
  | badReturnAddress (address : Int) : MayRaise .ret (.badReturnAddress address)
  | divisionByZero (src : Value) : MayRaise (.idiv src) .divisionByZero
  | divisionOverflow (src : Value) (dividend divisor : Int) :
      MayRaise (.idiv src) (.divisionOverflow dividend divisor)

open Machine

/-- A division raises the faults of division and those of reading its operand. -/
theorem raises_divide (m : Machine) (src : Value) :
    Raises (MayRaise (.idiv src)) (divide m src) := by
  refine .bind (raises_value (.outOfBounds _) src) fun divisor => .bind ?_ fun result => .ok _
  cases Arithmetic.idiv (m.register .dx) (m.register .ax) divisor with
  | ok result => exact .ok _
  | error cause =>
    cases cause with
    | byZero => exact .error (.divisionByZero src)
    | overflow dividend divisor => exact .error (.divisionOverflow src dividend divisor)

/-- An operation raises no other faults than those in the table. -/
theorem mayRaise_of_error {op : Operation} {size index depth : Nat} {m : Machine} {fault : Fault}
    (failed : (op.execute size index m depth).control = .error fault) : op.MayRaise fault := by
  suffices raises : Raises op.MayRaise (op.execute size index m depth).control from
    raises fault failed
  have outside := MayRaise.outOfBounds op
  have value (v : Value) : Raises op.MayRaise (m.value v) := raises_value outside v
  cases op with
  | mov dst src => exact .ofChange (.bind (value src) fun v => raises_store outside dst v)
  | push src => exact .ofChange (.bind (value src) fun v => raises_push (.push src) v)
  | pop dst =>
    simp only [execute, popInto]
    split
    · next fault' popped => exact .error (raises_pop (.pop dst) fault' popped)
    · exact .ofChange (raises_store outside dst _)
  | binary op dst src =>
    exact .ofChange (.bind (value _) fun a => .bind (value src) fun b =>
      raises_storeResult outside dst _)
  | imul dst src => exact .ofChange (.bind (value src) fun b => raises_storeResult outside _ _)
  | idiv src => exact .ofChange (raises_divide m src)
  | unary op dst => exact .ofChange (.bind (value _) fun a => raises_storeResult outside dst _)
  | shift op dst count =>
    exact .ofChange (.bind (value _) fun a => .bind (value count) fun b =>
      raises_storeResult outside dst _)
  | compare op lhs rhs =>
    exact .ofChange (.bind (value _) fun a => .bind (value rhs) fun b => .ok _)
  | cqo | jump | loop | nop | hlt => exact .ok _
  | call target =>
    simp only [execute, enter]
    split
    · exact .ok _
    · next fault' pushed => exact .error (raises_push (.call target) _ fault' pushed)
  | ret =>
    simp only [execute, leave]
    split
    · exact .ok _
    · split
      · next fault' popped => exact .error (raises_pop .ret fault' popped)
      · split
        · exact .ok _
        · exact .error (.badReturnAddress _)

end Operation

/-- Data words raise no other fault than that their address is out of bounds. -/
theorem Execution.outOfBounds_of_loadData {m : Machine} {words : List DataWord} {line : Nat}
    {fault : Fault} (failed : loadData m words = .error (line, fault)) :
    ∃ address size, fault = .outOfBounds address size := by
  obtain ⟨k, word, m₁, -, -, unwritten, -⟩ := exists_of_loadData_error failed
  exact Machine.raises_write (P := fun fault => ∃ address size, fault = .outOfBounds address size)
    (fun address size => ⟨address, size, rfl⟩) word.address word.value fault unwritten

end AsmTrace

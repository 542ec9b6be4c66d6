import AsmTrace.Execution
import AsmTrace.Proofs.Results

/-!
# Operations as sequences of effects

`Operation.execute` gives what an operation does as a whole, with nothing done if it fails, apart
from a popped word. Here an operation is a sequence of single effects on an execution, which are
made one after the other, and what was done before one of them fails stays done. Both come out the
same (`Action.ofOperation_eq`): whatever can fail comes before all that is changed, unless a word
was popped.

The sequences are written over an arbitrary way to assign registers and to compute stack pointers
(`Primitives`), so that it can be asked what an operation needs of them.
-/

namespace AsmTrace

/-- A sequence of effects on an execution. What was done before one of them failed stays done. -/
abbrev Action : Type → Type := EStateM Fault Execution

/-! ## Single effects -/

namespace Action

def register (r : Register) : Action Word := return (← get).machine.register r

def flags : Action Flags := return (← get).machine.flags

def value (src : Value) : Action Word := do ofExcept ((← get).machine.value src)

def load (p : Place) : Action Word := value p.toValue

def change (f : Machine → Machine) : Action Unit :=
  modify fun e => { e with machine := f e.machine }

def setFlags (f : Flags) : Action Unit := change (·.setFlags f)

def write (address : Int) (v : Word) : Action Unit := do
  let memory ← ofExcept ((← get).machine.memory.write address v)
  change fun m => { m with memory }

def setCallDepth (depth : Nat) : Action Unit := modify fun e => { e with callDepth := depth }

end Action

/-- A way to assign registers and to compute stack pointers. -/
structure Primitives where
  assign : Machine → Register → Word → Machine
  pointer : Stack → Word

namespace Primitives

open AsmTrace.Action

/-- What the machine does. -/
def standard : Primitives := ⟨Machine.setRegister, Stack.pointer⟩

variable (q : Primitives)

def setRegister (r : Register) (v : Word) : Action Unit := change (q.assign · r v)

def store (p : Place) (v : Word) : Action Unit :=
  match p with
  | .register r => q.setRegister r v
  | .memory ref => do write (ref.address (← get).machine) v

/-- The stack changes first, and `SP` follows it. -/
def setStack (s : Stack) : Action Unit := do
  change fun m => { m with stack := s }
  change fun m => { m with registers := m.registers.set .sp (q.pointer s) }

def push (v : Word) : Action Unit := do q.setStack (← ofExcept ((← get).machine.stack.push v))

def pop : Action Word := do
  let popped ← ofExcept (← get).machine.stack.pop
  q.setStack popped.2
  return popped.1

/-! ## Operations -/

/-- What an operation of a program of `size` instructions does, one thing after the other. -/
def sequence (size : Nat) : Operation → Action Control
  | .mov dst src => do
    let v ← value src
    q.store dst v
    return .next
  | .push src => do
    let v ← value src
    q.push v
    return .next
  | .pop dst => do
    let v ← q.pop
    q.store dst v
    return .next
  | .binary op dst src => do
    let a ← load dst
    let b ← value src
    let result := op.apply a b (← flags)
    q.store dst result.1
    setFlags result.2
    return .next
  | .imul dst src => do
    let b ← value src
    let result := Arithmetic.imul (← register dst) b (← flags)
    q.setRegister dst result.1
    setFlags result.2
    return .next
  | .idiv src => do
    let divisor ← value src
    let division := Arithmetic.idiv (← register .dx) (← register .ax) divisor
    let (quotient, remainder) ← ofExcept (division.mapError Fault.ofDivision)
    q.setRegister .ax quotient
    q.setRegister .dx remainder
    return .next
  | .cqo => do
    q.setRegister .dx (Arithmetic.signExtension (← register .ax))
    return .next
  | .unary op dst => do
    let a ← load dst
    let result := op.apply a (← flags)
    q.store dst result.1
    setFlags result.2
    return .next
  | .shift op dst count => do
    let a ← load dst
    let count ← value count
    let result := op.apply a count (← flags)
    q.store dst result.1
    setFlags result.2
    return .next
  | .compare op lhs rhs => do
    let a ← load lhs
    let b ← value rhs
    setFlags (op.flags a b (← flags))
    return .next
  | .jump condition target => do
    let f ← flags
    return if condition.all (·.holds f) then .jump target else .next
  | .loop target => do
    let counter := (← register .cx) - 1
    q.setRegister .cx counter
    return if counter = 0 then .next else .jump target
  | .call target => do
    q.push (BitVec.ofNat 32 ((← get).pc + 1))
    setCallDepth ((← get).callDepth + 1)
    return .jump target
  | .ret => do
    if (← get).callDepth = 0 then return .halt .ret
    let address ← q.pop
    setCallDepth ((← get).callDepth - 1)
    if 0 ≤ address.toInt ∧ address.toInt ≤ size then return .jump address.toNat
    throw (.badReturnAddress address.toInt)
  | .nop => return .next
  | .hlt => return .halt .hlt

end Primitives

/-- What an operation of a program of `size` instructions does to the machine, one thing after the
other. -/
def Action.ofOperation (size : Nat) (op : Operation) : Action Control :=
  Primitives.standard.sequence size op

namespace Effect

/-- What comes out of an action that has this effect on an execution. -/
def resultFrom (e : Execution) (effect : Effect) : EStateM.Result Fault Execution Control :=
  let e := { e with machine := effect.machine, callDepth := effect.callDepth }
  match effect.control with
  | .ok control => .ok control e
  | .error fault => .error fault e

/-- What comes out of an effect that is a failure. -/
theorem resultFrom_of_error {e : Execution} {effect : Effect} {fault : Fault}
    (control : effect.control = .error fault) :
    effect.resultFrom e =
      .error fault { e with machine := effect.machine, callDepth := effect.callDepth } := by
  simp only [resultFrom, control]

end Effect

namespace Action

open Primitives

variable {e : Execution}

/-! ## Both come out the same -/

/-- After a part that succeeds, the rest goes on from where it has led. -/
theorem bind_of_ok {α β : Type} {x : Action α} {f : α → Action β} {a : α} {e₁ : Execution}
    (h : x.run e = .ok a e₁) : (x >>= f).run e = (f a).run e₁ := by
  rw [EStateM.run_bind, h]

/-- After a part that fails, nothing more is done, and what was done stays. -/
theorem bind_of_error {α β : Type} {x : Action α} {f : α → Action β} {fault : Fault}
    {e₁ : Execution} (h : x.run e = .error fault e₁) : (x >>= f).run e = .error fault e₁ := by
  rw [EStateM.run_bind, h]

@[simp] theorem get_bind {α : Type} (f : Execution → Action α) :
    (get >>= f).run e = (f e).run e := rfl

@[simp] theorem register_bind {α : Type} (r : Register) (f : Word → Action α) :
    (register r >>= f).run e = (f (e.machine.register r)).run e := rfl

/-- What comes out of an action that makes a change as a whole or not at all. -/
def changed (e : Execution) : Except Fault Machine → EStateM.Result Fault Execution Unit
  | .ok m => .ok () { e with machine := m }
  | .error fault => .error fault e

/-- A write to memory is made as a whole or not at all. -/
@[simp] theorem write_eq (address : Int) (v : Word) :
    (write address v).run e = changed e (e.machine.write address v) := by
  change (MonadExcept.ofExcept (e.machine.memory.write address v) >>=
    fun memory => change fun m => { m with memory } : Action Unit).run e = _
  unfold Machine.write
  cases e.machine.memory.write address v with
  | ok memory => rfl
  | error fault => rfl

/-- So is storing in a register or in memory. -/
@[simp] theorem store_eq (p : Place) (v : Word) :
    (standard.store p v).run e = changed e (e.machine.store p v) := by
  cases p with
  | register r => rfl
  | memory ref =>
    change (get >>= fun e => write (ref.address e.machine) v : Action Unit).run e =
      changed e (e.machine.write (ref.address e.machine) v)
    rw [get_bind, write_eq]

/-- So is a push, although the stack changes before `SP` does. -/
@[simp] theorem push_eq (v : Word) : (standard.push v).run e = changed e (e.machine.push v) := by
  change (MonadExcept.ofExcept (e.machine.stack.push v) >>= standard.setStack :
    Action Unit).run e = _
  unfold Machine.push
  cases e.machine.stack.push v with
  | ok s => rfl
  | error fault => rfl

/-- A pop that succeeds, likewise. -/
theorem pop_of_ok {v : Word} {m : Machine} (popped : e.machine.pop = .ok (v, m)) :
    standard.pop.run e = .ok v { e with machine := m } := by
  obtain ⟨⟨w, s⟩, taken, eq⟩ := Result.map_eq_ok.1 popped
  cases eq
  refine (bind_of_ok rfl).trans ?_
  rw [taken]
  rfl

/-- A pop that fails changes nothing. -/
theorem pop_of_error {fault : Fault} (failed : e.machine.pop = .error fault) :
    standard.pop.run e = .error fault e := by
  refine (bind_of_ok rfl).trans ?_
  unfold Machine.pop at failed
  cases taken : e.machine.stack.pop with
  | ok result =>
    rw [taken] at failed
    cases failed
  | error fault' =>
    rw [taken] at failed
    cases failed
    rfl

/-- Reading comes first and changes nothing. -/
theorem ofExcept_bind {α : Type} {x : Except Fault α} {f : α → Action Control}
    {g : α → Except Fault Machine}
    (h : ∀ a, (f a).run e = (Effect.ofChange e.machine e.callDepth (g a)).resultFrom e) :
    (MonadExcept.ofExcept x >>= f : Action Control).run e =
      (Effect.ofChange e.machine e.callDepth (x >>= g)).resultFrom e := by
  cases x with
  | ok a => exact h a
  | error fault => rfl

/-- Reading an operand is such a reading. -/
theorem value_bind {src : Value} {f : Word → Action Control} {g : Word → Except Fault Machine}
    (h : ∀ v, (f v).run e = (Effect.ofChange e.machine e.callDepth (g v)).resultFrom e) :
    (value src >>= f).run e =
      (Effect.ofChange e.machine e.callDepth (e.machine.value src >>= g)).resultFrom e :=
  ofExcept_bind h

/-- The change comes last. -/
theorem next_of_changed {x : Action Unit} {r : Except Fault Machine}
    (h : x.run e = changed e r) :
    (x >>= fun _ => pure .next : Action Control).run e =
      (Effect.ofChange e.machine e.callDepth r).resultFrom e := by
  cases r with
  | ok m => exact bind_of_ok h
  | error fault => exact bind_of_error h

/-- The change comes last, but for flags, which cannot fail. -/
theorem setFlags_of_changed {x : Action Unit} {r : Except Fault Machine}
    (h : x.run e = changed e r) (f : Flags) :
    (x >>= fun _ => setFlags f >>= fun _ => pure .next : Action Control).run e =
      (Effect.ofChange e.machine e.callDepth (r.map (·.setFlags f))).resultFrom e := by
  cases r with
  | ok m => exact bind_of_ok h
  | error fault => exact bind_of_error h

/-- A return: the call is closed after the pop and before its address is looked at. -/
theorem ret_eq (size : Nat) :
    (ofOperation size .ret).run e = (Operation.leave e.machine e.callDepth size).resultFrom e := by
  change (get >>= fun e => if e.callDepth = 0 then _ else _ : Action Control).run e = _
  rw [get_bind]
  cases depth : e.callDepth with
  | zero =>
    obtain ⟨machine, pc, steps, callDepth, status, statistics⟩ := e
    cases depth
    rfl
  | succ depth' =>
    rw [if_neg (Nat.succ_ne_zero depth')]
    unfold Operation.leave
    cases popped : e.machine.pop with
    | error fault =>
      obtain ⟨machine, pc, steps, callDepth, status, statistics⟩ := e
      cases depth
      exact bind_of_error (pop_of_error popped)
    | ok result =>
      obtain ⟨address, m⟩ := result
      refine (bind_of_ok (pop_of_ok popped)).trans ?_
      rw [get_bind]
      by_cases inside : 0 ≤ address.toInt ∧ address.toInt ≤ size
      · simp only [if_pos inside, depth, Nat.add_sub_cancel]
        rfl
      · simp only [if_neg inside, depth, Nat.add_sub_cancel]
        rfl

/-- Made one after the other, the effects of an operation are those it has as a whole. -/
theorem ofOperation_eq (size : Nat) (e : Execution) (op : Operation) :
    (ofOperation size op).run e =
      (op.execute size e.pc e.machine e.callDepth).resultFrom e := by
  cases op with
  | mov dst src => exact value_bind fun v => next_of_changed (store_eq dst v)
  | push src => exact value_bind fun v => next_of_changed (push_eq v)
  | pop dst =>
    cases popped : e.machine.pop with
    | ok result =>
      obtain ⟨v, m⟩ := result
      simp only [Operation.execute, Operation.popInto, popped]
      refine (bind_of_ok (pop_of_ok popped)).trans ?_
      exact next_of_changed (store_eq dst v)
    | error fault =>
      simp only [Operation.execute, Operation.popInto, popped]
      exact bind_of_error (pop_of_error popped)
  | binary op dst src =>
    exact value_bind fun a => value_bind fun b => setFlags_of_changed (store_eq dst _) _
  | imul dst src =>
    exact value_bind fun b => setFlags_of_changed (store_eq (.register dst) _) _
  | idiv src =>
    refine value_bind fun divisor => ?_
    rw [register_bind, register_bind]
    exact ofExcept_bind fun result => rfl
  | cqo => rfl
  | unary op dst => exact value_bind fun a => setFlags_of_changed (store_eq dst _) _
  | shift op dst count =>
    exact value_bind fun a => value_bind fun b => setFlags_of_changed (store_eq dst _) _
  | compare op lhs rhs => exact value_bind fun a => value_bind fun b => rfl
  | jump condition target => rfl
  | loop target => rfl
  | call target =>
    change (get >>= fun e => standard.push (BitVec.ofNat 32 (e.pc + 1)) >>= _ :
      Action Control).run e = _
    rw [get_bind]
    cases pushed : e.machine.push (BitVec.ofNat 32 (e.pc + 1)) with
    | ok m =>
      simp only [Operation.execute, Operation.enter, pushed]
      refine (bind_of_ok ((push_eq _).trans (congrArg (changed e) pushed))).trans ?_
      rfl
    | error fault =>
      simp only [Operation.execute, Operation.enter, pushed]
      exact bind_of_error ((push_eq _).trans (congrArg (changed e) pushed))
  | ret => exact ret_eq size
  | nop => rfl
  | hlt => rfl

end Action

end AsmTrace

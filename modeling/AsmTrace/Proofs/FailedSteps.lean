import Mathlib.Logic.Function.Iterate
import AsmTrace.Proofs.InOrder
import AsmTrace.Proofs.Runs

/-!
# Steps that fail

A step that fails changes nothing but the status, except that a word may be lost: one that was
popped and could not be stored, or a return address that leads out of the program. These two cases
are `Operation.LosesWord` and `Operation.LosesReturn`; in each of them, and in neither, there is one
equation for the effect of the operation.
-/

namespace AsmTrace

namespace Machine

/-- The machine with those words left on the stack, and `SP` following it. -/
def leaving (m : Machine) (rest : List Word) : Machine :=
  m.withStack { m.stack with topFirst := rest }

section Fields

variable (m : Machine) (rest : List Word)

@[simp] theorem leaving_flags : (m.leaving rest).flags = m.flags := rfl

@[simp] theorem leaving_memory : (m.leaving rest).memory = m.memory := rfl

@[simp] theorem leaving_topFirst : (m.leaving rest).stack.topFirst = rest := rfl

@[simp] theorem leaving_capacity : (m.leaving rest).stack.capacity = m.stack.capacity := rfl

/-- Only `SP` follows the stack. -/
theorem leaving_register_of_ne {r : Register} (ne : r ≠ .sp) :
    (m.leaving rest).register r = m.register r :=
  m.withStack_register_of_ne _ ne

end Fields

/-- A pop takes the top word off the stack. -/
theorem pop_of_cons {m : Machine} {v : Word} {rest : List Word}
    (top : m.stack.topFirst = v :: rest) : m.pop = .ok (v, m.leaving rest) := by
  simp only [pop, Stack.pop, top]
  rfl

/-- There is nothing to pop from an empty stack. -/
theorem pop_of_nil {m : Machine} (empty : m.stack.topFirst = []) :
    m.pop = .error .stackUnderflow := by
  simp only [pop, Stack.pop, empty]
  rfl

/-- A pop that succeeds found a word and left the rest. -/
theorem leaving_of_pop {m m' : Machine} {v : Word} (popped : m.pop = .ok (v, m')) :
    ∃ rest, m.stack.topFirst = v :: rest ∧ m' = m.leaving rest := by
  cases top : m.stack.topFirst with
  | nil => cases (pop_of_nil top).symm.trans popped
  | cons w rest =>
    cases (pop_of_cons top).symm.trans popped
    exact ⟨rest, rfl, rfl⟩

/-- A push puts its word on top if there is room. -/
theorem push_of_lt {m : Machine} (room : m.stack.topFirst.length < m.stack.capacity) (v : Word) :
    m.push v = .ok (m.leaving (v :: m.stack.topFirst)) := by
  simp only [push, Stack.push, if_pos room]
  rfl

/-- There is no room on a full stack. -/
theorem push_of_le {m : Machine} (full : m.stack.capacity ≤ m.stack.topFirst.length) (v : Word) :
    m.push v = .error (.stackOverflow m.stack.capacity) := by
  simp only [push, Stack.push, if_neg (Nat.not_lt.2 full)]
  rfl

/-- A push that succeeds put its word on top. -/
theorem leaving_of_push {m m' : Machine} {v : Word} (pushed : m.push v = .ok m') :
    m' = m.leaving (v :: m.stack.topFirst) := by
  rcases Nat.lt_or_ge m.stack.topFirst.length m.stack.capacity with room | full
  · cases (push_of_lt room v).symm.trans pushed
    rfl
  · cases (push_of_le full v).symm.trans pushed

/-- A write to an address out of bounds fails. -/
theorem write_of_outside {m : Machine} {address : Int} (outside : ¬ m.memory.InBounds address)
    (v : Word) : m.write address v = .error (.outOfBounds address m.memory.size) := by
  simp only [write, Memory.write, if_neg outside]
  rfl

/-- A write to any other address succeeds. -/
theorem write_of_inBounds {m : Machine} {address : Int} (inBounds : m.memory.InBounds address)
    (v : Word) : ∃ m', m.write address v = .ok m' := by
  simp only [write, Memory.write, if_pos inBounds]
  exact ⟨_, rfl⟩

end Machine

namespace Operation

variable {size index depth : Nat} {m : Machine} {op : Operation} {fault : Fault} {rest : List Word}

/-- A pop whose destination in memory is out of bounds. The address is that after the pop, which
leaves `rest` on the stack. -/
inductive LosesWord (m : Machine) (rest : List Word) : Operation → Prop
  | pop {ref : MemoryRef} {v : Word} (top : m.stack.topFirst = v :: rest)
      (outside : ¬ m.memory.InBounds (ref.address (m.leaving rest))) :
      LosesWord m rest (.pop (.memory ref))

/-- A return from a call to an address outside the program, which leaves `rest` on the stack. -/
inductive LosesReturn (size : Nat) (m : Machine) (depth : Nat) (rest : List Word) : Operation → Prop
  | ret {address : Word} (called : 0 < depth) (top : m.stack.topFirst = address :: rest)
      (outside : ¬ (0 ≤ address.toInt ∧ address.toInt ≤ size)) :
      LosesReturn size m depth rest .ret

/-- The effect of a pop that cannot be stored: the word is gone. -/
theorem LosesWord.execute (h : LosesWord m rest op) (size index depth : Nat) :
    ∃ fault, op.execute size index m depth = ⟨m.leaving rest, depth, .error fault⟩ := by
  cases h with
  | @pop ref v top outside =>
    have failed := Machine.write_of_outside (m := m.leaving rest) outside v
    refine ⟨.outOfBounds (ref.address (m.leaving rest)) m.memory.size, ?_⟩
    simp only [Operation.execute, popInto, Machine.pop_of_cons top, Machine.store, failed]
    rfl

/-- The effect of a return out of the program: its address is gone, and one call is closed. -/
theorem LosesReturn.execute (h : LosesReturn size m depth rest op) (index : Nat) :
    ∃ fault, op.execute size index m depth = ⟨m.leaving rest, depth - 1, .error fault⟩ := by
  cases h with
  | @ret address called top outside =>
    cases depth with
    | zero => exact absurd called (Nat.lt_irrefl 0)
    | succ depth =>
      refine ⟨.badReturnAddress address.toInt, ?_⟩
      simp only [Operation.execute, leave, Machine.pop_of_cons top, if_neg outside]
      rfl

/-- A change that is made as a whole or not at all is not made if it fails. -/
theorem ofChange_of_error {x : Except Fault Machine}
    (failed : (Effect.ofChange m depth x).control = .error fault) :
    Effect.ofChange m depth x = ⟨m, depth, .error fault⟩ := by
  cases x with
  | ok m' => cases failed
  | error fault' =>
    cases failed
    rfl

/-- Any other pop that fails found the stack empty. -/
theorem popInto_of_error {dst : Place} (failed : (popInto m depth dst).control = .error fault)
    (keepsWord : ∀ rest, ¬ LosesWord m rest (.pop dst)) :
    popInto m depth dst = ⟨m, depth, .error fault⟩ := by
  unfold popInto at failed ⊢
  cases top : m.stack.topFirst with
  | nil =>
    rw [Machine.pop_of_nil top] at failed ⊢
    cases failed
    rfl
  | cons v rest =>
    rw [Machine.pop_of_cons top] at failed
    cases dst with
    | register r => cases failed
    | memory ref =>
      by_cases inBounds : m.memory.InBounds (ref.address (m.leaving rest))
      · obtain ⟨m', written⟩ := Machine.write_of_inBounds (m := m.leaving rest) inBounds v
        simp only [Machine.store, written] at failed
        cases failed
      · exact absurd (.pop top inBounds) (keepsWord rest)

/-- A call that fails found no room for its address. -/
theorem enter_of_error {target : Nat}
    (failed : (enter m depth index target).control = .error fault) :
    enter m depth index target = ⟨m, depth, .error fault⟩ := by
  unfold enter at failed ⊢
  cases pushed : m.push (BitVec.ofNat 32 (index + 1)) with
  | ok m' =>
    rw [pushed] at failed
    cases failed
  | error fault' =>
    rw [pushed] at failed
    cases failed
    rfl

/-- Any other return that fails found the stack empty. -/
theorem leave_of_error (failed : (leave m depth size).control = .error fault)
    (keepsReturn : ∀ rest, ¬ LosesReturn size m depth rest .ret) :
    leave m depth size = ⟨m, depth, .error fault⟩ := by
  cases depth with
  | zero => cases failed
  | succ depth =>
    unfold leave at failed ⊢
    cases top : m.stack.topFirst with
    | nil =>
      rw [Machine.pop_of_nil top] at failed ⊢
      cases failed
      rfl
    | cons address rest =>
      by_cases inside : 0 ≤ address.toInt ∧ address.toInt ≤ size
      · simp only [Machine.pop_of_cons top, if_pos inside] at failed
        cases failed
      · exact absurd (.ret (Nat.succ_pos depth) top inside) (keepsReturn rest)

/-- Every other operation that fails has no effect. -/
theorem execute_of_error (failed : (op.execute size index m depth).control = .error fault)
    (keepsWord : ∀ rest, ¬ LosesWord m rest op)
    (keepsReturn : ∀ rest, ¬ LosesReturn size m depth rest op) :
    op.execute size index m depth = ⟨m, depth, .error fault⟩ := by
  cases op with
  | mov | push | binary | imul | idiv | cqo | unary | shift | compare =>
    exact ofChange_of_error failed
  | pop dst => exact popInto_of_error failed keepsWord
  | call target => exact enter_of_error failed
  | ret => exact leave_of_error failed keepsReturn
  | jump | loop | nop | hlt => cases failed

end Operation

namespace Execution

variable {p : Program} {c : Config} {e : Execution}

/-- The next instruction is a pop that fails after it has taken a word off the stack. -/
def PopFails (p : Program) (c : Config) (e : Execution) (rest : List Word) : Prop :=
  e.steps < c.stepLimit ∧ ∃ i, p.fetch? e.pc = some i ∧ i.operation.LosesWord e.machine rest

/-- The next instruction is a return that fails after it has taken its address off the stack. -/
def ReturnFails (p : Program) (c : Config) (e : Execution) (rest : List Word) : Prop :=
  e.steps < c.stepLimit ∧
    ∃ i, p.fetch? e.pc = some i ∧ i.operation.LosesReturn p.size e.machine e.callDepth rest

/-- What no step that fails changes. -/
structure Spared (e e' : Execution) : Prop where
  pc : e'.pc = e.pc
  steps : e'.steps = e.steps
  statistics : e'.statistics = e.statistics
  flags : e'.machine.flags = e.machine.flags
  memory : e'.machine.memory = e.machine.memory
  registers : ∀ r, r ≠ .sp → e'.machine.register r = e.machine.register r

/-- Losing a word spares all but the stack, `SP` and the number of open calls. -/
theorem spared_leaving (e : Execution) (rest : List Word) (callDepth : Nat) (status : Status) :
    Spared e { e with machine := e.machine.leaving rest, callDepth, status } where
  pc := rfl
  steps := rfl
  statistics := rfl
  flags := e.machine.leaving_flags rest
  memory := e.machine.leaving_memory rest
  registers := fun _ ne => e.machine.leaving_register_of_ne rest ne

theorem spared_status (e : Execution) (status : Status) : Spared e { e with status } :=
  ⟨rfl, rfl, rfl, rfl, rfl, fun _ _ => rfl⟩

/-- A step fails at the limit or because its instruction fails. -/
theorem step_of_error {fault : Fault} (failed : (e.step p c).answer = .error fault) :
    ∃ e', e.step p c = ⟨e', none, .error fault⟩ ∧
      ((c.stepLimit ≤ e.steps ∧ e' = { e with status := .failed }) ∨
        ∃ i, p.fetch? e.pc = some i ∧ e.steps < c.stepLimit ∧
          (e.effectOf p i).control = .error fault ∧ e' = e.stopped p i) := by
  have stepping := stepping_step p c e
  generalize e.step p c = s at stepping failed
  cases stepping with
  | idle => cases failed
  | ended => cases failed
  | executed => cases failed
  | limited _ _ reached =>
    cases failed
    exact ⟨_, rfl, .inl ⟨reached, rfl⟩⟩
  | @failed i _ _ fetched allowed control =>
    cases failed
    exact ⟨_, rfl, .inr ⟨i, fetched, allowed, control, rfl⟩⟩

/-- How a failed step leaves the execution is told by the effect of its instruction. -/
theorem stopped_of_effectOf {i : Instruction} {effect : Effect} (h : e.effectOf p i = effect) :
    e.stopped p i =
      { e with machine := effect.machine, callDepth := effect.callDepth, status := .failed } := by
  rw [stopped, h]

/-- After a pop that cannot be stored. -/
theorem PopFails.stopped_eq {i : Instruction} {rest : List Word} (h : e.PopFails p c rest)
    (fetched : p.fetch? e.pc = some i) :
    e.stopped p i = { e with status := .failed, machine := e.machine.leaving rest } := by
  obtain ⟨-, i', fetched', loses⟩ := h
  cases fetched.symm.trans fetched'
  obtain ⟨fault, effect⟩ := loses.execute p.size e.pc e.callDepth
  exact stopped_of_effectOf effect

/-- After a return out of the program. -/
theorem ReturnFails.stopped_eq {i : Instruction} {rest : List Word} (h : e.ReturnFails p c rest)
    (fetched : p.fetch? e.pc = some i) :
    e.stopped p i = { e with
      status := .failed, machine := e.machine.leaving rest, callDepth := e.callDepth - 1 } := by
  obtain ⟨-, i', fetched', loses⟩ := h
  cases fetched.symm.trans fetched'
  obtain ⟨fault, effect⟩ := loses.execute e.pc
  exact stopped_of_effectOf effect

/-- After any other instruction that fails, only the status has changed. -/
theorem stopped_of_neither {i : Instruction} {fault : Fault} (fetched : p.fetch? e.pc = some i)
    (allowed : e.steps < c.stepLimit) (control : (e.effectOf p i).control = .error fault)
    (keepsWord : ∀ rest, ¬ e.PopFails p c rest) (keepsReturn : ∀ rest, ¬ e.ReturnFails p c rest) :
    e.stopped p i = { e with status := .failed } := by
  have effect : e.effectOf p i = ⟨e.machine, e.callDepth, .error fault⟩ := by
    apply Operation.execute_of_error control
    · intro rest loses
      exact keepsWord rest ⟨allowed, i, fetched, loses⟩
    · intro rest loses
      exact keepsReturn rest ⟨allowed, i, fetched, loses⟩
  exact stopped_of_effectOf effect

/-- Made one after the other, the effects of an instruction that fails leave the same machine. -/
theorem ofOperation_of_error {i : Instruction} {fault : Fault} (status : Status)
    (control : (e.effectOf p i).control = .error fault) :
    (Action.ofOperation p.size i.operation).run { e with status } =
      .error fault { e.stopped p i with status } := by
  rw [Action.ofOperation_eq]
  exact Effect.resultFrom_of_error control

/-- Once an execution has failed, any number of further steps change nothing. -/
theorem step_iterate_of_failed (failed : e.status = .failed) (n : Nat) :
    ((fun e => (e.step p c).after)^[n] e).step p c = ⟨e, none, .ok .failed⟩ := by
  have idle : e.step p c = ⟨e, none, .ok .failed⟩ := by
    rw [step_of_not_active, failed]
    rintro (status | status)
    · rw [failed] at status
      cases status
    · rw [failed] at status
      cases status
  rw [Function.iterate_fixed (congrArg Step.after idle), idle]

/-- A step that fails leaves everything as it was but the status, unless it lost a word that it had
popped: then the top of the stack is gone, and a return has also left its call. The same comes out
if the effects of the instruction are made one after the other. Every later step does nothing. -/
theorem failed_step {fault : Fault} (failed : (e.step p c).answer = .error fault) :
    ∃ e', e.step p c = ⟨e', none, .error fault⟩ ∧ e'.status = .failed ∧ e.Spared e' ∧
      (∀ rest, e.PopFails p c rest →
        e' = { e with status := .failed, machine := e.machine.leaving rest }) ∧
      (∀ rest, e.ReturnFails p c rest →
        e' = { e with
          status := .failed, machine := e.machine.leaving rest, callDepth := e.callDepth - 1 }) ∧
      ((∀ rest, ¬ e.PopFails p c rest) → (∀ rest, ¬ e.ReturnFails p c rest) →
        e' = { e with status := .failed }) ∧
      (∀ i, p.fetch? e.pc = some i → e.steps < c.stepLimit →
        (Action.ofOperation p.size i.operation).run { e with status := .running } =
          .error fault { e' with status := .running }) ∧
      ∀ n, ((fun e => (e.step p c).after)^[n] e').step p c = ⟨e', none, .ok .failed⟩ := by
  obtain ⟨e', stepped, ⟨reached, rfl⟩ | ⟨i, fetched, allowed, control, rfl⟩⟩ := step_of_error failed
  · have notAllowed : ¬ e.steps < c.stepLimit := Nat.not_lt_of_le reached
    refine ⟨_, stepped, rfl, spared_status e .failed, ?_, ?_, fun _ _ => rfl, ?_,
      step_iterate_of_failed rfl⟩
    · exact fun rest fails => absurd fails.1 notAllowed
    · exact fun rest fails => absurd fails.1 notAllowed
    · exact fun i _ allowed => absurd allowed notAllowed
  · have otherwise := stopped_of_neither fetched allowed control
    refine ⟨_, stepped, rfl, ?_, fun _ pops => pops.stopped_eq fetched,
      fun _ returns => returns.stopped_eq fetched, otherwise, ?_, step_iterate_of_failed rfl⟩
    · by_cases pops : ∃ rest, e.PopFails p c rest
      · obtain ⟨rest, pops⟩ := pops
        rw [pops.stopped_eq fetched]
        exact spared_leaving e rest e.callDepth .failed
      · by_cases returns : ∃ rest, e.ReturnFails p c rest
        · obtain ⟨rest, returns⟩ := returns
          rw [returns.stopped_eq fetched]
          exact spared_leaving e rest (e.callDepth - 1) .failed
        · rw [otherwise (not_exists.1 pops) (not_exists.1 returns)]
          exact spared_status e .failed
    · rintro i' fetched' -
      cases fetched.symm.trans fetched'
      exact ofOperation_of_error .running control

/-- A pop to an address out of bounds and a return to an index out of the program, on the same
stack. -/
theorem failed_step_loses_top :
    ∃ (p : Program) (c : Config) (e : Execution),
      e.machine.stack.topFirst = [7, 8] ∧ e.callDepth = 1 ∧
      (e.step p c).answer = .error (.outOfBounds 9 4) ∧
      (e.step p c).after = { e with status := .failed, machine := e.machine.leaving [8] } ∧
      ({ e with pc := 1 }.step p c).answer = .error (.badReturnAddress 7) ∧
      ({ e with pc := 1 }.step p c).after =
        { e with
          pc := 1
          status := .failed
          machine := e.machine.leaving [8]
          callDepth := 0 } := by
  let p : Program :=
    { instructions := #[⟨1, .pop (.memory ⟨none, 9⟩)⟩, ⟨2, .ret⟩], labels := {}, data := [] }
  let c : Config := { memorySize := 4 }
  let e : Execution := { machine := (Machine.new c).leaving [7, 8], callDepth := 1 }
  have popFails : (e.step p c).answer = .error (.outOfBounds 9 4) := by decide +kernel
  have returnFails : ({ e with pc := 1 }.step p c).answer = .error (.badReturnAddress 7) := by
    decide +kernel
  refine ⟨p, c, e, rfl, rfl, popFails, ?_, returnFails, ?_⟩
  · obtain ⟨e', stepped, -, -, ofPop, -⟩ := failed_step popFails
    rw [stepped]
    exact ofPop [8] ⟨by decide, _, rfl, .pop rfl (by decide)⟩
  · obtain ⟨e', stepped, -, -, -, ofReturn, -⟩ := failed_step returnFails
    rw [stepped]
    exact ofReturn [8] ⟨by decide, _, rfl, .ret (by decide) rfl (by decide)⟩

end Execution

end AsmTrace

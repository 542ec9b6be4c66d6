import AsmTrace.Proofs.Effects
import AsmTrace.Proofs.InOrder

/-!
# What operations ask of the machine

The machine can assign any register and compute the pointer of any stack, but it is not meant to
assign `SP`, nor to have a stack that holds more than its capacity. If a way to do both agrees with
the machine on everything but `SP` and overfull stacks, and an operation comes out the same with it
whatever it does there, then the operation asks for neither.
-/

namespace AsmTrace

namespace Effect

/-- What a sequence of effects comes to. -/
def ofResult : EStateM.Result Fault Execution Control → Effect
  | .ok control e => ⟨e.machine, e.callDepth, .ok control⟩
  | .error fault e => ⟨e.machine, e.callDepth, .error fault⟩

@[simp] theorem ofResult_resultFrom (e : Execution) (effect : Effect) :
    ofResult (effect.resultFrom e) = effect := by
  obtain ⟨m, depth, control⟩ := effect
  cases control with
  | ok control => rfl
  | error fault => rfl

end Effect

namespace Primitives

/-- The primitives are those of the machine, except that assigning `SP` may do anything and so may
computing the pointer of a stack that holds more than its capacity. -/
structure Sound (q : Primitives) : Prop where
  assign (m : Machine) {r : Register} (v : Word) : r ≠ .sp → q.assign m r v = m.setRegister r v
  pointer {s : Stack} : s.size ≤ s.capacity → q.pointer s = s.pointer

/-- The effect of an operation, made with these primitives. -/
def execute (q : Primitives) (size index : Nat) (m : Machine) (callDepth : Nat)
    (op : Operation) : Effect :=
  .ofResult ((q.sequence size op).run { machine := m, pc := index, callDepth })

/-- With the primitives of the machine, operations do what they do. -/
@[simp] theorem execute_standard (size index : Nat) (m : Machine) (depth : Nat) (op : Operation) :
    standard.execute size index m depth op = op.execute size index m depth :=
  (congrArg Effect.ofResult (Action.ofOperation_eq size _ op)).trans
    (Effect.ofResult_resultFrom _ _)

namespace Sound

variable {q : Primitives}

/-! ## Effects that come out the same -/

/-- Sound primitives assign any register but `SP` as the standard ones do. -/
theorem setRegister_eq (sound : q.Sound) {r : Register} (ne : r ≠ .sp) (v : Word) :
    q.setRegister r v = standard.setRegister r v :=
  congrArg Action.change (funext fun m => sound.assign m v ne)

/-- So they store. -/
theorem store_eq (sound : q.Sound) {p : Place} (hp : ∀ r ∈ p.assigned, r ≠ .sp) (v : Word) :
    q.store p v = standard.store p v := by
  cases p with
  | register r => exact sound.setRegister_eq (hp r (List.mem_singleton.2 rfl)) v
  | memory ref => rfl

/-- They let `SP` follow a stack that fits as the standard ones do. -/
theorem setStack_eq (sound : q.Sound) {s : Stack} (room : s.size ≤ s.capacity) :
    q.setStack s = standard.setStack s := by
  unfold setStack
  rw [sound.pointer room]
  rfl

/-- A stack that takes another word is within its capacity, also with that word. -/
theorem push_eq (sound : q.Sound) (v : Word) : q.push v = standard.push v := by
  funext e
  change (MonadExcept.ofExcept (e.machine.stack.push v) >>= q.setStack : Action Unit).run e =
    (MonadExcept.ofExcept (e.machine.stack.push v) >>= standard.setStack : Action Unit).run e
  unfold Stack.push
  split
  · next lt =>
    exact congrFun (sound.setStack_eq
      (s := { e.machine.stack with topFirst := v :: e.machine.stack.topFirst }) lt) e
  · rfl

/-- So they pop. -/
theorem pop_run_eq (sound : q.Sound) {e : Execution}
    (room : e.machine.stack.size ≤ e.machine.stack.capacity) :
    q.pop.run e = standard.pop.run e := by
  change (MonadExcept.ofExcept e.machine.stack.pop >>= fun popped =>
      q.setStack popped.2 >>= fun _ => pure popped.1 : Action Word).run e =
    (MonadExcept.ofExcept e.machine.stack.pop >>= fun popped =>
      standard.setStack popped.2 >>= fun _ => pure popped.1 : Action Word).run e
  unfold Stack.pop
  split
  · rfl
  · next v rest top =>
    have room : rest.length ≤ e.machine.stack.capacity := by
      rw [Stack.size, top, List.length_cons] at room
      exact Nat.le_of_succ_le room
    exact congrArg (fun x : Action Unit => (x >>= fun _ => pure v : Action Word).run e)
      (sound.setStack_eq (s := { e.machine.stack with topFirst := rest }) room)

/-! ## Operations that ask for neither -/

/-- An operation that assigns `SP` nowhere does the same with these primitives, if the stack is
within its capacity. -/
theorem sequence_run_eq (sound : q.Sound) {op : Operation} (hop : ∀ r ∈ op.assigned, r ≠ .sp)
    {e : Execution} (room : e.machine.stack.size ≤ e.machine.stack.capacity) (size : Nat) :
    (q.sequence size op).run e = (standard.sequence size op).run e := by
  cases op with
  | mov dst src => simp only [sequence, sound.store_eq hop]
  | push src => simp only [sequence, sound.push_eq]
  | pop dst =>
    simp only [sequence, sound.store_eq hop]
    rw [EStateM.run_bind, EStateM.run_bind, sound.pop_run_eq room]
  | binary op dst src => simp only [sequence, sound.store_eq hop]
  | imul dst src => simp only [sequence, sound.setRegister_eq (hop dst (List.mem_singleton.2 rfl))]
  | idiv src =>
    have ax (v : Word) := sound.setRegister_eq (r := .ax) (by decide) v
    have dx (v : Word) := sound.setRegister_eq (r := .dx) (by decide) v
    simp only [sequence, ax, dx]
  | cqo =>
    have dx (v : Word) := sound.setRegister_eq (r := .dx) (by decide) v
    simp only [sequence, dx]
  | unary op dst => simp only [sequence, sound.store_eq hop]
  | shift op dst count => simp only [sequence, sound.store_eq hop]
  | compare op lhs rhs => rfl
  | jump condition target => rfl
  | loop target =>
    have cx (v : Word) := sound.setRegister_eq (r := .cx) (by decide) v
    simp only [sequence, cx]
  | call target => simp only [sequence, sound.push_eq]
  | ret =>
    change (get >>= fun e => if e.callDepth = 0 then _ else q.pop >>= _ : Action Control).run e =
      (get >>= fun e => if e.callDepth = 0 then _ else standard.pop >>= _ : Action Control).run e
    rw [Action.get_bind, Action.get_bind]
    split
    · rfl
    · rw [EStateM.run_bind, EStateM.run_bind, sound.pop_run_eq room]
  | nop => rfl
  | hlt => rfl

/-- An operation that assigns `SP` nowhere asks for nothing that the primitives leave open, if the
stack is within its capacity. -/
theorem execute_eq (sound : q.Sound) {op : Operation} (hop : ∀ r ∈ op.assigned, r ≠ .sp)
    {m : Machine} (room : m.stack.size ≤ m.stack.capacity) (size index depth : Nat) :
    q.execute size index m depth op = op.execute size index m depth := by
  rw [← execute_standard, execute, execute, sound.sequence_run_eq hop room]

end Sound

end Primitives

end AsmTrace

import AsmTrace.Proofs.Lockstep
import AsmTrace.Proofs.StackPointer

/-!
# The size of the stack

How many words fit on the stack shows in `SP` and where a push finds no room, and nowhere else. As
long as no instruction names `SP`, machines that differ in nothing but that are in lockstep: their
snapshots agree in everything but `SP`, up to the first overflow of the smaller stack.
-/

namespace AsmTrace

namespace Config

/-- The configuration with another size of the stack. -/
def withStack (c : Config) (size : Nat) : Config := { c with stackSize := size }

end Config

/-- A fault for a push that finds no room. -/
def Fault.IsStackOverflow (fault : Fault) : Prop := ∃ capacity, fault = .stackOverflow capacity

/-- Snapshots that agree in everything but `SP`, which counts what is left of stacks of `size` and
of `size'` words. -/
structure Snapshot.AgreesButPointer (size size' : Nat) (s s' : Snapshot) : Prop where
  line : s.line = s'.line
  registers : ∀ r, r ≠ .sp → s.registers.get r = s'.registers.get r
  flags : s.flags = s'.flags
  memory : s.memory = s'.memory
  stack : s.stack = s'.stack
  pointer : (s.registers.get .sp).toInt = min ((size : Int) - s.stack.length) 0x7fffffff
  pointer' : (s'.registers.get .sp).toInt = min ((size' : Int) - s'.stack.length) 0x7fffffff

namespace Machine

/-- `SP` is the room left on the stack, cut to a word. -/
theorem Coherent.toInt_pointer {c : Config} {m : Machine} (h : Coherent c m) :
    (m.registers.get .sp).toInt =
      min ((c.stackSize : Int) - m.stack.topFirst.length) 0x7fffffff := by
  rw [h.pointer, Stack.toInt_pointer h.room, h.capacity]
  rfl

/-- `Deepened c size m m'` holds when `m` is a machine under `c`, `m'` is one with a stack of `size`
words, and they agree in everything but `SP`. -/
structure Deepened (c : Config) (size : Nat) (m m' : Machine) : Prop where
  coherent : m.Coherent c
  coherent' : m'.Coherent (c.withStack size)
  registers : ∀ r, r ≠ .sp → m.register r = m'.register r
  flags : m.flags = m'.flags
  memory : m.memory = m'.memory
  stack : m.stack.topFirst = m'.stack.topFirst

namespace Deepened

variable {c : Config} {size : Nat} {m m' m₁ m₁' : Machine}

/-- New machines differ in the size of the stack only. -/
theorem new (c : Config) (size : Nat) : Deepened c size (.new c) (.new (c.withStack size)) where
  coherent := coherent_new c
  coherent' := coherent_new (c.withStack size)
  registers := by
    intro r ne
    cases r with
    | sp => exact absurd rfl ne
    | _ => rfl
  flags := rfl
  memory := rfl
  stack := rfl

theorem setRegister {r : Register} (h : Deepened c size m m') (ne : r ≠ .sp) (v : Word) :
    Deepened c size (m.setRegister r v) (m'.setRegister r v) :=
  { h with
    coherent := h.coherent.setRegister v ne
    coherent' := h.coherent'.setRegister v ne
    registers := by
      intro r' ne'
      by_cases eq : r' = r
      · simp [eq]
      · rw [setRegister_register_of_ne _ _ eq, setRegister_register_of_ne _ _ eq]
        exact h.registers r' ne' }

theorem setFlags (h : Deepened c size m m') (f : Flags) :
    Deepened c size (m.setFlags f) (m'.setFlags f) :=
  { h with
    coherent := h.coherent.setFlags f
    coherent' := h.coherent'.setFlags f
    flags := rfl }

/-- Writes match. -/
theorem write (h : Deepened c size m m') (address : Int) (v : Word) :
    Matches Fault.IsStackOverflow (Deepened c size) (m.write address v) (m'.write address v) := by
  cases written : m.memory.write address v with
  | error fault =>
    rw [Machine.write, Machine.write, ← h.memory, written]
    exact .error fault
  | ok memory =>
    have first : m.write address v = .ok { m with memory := memory } := by
      rw [Machine.write, written]
      rfl
    have second : m'.write address v = .ok { m' with memory := memory } := by
      rw [Machine.write, ← h.memory, written]
      rfl
    rw [first, second]
    exact .ok { h with
      coherent := h.coherent.write first
      coherent' := h.coherent'.write second
      memory := rfl }

/-- Machines stay alike when the same words are left on their stacks. -/
theorem withStack {s s' : Stack} (h : Deepened c size m m') (same : s.topFirst = s'.topFirst)
    (coherent : (m.withStack s).Coherent c)
    (coherent' : (m'.withStack s').Coherent (c.withStack size)) :
    Deepened c size (m.withStack s) (m'.withStack s') :=
  { h with
    coherent
    coherent'
    registers := by
      intro r ne
      rw [withStack_register_of_ne _ _ ne, withStack_register_of_ne _ _ ne]
      exact h.registers r ne
    stack := same }

/-- What fits on the smaller stack fits on the larger one. -/
theorem push (le : c.stackSize ≤ size) (h : Deepened c size m m') (v : Word) :
    Matches Fault.IsStackOverflow (Deepened c size) (m.push v) (m'.push v) := by
  by_cases room : m.stack.topFirst.length < m.stack.capacity
  · have capacity' : m'.stack.capacity = size := h.coherent'.capacity
    have room' : m'.stack.topFirst.length < m'.stack.capacity := by
      rw [h.coherent.capacity] at room
      rw [← h.stack, capacity']
      omega
    have first : m.push v =
        .ok (m.withStack { m.stack with topFirst := v :: m.stack.topFirst }) := by
      rw [Machine.push, Stack.push, if_pos room]
      rfl
    have second :
        m'.push v = .ok (m'.withStack { m'.stack with topFirst := v :: m'.stack.topFirst }) := by
      rw [Machine.push, Stack.push, if_pos room']
      rfl
    rw [first, second]
    exact .ok (h.withStack (congrArg (v :: ·) h.stack) (h.coherent.push first)
      (h.coherent'.push second))
  · rw [Machine.push, Stack.push, if_neg room]
    exact .ofExcused ⟨m.stack.capacity, rfl⟩

/-- Pops match, and give the same word. -/
theorem pop (h : Deepened c size m m') :
    Matches Fault.IsStackOverflow (fun x y => x.1 = y.1 ∧ Deepened c size x.2 y.2)
      m.pop m'.pop := by
  cases words : m.stack.topFirst with
  | nil =>
    have words' : m'.stack.topFirst = [] := h.stack ▸ words
    rw [Machine.pop, Machine.pop, Stack.pop, Stack.pop, words, words']
    exact .error .stackUnderflow
  | cons v rest =>
    have words' : m'.stack.topFirst = v :: rest := h.stack ▸ words
    have first : m.pop = .ok (v, m.withStack { m.stack with topFirst := rest }) := by
      rw [Machine.pop, Stack.pop, words]
      rfl
    have second : m'.pop = .ok (v, m'.withStack { m'.stack with topFirst := rest }) := by
      rw [Machine.pop, Stack.pop, words']
      rfl
    rw [first, second]
    exact .ok ⟨rfl, h.withStack rfl (h.coherent.pop first) (h.coherent'.pop second)⟩

/-- A larger stack is seen only through `SP` and where the smaller one overflows. -/
theorem lockstep (le : c.stackSize ≤ size) :
    Lockstep (· ≠ .sp) Fault.IsStackOverflow (Deepened c size) where
  register h ne := h.registers _ ne
  flags h := h.flags
  read h address := by
    rw [Machine.read, Machine.read, h.memory]
    exact .refl _
  setRegister := setRegister
  setFlags := setFlags
  write := write
  push := push le
  pop := pop

/-- Snapshots of such machines agree but for `SP`. -/
theorem agreesButPointer {s s' : Snapshot} (h : Shown (Deepened c size) s s') :
    s.AgreesButPointer c.stackSize size s' := by
  obtain ⟨m, m', line, related, rfl, rfl⟩ := h
  exact
    { line := rfl
      registers := related.registers
      flags := related.flags
      memory := congrArg Memory.cells related.memory
      stack := related.stack
      pointer := related.coherent.toInt_pointer
      pointer' := related.coherent'.toInt_pointer }

end Deepened

end Machine

namespace Program

/-- A program that names `SP` in no instruction, under a configuration and under one that differs
from it only in having a larger stack. A run that does not overflow the smaller stack ends in the
same way with the larger one, after as many snapshots, which agree one by one in everything but
`SP`; one that does has recorded snapshots that agree in the same way with the first ones of the run
with the larger stack. -/
theorem run_with_deeper_stack {p : Program} (c : Config) {size : Nat} (le : c.stackSize ≤ size)
    (spares : ∀ index i, p.fetch? index = some i → .sp ∉ i.operation.registers) :
    ((∀ f, p.run c = .error f → ¬ f.fault.IsStackOverflow) →
      EndsAlike (Snapshot.AgreesButPointer c.stackSize size) (p.run c)
        (p.run (c.withStack size))) ∧
    ∀ f, p.run c = .error f → f.fault.IsStackOverflow →
      ∃ ss, ss <+: snapshotsOf (p.run (c.withStack size)) ∧
        List.Forall₂ (Snapshot.AgreesButPointer c.stackSize size) f.partialTrace.snapshots ss := by
  have lock := Machine.Deepened.lockstep le
  have named : ∀ index i, p.fetch? index = some i → ∀ r ∈ i.operation.registers, r ≠ .sp := by
    rintro index i fetched r mem rfl
    exact spares index i fetched mem
  have agree : ∀ s s', Shown (Machine.Deepened c size) s s' →
      s.AgreesButPointer c.stackSize size s' :=
    fun _ _ => Machine.Deepened.agreesButPointer
  have limit : (c.withStack size).stepLimit = c.stepLimit := rfl
  rcases lock.run (by decide) limit named (Machine.Deepened.new c size) with
    ⟨f, fails, overflow, ss, first, shown⟩ | ends
  · refine ⟨fun none => absurd overflow (none f fails), ?_⟩
    intro f' fails' _
    cases fails.symm.trans fails'
    exact ⟨ss, first, shown.imp agree⟩
  · refine ⟨fun _ => ends.imp agree, ?_⟩
    intro f fails _
    rw [fails] at ends
    generalize p.run (c.withStack size) = r at ends ⊢
    cases ends with
    | error shown => exact ⟨_, List.prefix_rfl, shown.imp agree⟩

/-- Two words that a stack of 1 has no room for, and one of 2 has. -/
theorem run_with_deeper_stack_push :
    ∃ p : Program, assemble (.ofText "push 7\npush ax\npop bx") = .ok p ∧
      (∀ index i, p.fetch? index = some i → .sp ∉ i.operation.registers) ∧
      (∃ f, p.run { stackSize := 1 } = .error f ∧ f.fault = .stackOverflow 1 ∧
        ∃ ss, ss <+: snapshotsOf (p.run { stackSize := 2 }) ∧
          List.Forall₂ (Snapshot.AgreesButPointer 1 2) f.partialTrace.snapshots ss) ∧
      (p.run { stackSize := 2 }).isOk = true ∧
      EndsAlike (Snapshot.AgreesButPointer 2 8) (p.run { stackSize := 2 })
        (p.run { stackSize := 8 }) := by
  let p : Program :=
    { instructions := #[⟨1, .push (.immediate 7)⟩, ⟨2, .push (.register .ax)⟩,
        ⟨3, .pop (.register .bx)⟩]
      labels := {}
      data := [] }
  have spares : ∀ index i, p.fetch? index = some i → .sp ∉ i.operation.registers := by
    have each : ∀ i ∈ p.instructions.toList, .sp ∉ i.operation.registers := by decide
    intro index i fetched
    apply each
    rw [Array.mem_toList_iff]
    exact Array.mem_of_getElem? fetched
  have fits : (p.run { stackSize := 2 }).isOk = true := by decide +kernel
  refine ⟨p, by decide +kernel, spares, ?_, fits,
    (run_with_deeper_stack { stackSize := 2 } (by decide) spares).1 ?_⟩
  · have fault : (p.run { stackSize := 1 }).mapError RunFailure.fault =
        .error (.stackOverflow 1) := by
      decide +kernel
    cases fails : p.run { stackSize := 1 } with
    | ok t =>
      rw [fails] at fault
      cases fault
    | error f =>
      rw [fails] at fault
      have fault : f.fault = .stackOverflow 1 := Except.error.inj fault
      exact ⟨f, rfl, fault,
        (run_with_deeper_stack { stackSize := 1 } (by decide) spares).2 f fails ⟨1, fault⟩⟩
  · intro f fails
    rw [fails] at fits
    cases fits

end Program

end AsmTrace

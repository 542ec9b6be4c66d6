import Mathlib.Data.List.Chain
import AsmTrace.Proofs.Effects
import AsmTrace.Proofs.FailedSteps
import AsmTrace.Proofs.History
import AsmTrace.Proofs.Shifts

/-!
# What instructions touch

An operation changes the part of the machine that it names and no other. What an operation that does
not fail can do to the machine is said once, by `Operation.Alters`; what becomes of memory, stack,
flags and registers follows from that, each by a look at the operations (`Operation.Touches`). So
two snapshots that follow each other are never far apart (`Snapshot.Follows`).
-/

namespace AsmTrace

/-! ## What operations name -/

namespace Operation

/-- The operations that store to memory. -/
def StoresToMemory : Operation → Prop
  | .mov dst _ | .pop dst | .binary _ dst _ | .unary _ dst | .shift _ dst _ => dst.isMemory
  | _ => False

/-- The operations that push a word. -/
def Pushes : Operation → Prop
  | .push _ | .call _ => True
  | _ => False

/-- The operations that pop a word. A return does so only if there is a call to return from. -/
def Pops (depth : Nat) : Operation → Prop
  | .pop _ => True
  | .ret => depth ≠ 0
  | _ => False

/-- The operations that set flags. A shift does so only if its count is no multiple of 32. -/
def SetsFlags (m : Machine) : Operation → Prop
  | .binary .. | .imul .. | .compare .. => True
  | .unary op _ => op ≠ .not
  | .shift _ _ count => ∃ n, m.value count = .ok n ∧ n.toInt % 32 ≠ 0
  | _ => False

/-- The registers that an operation changes: those that it assigns, and `SP` if it pushes or
pops. -/
def Changes (depth : Nat) (r : Register) (op : Operation) : Prop :=
  r ∈ op.assigned ∨ r = .sp ∧ (op.Pushes ∨ op.Pops depth)

end Operation

/-- Memory is the same but for one address, and that one is written. -/
def Cells.WrittenOnce (cells cells' : Cells) : Prop :=
  ∃ a, (cells'.get? a).isSome ∧ ∀ b, b ≠ a → cells'.get? b = cells.get? b

/-- Writing one address writes once. -/
theorem Cells.writtenOnce_insert (cells : Cells) (a : Nat) (v : Word) :
    cells.WrittenOnce (cells.insert a v) := by
  refine ⟨a, ?_, ?_⟩
  · rw [get?_insert, if_pos rfl]
    rfl
  · intro b ne
    rw [get?_insert, if_neg ne]

/-! ## What operations do -/

namespace Machine

variable {m m' : Machine} {v : Word}

/-- `Stored m p m'` holds when `m'` is `m` with a word stored in `p`. -/
inductive Stored (m : Machine) : Place → Machine → Prop
  | register (r : Register) (v : Word) : Stored m (.register r) (m.setRegister r v)
  | memory (ref : MemoryRef) (a : Nat) (v : Word) :
      Stored m (.memory ref)
        { m with memory := { m.memory with cells := m.memory.cells.insert a v } }

/-- A store that succeeds changes its place and nothing else. -/
theorem stored_of_store {p : Place} (stored : m.store p v = .ok m') : Stored m p m' := by
  cases p with
  | register r =>
    cases stored
    exact .register r v
  | memory ref =>
    obtain ⟨memory, written, rfl⟩ := Result.map_eq_ok.1 stored
    unfold Memory.write at written
    split at written
    · cases written
      exact .memory ref _ v
    · cases written

namespace Stored

variable {p : Place}

/-- A store leaves the stack. -/
theorem stack (h : Stored m p m') : m'.stack = m.stack := by
  cases h <;> rfl

/-- A store leaves the flags. -/
theorem flags (h : Stored m p m') : m'.flags = m.flags := by
  cases h <;> rfl

/-- Only a store to memory changes memory. -/
theorem memory_eq (h : Stored m p m') (other : ¬ p.isMemory) : m'.memory = m.memory := by
  cases h with
  | register r v => rfl
  | memory ref a v => exact absurd rfl other

/-- A store to memory writes one address. -/
theorem writtenOnce (h : Stored m p m') (isMemory : p.isMemory) :
    m'.memory.size = m.memory.size ∧ m.memory.cells.WrittenOnce m'.memory.cells := by
  cases h with
  | register r v => cases isMemory
  | memory ref a v => exact ⟨rfl, Cells.writtenOnce_insert m.memory.cells a v⟩

/-- A store changes no register but its place. -/
theorem get_eq (h : Stored m p m') {r : Register} (other : r ∉ p.assigned) :
    m'.registers.get r = m.registers.get r := by
  cases h with
  | register s v => exact RegisterFile.get_set_of_ne (List.ne_of_not_mem_cons other) m.registers v
  | memory ref a v => rfl

end Stored

end Machine

namespace Operation

open Machine Result

variable {m m' : Machine} {op : Operation} {size index depth : Nat}

/-- `Alters m depth op m'` holds when `m'` is what an operation that does not fail can make of
`m`. -/
inductive Alters (m : Machine) (depth : Nat) : Operation → Machine → Prop
  | mov {dst m'} (src : Value) (stored : Stored m dst m') : Alters m depth (.mov dst src) m'
  | binary {dst m'} (kind : BinaryOp) (src : Value) (f : Flags) (stored : Stored m dst m') :
      Alters m depth (.binary kind dst src) (m'.setFlags f)
  | imul (dst : Register) (src : Value) (v : Word) (f : Flags) :
      Alters m depth (.imul dst src) ((m.setRegister dst v).setFlags f)
  | idiv (src : Value) (q r : Word) :
      Alters m depth (.idiv src) ((m.setRegister .ax q).setRegister .dx r)
  | cqo (v : Word) : Alters m depth .cqo (m.setRegister .dx v)
  | unary {kind dst m' f} (stored : Stored m dst m') (kept : kind = .not → f = m.flags) :
      Alters m depth (.unary kind dst) (m'.setFlags f)
  | shift {dst count n m' f} (kind : ShiftOp) (stored : Stored m dst m')
      (counted : m.value count = .ok n) (kept : n.toInt % 32 = 0 → f = m.flags) :
      Alters m depth (.shift kind dst count) (m'.setFlags f)
  | compare (kind : CompareOp) (lhs : Place) (rhs : Value) (f : Flags) :
      Alters m depth (.compare kind lhs rhs) (m.setFlags f)
  | loop (target : Nat) (v : Word) : Alters m depth (.loop target) (m.setRegister .cx v)
  | push (src : Value) (v : Word) : Alters m depth (.push src) (m.leaving (v :: m.stack.topFirst))
  | call (target : Nat) (v : Word) :
      Alters m depth (.call target) (m.leaving (v :: m.stack.topFirst))
  | pop {dst v rest m'} (top : m.stack.topFirst = v :: rest)
      (stored : Stored (m.leaving rest) dst m') : Alters m depth (.pop dst) m'
  | ret {v rest} (called : depth ≠ 0) (top : m.stack.topFirst = v :: rest) :
      Alters m depth .ret (m.leaving rest)
  | retTop (top : depth = 0) : Alters m depth .ret m
  | jump (condition : Option Condition) (target : Nat) : Alters m depth (.jump condition target) m
  | nop : Alters m depth .nop m
  | hlt : Alters m depth .hlt m

/-- A change that is made as a whole alters what the change does. -/
theorem alters_ofChange {x : Except Fault Machine} {k : Control} {m₀ : Machine}
    (ok : (Effect.ofChange m₀ depth x).control = .ok k) (h : Yields (Alters m depth op) x) :
    Alters m depth op (Effect.ofChange m₀ depth x).machine := by
  cases x with
  | ok m' => exact h m' rfl
  | error fault => cases ok

/-- What a result is stored with is a machine with the word stored and the flags set. -/
theorem yields_storeResult {dst : Place} {result : Word × Flags}
    (h : ∀ m', Stored m dst m' → Alters m depth op (m'.setFlags result.2)) :
    Yields (Alters m depth op) (m.storeResult dst result) := by
  intro m₁ changed
  obtain ⟨m', stored, rfl⟩ := map_eq_ok.1 changed
  exact h m' (stored_of_store stored)

/-- A pop alters its place and the stack. -/
theorem alters_popInto {dst : Place} {k : Control} (ok : (popInto m depth dst).control = .ok k) :
    Alters m depth (.pop dst) (popInto m depth dst).machine := by
  unfold popInto at ok ⊢
  cases popped : m.pop with
  | error fault =>
    rw [popped] at ok
    cases ok
  | ok result =>
    obtain ⟨v, m₁⟩ := result
    rw [popped] at ok
    obtain ⟨rest, top, rfl⟩ := leaving_of_pop popped
    exact alters_ofChange ok fun m' stored => .pop top (stored_of_store stored)

/-- A call alters the stack. -/
theorem alters_enter {target : Nat} {k : Control}
    (ok : (enter m depth index target).control = .ok k) :
    Alters m depth (.call target) (enter m depth index target).machine := by
  unfold enter at ok ⊢
  cases pushed : m.push (BitVec.ofNat 32 (index + 1)) with
  | error fault =>
    rw [pushed] at ok
    cases ok
  | ok m' =>
    cases leaving_of_push pushed
    exact .call target _

/-- A return alters the stack, if there is a call to return from. -/
theorem alters_leave {k : Control} (ok : (leave m depth size).control = .ok k) :
    Alters m depth .ret (leave m depth size).machine := by
  cases depth with
  | zero => exact .retTop rfl
  | succ depth =>
    unfold leave at ok ⊢
    cases popped : m.pop with
    | error fault =>
      rw [popped] at ok
      cases ok
    | ok result =>
      obtain ⟨v, m₁⟩ := result
      obtain ⟨rest, top, rfl⟩ := leaving_of_pop popped
      dsimp only
      split <;> exact .ret (Nat.succ_ne_zero depth) top

/-- A shift by a multiple of 32 leaves the flags alone. -/
theorem flags_of_multiple (kind : ShiftOp) (a : Word) {n : Word} (f : Flags)
    (h : n.toInt % 32 = 0) :
    (kind.apply a n f).2 = f := by
  have count := ShiftOp.shiftCount_eq n
  have zero : Arithmetic.shiftCount n = 0 := by omega
  rw [ShiftOp.apply_of_zero kind a f zero]

/-- An operation that does not fail does what `Alters` lists for it. -/
theorem alters_execute {k : Control} (ok : (op.execute size index m depth).control = .ok k) :
    Alters m depth op (op.execute size index m depth).machine := by
  cases op with
  | mov dst src =>
    exact alters_ofChange ok (.bind fun v m' stored => .mov src (stored_of_store stored))
  | push src =>
    refine alters_ofChange ok (.bind fun v m' pushed => ?_)
    cases leaving_of_push pushed
    exact .push src v
  | pop dst => exact alters_popInto ok
  | binary kind dst src =>
    exact alters_ofChange ok (.bind fun a => .bind fun b =>
      yields_storeResult fun m' stored => .binary kind src _ stored)
  | imul dst src =>
    refine alters_ofChange ok (.bind fun b => yields_storeResult fun m' stored => ?_)
    cases stored
    exact .imul dst src _ _
  | idiv src =>
    refine alters_ofChange ok (.bind fun divisor => .bind fun result m' divided => ?_)
    cases divided
    exact .idiv src _ _
  | cqo => exact .cqo _
  | unary kind dst =>
    refine alters_ofChange ok (.bind fun a => yields_storeResult fun m' stored => .unary stored ?_)
    rintro rfl
    rfl
  | shift kind dst count =>
    refine alters_ofChange ok (.bind fun a m₁ changed => ?_)
    obtain ⟨n, counted, changed⟩ := bind_eq_ok.1 changed
    exact yields_storeResult
      (fun m' stored => .shift kind stored counted (flags_of_multiple kind a m.flags)) m₁ changed
  | compare kind lhs rhs =>
    refine alters_ofChange ok (.bind fun a => .bind fun b m' compared => ?_)
    cases compared
    exact .compare kind lhs rhs _
  | jump condition target => exact .jump condition target
  | loop target => exact .loop target _
  | call target => exact alters_enter ok
  | ret => exact alters_leave ok
  | nop => exact .nop
  | hlt => exact .hlt

/-! ## What operations touch -/

/-- `Touches m depth op m'` holds when `m'` differs from `m` only in what the operation names: one
address of memory, one word on the stack, the flags, or certain registers. -/
structure Touches (m : Machine) (depth : Nat) (op : Operation) (m' : Machine) : Prop where
  memory : ¬ op.StoresToMemory → m'.memory = m.memory
  address : op.StoresToMemory →
    m'.memory.size = m.memory.size ∧ m.memory.cells.WrittenOnce m'.memory.cells
  pushed : op.Pushes → ∃ v, m'.stack = { m.stack with topFirst := v :: m.stack.topFirst }
  popped : op.Pops depth → ∃ v, m.stack = { m'.stack with topFirst := v :: m'.stack.topFirst }
  stack : ¬ op.Pushes → ¬ op.Pops depth → m'.stack = m.stack
  flags : ¬ op.SetsFlags m → m'.flags = m.flags
  registers : ∀ r, ¬ op.Changes depth r → m'.registers.get r = m.registers.get r

namespace Alters

/-- Memory is changed only by an operation that stores to it. -/
theorem memory_eq (h : Alters m depth op m') (other : ¬ op.StoresToMemory) :
    m'.memory = m.memory := by
  cases h with
  | mov _ stored | binary _ _ _ stored | unary stored _ | shift _ stored _ _ | pop _ stored =>
    exact stored.memory_eq other
  | _ => rfl

/-- An operation that stores to memory writes one address. -/
theorem writtenOnce (h : Alters m depth op m') (stores : op.StoresToMemory) :
    m'.memory.size = m.memory.size ∧ m.memory.cells.WrittenOnce m'.memory.cells := by
  cases h with
  | mov _ stored | binary _ _ _ stored | unary stored _ | shift _ stored _ _ | pop _ stored =>
    exact stored.writtenOnce stores
  | _ => cases stores

/-- An operation that pushes puts one word on the stack. -/
theorem pushed (h : Alters m depth op m') (pushes : op.Pushes) :
    ∃ v, m'.stack = { m.stack with topFirst := v :: m.stack.topFirst } := by
  cases h with
  | push src v | call target v => exact ⟨v, rfl⟩
  | _ => cases pushes

/-- An operation that pops takes one word off it. -/
theorem popped (h : Alters m depth op m') (pops : op.Pops depth) :
    ∃ v, m.stack = { m'.stack with topFirst := v :: m'.stack.topFirst } := by
  have leaving {v : Word} {rest : List Word} (top : m.stack.topFirst = v :: rest) :
      m.stack = { (m.leaving rest).stack with topFirst := v :: rest } :=
    congrArg (Stack.mk m.stack.capacity) top
  cases h with
  | @pop dst v rest m' top stored =>
    rw [stored.stack]
    exact ⟨v, leaving top⟩
  | @ret v rest called top => exact ⟨v, leaving top⟩
  | retTop outermost => exact absurd outermost pops
  | _ => cases pops

/-- Any other leaves the stack. -/
theorem stack_eq (h : Alters m depth op m') (pushesNot : ¬ op.Pushes) (popsNot : ¬ op.Pops depth) :
    m'.stack = m.stack := by
  cases h with
  | mov _ stored | binary _ _ _ stored | unary stored _ | shift _ stored _ _ => exact stored.stack
  | push | call => exact absurd trivial pushesNot
  | pop => exact absurd trivial popsNot
  | ret called => exact absurd called popsNot
  | _ => rfl

/-- Flags are changed only by an operation that sets them. -/
theorem flags_eq (h : Alters m depth op m') (other : ¬ op.SetsFlags m) : m'.flags = m.flags := by
  cases h with
  | mov _ stored => exact stored.flags
  | pop _ stored => exact stored.flags
  | binary | imul | compare => exact absurd trivial other
  | unary stored kept => exact kept (Classical.not_not.1 other)
  | @shift dst count n m' f kind stored counted kept =>
    exact kept (Classical.byContradiction fun ne => other ⟨n, counted, ne⟩)
  | _ => rfl

/-- No register changes but those that the operation may change. -/
theorem get_eq (h : Alters m depth op m') {r : Register} (other : ¬ op.Changes depth r) :
    m'.registers.get r = m.registers.get r := by
  have notAssigned : r ∉ op.assigned := fun mem => other (.inl mem)
  have leaving (stacked : op.Pushes ∨ op.Pops depth) (rest : List Word) :
      (m.leaving rest).registers.get r = m.registers.get r :=
    RegisterFile.get_set_of_ne (fun sp => other (.inr ⟨sp, stacked⟩)) m.registers _
  cases h with
  | mov _ stored | binary _ _ _ stored | unary stored _ | shift _ stored _ _ =>
    exact stored.get_eq notAssigned
  | imul dst src v f => exact RegisterFile.get_set_of_ne (List.ne_of_not_mem_cons notAssigned) _ v
  | cqo v => exact RegisterFile.get_set_of_ne (List.ne_of_not_mem_cons notAssigned) _ v
  | loop target v => exact RegisterFile.get_set_of_ne (List.ne_of_not_mem_cons notAssigned) _ v
  | idiv src q v =>
    have notDx : r ≠ .dx := List.ne_of_not_mem_cons (List.not_mem_of_not_mem_cons notAssigned)
    exact (RegisterFile.get_set_of_ne notDx _ v).trans
      (RegisterFile.get_set_of_ne (List.ne_of_not_mem_cons notAssigned) m.registers q)
  | push | call => exact leaving (.inl trivial) _
  | ret called => exact leaving (.inr called) _
  | pop top stored => exact (stored.get_eq notAssigned).trans (leaving (.inr trivial) _)
  | compare | retTop | jump | nop | hlt => rfl

/-- An operation touches no more than it alters. -/
theorem touches (h : Alters m depth op m') : Touches m depth op m' where
  memory := h.memory_eq
  address := h.writtenOnce
  pushed := h.pushed
  popped := h.popped
  stack := h.stack_eq
  flags := h.flags_eq
  registers _ := h.get_eq

end Alters

end Operation

/-! ## Snapshots that follow each other -/

namespace Snapshot

/-- What was written in `s` is written in `t`. -/
def StaysWritten (s t : Snapshot) : Prop :=
  ∀ a, (s.memory.get? a).isSome → (t.memory.get? a).isSome

instance : Trans StaysWritten StaysWritten StaysWritten :=
  ⟨fun first second a written => second a (first a written)⟩

/-- `Follows s t` holds when from `s` to `t` no address of memory is lost, at most one differs, and
so does at most one word, at the top of the stack. -/
structure Follows (s t : Snapshot) : Prop where
  written : s.StaysWritten t
  memory : ∃ a, ∀ b, b ≠ a → t.memory.get? b = s.memory.get? b
  stack : t.stack = s.stack ∨ (∃ v, t.stack = v :: s.stack) ∨ ∃ v, s.stack = v :: t.stack

end Snapshot

/-- The snapshot after an operation follows the one before it. -/
theorem Operation.Touches.follows {m m' : Machine} {depth : Nat} {op : Operation}
    (h : Touches m depth op m') (line line' : Nat) :
    (m.snapshot line).Follows (m'.snapshot line') := by
  have stack : m'.stack.topFirst = m.stack.topFirst ∨
      (∃ v, m'.stack.topFirst = v :: m.stack.topFirst) ∨
        ∃ v, m.stack.topFirst = v :: m'.stack.topFirst := by
    by_cases pushes : op.Pushes
    · exact .inr (.inl ((h.pushed pushes).imp fun _ => congrArg Stack.topFirst))
    · by_cases pops : op.Pops depth
      · exact .inr (.inr ((h.popped pops).imp fun _ => congrArg Stack.topFirst))
      · exact .inl (congrArg Stack.topFirst (h.stack pushes pops))
  by_cases stores : op.StoresToMemory
  · obtain ⟨-, a, present, same⟩ := h.address stores
    refine ⟨?_, ⟨a, same⟩, stack⟩
    intro b written
    by_cases eq : b = a
    · rw [eq]
      exact present
    · rw [Machine.snapshot_memory] at written ⊢
      rwa [same b eq]
  · have same : m'.memory.cells = m.memory.cells := congrArg Memory.cells (h.memory stores)
    refine ⟨?_, ⟨0, fun b _ => congrArg (·.get? b) same⟩, stack⟩
    intro b written
    rw [Machine.snapshot_memory] at written ⊢
    rwa [same]

namespace Execution

variable {p : Program} {c : Config} {e e₁ : Execution} {i : Instruction}

/-- If every step relates the machine before it to what it records, a run relates each of its
snapshots to the next. -/
theorem Proceeds.isChain {R : Snapshot → Snapshot → Prop} {ss : List Snapshot}
    (related : ∀ (e : Execution) (s : Snapshot) (line : Nat), (e.step p c).recorded = some s →
      R (e.machine.snapshot line) s)
    (h : Proceeds p c e ss e₁) (line : Nat) :
    (e.machine.snapshot line :: (ss ++ (e₁.step p c).recorded.toList)).IsChain R := by
  induction h generalizing line with
  | refl e =>
    cases recorded : (e.step p c).recorded with
    | none => exact List.isChain_singleton _
    | some s => exact List.isChain_pair.2 (related e s line recorded)
  | @cons e e₁ e₂ s ss goes _ ih =>
    have first := related e s line (by rw [goes])
    obtain ⟨-, -, i, k, -, -, rfl, -, rfl⟩ := goes.performed
    have rest := ih i.line
    rw [performed_machine] at rest
    exact List.isChain_cons_cons.2 ⟨first, rest⟩

/-- What relates a machine to the snapshot of its next step relates consecutive snapshots of a
run. -/
theorem isChain_snapshots {R : Snapshot → Snapshot → Prop}
    (related : ∀ (e : Execution) (s : Snapshot) (line : Nat), (e.step p c).recorded = some s →
      R (e.machine.snapshot line) s) :
    (snapshotsOf (p.run c)).IsChain R := by
  rcases run_cases p c (e := new c) (.inl rfl) with
    ⟨line, fault, -, failed⟩ | ⟨m, ss, e₁, -, proceeds, -, concluded⟩
  · rw [Program.run, failed]
    exact List.isChain_nil
  · rw [Program.run, snapshotsOf_conclusion concluded]
    exact (proceeds.isChain related 0).tail

/-- A step touches no more than its operation does. -/
theorem touches_of_executes (h : e.executes? p c = some i) :
    i.operation.Touches e.machine e.callDepth (e.step p c).after.machine := by
  obtain ⟨k, -, control, after⟩ := performed_of_executes h
  rw [after, performed_machine]
  exact (Operation.alters_execute control).touches

/-- The snapshot that a step records follows the machine before the step. -/
theorem follows_of_recorded {s : Snapshot} (recorded : (e.step p c).recorded = some s)
    (line : Nat) :
    (e.machine.snapshot line).Follows s := by
  rcases executes?_cases p c e with ⟨i, k, executes, -, control, -, recorded'⟩ | ⟨-, recorded', -⟩
  · cases recorded.symm.trans recorded'
    exact (Operation.alters_execute control).touches.follows line i.line
  · cases recorded.symm.trans recorded'

/-- A step that executes nothing and does not fail leaves the machine. -/
theorem machine_of_executes_none (h : e.executes? p c = none) (ok : (e.step p c).answer.isOk) :
    (e.step p c).after.machine = e.machine := by
  have stepping := stepping_step p c e
  unfold executes? at h
  generalize e.step p c = s at stepping ok h
  cases stepping with
  | idle | ended => rfl
  | limited | failed => cases ok
  | executed active fetched =>
    rw [if_pos ⟨active, ok⟩, fetched] at h
    cases h

/-- Executing an instruction touches the parts of the machine that its operation names and no other,
and a step that executes none, without failing, touches nothing. Along the trace of every run,
complete or not, an address that was written stays written, and each snapshot differs from the one
before in at most one address of memory and at most one word at the top of the stack. -/
theorem touches_named_parts (p : Program) (c : Config) :
    (∀ (e : Execution) (i : Instruction), e.executes? p c = some i →
      i.operation.Touches e.machine e.callDepth (e.step p c).after.machine) ∧
    (∀ e : Execution, e.executes? p c = none → (e.step p c).answer.isOk →
      (e.step p c).after.machine = e.machine) ∧
    (snapshotsOf (p.run c)).Pairwise Snapshot.StaysWritten ∧
    (snapshotsOf (p.run c)).IsChain Snapshot.Follows := by
  have follows : (snapshotsOf (p.run c)).IsChain Snapshot.Follows :=
    isChain_snapshots fun _ _ line recorded => follows_of_recorded recorded line
  have written : (snapshotsOf (p.run c)).IsChain Snapshot.StaysWritten :=
    follows.imp fun _ _ next => next.written
  exact ⟨fun _ _ => touches_of_executes, fun _ => machine_of_executes_none, written.pairwise,
    follows⟩

/-- A pop into memory after a push: one address, one word on the stack, no flags. -/
theorem touches_named_parts_pop :
    ∃ (p : Program) (e : Execution),
      e.executes? p {} = some ⟨2, .pop (.memory ⟨none, 3⟩)⟩ ∧
      e.machine.memory.cells.WrittenOnce (e.step p {}).after.machine.memory.cells ∧
      (∃ v, e.machine.stack = { (e.step p {}).after.machine.stack with
        topFirst := v :: (e.step p {}).after.machine.stack.topFirst }) ∧
      (e.step p {}).after.machine.flags = e.machine.flags ∧
      (snapshotsOf (p.run {})).IsChain Snapshot.Follows := by
  let p : Program :=
    { instructions := #[⟨1, .push (.immediate 7)⟩, ⟨2, .pop (.memory ⟨none, 3⟩)⟩]
      labels := {}
      data := [] }
  let e : Execution := ((Execution.new {}).step p {}).after
  have pops : e.executes? p {} = some ⟨2, .pop (.memory ⟨none, 3⟩)⟩ := by decide +kernel
  obtain ⟨touches, -, -, follows⟩ := touches_named_parts p {}
  have touched := touches e _ pops
  exact ⟨p, e, pops, (touched.address rfl).2, touched.popped trivial, touched.flags id, follows⟩

end Execution

end AsmTrace

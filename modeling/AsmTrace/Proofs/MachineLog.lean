import AsmTrace.Proofs.FailedSteps
import AsmTrace.Proofs.StackPointer

/-!
# The machine as a log of calls

A log keeps nothing but the calls that succeeded and answers from them: a read with the word that
was written last, a pop with the last word that was pushed and not popped since. The machine answers
every sequence of calls as the log does. `Represents` says how what the machine holds follows from
the log: its memory has the words that were written, its stack those that were pushed and not
popped, and `SP` follows the stack. One call keeps this (`Represents.serve`), so all do
(`represents_serveAll`).
-/

namespace AsmTrace

/-- The entries of cells are what is found in them. -/
@[simp] theorem Cells.mem_entries_iff (cells : Cells) {a : Nat} {w : Word} :
    (a, w) ∈ cells.entries ↔ cells.get? a = some w := by
  have distinct : (cells.entries.map Prod.fst).Nodup :=
    List.pairwise_map.2 (cells.ascending.imp Nat.ne_of_lt)
  exact ⟨Result.lookup_eq_some_of_mem distinct, Result.mem_of_lookup_eq_some⟩

namespace Machine

/-! ## Calls -/

/-- A call to a machine and what it is given. -/
inductive Call where
  | setRegister (r : Register) (v : Word)
  | setFlags (f : Flags)
  | read (address : Int)
  | write (address : Int) (v : Word)
  | push (v : Word)
  | pop
  deriving DecidableEq, Repr

/-- A call fails, or answers with the word that was read or popped, if any. -/
abbrev Answer : Type := Except Fault (Option Word)

/-- What a call answers, with the machine after it. -/
def call (m : Machine) : Call → Except Fault (Option Word × Machine)
  | .setRegister r v => .ok (none, m.setRegister r v)
  | .setFlags f => .ok (none, m.setFlags f)
  | .read a => (m.read a).map fun v => (some v, m)
  | .write a v => (m.write a v).map fun m' => (none, m')
  | .push v => (m.push v).map fun m' => (none, m')
  | .pop => m.pop.map fun popped => (some popped.1, popped.2)

/-- Answers a call. If it fails, the machine is the same after it. -/
def serve (m : Machine) (call : Call) : Answer × Machine :=
  match m.call call with
  | .ok (w, m') => (.ok w, m')
  | .error fault => (.error fault, m)

/-- Answers calls one after the other. -/
def serveAll {σ : Type} (serve : σ → Call → Answer × σ) (s : σ) : List Call → List Answer × σ
  | [] => ([], s)
  | call :: calls =>
    let first := serve s call
    let rest := serveAll serve first.2 calls
    (first.1 :: rest.1, rest.2)

/-! ## The log -/

namespace Call

/-- The word that a call writes to an address. -/
def writes? (a : Int) : Call → Option Word
  | .write b v => if b = a then some v else none
  | _ => none

/-- The word that a call assigns to a register. -/
def assigns? (r : Register) : Call → Option Word
  | .setRegister s v => if s = r then some v else none
  | _ => none

/-- The flags that a call sets. -/
def flags? : Call → Option Flags
  | .setFlags f => some f
  | _ => none

end Call

/-- The calls that succeeded, the last one first. -/
abbrev Log : Type := List Call

namespace Log

/-- The word that was last written to an address. -/
def written (a : Int) (log : Log) : Option Word := log.findSome? (·.writes? a)

/-- The word that was last assigned to a register. -/
def assigned (r : Register) (log : Log) : Option Word := log.findSome? (·.assigns? r)

/-- The flags that were set last. -/
def flags (log : Log) : Option Flags := log.findSome? (·.flags?)

/-- The words that were pushed and not popped since, the last one first. -/
def stack : Log → List Word
  | [] => []
  | .push v :: log => v :: stack log
  | .pop :: log => (stack log).tail
  | _ :: log => stack log

/-- What a call answers after those in the log. -/
def answer (c : Config) (log : Log) : Call → Answer
  | .setRegister .. | .setFlags _ => .ok none
  | .read a =>
    if 0 ≤ a ∧ a < c.memorySize.toNat then .ok (some ((written a log).getD 0))
    else .error (.outOfBounds a c.memorySize)
  | .write a _ =>
    if 0 ≤ a ∧ a < c.memorySize.toNat then .ok none else .error (.outOfBounds a c.memorySize)
  | .push _ =>
    if (stack log).length = c.stackSize then .error (.stackOverflow c.stackSize) else .ok none
  | .pop =>
    match stack log with
    | [] => .error .stackUnderflow
    | v :: _ => .ok (some v)

/-- Answers a call and keeps it if it succeeds. -/
def serve (c : Config) (log : Log) (call : Call) : Answer × Log :=
  (answer c log call, if (answer c log call).isOk then call :: log else log)

theorem written_write (a b : Int) (v : Word) (log : Log) :
    written b (.write a v :: log) = if a = b then some v else written b log := by
  unfold written
  rw [List.findSome?_cons]
  by_cases eq : a = b <;> simp [Call.writes?, eq]

theorem assigned_setRegister (r s : Register) (v : Word) (log : Log) :
    assigned s (.setRegister r v :: log) = if r = s then some v else assigned s log := by
  unfold assigned
  rw [List.findSome?_cons]
  by_cases eq : r = s <;> simp [Call.assigns?, eq]

end Log

/-! ## What the machine does -/

variable {c : Config} {log : Log} {m m' : Machine}

/-- A write succeeds exactly if its address is in bounds. -/
theorem write_eq_ok {a : Int} {v : Word} : m.write a v = .ok m' ↔ m.memory.InBounds a ∧
    m' = { m with memory := { m.memory with cells := m.memory.cells.insert a.toNat v } } := by
  by_cases inBounds : m.memory.InBounds a
  · rw [write, Memory.write, if_pos inBounds]
    constructor
    · rintro ⟨⟩
      exact ⟨inBounds, rfl⟩
    · rintro ⟨-, rfl⟩
      rfl
  · rw [write_of_outside inBounds]
    constructor
    · rintro ⟨⟩
    · rintro ⟨inside, -⟩
      exact absurd inside inBounds

/-- The bounds are those of the configuration. -/
theorem Coherent.inBounds_iff (h : Coherent c m) {a : Int} :
    m.memory.InBounds a ↔ 0 ≤ a ∧ a < c.memorySize.toNat := by
  rw [← h.memorySize]
  rfl

/-! ## Machines that logs stand for -/

/-- `Represents c log m` holds when `m` is coherent and holds what the log says. -/
structure Represents (c : Config) (log : Log) (m : Machine) : Prop extends Coherent c m where
  stored : ∀ a : Nat, m.memory.cells.get? a = Log.written a log
  nonneg : ∀ (a : Int) (w : Word), Log.written a log = some w → 0 ≤ a
  stacked : m.stack.topFirst = Log.stack log
  assigned : ∀ r, r ≠ .sp → m.register r = (Log.assigned r log).getD 0
  flagged : m.flags = (Log.flags log).getD {}

/-- The empty log represents a new machine. -/
theorem represents_new (c : Config) : Represents c [] (new c) where
  toCoherent := coherent_new c
  stored := fun _ => rfl
  nonneg := by
    intro a w written
    cases written
  stacked := rfl
  assigned := by
    intro r ne
    cases r with
    | sp => exact absurd rfl ne
    | _ => rfl
  flagged := rfl

namespace Represents

/-- A read in bounds gives what was last written there, or zero. -/
theorem read_of_inBounds (h : Represents c log m) {a : Int}
    (inBounds : 0 ≤ a ∧ a < c.memorySize.toNat) : m.read a = .ok ((Log.written a log).getD 0) := by
  have stored := h.stored a.toNat
  rw [Int.toNat_of_nonneg inBounds.1] at stored
  rw [← stored, read, Memory.read, if_pos (h.inBounds_iff.2 inBounds)]

/-- A read out of bounds fails. -/
theorem read_of_outside (h : Represents c log m) {a : Int}
    (outside : ¬ (0 ≤ a ∧ a < c.memorySize.toNat)) :
    m.read a = .error (.outOfBounds a c.memorySize) := by
  rw [read, Memory.read, if_neg (mt h.inBounds_iff.1 outside), h.memorySize]

/-- What a read gives, and when. -/
theorem read_eq_ok (h : Represents c log m) {a : Int} {w : Word} : m.read a = .ok w ↔
    (0 ≤ a ∧ a < c.memorySize.toNat) ∧ w = (Log.written a log).getD 0 := by
  by_cases inBounds : 0 ≤ a ∧ a < c.memorySize.toNat
  · rw [h.read_of_inBounds inBounds, Except.ok.injEq]
    exact ⟨fun eq => ⟨inBounds, eq.symm⟩, fun h => h.2.symm⟩
  · rw [h.read_of_outside inBounds]
    constructor
    · rintro ⟨⟩
    · rintro ⟨inside, -⟩
      exact absurd inside inBounds

/-- The entries of memory are the words that were written. -/
theorem written_eq_some (h : Represents c log m) {a : Int} {w : Word} :
    Log.written a log = some w ↔ ∃ n : Nat, a = n ∧ (n, w) ∈ m.memory.cells.entries := by
  constructor
  · intro written
    have eq := Int.toNat_of_nonneg (h.nonneg a w written)
    refine ⟨a.toNat, eq.symm, (Cells.mem_entries_iff _).2 ?_⟩
    rw [h.stored, eq, written]
  · rintro ⟨n, rfl, mem⟩
    rw [← h.stored n]
    exact (Cells.mem_entries_iff _).1 mem

/-- There are never more words on the stack than it has room for. -/
theorem length_le (h : Represents c log m) : (Log.stack log).length ≤ c.stackSize := by
  rw [← h.stacked, ← h.capacity]
  exact h.room

/-- There is room for a word unless the log has as many as fit. -/
theorem push_of_ne (h : Represents c log m) (room : (Log.stack log).length ≠ c.stackSize)
    (v : Word) :
    m.push v = .ok (m.leaving (v :: m.stack.topFirst)) := by
  have le := h.length_le
  refine push_of_lt ?_ v
  rw [h.stacked, h.capacity]
  omega

/-- A push on a full stack fails. -/
theorem push_of_eq (h : Represents c log m) (full : (Log.stack log).length = c.stackSize)
    (v : Word) :
    m.push v = .error (.stackOverflow c.stackSize) := by
  rw [← h.capacity]
  refine push_of_le (Nat.le_of_eq ?_) v
  rw [h.stacked, h.capacity, full]

/-- A push fails exactly if the stack is full. -/
theorem push_eq_error (h : Represents c log m) (v : Word) :
    (∃ fault, m.push v = .error fault) ↔ (Log.stack log).length = c.stackSize := by
  constructor
  · rintro ⟨fault, failed⟩
    by_contra room
    cases (h.push_of_ne room v).symm.trans failed
  · intro full
    exact ⟨_, h.push_of_eq full v⟩

/-- A pop fails exactly if the stack is empty. -/
theorem pop_eq_error (h : Represents c log m) :
    (∃ fault, m.pop = .error fault) ↔ Log.stack log = [] := by
  rw [← h.stacked]
  constructor
  · rintro ⟨fault, failed⟩
    cases top : m.stack.topFirst with
    | nil => rfl
    | cons v rest => cases (pop_of_cons top).symm.trans failed
  · intro empty
    exact ⟨_, pop_of_nil empty⟩

/-- The machine answers as the log does. -/
theorem answer_eq (h : Represents c log m) (call : Call) :
    Log.answer c log call = (m.call call).map Prod.fst := by
  cases call with
  | setRegister | setFlags => rfl
  | read a =>
    simp only [Log.answer, Machine.call]
    split
    · next inBounds =>
      rw [h.read_of_inBounds inBounds]
      rfl
    · next outside =>
      rw [h.read_of_outside outside]
      rfl
  | write a v =>
    simp only [Log.answer, Machine.call]
    split
    · next inBounds =>
      rw [write_eq_ok.2 ⟨h.inBounds_iff.2 inBounds, rfl⟩]
      rfl
    · next outside =>
      rw [write_of_outside (mt h.inBounds_iff.1 outside), h.memorySize]
      rfl
  | push v =>
    simp only [Log.answer, Machine.call]
    split
    · next full =>
      rw [h.push_of_eq full]
      rfl
    · next room =>
      rw [h.push_of_ne room]
      rfl
  | pop =>
    simp only [Log.answer, Machine.call, ← h.stacked]
    cases top : m.stack.topFirst with
    | nil =>
      rw [pop_of_nil top]
      rfl
    | cons v rest =>
      rw [pop_of_cons top]
      rfl

/-! ### Calls that succeed -/

/-- Assigning a register is logged. -/
theorem setRegister (h : Represents c log m) {r : Register} (ne : r ≠ .sp) (v : Word) :
    Represents c (.setRegister r v :: log) (m.setRegister r v) := by
  refine ⟨h.toCoherent.setRegister v ne, h.stored, h.nonneg, h.stacked, ?_, h.flagged⟩
  intro s other
  rw [Log.assigned_setRegister, register, Machine.setRegister, RegisterFile.get_set]
  by_cases eq : r = s
  · rw [if_pos eq, if_pos eq.symm]
    rfl
  · rw [if_neg eq, if_neg (Ne.symm eq)]
    exact h.assigned s other

/-- A write is logged. -/
theorem write (h : Represents c log m) {a : Int} {v : Word} (done : m.write a v = .ok m') :
    Represents c (.write a v :: log) m' := by
  have coherent := h.toCoherent.write done
  obtain ⟨⟨nonneg, -⟩, rfl⟩ := write_eq_ok.1 done
  refine ⟨coherent, ?_, ?_, h.stacked, h.assigned, h.flagged⟩
  · intro b
    have same : b = a.toNat ↔ a = b := by omega
    rw [Cells.get?_insert, Log.written_write, h.stored b]
    simp only [same]
  · intro b w last
    rw [Log.written_write] at last
    split at last
    · next eq => exact eq ▸ nonneg
    · exact h.nonneg b w last

/-- Only `SP` follows the stack. -/
theorem assigned_leaving (h : Represents c log m) (rest : List Word) (r : Register) (ne : r ≠ .sp) :
    (m.leaving rest).register r = (Log.assigned r log).getD 0 := by
  rw [← h.assigned r ne]
  exact RegisterFile.get_set_of_ne ne m.registers _

/-- A push is logged. -/
theorem push (h : Represents c log m) {v : Word} (done : m.push v = .ok m') :
    Represents c (.push v :: log) m' := by
  have coherent := h.toCoherent.push done
  cases leaving_of_push done
  exact ⟨coherent, h.stored, h.nonneg, congrArg (v :: ·) h.stacked, h.assigned_leaving _, h.flagged⟩

/-- A pop is logged. -/
theorem pop (h : Represents c log m) {v : Word} (done : m.pop = .ok (v, m')) :
    Represents c (.pop :: log) m' := by
  have coherent := h.toCoherent.pop done
  obtain ⟨rest, top, rfl⟩ := leaving_of_pop done
  have stacked : rest = (Log.stack log).tail := by rw [← h.stacked, top, List.tail_cons]
  exact ⟨coherent, h.stored, h.nonneg, stacked, h.assigned_leaving rest, h.flagged⟩

/-- A call that succeeds may be added to the log. -/
theorem call (h : Represents c log m) {call : Call} (spares : ∀ v, call ≠ .setRegister .sp v)
    {w : Option Word} (done : m.call call = .ok (w, m')) : Represents c (call :: log) m' := by
  cases call with
  | setRegister r v =>
    cases done
    exact h.setRegister (fun eq => spares v (congrArg (Call.setRegister · v) eq)) v
  | setFlags f =>
    cases done
    exact ⟨h.toCoherent.setFlags f, h.stored, h.nonneg, h.stacked, h.assigned, rfl⟩
  | read a =>
    obtain ⟨v, -, eq⟩ := Result.map_eq_ok.1 done
    cases eq
    exact ⟨h.toCoherent, h.stored, h.nonneg, h.stacked, h.assigned, h.flagged⟩
  | write a v =>
    obtain ⟨m₁, written, eq⟩ := Result.map_eq_ok.1 done
    cases eq
    exact h.write written
  | push v =>
    obtain ⟨m₁, pushed, eq⟩ := Result.map_eq_ok.1 done
    cases eq
    exact h.push pushed
  | pop =>
    obtain ⟨⟨v, m₁⟩, popped, eq⟩ := Result.map_eq_ok.1 done
    cases eq
    exact h.pop popped

/-- One call is answered alike, and the machine still holds what the log says. -/
theorem serve (h : Represents c log m) {call : Call} (spares : ∀ v, call ≠ .setRegister .sp v) :
    (m.serve call).1 = (Log.serve c log call).1 ∧
      Represents c (Log.serve c log call).2 (m.serve call).2 := by
  have answer := h.answer_eq call
  unfold Machine.serve Log.serve
  rw [answer]
  cases done : m.call call with
  | ok result => exact ⟨rfl, h.call spares done⟩
  | error fault => exact ⟨rfl, h⟩

end Represents

/-- All calls are answered alike, and the machine then holds what the log says. -/
theorem represents_serveAll (h : Represents c log m) {calls : List Call}
    (spares : ∀ v, .setRegister .sp v ∉ calls) :
    (serveAll serve m calls).1 = (serveAll (Log.serve c) log calls).1 ∧
      Represents c (serveAll (Log.serve c) log calls).2 (serveAll serve m calls).2 := by
  induction calls generalizing log m with
  | nil => exact ⟨rfl, h⟩
  | cons call calls ih =>
    have first : ∀ v, call ≠ .setRegister .sp v := by
      rintro v rfl
      exact spares v List.mem_cons_self
    obtain ⟨same, kept⟩ := h.serve first
    obtain ⟨rest, holds⟩ := ih kept fun v mem => spares v (List.mem_cons_of_mem call mem)
    exact ⟨congrArg₂ List.cons same rest, holds⟩

/-! ## Calls as effects -/

/-- A call as a sequence of effects on an execution. -/
def Call.action : Call → Action (Option Word)
  | .setRegister r v => do
    Primitives.standard.setRegister r v
    return none
  | .setFlags f => do
    Action.setFlags f
    return none
  | .read a => do
    let v ← ofExcept ((← get).machine.read a)
    return some v
  | .write a v => do
    Action.write a v
    return none
  | .push v => do
    Primitives.standard.push v
    return none
  | .pop => do
    let v ← Primitives.standard.pop
    return some v

/-- What comes out of an action that makes a call as a whole or not at all. -/
def answered (e : Execution) :
    Except Fault (Option Word × Machine) → EStateM.Result Fault Execution (Option Word)
  | .ok (w, m) => .ok w { e with machine := m }
  | .error fault => .error fault e

theorem answered_of_changed {e : Execution} {x : Action Unit} {r : Except Fault Machine}
    (h : x.run e = Action.changed e r) :
    (x >>= fun _ => pure none : Action (Option Word)).run e =
      answered e (r.map fun m => (none, m)) := by
  cases r with
  | ok m => exact Action.bind_of_ok h
  | error fault => exact Action.bind_of_error h

/-- Made one after the other, the effects of a call are those it has as a whole. So a call that
fails has changed nothing. -/
theorem Call.action_eq (call : Call) (e : Execution) :
    call.action.run e = answered e (e.machine.call call) := by
  cases call with
  | setRegister | setFlags => rfl
  | read a =>
    refine (Action.get_bind _).trans ?_
    simp only [Machine.call]
    cases e.machine.read a with
    | ok v => rfl
    | error fault => rfl
  | write a v => exact answered_of_changed (Action.write_eq a v)
  | push v => exact answered_of_changed (Action.push_eq v)
  | pop =>
    simp only [Machine.call]
    cases popped : e.machine.pop with
    | ok result => exact Action.bind_of_ok (Action.pop_of_ok popped)
    | error fault => exact Action.bind_of_error (Action.pop_of_error popped)

end Machine

/-! ## Snapshots -/

/-- The machine that a snapshot was taken of. -/
def Snapshot.restore (s : Snapshot) (c : Config) : Machine where
  registers := s.registers
  flags := s.flags
  memory := { size := c.memorySize, cells := s.memory }
  stack := { capacity := c.stackSize, topFirst := s.stack }

namespace Machine

/-- A machine can be restored from its snapshot. -/
theorem Coherent.restore_snapshot {c : Config} {m : Machine} (h : Coherent c m) (line : Nat) :
    (m.snapshot line).restore c = m := by
  obtain ⟨registers, flags, memory, stack⟩ := m
  simp only [Snapshot.restore, snapshot, ← h.capacity, ← h.memorySize]

/-- `SP` says how many more words fit. -/
theorem Represents.pointer_eq {c : Config} {log : Log} {m : Machine} (h : Represents c log m) :
    (m.register .sp).toInt = min ((c.stackSize : Int) - (Log.stack log).length) 0x7fffffff := by
  have pointer := Stack.toInt_pointer h.room
  rw [Stack.size, h.stacked, h.capacity] at pointer
  rw [← pointer, ← h.pointer]
  rfl

/-- A machine answers every sequence of calls, none of which assigns `SP`, as the log of those that
succeeded does. Afterwards it reads an address that is in bounds, and no other, as the word that was
written to it last, or as zero. The words it has stored are those that were written. Its stack is
that of the log: a push fails if and only if it is full, a pop if and only if it is empty, and `SP`
says how many more words fit. Every other register and the flags are what they were last set to. A
call that fails has not changed the execution in which it was made. The machine is the one that any
snapshot of it, with the sizes, restores. -/
theorem calls_answered_from_log (c : Config) {calls : List Call}
    (spares : ∀ v, .setRegister .sp v ∉ calls) :
    ∃ answers log m, serveAll (Log.serve c) [] calls = (answers, log) ∧
      serveAll serve (new c) calls = (answers, m) ∧
      (∀ a w, m.read a = .ok w ↔
        (0 ≤ a ∧ a < c.memorySize.toNat) ∧ w = (Log.written a log).getD 0) ∧
      (∀ a w, Log.written a log = some w ↔ ∃ n : Nat, a = n ∧ (n, w) ∈ m.memory.cells.entries) ∧
      m.stack.topFirst = Log.stack log ∧ (Log.stack log).length ≤ c.stackSize ∧
      (∀ v, (∃ fault, m.push v = .error fault) ↔ (Log.stack log).length = c.stackSize) ∧
      ((∃ fault, m.pop = .error fault) ↔ Log.stack log = []) ∧
      (m.register .sp).toInt = min ((c.stackSize : Int) - (Log.stack log).length) 0x7fffffff ∧
      (∀ r, r ≠ .sp → m.register r = (Log.assigned r log).getD 0) ∧
      m.flags = (Log.flags log).getD {} ∧
      (∀ (call : Call) (e : Execution), e.machine = m →
        call.action.run e = answered e (m.call call)) ∧
      ∀ line, (m.snapshot line).restore c = m := by
  obtain ⟨same, holds⟩ := represents_serveAll (represents_new c) spares
  generalize logged : serveAll (Log.serve c) [] calls = byLog at same holds
  generalize served : serveAll serve (new c) calls = byMachine at same holds
  obtain ⟨answers, log⟩ := byLog
  obtain ⟨_, m⟩ := byMachine
  cases same
  refine ⟨answers, log, m, rfl, rfl, fun _ _ => holds.read_eq_ok, fun _ _ => holds.written_eq_some,
    holds.stacked, holds.length_le, holds.push_eq_error, holds.pop_eq_error, holds.pointer_eq,
    holds.assigned, holds.flagged, ?_, holds.restore_snapshot⟩
  rintro call e rfl
  exact call.action_eq e

/-- Four words of memory and a stack of one word, with writes and reads out of bounds, a push too
many and a pop too many. -/
theorem calls_answered_from_log_bounds :
    (∀ v, Call.setRegister .sp v ∉
      [Call.write 3 7, .write 4 9, .write 3 8, .setRegister .ax 2, .push 5, .push 6, .pop, .pop,
        .read 3, .read (-1), .push 4]) ∧
    ∃ m, serveAll serve (new { memorySize := 4, stackSize := 1 })
        [.write 3 7, .write 4 9, .write 3 8, .setRegister .ax 2, .push 5, .push 6, .pop, .pop,
          .read 3, .read (-1), .push 4] =
      ([.ok none, .error (.outOfBounds 4 4), .ok none, .ok none, .ok none,
        .error (.stackOverflow 1), .ok (some 5), .error .stackUnderflow, .ok (some 8),
        .error (.outOfBounds (-1) 4), .ok none], m) ∧
      m.read 3 = .ok 8 ∧ m.register .ax = 2 ∧ m.stack.topFirst = [4] ∧ (m.register .sp).toInt = 0 ∧
      (∃ fault, m.push 1 = .error fault) ∧
      ∀ line, (m.snapshot line).restore { memorySize := 4, stackSize := 1 } = m := by
  let c : Config := { memorySize := 4, stackSize := 1 }
  let calls : List Call :=
    [.write 3 7, .write 4 9, .write 3 8, .setRegister .ax 2, .push 5, .push 6, .pop, .pop, .read 3,
      .read (-1), .push 4]
  have spares : ∀ v, Call.setRegister .sp v ∉ calls := by
    intro v
    simp [calls]
  have byLog : serveAll (Log.serve c) [] calls =
      ([.ok none, .error (.outOfBounds 4 4), .ok none, .ok none, .ok none,
        .error (.stackOverflow 1), .ok (some 5), .error .stackUnderflow, .ok (some 8),
        .error (.outOfBounds (-1) 4), .ok none],
      [.push 4, .read 3, .pop, .push 5, .setRegister .ax 2, .write 3 8, .write 3 7]) := by
    decide +kernel
  obtain ⟨answers, log, m, logged, served, read, -, stacked, -, push, -, pointer, register, -, -,
    restored⟩ := calls_answered_from_log c spares
  cases logged.symm.trans byLog
  exact ⟨spares, m, served, (read 3 8).2 ⟨by decide, rfl⟩, register .ax (by decide), stacked,
    pointer, (push 1).2 rfl, restored⟩

end Machine

end AsmTrace

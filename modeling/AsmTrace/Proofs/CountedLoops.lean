import AsmTrace.Proofs.Footprints
import AsmTrace.Proofs.ForwardRuns

/-!
# Counted loops

A loop instruction counts down in `CX` and goes back unless the counter has become zero. It counts
before it looks, so a counter that starts at zero stands for `0x100000000` rounds. A block that
leads nowhere but to the next instruction and leaves the counter alone, with a loop back to its
start after it, is then gone through once for each round (`Loop.rounds`): the block is passed
(`Loop.passes_body`), the loop counts (`Execution.step_of_loop`), and the two together are a round
(`Loop.round`).
-/

namespace AsmTrace

/-- How often a loop is executed whose counter starts at this word. -/
def Word.rounds (counter : Word) : Nat := if counter = 0 then 0x100000000 else counter.toNat

theorem Word.toNat_pred (w : Word) : (w - 1).toNat = (0xffffffff + w.toNat) % 0x100000000 :=
  BitVec.toNat_sub w 1

theorem Word.rounds_eq (counter : Word) : counter.rounds = (counter - 1).toNat + 1 := by
  have lt := counter.isLt
  have zero : counter = 0 ↔ counter.toNat = 0 := BitVec.toNat_inj.symm
  rw [rounds, toNat_pred]
  split
  · next start => rw [zero.1 start]
  · next start =>
    have pos : 0 < counter.toNat := Nat.pos_of_ne_zero (mt zero.2 start)
    omega

/-- A count that is not over is one less after the next round. -/
theorem Word.toNat_pred_of_succ {counter : Word} {left : Nat} (h : counter.toNat = left + 1) :
    (counter - 1).toNat = left := by
  have lt := counter.isLt
  rw [toNat_pred]
  omega

namespace Program

/-- The instructions from an index on, `count` of them. -/
def slice (p : Program) (index count : Nat) : List Instruction :=
  (p.instructions.toList.drop index).take count

theorem slice_of_fetch {p : Program} {index : Nat} {i : Instruction}
    (fetched : p.fetch? index = some i) (count : Nat) :
    p.slice index (count + 1) = i :: p.slice (index + 1) count := by
  rw [slice, drop_of_fetch fetched, List.take_succ_cons, slice]

theorem slice_concat {p : Program} {index count : Nat} {i : Instruction}
    (fetched : p.fetch? (index + count) = some i) :
    p.slice index (count + 1) = p.slice index count ++ [i] := by
  have last : (p.instructions.toList.drop index)[count]? = some i := by
    rw [List.getElem?_drop, Array.getElem?_toList]
    exact fetched
  rw [slice, List.take_add_one, last]
  rfl

theorem length_slice {p : Program} {index count : Nat} (le : index + count ≤ p.size) :
    (p.slice index count).length = count := by
  rw [slice, List.length_take, List.length_drop, Array.length_toList]
  exact Nat.min_eq_left (Nat.le_sub_of_add_le' le)

/-- `Loop p b k` holds when the `k` instructions from `b` on neither jump, loop, call, return nor
halt, do not assign the counter, and are followed by a loop back to `b`. -/
structure Loop (p : Program) (b k : Nat) : Prop where
  body : ∀ j < k, ∃ i, p.fetch? (b + j) = some i ∧ i.operation.Plain ∧ .cx ∉ i.operation.assigned
  back : ∃ line, p.fetch? (b + k) = some ⟨line, .loop b⟩

end Program

namespace Execution

variable {p : Program} {c : Config} {e e₁ e₂ : Execution} {i : Instruction} {b k n : Nat}
  {evs evs' : List Event} {ss : List Snapshot}

/-! ## Chains of events -/

theorem Passes.append (h : Passes p c e evs e₁) (h' : Passes p c e₁ evs' e₂) :
    Passes p c e (evs ++ evs') e₂ := by
  induction h with
  | refl => exact h'
  | cons executes active _ ih => exact .cons executes active (ih h')

/-- A step that goes on, as an event. -/
theorem Goes.passes {s : Snapshot} (goes : Goes p c e s e₁) (fetched : p.fetch? e.pc = some i) :
    Passes p c e [⟨i, e₁⟩] e₁ := by
  have executes : e.executes? p c = some i := by
    rw [executes?, if_pos ⟨goes.performed.1, by rw [goes]; rfl⟩, fetched]
  have after : (e.step p c).after = e₁ := congrArg Step.after goes
  subst after
  exact .cons executes goes.active (.refl _)

/-- A step that executes an instruction and leaves the execution active goes on. -/
theorem goes_of_executes (executes : e.executes? p c = some i)
    (active : (e.step p c).after.Active) :
    Goes p c e ((e.step p c).after.machine.snapshot i.line) (e.step p c).after := by
  obtain ⟨⟨started, ok⟩, -⟩ := Option.ite_none_right_eq_some.1 executes
  rcases started.goes_or_last (p := p) (c := c) with
    ⟨s, e₁, goes⟩ | ⟨reason, halts⟩ | ⟨fault, fails⟩
  · obtain ⟨i', executes', rfl⟩ := goes.executes
    cases executes.symm.trans executes'
    rw [goes]
    exact goes
  · exact absurd active (not_active_iff.2 (.inl ⟨reason, status_of_ok halts⟩))
  · rw [fails] at ok
    cases ok

/-- Every chain of events is one of steps. -/
theorem Passes.proceeds (h : Passes p c e evs e₁) : Proceeds p c e (evs.map Event.snapshot) e₁ := by
  induction h with
  | refl e => exact .refl e
  | cons executes active _ ih => exact .cons (goes_of_executes executes active) ih

/-! ## Steps of a loop -/

/-- `Spares p c b k n e` holds when no instruction at the `k` indices from `b` on fails that is
reached from `e` in less than `n` steps. -/
def Spares (p : Program) (c : Config) (b k n : Nat) (e : Execution) : Prop :=
  ∀ ss e₁ i, Proceeds p c e ss e₁ → ss.length < n → b ≤ e₁.pc → e₁.pc < b + k →
    p.fetch? e₁.pc = some i → ∀ fault, (e₁.effectOf p i).control ≠ .error fault

theorem Spares.after (h : Spares p c b k n e) {m : Nat} (proceeds : Proceeds p c e ss e₁)
    (enough : ss.length + m ≤ n) : Spares p c b k m e₁ := by
  intro ts e₂ i further lt
  refine h (ss ++ ts) e₂ i (proceeds.append further) ?_
  rw [List.length_append]
  omega

/-- A plain instruction that does not fail leads to the next one. -/
theorem goes_of_plain (active : e.Active) (allowed : e.steps < c.stepLimit)
    (fetched : p.fetch? e.pc = some i) (plain : i.operation.Plain)
    (spared : ∀ fault, (e.effectOf p i).control ≠ .error fault) :
    (e.effectOf p i).control = .ok .next ∧
      Goes p c e ((e.effectOf p i).machine.snapshot i.line) (e.performed p i .next) := by
  cases control : (e.effectOf p i).control with
  | error fault => exact absurd control (spared fault)
  | ok k =>
    cases plain.next control
    exact ⟨rfl, step_of_ok active fetched allowed control⟩

/-- What does not assign the counter leaves it alone. -/
theorem counter_of_ok {control : Control} (ok : (e.effectOf p i).control = .ok control)
    (other : .cx ∉ i.operation.assigned) :
    (e.effectOf p i).machine.register .cx = e.machine.register .cx := by
  refine (Operation.alters_execute ok).get_eq ?_
  rintro (assigned | ⟨sp, -⟩)
  · exact other assigned
  · cases sp

theorem effectOf_loop (p : Program) (e : Execution) (line target : Nat) :
    e.effectOf p ⟨line, .loop target⟩ =
      ⟨e.machine.setRegister .cx (e.machine.register .cx - 1), e.callDepth,
        .ok (if e.machine.register .cx - 1 = 0 then .next else .jump target)⟩ := rfl

/-- The step of a loop counts down and changes nothing else in the machine. -/
theorem step_of_loop {line target : Nat} (active : e.Active) (allowed : e.steps < c.stepLimit)
    (fetched : p.fetch? e.pc = some ⟨line, .loop target⟩) :
    ∃ s e₁, Goes p c e s e₁ ∧
      e₁.machine = e.machine.setRegister .cx (e.machine.register .cx - 1) ∧
      e₁.pc = if e.machine.register .cx - 1 = 0 then e.pc + 1 else target := by
  by_cases last : e.machine.register .cx - 1 = 0
  · have control : (e.effectOf p ⟨line, .loop target⟩).control = .ok .next := by
      rw [effectOf_loop, if_pos last]
    refine ⟨_, _, step_of_ok active fetched allowed control, ?_, ?_⟩
    · rw [performed_machine, effectOf_loop]
    · rw [if_pos last, performed_next_pc]
  · have control : (e.effectOf p ⟨line, .loop target⟩).control = .ok (.jump target) := by
      rw [effectOf_loop, if_neg last]
    refine ⟨_, _, step_of_ok active fetched allowed control, ?_, ?_⟩
    · rw [performed_machine, effectOf_loop]
    · rw [if_neg last, performed_jump_pc]

end Execution

namespace Program.Loop

open Execution

variable {p : Program} {c : Config} {e : Execution} {b k : Nat}

/-! ## Rounds -/

theorem lt_size (loop : p.Loop b k) : b + k < p.size := by
  obtain ⟨line, fetched⟩ := loop.back
  exact lt_size_of_fetch fetched

/-- What is left of the block is passed, and the counter stays. -/
theorem passes_body (loop : p.Loop b k) {left : Nat} (le : left ≤ k) (active : e.Active)
    (here : e.pc + left = b + k) (enough : e.steps + left ≤ c.stepLimit)
    (spares : Spares p c b k left e) :
    ∃ evs e₁, Passes p c e evs e₁ ∧ evs.map Event.instruction = p.slice e.pc left ∧
      e₁.pc = b + k ∧ e₁.machine.register .cx = e.machine.register .cx := by
  induction left generalizing e with
  | zero => exact ⟨[], e, .refl e, rfl, here, rfl⟩
  | succ left ih =>
    obtain ⟨i, fetched, plain, other⟩ := loop.body (e.pc - b) (by omega)
    rw [Nat.add_sub_cancel' (by omega)] at fetched
    obtain ⟨control, goes⟩ := goes_of_plain (c := c) active (by omega) fetched plain
      (spares [] e i (.refl e) (Nat.succ_pos left) (by omega) (by omega) fetched)
    obtain ⟨evs, e₁, passes, executed, pc, counter⟩ := ih (by omega) goes.active
      (by rw [performed_next_pc]; omega) (by rw [goes.steps_eq]; omega)
      (spares.after (.cons goes (.refl _)) (by simp; omega))
    refine ⟨_, e₁, (goes.passes fetched).append passes, ?_, pc, ?_⟩
    · rw [List.map_append, executed, slice_of_fetch fetched, performed_next_pc]
      rfl
    · rw [counter, performed_machine]
      exact counter_of_ok control other

/-- A round: the block, and the loop that counts it. -/
theorem round (loop : p.Loop b k) (active : e.Active) (start : e.pc = b)
    (enough : e.steps + (k + 1) ≤ c.stepLimit) (spares : Spares p c b k (k + 1) e) :
    ∃ evs e₁, Passes p c e evs e₁ ∧ evs.length = k + 1 ∧
      evs.map Event.instruction = p.slice b (k + 1) ∧
      e₁.machine.register .cx = e.machine.register .cx - 1 ∧
      e₁.pc = if e.machine.register .cx - 1 = 0 then b + k + 1 else b := by
  obtain ⟨evs, e₁, passes, executed, pc, counter⟩ := loop.passes_body (Nat.le_refl k) active
    (by rw [start]) (by omega) (spares.after (.refl e) (by simp))
  obtain ⟨line, fetched⟩ := loop.back
  have steps := passes.proceeds.steps_eq
  have length : evs.length = k := by
    rw [← List.length_map Event.instruction, executed, start]
    exact length_slice (Nat.le_of_lt loop.lt_size)
  rw [List.length_map, length] at steps
  obtain ⟨s, e₂, goes, machine, pc'⟩ := step_of_loop (c := c) (passes.proceeds.active active)
    (by omega) (pc ▸ fetched)
  refine ⟨_, e₂, passes.append (goes.passes (pc ▸ fetched)), ?_, ?_, ?_, ?_⟩
  · rw [List.length_append, length]
    rfl
  · rw [List.map_append, executed, start, slice_concat fetched]
    rfl
  · rw [machine, counter, Machine.setRegister_register]
  · rw [pc', counter, pc]

/-- As many rounds as the counter says. -/
theorem rounds (loop : p.Loop b k) (active : e.Active) (start : e.pc = b) {n : Nat}
    (count : (e.machine.register .cx).rounds = n) (enough : e.steps + n * (k + 1) ≤ c.stepLimit)
    (spares : Spares p c b k (n * (k + 1)) e) :
    ∃ evs e₁, Passes p c e evs e₁ ∧ evs.length = n * (k + 1) ∧
      evs.map Event.instruction = (List.replicate n (p.slice b (k + 1))).flatten ∧
      e₁.pc = b + k + 1 ∧ e₁.machine.register .cx = 0 := by
  rw [Word.rounds_eq] at count
  subst count
  -- on what the counter is after the first round, which is the number of rounds that follow it
  generalize left : (e.machine.register .cx - 1).toNat = m at enough spares ⊢
  induction m generalizing e with
  | zero =>
    have zero : e.machine.register .cx - 1 = 0 := BitVec.eq_of_toNat_eq left
    rw [Nat.zero_add, Nat.one_mul] at enough spares
    obtain ⟨evs, e₁, passes, length, executed, counter, pc⟩ := loop.round active start enough spares
    rw [if_pos zero] at pc
    refine ⟨evs, e₁, passes, ?_, ?_, pc, counter.trans zero⟩
    · rw [length, Nat.zero_add, Nat.one_mul]
    · simpa using executed
  | succ m ih =>
    have more : e.machine.register .cx - 1 ≠ 0 := by
      intro zero
      rw [zero] at left
      cases left
    have split : (m + 1 + 1) * (k + 1) = (k + 1) + (m + 1) * (k + 1) := by
      rw [Nat.succ_mul, Nat.add_comm]
    rw [split] at enough spares ⊢
    obtain ⟨evs, e₁, passes, length, executed, counter, pc⟩ := loop.round active start
      (by omega) (spares.after (.refl e) (by simp))
    rw [if_neg more] at pc
    have proceeds := passes.proceeds
    have steps := proceeds.steps_eq
    rw [List.length_map, length] at steps
    obtain ⟨evs', e₂, passes', length', executed', rest⟩ := ih (proceeds.active active) pc
      (counter ▸ Word.toNat_pred_of_succ left) (by omega) (spares.after proceeds (by simp [length]))
    refine ⟨evs ++ evs', e₂, passes.append passes', ?_, ?_, rest⟩
    · rw [List.length_append, length, length']
    · rw [List.map_append, executed, executed', List.replicate_succ (n := m + 1), List.flatten_cons]

/-- An execution that comes to a block with a loop back to its start executes block and loop as
often as the counter says, read as an unsigned number, where zero stands for `0x100000000`: if no
instruction of the block fails and the limit is not reached, it records one snapshot for each of
these instructions, with their lines, and goes on after the loop with the counter at zero. A loop
itself changes no flags. -/
theorem counted_rounds (loop : p.Loop b k) (active : e.Active) (start : e.pc = b) {n : Nat}
    (count : (e.machine.register .cx).rounds = n) (enough : e.steps + n * (k + 1) ≤ c.stepLimit)
    (spares : Spares p c b k (n * (k + 1)) e) :
    (events p c (n * (k + 1)) e).map Event.instruction =
      (List.replicate n (p.slice b (k + 1))).flatten ∧
    (∃ ss e₁, Proceeds p c e ss e₁ ∧ ss.length = n * (k + 1) ∧
      ss.map Snapshot.line = (List.replicate n ((p.slice b (k + 1)).map Instruction.line)).flatten ∧
      e₁.Active ∧ e₁.pc = b + k + 1 ∧ e₁.machine.register .cx = 0) ∧
    ∀ (e : Execution) line target, e.executes? p c = some ⟨line, .loop target⟩ →
      (e.step p c).after.machine.flags = e.machine.flags := by
  obtain ⟨evs, e₁, passes, length, executed, pc, counter⟩ :=
    loop.rounds active start count enough spares
  have proceeds := passes.proceeds
  refine ⟨?_, ⟨evs.map Event.snapshot, e₁, proceeds, ?_, ?_, proceeds.active active, pc, counter⟩,
    ?_⟩
  · have all : events p c (evs.length + 0) e = evs ++ [] := passes.events_eq 0
    rw [← length, ← executed, ← Nat.add_zero evs.length, all, List.append_nil]
  · rw [List.length_map, length]
  · have lines : (evs.map Event.snapshot).map Snapshot.line =
        (evs.map Event.instruction).map Instruction.line := by
      rw [List.map_map, List.map_map]
      rfl
    rw [lines, executed, List.map_flatten, List.map_replicate]
  · intro e line target executes
    exact (touches_of_executes executes).flags id

/-- From a counter of zero a block of one instruction is executed `0x100000000` times. -/
theorem counted_rounds_from_zero :
    ∃ p, assemble (.ofText "a: inc ax\nloop a") = .ok p ∧ p.Loop 0 1 ∧
      ∃ ss e₁, Proceeds p { stepLimit := 0x200000000 } (new { stepLimit := 0x200000000 }) ss e₁ ∧
        ss.length = 0x200000000 ∧
        ss.map Snapshot.line = (List.replicate 0x100000000 [1, 2]).flatten ∧
        e₁.pc = 2 ∧ e₁.machine.register .cx = 0 := by
  let p : Program :=
    { instructions := #[⟨1, .unary .inc (.register .ax)⟩, ⟨2, .loop 0⟩]
      labels := ⟨[("a", .code 0)]⟩
      data := [] }
  let c : Config := { stepLimit := 0x200000000 }
  have assembled : assemble (.ofText "a: inc ax\nloop a") = .ok p := by decide +kernel
  have loop : p.Loop 0 1 := by
    refine ⟨?_, 2, rfl⟩
    intro j lt
    cases Nat.lt_one_iff.1 lt
    exact ⟨_, rfl, ⟨rfl, by decide, by decide⟩, by decide⟩
  have spares : Spares p c 0 1 (0x100000000 * (1 + 1)) (new c) := by
    intro ss e₁ i _ _ _ lt fetched fault failed
    rw [Nat.lt_one_iff.1 lt] at fetched
    cases fetched
    cases failed
  obtain ⟨-, ⟨ss, e₁, proceeds, length, lines, -, pc, counter⟩, -⟩ :=
    loop.counted_rounds (n := 0x100000000) (.inl rfl) rfl rfl (by decide) spares
  exact ⟨p, assembled, loop, ss, e₁, proceeds, length, lines, pc, counter⟩

end Program.Loop

end AsmTrace

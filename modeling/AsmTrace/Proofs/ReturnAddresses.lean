import AsmTrace.Proofs.Effects
import AsmTrace.Proofs.FailedSteps
import AsmTrace.Proofs.Faults
import AsmTrace.Proofs.History

/-!
# Return addresses

Return addresses are words on the stack among others, and a counter apart from the stack decides
whether a return has a call to return from. In a program that neither pushes nor pops, the two and
the calls that were not returned from are in step: the stack is made up of the return addresses of
just these calls (`Machine.ReturnsTo`). An operation keeps this whether it fails or not, so steps
and runs do, and no return finds the stack empty or an address outside of the program.
-/

namespace AsmTrace

/-- Neither an empty stack nor a bad return address. -/
def Fault.NotOfReturn (fault : Fault) : Prop :=
  fault ≠ .stackUnderflow ∧ ∀ address, fault ≠ .badReturnAddress address

/-- The word that a call at an index pushes. -/
def returnWord (index : Nat) : Word := BitVec.ofNat 32 (index + 1)

/-- In a program short enough, a return address fits its word. -/
theorem toNat_returnWord {index : Nat} (lt : index + 1 < 0x80000000) :
    (returnWord index).toNat = index + 1 := by
  rw [returnWord, BitVec.toNat_ofNat]
  omega

/-- The return address of a call is its successor, as long as it is not too large for a signed
word. -/
theorem toInt_returnWord {index : Nat} (lt : index + 1 < 0x80000000) :
    (returnWord index).toInt = (index : Int) + 1 := by
  have toNat := toNat_returnWord lt
  rw [BitVec.toInt_eq_toNat_of_lt (by omega), toNat]
  rfl

/-! ## The invariant -/

namespace Machine

/-- `ReturnsTo size calls m depth` holds when the stack of `m` is made up of the return addresses of
the calls at the indices `calls`, the oldest first, `depth` is their number, and they are calls of a
program of `size` instructions. -/
structure ReturnsTo (size : Nat) (calls : List Nat) (m : Machine) (depth : Nat) : Prop where
  stack : m.stack.values = calls.map returnWord
  depth : depth = calls.length
  inside : ∀ index ∈ calls, index < size

variable {size depth index : Nat} {calls : List Nat} {m m' : Machine}

/-- There is nothing to return to at the start. -/
theorem returnsTo_new (size : Nat) (c : Config) : ReturnsTo size [] (new c) 0 := ⟨rfl, rfl, nofun⟩

/-- A push puts its word on top. -/
theorem topFirst_of_push {v : Word} (pushed : m.push v = .ok m') :
    m'.stack.topFirst = v :: m.stack.topFirst := by
  obtain ⟨s, hs, rfl⟩ := Result.map_eq_ok.1 pushed
  unfold Stack.push at hs
  split at hs
  · cases hs
    rfl
  · cases hs

namespace ReturnsTo

/-- What returns are due depends on the stack only. -/
theorem of_stack (h : ReturnsTo size calls m depth) (same : m'.stack = m.stack) :
    ReturnsTo size calls m' depth :=
  { h with stack := by rw [same]; exact h.stack }

/-- A call is the next to return from. -/
theorem push (h : ReturnsTo size calls m depth) (lt : index < size)
    (pushed : m.push (returnWord index) = .ok m') :
    ReturnsTo size (calls ++ [index]) m' (depth + 1) where
  stack := by
    rw [Stack.values, topFirst_of_push pushed, List.reverse_cons, List.map_append, ← h.stack]
    rfl
  depth := by rw [h.depth, List.length_append, List.length_singleton]
  inside := by
    intro i mem
    rcases List.mem_append.1 mem with mem | mem
    · exact h.inside i mem
    · exact List.mem_singleton.1 mem ▸ lt

/-- A write to memory leaves the returns that are due. -/
theorem write {address : Int} {v : Word} (h : ReturnsTo size calls m depth)
    (written : m.write address v = .ok m') : ReturnsTo size calls m' depth := by
  obtain ⟨memory, -, rfl⟩ := Result.map_eq_ok.1 written
  exact h.of_stack rfl

/-- A return goes back to the instruction after the last call, if there is one. -/
theorem leave (h : ReturnsTo size calls m depth) (short : size < 0x80000000) :
    (calls = [] ∧ Operation.leave m depth size = ⟨m, depth, .ok (.halt .ret)⟩) ∨
    ∃ earlier call m', calls = earlier ++ [call] ∧ ReturnsTo size earlier m' earlier.length ∧
      Operation.leave m depth size = ⟨m', earlier.length, .ok (.jump (call + 1))⟩ := by
  rcases List.eq_nil_or_concat calls with rfl | ⟨earlier, call, rfl⟩
  · left
    have depth := h.depth
    subst depth
    exact ⟨rfl, rfl⟩
  · right
    rw [List.concat_eq_append] at h ⊢
    have top : m.stack.topFirst = returnWord call :: (earlier.map returnWord).reverse := by
      have stack := congrArg List.reverse h.stack
      rw [Stack.values, List.reverse_reverse] at stack
      rw [stack, List.map_append, List.reverse_append]
      rfl
    have lt : call < size := h.inside call (by simp)
    have address : 0 ≤ (returnWord call).toInt ∧ (returnWord call).toInt ≤ size := by
      rw [toInt_returnWord (by omega)]
      omega
    have depth : depth = earlier.length + 1 := by
      rw [h.depth, List.length_append, List.length_singleton]
    subst depth
    refine ⟨earlier, call, m.leaving (earlier.map returnWord).reverse, rfl, ?_, ?_⟩
    · exact ⟨List.reverse_reverse _, rfl, fun i mem => h.inside i (List.mem_append_left _ mem)⟩
    · simp only [Operation.leave, pop_of_cons top, if_pos address, toNat_returnWord
        (show call + 1 < 0x80000000 by omega)]

end ReturnsTo

end Machine

/-! ## Operations -/

namespace Operation

open Machine

/-- `StaysMatched size past m depth entry effect` holds when an operation that is executed after
`past` goes through and the stack returns to the calls that are then not returned from, or has no
effect and a fault that is not one of returning. -/
inductive StaysMatched (size : Nat) (past : List (Nat × Operation)) (m : Machine) (depth : Nat)
    (entry : Nat × Operation) : Effect → Prop
  | through {m' : Machine} {depth' : Nat} {k : Control}
      (returnsTo : ReturnsTo size (unreturned (past ++ [entry])) m' depth') :
      StaysMatched size past m depth entry ⟨m', depth', .ok k⟩
  | failed {fault : Fault} (other : fault.NotOfReturn) :
      StaysMatched size past m depth entry ⟨m, depth, .error fault⟩

variable {size index depth : Nat} {m : Machine} {op : Operation} {past : List (Nat × Operation)}
  {entry : Nat × Operation} {effect : Effect}

/-- After an operation that succeeds, the returns that are due are those of the calls that are
open. -/
theorem StaysMatched.of_ok {k : Control} (h : StaysMatched size past m depth entry effect)
    (control : effect.control = .ok k) :
    ReturnsTo size (unreturned (past ++ [entry])) effect.machine effect.callDepth := by
  cases h with
  | through returnsTo => exact returnsTo
  | failed => cases control

/-- An operation that fails changes nothing, and does not fail for a return. -/
theorem StaysMatched.of_error {fault : Fault} (h : StaysMatched size past m depth entry effect)
    (control : effect.control = .error fault) :
    effect = ⟨m, depth, .error fault⟩ ∧ fault.NotOfReturn := by
  cases h with
  | through => cases control
  | failed other =>
    cases control
    exact ⟨rfl, other⟩

/-- A call keeps calls and return addresses matched. -/
theorem staysMatched_enter (h : ReturnsTo size (unreturned past) m depth) (lt : index < size)
    (target : Nat) :
    StaysMatched size past m depth (index, .call target) (enter m depth index target) := by
  unfold enter
  split
  · next m' pushed =>
    refine .through ?_
    rw [unreturned_call]
    exact h.push lt pushed
  · next fault pushed =>
    refine .failed (raises_push ?_ (returnWord index) fault pushed)
    intro capacity
    exact ⟨by simp, by simp⟩

/-- So does a return. -/
theorem staysMatched_leave (h : ReturnsTo size (unreturned past) m depth)
    (short : size < 0x80000000) :
    StaysMatched size past m depth (index, .ret) (leave m depth size) := by
  rcases h.leave short with ⟨none, effect⟩ | ⟨earlier, call, m', calls, returnsTo, effect⟩
  · rw [effect]
    refine .through ?_
    rw [unreturned_ret, none]
    rw [none] at h
    exact h
  · rw [effect]
    refine .through ?_
    rw [unreturned_ret, calls, List.dropLast_concat]
    exact returnsTo

/-- An operation that does not use the stack cannot fail for a return. -/
theorem MayRaise.notOfReturn {fault : Fault} (h : op.MayRaise fault) (plain : ¬ op.UsesStack) :
    fault.NotOfReturn := by
  cases h with
  | push | call | pop | ret | badReturnAddress => exact absurd trivial plain
  | outOfBounds | divisionByZero | divisionOverflow => exact ⟨by simp, by simp⟩

/-- Operations that do not use the stack keep calls and return addresses matched. -/
theorem staysMatched_plain (h : ReturnsTo size (unreturned past) m depth) (plain : ¬ op.UsesStack) :
    StaysMatched size past m depth (index, op) (op.execute size index m depth) := by
  have notCall (target : Nat) : op ≠ .call target := by
    rintro rfl
    exact plain trivial
  have notRet : op ≠ .ret := by
    rintro rfl
    exact plain trivial
  cases control : (op.execute size index m depth).control with
  | ok k =>
    have returnsTo : ReturnsTo size (unreturned (past ++ [(index, op)]))
        (op.execute size index m depth).machine (op.execute size index m depth).callDepth := by
      rw [unreturned_other notCall notRet, callDepth_execute control,
        depthAfter_of_other notCall notRet]
      exact h.of_stack (stack_execute plain size index depth m)
    have through : StaysMatched size past m depth (index, op)
        ⟨(op.execute size index m depth).machine, (op.execute size index m depth).callDepth,
          .ok k⟩ :=
      .through returnsTo
    rwa [← control] at through
  | error fault =>
    rw [execute_of_error control]
    · exact .failed ((mayRaise_of_error control).notOfReturn plain)
    · rintro rest ⟨-, -⟩
      exact plain trivial
    · rintro rest ⟨-, -, -⟩
      exact plain trivial

/-- Operations other than pushes and pops keep calls and returns matched. -/
theorem staysMatched_execute (h : ReturnsTo size (unreturned past) m depth)
    (short : size < 0x80000000) (lt : index < size) (notPush : op.opcode ≠ .push)
    (notPop : op.opcode ≠ .pop) :
    StaysMatched size past m depth (index, op) (op.execute size index m depth) := by
  cases op with
  | push => exact absurd rfl notPush
  | pop => exact absurd rfl notPop
  | call target => exact staysMatched_enter h lt target
  | ret => exact staysMatched_leave h short
  | _ => exact staysMatched_plain h id

end Operation

/-! ## Executions and what they have executed -/

/-- The program neither pushes nor pops. -/
def Program.NoPushPop (p : Program) : Prop :=
  ∀ index i, p.fetch? index = some i → i.opcode ≠ .push ∧ i.opcode ≠ .pop

namespace Execution

variable {p : Program} {c : Config} {e : Execution} {past : List (Nat × Operation)}

/-- The operation that a step executes, if any, with its index. -/
def executedAt (p : Program) (c : Config) (e : Execution) : List (Nat × Operation) :=
  ((e.executes? p c).map fun i => (e.pc, i.operation)).toList

/-- `Reaches p c past e` holds when steps lead to `e` that execute the operations `past`, with the
data words loaded first or not. Steps may be taken after a failure. -/
inductive Reaches (p : Program) (c : Config) : List (Nat × Operation) → Execution → Prop
  | new : Reaches p c [] (new c)
  | loaded {m : Machine} : loadData (Execution.new c).machine p.data = .ok m →
      Reaches p c [] (loadedWith c m)
  | step {past : List (Nat × Operation)} {e : Execution} : Reaches p c past e →
      Reaches p c (past ++ e.executedAt p c) (e.step p c).after

/-- Every execution that can be reached has a past. -/
theorem Reachable.exists_past (h : Reachable p c e) : ∃ past, Reaches p c past e := by
  induction h with
  | new => exact ⟨[], .new⟩
  | loaded loaded => exact ⟨[], .loaded loaded⟩
  | step _ ih =>
    obtain ⟨past, reaches⟩ := ih
    exact ⟨_, reaches.step⟩

/-- The calls in `past` that were not returned from are those that the stack returns to. -/
def Matched (p : Program) (past : List (Nat × Operation)) (e : Execution) : Prop :=
  e.machine.ReturnsTo p.size (Operation.unreturned past) e.callDepth

/-- A step keeps calls and returns matched, and does not fail for a return. -/
theorem Matched.step (h : Matched p past e) (plain : p.NoPushPop) (short : p.size < 0x80000000) :
    Matched p (past ++ e.executedAt p c) (e.step p c).after ∧
      ∀ fault, (e.step p c).answer = .error fault → fault.NotOfReturn := by
  have stepping := stepping_step p c e
  unfold executedAt executes?
  generalize e.step p c = s at stepping
  cases stepping with
  | idle inactive =>
    rw [if_neg fun executes => inactive executes.1, Option.map_none, Option.toList_none,
      List.append_nil]
    exact ⟨h, nofun⟩
  | ended _ beyond =>
    rw [beyond, ite_self, Option.map_none, Option.toList_none, List.append_nil]
    exact ⟨h, nofun⟩
  | limited =>
    rw [if_neg fun executes => Bool.noConfusion executes.2, Option.map_none, Option.toList_none,
      List.append_nil]
    refine ⟨h, ?_⟩
    rintro fault ⟨⟩
    exact ⟨nofun, nofun⟩
  | @failed i fault _ fetched _ control =>
    obtain ⟨notPush, notPop⟩ := plain e.pc i fetched
    have stays :=
      Operation.staysMatched_execute h short (Program.lt_size_of_fetch fetched) notPush notPop
    obtain ⟨effect, other⟩ := stays.of_error control
    rw [if_neg fun executes => Bool.noConfusion executes.2, Option.map_none, Option.toList_none,
      List.append_nil, stopped_of_effectOf effect]
    refine ⟨h, ?_⟩
    rintro fault ⟨⟩
    exact other
  | @executed i k active fetched _ control =>
    obtain ⟨notPush, notPop⟩ := plain e.pc i fetched
    have stays :=
      Operation.staysMatched_execute h short (Program.lt_size_of_fetch fetched) notPush notPop
    rw [if_pos ⟨active, rfl⟩, fetched]
    refine ⟨?_, nofun⟩
    unfold Matched
    rw [performed_machine, performed_callDepth]
    exact stays.of_ok control

/-- In a program without `PUSH` and `POP` they are matched in every execution that can be
reached. -/
theorem Reaches.matched (h : Reaches p c past e) (plain : p.NoPushPop)
    (short : p.size < 0x80000000) : Matched p past e := by
  induction h with
  | new => exact Machine.returnsTo_new p.size c
  | loaded loaded =>
    exact loadData_keeps Machine.ReturnsTo.write (Machine.returnsTo_new p.size c) loaded
  | step _ ih => exact (ih.step plain short).1

/-- A run does not fail for a return. -/
theorem Matched.run (h : Matched p past e) (plain : p.NoPushPop) (short : p.size < 0x80000000)
    {failure : RunFailure} (failed : e.run p c = .error failure) : failure.fault.NotOfReturn := by
  unfold Execution.run at failed
  split at failed
  · next m loaded =>
    have start : ∃ past, Matched p past { e with machine := m } :=
      ⟨past, loadData_keeps Machine.ReturnsTo.write h loaded⟩
    refine fault_of_runFrom (I := fun e => ∃ past, Matched p past e) ⟨nofun, nofun⟩ ?_ start failed
    rintro e ⟨past, h⟩
    obtain ⟨next, faults⟩ := h.step plain short
    exact ⟨⟨_, next⟩, faults⟩
  · next line fault loading =>
    cases failed
    obtain ⟨address, size, rfl⟩ := outOfBounds_of_loadData loading
    exact ⟨nofun, nofun⟩

/-- A return with calls to return from goes on after the last of them. -/
theorem Matched.step_ret (h : Matched p past e) (short : p.size < 0x80000000) {i : Instruction}
    (active : e.Active) (fetched : p.fetch? e.pc = some i) (ret : i.operation = .ret)
    (allowed : e.steps < c.stepLimit) (called : 0 < e.callDepth) :
    ∃ earlier call, Operation.unreturned past = earlier ++ [call] ∧
      (e.step p c).answer = .ok .running ∧ (e.step p c).after.pc = call + 1 := by
  rcases Machine.ReturnsTo.leave h short with ⟨none, -⟩ | ⟨earlier, call, m', calls, -, effect⟩
  · have depth := Machine.ReturnsTo.depth h
    rw [none] at depth
    exact absurd called (by rw [depth]; exact Nat.lt_irrefl 0)
  · have control : (e.effectOf p i).control = .ok (.jump (call + 1)) := by
      rw [effectOf, ret]
      exact congrArg Effect.control effect
    rw [step_of_ok active fetched allowed control]
    exact ⟨earlier, call, calls, rfl, rfl⟩

end Execution

namespace Program

open Execution

/-- In every execution of a program without pushes and pops, stepped or run, the stack is made up of
the return addresses of the calls that were not returned from, and the call depth is their number. A
return within a call goes on after the last of them. Nothing fails because a return finds the stack
empty or an address that is not one of the program. -/
theorem calls_and_returns_match {p : Program} (plain : p.NoPushPop) (short : p.size < 0x80000000)
    (c : Config) :
    (∀ e, Reachable p c e → ∃ past, Reaches p c past e) ∧
    ∀ past e, Reaches p c past e →
      e.machine.stack.values.map BitVec.toInt =
        (Operation.unreturned past).map (fun index : Nat => (index : Int) + 1) ∧
      e.machine.stack.size = e.callDepth ∧
      (∀ i, e.Active → p.fetch? e.pc = some i → i.operation = .ret → e.steps < c.stepLimit →
        0 < e.callDepth → ∃ earlier call, Operation.unreturned past = earlier ++ [call] ∧
          (e.step p c).answer = .ok .running ∧ (e.step p c).after.pc = call + 1) ∧
      (∀ fault, (e.step p c).answer = .error fault → fault.NotOfReturn) ∧
      ∀ failure, e.run p c = .error failure → failure.fault.NotOfReturn := by
  refine ⟨fun e reachable => reachable.exists_past, ?_⟩
  intro past e reaches
  have matched := reaches.matched plain short
  refine ⟨?_, ?_, ?_, (matched.step plain short).2, fun failure => matched.run plain short⟩
  · rw [matched.stack, List.map_map]
    apply List.map_congr_left
    intro index mem
    have lt := matched.inside index mem
    exact toInt_returnWord (by omega)
  · have length := congrArg List.length matched.stack
    rw [Stack.values, List.length_reverse, List.length_map] at length
    rw [matched.depth]
    exact length
  · intro i active fetched ret allowed called
    exact matched.step_ret short active fetched ret allowed called

/-- A call in the last place returns to the end of the program. -/
theorem calls_and_returns_match_last :
    ∃ (p : Program) (c : Config) (past : List (Nat × Operation)) (e : Execution),
      p.NoPushPop ∧ p.size = 3 ∧ Reaches p c past e ∧ past = [(0, .jump none 2), (2, .call 1)] ∧
      e.machine.stack.values.map BitVec.toInt = [3] ∧ e.machine.stack.size = 1 ∧
      (e.step p c).answer = .ok .running ∧ (e.step p c).after.pc = p.size ∧
      ∀ failure, p.run c = .error failure → failure.fault.NotOfReturn := by
  let p : Program :=
    { instructions := #[⟨1, .jump none 2⟩, ⟨2, .ret⟩, ⟨3, .call 1⟩], labels := {}, data := [] }
  let e : Execution := (((new {}).step p {}).after.step p {}).after
  have plain : p.NoPushPop := by
    rintro (_ | _ | _ | index) i ⟨⟩
    all_goals exact ⟨nofun, nofun⟩
  have reaches : Reaches p {} [(0, .jump none 2), (2, .call 1)] e := Reaches.new.step.step
  obtain ⟨-, matched⟩ := calls_and_returns_match plain (by decide) {}
  obtain ⟨stack, size, returns, -, -⟩ := matched _ e reaches
  obtain ⟨earlier, call, calls, running, pc⟩ :=
    returns ⟨2, .ret⟩ (by decide +kernel) (by decide +kernel) rfl (by decide +kernel)
      (by decide +kernel)
  have unreturned : Operation.unreturned [(0, .jump none 2), (2, .call 1)] = [2] := by decide
  rw [unreturned] at stack calls
  have last : call = 2 := by
    obtain ⟨-, same⟩ := List.append_inj' (show [] ++ [2] = earlier ++ [call] from calls) rfl
    exact (List.head_eq_of_cons_eq same).symm
  refine ⟨p, {}, _, e, plain, rfl, reaches, rfl, stack, ?_, running, ?_, ?_⟩
  · rw [size]
    decide +kernel
  · rw [pc, last]
    rfl
  · exact (matched _ _ .new).2.2.2.2

end Program

end AsmTrace

import AsmTrace.Instruction

/-!
# Open calls

Calls and returns belong together as brackets do. A call is open after some operations unless they
return from it, and whether there is an open call is what a counter of calls tells that each return
lowers (`hasOpenCall_iff`). A return with no call to return from leaves the counter at zero.

`unreturned` lists the open calls. One more operation changes the list at its end only: a call is
added to it (`unreturned_call`), and a return takes the last one off (`unreturned_ret`).
-/

namespace AsmTrace

namespace Operation

variable {op : Operation} {ops : List Operation}

/-- Every call is returned from, and every return is from one of the calls. -/
inductive Balanced : List Operation → Prop
  | nil : Balanced []
  | other {op : Operation} {ops : List Operation} (notCall : ∀ target, op ≠ .call target)
      (notRet : op ≠ .ret) (rest : Balanced ops) : Balanced (op :: ops)
  | call {target : Nat} {inner ops : List Operation} (inside : Balanced inner)
      (rest : Balanced ops) : Balanced (.call target :: (inner ++ .ret :: ops))

/-- The operations return from a call before them. -/
def Return (ops : List Operation) : Prop :=
  ∃ inner rest, ops = inner ++ .ret :: rest ∧ Balanced inner

/-- One of the operations is a call that those after it do not return from. -/
def HasOpenCall (ops : List Operation) : Prop :=
  ∃ before target after, ops = before ++ .call target :: after ∧ ¬ Return after

/-- The number of open calls after one more operation. -/
def depthAfter (depth : Nat) : Operation → Nat
  | .call _ => depth + 1
  | .ret => depth - 1
  | _ => depth

/-- The number of open calls after some operations. -/
def openCalls (ops : List Operation) : Nat := ops.foldl depthAfter 0

/-- An operation is a call, a return or neither. -/
theorem cases_call_ret (op : Operation) :
    (∃ target, op = .call target) ∨ op = .ret ∨ (∀ target, op ≠ .call target) ∧ op ≠ .ret := by
  cases op <;> simp

/-- Only calls and returns change the number of open calls. -/
theorem depthAfter_of_other (notCall : ∀ target, op ≠ .call target) (notRet : op ≠ .ret)
    (depth : Nat) : depthAfter depth op = depth := by
  cases op with
  | call target => exact absurd rfl (notCall target)
  | ret => exact absurd rfl notRet
  | _ => rfl

/-- Balanced operations leave the number of open calls as it was. -/
theorem foldl_balanced (h : Balanced ops) (depth : Nat) : ops.foldl depthAfter depth = depth := by
  induction h generalizing depth with
  | nil => rfl
  | other notCall notRet _ ih => rw [List.foldl_cons, depthAfter_of_other notCall notRet, ih]
  | call _ _ inside rest =>
    rw [List.foldl_cons, List.foldl_append, inside, List.foldl_cons, rest]
    rfl

/-- What stands between a call and its return does not count. -/
theorem foldl_call {inner : List Operation} (h : Balanced inner) (target depth : Nat) :
    (Operation.call target :: (inner ++ .ret :: ops)).foldl depthAfter depth =
      ops.foldl depthAfter depth := by
  rw [List.foldl_cons, List.foldl_append, foldl_balanced h, List.foldl_cons]
  rfl

/-! ## Returning from a call -/

/-- A return stays one after an operation that is neither a call nor a return. -/
theorem return_other (notCall : ∀ target, op ≠ .call target) (notRet : op ≠ .ret)
    (h : Return ops) : Return (op :: ops) := by
  obtain ⟨inner, rest, rfl, balanced⟩ := h
  exact ⟨op :: inner, rest, rfl, .other notCall notRet balanced⟩

/-- A return stays one after a call that has returned. -/
theorem return_call {inner : List Operation} (balanced : Balanced inner) (h : Return ops)
    (target : Nat) : Return (.call target :: (inner ++ .ret :: ops)) := by
  obtain ⟨inner', rest, rfl, balanced'⟩ := h
  exact ⟨.call target :: (inner ++ .ret :: inner'), rest, by simp, .call balanced balanced'⟩

/-- Operations that do not return from a call before them leave it counted. -/
theorem le_foldl_of_not_return (h : ¬ Return ops) (depth : Nat) :
    depth ≤ ops.foldl depthAfter depth := by
  induction length : ops.length using Nat.strongRecOn generalizing ops depth with
  | ind n ih =>
    subst length
    cases ops with
    | nil => exact Nat.le_refl depth
    | cons op ops =>
      rcases cases_call_ret op with ⟨target, rfl⟩ | rfl | ⟨notCall, notRet⟩
      · by_cases returned : Return ops
        · -- the next call is over, so it is what follows its return that matters
          obtain ⟨inner, rest, rfl, balanced⟩ := returned
          rw [foldl_call balanced]
          refine ih rest.length ?_ (fun later => h (return_call balanced later target)) depth rfl
          rw [List.length_cons, List.length_append, List.length_cons]
          omega
        · have counted := ih ops.length (Nat.lt_succ_self _) returned (depth + 1) rfl
          exact Nat.le_of_succ_le counted
      · exact absurd ⟨[], ops, rfl, .nil⟩ h
      · rw [List.foldl_cons, depthAfter_of_other notCall notRet]
        exact ih ops.length (Nat.lt_succ_self _)
          (fun later => h (return_other notCall notRet later)) depth rfl

/-! ## Open calls -/

/-- A call that is open stays so whatever came before it. -/
theorem HasOpenCall.append (h : HasOpenCall ops) (front : List Operation) :
    HasOpenCall (front ++ ops) := by
  obtain ⟨before, target, after, rfl, stays⟩ := h
  exact ⟨front ++ before, target, after, by simp, stays⟩

/-- Without an open call, none is counted. -/
theorem foldl_of_not_hasOpenCall (h : ¬ HasOpenCall ops) : ops.foldl depthAfter 0 = 0 := by
  induction length : ops.length using Nat.strongRecOn generalizing ops with
  | ind n ih =>
    subst length
    cases ops with
    | nil => rfl
    | cons op ops =>
      have later : ¬ HasOpenCall ops := fun inside => h (inside.append [op])
      rcases cases_call_ret op with ⟨target, rfl⟩ | rfl | ⟨notCall, notRet⟩
      · have returned : Return ops :=
          Classical.byContradiction fun stays => h ⟨[], target, ops, rfl, stays⟩
        obtain ⟨inner, rest, rfl, balanced⟩ := returned
        rw [foldl_call balanced]
        refine ih rest.length ?_ (fun inside => later ?_) rfl
        · rw [List.length_cons, List.length_append, List.length_cons]
          omega
        · exact (inside.append [.ret]).append inner
      · change ops.foldl depthAfter 0 = 0
        exact ih ops.length (Nat.lt_succ_self _) later rfl
      · rw [List.foldl_cons, depthAfter_of_other notCall notRet]
        exact ih ops.length (Nat.lt_succ_self _) later rfl

/-- There is an open call if and only if the counter says so. -/
theorem hasOpenCall_iff (ops : List Operation) : HasOpenCall ops ↔ openCalls ops ≠ 0 := by
  constructor
  · rintro ⟨before, target, after, rfl, stays⟩ none
    rw [openCalls, List.foldl_append, List.foldl_cons] at none
    have counted :=
      le_foldl_of_not_return stays (depthAfter (before.foldl depthAfter 0) (.call target))
    rw [none] at counted
    cases counted
  · intro counted
    exact Classical.byContradiction fun none => counted (foldl_of_not_hasOpenCall none)

/-! ## Deciding what is returned from -/

/-- What has returned has returned, whatever comes after. -/
theorem Return.append (h : Return ops) (more : List Operation) : Return (ops ++ more) := by
  obtain ⟨inner, rest, rfl, balanced⟩ := h
  exact ⟨inner, rest ++ more, by simp, balanced⟩

/-- A call is returned from when a counter that has counted it comes down to zero. -/
theorem return_iff (ops : List Operation) :
    Return ops ↔ ∃ k < ops.length + 1, (ops.take k).foldl depthAfter 1 = 0 := by
  constructor
  · rintro ⟨inner, rest, rfl, balanced⟩
    refine ⟨inner.length + 1, by simp, ?_⟩
    rw [List.take_length_add_append, List.foldl_append, foldl_balanced balanced]
    rfl
  · rintro ⟨k, -, zero⟩
    apply Classical.byContradiction
    intro stays
    have front : ¬ Return (ops.take k) := by
      intro returned
      have whole := returned.append (ops.drop k)
      rw [List.take_append_drop] at whole
      exact stays whole
    have counted := le_foldl_of_not_return front 1
    rw [zero] at counted
    cases counted

instance (ops : List Operation) : Decidable (Return ops) := decidable_of_iff _ (return_iff ops).symm

/-- A last operation returns from a call before all of them only if it is a return and what is
before it is balanced. -/
theorem return_concat_iff :
    Return (ops ++ [op]) ↔ Return ops ∨ op = .ret ∧ Balanced ops := by
  constructor
  · rintro ⟨inner, rest, split, balanced⟩
    rcases List.eq_nil_or_concat rest with rfl | ⟨rest, last, rfl⟩
    · obtain ⟨rfl, same⟩ := List.append_inj' split rfl
      exact .inr ⟨List.head_eq_of_cons_eq same, balanced⟩
    · rw [List.concat_eq_append, ← List.cons_append, ← List.append_assoc] at split
      obtain ⟨rfl, -⟩ := List.append_inj' split rfl
      exact .inl ⟨inner, rest, rfl, balanced⟩
  · rintro (returned | ⟨rfl, balanced⟩)
    · exact returned.append [op]
    · exact ⟨ops, [], rfl, balanced⟩

/-- Operations that neither return nor leave a call open are balanced. -/
theorem balanced_of_not_return (stays : ¬ Return ops) (h : ¬ HasOpenCall ops) : Balanced ops := by
  induction length : ops.length using Nat.strongRecOn generalizing ops with
  | ind n ih =>
    subst length
    cases ops with
    | nil => exact .nil
    | cons op ops =>
      have later : ¬ HasOpenCall ops := fun inside => h (inside.append [op])
      rcases cases_call_ret op with ⟨target, rfl⟩ | rfl | ⟨notCall, notRet⟩
      · have returned : Return ops :=
          Classical.byContradiction fun stays => h ⟨[], target, ops, rfl, stays⟩
        obtain ⟨inner, rest, rfl, balanced⟩ := returned
        refine .call balanced (ih rest.length ?_ (fun returned => ?_) (fun inside => later ?_) rfl)
        · rw [List.length_cons, List.length_append, List.length_cons]
          omega
        · exact stays (return_call balanced returned target)
        · exact (inside.append [.ret]).append inner
      · exact absurd ⟨[], ops, rfl, .nil⟩ stays
      · exact .other notCall notRet (ih ops.length (Nat.lt_succ_self _)
          (fun returned => stays (return_other notCall notRet returned)) later rfl)

/-- Balanced operations leave no call open. -/
theorem Balanced.not_hasOpenCall (h : Balanced ops) : ¬ HasOpenCall ops := by
  rw [hasOpenCall_iff, Decidable.not_not]
  exact foldl_balanced h 0

/-! ## Unreturned calls -/

/-- The indices of the calls that no later operation returns from, the oldest first. Each operation
comes with its index in the program. -/
def unreturned : List (Nat × Operation) → List Nat
  | [] => []
  | (index, op) :: rest =>
    if op.opcode = .call ∧ ¬ Return (rest.map Prod.snd) then index :: unreturned rest
    else unreturned rest

/-- Calls are told by their opcode. -/
theorem opcode_eq_call_iff : op.opcode = .call ↔ ∃ target, op = .call target := by
  cases op <;> simp [opcode]

/-- A call is open if it does not return, or if one after it is open. -/
theorem hasOpenCall_cons_iff :
    HasOpenCall (op :: ops) ↔ op.opcode = .call ∧ ¬ Return ops ∨ HasOpenCall ops := by
  rw [opcode_eq_call_iff]
  constructor
  · rintro ⟨before, target, after, split, stays⟩
    cases before with
    | nil =>
      obtain ⟨rfl, rfl⟩ := List.cons.inj split
      exact .inl ⟨⟨target, rfl⟩, stays⟩
    | cons first before =>
      obtain ⟨rfl, rfl⟩ := List.cons.inj split
      exact .inr ⟨before, target, after, rfl, stays⟩
  · rintro (⟨⟨target, rfl⟩, stays⟩ | later)
    · exact ⟨[], target, ops, rfl, stays⟩
    · exact later.append [op]

variable {past : List (Nat × Operation)} {index : Nat}

/-- There are calls to return from exactly if one is open. -/
theorem unreturned_eq_nil_iff : unreturned past = [] ↔ ¬ HasOpenCall (past.map Prod.snd) := by
  induction past with
  | nil => simp [unreturned, HasOpenCall]
  | cons entry past ih =>
    obtain ⟨index, op⟩ := entry
    rw [List.map_cons, hasOpenCall_cons_iff, unreturned]
    split
    · next isOpen => simp [isOpen]
    · next notOpen => rw [ih, or_iff_right notOpen]

/-- The operations after a call decide whether it is open, so all but a return leave that as it
is. -/
theorem unreturned_concat (notRet : op ≠ .ret) :
    unreturned (past ++ [(index, op)]) = unreturned past ++ unreturned [(index, op)] := by
  induction past with
  | nil => rfl
  | cons entry past ih =>
    have same : Return ((past ++ [(index, op)]).map Prod.snd) ↔ Return (past.map Prod.snd) := by
      rw [List.map_append, List.map_singleton, return_concat_iff]
      simp [notRet]
    simp only [List.cons_append, unreturned, same, ih]
    split <;> rfl

/-- A call is the last to return from. -/
@[simp] theorem unreturned_call (target : Nat) :
    unreturned (past ++ [(index, .call target)]) = unreturned past ++ [index] :=
  unreturned_concat nofun

/-- Only calls and returns change the calls to return from. -/
theorem unreturned_other (notCall : ∀ target, op ≠ .call target) (notRet : op ≠ .ret) :
    unreturned (past ++ [(index, op)]) = unreturned past := by
  have none : unreturned [(index, op)] = [] := by
    rw [unreturned, if_neg]
    · rfl
    · rw [opcode_eq_call_iff]
      rintro ⟨⟨target, call⟩, -⟩
      exact notCall target call
  rw [unreturned_concat notRet, none, List.append_nil]

/-- A return is from the last of the open calls. -/
@[simp] theorem unreturned_ret :
    unreturned (past ++ [(index, .ret)]) = (unreturned past).dropLast := by
  induction past with
  | nil => rfl
  | cons entry past ih =>
    have returned : Return ((past ++ [(index, Operation.ret)]).map Prod.snd) ↔
        Return (past.map Prod.snd) ∨ Balanced (past.map Prod.snd) := by
      rw [List.map_append, List.map_singleton, return_concat_iff]
      simp
    rw [List.cons_append, unreturned, unreturned, ih]
    by_cases isOpen : entry.2.opcode = .call ∧ ¬ Return (past.map Prod.snd)
    · rw [if_pos isOpen]
      by_cases none : unreturned past = []
      · -- the call was the only one that is open
        have balanced := balanced_of_not_return isOpen.2 (unreturned_eq_nil_iff.1 none)
        rw [if_neg fun stays => stays.2 (returned.2 (.inr balanced)), none]
        rfl
      · have unbalanced : ¬ Balanced (past.map Prod.snd) :=
          fun balanced => none (unreturned_eq_nil_iff.2 balanced.not_hasOpenCall)
        rw [if_pos ⟨isOpen.1, fun now => (returned.1 now).elim isOpen.2 unbalanced⟩,
          List.dropLast_cons_of_ne_nil none]
    · rw [if_neg isOpen,
        if_neg fun stays => isOpen ⟨stays.1, fun before => stays.2 (returned.2 (.inl before))⟩]

end Operation

end AsmTrace

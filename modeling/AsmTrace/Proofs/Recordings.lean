import AsmTrace.Proofs.Runs

/-!
# Recorded executions

An execution can be stepped from outside, any number of times and also after a failure, with one
recorder that collects the snapshots. `Recording.after` is what this comes to. Once a step has
halted or failed, all later ones change nothing (`after_add`), and no step goes beyond the limit
(`steps_le`).
-/

namespace AsmTrace

/-- An execution and the snapshots that its steps have recorded, the oldest first. -/
structure Recording where
  execution : Execution
  snapshots : List Snapshot := []
  deriving DecidableEq, Repr

namespace Recording

def new (c : Config) : Recording := { execution := .new c }

/-- One more step, whether it fails or not. -/
def step (p : Program) (c : Config) (r : Recording) : Recording where
  execution := (r.execution.step p c).after
  snapshots := r.snapshots ++ (r.execution.step p c).recorded.toList

/-- A new execution after a number of steps. -/
def after (p : Program) (c : Config) : Nat → Recording
  | 0 => new c
  | n + 1 => (after p c n).step p c

/-- What the next step answers after a number of steps. -/
def answer (p : Program) (c : Config) (n : Nat) : Except Fault Status :=
  ((after p c n).execution.step p c).answer

variable {p : Program} {c : Config} {r : Recording}

/-- Nothing is recorded of an execution that has ended. -/
theorem step_of_not_active (h : ¬ r.execution.Active) : r.step p c = r := by
  simp only [step, Execution.step_of_not_active h, Option.toList_none, List.append_nil]

/-- A recording that has ended stays as it is. -/
theorem after_add {n : Nat} (h : ¬ (after p c n).execution.Active) (k : Nat) :
    after p c (n + k) = after p c n := by
  induction k with
  | zero => rfl
  | succ k ih =>
    change (after p c (n + k)).step p c = after p c n
    rw [ih]
    exact step_of_not_active h

/-- A step does not take the count past the limit. -/
theorem steps_le_step (h : r.execution.steps ≤ c.stepLimit) :
    (r.step p c).execution.steps ≤ c.stepLimit := by
  have stepping := Execution.stepping_step p c r.execution
  unfold step
  generalize r.execution.step p c = s at stepping
  cases stepping with
  | idle | ended | limited | failed => exact h
  | executed _ _ allowed =>
    rw [Execution.performed_steps]
    exact allowed

/-- The count of steps never passes the limit. -/
theorem steps_le (p : Program) (c : Config) (n : Nat) :
    (after p c n).execution.steps ≤ c.stepLimit := by
  induction n with
  | zero => exact Nat.zero_le _
  | succ n ih => exact steps_le_step ih

end Recording

end AsmTrace

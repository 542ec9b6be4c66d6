import AsmTrace.Program
import AsmTrace.Semantics
import AsmTrace.Statistics

/-!
# Execution

A program is executed one instruction at a time. `step` executes the instruction at the program
counter and records a snapshot; once the execution has halted or failed it changes nothing. `run`
loads the data words of the program and steps until the execution halts or fails, which it does
because every step that goes on counts toward the step limit.
-/

namespace AsmTrace

inductive Status where
  | notStarted
  | running
  | halted (reason : HaltReason)
  | failed
  deriving DecidableEq, Repr

/-- A program being executed. -/
structure Execution where
  machine : Machine
  /-- The index of the next instruction. -/
  pc : Nat := 0
  /-- How many instructions were executed. -/
  steps : Nat := 0
  /-- How many calls were not yet returned from. -/
  callDepth : Nat := 0
  status : Status := .notStarted
  statistics : Statistics := {}
  deriving DecidableEq, Repr

/-- What a step did: the execution after it, the snapshot it recorded, if any, and what it
answered. -/
structure Step where
  after : Execution
  recorded : Option Snapshot
  answer : Except Fault Status
  deriving Repr

namespace Execution

/-- An execution that has not started. -/
def new (c : Config) : Execution := { machine := .new c }

/-- The value of `AX`. -/
def output (e : Execution) : Word := e.machine.register .ax

def isHalted (e : Execution) : Bool :=
  match e.status with
  | .halted _ => true
  | _ => false

/-- The execution with control moved. -/
def follow (e : Execution) : Control → Execution
  | .next => { e with pc := e.pc + 1 }
  | .jump target => { e with pc := target }
  | .halt reason => { e with status := .halted reason }

/-- Executes an instruction. -/
def perform (size : Nat) (i : Instruction) (e : Execution) : Step :=
  let effect := i.operation.execute size e.pc e.machine e.callDepth
  let e := { e with machine := effect.machine, callDepth := effect.callDepth }
  match effect.control with
  | .error fault => ⟨{ e with status := .failed }, none, .error fault⟩
  | .ok control =>
    let e := { e with steps := e.steps + 1, statistics := e.statistics.record i.opcode }
    let e := e.follow control
    ⟨e, some (e.machine.snapshot i.line), .ok e.status⟩

/-- Executes the next instruction, if there is one and the limit allows it. -/
def advance (p : Program) (c : Config) (e : Execution) : Step :=
  match p.fetch? e.pc with
  | none =>
    let e := { e with status := .halted .endOfProgram }
    ⟨e, none, .ok e.status⟩
  | some i =>
    if e.steps < c.stepLimit then perform p.size i { e with status := .running }
    else ⟨{ e with status := .failed }, none, .error (.stepLimitExceeded c.stepLimit)⟩

def step (p : Program) (c : Config) (e : Execution) : Step :=
  match e.status with
  | .halted _ | .failed => ⟨e, none, .ok e.status⟩
  | .notStarted | .running => advance p c e

/-- Writes data words into memory. A failure names the line of its word. -/
def loadData (m : Machine) : List DataWord → Except (Nat × Fault) Machine
  | [] => .ok m
  | word :: rest =>
    match m.write word.address word.value with
    | .ok m => loadData m rest
    | .error fault => .error (word.line, fault)

/-- The line of the next instruction. -/
def nextLine (p : Program) (e : Execution) : Nat := ((p.fetch? e.pc).map Instruction.line).getD 0

/-- Steps until the execution halts or fails. At most `bound` steps go on; `recorded` are the
snapshots so far, newest first. -/
def runFrom (p : Program) (c : Config) : Nat → Execution → List Snapshot → Except RunFailure Trace
  | bound, e, recorded =>
    let step := e.step p c
    let recorded := step.recorded.toList ++ recorded
    match step.answer with
    | .ok (.halted reason) =>
      .ok { snapshots := recorded.reverse, ending := some ⟨reason, step.after.output⟩ }
    | .error fault => .error ⟨step.after.nextLine p, fault, recorded.reverse⟩
    | .ok _ =>
      match bound with
      | 0 => .error ⟨step.after.nextLine p, .stepLimitExceeded c.stepLimit, recorded.reverse⟩
      | bound + 1 => runFrom p c bound step.after recorded

/-- Runs an execution on, with the data words loaded first. -/
def run (p : Program) (c : Config) (e : Execution) : Except RunFailure Trace :=
  match loadData e.machine p.data with
  | .ok m => runFrom p c (c.stepLimit - e.steps) { e with machine := m } []
  | .error (line, fault) => .error ⟨line, fault, []⟩

end Execution

namespace Program

/-- The trace of a whole run. -/
def run (p : Program) (c : Config) : Except RunFailure Trace := (Execution.new c).run p c

end Program

end AsmTrace

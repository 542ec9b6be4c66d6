import AsmTrace.Engine

/-!
# Sessions

A session runs a program to its end, keeps the trace and shows its snapshots one at a time. A run
overwrites what the session held before; the cursor says which snapshot of a completed run is shown.
-/

namespace AsmTrace

inductive SessionStatus where
  /-- Nothing was run yet. -/
  | ready
  /-- The last run came to its end. -/
  | completed
  /-- The last run failed. -/
  | failed
  deriving DecidableEq, Repr

structure Session where
  /-- The source text of the last run, if it could be loaded. -/
  source? : Option Source := none
  /-- The program of the last run, if it came to its end. -/
  program? : Option Program := none
  /-- The trace of the last run, or what was recorded of it before it failed. -/
  trace : Trace := {}
  /-- The position of the snapshot shown. -/
  cursor : Nat := 0
  status : SessionStatus := .ready
  /-- Why the last run failed, if it did. -/
  failure? : Option RunError := none
  deriving DecidableEq, Repr

/-- Why a session operation fails. -/
inductive SessionError where
  | run (error : RunError)
  | lastRunFailed
  | nothingRun
  | noMoreSteps
  deriving DecidableEq, Repr

namespace SessionError

def message : SessionError → String
  | .run error => error.message
  | .lastRunFailed => "The last run failed, there is nothing to step through"
  | .nothingRun => "No program has been run in this session"
  | .noMoreSteps => "There are no more steps to execute"

end SessionError

namespace Session

/-- A session in which nothing was run yet. -/
def new : Session := {}

/-- The value in `AX` at the end of a completed run. -/
def output? (s : Session) : Option Word :=
  match s.status with
  | .completed => s.trace.output
  | .ready | .failed => none

/-- The snapshot under the cursor, if the last run came to its end. -/
def current? (s : Session) : Option Snapshot :=
  match s.status with
  | .completed => s.trace.get? s.cursor
  | .ready | .failed => none

/-- The snapshot under the cursor as an answer. -/
def answer (s : Session) : Except SessionError Snapshot :=
  match s.current? with
  | some snapshot => .ok snapshot
  | none => .error .noMoreSteps

/-- Takes over what came out of a run. -/
def finish (s : Session) (outcome : Except RunError (Program × Trace)) :
    Except SessionError Snapshot × Session :=
  let s := { s with cursor := 0 }
  match outcome with
  | .ok (program, trace) =>
    let s := { s with program? := some program, trace, status := .completed, failure? := none }
    (s.answer, s)
  | .error error =>
    (.error (.run error),
      { s with
        program? := none, trace := error.partialTrace, status := .failed, failure? := some error })

/-- Runs a source text and answers the first snapshot. -/
def runSource (s : Session) (source : Source) (c : Config) :
    Except SessionError Snapshot × Session :=
  { s with source? := some source }.finish (source.run c)

/-- Runs the source text that a path leads to and answers the first snapshot. -/
def run (s : Session) (files : Files) (path : String) (c : Config) :
    Except SessionError Snapshot × Session :=
  let s := { s with source? := none }
  match Source.load files path with
  | .ok source => s.runSource source c
  | .error error => s.finish (.error (.load error))

/-- Moves to the next snapshot and answers it. -/
def stepNext (s : Session) : Except SessionError Snapshot × Session :=
  match s.status with
  | .failed => (.error .lastRunFailed, s)
  | .ready => (.error .nothingRun, s)
  | .completed =>
    if s.trace.length ≤ s.cursor + 1 then (.error .noMoreSteps, s)
    else
      let s := { s with cursor := s.cursor + 1 }
      (s.answer, s)

end Session

end AsmTrace

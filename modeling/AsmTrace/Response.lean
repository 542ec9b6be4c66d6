import AsmTrace.Report
import AsmTrace.Session

/-!
# Responses

What a client is told. A run shows the first snapshot and the program's output, a step the next
snapshot, and everything that goes wrong a title and a text.
-/

namespace AsmTrace

inductive Response where
  | run (output : String) (sourceCode : String) (snapshot : Snapshot)
  | step (sourceCode : String) (snapshot : Snapshot)
  | error (title text : String)
  deriving DecidableEq, Repr

namespace Response

def isSuccess : Response → Bool
  | .error .. => false
  | _ => true

def ofError : SessionError → Response
  | .run (.load .emptyPath) => .error "Error" "ASM code file path is required!"
  | .run (.load e) => .error "File error" e.message
  | .run (.assembly e) => .error "Syntax error" e.message
  | .run (.execution failure) => .error "Runtime error" failure.message
  | .lastRunFailed => .error "Error" "The last run failed, fix the program and run it again."
  | .nothingRun => .error "Error" "Run a program before stepping."
  | .noMoreSteps => .error "End of execution" "There are no more steps to execute."

/-- The source text of a session, empty if there is none. -/
def sourceCode (s : Session) : String := (s.source?.map Source.text).getD ""

/-- The response to a run that succeeded, from the session it left. -/
def ofRun (s : Session) : Response :=
  match s.current? with
  | some snapshot =>
    .run ((s.output?.map fun w => toString w.toInt).getD "") (sourceCode s) snapshot
  | none => ofError .nothingRun

/-- The response to a step that succeeded, from the session it left. -/
def ofStep (s : Session) : Response :=
  match s.current? with
  | some snapshot => .step (sourceCode s) snapshot
  | none => ofError .nothingRun

/-- The response to what an operation on a session answered and left. -/
def ofAnswer (success : Session → Response) : Except SessionError Snapshot × Session → Response
  | (.ok _, s) => success s
  | (.error e, _) => ofError e

@[simp] theorem ofAnswer_ok (success : Session → Response) (snapshot : Snapshot) (s : Session) :
    ofAnswer success (.ok snapshot, s) = success s := rfl

@[simp] theorem ofAnswer_error (success : Session → Response) (e : SessionError) (s : Session) :
    ofAnswer success (.error e, s) = ofError e := rfl

def toJson : Response → Json
  | .run output sourceCode snapshot =>
    .obj [("icon", .str "success"), ("title", .str "Success"),
      ("text", .str "Code executed successfully!"), ("output", .str output),
      ("source_code", .str sourceCode), ("sequence_of_execution", snapshot.toJson)]
  | .step sourceCode snapshot =>
    .obj [("icon", .str "success"), ("source_code", .str sourceCode),
      ("current_sequence", snapshot.toJson)]
  | .error title text =>
    .obj [("icon", .str "error"), ("title", .str title), ("text", .str text)]

end Response

end AsmTrace

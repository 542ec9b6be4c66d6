import AsmTrace.Execution
import AsmTrace.Files
import AsmTrace.Text.Blank

/-!
# Running source texts

From a path or a text to a trace: the text is loaded, assembled and run, and each of these can fail.
-/

namespace AsmTrace

inductive LoadError where
  | emptyPath
  | unreadable (path : String) (reason : ReadFailure)
  deriving DecidableEq, Repr

namespace LoadError

def message : LoadError → String
  | .emptyPath => "File path cannot be empty"
  | .unreadable path reason => s!"Cannot read source file `{path}`: {reason.message}"

end LoadError

/-- Why there is no complete trace. -/
inductive RunError where
  | load (error : LoadError)
  | assembly (error : Assembly.Error)
  | execution (failure : RunFailure)
  deriving DecidableEq, Repr

namespace RunError

def message : RunError → String
  | .load error => error.message
  | .assembly error => error.message
  | .execution failure => failure.message

/-- The source line at fault. -/
def line? : RunError → Option Nat
  | .load _ => none
  | .assembly error => error.line?
  | .execution failure => some failure.line

/-- What was recorded before the error. -/
def partialTrace : RunError → Trace
  | .execution failure => failure.partialTrace
  | .load _ | .assembly _ => {}

end RunError

namespace Source

/-- The source text that a path leads to. -/
def load (files : Files) (path : String) : Except LoadError Source :=
  if Text.isBlank path then .error .emptyPath
  else
    match files path with
    | .error reason => .error (.unreadable path reason)
    | .ok bytes =>
      match String.fromUTF8? bytes with
      | some text => .ok { ofText text with path? := some path }
      | none => .error (.unreadable path .notUtf8)

/-- Assembles and runs a source text. -/
def run (source : Source) (c : Config) : Except RunError (Program × Trace) := do
  let program ← (Program.assemble source).mapError .assembly
  let trace ← (program.run c).mapError .execution
  return (program, trace)

end Source

/-- Loads, assembles and runs the source text that a path leads to. -/
def runFile (files : Files) (path : String) (c : Config) : Except RunError (Program × Trace) := do
  let source ← (Source.load files path).mapError .load
  source.run c

end AsmTrace

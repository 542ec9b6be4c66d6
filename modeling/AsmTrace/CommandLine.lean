import AsmTrace.Options
import AsmTrace.Server

/-!
# The command line

With a file, the program runs it once and writes its whole trace. Without one it serves the lines of
its input, each of them at a later instant than the one before, until the input ends or a line is
not valid UTF-8.
-/

namespace AsmTrace.CommandLine

structure Outcome where
  exitCode : Nat
  output : String
  deriving DecidableEq, Repr

def versionText : String := "mockasm-debugger 0.0.1\n"

/-- A response as a line. -/
def responseLine (r : Response) : String := r.toJson.compact ++ "\n"

/-- Runs a file once. -/
def runOnce (files : Files) (c : Config) (path : String) : Outcome :=
  match runFile files path c with
  | .ok (_, trace) => ⟨0, trace.toJson.pretty ++ "\n"⟩
  | .error error => ⟨1, responseLine (.ofError (.run error))⟩

/-- The lines before the first that is not valid UTF-8, and whether there is none. -/
def readLines : List (List UInt8) → List String × Bool
  | [] => ([], true)
  | bytes :: rest =>
    match String.fromUTF8? ⟨bytes.toArray⟩ with
    | none => ([], false)
    | some line =>
      let (lines, all) := readLines rest
      (line :: lines, all)

/-- Serves the lines of an input. -/
def serve (files : Files) (options : GivenOptions) (input : ByteArray) : Outcome :=
  let (lines, all) := readLines (Text.byteLines input)
  let arrivals := lines.zipIdx.map fun (line, instant) => (instant, line)
  let (responses, _) :=
    (Store.new options.timeToLive).serve Request.decode files options.config arrivals
  ⟨if all then 0 else 1, String.join (responses.filterMap fun r => r.map responseLine)⟩

/-- What a command line does in a directory and an environment, with an input. -/
def run (files : Files) (env : String → Option String) (args : List String) (input : ByteArray) :
    Outcome :=
  match Invocation.ofCommandLine args env with
  | .misuse => ⟨2, ""⟩
  | .version => ⟨0, versionText⟩
  | .start options =>
    match options.file with
    | some path => runOnce files options.config path
    | none => serve files options input

end AsmTrace.CommandLine

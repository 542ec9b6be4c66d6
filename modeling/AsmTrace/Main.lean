import AsmTrace.CommandLine

/-!
# The program

Reads arguments, environment, files and standard input, and leaves everything else to the library.
-/

namespace AsmTrace.Main

/-- The system's code for reading a directory as if it were a file. -/
def directoryCode : UInt32 := 21

/-- The reason for a failure to read a path. -/
def readFailure (path : String) : IO.Error → ReadFailure
  | .noFileOrDirectory .. => .missing
  | .inappropriateType _ code _ => if code = directoryCode then .isADirectory else .notADirectory
  | .invalidArgument .. => if path.toList.contains '\x00' then .nulInName else .nameTooLong
  | error => .other (toString error)

def readPath (path : String) : IO (Except ReadFailure ByteArray) := do
  try
    return .ok (← IO.FS.readBinFile path)
  catch error =>
    return .error (readFailure path error)

/-- The files as one path shows them now. -/
def filesAt (path : String) : IO Files := do
  let content ← readPath path
  return fun _ => content

/-- The files that a line asks for. -/
def filesFor (line : String) : IO Files :=
  match Request.parse line with
  | .ok (.run _ path) => filesAt path
  | _ => return fun _ => .error .missing

/-- The bytes of the next line with its ending, after some of them; no bytes at the end of the
input. -/
partial def readLine (input : IO.FS.Stream) (bytes : ByteArray) : IO ByteArray := do
  let next ← input.read 1
  if next.isEmpty then return bytes
  let bytes := bytes ++ next
  if next.toList = [0x0a] then return bytes else readLine input bytes

/-- Serves the lines of standard input as they come. -/
partial def serveLines (options : GivenOptions) (input output : IO.FS.Stream) (store : Store) :
    IO UInt32 := do
  let bytes ← readLine input .empty
  if bytes.isEmpty then return 0
  match String.fromUTF8? ⟨((Text.byteLines bytes).headD []).toArray⟩ with
  | none => return 1
  | some line =>
    let files ← filesFor line
    let (response, store) :=
      store.handleLine Request.decode files options.config (← IO.monoNanosNow) line
    if let some response := response then
      output.putStr (CommandLine.responseLine response)
      output.flush
    serveLines options input output store

def runOnce (options : GivenOptions) (path : String) (output : IO.FS.Stream) : IO UInt32 := do
  let outcome := CommandLine.runOnce (← filesAt path) options.config path
  output.putStr outcome.output
  return UInt32.ofNat outcome.exitCode

/-- The environment variables that options read. -/
def environment : IO (String → Option String) := do
  let names := OptionName.all.filterMap OptionName.environmentName?
  let values ← names.mapM fun name => return (name, ← IO.getEnv name)
  return fun name => (values.lookup name).join

end AsmTrace.Main

open AsmTrace in
def main (args : List String) : IO UInt32 := do
  let output ← IO.getStdout
  match Invocation.ofCommandLine args (← Main.environment) with
  | .misuse => return 2
  | .version =>
    output.putStr CommandLine.versionText
    return 0
  | .start options =>
    match options.file with
    | some path => Main.runOnce options path output
    | none => Main.serveLines options (← IO.getStdin) output (.new options.timeToLive)

import AsmTrace.Arithmetic
import AsmTrace.Assembly.Decode
import AsmTrace.Assembly.Error
import AsmTrace.Assembly.Labels
import AsmTrace.CommandLine
import AsmTrace.Config
import AsmTrace.Decimal.Shortest
import AsmTrace.Engine
import AsmTrace.Execution
import AsmTrace.Fault
import AsmTrace.Files
import AsmTrace.Flags
import AsmTrace.Instruction
import AsmTrace.Json
import AsmTrace.Json.Fault
import AsmTrace.Json.Number
import AsmTrace.Json.Reader
import AsmTrace.Line.Expectation
import AsmTrace.Line.Form
import AsmTrace.Line.Lexeme
import AsmTrace.Line.Literal
import AsmTrace.Line.Statements
import AsmTrace.Machine
import AsmTrace.Main
import AsmTrace.Memory
import AsmTrace.Opcode
import AsmTrace.Options
import AsmTrace.Program
import AsmTrace.Proofs.Decoding
import AsmTrace.Proofs.Effects
import AsmTrace.Proofs.Grammar
import AsmTrace.Proofs.LabelResolution
import AsmTrace.Proofs.LabelTable
import AsmTrace.Proofs.Lexemes
import AsmTrace.Proofs.LineNumbers
import AsmTrace.Proofs.Lines
import AsmTrace.Proofs.Literals
import AsmTrace.Proofs.OperandShapes
import AsmTrace.Proofs.Operands
import AsmTrace.Proofs.Primitives
import AsmTrace.Proofs.Results
import AsmTrace.Proofs.Runs
import AsmTrace.Proofs.StackPointer
import AsmTrace.Proofs.StackSize
import AsmTrace.Proofs.StepLimit
import AsmTrace.Register
import AsmTrace.Report
import AsmTrace.Request
import AsmTrace.Response
import AsmTrace.Semantics
import AsmTrace.Server
import AsmTrace.Session
import AsmTrace.Source
import AsmTrace.Stack
import AsmTrace.Statement
import AsmTrace.Statistics
import AsmTrace.Store
import AsmTrace.Text.Blank
import AsmTrace.Text.Caseless
import AsmTrace.Text.Extending
import AsmTrace.Text.Hidden
import AsmTrace.Text.Lines
import AsmTrace.Text.Printable
import AsmTrace.Text.Quoted
import AsmTrace.Trace
import AsmTrace.Word
import AsmTrace.Proofs.Endings
import AsmTrace.Proofs.Sessions
import AsmTrace.Proofs.Replay
import AsmTrace.Proofs.Clients
import AsmTrace.Proofs.FailedSteps
import AsmTrace.Proofs.Recordings
import AsmTrace.Proofs.Bookkeeping
import AsmTrace.Proofs.Returning
import AsmTrace.Proofs.Lockstep
import AsmTrace.Proofs.MemorySize
import AsmTrace.Proofs.Resuming
import AsmTrace.Proofs.Renumbering
import AsmTrace.Proofs.LineEndings
import AsmTrace.Proofs.FirstFault
import AsmTrace.Proofs.Rendering
import AsmTrace.Proofs.OpenCalls
import AsmTrace.Proofs.History
import AsmTrace.Proofs.ExactArithmetic
import AsmTrace.Proofs.Comparisons
import AsmTrace.Proofs.Division
import AsmTrace.Proofs.ReturnAddresses
import AsmTrace.Proofs.Footprints
import AsmTrace.Proofs.DataWords
import AsmTrace.Proofs.ForwardRuns
import AsmTrace.Proofs.CountedLoops
import AsmTrace.Proofs.Renaming
import AsmTrace.Proofs.MachineLog
import AsmTrace.Proofs.Reassembly
import AsmTrace.Proofs.Addresses
import AsmTrace.Proofs.Numerals
import AsmTrace.Proofs.LiteralValues
import AsmTrace.Proofs.Acceptance

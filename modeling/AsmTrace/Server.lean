import AsmTrace.Request
import AsmTrace.Response
import AsmTrace.Store

/-!
# Serving requests

Requests come one to a line. Before a request is served, the sessions that have expired are dropped.
Blank lines are passed over, and lines that are no request leave the sessions alone. How a line is
read as a request is left open.
-/

namespace AsmTrace

namespace Store

/-- Serves a request at an instant. -/
def handle (s : Store) (files : Files) (c : Config) (now : Nat) (request : Request) :
    Response × Store :=
  let s := s.evict now
  match request with
  | .run id path =>
    let (outcome, s) := s.run files c now id path
    (.ofAnswer .ofRun outcome, s)
  | .next id =>
    match s.stepNext now id with
    | (some outcome, s) => (.ofAnswer .ofStep outcome, s)
    | (none, s) => (.ofError .nothingRun, s)

/-- Serves a line at an instant. -/
def handleLine (s : Store) (decode : Request.Decoder) (files : Files) (c : Config) (now : Nat)
    (line : String) : Option Response × Store :=
  if Text.isBlank line then (none, s)
  else
    match decode line with
    | .ok request =>
      let (response, s) := s.handle files c now request
      (some response, s)
    | .error detail => (some (.error "Bad request" detail), s)

/-- Serves lines in order, each at its instant. Every line that is not blank has a response. -/
def serve (s : Store) (decode : Request.Decoder) (files : Files) (c : Config) :
    List (Nat × String) → List (Option Response) × Store
  | [] => ([], s)
  | (now, line) :: rest =>
    let (response, s) := s.handleLine decode files c now line
    let (responses, s) := s.serve decode files c rest
    (response :: responses, s)

end Store

end AsmTrace

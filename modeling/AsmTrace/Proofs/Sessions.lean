import AsmTrace.Response
import AsmTrace.Proofs.Endings

/-!
# What sessions hold

A session has six fields that change independently of each other, but whatever operations are
applied to a new session, they are those of one run, or of none. `Coherent` lists the combinations
that come about. Two things carry this: a run overwrites every field, and a run that comes to its
end has recorded a snapshot for the cursor to be on.
-/

namespace AsmTrace

namespace Session

variable {s : Session}

/-! ## Moving to the next snapshot -/

/-- While there is a next snapshot, it is answered and only the cursor moves. -/
theorem stepNext_of_lt (completed : s.status = .completed) (lt : s.cursor + 1 < s.trace.length) :
    ∃ snapshot, s.trace.get? (s.cursor + 1) = some snapshot ∧
      s.stepNext = (.ok snapshot, { s with cursor := s.cursor + 1 }) := by
  obtain ⟨snapshot, next⟩ := s.trace.exists_get? lt
  refine ⟨snapshot, next, ?_⟩
  simp only [stepNext, completed, Nat.not_le.2 lt, if_false, answer, current?, next]

/-- At the last step of a trace there is no step to go to. -/
theorem stepNext_of_le (completed : s.status = .completed) (le : s.trace.length ≤ s.cursor + 1) :
    s.stepNext = (.error .noMoreSteps, s) := by
  simp only [stepNext, completed, le, if_true]

/-- After a run that failed there is no trace to step through. -/
theorem stepNext_of_failed (failed : s.status = .failed) :
    s.stepNext = (.error .lastRunFailed, s) := by
  simp only [stepNext, failed]

/-- Nor is there one before the first run. -/
theorem stepNext_of_ready (ready : s.status = .ready) : s.stepNext = (.error .nothingRun, s) := by
  simp only [stepNext, ready]

/-- A step moves the cursor by one and answers, or changes nothing and fails. -/
theorem stepNext_cases (s : Session) :
    (∃ snapshot, s.stepNext = (.ok snapshot, { s with cursor := s.cursor + 1 })) ∨
      ∃ error, s.stepNext = (.error error, s) := by
  cases status : s.status with
  | ready => exact .inr ⟨_, stepNext_of_ready status⟩
  | failed => exact .inr ⟨_, stepNext_of_failed status⟩
  | completed =>
    by_cases le : s.trace.length ≤ s.cursor + 1
    · exact .inr ⟨_, stepNext_of_le status le⟩
    · obtain ⟨snapshot, -, stepped⟩ := stepNext_of_lt status (Nat.lt_of_not_le le)
      rw [status] at stepped
      exact .inl ⟨snapshot, stepped⟩

/-! ## Running -/

/-- What a run leaves does not depend on what the session held. -/
theorem finish_congr {s s' : Session} (same : s.source? = s'.source?)
    (outcome : Except RunError (Program × Trace)) : s.finish outcome = s'.finish outcome := by
  cases s
  cases s'
  cases same
  rfl

/-- A run forgets what the session was. -/
theorem runSource_eq_new (s : Session) (source : Source) (c : Config) :
    s.runSource source c = new.runSource source c :=
  finish_congr rfl _

/-- A run from a file forgets it as well. -/
theorem run_eq_new (s : Session) (files : Files) (path : String) (c : Config) :
    s.run files path c = new.run files path c := by
  unfold run
  cases Source.load files path with
  | ok source => exact (runSource_eq_new _ source c).trans (runSource_eq_new _ source c).symm
  | error error => exact finish_congr rfl _

/-- The session that a run leaves when it comes to its end. -/
def ended (source : Source) (program : Program) (trace : Trace) (cursor : Nat) : Session :=
  { source? := some source, program? := some program, trace, cursor, status := .completed }

/-- The session that a run leaves when it fails. -/
def broken (source? : Option Source) (error : RunError) : Session :=
  { source?, trace := error.partialTrace, status := .failed, failure? := some error }

section Fields

variable (source : Source) (program : Program) (trace : Trace) (cursor : Nat)

@[simp] theorem ended_trace : (ended source program trace cursor).trace = trace := rfl

@[simp] theorem ended_cursor : (ended source program trace cursor).cursor = cursor := rfl

@[simp] theorem ended_status : (ended source program trace cursor).status = .completed := rfl

@[simp] theorem ended_current? :
    (ended source program trace cursor).current? = trace.get? cursor := rfl

@[simp] theorem ended_output? : (ended source program trace cursor).output? = trace.output := rfl

@[simp] theorem ended_sourceCode :
    Response.sourceCode (ended source program trace cursor) = source.text := rfl

end Fields

/-- A run that comes to its end answers the first snapshot, which there is. -/
theorem runSource_of_ok {source : Source} {c : Config} {program : Program} {trace : Trace}
    (s : Session) (ran : source.run c = .ok (program, trace)) :
    ∃ first, trace.get? 0 = some first ∧
      s.runSource source c = (.ok first, ended source program trace 0) := by
  obtain ⟨last, ends⟩ := Source.endsWith_of_run ran
  obtain ⟨first, shown⟩ := trace.exists_get? ends.length_pos
  refine ⟨first, shown, ?_⟩
  rw [runSource_eq_new]
  simp only [runSource, finish, ran, answer, current?, shown]
  rfl

/-- A run that fails leaves a session with its error. -/
theorem runSource_of_error {source : Source} {c : Config} {error : RunError} (s : Session)
    (ran : source.run c = .error error) :
    s.runSource source c = (.error (.run error), broken (some source) error) := by
  rw [runSource_eq_new]
  simp only [runSource, finish, ran]
  rfl

/-- A run from a file that can be read is a run of its text. -/
theorem run_of_load {files : Files} {path : String} {source : Source} (s : Session)
    (loaded : Source.load files path = .ok source) (c : Config) :
    s.run files path c = s.runSource source c := by
  simp only [run, loaded]
  rfl

/-- A run from a file that cannot be read leaves a session without a source. -/
theorem run_of_load_error {files : Files} {path : String} {error : LoadError} (s : Session)
    (failed : Source.load files path = .error error) (c : Config) :
    s.run files path c = (.error (.run (.load error)), broken none (.load error)) := by
  rw [run_eq_new]
  simp only [run, failed]
  rfl

/-! ## Sequences of calls -/

/-- The sessions that come about: nothing was run, or the last run failed, or it came to its end and
the cursor is on one of its snapshots. -/
inductive Coherent : Session → Prop
  | new : Coherent new
  | unloaded (error : LoadError) : Coherent (broken none (.load error))
  | failed {source : Source} {c : Config} {error : RunError} (ran : source.run c = .error error) :
      Coherent (broken (some source) error)
  | completed {source : Source} {c : Config} {program : Program} {trace : Trace} {cursor : Nat}
      (ran : source.run c = .ok (program, trace)) (within : cursor < trace.length) :
      Coherent (ended source program trace cursor)

/-- A run leaves a coherent session, whether it fails or not. -/
theorem coherent_runSource (s : Session) (source : Source) (c : Config) :
    Coherent (s.runSource source c).2 := by
  cases ran : source.run c with
  | error error =>
    rw [runSource_of_error s ran]
    exact .failed ran
  | ok outcome =>
    obtain ⟨last, ends⟩ := Source.endsWith_of_run ran
    obtain ⟨first, -, answered⟩ := runSource_of_ok s ran
    rw [answered]
    exact .completed ran ends.length_pos

/-- So does a run from a file. -/
theorem coherent_run (s : Session) (files : Files) (path : String) (c : Config) :
    Coherent (s.run files path c).2 := by
  cases loaded : Source.load files path with
  | ok source =>
    rw [run_of_load s loaded]
    exact coherent_runSource s source c
  | error error =>
    rw [run_of_load_error s loaded]
    exact .unloaded error

/-- A step keeps a session coherent. -/
theorem Coherent.stepNext (h : Coherent s) : Coherent s.stepNext.2 := by
  cases h with
  | new => exact .new
  | unloaded error => exact .unloaded error
  | failed ran => exact .failed ran
  | @completed source c program trace cursor ran within =>
    by_cases le : trace.length ≤ cursor + 1
    · rw [stepNext_of_le rfl le]
      exact .completed ran within
    · obtain ⟨snapshot, -, stepped⟩ :=
        stepNext_of_lt (s := ended source program trace cursor) rfl (Nat.lt_of_not_le le)
      rw [stepped]
      exact .completed ran (Nat.lt_of_not_le le)

/-- An operation on a session and what it is given. -/
inductive Call where
  | run (files : Files) (path : String) (c : Config)
  | runSource (source : Source) (c : Config)
  | stepNext
  | current

/-- The session after a call. -/
def call (s : Session) : Call → Session
  | .run files path c => (s.run files path c).2
  | .runSource source c => (s.runSource source c).2
  | .stepNext => s.stepNext.2
  | .current => s

/-- A new session after some calls. -/
def afterCalls (calls : List Call) : Session := calls.foldl call new

/-- So does every call. -/
theorem Coherent.call (h : Coherent s) (call : Call) : Coherent (s.call call) := by
  cases call with
  | run files path c => exact coherent_run s files path c
  | runSource source c => exact coherent_runSource s source c
  | stepNext => exact h.stepNext
  | current => exact h

/-- Every session that can be reached is coherent. -/
theorem coherent_afterCalls (calls : List Call) : Coherent (afterCalls calls) := by
  have kept : ∀ s, Coherent s → Coherent (calls.foldl Session.call s) := by
    induction calls with
    | nil => exact fun s h => h
    | cons call calls ih => exact fun s h => ih _ (h.call call)
  exact kept new .new

/-- What the status of a session says about its other fields. -/
structure Invariant (s : Session) : Prop where
  ready : s.status = .ready → s.source? = none ∧ s.program? = none ∧ s.failure? = none ∧
    s.trace = {} ∧ s.cursor = 0
  completed : s.status = .completed → (∃ source program c, s.source? = some source ∧
    s.program? = some program ∧ source.run c = .ok (program, s.trace)) ∧ s.failure? = none ∧
    s.trace.isComplete = true ∧ s.cursor < s.trace.length
  failed : s.status = .failed → s.program? = none ∧ s.failure?.isSome = true ∧
    s.trace.isComplete = false ∧ s.cursor = 0 ∧
    (∀ failure, s.failure? = some (.execution failure) → s.trace = failure.partialTrace) ∧
    ((∀ failure, s.failure? ≠ some (.execution failure)) → s.trace = {})

/-- The invariant holds after a run that failed. -/
theorem invariant_broken (source? : Option Source) (error : RunError) :
    Invariant (broken source? error) where
  ready := by rintro ⟨⟩
  completed := by rintro ⟨⟩
  failed := by
    intro _
    refine ⟨rfl, rfl, ?_, rfl, ?_, ?_⟩
    · cases error <;> rfl
    · rintro failure ⟨⟩
      rfl
    · intro other
      cases error with
      | load _ => rfl
      | assembly _ => rfl
      | execution failure => exact absurd rfl (other failure)

/-- The invariant holds of coherent sessions. -/
theorem Coherent.invariant (h : Coherent s) : s.Invariant := by
  cases h with
  | new => exact ⟨fun _ => ⟨rfl, rfl, rfl, rfl, rfl⟩, by rintro ⟨⟩, by rintro ⟨⟩⟩
  | unloaded error => exact invariant_broken none (.load error)
  | @failed source _ error _ => exact invariant_broken (some source) error
  | @completed source c program trace cursor ran within =>
    obtain ⟨last, ends⟩ := Source.endsWith_of_run ran
    refine ⟨by rintro ⟨⟩, fun _ => ?_, by rintro ⟨⟩⟩
    exact ⟨⟨source, program, c, rfl, rfl, ran⟩, rfl, ends.isComplete, within⟩

/-- Whatever was called on a new session before: its status says what its other fields hold, another
run answers and leaves the same as in a new session, a step that fails changes nothing and one that
succeeds moves the cursor by one and changes nothing else. -/
theorem states_after_calls (calls : List Call) :
    (afterCalls calls).Invariant ∧
    (∀ files path c, (afterCalls calls).run files path c = new.run files path c) ∧
    (∀ source c, (afterCalls calls).runSource source c = new.runSource source c) ∧
    (∀ error, (afterCalls calls).stepNext.1 = .error error →
      (afterCalls calls).stepNext.2 = afterCalls calls) ∧
    ∀ snapshot, (afterCalls calls).stepNext.1 = .ok snapshot →
      (afterCalls calls).stepNext.2 =
        { afterCalls calls with cursor := (afterCalls calls).cursor + 1 } := by
  refine ⟨(coherent_afterCalls calls).invariant, run_eq_new _, runSource_eq_new _, ?_, ?_⟩
  · intro error failed
    rcases stepNext_cases (afterCalls calls) with ⟨snapshot, stepped⟩ | ⟨error', stepped⟩
    · rw [stepped] at failed
      cases failed
    · rw [stepped]
  · intro snapshot succeeded
    rcases stepNext_cases (afterCalls calls) with ⟨snapshot', stepped⟩ | ⟨error, stepped⟩
    · rw [stepped]
    · rw [stepped] at succeeded
      cases succeeded

/-- A run that fails, one that takes its place, and steps up to the last snapshot and beyond. -/
theorem states_after_calls_replaced :
    (afterCalls [.runSource (.ofText "bogus") {}]).status = .failed ∧
    (afterCalls [.runSource (.ofText "bogus") {}]).program? = none ∧
    (afterCalls [.runSource (.ofText "bogus") {}]).runSource (.ofText "nop\nhlt") {} =
      new.runSource (.ofText "nop\nhlt") {} ∧
    (afterCalls [.runSource (.ofText "nop\nhlt") {}, .stepNext]).cursor = 1 ∧
    (afterCalls [.runSource (.ofText "nop\nhlt") {}, .stepNext]).stepNext.2 =
      afterCalls [.runSource (.ofText "nop\nhlt") {}, .stepNext] := by
  have failed : (afterCalls [.runSource (.ofText "bogus") {}]).status = .failed := by decide +kernel
  have moved : (afterCalls [.runSource (.ofText "nop\nhlt") {}, .stepNext]).cursor = 1 := by
    decide +kernel
  have stuck : (afterCalls [.runSource (.ofText "nop\nhlt") {}, .stepNext]).stepNext.1 =
      .error .noMoreSteps := by decide +kernel
  obtain ⟨invariant, -, anew, -⟩ := states_after_calls [.runSource (.ofText "bogus") {}]
  obtain ⟨-, -, -, unchanged, -⟩ :=
    states_after_calls [.runSource (.ofText "nop\nhlt") {}, .stepNext]
  exact ⟨failed, (invariant.failed failed).1, anew _ _, moved, unchanged _ stuck⟩

end Session

end AsmTrace

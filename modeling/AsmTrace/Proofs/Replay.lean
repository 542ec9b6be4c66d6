import AsmTrace.Proofs.Views

/-!
# Stepping replays the run

A run is made at once and its trace kept; afterwards a client is shown one snapshot after the other.
What is shown is the trace of the run as it is when a file is run on its own: the snapshots one by
one and in order, and then that there are no more. Whatever other clients do in between makes no
difference, as long as the session is not run anew and not dropped; nor does how lines are read.
-/

namespace AsmTrace

open Result

/-! ## A run in a session and a run on its own -/

namespace Session

variable {files : Files} {path : String} {c : Config}

/-- A run from a file that succeeds leaves a session at the first step of the trace. -/
theorem run_of_runFile {program : Program} {trace : Trace}
    (ran : runFile files path c = .ok (program, trace)) :
    ∃ source first, Source.load files path = .ok source ∧ source.run c = .ok (program, trace) ∧
      trace.get? 0 = some first ∧
      new.run files path c = (.ok first, ended source program trace 0) := by
  obtain ⟨source, loaded, ran⟩ := bind_eq_ok.1 ran
  have loaded := mapError_eq_ok.1 loaded
  obtain ⟨first, shown, answered⟩ := runSource_of_ok new ran
  refine ⟨source, first, loaded, ran, shown, ?_⟩
  rw [run_of_load new loaded, answered]

/-- One that fails leaves a session with the error. -/
theorem run_of_runFile_error {error : RunError} (failed : runFile files path c = .error error) :
    ∃ source?, new.run files path c = (.error (.run error), broken source? error) := by
  cases loaded : Source.load files path with
  | error cause =>
    have cause_eq : runFile files path c = .error (.load cause) := by
      simp only [runFile, loaded]
      rfl
    cases failed.symm.trans cause_eq
    exact ⟨none, run_of_load_error new loaded c⟩
  | ok source =>
    have ran : runFile files path c = source.run c := by
      simp only [runFile, loaded]
      rfl
    refine ⟨some source, ?_⟩
    rw [run_of_load new loaded, runSource_of_error new (ran.symm.trans failed)]

end Session

namespace Response

/-- The response to a step to a position of a trace. -/
def atPosition (source : Source) (trace : Trace) (position : Nat) : Response :=
  match trace.get? position with
  | some snapshot => .step source.text snapshot
  | none => .ofError .noMoreSteps

/-- The cursor goes up to the last position and stays there. -/
theorem ofStep_ended (source : Source) (program : Program) {trace : Trace}
    (nonempty : 0 < trace.length) (k : Nat) :
    (Session.ended source program trace (min k (trace.length - 1))).stepNext.2 =
        .ended source program trace (min (k + 1) (trace.length - 1)) ∧
      ofAnswer ofStep (Session.ended source program trace (min k (trace.length - 1))).stepNext =
        atPosition source trace (k + 1) := by
  by_cases lt : k + 1 < trace.length
  · obtain ⟨snapshot, next, stepped⟩ :=
      Session.stepNext_of_lt (s := .ended source program trace k) rfl lt
    rw [Session.ended_trace, Session.ended_cursor] at next
    have moved : { Session.ended source program trace k with cursor := k + 1 } =
      Session.ended source program trace (k + 1) := rfl
    rw [Nat.min_eq_left (by omega : k ≤ trace.length - 1),
      Nat.min_eq_left (by omega : k + 1 ≤ trace.length - 1), stepped, Session.ended_cursor, moved]
    refine ⟨rfl, ?_⟩
    simp [ofStep, atPosition, next]
  · have beyond : trace.get? (k + 1) = none := List.getElem?_eq_none (Nat.le_of_not_lt lt)
    have stepped := Session.stepNext_of_le (s := .ended source program trace (trace.length - 1)) rfl
      (by rw [Session.ended_trace, Session.ended_cursor]; omega)
    rw [Nat.min_eq_right (by omega : trace.length - 1 ≤ k),
      Nat.min_eq_right (by omega : trace.length - 1 ≤ k + 1), stepped]
    refine ⟨rfl, ?_⟩
    simp [atPosition, beyond]

end Response

/-! ## Undisturbed sessions -/

namespace Store

variable {decode : Request.Decoder} {files : Files} {c : Config} {id : String} {s : Store}

/-- `Undisturbed decode files c id s arrivals` holds when serving the lines of `arrivals` neither
starts another run in the session `id` nor drops it. -/
structure Undisturbed (decode : Request.Decoder) (files : Files) (c : Config) (id : String)
    (s : Store) (arrivals : List (Nat × String)) : Prop where
  notRun : ∀ arrival ∈ arrivals, ∀ path, Request.ofLine? decode arrival.2 ≠ some (.run id path)
  kept : ∀ before now line after, arrivals = before ++ (now, line) :: after →
    Request.ofLine? decode line ≠ none →
    ((s.serve decode files c before).2.evict now).find? id =
      (s.serve decode files c before).2.find? id

namespace Undisturbed

variable {now : Nat} {line : String} {rest : List (Nat × String)}

/-- What is undisturbed is so after the first line. -/
theorem tail (h : Undisturbed decode files c id s ((now, line) :: rest)) :
    Undisturbed decode files c id (s.handleLine decode files c now line).2 rest where
  notRun := fun arrival mem => h.notRun arrival (List.mem_cons_of_mem _ mem)
  kept := by
    rintro before now' line' after rfl
    exact h.kept ((now, line) :: before) now' line' after rfl

/-- A session that is undisturbed does not expire. -/
theorem expire_eq {request : Request} (h : Undisturbed decode files c id s ((now, line) :: rest))
    (holds : Request.ofLine? decode line = some request) :
    expire s.timeToLive now (s.find? id) = s.find? id := by
  refine (find?_evict s now id).symm.trans (h.kept [] now line rest rfl ?_)
  rw [holds]
  exact Option.some_ne_none request

end Undisturbed

/-- How many of the lines ask for a step of the session `id`. -/
def stepCount (decode : Request.Decoder) (id : String) (arrivals : List (Nat × String)) : Nat :=
  (arrivals.filter fun a => (Request.ofLine? decode a.2).any (· = .next id)).length

/-- If `sessions` are what steps lead to from one to the next and `responses` are the responses to
these steps, then an undisturbed session goes through them. -/
theorem responsesTo_of_steps (sessions : Nat → Session) (responses : Nat → Response)
    (steps : ∀ k, (sessions k).stepNext.2 = sessions (k + 1) ∧
      Response.ofAnswer .ofStep (sessions k).stepNext = responses (k + 1))
    {k lastUsed : Nat} (found : s.find? id = some ⟨sessions k, lastUsed⟩)
    {arrivals : List (Nat × String)} (undisturbed : Undisturbed decode files c id s arrivals) :
    responsesTo decode (· = .next id) arrivals (s.serve decode files c arrivals).1 =
      (List.range' (k + 1) (stepCount decode id arrivals)).map fun i => some (responses i) := by
  induction arrivals generalizing s k lastUsed with
  | nil => rfl
  | cons arrival rest ih =>
    obtain ⟨now, line⟩ := arrival
    rw [serve_cons, responsesTo_cons]
    cases holds : Request.ofLine? decode line with
    | none =>
      have same : (s.handleLine decode files c now line).2 = s :=
        handleLine_of_no_request s files c now holds
      have count : stepCount decode id ((now, line) :: rest) = stepCount decode id rest := by
        simp [stepCount, holds]
      rw [count]
      exact ih (by rw [same]; exact found) undisturbed.tail
    | some request =>
      have alive := undisturbed.expire_eq holds
      have handled := handleLine_of_request s files c now holds
      by_cases own : id = request.session
      · -- a request of the session's own is a step, since it is no run
        obtain rfl : request = .next id := by
          cases request with
          | run id' path =>
            cases own
            exact absurd holds (undisturbed.notRun _ (List.mem_cons_self ..) path)
          | next id' => rw [own]; rfl
        obtain ⟨response, after⟩ := handle_own s files c now (.next id)
        rw [Request.session_next, alive, found] at response after
        have count : stepCount decode id ((now, line) :: rest) = stepCount decode id rest + 1 := by
          simp [stepCount, holds]
        obtain ⟨next, answered⟩ := steps k
        have found' : (s.handleLine decode files c now line).2.find? id =
            some ⟨sessions (k + 1), now⟩ := by
          rw [handled, ← next]
          exact after
        rw [count, List.range'_succ, List.map_cons, ← ih found' undisturbed.tail, handled]
        simp only [Option.any_some, decide_true, if_true, response, respond, answered]
      · have other : ¬ request = .next id := by
          rintro rfl
          exact own rfl
        have count : stepCount decode id ((now, line) :: rest) = stepCount decode id rest := by
          simp [stepCount, holds, other]
        have found' : (s.handleLine decode files c now line).2.find? id =
            some ⟨sessions k, lastUsed⟩ := by
          rw [handled]
          exact ((handle_other s files c now own).trans alive).trans found
        simp only [Option.any_some, other, decide_false, Bool.false_eq_true, if_false, count]
        exact ih found' undisturbed.tail

end Store

/-! ## Responses for a missing snapshot

A session that was run shows a snapshot whenever its last run came to its end, so the responses that
are provided for a missing one are never given. -/

namespace Response

/-- No two of the errors that a step answers have the same response. -/
theorem ofError_step_ne : ofError .lastRunFailed ≠ ofError .nothingRun ∧
    ofError .lastRunFailed ≠ ofError .noMoreSteps ∧ ofError .nothingRun ≠ ofError .noMoreSteps := by
  decide

theorem ofError_run_ne (error : RunError) :
    ofError (.run error) ≠ ofError .nothingRun ∧ ofError (.run error) ≠ ofError .noMoreSteps := by
  cases error with
  | load cause =>
    cases cause with
    | emptyPath => decide
    | unreadable path reason => simp [ofError]
  | assembly cause => simp [ofError]
  | execution failure => simp [ofError]

end Response

namespace Session

/-- Something was run in the session. -/
structure HasRun (s : Session) : Prop where
  coherent : s.Coherent
  started : s.status ≠ .ready

/-- A session has run after a run, whether it fails or not. -/
theorem hasRun_run (files : Files) (path : String) (c : Config) :
    HasRun (new.run files path c).2 := by
  refine ⟨coherent_run new files path c, ?_⟩
  cases ran : runFile files path c with
  | ok outcome =>
    obtain ⟨source, first, -, -, -, answered⟩ := run_of_runFile ran
    rw [answered]
    rintro ⟨⟩
  | error error =>
    obtain ⟨source?, answered⟩ := run_of_runFile_error ran
    rw [answered]
    rintro ⟨⟩

/-- It has still run after a step. -/
theorem HasRun.stepNext {s : Session} (h : s.HasRun) : HasRun s.stepNext.2 := by
  refine ⟨h.coherent.stepNext, ?_⟩
  rcases stepNext_cases s with ⟨snapshot, stepped⟩ | ⟨error, stepped⟩
  · rw [stepped]
    exact h.started
  · rw [stepped]
    exact h.started

/-- The response to a step of a session in which something was run. -/
theorem HasRun.response {s : Session} (h : s.HasRun) :
    Response.ofAnswer .ofStep s.stepNext ≠ .ofError .nothingRun ∧
      (Response.ofAnswer .ofStep s.stepNext = .ofError .noMoreSteps →
        s.trace.length ≤ s.cursor + 1) := by
  cases h.coherent with
  | new => exact absurd rfl h.started
  | unloaded error =>
    exact ⟨Response.ofError_step_ne.1, fun more => absurd more Response.ofError_step_ne.2.1⟩
  | failed ran =>
    exact ⟨Response.ofError_step_ne.1, fun more => absurd more Response.ofError_step_ne.2.1⟩
  | @completed source c program trace cursor ran within =>
    by_cases le : trace.length ≤ cursor + 1
    · rw [stepNext_of_le rfl le]
      exact ⟨Response.ofError_step_ne.2.2.symm, fun _ => le⟩
    · obtain ⟨snapshot, next, stepped⟩ :=
        stepNext_of_lt (s := ended source program trace cursor) rfl (Nat.lt_of_not_le le)
      have response : Response.ofAnswer .ofStep (ended source program trace cursor).stepNext =
          .step source.text snapshot := by
        rw [ended_trace, ended_cursor] at next
        have moved : { ended source program trace cursor with cursor := cursor + 1 } =
          ended source program trace (cursor + 1) := rfl
        rw [stepped, ended_cursor, moved]
        simp [Response.ofStep, next]
      rw [response]
      constructor
      · rintro ⟨⟩
      · rintro ⟨⟩

end Session

namespace Response

/-- The response to a run that comes to its end. -/
theorem ofRun_ended {source : Source} {program : Program} {trace : Trace} {first last : Snapshot}
    (shown : trace.get? 0 = some first) (ends : trace.EndsWith last) :
    ofAnswer ofRun (.ok first, .ended source program trace 0) =
      .run (toString (last.registers.get .ax).toInt) source.text first := by
  simp [ofRun, shown, ends.output]

end Response

namespace Store

variable {decode : Request.Decoder} {files : Files} {c : Config} {id : String} {s : Store}

/-- The store of a server that has served some lines. -/
def after (timeToLive : Nat) (decode : Request.Decoder) (files : Files) (c : Config)
    (history : List (Nat × String)) : Store :=
  ((new timeToLive).serve decode files c history).2

@[simp] theorem timeToLive_after (timeToLive : Nat) (history : List (Nat × String)) :
    (after timeToLive decode files c history).timeToLive = timeToLive :=
  timeToLive_serve (new timeToLive) history

/-- The store after one more line. -/
theorem after_concat (timeToLive : Nat) (history : List (Nat × String)) (now : Nat)
    (line : String) :
    after timeToLive decode files c (history ++ [(now, line)]) =
      ((after timeToLive decode files c history).handleLine decode files c now line).2 :=
  serve_append (new timeToLive) history [(now, line)]

/-- Something was run in every session of the store. -/
def Sound (s : Store) : Prop := ∀ id stored, s.find? id = some stored → stored.session.HasRun

/-- Handling a request keeps a store sound. -/
theorem Sound.handle (h : s.Sound) (files : Files) (c : Config) (now : Nat) (request : Request) :
    (s.handle files c now request).2.Sound := by
  intro id stored found
  by_cases own : id = request.session
  · subst own
    rw [(handle_own s files c now request).2] at found
    cases request with
    | run id path =>
      cases found
      exact Session.hasRun_run files path c
    | next id =>
      cases view : expire s.timeToLive now (s.find? id) with
      | none =>
        simp only [Request.session, view, respond] at found
        cases found
      | some old =>
        simp only [Request.session, view, respond] at found
        cases found
        exact (h id old (expire_eq_some.1 view).1).stepNext
  · rw [handle_other s files c now own] at found
    exact h id stored (expire_eq_some.1 found).1

/-- So does handling a line, however it is read. -/
theorem Sound.handleLine (h : s.Sound) (decode : Request.Decoder) (files : Files) (c : Config)
    (now : Nat) (line : String) :
    (s.handleLine decode files c now line).2.Sound := by
  cases holds : Request.ofLine? decode line with
  | none =>
    rw [handleLine_of_no_request s files c now holds]
    exact h
  | some request =>
    rw [handleLine_of_request s files c now holds]
    exact h.handle files c now request

/-- The store is sound after every history. -/
theorem sound_after (timeToLive : Nat) (decode : Request.Decoder) (files : Files) (c : Config)
    (history : List (Nat × String)) :
    (after timeToLive decode files c history).Sound := by
  have kept : ∀ s : Store, s.Sound → (s.serve decode files c history).2.Sound := by
    induction history with
    | nil => exact fun s h => h
    | cons arrival rest ih =>
      exact fun s h => ih _ (h.handleLine decode files c arrival.1 arrival.2)
  apply kept
  rintro id stored ⟨⟩

/-- The response to a step in a store that has served some lines: it says that nothing was run only
if there is no session, and that there are no more steps only if the cursor is on the last
snapshot. -/
theorem Sound.response (h : s.Sound) (files : Files) (c : Config) (now : Nat) (id : String) :
    ((s.handle files c now (.next id)).1 = .ofError .nothingRun ↔
      (s.evict now).find? id = none) ∧
    ((s.handle files c now (.next id)).1 = .ofError .noMoreSteps →
      ∃ stored, (s.evict now).find? id = some stored ∧
        stored.session.trace.length ≤ stored.session.cursor + 1) := by
  have response := (handle_own s files c now (.next id)).1
  have view : (s.evict now).find? id = expire s.timeToLive now (s.find? id) := find?_evict s now id
  simp only [Request.session, ← view] at response
  rw [response]
  cases found : (s.evict now).find? id with
  | none =>
    exact ⟨iff_of_true rfl rfl, fun more => absurd more Response.ofError_step_ne.2.2⟩
  | some stored =>
    rw [view] at found
    obtain ⟨started, ended⟩ := (h id stored (expire_eq_some.1 found).1).response
    exact ⟨iff_of_false started (Option.some_ne_none stored), fun more => ⟨stored, rfl, ended more⟩⟩

/-- A request to run a file succeeds exactly if the file runs to its end on its own. Its response
then shows the source text, the first snapshot of the trace and the value of `AX` in the last one,
and the steps that follow go through the other snapshots one by one, in order, up to the last, and
then say that there are no more. If the run fails, the response is that of its error and all steps
that follow are refused. The responses that are provided for a session without a snapshot to show
are never given: a run is not answered with them, and a step only if there is no session or the last
snapshot is shown. -/
theorem run_replayed {files : Files} {c : Config} {s s' : Store} {now : Nat} {id path : String}
    {response : Response} (served : s.handle files c now (.run id path) = (response, s')) :
    (response.isSuccess = true ↔ ∃ program trace, runFile files path c = .ok (program, trace)) ∧
    (∀ program trace, runFile files path c = .ok (program, trace) →
      ∃ source first last, Source.load files path = .ok source ∧ trace.get? 0 = some first ∧
        trace.snapshots.getLast? = some last ∧
        response = .run (toString (last.registers.get .ax).toInt) source.text first ∧
        ∀ decode files' arrivals, Undisturbed decode files' c id s' arrivals →
          responsesTo decode (· = .next id) arrivals (s'.serve decode files' c arrivals).1 =
            (List.range' 1 (stepCount decode id arrivals)).map fun i =>
              some (.atPosition source trace i)) ∧
    (∀ error, runFile files path c = .error error →
      response = .ofError (.run error) ∧
        ∀ decode files' arrivals, Undisturbed decode files' c id s' arrivals →
          responsesTo decode (· = .next id) arrivals (s'.serve decode files' c arrivals).1 =
            List.replicate (stepCount decode id arrivals) (some (.ofError .lastRunFailed))) ∧
    (response ≠ .ofError .nothingRun ∧ response ≠ .ofError .noMoreSteps) ∧
    ∀ ttl decode files' history now' id',
      (((after ttl decode files' c history).handle files' c now' (.next id')).1 =
          .ofError .nothingRun ↔
        ((after ttl decode files' c history).evict now').find? id' = none) ∧
      (((after ttl decode files' c history).handle files' c now' (.next id')).1 =
          .ofError .noMoreSteps →
        ∃ stored, ((after ttl decode files' c history).evict now').find? id' = some stored ∧
          stored.session.trace.length ≤ stored.session.cursor + 1) := by
  have response_eq : response = .ofAnswer .ofRun (Session.new.run files path c) :=
    (congrArg Prod.fst served).symm
  have found : s'.find? id = some ⟨(Session.new.run files path c).2, now⟩ := by
    have after := (handle_own s files c now (.run id path)).2
    rwa [served] at after
  have unreachable := fun ttl decode files' history =>
    (sound_after ttl decode files' c history).response files' c
  cases ran : runFile files path c with
  | ok outcome =>
    obtain ⟨program, trace⟩ := outcome
    obtain ⟨source, first, loaded, completed, shown, answered⟩ := Session.run_of_runFile ran
    obtain ⟨last, ends⟩ := Source.endsWith_of_run completed
    rw [answered] at response_eq found
    rw [Response.ofRun_ended shown ends] at response_eq
    subst response_eq
    refine ⟨iff_of_true rfl ⟨program, trace, rfl⟩, ?_, ?_, ⟨by rintro ⟨⟩, by rintro ⟨⟩⟩,
      unreachable⟩
    · rintro program' trace' ⟨⟩
      refine ⟨source, first, last, loaded, shown, ends.shown, rfl, ?_⟩
      intro decode files' arrivals undisturbed
      have steps := Response.ofStep_ended source program ends.length_pos
      exact responsesTo_of_steps _ _ (k := 0) steps (by simpa using found) undisturbed
    · rintro error ⟨⟩
  | error error =>
    obtain ⟨source?, answered⟩ := Session.run_of_runFile_error ran
    rw [answered] at response_eq found
    rw [Response.ofAnswer_error] at response_eq
    subst response_eq
    have failed : (Response.ofError (.run error)).isSuccess = false := by
      cases error with
      | load cause => cases cause <;> rfl
      | assembly cause => rfl
      | execution failure => rfl
    refine ⟨iff_of_false (by simp [failed]) ?_, ?_, ?_, Response.ofError_run_ne error, unreachable⟩
    · rintro ⟨program, trace, ⟨⟩⟩
    · rintro program trace ⟨⟩
    · rintro error' ⟨⟩
      refine ⟨rfl, ?_⟩
      intro decode files' arrivals undisturbed
      rw [responsesTo_of_steps (fun _ => .broken source? error) (fun _ => .ofError .lastRunFailed)
        (k := 0) (fun _ => ⟨rfl, rfl⟩) found undisturbed, List.map_const']
      simp

/-- Two steps, each at the last possible instant for a time to live of 9, and one of another
client. -/
def stepLines : List (Nat × String) :=
  [(9, "[\"next-output\",\"a\"]"), (10, "[\"next-output\",\"b\"]"), (18, "[\"next-output\",\"a\"]")]

theorem run_replayed_to_end :
    ∃ response s' source trace,
      (new 9).handle (fun _ => .ok "nop\nhlt".toUTF8) {} 0
        (.run "a" "p") = (response, s') ∧
      response.isSuccess = true ∧ trace.length = 2 ∧
      responsesTo Request.decode (· = .next "a") stepLines
          (s'.serve Request.decode (fun _ => .error .missing) {} stepLines).1 =
        [1, 2].map fun i => some (.atPosition source trace i) := by
  have length : (runFile (fun _ => .ok "nop\nhlt".toUTF8) "p" {}).toOption.map
      (·.2.length) = some 2 := by decide +kernel
  have count : stepCount Request.decode "a" stepLines = 2 := by decide +kernel
  have undisturbed : Undisturbed Request.decode (fun _ => .error .missing) {} "a"
      ((new 9).handle (fun _ => .ok "nop\nhlt".toUTF8) {} 0
        (.run "a" "p")).2 stepLines := by
    constructor
    · have steps : ∀ a ∈ stepLines, (Request.ofLine? Request.decode a.2).any
          (fun request => request = .next "a" || request = .next "b") = true := by decide +kernel
      intro arrival mem path run
      have step := steps arrival mem
      rw [run] at step
      simp at step
    · intro before now line after eq _
      unfold stepLines at eq
      rcases before with _ | ⟨_, _ | ⟨_, _ | ⟨_, before⟩⟩⟩
      case cons.cons.cons => simp at eq
      all_goals
        cases eq
        decide +kernel
  cases served : (new 9).handle
    (fun _ => .ok "nop\nhlt".toUTF8) {} 0 (.run "a" "p") with
  | mk response s' =>
    rw [served] at undisturbed
    obtain ⟨success, replayed, -⟩ := run_replayed served
    cases ran : runFile (fun _ => .ok "nop\nhlt".toUTF8) "p" {} with
    | error error =>
      rw [ran] at length
      cases length
    | ok outcome =>
      obtain ⟨program, trace⟩ := outcome
      rw [ran] at length
      obtain ⟨source, first, last, -, -, -, -, steps⟩ := replayed program trace ran
      have answered := steps _ _ stepLines undisturbed
      rw [count] at answered
      exact ⟨response, s', source, trace, rfl, success.2 ⟨program, trace, ran⟩,
        Option.some_inj.1 length, answered⟩

end Store

end AsmTrace

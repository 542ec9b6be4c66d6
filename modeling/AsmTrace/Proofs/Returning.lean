import AsmTrace.Proofs.Recordings

/-!
# Runs return

A run steps until a step halts or fails, and programs may go round forever. `Loops` is this loop as
it stands, with no bound on it, together with what its steps answer; `Returns` loads the data words
first. An execution that has not failed comes out of the loop, for each step that goes on uses up
some of the limit, and what it comes out with is what `Execution.run` gives (`run_returns`). A
failed one never does (`not_returns_of_failed`).
-/

namespace AsmTrace

namespace Execution

variable {p : Program} {c : Config} {e e₁ : Execution} {ss : List Snapshot}
  {answers answers' : List (Except Fault Status)} {r r' : Except RunFailure Trace}

/-! ## The loop -/

/-- `Loops p c e ss answers r` holds when stepping from `e`, with `ss` recorded before, comes to the
result `r` after steps that answer `answers`. -/
inductive Loops (p : Program) (c : Config) :
    Execution → List Snapshot → List (Except Fault Status) → Except RunFailure Trace → Prop
  /-- The step halts or fails. -/
  | last {e : Execution} {ss : List Snapshot} {r : Except RunFailure Trace}
      (concluded : conclusion? p (e.step p c) ss = some r) :
      Loops p c e ss [(e.step p c).answer] r
  /-- The step does neither, and there is another one. -/
  | again {e : Execution} {ss : List Snapshot} {answers : List (Except Fault Status)}
      {r : Except RunFailure Trace} (ongoing : conclusion? p (e.step p c) ss = none)
      (rest : Loops p c (e.step p c).after (ss ++ (e.step p c).recorded.toList) answers r) :
      Loops p c e ss ((e.step p c).answer :: answers) r

/-- `Returns p c e answers r` holds when running `e` on comes to the result `r` after steps that
answer `answers`. -/
inductive Returns (p : Program) (c : Config) (e : Execution) :
    List (Except Fault Status) → Except RunFailure Trace → Prop
  /-- The data words cannot be loaded. -/
  | unloaded {line : Nat} {fault : Fault}
      (loading : loadData e.machine p.data = .error (line, fault)) :
      Returns p c e [] (.error ⟨line, fault, []⟩)
  | looped {m : Machine} {answers : List (Except Fault Status)} {r : Except RunFailure Trace}
      (loaded : loadData e.machine p.data = .ok m)
      (loops : Loops p c { e with machine := m } [] answers r) : Returns p c e answers r

theorem Loops.unique (h : Loops p c e ss answers r) (h' : Loops p c e ss answers' r') :
    answers = answers' ∧ r = r' := by
  induction h generalizing answers' with
  | last concluded =>
    cases h' with
    | last concluded' => exact ⟨rfl, Option.some.inj (concluded.symm.trans concluded')⟩
    | again ongoing => cases concluded.symm.trans ongoing
  | again ongoing _ ih =>
    cases h' with
    | last concluded => cases concluded.symm.trans ongoing
    | again _ rest =>
      obtain ⟨rfl, rfl⟩ := ih rest
      exact ⟨rfl, rfl⟩

/-- Running on has one outcome at most. -/
theorem Returns.unique (h : Returns p c e answers r) (h' : Returns p c e answers' r') :
    answers = answers' ∧ r = r' := by
  cases h with
  | unloaded loading =>
    cases h' with
    | unloaded loading' =>
      cases loading.symm.trans loading'
      exact ⟨rfl, rfl⟩
    | looped loaded => cases loading.symm.trans loaded
  | looped loaded loops =>
    cases h' with
    | unloaded loading => cases loaded.symm.trans loading
    | looped loaded' loops' =>
      cases loaded.symm.trans loaded'
      exact loops.unique loops'

/-! ## Executions that have not failed -/

/-- The loop follows a chain of steps, each of which goes on, and ends with the step after it. -/
theorem Proceeds.loops {ts : List Snapshot} (h : Proceeds p c e ts e₁)
    (concluded : conclusion? p (e₁.step p c) (ss ++ ts) = some r) :
    Loops p c e ss (List.replicate ts.length (.ok .running) ++ [(e₁.step p c).answer]) r := by
  -- along the chain, with what was recorded before it growing by one snapshot a step
  induction h generalizing ss with
  | refl e =>
    rw [List.append_nil] at concluded
    exact .last concluded
  | @cons e e₁ e₂ s ts goes _ ih =>
    have rest : Loops p c e₁ (ss ++ [s])
        (List.replicate ts.length (.ok .running) ++ [(e₂.step p c).answer]) r :=
      ih (by simpa using concluded)
    have ongoing : conclusion? p (e.step p c) ss = none := by
      rw [show e.step p c = _ from goes]
      rfl
    have loops := Loops.again ongoing (by rw [goes]; exact rest)
    rwa [goes] at loops

/-- A halted execution is at its last step at once; any other that has not failed comes to one. -/
theorem exists_proceeds_of_ne_failed (p : Program) (c : Config) (h : e.status ≠ .failed) :
    ∃ ss e₁, Proceeds p c e ss e₁ ∧ e₁.IsLast p c := by
  by_cases active : e.Active
  · exact exists_proceeds p c active
  · rcases not_active_iff.1 active with ⟨reason, halted⟩ | failed
    · refine ⟨[], e, .refl e, .inl ⟨reason, ?_⟩⟩
      rw [step_of_not_active active, halted]
    · exact absurd failed h

theorem IsLast.answer_ne (h : e.IsLast p c) : (e.step p c).answer ≠ .ok .failed := by
  intro failed
  rcases h with ⟨reason, answer⟩ | ⟨fault, answer⟩
  · cases answer.symm.trans failed
  · cases answer.symm.trans failed

/-- What a step records is within the limit. -/
theorem length_recorded_le (h : e.steps ≤ c.stepLimit) :
    (e.step p c).recorded.toList.length + e.steps ≤ c.stepLimit := by
  have stepping := stepping_step p c e
  generalize e.step p c = s at stepping
  cases stepping with
  | idle | ended | limited | failed => simpa using h
  | executed _ _ allowed =>
    rw [Option.toList_some, List.length_singleton, Nat.add_comm]
    exact allowed

/-- An execution that has not failed comes out of the loop with what `run` gives, after no more
steps and with no more snapshots than its limit leaves. -/
theorem returns_of_ne_failed (notFailed : e.status ≠ .failed) (within : e.steps ≤ c.stepLimit) :
    ∃ answers, Returns p c e answers (e.run p c) ∧ answers.length + e.steps ≤ c.stepLimit + 1 ∧
      .ok .failed ∉ answers ∧ (snapshotsOf (e.run p c)).length + e.steps ≤ c.stepLimit := by
  cases loading : loadData e.machine p.data with
  | error failure =>
    obtain ⟨line, fault⟩ := failure
    rw [run_of_loading loading]
    refine ⟨[], .unloaded loading, ?_, List.not_mem_nil, ?_⟩
    · rw [List.length_nil]
      omega
    · change 0 + e.steps ≤ c.stepLimit
      omega
  | ok m =>
    obtain ⟨ss, e₁, proceeds, last⟩ :=
      exists_proceeds_of_ne_failed p c (e := { e with machine := m }) notFailed
    obtain ⟨r, concluded⟩ := last.conclusion ss
    have run : e.run p c = r := run_of_proceeds loading proceeds concluded
    have steps : e₁.steps = e.steps + ss.length := proceeds.steps_eq
    have length : ss.length ≤ c.stepLimit - e.steps := proceeds.length_le
    have loops : Loops p c { e with machine := m } []
        (List.replicate ss.length (.ok .running) ++ [(e₁.step p c).answer]) (e.run p c) := by
      rw [run]
      exact proceeds.loops concluded
    refine ⟨_, .looped loading loops, ?_, ?_, ?_⟩
    · rw [List.length_append, List.length_replicate, List.length_singleton]
      omega
    · intro mem
      rcases List.mem_append.1 mem with mem | mem
      · cases List.eq_of_mem_replicate mem
      · exact last.answer_ne (List.mem_singleton.1 mem).symm
    · have recorded := length_recorded_le (p := p) (c := c) (e := e₁) (by omega)
      rw [run, snapshotsOf_conclusion concluded, List.length_append]
      omega

/-! ## Failed executions -/

theorem Loops.not_failed (h : Loops p c e ss answers r) : e.status ≠ .failed := by
  induction h with
  | @last e ss r concluded =>
    intro failed
    rw [step_of_not_active (not_active_iff.2 (.inr failed)), failed] at concluded
    cases concluded
  | @again e ss answers r ongoing rest ih =>
    intro failed
    -- the step has left the execution as it was, so the rest of the loop starts failed too
    rw [step_of_not_active (not_active_iff.2 (.inr failed))] at ih
    exact ih failed

/-- A failed execution that is run on goes round forever, unless its data words cannot be loaded. -/
theorem not_returns_of_failed {m : Machine} (failed : e.status = .failed)
    (loaded : loadData e.machine p.data = .ok m) : ¬ Returns p c e answers r := by
  intro returns
  cases returns with
  | unloaded loading => cases loaded.symm.trans loading
  | looped _ loops => exact loops.not_failed failed

/-- Whatever the steps before, as long as none has failed, running on returns, in one way only and
with the result that `run` gives. It takes at most one step more than the limit leaves; no step
finds the execution failed; and the snapshots are no more than the limit leaves. -/
theorem run_returns (p : Program) (c : Config) (n : Nat)
    (notFailed : (Recording.after p c n).execution.status ≠ .failed) :
    ∃ answers,
      (∀ answers' r, Returns p c (Recording.after p c n).execution answers' r ↔
        answers' = answers ∧ r = (Recording.after p c n).execution.run p c) ∧
      answers.length + (Recording.after p c n).execution.steps ≤ c.stepLimit + 1 ∧
      .ok .failed ∉ answers ∧
      (snapshotsOf ((Recording.after p c n).execution.run p c)).length +
        (Recording.after p c n).execution.steps ≤ c.stepLimit := by
  obtain ⟨answers, returns, length, neverFailed, snapshots⟩ :=
    returns_of_ne_failed (p := p) notFailed (Recording.steps_le p c n)
  refine ⟨answers, ?_, length, neverFailed, snapshots⟩
  intro answers' r
  constructor
  · intro returns'
    exact returns'.unique returns
  · rintro ⟨rfl, rfl⟩
    exact returns

/-- A program that goes round forever, stepped twice and then run on under a limit of 3: the run
takes at most two steps and records at most one snapshot. -/
theorem run_returns_endless :
    ∃ (p : Program) (c : Config) (answers : List (Except Fault Status)),
      (Recording.after p c 2).execution.status = .running ∧
      c.stepLimit = (Recording.after p c 2).execution.steps + 1 ∧
      Returns p c (Recording.after p c 2).execution answers
        ((Recording.after p c 2).execution.run p c) ∧
      answers.length ≤ 2 ∧ .ok .failed ∉ answers ∧
      (snapshotsOf ((Recording.after p c 2).execution.run p c)).length ≤ 1 := by
  let p : Program := { instructions := #[⟨1, .jump none 0⟩], labels := {}, data := [] }
  let c : Config := { stepLimit := 3 }
  have status : (Recording.after p c 2).execution.status = .running := by decide +kernel
  have steps : (Recording.after p c 2).execution.steps = 2 := by decide +kernel
  obtain ⟨answers, returns, length, neverFailed, snapshots⟩ :=
    run_returns p c 2 (by rw [status]; decide)
  rw [steps] at length snapshots
  refine ⟨p, c, answers, status, by rw [steps], (returns _ _).2 ⟨rfl, rfl⟩, ?_, neverFailed, ?_⟩
  · exact Nat.le_of_add_le_add_right length
  · exact Nat.le_of_add_le_add_right snapshots

end Execution

end AsmTrace

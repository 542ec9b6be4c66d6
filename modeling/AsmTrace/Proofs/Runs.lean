import AsmTrace.Execution

/-!
# Stepping and running

What one step can do is said once, by `Stepping`. A run is a chain of steps that each execute an
instruction and leave the execution running (`Proceeds`), followed by one step that does not. The
chain exists (`exists_proceeds`) and determines the result (`runFrom_of_proceeds`), so facts about
runs follow from facts about steps, and the bound of `runFrom` appears nowhere else.
-/

namespace AsmTrace

namespace Execution

variable {p : Program} {c : Config} {e e₁ e₂ : Execution}

/-! ## One step -/

/-- Neither halted nor failed: the next step looks at the program. -/
def Active (e : Execution) : Prop := e.status = .notStarted ∨ e.status = .running

instance (e : Execution) : Decidable e.Active := inferInstanceAs (Decidable (_ ∨ _))

/-- An execution that is not active has halted or has failed. -/
theorem not_active_iff :
    ¬ e.Active ↔ (∃ reason, e.status = .halted reason) ∨ e.status = .failed := by
  unfold Active
  cases e.status <;> simp

/-- What an instruction does to the machine of an execution. -/
def effectOf (p : Program) (e : Execution) (i : Instruction) : Effect :=
  i.operation.execute p.size e.pc e.machine e.callDepth

/-- The execution after an instruction that did not fail. -/
def performed (p : Program) (e : Execution) (i : Instruction) (control : Control) : Execution :=
  { e with
    machine := (e.effectOf p i).machine
    callDepth := (e.effectOf p i).callDepth
    status := .running
    steps := e.steps + 1
    statistics := e.statistics.record i.opcode }.follow control

/-- The execution after an instruction that failed. -/
def stopped (p : Program) (e : Execution) (i : Instruction) : Execution :=
  { e with
    machine := (e.effectOf p i).machine
    callDepth := (e.effectOf p i).callDepth
    status := .failed }

section Fields

variable (p : Program) (e : Execution) (i : Instruction) (k : Control)

/-- Where control goes makes no difference to the machine. -/
@[simp] theorem follow_machine : (e.follow k).machine = e.machine := by
  cases k <;> rfl

@[simp] theorem follow_steps : (e.follow k).steps = e.steps := by
  cases k <;> rfl

@[simp] theorem follow_callDepth : (e.follow k).callDepth = e.callDepth := by
  cases k <;> rfl

@[simp] theorem follow_statistics : (e.follow k).statistics = e.statistics := by
  cases k <;> rfl

/-- An instruction that succeeds leaves the machine of its effect. -/
@[simp] theorem performed_machine : (e.performed p i k).machine = (e.effectOf p i).machine := by
  simp [performed]

/-- It is counted as a step. -/
@[simp] theorem performed_steps : (e.performed p i k).steps = e.steps + 1 := by
  simp [performed]

/-- It leaves the open calls of its effect. -/
@[simp] theorem performed_callDepth :
    (e.performed p i k).callDepth = (e.effectOf p i).callDepth := by
  simp [performed]

/-- It is counted by its opcode. -/
@[simp] theorem performed_statistics :
    (e.performed p i k).statistics = e.statistics.record i.opcode := by
  simp [performed]

@[simp] theorem performed_next_pc : (e.performed p i .next).pc = e.pc + 1 := rfl

@[simp] theorem performed_jump_pc (target : Nat) :
    (e.performed p i (.jump target)).pc = target := rfl

@[simp] theorem performed_halt_pc (reason : HaltReason) :
    (e.performed p i (.halt reason)).pc = e.pc := rfl

@[simp] theorem performed_next_status : (e.performed p i .next).status = .running := rfl

@[simp] theorem performed_jump_status (target : Nat) :
    (e.performed p i (.jump target)).status = .running := rfl

@[simp] theorem performed_halt_status (reason : HaltReason) :
    (e.performed p i (.halt reason)).status = .halted reason := rfl

/-- An instruction that fails leaves the machine of its effect as well. -/
@[simp] theorem stopped_machine : (e.stopped p i).machine = (e.effectOf p i).machine := rfl

@[simp] theorem stopped_callDepth :
    (e.stopped p i).callDepth = (e.effectOf p i).callDepth := rfl

@[simp] theorem stopped_pc : (e.stopped p i).pc = e.pc := rfl

/-- An instruction that fails is not counted. -/
@[simp] theorem stopped_steps : (e.stopped p i).steps = e.steps := rfl

/-- It leaves the execution failed. -/
@[simp] theorem stopped_status : (e.stopped p i).status = .failed := rfl

@[simp] theorem stopped_statistics : (e.stopped p i).statistics = e.statistics := rfl

end Fields

/-- What a step can do. -/
inductive Stepping (p : Program) (c : Config) (e : Execution) : Step → Prop
  /-- A halted or failed execution stays as it is. -/
  | idle (inactive : ¬ e.Active) : Stepping p c e ⟨e, none, .ok e.status⟩
  /-- There is no further instruction. -/
  | ended (active : e.Active) (beyond : p.fetch? e.pc = none) :
      Stepping p c e
        ⟨{ e with status := .halted .endOfProgram }, none, .ok (.halted .endOfProgram)⟩
  /-- There is one, but the limit is reached. -/
  | limited {i : Instruction} (active : e.Active) (fetched : p.fetch? e.pc = some i)
      (reached : c.stepLimit ≤ e.steps) :
      Stepping p c e
        ⟨{ e with status := .failed }, none, .error (.stepLimitExceeded c.stepLimit)⟩
  /-- The instruction fails. -/
  | failed {i : Instruction} {fault : Fault} (active : e.Active)
      (fetched : p.fetch? e.pc = some i) (allowed : e.steps < c.stepLimit)
      (control : (e.effectOf p i).control = .error fault) :
      Stepping p c e ⟨e.stopped p i, none, .error fault⟩
  /-- The instruction is executed. -/
  | executed {i : Instruction} {k : Control} (active : e.Active)
      (fetched : p.fetch? e.pc = some i) (allowed : e.steps < c.stepLimit)
      (control : (e.effectOf p i).control = .ok k) :
      Stepping p c e
        ⟨e.performed p i k, some ((e.effectOf p i).machine.snapshot i.line),
          .ok (e.performed p i k).status⟩

/-- A step does nothing once the execution has ended. -/
theorem step_of_not_active (h : ¬ e.Active) : e.step p c = ⟨e, none, .ok e.status⟩ := by
  unfold step
  split
  · rfl
  · rfl
  · next hs => exact absurd (.inl hs) h
  · next hs => exact absurd (.inr hs) h

/-- A step of an active execution advances it. -/
theorem step_of_active (h : e.Active) : e.step p c = e.advance p c := by
  rcases h with h | h <;> simp [step, h]

/-- Every step is one of those that `Stepping` lists. -/
theorem stepping_step (p : Program) (c : Config) (e : Execution) :
    Stepping p c e (e.step p c) := by
  by_cases active : e.Active
  · rw [step_of_active active]
    unfold advance
    split
    · next beyond => exact .ended active beyond
    · next i fetched =>
      split
      · next allowed =>
        unfold perform
        dsimp only
        split
        · next fault control => exact .failed active fetched allowed control
        · next k control =>
          have h := Stepping.executed active fetched allowed control
          rw [← performed_machine p e i k] at h
          exact h
      · next reached => exact .limited active fetched (Nat.le_of_not_lt reached)
  · rw [step_of_not_active active]
    exact .idle active

/-- The step of an instruction that the limit allows. -/
theorem step_of_allowed {i : Instruction} (active : e.Active) (fetched : p.fetch? e.pc = some i)
    (allowed : e.steps < c.stepLimit) :
    e.step p c = perform p.size i { e with status := .running } := by
  rw [step_of_active active]
  simp only [advance, fetched, allowed, if_true]

/-- A step whose instruction succeeds. -/
theorem step_of_ok {i : Instruction} {k : Control} (active : e.Active)
    (fetched : p.fetch? e.pc = some i) (allowed : e.steps < c.stepLimit)
    (control : (e.effectOf p i).control = .ok k) :
    e.step p c = ⟨e.performed p i k, some ((e.effectOf p i).machine.snapshot i.line),
      .ok (e.performed p i k).status⟩ := by
  rw [step_of_allowed active fetched allowed, ← performed_machine p e i k]
  unfold effectOf at control
  simp only [perform, control]
  rfl

/-- A step whose instruction fails. -/
theorem step_of_fault {i : Instruction} {fault : Fault} (active : e.Active)
    (fetched : p.fetch? e.pc = some i) (allowed : e.steps < c.stepLimit)
    (control : (e.effectOf p i).control = .error fault) :
    e.step p c = ⟨e.stopped p i, none, .error fault⟩ := by
  rw [step_of_allowed active fetched allowed]
  unfold effectOf at control
  simp only [perform, control]
  rfl

/-- A step that answers with a status leaves the execution in it. -/
theorem status_of_ok {status : Status} (h : (e.step p c).answer = .ok status) :
    (e.step p c).after.status = status := by
  have stepping := stepping_step p c e
  generalize e.step p c = s at stepping h
  cases stepping with
  | idle | ended | executed =>
    cases h
    rfl
  | limited | failed => cases h

/-- A step that answers with a fault fails and records nothing. -/
theorem failed_of_error {fault : Fault} (h : (e.step p c).answer = .error fault) :
    (e.step p c).after.status = .failed ∧ (e.step p c).recorded = none := by
  have stepping := stepping_step p c e
  generalize e.step p c = s at stepping h
  cases stepping with
  | idle | ended | executed => cases h
  | limited | failed => exact ⟨rfl, rfl⟩

/-- The next line is that of the instruction at `pc`. -/
theorem nextLine_of_fetch {i : Instruction} (fetched : p.fetch? e.pc = some i) :
    e.nextLine p = i.line := by
  simp [nextLine, fetched]

/-- A step looks at the configuration only for its limit. -/
theorem step_congr_limit {c₁ c₂ : Config} (h₁ : e.steps < c₁.stepLimit)
    (h₂ : e.steps < c₂.stepLimit) : e.step p c₁ = e.step p c₂ := by
  unfold step advance
  simp only [h₁, h₂, if_true]

/-- The end of the program is seen before the limit. -/
theorem step_congr_beyond (c₁ c₂ : Config) (beyond : p.fetch? e.pc = none) :
    e.step p c₁ = e.step p c₂ := by
  unfold step advance
  simp only [beyond]

/-! ## Chains of steps -/

/-- `Goes p c e s e₁` holds when a step from `e` executes an instruction, records `s` and leads to
`e₁`, which is still running. -/
def Goes (p : Program) (c : Config) (e : Execution) (s : Snapshot) (e₁ : Execution) : Prop :=
  e.step p c = ⟨e₁, some s, .ok .running⟩

/-- `Proceeds p c e ss e₁` holds when such steps lead from `e` to `e₁` and record `ss`. -/
inductive Proceeds (p : Program) (c : Config) : Execution → List Snapshot → Execution → Prop
  | refl (e : Execution) : Proceeds p c e [] e
  | cons {e e₁ e₂ : Execution} {s : Snapshot} {ss : List Snapshot} :
      Goes p c e s e₁ → Proceeds p c e₁ ss e₂ → Proceeds p c e (s :: ss) e₂

/-- What it takes for a step to go on. -/
theorem Goes.performed {s : Snapshot} (h : Goes p c e s e₁) :
    e.Active ∧ e.steps < c.stepLimit ∧ ∃ i k, p.fetch? e.pc = some i ∧
      (e.effectOf p i).control = .ok k ∧ e₁ = e.performed p i k ∧ e₁.status = .running ∧
      s = (e.effectOf p i).machine.snapshot i.line := by
  have stepping := stepping_step p c e
  rw [h] at stepping
  generalize answer : (Except.ok Status.running : Except Fault Status) = a at stepping
  cases stepping with
  | executed active fetched allowed control =>
    exact ⟨active, allowed, _, _, fetched, control, rfl, (Except.ok.inj answer).symm, rfl⟩

/-- A step that goes on is counted. -/
theorem Goes.steps_eq {s : Snapshot} (h : Goes p c e s e₁) : e₁.steps = e.steps + 1 := by
  obtain ⟨-, -, i, k, -, -, rfl, -⟩ := h.performed
  exact performed_steps p e i k

/-- A step that goes on leaves an active execution. -/
theorem Goes.active {s : Snapshot} (h : Goes p c e s e₁) : e₁.Active := by
  obtain ⟨-, -, i, k, -, -, -, running, -⟩ := h.performed
  exact .inr running

/-- A step of an active execution goes on unless it is the last one of a run. -/
theorem Active.goes_or_last (active : e.Active) :
    (∃ s e₁, Goes p c e s e₁) ∨ (∃ reason, (e.step p c).answer = .ok (.halted reason)) ∨
      ∃ fault, (e.step p c).answer = .error fault := by
  have stepping := stepping_step p c e
  unfold Goes
  generalize e.step p c = s at stepping
  cases stepping with
  | idle inactive => exact absurd active inactive
  | ended => exact .inr (.inl ⟨_, rfl⟩)
  | limited => exact .inr (.inr ⟨_, rfl⟩)
  | failed => exact .inr (.inr ⟨_, rfl⟩)
  | @executed i k =>
    cases k with
    | next => exact .inl ⟨_, _, rfl⟩
    | jump target => exact .inl ⟨_, _, rfl⟩
    | halt reason => exact .inr (.inl ⟨reason, rfl⟩)

namespace Proceeds

variable {ss ts : List Snapshot}

/-- There is a snapshot for each step counted. -/
theorem steps_eq (h : Proceeds p c e ss e₁) : e₁.steps = e.steps + ss.length := by
  induction h with
  | refl => rfl
  | cons goes _ ih =>
    rw [ih, goes.steps_eq, List.length_cons]
    omega

/-- An execution that proceeds stays active. -/
theorem active (h : Proceeds p c e ss e₁) (active : e.Active) : e₁.Active := by
  induction h with
  | refl => exact active
  | cons goes _ ih => exact ih goes.active

/-- A chain can be cut after any number of its steps. -/
theorem split (h : Proceeds p c e (ss ++ ts) e₂) :
    ∃ e₁, Proceeds p c e ss e₁ ∧ Proceeds p c e₁ ts e₂ := by
  induction ss generalizing e with
  | nil => exact ⟨e, .refl e, h⟩
  | cons s ss ih =>
    cases h with
    | cons goes rest =>
      obtain ⟨e₁, first, second⟩ := ih rest
      exact ⟨e₁, .cons goes first, second⟩

/-- Steps are made one after the other. -/
theorem append (h : Proceeds p c e ss e₁) (h' : Proceeds p c e₁ ts e₂) :
    Proceeds p c e (ss ++ ts) e₂ := by
  induction h with
  | refl => exact h'
  | cons goes _ ih => exact .cons goes (ih h')

/-- A chain goes through under any other limit that it does not exceed. -/
theorem of_limit {c' : Config} (h : Proceeds p c e ss e₁)
    (le : e.steps + ss.length ≤ c'.stepLimit) : Proceeds p c' e ss e₁ := by
  induction h with
  | refl e => exact .refl e
  | cons goes _ ih =>
    rw [List.length_cons] at le
    have allowed := goes.performed.2.1
    refine .cons ?_ (ih (by rw [goes.steps_eq]; omega))
    rw [Goes, step_congr_limit (by omega) allowed]
    exact goes

/-- The limit bounds the length of a chain. -/
theorem length_le (h : Proceeds p c e ss e₁) : ss.length ≤ c.stepLimit - e.steps := by
  induction h with
  | refl => exact Nat.zero_le _
  | cons goes _ ih =>
    have allowed := goes.performed.2.1
    rw [goes.steps_eq] at ih
    rw [List.length_cons]
    omega

/-- What every step keeps, a chain keeps; what every step records, a chain records. -/
theorem invariant {I : Execution → Prop} {P : Snapshot → Prop}
    (keeps : ∀ e s e₁, I e → Goes p c e s e₁ → I e₁ ∧ P s) (h : Proceeds p c e ss e₁)
    (start : I e) : I e₁ ∧ ∀ s ∈ ss, P s := by
  induction h with
  | refl => exact ⟨start, by simp⟩
  | cons goes _ ih =>
    obtain ⟨next, recorded⟩ := keeps _ _ _ start goes
    obtain ⟨last, rest⟩ := ih next
    exact ⟨last, List.forall_mem_cons.2 ⟨recorded, rest⟩⟩

end Proceeds

/-! ## Reachable executions -/

/-- An execution with its data words loaded, before its first step. -/
def loadedWith (c : Config) (m : Machine) : Execution := { new c with machine := m }

/-- `Reachable p c e` holds when any number of steps lead to `e`, with the data words loaded first
or not. Steps may be taken after a failure. -/
inductive Reachable (p : Program) (c : Config) : Execution → Prop
  | new : Reachable p c (new c)
  | loaded {m : Machine} : loadData (Execution.new c).machine p.data = .ok m →
      Reachable p c (loadedWith c m)
  | step {e : Execution} : Reachable p c e → Reachable p c (e.step p c).after

/-! ## Loading data words -/

/-- What every write to memory keeps, loading data words keeps. -/
theorem loadData_keeps {I : Machine → Prop}
    (write : ∀ {m m' address v}, I m → Machine.write m address v = .ok m' → I m') {m m' : Machine}
    {words : List DataWord} (start : I m) (loaded : loadData m words = .ok m') : I m' := by
  induction words generalizing m with
  | nil =>
    cases loaded
    exact start
  | cons word words ih =>
    unfold loadData at loaded
    split at loaded
    · next written => exact ih (write start written) loaded
    · cases loaded

/-- Loading stops at the first word that cannot be written. -/
theorem exists_of_loadData_error {m : Machine} {words : List DataWord} {line : Nat} {fault : Fault}
    (h : loadData m words = .error (line, fault)) :
    ∃ k word m₁, words[k]? = some word ∧ loadData m (words.take k) = .ok m₁ ∧
      m₁.write word.address word.value = .error fault ∧ word.line = line := by
  induction words generalizing m with
  | nil => cases h
  | cons word words ih =>
    unfold loadData at h
    split at h
    · next m' written =>
      obtain ⟨k, word', m₁, hk, loaded, failed, same⟩ := ih h
      refine ⟨k + 1, word', m₁, hk, ?_, failed, same⟩
      simp only [List.take_succ_cons, loadData, written]
      exact loaded
    · next failed =>
      cases h
      exact ⟨0, word, m, rfl, rfl, failed, rfl⟩

/-! ## Runs -/

/-- No step from `e` goes on. -/
def IsLast (p : Program) (c : Config) (e : Execution) : Prop :=
  (∃ reason, (e.step p c).answer = .ok (.halted reason)) ∨
    ∃ fault, (e.step p c).answer = .error fault

/-- The result of a run that has recorded `ss` when its last step is `s`, unless `s` goes on. -/
def conclusion? (p : Program) (s : Step) (ss : List Snapshot) : Option (Except RunFailure Trace) :=
  match s.answer with
  | .ok (.halted reason) =>
    some (.ok ⟨ss ++ s.recorded.toList, some ⟨reason, s.after.output⟩⟩)
  | .error fault => some (.error ⟨s.after.nextLine p, fault, ss ++ s.recorded.toList⟩)
  | .ok _ => none

/-- After the last step the run has a conclusion. -/
theorem IsLast.conclusion (h : e.IsLast p c) (ss : List Snapshot) :
    ∃ r, conclusion? p (e.step p c) ss = some r := by
  rcases h with ⟨reason, h⟩ | ⟨fault, h⟩
  · exact ⟨_, by simp only [conclusion?, h]; rfl⟩
  · exact ⟨_, by simp only [conclusion?, h]; rfl⟩

/-- An active execution goes on up to a last step, for each step that goes on uses up some of the
limit. -/
theorem exists_proceeds (p : Program) (c : Config) (active : e.Active) :
    ∃ ss e₁, Proceeds p c e ss e₁ ∧ e₁.IsLast p c := by
  generalize left : c.stepLimit - e.steps = n
  induction n generalizing e with
  | zero =>
    rcases active.goes_or_last (p := p) (c := c) with ⟨s, e₁, goes⟩ | last
    · have allowed := goes.performed.2.1
      omega
    · exact ⟨[], e, .refl e, last⟩
  | succ n ih =>
    rcases active.goes_or_last (p := p) (c := c) with ⟨s, e₁, goes⟩ | last
    · obtain ⟨ss, e₂, proceeds, last⟩ := ih goes.active (by rw [goes.steps_eq]; omega)
      exact ⟨s :: ss, e₂, .cons goes proceeds, last⟩
    · exact ⟨[], e, .refl e, last⟩

/-- A run that goes on records a snapshot and continues. -/
theorem runFrom_of_goes {s : Snapshot} (h : Goes p c e s e₁) (bound : Nat)
    (recorded : List Snapshot) :
    runFrom p c (bound + 1) e recorded = runFrom p c bound e₁ (s :: recorded) := by
  rw [runFrom]
  simp only [show e.step p c = _ from h]
  rfl

/-- A run that has a conclusion ends with it. -/
theorem runFrom_of_conclusion {recorded : List Snapshot} {r : Except RunFailure Trace}
    (h : conclusion? p (e.step p c) recorded.reverse = some r) (bound : Nat) :
    runFrom p c bound e recorded = r := by
  have reverse : ((e.step p c).recorded.toList ++ recorded).reverse =
      recorded.reverse ++ (e.step p c).recorded.toList := by
    cases (e.step p c).recorded <;> simp
  unfold conclusion? at h
  unfold runFrom
  simp only [reverse]
  split at h
  · next reason answer => simpa only [answer, Option.some.injEq] using h
  · next fault answer => simpa only [answer, Option.some.injEq] using h
  · contradiction

/-- A chain to a last step determines the result of a run. -/
theorem runFrom_of_proceeds {bound : Nat} {ss recorded : List Snapshot}
    {r : Except RunFailure Trace} (h : Proceeds p c e ss e₁) (le : ss.length ≤ bound)
    (last : conclusion? p (e₁.step p c) (recorded.reverse ++ ss) = some r) :
    runFrom p c bound e recorded = r := by
  induction h generalizing bound recorded with
  | refl e => exact runFrom_of_conclusion (by simpa using last) bound
  | cons goes _ ih =>
    obtain ⟨n, rfl⟩ : ∃ n, bound = n + 1 := Nat.exists_eq_add_one.2 (by simp at le; omega)
    rw [runFrom_of_goes goes]
    exact ih (by simpa using le) (by simpa using last)

/-- The result of a run, once the data words are loaded, is that of a chain to a last step. -/
theorem run_of_proceeds {m : Machine} {ss : List Snapshot} {r : Except RunFailure Trace}
    (loaded : loadData e.machine p.data = .ok m)
    (h : Proceeds p c { e with machine := m } ss e₁)
    (last : conclusion? p (e₁.step p c) ss = some r) : e.run p c = r := by
  simp only [run, loaded]
  exact runFrom_of_proceeds h h.length_le (by simpa using last)

/-- A run whose data cannot be loaded fails before the first step. -/
theorem run_of_loading {line : Nat} {fault : Fault}
    (loading : loadData e.machine p.data = .error (line, fault)) :
    e.run p c = .error ⟨line, fault, []⟩ := by
  simp only [run, loading]

/-- Every run of an active execution fails to load or comes to a last step. -/
theorem run_cases (p : Program) (c : Config) (active : e.Active) :
    (∃ line fault, loadData e.machine p.data = .error (line, fault) ∧
      e.run p c = .error ⟨line, fault, []⟩) ∨
    ∃ m ss e₁, loadData e.machine p.data = .ok m ∧
      Proceeds p c { e with machine := m } ss e₁ ∧ e₁.IsLast p c ∧
      conclusion? p (e₁.step p c) ss = some (e.run p c) := by
  cases loaded : loadData e.machine p.data with
  | error failure => exact .inl ⟨failure.1, failure.2, rfl, run_of_loading loaded⟩
  | ok m =>
    obtain ⟨ss, e₁, proceeds, last⟩ := exists_proceeds p c (e := { e with machine := m }) active
    obtain ⟨r, concluded⟩ := last.conclusion ss
    refine .inr ⟨m, ss, e₁, rfl, proceeds, last, ?_⟩
    rw [run_of_proceeds loaded proceeds concluded]
    exact concluded

end Execution

/-- The snapshots of a run: those of its trace, or of the partial trace of its failure. -/
def snapshotsOf : Except RunFailure Trace → List Snapshot
  | .ok trace => trace.snapshots
  | .error failure => failure.partialTrace.snapshots

/-- The snapshots of a run are those before its last step and what that recorded. -/
theorem Execution.snapshotsOf_conclusion {p : Program} {s : Step} {ss : List Snapshot}
    {r : Except RunFailure Trace} (h : Execution.conclusion? p s ss = some r) :
    snapshotsOf r = ss ++ s.recorded.toList := by
  unfold Execution.conclusion? at h
  split at h
  · exact Option.some.inj h ▸ rfl
  · exact Option.some.inj h ▸ rfl
  · contradiction

open Execution in
/-- What every step keeps and records, a run keeps and records. -/
theorem Execution.forall_snapshots {p : Program} {c : Config} {I : Execution → Prop}
    {P : Snapshot → Prop}
    (start : ∀ m, loadData (new c).machine p.data = .ok m → I (loadedWith c m))
    (keeps : ∀ e, I e → I (e.step p c).after ∧ ∀ s ∈ (e.step p c).recorded, P s) :
    ∀ s ∈ snapshotsOf (p.run c), P s := by
  rcases run_cases p c (e := new c) (.inl rfl) with
    ⟨line, fault, -, failed⟩ | ⟨m, ss, e₁, loaded, proceeds, -, concluded⟩
  · intro s mem
    rw [Program.run, failed] at mem
    cases mem
  · have goesOn : ∀ e s e₁, I e → Goes p c e s e₁ → I e₁ ∧ P s := by
      intro e s e₁ h goes
      have kept := keeps e h
      rw [goes] at kept
      exact ⟨kept.1, kept.2 s rfl⟩
    obtain ⟨last, recorded⟩ := proceeds.invariant goesOn (start m loaded)
    intro s mem
    rw [Program.run, snapshotsOf_conclusion concluded, List.mem_append] at mem
    rcases mem with mem | mem
    · exact recorded s mem
    · exact (keeps e₁ last).2 s (Option.mem_toList.1 mem)

/-- The fault that a run fails with, once its data words are loaded, is that of one of its steps, or
that its limit is exceeded. -/
theorem Execution.fault_of_runFrom {p : Program} {c : Config} {I : Execution → Prop}
    {P : Fault → Prop} (limited : P (.stepLimitExceeded c.stepLimit))
    (keeps : ∀ e, I e → I (e.step p c).after ∧
      ∀ fault, (e.step p c).answer = .error fault → P fault)
    {bound : Nat} {e : Execution} {recorded : List Snapshot} {failure : RunFailure} (start : I e)
    (failed : runFrom p c bound e recorded = .error failure) : P failure.fault := by
  fun_induction runFrom p c bound e recorded with
  | case1 => cases failed
  | case2 bound e recorded step ss fault answer =>
    cases failed
    exact (keeps e start).2 fault answer
  | case3 =>
    cases failed
    exact limited
  | case4 e recorded step ss status notHalted answer bound ih => exact ih (keeps e start).1 failed

open Execution in
/-- What a chain records stands at the beginning of what the run records. -/
theorem Execution.Proceeds.prefix_run {p : Program} {c : Config} {e e₁ : Execution}
    {ss : List Snapshot} {m : Machine} (active : e.Active)
    (loaded : loadData e.machine p.data = .ok m) (h : Proceeds p c { e with machine := m } ss e₁) :
    ss <+: snapshotsOf (e.run p c) := by
  obtain ⟨ts, e₂, rest, last⟩ := exists_proceeds p c (h.active active)
  obtain ⟨r, concluded⟩ := last.conclusion (ss ++ ts)
  rw [run_of_proceeds loaded (h.append rest) concluded, snapshotsOf_conclusion concluded,
    List.append_assoc]
  exact List.prefix_append ss _

end AsmTrace

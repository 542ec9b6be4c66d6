import AsmTrace.Proofs.Recordings

/-!
# Stepping, then running on

An execution that was stepped a number of times can be run on from there. If no data words have to
be loaded, it comes to what a run from the start comes to, in two parts: what the recorder holds and
what the run adds. One step is split off a run at a time (`run_of_ok`, `run_of_error`).
-/

namespace AsmTrace

/-- A result with further snapshots before its own. -/
def withEarlier (ss : List Snapshot) : Except RunFailure Trace → Except RunFailure Trace
  | .ok trace => .ok { trace with snapshots := ss ++ trace.snapshots }
  | .error failure => .error { failure with snapshots := ss ++ failure.snapshots }

@[simp] theorem withEarlier_nil (r : Except RunFailure Trace) : withEarlier [] r = r := by
  cases r <;> rfl

/-- Earlier snapshots may be put in front in two parts. -/
@[simp] theorem withEarlier_append (ss ts : List Snapshot) (r : Except RunFailure Trace) :
    withEarlier (ss ++ ts) r = withEarlier ss (withEarlier ts r) := by
  cases r <;> simp [withEarlier]

namespace Execution

variable {p : Program} {c : Config} {e e₁ : Execution}

/-- How a run concludes does not depend on the snapshots before. -/
@[simp] theorem conclusion?_append (p : Program) (s : Step) (ss ts : List Snapshot) :
    conclusion? p s (ss ++ ts) = (conclusion? p s ts).map (withEarlier ss) := by
  unfold conclusion?
  split <;> simp [withEarlier]

/-! ## Splitting a step off a run -/

/-- Without data, loading changes nothing. -/
theorem loadData_of_noData (noData : p.data = []) (m : Machine) : loadData m p.data = .ok m := by
  rw [noData, loadData]

/-- A run that concludes at its first step. -/
theorem run_of_conclusion (noData : p.data = []) {r : Except RunFailure Trace}
    (h : conclusion? p (e.step p c) [] = some r) : e.run p c = r :=
  run_of_proceeds (loadData_of_noData noData e.machine) (.refl e) h

/-- A run that goes on after its first step. -/
theorem run_of_goes (noData : p.data = []) {s : Snapshot} (goes : Goes p c e s e₁) :
    e.run p c = withEarlier [s] (e₁.run p c) := by
  have loaded := loadData_of_noData noData e₁.machine
  rcases run_cases p c goes.active with
    ⟨line, fault, loading, -⟩ | ⟨m, ss, e₂, loaded', proceeds, -, concluded⟩
  · cases loaded.symm.trans loading
  · cases loaded.symm.trans loaded'
    refine run_of_proceeds (loadData_of_noData noData e.machine) (.cons goes proceeds) ?_
    rw [← List.singleton_append, conclusion?_append, concluded]
    rfl

/-- A run from an execution that has halted. -/
theorem run_of_halted (noData : p.data = []) {reason : HaltReason}
    (halted : e.status = .halted reason) : e.run p c = .ok ⟨[], some ⟨reason, e.output⟩⟩ := by
  apply run_of_conclusion noData
  rw [step_of_not_active (not_active_iff.2 (.inl ⟨reason, halted⟩)), halted]
  rfl

/-- After a step that does not fail there remains the rest of the run. -/
theorem run_of_ok (noData : p.data = []) {status : Status} (h : (e.step p c).answer = .ok status) :
    e.run p c = withEarlier (e.step p c).recorded.toList ((e.step p c).after.run p c) := by
  by_cases active : e.Active
  · rcases active.goes_or_last (p := p) (c := c) with
      ⟨s, e₁, goes⟩ | ⟨reason, halts⟩ | ⟨fault, fails⟩
    · rw [run_of_goes noData goes, goes]
      rfl
    · rw [run_of_halted noData (status_of_ok halts)]
      apply run_of_conclusion noData
      simp only [conclusion?, halts, withEarlier, List.nil_append, List.append_nil]
    · cases h.symm.trans fails
  · rw [step_of_not_active active]
    exact (withEarlier_nil _).symm

/-- A run whose first step fails. -/
theorem run_of_error (noData : p.data = []) {fault : Fault}
    (h : (e.step p c).answer = .error fault) :
    e.run p c = .error ⟨(e.step p c).after.nextLine p, fault, []⟩ := by
  apply run_of_conclusion noData
  simp only [conclusion?, h, (failed_of_error h).2, Option.toList_none, List.append_nil]

/-- No step answers that the execution has failed unless it had failed before. -/
theorem failed_of_answer (h : (e.step p c).answer = .ok .failed) : e.status = .failed := by
  by_cases active : e.Active
  · rcases active.goes_or_last (p := p) (c := c) with
      ⟨s, e₁, goes⟩ | ⟨reason, halts⟩ | ⟨fault, fails⟩
    · rw [goes] at h
      cases h
    · cases h.symm.trans halts
    · cases h.symm.trans fails
  · rw [step_of_not_active active] at h
    exact Except.ok.inj h

end Execution

namespace Recording

open Execution

variable {p : Program} {c : Config} {n : Nat}

/-! ## The failing step -/

/-- An execution that has failed stays so. -/
theorem failed_add (failed : (after p c n).execution.status = .failed) (k : Nat) :
    (after p c (n + k)).execution.status = .failed := by
  rw [after_add (not_active_iff.2 (.inr failed)), failed]

/-- An execution has failed after a step that fails. -/
theorem failed_succ {fault : Fault} (h : answer p c n = .error fault) :
    (after p c (n + 1)).execution.status = .failed :=
  (failed_of_error h).1

/-- A step that fails records nothing. -/
theorem snapshots_succ {fault : Fault} (h : answer p c n = .error fault) :
    (after p c (n + 1)).snapshots = (after p c n).snapshots := by
  rw [after, step, (failed_of_error h).2, Option.toList_none, List.append_nil]

/-- Once a step has failed, the later ones do not. -/
theorem answer_of_failed (failed : (after p c n).execution.status = .failed) :
    answer p c n = .ok .failed := by
  rw [answer, Execution.step_of_not_active (not_active_iff.2 (.inr failed)), failed]

/-- At most one step fails. -/
theorem eq_of_error {j k : Nat} {fault fault' : Fault} (hj : answer p c j = .error fault)
    (hk : answer p c k = .error fault') : j = k := by
  -- two failing steps in either order are impossible, as the second finds the execution failed
  have not_lt {j k : Nat} {fault fault' : Fault} (hj : answer p c j = .error fault)
      (hk : answer p c k = .error fault') : ¬ j < k := by
    intro lt
    have failed := failed_add (failed_succ hj) (k - (j + 1))
    rw [Nat.add_sub_cancel' lt] at failed
    cases hk.symm.trans (answer_of_failed failed)
  exact Nat.le_antisymm (Nat.le_of_not_lt (not_lt hk hj)) (Nat.le_of_not_lt (not_lt hj hk))

/-- A failed execution has come to a step that failed, and has stayed as this step left it. -/
theorem exists_error (failed : (after p c n).execution.status = .failed) :
    ∃ k fault, k < n ∧ answer p c k = .error fault ∧
      (after p c k).execution.status ≠ .failed ∧ after p c n = after p c (k + 1) := by
  induction n with
  | zero => cases failed
  | succ n ih =>
    by_cases before : (after p c n).execution.status = .failed
    · obtain ⟨k, fault, lt, fails, notFailed, stays⟩ := ih before
      refine ⟨k, fault, Nat.lt_succ_of_lt lt, fails, notFailed, ?_⟩
      rw [after_add (not_active_iff.2 (.inr before)) 1, stays]
    · cases answered : answer p c n with
      | ok status =>
        cases (status_of_ok answered).symm.trans failed
        exact absurd (failed_of_answer answered) before
      | error fault => exact ⟨n, fault, Nat.lt_succ_self n, answered, before, rfl⟩

/-! ## The rest of the run -/

/-- A run is what was recorded in some steps, and the run from there. -/
theorem run_after (noData : p.data = []) (notFailed : (after p c n).execution.status ≠ .failed) :
    p.run c = withEarlier (after p c n).snapshots ((after p c n).execution.run p c) := by
  induction n with
  | zero => exact (withEarlier_nil _).symm
  | succ n ih =>
    have before : (after p c n).execution.status ≠ .failed := fun failed =>
      notFailed (failed_add failed 1)
    cases answered : answer p c n with
    | ok status =>
      rw [ih before, run_of_ok noData answered, ← withEarlier_append]
      rfl
    | error fault => exact absurd (failed_succ answered) notFailed

/-- A program without data words, stepped a number of times. If the execution has not failed,
running it on gives the rest of a run from the start: its snapshots after those recorded, the same
ending or the same failure. If it has failed, exactly one of the steps did, and a run from the start
fails with the same fault and with the snapshots recorded. -/
theorem stepped_then_run (noData : p.data = []) (c : Config) (n : Nat) :
    ((after p c n).execution.status ≠ .failed →
      p.run c = withEarlier (after p c n).snapshots ((after p c n).execution.run p c)) ∧
    ((after p c n).execution.status = .failed →
      ∃ k fault, k < n ∧ answer p c k = .error fault ∧
        (∀ j fault', answer p c j = .error fault' → j = k) ∧
        p.run c = .error ⟨(after p c n).execution.nextLine p, fault, (after p c n).snapshots⟩) := by
  refine ⟨run_after noData, ?_⟩
  intro failed
  obtain ⟨k, fault, lt, fails, notFailed, stays⟩ := exists_error failed
  refine ⟨k, fault, lt, fails, fun j fault' fails' => eq_of_error fails' fails, ?_⟩
  rw [run_after noData notFailed, run_of_error noData fails, stays, snapshots_succ fails,
    withEarlier, List.append_nil]
  rfl

/-- A division by zero after a first instruction: stepped once and run on, and stepped beyond it. -/
theorem stepped_then_run_division :
    ∃ p : Program, p.data = [] ∧ (after p {} 1).execution.status ≠ .failed ∧
      p.run {} = withEarlier (after p {} 1).snapshots ((after p {} 1).execution.run p {}) ∧
      (after p {} 3).execution.status = .failed ∧
      ∃ k fault, k < 3 ∧ answer p {} k = .error fault ∧
        p.run {} = .error ⟨2, fault, (after p {} 3).snapshots⟩ := by
  let p : Program :=
    { instructions := #[⟨1, .mov (.register .ax) (.immediate 7)⟩, ⟨2, .idiv (.register .bx)⟩]
      labels := {}
      data := [] }
  have running : (after p {} 1).execution.status ≠ .failed := by decide +kernel
  have failed : (after p {} 3).execution.status = .failed := by decide +kernel
  have line : (after p {} 3).execution.nextLine p = 2 := by decide +kernel
  obtain ⟨k, fault, lt, fails, -, run⟩ := (stepped_then_run (p := p) rfl {} 3).2 failed
  rw [line] at run
  exact ⟨p, rfl, running, (stepped_then_run rfl {} 1).1 running, failed, k, fault, lt, fails, run⟩

end Recording

end AsmTrace

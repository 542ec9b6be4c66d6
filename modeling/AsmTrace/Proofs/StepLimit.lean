import AsmTrace.Proofs.Faults

/-!
# The step limit

A limit cuts a run and changes nothing else: two runs of a program under different limits record the
same snapshots as far as both go, and the one with the smaller limit is cut exactly where it would
have executed one instruction more than its limit allows.
-/

namespace AsmTrace

namespace Config

/-- The configuration with another limit. -/
def withLimit (c : Config) (limit : Nat) : Config := { c with stepLimit := limit }

end Config

/-! ## Faults of operations

No operation reports that a limit is exceeded, so a run that ends with this fault was cut. -/

/-- Not a failure for exceeding a limit. -/
def NotLimited {α : Type} (x : Except Fault α) : Prop :=
  ∀ limit, x ≠ .error (.stepLimitExceeded limit)

theorem Operation.notLimited_of_error {op : Operation} {size index depth : Nat} {m : Machine}
    {fault : Fault} (failed : (op.execute size index m depth).control = .error fault) :
    NotLimited (.error fault : Except Fault Unit) := by
  intro limit limited
  cases limited
  cases mayRaise_of_error failed

/-! ## Cutting a run -/

namespace Execution

variable {p : Program} {c : Config} {e e₁ : Execution} {i : Instruction} {ss : List Snapshot}

/-- The line of the instruction that a run executed, or failed at, after `n` snapshots. -/
def lineAfter (r : Except RunFailure Trace) (n : Nat) : Option Nat :=
  match (snapshotsOf r)[n]?, r with
  | some s, _ => some s.line
  | none, .error failure => some failure.line
  | none, .ok _ => none

theorem step_of_limit_le (active : e.Active) (fetched : p.fetch? e.pc = some i)
    (reached : c.stepLimit ≤ e.steps) :
    e.step p c = ⟨{ e with status := .failed }, none, .error (.stepLimitExceeded c.stepLimit)⟩ := by
  rw [step_of_active active]
  simp only [advance, fetched, Nat.not_lt.2 reached, if_false]

/-- A run that comes to an instruction when it has recorded as much as its limit allows is cut. -/
theorem run_of_cut {c' : Config} {m : Machine} {limit : Nat}
    (loaded : loadData (new c).machine p.data = .ok m)
    (h : Proceeds p c' (loadedWith c m) ss e₁)
    (fetched : p.fetch? e₁.pc = some i) (length : ss.length = limit) :
    p.run (c.withLimit limit) = .error ⟨i.line, .stepLimitExceeded limit, ss⟩ := by
  have steps : e₁.steps = limit := by
    rw [h.steps_eq, length]
    exact Nat.zero_add limit
  have cut : Proceeds p (c.withLimit limit) (loadedWith c m) ss e₁ :=
    h.of_limit (by rw [length]; exact Nat.le_of_eq (Nat.zero_add limit))
  have last := step_of_limit_le (c := c.withLimit limit) (cut.active (.inl rfl)) fetched
    (Nat.le_of_eq steps.symm)
  refine run_of_proceeds loaded cut ?_
  rw [last]
  simp [conclusion?, nextLine_of_fetch (e := { e₁ with status := .failed }) fetched,
    Config.withLimit]

/-- Before its last step, a chain comes to an instruction, which the next snapshot is about. -/
theorem Proceeds.take (h : Proceeds p c e ss e₁) {n : Nat} (lt : n < ss.length) :
    ∃ e₂ i s, Proceeds p c e (ss.take n) e₂ ∧ p.fetch? e₂.pc = some i ∧ ss[n]? = some s ∧
      s.line = i.line := by
  rw [← List.take_append_drop n ss] at h
  obtain ⟨e₂, first, second⟩ := h.split
  rw [List.drop_eq_getElem_cons lt] at second
  cases second with
  | cons goes _ =>
    obtain ⟨-, -, i, k, fetched, -, -, -, recorded⟩ := goes.performed
    exact ⟨e₂, i, ss[n], first, fetched, List.getElem?_eq_getElem lt, by rw [recorded]; rfl⟩

/-- The last step of a run is about the instruction it finds. -/
theorem lineAfter_conclusion {r : Except RunFailure Trace} (active : e.Active)
    (fetched : p.fetch? e.pc = some i) (h : conclusion? p (e.step p c) ss = some r) :
    lineAfter r ss.length = some i.line := by
  have stepping := stepping_step p c e
  generalize e.step p c = s at stepping h
  cases stepping with
  | idle inactive => exact absurd active inactive
  | ended _ beyond => rw [beyond] at fetched; cases fetched
  | limited =>
    cases h
    simp [lineAfter, snapshotsOf, RunFailure.partialTrace,
      nextLine_of_fetch (e := { e with status := .failed }) fetched]
  | @failed j _ _ _ _ _ =>
    cases h
    simp [lineAfter, snapshotsOf, RunFailure.partialTrace,
      nextLine_of_fetch (e := e.stopped p j) fetched]
  | executed _ fetched' =>
    have snapshots := snapshotsOf_conclusion h
    rw [fetched] at fetched'
    cases fetched'
    simp [lineAfter, snapshots, Machine.snapshot]

/-- Where a run can be cut, it comes to the instruction that it executed or failed at next. -/
theorem Proceeds.cut {r : Except RunFailure Trace} {n : Nat} (h : Proceeds p c e ss e₁)
    (active : e.Active) (concluded : conclusion? p (e₁.step p c) ss = some r)
    (next : n < ss.length ∨ n = ss.length ∧ ∃ i, p.fetch? e₁.pc = some i) :
    ∃ e₂ i, Proceeds p c e ((snapshotsOf r).take n) e₂ ∧ p.fetch? e₂.pc = some i ∧
      lineAfter r n = some i.line ∧ n ≤ (snapshotsOf r).length := by
  have snapshots := snapshotsOf_conclusion concluded
  rcases next with lt | ⟨rfl, i, fetched⟩
  · obtain ⟨e₂, i, s, first, fetched, recorded, line⟩ := h.take lt
    refine ⟨e₂, i, ?_, fetched, ?_, ?_⟩
    · rwa [snapshots, List.take_append_of_le_length (Nat.le_of_lt lt)]
    · simp only [lineAfter, snapshots, List.getElem?_append_left lt, recorded, line]
    · rw [snapshots, List.length_append]
      omega
  · refine ⟨e₁, i, ?_, fetched, lineAfter_conclusion (h.active active) fetched concluded, ?_⟩
    · rwa [snapshots, List.take_left]
    · rw [snapshots, List.length_append]
      omega

/-- How the last step of a run can end it. -/
theorem conclusion_cases {r : Except RunFailure Trace} (active : e.Active)
    (h : conclusion? p (e.step p c) ss = some r) :
    (p.fetch? e.pc = none ∧ ∃ t, r = .ok t ∧ t.length = ss.length) ∨
    (∃ i, p.fetch? e.pc = some i ∧
      ((c.stepLimit ≤ e.steps ∧ ∃ line, r = .error ⟨line, .stepLimitExceeded c.stepLimit, ss⟩) ∨
      (e.steps < c.stepLimit ∧ ∃ line fault, NotLimited (.error fault : Except Fault Unit) ∧
        r = .error ⟨line, fault, ss⟩) ∨
      (e.steps < c.stepLimit ∧ ∃ t, r = .ok t ∧ t.length = ss.length + 1))) := by
  have stepping := stepping_step p c e
  generalize e.step p c = s at stepping h
  cases stepping with
  | idle inactive => exact absurd active inactive
  | ended _ beyond => cases h; exact .inl ⟨beyond, _, rfl, by simp [Trace.length]⟩
  | limited _ fetched reached =>
    cases h
    exact .inr ⟨_, fetched, .inl ⟨reached, _, by simp; rfl⟩⟩
  | @failed j fault _ fetched allowed control =>
    cases h
    have notLimited : NotLimited (.error fault : Except Fault Unit) :=
      Operation.notLimited_of_error control
    exact .inr ⟨_, fetched, .inr (.inl ⟨allowed, _, fault, notLimited, by simp; rfl⟩)⟩
  | executed _ fetched allowed =>
    unfold conclusion? at h
    split at h
    · cases h
      exact .inr ⟨_, fetched, .inr (.inr ⟨allowed, _, rfl, by simp [Trace.length]⟩)⟩
    · next answer => cases answer
    · cases h

theorem loadData_notLimited {m : Machine} {line : Nat} {fault : Fault} (words : List DataWord)
    (h : loadData m words = .error (line, fault)) :
    NotLimited (.error fault : Except Fault Unit) := by
  intro limit limited
  cases limited
  obtain ⟨address, size, outside⟩ := outOfBounds_of_loadData h
  cases outside

end Execution

/-! ## Two limits -/

namespace Program

open Execution

/-- The data words of the program do not fit in memory. -/
def FailsToLoad (p : Program) (c : Config) : Prop :=
  ∃ failure, loadData (new c).machine p.data = .error failure

/-- `EndsWithin p c limit r` holds when `r`, the result of a run of `p`, comes about without an
instruction that `limit` does not allow: the data words could not be loaded, the run came to its end
or it failed at an instruction. -/
def EndsWithin (p : Program) (c : Config) (limit : Nat) (r : Except RunFailure Trace) : Prop :=
  p.FailsToLoad c ∨ (∃ t, r = .ok t ∧ (snapshotsOf r).length ≤ limit) ∨
    ∃ f, r = .error f ∧ (∀ l, f.fault ≠ .stepLimitExceeded l) ∧ (snapshotsOf r).length < limit

/-- The snapshots that a run has recorded lead to an instruction that is still to be executed. -/
def HasNext (p : Program) (c : Config) : Prop :=
  ∃ m e i, loadData (new c).machine p.data = .ok m ∧
    Proceeds p c (loadedWith c m) (snapshotsOf (p.run c)) e ∧ p.fetch? e.pc = some i

variable {p : Program} {c : Config}

/-- A limit under which a run comes to its result does not change it. -/
theorem run_eq_of_endsWithin {l₁ l₂ : Nat} (h : p.EndsWithin c l₁ (p.run (c.withLimit l₂))) :
    p.run (c.withLimit l₁) = p.run (c.withLimit l₂) := by
  rcases run_cases p (c.withLimit l₂) (e := new c) (.inl rfl) with
    ⟨line, fault, loading, -⟩ | ⟨m, ss, e₁, loaded, proceeds, -, concluded⟩
  · exact (run_of_loading (c := c.withLimit l₁) loading).trans (run_of_loading loading).symm
  · have steps : e₁.steps = ss.length := proceeds.steps_eq.trans (Nat.zero_add _)
    change _ = some (p.run (c.withLimit l₂)) at concluded
    generalize p.run (c.withLimit l₂) = r at h concluded ⊢
    have agree (le : ss.length ≤ l₁)
        (same : e₁.step p (c.withLimit l₁) = e₁.step p (c.withLimit l₂)) :
        p.run (c.withLimit l₁) = r := by
      refine run_of_proceeds loaded (proceeds.of_limit ?_) ?_
      · exact Nat.le_trans (Nat.le_of_eq (Nat.zero_add _)) le
      · rw [same]
        exact concluded
    have inside (lt : ss.length < l₁) (allowed : e₁.steps < l₂) : p.run (c.withLimit l₁) = r :=
      agree (Nat.le_of_lt lt) (step_congr_limit (steps ▸ lt) allowed)
    rcases h with ⟨failure, loading⟩ | ⟨t, rfl, le⟩ | ⟨f, rfl, other, lt⟩
    · cases loaded.symm.trans loading
    · rcases conclusion_cases (proceeds.active (.inl rfl)) concluded with
        ⟨beyond, t', ht, length⟩ |
          ⟨i, -, ⟨-, line, ht⟩ | ⟨-, line, fault, -, ht⟩ | ⟨allowed, t', ht, length⟩⟩
      · cases ht
        exact agree (length ▸ le) (step_congr_beyond _ _ beyond)
      · cases ht
      · cases ht
      · cases ht
        exact inside (Nat.lt_of_lt_of_le (Nat.lt_of_lt_of_eq (Nat.lt_succ_self _) length.symm) le)
          allowed
    · rcases conclusion_cases (proceeds.active (.inl rfl)) concluded with
        ⟨-, t, ht, -⟩ | ⟨i, -, ⟨-, line, ht⟩ | ⟨allowed, line, fault, -, ht⟩ | ⟨-, t, ht, -⟩⟩
      · cases ht
      · cases ht
        exact absurd rfl (other _)
      · cases ht
        exact inside lt allowed
      · cases ht

/-- A limit under which a run does not come to its result cuts it. -/
theorem run_eq_of_not_endsWithin {l₁ l₂ : Nat} (lt : l₁ < l₂)
    (h : ¬ p.EndsWithin c l₁ (p.run (c.withLimit l₂))) :
    ∃ line, lineAfter (p.run (c.withLimit l₂)) l₁ = some line ∧
      l₁ ≤ (snapshotsOf (p.run (c.withLimit l₂))).length ∧
      p.run (c.withLimit l₁) =
        .error ⟨line, .stepLimitExceeded l₁, (snapshotsOf (p.run (c.withLimit l₂))).take l₁⟩ := by
  rcases run_cases p (c.withLimit l₂) (e := new c) (.inl rfl) with
    ⟨line, fault, loading, -⟩ | ⟨m, ss, e₁, loaded, proceeds, -, concluded⟩
  · exact absurd (.inl ⟨_, loading⟩) h
  · have steps : e₁.steps = ss.length := proceeds.steps_eq.trans (Nat.zero_add _)
    change _ = some (p.run (c.withLimit l₂)) at concluded
    generalize p.run (c.withLimit l₂) = r at h concluded ⊢
    have cut (next : l₁ < ss.length ∨ l₁ = ss.length ∧ ∃ i, p.fetch? e₁.pc = some i) :
        ∃ line, lineAfter r l₁ = some line ∧ l₁ ≤ (snapshotsOf r).length ∧
          p.run (c.withLimit l₁) =
            .error ⟨line, .stepLimitExceeded l₁, (snapshotsOf r).take l₁⟩ := by
      obtain ⟨e₂, i, first, fetched, line, le⟩ := proceeds.cut (.inl rfl) concluded next
      exact ⟨i.line, line, le, run_of_cut loaded first fetched (List.length_take_of_le le)⟩
    have atMost {i : Instruction} (fetched : p.fetch? e₁.pc = some i) (le : l₁ ≤ ss.length) :
        l₁ < ss.length ∨ l₁ = ss.length ∧ ∃ i, p.fetch? e₁.pc = some i :=
      (Nat.lt_or_eq_of_le le).imp_right fun eq => ⟨eq, i, fetched⟩
    rcases conclusion_cases (proceeds.active (.inl rfl)) concluded with
      ⟨beyond, t, rfl, length⟩ |
      ⟨i, fetched, ⟨reached, line, rfl⟩ | ⟨allowed, line, fault, other, rfl⟩ |
        ⟨allowed, t, rfl, length⟩⟩
    · refine cut (.inl (Nat.lt_of_not_le fun le => h (.inr (.inl ⟨t, rfl, ?_⟩))))
      exact Nat.le_trans (Nat.le_of_eq length) le
    · have reached : l₂ ≤ ss.length := steps ▸ reached
      exact cut (atMost fetched (Nat.le_of_lt (Nat.lt_of_lt_of_le lt reached)))
    · refine cut (atMost fetched (Nat.le_of_not_lt fun lt => h (.inr (.inr ⟨_, rfl, ?_, lt⟩))))
      exact fun limit eq => other limit (congrArg _ eq)
    · refine cut (atMost fetched (Nat.le_of_not_lt fun lt => h (.inr (.inl ⟨t, rfl, ?_⟩))))
      exact Nat.le_trans (Nat.le_of_eq length) lt

/-- A run is cut exactly if it has recorded as much as its limit allows and there is an instruction
still to be executed. -/
theorem limitExceeded_iff (p : Program) (c : Config) :
    (∃ f, p.run c = .error f ∧ f.fault = .stepLimitExceeded c.stepLimit) ↔
      (snapshotsOf (p.run c)).length = c.stepLimit ∧ p.HasNext c := by
  constructor
  · rintro ⟨f, run, fault⟩
    rcases run_cases p c (e := new c) (.inl rfl) with
      ⟨line, fault', loading, failed⟩ | ⟨m, ss, e₁, loaded, proceeds, -, concluded⟩
    · cases run.symm.trans failed
      exact absurd (congrArg Except.error fault) (loadData_notLimited _ loading c.stepLimit)
    · have steps : e₁.steps = ss.length := proceeds.steps_eq.trans (Nat.zero_add _)
      change _ = some (p.run c) at concluded
      rw [run] at concluded
      rcases conclusion_cases (proceeds.active (.inl rfl)) concluded with
        ⟨-, t, ht, -⟩ |
        ⟨i, fetched, ⟨reached, line, ht⟩ | ⟨-, line, fault', other, ht⟩ | ⟨-, t, ht, -⟩⟩
      · cases ht
      · cases ht
        rw [HasNext, run]
        exact ⟨Nat.le_antisymm proceeds.length_le (steps ▸ reached), m, e₁, i, loaded, proceeds,
          fetched⟩
      · cases ht
        exact absurd (congrArg Except.error fault) (other c.stepLimit)
      · cases ht
  · rintro ⟨length, m, e, i, loaded, proceeds, fetched⟩
    exact ⟨_, run_of_cut loaded proceeds fetched length, rfl⟩

/-- Runs of one program under two limits. If the run under the second comes to its result within the
first, the results are the same. Otherwise a smaller first limit cuts the run: the snapshots it
allows are recorded and the failure is on the line of the instruction that was to be executed next.
A run ends for exceeding its limit exactly if it recorded as many snapshots as that and there was
still an instruction to execute. -/
theorem run_under_limits (p : Program) (c : Config) (l₁ l₂ : Nat) :
    (p.EndsWithin c l₁ (p.run (c.withLimit l₂)) →
      p.run (c.withLimit l₁) = p.run (c.withLimit l₂)) ∧
    (l₁ < l₂ → ¬ p.EndsWithin c l₁ (p.run (c.withLimit l₂)) →
      ∃ line, lineAfter (p.run (c.withLimit l₂)) l₁ = some line ∧
        l₁ ≤ (snapshotsOf (p.run (c.withLimit l₂))).length ∧
        p.run (c.withLimit l₁) = .error
          ⟨line, .stepLimitExceeded l₁, (snapshotsOf (p.run (c.withLimit l₂))).take l₁⟩) ∧
    ((∃ f, p.run (c.withLimit l₁) = .error f ∧ f.fault = .stepLimitExceeded l₁) ↔
      (snapshotsOf (p.run (c.withLimit l₁))).length = l₁ ∧ p.HasNext (c.withLimit l₁)) :=
  ⟨run_eq_of_endsWithin, run_eq_of_not_endsWithin, limitExceeded_iff p (c.withLimit l₁)⟩

/-- A program that halts exactly at the limit of 2 is cut before its halt by the limit of 1. -/
theorem run_under_limits_cut :
    ∃ p : Program, (p.run (({} : Config).withLimit 2)).isOk = true ∧
      p.run (({} : Config).withLimit 1) = .error
        ⟨4, .stepLimitExceeded 1, (snapshotsOf (p.run (({} : Config).withLimit 2))).take 1⟩ := by
  let p : Program :=
    { instructions := #[⟨3, .mov (.register .ax) (.immediate 7)⟩, ⟨4, .hlt⟩]
      labels := {}
      data := [] }
  have halts : (p.run (({} : Config).withLimit 2)).isOk = true := by decide +kernel
  refine ⟨p, halts, ?_⟩
  obtain ⟨line, next, -, cut⟩ := (run_under_limits p {} 1 2).2.1 (by decide) (by
    rintro (⟨failure, loading⟩ | ⟨t, -, le⟩ | ⟨f, failed, -⟩)
    · cases loading
    · revert le
      decide +kernel
    · rw [failed] at halts
      cases halts)
  have line_eq : lineAfter (p.run (({} : Config).withLimit 2)) 1 = some 4 := by decide +kernel
  rw [next] at line_eq
  cases line_eq
  exact cut

end Program

end AsmTrace

import AsmTrace.Engine
import AsmTrace.Proofs.Decoding
import AsmTrace.Proofs.Runs

/-!
# How runs come to their end

A run that comes to its end does so in its last step: there was no further instruction, or the one
it executed halted. An assembled program has a first instruction, so either way the run has recorded
a snapshot before, and the output it ends with is what the last snapshot shows in `AX`.
-/

namespace AsmTrace

namespace Trace

/-- There is a snapshot at every step of a trace. -/
theorem exists_get? (t : Trace) {i : Nat} (lt : i < t.length) : ∃ s, t.get? i = some s :=
  ⟨_, List.getElem?_eq_getElem lt⟩

/-- `EndsWith t last` holds when `t` is the trace of a run that came to its end, `last` is the last
snapshot of `t`, and the output is the value of `AX` there. -/
structure EndsWith (t : Trace) (last : Snapshot) : Prop where
  shown : t.snapshots.getLast? = some last
  output : t.output = some (last.registers.get .ax)

variable {t : Trace} {last : Snapshot}

theorem EndsWith.isComplete (h : t.EndsWith last) : t.isComplete = true := by
  have output := h.output
  unfold Trace.output at output
  unfold Trace.isComplete
  cases ending : t.ending with
  | none =>
    rw [ending] at output
    cases output
  | some _ => rfl

theorem EndsWith.length_pos (h : t.EndsWith last) : 0 < t.length := by
  apply List.length_pos_iff.2
  intro nil
  have shown := h.shown
  rw [nil] at shown
  cases shown

end Trace

namespace Execution

variable {p : Program} {c : Config} {e e₁ : Execution} {ss : List Snapshot}

/-- The last snapshot of a chain shows the registers as the chain leaves them. -/
theorem Proceeds.registers_last (h : Proceeds p c e ss e₁) (nonempty : ss ≠ []) :
    ∃ last, ss.getLast? = some last ∧ last.registers = e₁.machine.registers := by
  induction h with
  | refl => exact absurd rfl nonempty
  | @cons e e₁ e₂ s ss goes rest ih =>
    cases ss with
    | nil =>
      cases rest
      obtain ⟨-, -, i, k, -, -, rfl, -, rfl⟩ := goes.performed
      exact ⟨(e.effectOf p i).machine.snapshot i.line, rfl, by simp⟩
    | cons s' ss =>
      obtain ⟨last, shown, registers⟩ := ih (List.cons_ne_nil s' ss)
      exact ⟨last, by rwa [List.getLast?_cons_cons], registers⟩

/-- If a last step ends a run well, the output is what the last snapshot shows, provided that an
instruction was executed at all. -/
theorem endsWith_conclusion {t : Trace} (proceeds : Proceeds p c e ss e₁) (active : e.Active)
    (first : ss = [] → ∃ i, p.fetch? e₁.pc = some i)
    (concluded : conclusion? p (e₁.step p c) ss = some (.ok t)) : ∃ last, t.EndsWith last := by
  have stepping := stepping_step p c e₁
  generalize e₁.step p c = s at stepping concluded
  cases stepping with
  | idle inactive => exact absurd (proceeds.active active) inactive
  | ended _ beyond =>
    have nonempty : ss ≠ [] := by
      intro nil
      obtain ⟨i, fetched⟩ := first nil
      rw [beyond] at fetched
      cases fetched
    obtain ⟨last, shown, registers⟩ := proceeds.registers_last nonempty
    cases concluded
    refine ⟨last, by simpa using shown, ?_⟩
    rw [registers]
    rfl
  | limited => cases concluded
  | failed => cases concluded
  | @executed i k =>
    cases k with
    | next => cases concluded
    | jump target => cases concluded
    | halt reason =>
      cases concluded
      exact ⟨(e₁.effectOf p i).machine.snapshot i.line, by simp, rfl⟩

end Execution

open Result

/-- A program that is assembled has an instruction. -/
theorem Program.exists_first_of_assemble {source : Source} {p : Program}
    (h : assemble source = .ok p) : ∃ i, p.fetch? 0 = some i := by
  obtain ⟨statements, -, resolves⟩ := resolves_of_assemble h
  have nonempty : 0 < p.instructions.toList.length := List.length_pos_iff.2 resolves.nonempty
  exact ⟨p.instructions[0], Array.getElem?_eq_getElem (by simpa using nonempty)⟩

/-- A run that comes to its end has recorded a snapshot, and its output is what the last one
shows. -/
theorem Program.endsWith_of_run {p : Program} {c : Config} {t : Trace}
    (first : ∃ i, p.fetch? 0 = some i) (h : p.run c = .ok t) : ∃ last, t.EndsWith last := by
  rcases Execution.run_cases p c (e := .new c) (.inl rfl) with
    ⟨line, fault, -, failed⟩ | ⟨m, ss, e₁, -, proceeds, -, concluded⟩
  · cases h.symm.trans failed
  · refine Execution.endsWith_conclusion proceeds (.inl rfl) ?_ (concluded.trans (congrArg some h))
    rintro rfl
    cases proceeds
    exact first

/-- The same for a source text that is assembled and run. -/
theorem Source.endsWith_of_run {source : Source} {c : Config} {p : Program} {t : Trace}
    (h : source.run c = .ok (p, t)) : ∃ last, t.EndsWith last := by
  obtain ⟨p', assembled, h⟩ := bind_eq_ok.1 h
  obtain ⟨t', completed, h⟩ := bind_eq_ok.1 h
  cases h
  have first := Program.exists_first_of_assemble (mapError_eq_ok.1 assembled)
  exact Program.endsWith_of_run first (mapError_eq_ok.1 completed)

end AsmTrace

import AsmTrace.Proofs.Lockstep

/-!
# The size of memory

How much memory there is shows only where an address is out of bounds. Machines that differ in
nothing but the size of memory are in lockstep, so a run that stays in bounds comes out the same
with more memory, and any other has its snapshots in common with the run that has more.
-/

namespace AsmTrace

namespace Config

/-- The configuration with another size of memory. -/
def withMemory (c : Config) (size : UInt32) : Config := { c with memorySize := size }

end Config

/-- A fault for an address that memory does not have. -/
def Fault.IsOutOfBounds (fault : Fault) : Prop := ∃ address size, fault = .outOfBounds address size

theorem Memory.InBounds.enlarge {m : Memory} {address : Int} {size : UInt32}
    (h : m.InBounds address) (le : m.size ≤ size) : InBounds { m with size := size } address := by
  have le : m.size.toNat ≤ size.toNat := UInt32.le_iff_toNat_le.1 le
  obtain ⟨nonneg, lt⟩ := h
  refine ⟨nonneg, ?_⟩
  change address < (size.toNat : Int)
  omega

namespace Machine

/-- `Enlarged size m m'` holds when `m'` is `m` with a memory of `size` words, which are no
fewer. -/
def Enlarged (size : UInt32) (m m' : Machine) : Prop :=
  m.memory.size ≤ size ∧ m' = { m with memory := { m.memory with size := size } }

variable {size : UInt32}

/-- More memory is seen only by addresses that are out of bounds. -/
theorem lockstep_enlarged (size : UInt32) :
    Lockstep (fun _ => True) Fault.IsOutOfBounds (Enlarged size) where
  register := by
    rintro m _ r ⟨-, rfl⟩ -
    rfl
  flags := by
    rintro m _ ⟨-, rfl⟩
    rfl
  read := by
    rintro m _ ⟨le, rfl⟩ address
    unfold Machine.read Memory.read
    by_cases inBounds : m.memory.InBounds address
    · rw [if_pos inBounds, if_pos (inBounds.enlarge le)]
      exact .ok rfl
    · rw [if_neg inBounds]
      exact .ofExcused ⟨address, m.memory.size, rfl⟩
  setRegister := by
    rintro m _ r ⟨le, rfl⟩ - v
    exact ⟨le, rfl⟩
  setFlags := by
    rintro m _ ⟨le, rfl⟩ f
    exact ⟨le, rfl⟩
  write := by
    rintro m _ ⟨le, rfl⟩ address v
    unfold Machine.write Memory.write
    by_cases inBounds : m.memory.InBounds address
    · rw [if_pos inBounds, if_pos (inBounds.enlarge le)]
      exact .ok ⟨le, rfl⟩
    · rw [if_neg inBounds]
      exact .ofExcused ⟨address, m.memory.size, rfl⟩
  push := by
    rintro m _ ⟨le, rfl⟩ v
    apply (Matches.refl (m.stack.push v)).map
    rintro s _ rfl
    exact ⟨le, rfl⟩
  pop := by
    rintro m _ ⟨le, rfl⟩
    apply (Matches.refl m.stack.pop).map
    rintro popped _ rfl
    exact ⟨rfl, le, rfl⟩

/-- Snapshots show the words that were written and not how many there could be. -/
theorem eq_of_shown {s s' : Snapshot} (h : Shown (Enlarged size) s s') : s = s' := by
  obtain ⟨m, _, line, ⟨-, rfl⟩, rfl, rfl⟩ := h
  rfl

theorem eq_of_forall₂_shown {ss ss' : List Snapshot}
    (h : List.Forall₂ (Shown (Enlarged size)) ss ss') : ss = ss' :=
  List.forall₂_eq_eq_eq ▸ h.imp fun _ _ => eq_of_shown

theorem eq_of_endsAlike {r r' : Except RunFailure Trace}
    (h : EndsAlike (Shown (Enlarged size)) r r') : r = r' := by
  cases h with
  | ok snapshots => rw [eq_of_forall₂_shown snapshots]
  | error snapshots => rw [eq_of_forall₂_shown snapshots]

end Machine

namespace Program

/-- A program under a configuration and under one that differs from it only in having more memory. A
run that does not fail for an address out of bounds comes to the same result with more memory; one
that does, at an instruction or when data words are loaded, has recorded the first snapshots of the
run with more memory. -/
theorem run_with_more_memory (p : Program) (c : Config) {size : UInt32} (le : c.memorySize ≤ size) :
    ((∀ f, p.run c = .error f → ¬ f.fault.IsOutOfBounds) → p.run (c.withMemory size) = p.run c) ∧
    (∀ f, p.run c = .error f → f.fault.IsOutOfBounds →
      f.partialTrace.snapshots <+: snapshotsOf (p.run (c.withMemory size))) := by
  have start : Machine.Enlarged size (.new c) (.new (c.withMemory size)) := ⟨le, rfl⟩
  have limit : (c.withMemory size).stepLimit = c.stepLimit := rfl
  have lock := Machine.lockstep_enlarged size
  rcases lock.run (p := p) trivial limit (fun _ _ _ _ _ => trivial) start with
    ⟨f, fails, outside, ss, first, shown⟩ | ends
  · cases Machine.eq_of_forall₂_shown shown
    refine ⟨fun inside => absurd outside (inside f fails), ?_⟩
    intro f' fails' _
    cases fails.symm.trans fails'
    exact first
  · have same := Machine.eq_of_endsAlike ends
    rw [← same]
    refine ⟨fun _ => rfl, ?_⟩
    intro f fails _
    rw [fails]
    exact List.prefix_rfl

/-- A store that a memory of 4 words has no room for, and one of 8 has. -/
theorem run_with_more_memory_store :
    ∃ p : Program, (∃ f, p.run { memorySize := 4 } = .error f ∧ f.fault = .outOfBounds 5 4 ∧
        f.partialTrace.snapshots <+: snapshotsOf (p.run { memorySize := 8 })) ∧
      (p.run { memorySize := 8 }).isOk = true ∧
      p.run { memorySize := 16 } = p.run { memorySize := 8 } := by
  let p : Program :=
    { instructions := #[⟨1, .mov (.register .ax) (.immediate 7)⟩,
        ⟨2, .mov (.memory ⟨none, 5⟩) (.register .ax)⟩]
      labels := {}
      data := [] }
  have fits : (p.run { memorySize := 8 }).isOk = true := by decide +kernel
  refine ⟨p, ?_, fits, (run_with_more_memory p { memorySize := 8 } (by decide)).1 ?_⟩
  · have fault : (p.run { memorySize := 4 }).mapError RunFailure.fault =
        .error (.outOfBounds 5 4) := by
      decide +kernel
    cases fails : p.run { memorySize := 4 } with
    | ok t =>
      rw [fails] at fault
      cases fault
    | error f =>
      rw [fails] at fault
      have fault : f.fault = .outOfBounds 5 4 := Except.error.inj fault
      exact ⟨f, rfl, fault,
        (run_with_more_memory p { memorySize := 4 } (by decide)).2 f fails ⟨5, 4, fault⟩⟩
  · intro f fails
    rw [fails] at fits
    cases fits

end Program

end AsmTrace

import AsmTrace.Proofs.Results
import AsmTrace.Proofs.Runs

/-!
# Runs in lockstep

Two machines may differ in something that an operation cannot see, or that it sees only by failing.
`Machine.Lockstep` says of a relation between machines that what is done to the one can be done to
the other, apart from faults that are excused. Then so can every operation (`Lockstep.execute`),
every step (`Lockstep.step`) and a whole run (`Lockstep.run`): two runs that start alike stay alike
up to the first excused fault.
-/

namespace AsmTrace

/-! ## The registers of an operation -/

def MemoryRef.registers (ref : MemoryRef) : List Register := ref.base.toList

def Value.registers : Value → List Register
  | .register r => [r]
  | .immediate _ => []
  | .memory ref => ref.registers

def Place.registers (p : Place) : List Register := p.toValue.registers

/-- The registers that an operation names as operands or as bases of memory operands, and those that
it uses without naming them. `SP` is not among the latter: only the stack is used. -/
def Operation.registers : Operation → List Register
  | .mov dst src | .binary _ dst src | .shift _ dst src | .compare _ dst src =>
    dst.registers ++ src.registers
  | .push src => src.registers
  | .pop dst | .unary _ dst => dst.registers
  | .imul dst src => dst :: src.registers
  | .idiv src => .ax :: .dx :: src.registers
  | .cqo => [.ax, .dx]
  | .loop _ => [.cx]
  | .jump .. | .call _ | .ret | .nop | .hlt => []

/-! ## Results that match -/

/-- `Matches excused S x y` holds when `x` and `y` have results that `S` relates or fail with the
same fault, and also when `x` fails with a fault that is excused. -/
inductive Matches {α β : Type} (excused : Fault → Prop) (S : α → β → Prop) :
    Except Fault α → Except Fault β → Prop
  | ok {a : α} {b : β} (related : S a b) : Matches excused S (.ok a) (.ok b)
  | error (fault : Fault) : Matches excused S (.error fault) (.error fault)
  | ofExcused {fault : Fault} {y : Except Fault β} (h : excused fault) :
      Matches excused S (.error fault) y

namespace Matches

variable {α β γ δ : Type} {excused : Fault → Prop} {S : α → β → Prop} {T : γ → δ → Prop}

/-- Two computations match if their parts do. -/
theorem bind {x : Except Fault α} {y : Except Fault β} {f : α → Except Fault γ}
    {g : β → Except Fault δ} (h : Matches excused S x y)
    (next : ∀ a b, S a b → Matches excused T (f a) (g b)) :
    Matches excused T (x >>= f) (y >>= g) := by
  cases h with
  | ok related => exact next _ _ related
  | error fault => exact .error fault
  | ofExcused h => exact .ofExcused h

/-- Computations that give the same value are followed by the same. -/
theorem bind_eq {x y : Except Fault α} {f : α → Except Fault γ} {g : α → Except Fault δ}
    (h : Matches excused (· = ·) x y) (next : ∀ a, Matches excused T (f a) (g a)) :
    Matches excused T (x >>= f) (y >>= g) := by
  apply h.bind
  rintro a _ rfl
  exact next a

/-- Results that match still do after related functions. -/
theorem map {x : Except Fault α} {y : Except Fault β} {f : α → γ} {g : β → δ}
    (h : Matches excused S x y) (next : ∀ a b, S a b → T (f a) (g b)) :
    Matches excused T (x.map f) (y.map g) := by
  cases h with
  | ok related => exact .ok (next _ _ related)
  | error fault => exact .error fault
  | ofExcused h => exact .ofExcused h

/-- A computation matches itself. -/
theorem refl (x : Except Fault α) : Matches excused (· = ·) x x := by
  cases x with
  | ok a => exact .ok rfl
  | error fault => exact .error fault

end Matches

/-- Effects that leave the same to do and machines that `R` relates, or of which the first fails
with a fault that is excused. -/
def Effect.Matches (excused : Fault → Prop) (R : Machine → Machine → Prop) (a b : Effect) : Prop :=
  (∃ fault, a.control = .error fault ∧ excused fault) ∨
    (R a.machine b.machine ∧ a.callDepth = b.callDepth ∧ a.control = b.control)

namespace Effect.Matches

variable {excused : Fault → Prop} {R : Machine → Machine → Prop} {m m' : Machine} {depth : Nat}

/-- Effects with the same depth and control match if their machines are related. -/
theorem same (related : R m m') (control : Except Fault Control) :
    Effect.Matches excused R ⟨m, depth, control⟩ ⟨m', depth, control⟩ :=
  .inr ⟨related, rfl, rfl⟩

/-- An excused fault matches everything. -/
theorem ofExcused {fault : Fault} (h : excused fault) (b : Effect) :
    Effect.Matches excused R ⟨m, depth, .error fault⟩ b :=
  .inl ⟨fault, rfl, h⟩

end Effect.Matches

namespace Machine

/-! ## Operations in lockstep -/

/-- `Lockstep seen excused R` holds when machines that `R` relates cannot be told apart by what is
done to them with the registers that are `seen`, other than by a fault that is excused, and stay
related. -/
structure Lockstep (seen : Register → Prop) (excused : Fault → Prop)
    (R : Machine → Machine → Prop) : Prop where
  register {m m' : Machine} {r : Register} : R m m' → seen r → m.register r = m'.register r
  flags {m m' : Machine} : R m m' → m.flags = m'.flags
  read {m m' : Machine} :
    R m m' → ∀ address, Matches excused (· = ·) (m.read address) (m'.read address)
  setRegister {m m' : Machine} {r : Register} :
    R m m' → seen r → ∀ v, R (m.setRegister r v) (m'.setRegister r v)
  setFlags {m m' : Machine} : R m m' → ∀ f, R (m.setFlags f) (m'.setFlags f)
  write {m m' : Machine} :
    R m m' → ∀ address v, Matches excused R (m.write address v) (m'.write address v)
  push {m m' : Machine} : R m m' → ∀ v, Matches excused R (m.push v) (m'.push v)
  pop {m m' : Machine} : R m m' → Matches excused (fun x y => x.1 = y.1 ∧ R x.2 y.2) m.pop m'.pop

namespace Lockstep

variable {seen : Register → Prop} {excused : Fault → Prop} {R : Machine → Machine → Prop}
  {m m' : Machine}

/-- References with seen registers have the same address in related machines. -/
theorem address (lock : Lockstep seen excused R) (h : R m m') {ref : MemoryRef}
    (named : ∀ r ∈ ref.registers, seen r) : ref.address m = ref.address m' := by
  obtain ⟨base, displacement⟩ := ref
  cases base with
  | none => rfl
  | some r => simp only [MemoryRef.address, lock.register h (named r (List.mem_singleton.2 rfl))]

/-- Operands with seen registers have the same value. -/
theorem value (lock : Lockstep seen excused R) (h : R m m') {src : Value}
    (named : ∀ r ∈ src.registers, seen r) :
    Matches excused (· = ·) (m.value src) (m'.value src) := by
  cases src with
  | register r => exact .ok (lock.register h (named r (List.mem_singleton.2 rfl)))
  | immediate w => exact .ok rfl
  | memory ref =>
    simp only [Machine.value, lock.address h named]
    exact lock.read h _

/-- Storing the same word keeps machines related. -/
theorem store (lock : Lockstep seen excused R) (h : R m m') {dst : Place}
    (named : ∀ r ∈ dst.registers, seen r) (v : Word) :
    Matches excused R (m.store dst v) (m'.store dst v) := by
  cases dst with
  | register r => exact .ok (lock.setRegister h (named r (List.mem_singleton.2 rfl)) v)
  | memory ref =>
    simp only [Machine.store, lock.address h named]
    exact lock.write h _ v

/-- So does storing it with its flags. -/
theorem storeResult (lock : Lockstep seen excused R) (h : R m m') {dst : Place}
    (named : ∀ r ∈ dst.registers, seen r) (result : Word × Flags) :
    Matches excused R (m.storeResult dst result) (m'.storeResult dst result) :=
  (lock.store h named result.1).map fun _ _ h => lock.setFlags h result.2

/-- So does a division. -/
theorem divide (lock : Lockstep seen excused R) (h : R m m') {src : Value}
    (named : ∀ r ∈ (Operation.idiv src).registers, seen r) :
    Matches excused R (Operation.divide m src) (Operation.divide m' src) := by
  obtain ⟨ax, dx, named⟩ : seen .ax ∧ seen .dx ∧ ∀ r ∈ src.registers, seen r := by
    simpa [Operation.registers] using named
  apply (lock.value h named).bind_eq
  intro divisor
  rw [lock.register h ax, lock.register h dx]
  apply (Matches.refl _).bind_eq
  intro result
  exact .ok (lock.setRegister (lock.setRegister h ax _) dx _)

/-- Effects of changes match if the changes do. -/
theorem ofChange {x y : Except Fault Machine} (matched : Matches excused R x y) (h : R m m')
    (depth : Nat) :
    Effect.Matches excused R (Effect.ofChange m depth x) (Effect.ofChange m' depth y) := by
  cases matched with
  | ok related => exact .same related _
  | error fault => exact .same h _
  | ofExcused h => exact .ofExcused h _

/-- Pops match. -/
theorem popInto (lock : Lockstep seen excused R) (h : R m m') {dst : Place}
    (named : ∀ r ∈ dst.registers, seen r) (depth : Nat) :
    Effect.Matches excused R (Operation.popInto m depth dst) (Operation.popInto m' depth dst) := by
  unfold Operation.popInto
  generalize m.pop = x, m'.pop = y, lock.pop h = popped
  cases popped with
  | @ok a b related =>
    obtain ⟨v, m₁⟩ := a
    obtain ⟨w, m₁'⟩ := b
    obtain ⟨rfl, related⟩ := related
    exact ofChange (lock.store related named v) related depth
  | error fault => exact .same h _
  | ofExcused h => exact .ofExcused h _

/-- Calls match. -/
theorem enter (lock : Lockstep seen excused R) (h : R m m') (depth index target : Nat) :
    Effect.Matches excused R (Operation.enter m depth index target)
      (Operation.enter m' depth index target) := by
  unfold Operation.enter
  generalize m.push _ = x, m'.push _ = y, lock.push h (BitVec.ofNat 32 (index + 1)) = pushed
  cases pushed with
  | ok related => exact .same related _
  | error fault => exact .same h _
  | ofExcused h => exact .ofExcused h _

/-- Returns match. -/
theorem leave (lock : Lockstep seen excused R) (h : R m m') (depth size : Nat) :
    Effect.Matches excused R (Operation.leave m depth size) (Operation.leave m' depth size) := by
  cases depth with
  | zero => exact .same h _
  | succ depth =>
    unfold Operation.leave
    generalize m.pop = x, m'.pop = y, lock.pop h = popped
    cases popped with
    | @ok a b related =>
      obtain ⟨address, m₁⟩ := a
      obtain ⟨address', m₁'⟩ := b
      obtain ⟨rfl, related⟩ := related
      -- the check reads only the popped word, which is the same for both
      by_cases inside : 0 ≤ address.toInt ∧ address.toInt ≤ size
      · simp only [if_pos inside]
        exact .same related _
      · simp only [if_neg inside]
        exact .same related _
    | error fault => exact .same h _
    | ofExcused h => exact .ofExcused h _

/-- Every operation keeps in lockstep, if all its registers are seen. -/
theorem execute (lock : Lockstep seen excused R) (h : R m m') {op : Operation}
    (named : ∀ r ∈ op.registers, seen r) (size index depth : Nat) :
    Effect.Matches excused R (op.execute size index m depth) (op.execute size index m' depth) := by
  have flags := lock.flags h
  cases op with
  | mov dst src =>
    obtain ⟨inDst, inSrc⟩ := List.forall_mem_append.1 named
    refine ofChange ((lock.value h inSrc).bind_eq ?_) h depth
    intro v
    exact lock.store h inDst v
  | push src =>
    refine ofChange ((lock.value h named).bind_eq ?_) h depth
    intro v
    exact lock.push h v
  | pop dst => exact lock.popInto h named depth
  | binary op dst src =>
    obtain ⟨inDst, inSrc⟩ := List.forall_mem_append.1 named
    refine ofChange ((lock.value h inDst).bind_eq fun a => (lock.value h inSrc).bind_eq ?_) h depth
    intro b
    rw [flags]
    exact lock.storeResult h inDst _
  | imul dst src =>
    obtain ⟨inDst, inSrc⟩ := List.forall_mem_cons.1 named
    refine ofChange ((lock.value h inSrc).bind_eq ?_) h depth
    intro b
    rw [flags, lock.register h inDst]
    have inPlace : ∀ r ∈ (Place.register dst).registers, seen r := List.forall_mem_singleton.2 inDst
    exact lock.storeResult h inPlace _
  | idiv src => exact ofChange (lock.divide h named) h depth
  | cqo =>
    obtain ⟨ax, dx⟩ : seen .ax ∧ seen .dx := by simpa [Operation.registers] using named
    simp only [Operation.execute, lock.register h ax]
    exact .same (lock.setRegister h dx _) _
  | unary op dst =>
    refine ofChange ((lock.value h named).bind_eq ?_) h depth
    intro a
    rw [flags]
    exact lock.storeResult h named _
  | shift op dst count =>
    obtain ⟨inDst, inSrc⟩ := List.forall_mem_append.1 named
    refine ofChange ((lock.value h inDst).bind_eq fun a => (lock.value h inSrc).bind_eq ?_) h depth
    intro b
    rw [flags]
    exact lock.storeResult h inDst _
  | compare op lhs rhs =>
    obtain ⟨inLeft, inRight⟩ := List.forall_mem_append.1 named
    refine ofChange ((lock.value h inLeft).bind_eq fun a =>
      (lock.value h inRight).bind_eq fun b => ?_) h depth
    rw [flags]
    exact .ok (lock.setFlags h _)
  | jump condition target =>
    simp only [Operation.execute, flags]
    exact .same h _
  | loop target =>
    have cx : seen .cx := List.forall_mem_singleton.1 named
    simp only [Operation.execute, Operation.countDown, lock.register h cx]
    exact .same (lock.setRegister h cx _) _
  | call target => exact lock.enter h depth index target
  | ret => exact lock.leave h depth size
  | nop | hlt => exact .same h _

/-- Loading data words keeps in lockstep: both machines take all of them, or the words stop at the
same one, or the first stops at a fault that is excused. -/
theorem loadData (lock : Lockstep seen excused R) (h : R m m') (words : List DataWord) :
    (∃ line fault, Execution.loadData m words = .error (line, fault) ∧ excused fault) ∨
    (∃ failure, Execution.loadData m words = .error failure ∧
      Execution.loadData m' words = .error failure) ∨
    ∃ m₁ m₁', Execution.loadData m words = .ok m₁ ∧ Execution.loadData m' words = .ok m₁' ∧
      R m₁ m₁' := by
  induction words generalizing m m' with
  | nil => exact .inr (.inr ⟨m, m', rfl, rfl, h⟩)
  | cons word words ih =>
    unfold Execution.loadData
    generalize m.write _ _ = x, m'.write _ _ = y, lock.write h word.address word.value = written
    cases written with
    | ok related => exact ih related
    | error fault => exact .inr (.inl ⟨_, rfl, rfl⟩)
    | ofExcused h => exact .inl ⟨_, _, rfl, h⟩

end Lockstep

end Machine

/-! ## Steps in lockstep -/

/-- Snapshots of machines that `R` relates, on the same line. -/
def Shown (R : Machine → Machine → Prop) (s s' : Snapshot) : Prop :=
  ∃ m m' line, R m m' ∧ s = Machine.snapshot m line ∧ s' = Machine.snapshot m' line

/-- Executions that differ in nothing but their machines, which `R` relates. -/
def Execution.Alike (R : Machine → Machine → Prop) (e e' : Execution) : Prop :=
  ∃ m', R e.machine m' ∧ e' = { e with machine := m' }

/-- Steps that answer the same, leave executions that are alike and record snapshots that are. -/
structure Step.Alike (R : Machine → Machine → Prop) (s s' : Step) : Prop where
  after : s.after.Alike R s'.after
  answer : s'.answer = s.answer
  recorded : List.Forall₂ (Shown R) s.recorded.toList s'.recorded.toList

namespace Machine.Lockstep

open Execution

variable {seen : Register → Prop} {excused : Fault → Prop} {R : Machine → Machine → Prop}
  {p : Program} {c c' : Config} {e e' e₁ : Execution} {ss ss' : List Snapshot}

/-- An instruction takes executions that are alike to such, or stops the first with an excused
fault. -/
theorem perform (lock : Lockstep seen excused R) {i : Instruction}
    (named : ∀ r ∈ i.operation.registers, seen r) (alike : e.Alike R e') (size : Nat) :
    (∃ fault, (e.perform size i).answer = .error fault ∧ excused fault) ∨
      (e.perform size i).Alike R (e'.perform size i) := by
  obtain ⟨m', h, rfl⟩ := alike
  unfold Execution.perform
  dsimp only
  rcases lock.execute h named size e.pc e.callDepth with
    ⟨fault, control, excuse⟩ | ⟨h, depth, control⟩
  · rw [control]
    exact .inl ⟨fault, rfl, excuse⟩
  · rw [← control, ← depth]
    cases (i.operation.execute size e.pc e.machine e.callDepth).control with
    | error fault => exact .inr ⟨⟨_, h, rfl⟩, rfl, .nil⟩
    | ok k =>
      refine .inr ⟨⟨_, by simpa using h, ?_⟩, ?_, ?_⟩
      · cases k <;> rfl
      · cases k <;> rfl
      · exact .cons ⟨_, _, i.line, h, by simp, by simp⟩ .nil

/-- One step keeps in lockstep, or the first execution fails with a fault that is excused. -/
theorem step (lock : Lockstep seen excused R) (limit : c'.stepLimit = c.stepLimit)
    (named : ∀ i, p.fetch? e.pc = some i → ∀ r ∈ i.operation.registers, seen r)
    (alike : e.Alike R e') :
    (∃ fault, (e.step p c).answer = .error fault ∧ excused fault) ∨
      (e.step p c).Alike R (e'.step p c') := by
  by_cases active : e.Active
  · have active' : e'.Active := by
      obtain ⟨m', -, rfl⟩ := alike
      exact active
    rw [step_of_active active, step_of_active active']
    obtain ⟨m', h, rfl⟩ := alike
    unfold advance
    dsimp only
    cases fetched : p.fetch? e.pc with
    | none => exact .inr ⟨⟨m', h, rfl⟩, rfl, .nil⟩
    | some i =>
      dsimp only
      rw [limit]
      by_cases allowed : e.steps < c.stepLimit
      · rw [if_pos allowed, if_pos allowed]
        exact lock.perform (e := { e with status := .running }) (named i fetched)
          ⟨m', h, rfl⟩ p.size
      · rw [if_neg allowed, if_neg allowed]
        exact .inr ⟨⟨m', h, rfl⟩, rfl, .nil⟩
  · have inactive' : ¬ e'.Active := by
      obtain ⟨m', -, rfl⟩ := alike
      exact active
    rw [Execution.step_of_not_active active, Execution.step_of_not_active inactive']
    refine .inr ⟨alike, ?_, .nil⟩
    obtain ⟨m', -, rfl⟩ := alike
    rfl

/-! ## Runs in lockstep -/

/-- A step that goes on is not excused from keeping in lockstep. -/
theorem goes (lock : Lockstep seen excused R) (limit : c'.stepLimit = c.stepLimit)
    (named : ∀ index i, p.fetch? index = some i → ∀ r ∈ i.operation.registers, seen r)
    {s : Snapshot} (goes : Goes p c e s e₁) (alike : e.Alike R e') :
    ∃ s' e₁', Goes p c' e' s' e₁' ∧ Shown R s s' ∧ e₁.Alike R e₁' := by
  rcases lock.step limit (named e.pc) alike with ⟨fault, fails, -⟩ | alike
  · rw [goes] at fails
    cases fails
  · rw [goes] at alike
    obtain ⟨alike, answer, recorded⟩ := alike
    unfold Goes
    generalize e'.step p c' = step' at alike answer recorded ⊢
    obtain ⟨e₁', recorded', answer'⟩ := step'
    cases answer
    cases recorded' with
    | none => cases recorded
    | some s' =>
      cases recorded with
      | cons shown _ => exact ⟨s', e₁', rfl, shown, alike⟩

/-- A run of steps is made by the other execution as well, with related snapshots. -/
theorem proceeds (lock : Lockstep seen excused R) (limit : c'.stepLimit = c.stepLimit)
    (named : ∀ index i, p.fetch? index = some i → ∀ r ∈ i.operation.registers, seen r)
    (h : Proceeds p c e ss e₁) (alike : e.Alike R e') :
    ∃ ss' e₁', Proceeds p c' e' ss' e₁' ∧ List.Forall₂ (Shown R) ss ss' ∧ e₁.Alike R e₁' := by
  induction h generalizing e' with
  | refl => exact ⟨[], e', .refl e', .nil, alike⟩
  | cons goes _ ih =>
    obtain ⟨s', e₁', goes', shown, alike⟩ := lock.goes limit named goes alike
    obtain ⟨ss', e₂', rest, shownRest, alike⟩ := ih alike
    exact ⟨s' :: ss', e₂', .cons goes' rest, .cons shown shownRest, alike⟩

end Machine.Lockstep

/-- Results that end alike, with snapshots that `Q` relates one by one. -/
inductive EndsAlike (Q : Snapshot → Snapshot → Prop) :
    Except RunFailure Trace → Except RunFailure Trace → Prop
  | ok {ss ss' : List Snapshot} {ending : Option Ending} (snapshots : List.Forall₂ Q ss ss') :
      EndsAlike Q (.ok ⟨ss, ending⟩) (.ok ⟨ss', ending⟩)
  | error {ss ss' : List Snapshot} {line : Nat} {fault : Fault}
      (snapshots : List.Forall₂ Q ss ss') :
      EndsAlike Q (.error ⟨line, fault, ss⟩) (.error ⟨line, fault, ss'⟩)

/-- Runs that end alike do so under any weaker relation. -/
theorem EndsAlike.imp {Q Q' : Snapshot → Snapshot → Prop} (weaker : ∀ s s', Q s s' → Q' s s')
    {r r' : Except RunFailure Trace} (h : EndsAlike Q r r') : EndsAlike Q' r r' := by
  cases h with
  | ok snapshots => exact .ok (snapshots.imp weaker)
  | error snapshots => exact .error (snapshots.imp weaker)

namespace Machine.Lockstep

open Execution

variable {seen : Register → Prop} {excused : Fault → Prop} {R : Machine → Machine → Prop}
  {p : Program} {c c' : Config} {ss ss' : List Snapshot}

/-- Last steps that are alike end their runs alike. -/
theorem conclusion (lock : Lockstep seen excused R) (ax : seen .ax) {s s' : Step}
    (alike : s.Alike R s') (shown : List.Forall₂ (Shown R) ss ss') {r : Except RunFailure Trace}
    (concluded : conclusion? p s ss = some r) :
    ∃ r', conclusion? p s' ss' = some r' ∧ EndsAlike (Shown R) r r' := by
  have snapshots := List.rel_append shown alike.recorded
  obtain ⟨m', h, after⟩ := alike.after
  have output : s'.after.output = s.after.output := by
    rw [after]
    exact (lock.register h ax).symm
  have line : s'.after.nextLine p = s.after.nextLine p := by
    rw [after]
    rfl
  unfold conclusion? at concluded ⊢
  rw [alike.answer]
  split at concluded
  · next reason answer =>
    cases concluded
    rw [output]
    exact ⟨_, rfl, .ok snapshots⟩
  · next fault answer =>
    cases concluded
    rw [line]
    exact ⟨_, rfl, .error snapshots⟩
  · cases concluded

/-- Two runs that start alike end alike, with snapshots that are alike one by one, unless the first
fails with a fault that is excused: then its snapshots are alike to the first ones of the second. -/
theorem run (lock : Lockstep seen excused R) (ax : seen .ax) (limit : c'.stepLimit = c.stepLimit)
    (named : ∀ index i, p.fetch? index = some i → ∀ r ∈ i.operation.registers, seen r)
    (start : R (Machine.new c) (Machine.new c')) :
    (∃ f, p.run c = .error f ∧ excused f.fault ∧
      ∃ ss', ss' <+: snapshotsOf (p.run c') ∧ List.Forall₂ (Shown R) f.snapshots ss') ∨
    EndsAlike (Shown R) (p.run c) (p.run c') := by
  rcases lock.loadData start p.data with
    ⟨line, fault, loading, excuse⟩ | ⟨failure, loading, loading'⟩ | ⟨m, m', loaded, loaded', h⟩
  · refine .inl ⟨⟨line, fault, []⟩, run_of_loading loading, excuse, [], ?_, .nil⟩
    exact List.nil_prefix
  · obtain ⟨line, fault⟩ := failure
    rw [Program.run, Program.run, run_of_loading loading, run_of_loading loading']
    exact .inr (.error .nil)
  · -- the second run follows the first up to its last step, and the two can part only there
    have alike : (loadedWith c m).Alike R (loadedWith c' m') := ⟨m', h, rfl⟩
    obtain ⟨ss, e₁, chain, last⟩ := exists_proceeds p c (e := loadedWith c m) (.inl rfl)
    obtain ⟨r, concluded⟩ := last.conclusion ss
    have run : p.run c = r := run_of_proceeds loaded chain concluded
    obtain ⟨ss', e₁', chain', shown, alike⟩ := lock.proceeds limit named chain alike
    rw [run]
    rcases lock.step limit (named e₁.pc) alike with ⟨fault, fails, excuse⟩ | alike
    · have recorded : (e₁.step p c).recorded = none := (failed_of_error fails).2
      simp only [conclusion?, fails, recorded, Option.toList_none, List.append_nil,
        Option.some.injEq] at concluded
      refine .inl ⟨_, concluded.symm, excuse, ss', ?_, shown⟩
      exact chain'.prefix_run (.inl rfl) loaded'
    · obtain ⟨r', concluded', ends⟩ := lock.conclusion ax alike shown concluded
      have run' : p.run c' = r' := run_of_proceeds loaded' chain' concluded'
      rw [run']
      exact .inr ends

end Machine.Lockstep

end AsmTrace

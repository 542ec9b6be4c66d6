import AsmTrace.Semantics
import AsmTrace.Proofs.Results

/-!
# What operations do to the machine

An operation changes the machine by assigning registers, setting flags, writing memory, pushing and
popping. What all of these keep, every operation keeps, whether it fails or not (`Kept.execute`).
Only pushes, pops, calls and returns use the stack; every other operation keeps what the first three
keep (`Framed.execute`), the stack for one.
-/

namespace AsmTrace

namespace Place

/-- The registers that are assigned when a value is stored. -/
def assigned : Place → List Register
  | .register r => [r]
  | .memory _ => []

end Place

namespace Operation

/-- The registers that an operation assigns. Pushing and popping assign none: `SP` follows the
stack. -/
def assigned : Operation → List Register
  | .mov dst _ | .pop dst | .binary _ dst _ | .unary _ dst | .shift _ dst _ => dst.assigned
  | .imul dst _ => [dst]
  | .idiv _ => [.ax, .dx]
  | .cqo => [.dx]
  | .loop _ => [.cx]
  | .push _ | .compare .. | .jump .. | .call _ | .ret | .nop | .hlt => []

/-- Pushes, pops, calls and returns. -/
def UsesStack : Operation → Prop
  | .push _ | .pop _ | .call _ | .ret => True
  | _ => False

end Operation

namespace Machine

/-- `Framed R I` holds when `I` is kept by every change to the machine that leaves the stack alone
and assigns no register but those in `R`. -/
structure Framed (R : Register → Prop) (I : Machine → Prop) : Prop where
  setRegister {m : Machine} {r : Register} (v : Word) : I m → R r → I (m.setRegister r v)
  setFlags {m : Machine} (f : Flags) : I m → I (m.setFlags f)
  write {m m' : Machine} {address : Int} {v : Word} : I m → m.write address v = .ok m' → I m'

/-- `Kept R I` holds when `I` is kept by every change to the machine that assigns no register but
those in `R`. -/
structure Kept (R : Register → Prop) (I : Machine → Prop) : Prop where
  setRegister {m : Machine} {r : Register} (v : Word) : I m → R r → I (m.setRegister r v)
  setFlags {m : Machine} (f : Flags) : I m → I (m.setFlags f)
  write {m m' : Machine} {address : Int} {v : Word} : I m → m.write address v = .ok m' → I m'
  push {m m' : Machine} {v : Word} : I m → m.push v = .ok m' → I m'
  pop {m m' : Machine} {v : Word} : I m → m.pop = .ok (v, m') → I m'

/-- If there is a machine at all, it satisfies `I`. -/
def Yields (I : Machine → Prop) (x : Except Fault Machine) : Prop := ∀ m, x = .ok m → I m

variable {R : Register → Prop} {I : Machine → Prop} {m : Machine}

/-- A sequence yields what its second part does. -/
theorem Yields.bind {α : Type} {x : Except Fault α} {f : α → Except Fault Machine}
    (h : ∀ a, Yields I (f a)) : Yields I (x >>= f) := by
  intro m' hm
  obtain ⟨a, -, ha⟩ := Result.bind_eq_ok.1 hm
  exact h a m' ha

/-- The effect of a change has what the change yields and what the machine had before. -/
theorem Yields.ofChange {depth : Nat} {x : Except Fault Machine} (h : Yields I x) (hm : I m) :
    I (Effect.ofChange m depth x).machine := by
  cases x with
  | ok m' => exact h m' rfl
  | error fault => exact hm

namespace Framed

/-- A store keeps what is kept under assignments to its place and writes to memory. -/
theorem store (framed : Framed R I) (hm : I m) {p : Place} (hp : ∀ r ∈ p.assigned, R r) (v : Word) :
    Yields I (m.store p v) := by
  intro m' h
  cases p with
  | register r =>
    cases h
    exact framed.setRegister v hm (hp r (List.mem_singleton.2 rfl))
  | memory ref => exact framed.write hm h

/-- So does storing a result with its flags. -/
theorem storeResult (framed : Framed R I) (hm : I m) {p : Place} (hp : ∀ r ∈ p.assigned, R r)
    (result : Word × Flags) : Yields I (m.storeResult p result) := by
  intro m' h
  obtain ⟨m₁, hs, rfl⟩ := Result.map_eq_ok.1 h
  exact framed.setFlags _ (framed.store hm hp _ m₁ hs)

/-- So does a division, which assigns `AX` and `DX`. -/
theorem divide (framed : Framed R I) (hm : I m) (hax : R .ax) (hdx : R .dx) (src : Value) :
    Yields I (Operation.divide m src) := by
  refine Yields.bind fun divisor => Yields.bind fun result m' h => ?_
  cases h
  exact framed.setRegister _ (framed.setRegister _ hm hax) hdx

/-- An operation that does not use the stack keeps what every such change keeps, also if it
fails. -/
theorem execute (framed : Framed R I) (hm : I m) {op : Operation} (plain : ¬ op.UsesStack)
    (hop : ∀ r ∈ op.assigned, R r) (size index depth : Nat) :
    I (op.execute size index m depth).machine := by
  cases op with
  | push | pop | call | ret => exact absurd trivial plain
  | mov dst src => exact (Yields.bind fun v => framed.store hm hop v).ofChange hm
  | binary op dst src =>
    exact (Yields.bind fun a => Yields.bind fun b => framed.storeResult hm hop _).ofChange hm
  | imul dst src =>
    exact (Yields.bind fun b => framed.storeResult (p := .register dst) hm hop _).ofChange hm
  | idiv src =>
    have hax : R .ax := hop .ax (List.mem_cons_self ..)
    have hdx : R .dx := hop .dx (List.mem_cons_of_mem _ (List.mem_cons_self ..))
    exact (framed.divide hm hax hdx src).ofChange hm
  | cqo => exact framed.setRegister _ hm (hop .dx (List.mem_cons_self ..))
  | unary op dst => exact (Yields.bind fun a => framed.storeResult hm hop _).ofChange hm
  | shift op dst count =>
    exact (Yields.bind fun a => Yields.bind fun b => framed.storeResult hm hop _).ofChange hm
  | compare op lhs rhs =>
    refine (Yields.bind fun a => Yields.bind fun b m' h => ?_).ofChange hm
    cases h
    exact framed.setFlags _ hm
  | loop target => exact framed.setRegister _ hm (hop .cx (List.mem_cons_self ..))
  | jump | nop | hlt => exact hm

end Framed

namespace Kept

theorem framed (kept : Kept R I) : Framed R I := ⟨kept.setRegister, kept.setFlags, kept.write⟩

/-- What every change to the machine keeps, every operation keeps, also if it fails. -/
theorem execute (kept : Kept R I) (hm : I m) {op : Operation} (hop : ∀ r ∈ op.assigned, R r)
    (size index depth : Nat) : I (op.execute size index m depth).machine := by
  cases op with
  | push src => exact (Yields.bind fun v m' h => kept.push hm h).ofChange hm
  | pop dst =>
    simp only [Operation.execute, Operation.popInto]
    split
    · exact hm
    · next v m' popped =>
      have hm' := kept.pop hm popped
      exact (kept.framed.store hm' hop v).ofChange hm'
  | call target =>
    simp only [Operation.execute, Operation.enter]
    split
    · next m' pushed => exact kept.push hm pushed
    · exact hm
  | ret =>
    simp only [Operation.execute, Operation.leave]
    split
    · exact hm
    · split
      · exact hm
      · next address m' popped =>
        have hm' := kept.pop hm popped
        split <;> exact hm'
  | _ => exact kept.framed.execute hm id hop size index depth

end Kept

/-- An operation that does not use the stack leaves it alone. -/
theorem stack_execute {op : Operation} (plain : ¬ op.UsesStack) (size index depth : Nat)
    (m : Machine) :
    (op.execute size index m depth).machine.stack = m.stack := by
  have framed : Framed (fun _ => True) (fun m' => m'.stack = m.stack) :=
    { setRegister := fun _ same _ => same
      setFlags := fun _ same => same
      write := by
        intro m₁ m₂ address v same written
        obtain ⟨memory, -, rfl⟩ := Result.map_eq_ok.1 written
        exact same }
  exact framed.execute rfl plain (fun _ _ => trivial) size index depth

end Machine

end AsmTrace

import Mathlib.Data.List.Forall2

/-!
# Results and errors

How a computation that may end in an error comes to a result, said so that a chain of computations
can be taken apart one at a time.
-/

namespace AsmTrace.Result

variable {ε ε' α β : Type}

/-- A sequence succeeds exactly if both of its parts do. -/
theorem bind_eq_ok {x : Except ε α} {f : α → Except ε β} {b : β} :
    x >>= f = .ok b ↔ ∃ a, x = .ok a ∧ f a = .ok b := by
  cases x with
  | error e =>
    constructor
    · intro h
      cases h
    · rintro ⟨a, h, -⟩
      cases h
  | ok a => exact ⟨fun h => ⟨a, rfl, h⟩, fun ⟨a', h, h'⟩ => by cases h; exact h'⟩

/-- What a mapped result comes from. -/
theorem map_eq_ok {x : Except ε α} {f : α → β} {b : β} :
    x.map f = .ok b ↔ ∃ a, x = .ok a ∧ f a = b := by
  cases x with
  | error e => simp [Except.map]
  | ok a => simp [Except.map]

@[simp] theorem mapError_eq_ok {x : Except ε α} {f : ε → ε'} {a : α} :
    x.mapError f = .ok a ↔ x = .ok a := by
  cases x with
  | error e => simp [Except.mapError]
  | ok a => simp [Except.mapError]

/-- A sequence fails exactly if one of its parts does, the first first. -/
theorem bind_eq_error {x : Except ε α} {f : α → Except ε β} {e : ε} :
    x >>= f = .error e ↔ x = .error e ∨ ∃ a, x = .ok a ∧ f a = .error e := by
  cases x with
  | error e' =>
    constructor
    · intro h
      cases h
      exact .inl rfl
    · rintro (h | ⟨a, h, -⟩)
      · cases h
        rfl
      · cases h
  | ok a =>
    constructor
    · intro h
      exact .inr ⟨a, rfl, h⟩
    · rintro (h | ⟨a', h, h'⟩)
      · cases h
      · cases h
        exact h'

@[simp] theorem map_eq_error {x : Except ε α} {f : α → β} {e : ε} :
    x.map f = .error e ↔ x = .error e := by
  cases x with
  | error e' => simp [Except.map]
  | ok a => simp [Except.map]

/-- What a mapped error comes from. -/
theorem mapError_eq_error {x : Except ε α} {f : ε → ε'} {e' : ε'} :
    x.mapError f = .error e' ↔ ∃ e, x = .error e ∧ f e = e' := by
  cases x with
  | error e => simp [Except.mapError]
  | ok a => simp [Except.mapError]

@[simp] theorem pure_eq_ok {a b : α} : (pure a : Except ε α) = .ok b ↔ a = b := by
  simp [pure, Except.pure]

/-- A result with another error and another value. -/
def both {α' : Type} (g : ε → ε') (f : α → α') : Except ε α → Except ε' α'
  | .error e => .error (g e)
  | .ok a => .ok (f a)

/-- A translation passes through a sequence if it passes through what can come second. -/
theorem both_bind_of_ok {α' β' : Type} {g : ε → ε'} {f : α → α'} {h : β → β'} {x : Except ε α}
    {k : α → Except ε β} {k' : α' → Except ε' β'}
    (next : ∀ a, x = .ok a → k' (f a) = both g h (k a)) :
    both g f x >>= k' = both g h (x >>= k) := by
  cases x with
  | error e => rfl
  | ok a => exact next a rfl

/-- The same, whatever came first. -/
theorem both_bind {α' β' : Type} {g : ε → ε'} {f : α → α'} {h : β → β'} (x : Except ε α)
    {k : α → Except ε β} {k' : α' → Except ε' β'} (next : ∀ a, k' (f a) = both g h (k a)) :
    both g f x >>= k' = both g h (x >>= k) :=
  both_bind_of_ok fun a _ => next a

/-- A translation commutes with one of errors. -/
theorem mapError_both {ε₁ ε₂ α' : Type} {g : ε → ε'} {g₁ : ε₁ → ε₂} {f : α → α'} {h : ε → ε₁}
    {h' : ε' → ε₂} (commutes : ∀ e, h' (g e) = g₁ (h e)) (x : Except ε α) :
    (both g f x).mapError h' = both g₁ f (x.mapError h) := by
  cases x with
  | error e => exact congrArg Except.error (commutes e)
  | ok a => rfl

/-- A list is computed item by item. -/
theorem mapM_eq_ok {f : α → Except ε β} {xs : List α} {ys : List β} :
    xs.mapM f = .ok ys ↔ List.Forall₂ (fun x y => f x = .ok y) xs ys := by
  induction xs generalizing ys with
  | nil =>
    rw [List.mapM_nil, pure_eq_ok, List.forall₂_nil_left_iff]
    exact eq_comm
  | cons x xs ih =>
    rw [List.mapM_cons, bind_eq_ok, List.forall₂_cons_left_iff]
    constructor
    · rintro ⟨y, hy, h⟩
      obtain ⟨ys', hys, h⟩ := bind_eq_ok.1 h
      exact ⟨y, ys', hy, ih.1 hys, (pure_eq_ok.1 h).symm⟩
    · rintro ⟨y, ys', hy, hys, rfl⟩
      exact ⟨y, hy, bind_eq_ok.2 ⟨ys', ih.2 hys, rfl⟩⟩

/-- The error of a list is that of one of its items. -/
theorem exists_of_mapM_eq_error {f : α → Except ε β} {xs : List α} {e : ε}
    (h : xs.mapM f = .error e) : ∃ x ∈ xs, f x = .error e := by
  induction xs with
  | nil => cases h
  | cons x xs ih =>
    rw [List.mapM_cons] at h
    rcases bind_eq_error.1 h with h | ⟨y, -, h⟩
    · exact ⟨x, List.mem_cons_self, h⟩
    · rcases bind_eq_error.1 h with h | ⟨ys, -, h⟩
      · obtain ⟨x', mem, h⟩ := ih h
        exact ⟨x', List.mem_cons_of_mem x mem, h⟩
      · cases h

/-- The same for computations that may have no result. -/
theorem mapM_eq_some {f : α → Option β} {xs : List α} {ys : List β} :
    xs.mapM f = some ys ↔ List.Forall₂ (fun x y => f x = some y) xs ys := by
  induction xs generalizing ys with
  | nil =>
    rw [List.mapM_nil, List.forall₂_nil_left_iff]
    exact ⟨fun h => (Option.some.inj h).symm, fun h => congrArg some h.symm⟩
  | cons x xs ih =>
    rw [List.mapM_cons, List.forall₂_cons_left_iff]
    simp only [Option.bind_eq_bind, Option.bind_eq_some_iff]
    constructor
    · rintro ⟨y, hy, ys', hys, h⟩
      exact ⟨y, ys', hy, ih.1 hys, (Option.some.inj h).symm⟩
    · rintro ⟨y, ys', hy, hys, rfl⟩
      exact ⟨y, hy, ys', ih.2 hys, rfl⟩

/-! ## Lists in step

Lists that are related item by item have related items at each position. -/

variable {R : α → β → Prop} {xs : List α} {ys : List β}

/-- What stands at a place on the left has a partner on the right. -/
theorem exists_right (h : List.Forall₂ R xs ys) {k : Nat} {x : α} (hx : xs[k]? = some x) :
    ∃ y, ys[k]? = some y ∧ R x y := by
  induction h generalizing k with
  | nil => simp at hx
  | cons head _ ih =>
    cases k with
    | zero =>
      cases hx
      exact ⟨_, rfl, head⟩
    | succ k => exact ih hx

/-- What stands at a place on the right has a partner on the left. -/
theorem exists_left (h : List.Forall₂ R xs ys) {k : Nat} {y : β} (hy : ys[k]? = some y) :
    ∃ x, xs[k]? = some x ∧ R x y := by
  obtain ⟨x, hx, hr⟩ := exists_right h.flip hy
  exact ⟨x, hx, hr⟩

/-- Lists in step with a list between them. -/
theorem forall₂_comp_iff {γ : Type} {S : β → γ → Prop} {zs : List γ} :
    (∃ ys, List.Forall₂ R xs ys ∧ List.Forall₂ S ys zs) ↔
      List.Forall₂ (fun x z => ∃ y, R x y ∧ S y z) xs zs := by
  constructor
  · rintro ⟨ys, hr, hs⟩
    induction hr generalizing zs with
    | nil =>
      cases hs
      exact .nil
    | cons head _ ih =>
      cases hs with
      | cons head' tail' => exact .cons ⟨_, head, head'⟩ (ih tail')
  · intro h
    induction h with
    | nil => exact ⟨[], .nil, .nil⟩
    | cons head _ ih =>
      obtain ⟨y, hr, hs⟩ := head
      obtain ⟨ys, hrs, hss⟩ := ih
      exact ⟨y :: ys, .cons hr hrs, .cons hs hss⟩

/-- Where an item of a concatenation comes from. -/
theorem exists_of_getElem?_flatMap {f : α → List β} {k : Nat} {y : β}
    (h : (xs.flatMap f)[k]? = some y) :
    ∃ before x after j, xs = before ++ x :: after ∧ k = (before.flatMap f).length + j ∧
      (f x)[j]? = some y := by
  induction xs generalizing k with
  | nil => cases h
  | cons x xs ih =>
    rw [List.flatMap_cons] at h
    rcases Nat.lt_or_ge k (f x).length with lt | ge
    · rw [List.getElem?_append_left lt] at h
      exact ⟨[], x, xs, k, rfl, (Nat.zero_add k).symm, h⟩
    · rw [List.getElem?_append_right ge] at h
      obtain ⟨before, x', after, j, rfl, position, item⟩ := ih h
      refine ⟨x :: before, x', after, j, rfl, ?_, item⟩
      rw [List.flatMap_cons, List.length_append]
      omega

/-! ## Lists of pairs -/

variable [BEq α] [LawfulBEq α] {pairs : List (α × β)} {key : α} {item : β}

/-- What is looked up is in the list. -/
theorem mem_of_lookup_eq_some (h : pairs.lookup key = some item) : (key, item) ∈ pairs := by
  obtain ⟨before, after, split, -⟩ := List.lookup_eq_some_iff.1 h
  rw [split]
  exact List.mem_append_right _ List.mem_cons_self

/-- Keys that occur once are found by any of their pairs. -/
theorem lookup_eq_some_of_mem (distinct : (pairs.map Prod.fst).Nodup) (mem : (key, item) ∈ pairs) :
    pairs.lookup key = some item := by
  obtain ⟨before, after, split⟩ := List.append_of_mem mem
  rw [split, List.map_append, List.map_cons, List.nodup_append] at distinct
  obtain ⟨-, -, apart⟩ := distinct
  refine List.lookup_eq_some_iff.2 ⟨before, after, split, ?_⟩
  intro pair earlier
  exact bne_iff_ne.2 (apart pair.1 (List.mem_map_of_mem earlier) key List.mem_cons_self).symm

end AsmTrace.Result

import AsmTrace.Server
import AsmTrace.Proofs.Sessions

/-!
# What one client sees of the store

A client sees the session under its identifier and nothing else. A request of its own reads and
replaces that session (`respond`); every other request leaves it alone or drops it because it has
expired (`expire`). Dropping early is not seen, because instants do not decrease: what is expired
now is expired at every later request (`expire_expire`).
-/

namespace AsmTrace

namespace Request

/-- The session that a request names. -/
def session : Request → String
  | .run id _ | .next id => id

@[simp] theorem session_run (id path : String) : session (.run id path) = id := rfl

@[simp] theorem session_next (id : String) : session (.next id) = id := rfl

/-- The request that a line holds, if it holds one. -/
def ofLine? (decode : Decoder) (line : String) : Option Request :=
  if Text.isBlank line then none else (decode line).toOption

end Request

namespace Store

variable {decode : Request.Decoder} {files : Files} {c : Config} {now : Nat} {id : String}

/-! ## The session under an identifier -/

/-- What is left of a session at an instant. -/
def expire (timeToLive now : Nat) (view : Option StoredSession) : Option StoredSession :=
  view.filter (isAlive timeToLive now)

/-- What a client's own request does to its session, and the response. -/
def respond (files : Files) (c : Config) (now : Nat) (view : Option StoredSession) :
    Request → Response × Option StoredSession
  | .run _ path =>
    (.ofAnswer .ofRun (Session.new.run files path c), some ⟨(Session.new.run files path c).2, now⟩)
  | .next _ =>
    match view with
    | none => (.ofError .nothingRun, none)
    | some stored =>
      (.ofAnswer .ofStep stored.session.stepNext, some ⟨stored.session.stepNext.2, now⟩)

/-- What expires now is expired at every later instant. -/
theorem expire_expire {t t' : Nat} (le : t ≤ t') (ttl : Nat) (view : Option StoredSession) :
    expire ttl t' (expire ttl t view) = expire ttl t' view := by
  cases view with
  | none => rfl
  | some stored =>
    by_cases alive : t - stored.lastUsed ≤ ttl
    · simp [expire, Option.filter, isAlive, alive]
    · have expired : ¬ t' - stored.lastUsed ≤ ttl := by omega
      simp [expire, Option.filter, isAlive, alive, expired]

/-- A session that has not expired was there and was used recently. -/
theorem expire_eq_some {ttl t : Nat} {view : Option StoredSession} {stored : StoredSession} :
    expire ttl t view = some stored ↔ view = some stored ∧ t - stored.lastUsed ≤ ttl := by
  simp [expire, isAlive, Option.filter_eq_some_iff]

@[simp] theorem timeToLive_handle (s : Store) (files : Files) (c : Config) (now : Nat)
    (request : Request) : (s.handle files c now request).2.timeToLive = s.timeToLive := by
  cases request with
  | run id path => rfl
  | next id =>
    simp only [handle, stepNext]
    cases (s.evict now).find? id <;> rfl

/-- A request of a client's own. -/
theorem handle_own (s : Store) (files : Files) (c : Config) (now : Nat) (request : Request) :
    (s.handle files c now request).1 =
        (respond files c now (expire s.timeToLive now (s.find? request.session)) request).1 ∧
      (s.handle files c now request).2.find? request.session =
        (respond files c now (expire s.timeToLive now (s.find? request.session)) request).2 := by
  cases request with
  | run id path =>
    refine ⟨rfl, ?_⟩
    exact (find?_insert _ _ _ _).trans (if_pos rfl)
  | next id =>
    have view : (s.evict now).find? id = expire s.timeToLive now (s.find? id) :=
      find?_evict s now id
    simp only [handle, stepNext, Request.session, ← view]
    cases found : (s.evict now).find? id with
    | none => exact ⟨rfl, found⟩
    | some stored => exact ⟨rfl, (find?_insert _ _ _ _).trans (if_pos rfl)⟩

/-- A request of another client. -/
theorem handle_other (s : Store) (files : Files) (c : Config) (now : Nat) {request : Request}
    (other : id ≠ request.session) :
    (s.handle files c now request).2.find? id = expire s.timeToLive now (s.find? id) := by
  refine Eq.trans ?_ (find?_evict s now id)
  cases request with
  | run id' path => exact (find?_insert _ _ _ _).trans (if_neg other)
  | next id' =>
    simp only [handle, stepNext]
    cases (s.evict now).find? id' with
    | none => rfl
    | some stored => exact (find?_insert _ _ _ _).trans (if_neg other)

/-! ## Lines -/

/-- A line that holds a request. -/
theorem handleLine_of_request (s : Store) (files : Files) (c : Config) (now : Nat) {line : String}
    {request : Request} (holds : Request.ofLine? decode line = some request) :
    s.handleLine decode files c now line =
      (some (s.handle files c now request).1, (s.handle files c now request).2) := by
  unfold Request.ofLine? at holds
  unfold handleLine
  split at holds
  · cases holds
  · next notBlank =>
    simp only [notBlank]
    cases decoded : decode line with
    | error detail => rw [decoded] at holds; cases holds
    | ok request' => rw [decoded] at holds; cases holds; rfl

/-- Any other line leaves the sessions alone. -/
theorem handleLine_of_no_request (s : Store) (files : Files) (c : Config) (now : Nat)
    {line : String} (holds : Request.ofLine? decode line = none) :
    (s.handleLine decode files c now line).2 = s := by
  unfold Request.ofLine? at holds
  unfold handleLine
  split
  · rfl
  · next notBlank =>
    simp only [notBlank] at holds
    cases decoded : decode line with
    | error detail => rfl
    | ok request => rw [decoded] at holds; cases holds

@[simp] theorem timeToLive_handleLine (s : Store) (line : String) :
    (s.handleLine decode files c now line).2.timeToLive = s.timeToLive := by
  cases holds : Request.ofLine? decode line with
  | none => rw [handleLine_of_no_request s files c now holds]
  | some request => simp [handleLine_of_request s files c now holds]

/-- Serving a line and then the others. -/
theorem serve_cons (s : Store) (decode : Request.Decoder) (files : Files) (c : Config) (now : Nat)
    (line : String) (rest : List (Nat × String)) :
    s.serve decode files c ((now, line) :: rest) =
      ((s.handleLine decode files c now line).1 ::
        ((s.handleLine decode files c now line).2.serve decode files c rest).1,
        ((s.handleLine decode files c now line).2.serve decode files c rest).2) := rfl

/-- Lines may be served in two parts. -/
theorem serve_append (s : Store) (before after : List (Nat × String)) :
    (s.serve decode files c (before ++ after)).2 =
      ((s.serve decode files c before).2.serve decode files c after).2 := by
  induction before generalizing s with
  | nil => rfl
  | cons arrival before ih => exact ih _

@[simp] theorem timeToLive_serve (s : Store) (arrivals : List (Nat × String)) :
    (s.serve decode files c arrivals).2.timeToLive = s.timeToLive := by
  induction arrivals generalizing s with
  | nil => rfl
  | cons arrival rest ih =>
    obtain ⟨now, line⟩ := arrival
    rw [serve_cons, ih, timeToLive_handleLine]

/-- The responses to those lines that hold a request of the kind that is asked for. -/
def responsesTo (decode : Request.Decoder) (kind : Request → Bool)
    (arrivals : List (Nat × String)) (responses : List (Option Response)) :
    List (Option Response) :=
  ((arrivals.zip responses).filter fun x => (Request.ofLine? decode x.1.2).any kind).map Prod.snd

theorem responsesTo_cons (decode : Request.Decoder) (kind : Request → Bool) (now : Nat)
    (line : String) (arrivals : List (Nat × String)) (response : Option Response)
    (responses : List (Option Response)) :
    responsesTo decode kind ((now, line) :: arrivals) (response :: responses) =
      if (Request.ofLine? decode line).any kind then
        response :: responsesTo decode kind arrivals responses
      else responsesTo decode kind arrivals responses := by
  unfold responsesTo
  rw [List.zip_cons_cons, List.filter_cons]
  split <;> rfl

end Store

end AsmTrace

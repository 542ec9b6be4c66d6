import AsmTrace.Session

/-!
# The store of sessions

Each client names its session by an identifier. A session that was not used for longer than the time
to live is dropped. Instants and durations are counted in nanoseconds.
-/

namespace AsmTrace

/-- If no two entries have the same key, dropping entries by their values drops what is found. -/
theorem lookup_filter_snd {α : Type} {l : List (String × α)} (h : l.Pairwise (·.1 ≠ ·.1))
    (keep : α → Bool) (id : String) :
    (l.filter fun e => keep e.2).lookup id = (l.lookup id).filter keep := by
  induction l with
  | nil => rfl
  | cons e rest ih =>
    obtain ⟨key, a⟩ := e
    obtain ⟨other, distinct⟩ := List.pairwise_cons.1 h
    by_cases hk : id = key
    · subst hk
      have missing : (rest.filter fun e => keep e.2).lookup id = none := by
        rw [List.lookup_eq_none_iff]
        intro e he
        simpa using other e (List.mem_filter.1 he).1
      cases ha : keep a <;> simp [ha, missing, Option.filter]
    · have ne : (id == key) = false := by simpa using hk
      cases ha : keep a <;> simp [List.lookup_cons, ha, ne, ih distinct]

/-- Erasing one identifier leaves the others. -/
theorem lookup_filter_fst {α : Type} (l : List (String × α)) {id id' : String} (ne : id' ≠ id) :
    (l.filter fun e => e.1 != id).lookup id' = l.lookup id' := by
  induction l with
  | nil => rfl
  | cons e rest ih =>
    obtain ⟨key, a⟩ := e
    by_cases hk : key = id
    · subst hk
      have ne : (id' == key) = false := by simpa using ne
      simp [List.lookup_cons, ne, ih]
    · cases hi : id' == key <;> simp [List.lookup_cons, hk, hi, ih]

structure StoredSession where
  session : Session
  lastUsed : Nat
  deriving DecidableEq, Repr

structure Store where
  timeToLive : Nat
  entries : List (String × StoredSession)
  /-- There is one entry for each identifier. -/
  distinct : entries.Pairwise (·.1 ≠ ·.1)
  deriving DecidableEq, Repr

namespace Store

/-- A store without sessions. -/
def new (timeToLive : Nat) : Store := ⟨timeToLive, [], List.Pairwise.nil⟩

def find? (s : Store) (id : String) : Option StoredSession := s.entries.lookup id

def erase (s : Store) (id : String) : Store :=
  { s with entries := s.entries.filter fun e => e.1 != id, distinct := s.distinct.filter _ }

theorem ne_of_mem_erase {s : Store} {id : String} {e : String × StoredSession}
    (h : e ∈ (s.erase id).entries) : id ≠ e.1 := by
  rintro rfl
  simpa using (List.mem_filter.1 h).2

def insert (s : Store) (id : String) (stored : StoredSession) : Store :=
  { s with
    entries := (id, stored) :: (s.erase id).entries
    distinct := List.pairwise_cons.2 ⟨fun _ h => ne_of_mem_erase h, (s.erase id).distinct⟩ }

/-- Looking up after inserting. -/
theorem find?_insert (s : Store) (id id' : String) (stored : StoredSession) :
    (s.insert id stored).find? id' = if id' = id then some stored else s.find? id' := by
  by_cases h : id' = id
  · subst h
    simp [find?, insert]
  · have ne : (id' == id) = false := by simpa using h
    simp [find?, insert, erase, List.lookup_cons, ne, h, lookup_filter_fst]

def size (s : Store) : Nat := s.entries.length

/-- Runs the program that a path leads to in a new session, which takes the place of an old one. -/
def run (s : Store) (files : Files) (c : Config) (now : Nat) (id path : String) :
    (Except SessionError Snapshot × Session) × Store :=
  let (answer, session) := Session.new.run files path c
  ((answer, session), s.insert id ⟨session, now⟩)

/-- Moves a session to its next snapshot, if there is such a session. -/
def stepNext (s : Store) (now : Nat) (id : String) :
    Option (Except SessionError Snapshot × Session) × Store :=
  match s.find? id with
  | none => (none, s)
  | some stored =>
    let (answer, session) := stored.session.stepNext
    (some (answer, session), s.insert id ⟨session, now⟩)

def status? (s : Store) (id : String) : Option SessionStatus :=
  (s.find? id).map fun stored => stored.session.status

/-- Whether a session was used within the time to live. -/
def isAlive (timeToLive now : Nat) (stored : StoredSession) : Bool :=
  decide (now - stored.lastUsed ≤ timeToLive)

/-- Drops the sessions that were not used for longer than the time to live. -/
def evict (s : Store) (now : Nat) : Store :=
  { s with
    entries := s.entries.filter fun e => isAlive s.timeToLive now e.2
    distinct := s.distinct.filter _ }

/-- Looking up after evicting: what is still alive. -/
@[simp] theorem find?_evict (s : Store) (now : Nat) (id : String) :
    (s.evict now).find? id = (s.find? id).filter (isAlive s.timeToLive now) :=
  lookup_filter_snd s.distinct _ id

end Store

end AsmTrace

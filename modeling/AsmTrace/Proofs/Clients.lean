import Mathlib.Data.List.Chain
import AsmTrace.Proofs.Replay

/-!
# Clients do not interfere

Every request, whoever it is from, drops all sessions that have expired. A client cannot tell: two
stores that `Agree` on its session answer its requests alike, and all that other lines do to a store
is to drop what the client's own next request would drop as well. So the responses to a client's
lines are those it would have without all other lines, and whether its session is there depends on
its own requests only: there was a run, and from then on no two requests were further apart than the
time to live. Nothing of this depends on how lines are read as requests.
-/

namespace AsmTrace

namespace Store

variable {decode : Request.Decoder} {files : Files} {c : Config} {ttl now : Nat} {id : String}
    {s s' : Store}

/-! ## Stores that a client cannot tell apart -/

/-- From `now` on, the session `id` is the same in both stores. -/
structure Agree (id : String) (now : Nat) (s s' : Store) : Prop where
  timeToLive : s.timeToLive = s'.timeToLive
  view : expire s.timeToLive now (s.find? id) = expire s'.timeToLive now (s'.find? id)

namespace Agree

theorem refl (id : String) (now : Nat) (s : Store) : Agree id now s s := ⟨rfl, rfl⟩

/-- Stores that agree still do later. -/
theorem later {t : Nat} (h : Agree id now s s') (le : now ≤ t) : Agree id t s s' where
  timeToLive := h.timeToLive
  view := by rw [← expire_expire le, h.view, h.timeToLive, expire_expire le]

/-- A request of another client is not seen. -/
theorem other {request : Request} (h : Agree id now s s') (other : id ≠ request.session)
    (files : Files) (c : Config) : Agree id now (s.handle files c now request).2 s' where
  timeToLive := (timeToLive_handle s files c now request).trans h.timeToLive
  view := by
    rw [handle_other s files c now other, timeToLive_handle, expire_expire (Nat.le_refl now)]
    exact h.view

/-- A request of the client's own has the same response in both stores. -/
theorem own {request : Request} (h : Agree request.session now s s') (files : Files) (c : Config) :
    (s.handle files c now request).1 = (s'.handle files c now request).1 ∧
      Agree request.session now (s.handle files c now request).2
        (s'.handle files c now request).2 := by
  obtain ⟨response, view⟩ := handle_own s files c now request
  obtain ⟨response', view'⟩ := handle_own s' files c now request
  refine ⟨?_, ?_, ?_⟩
  · rw [response, response', h.view]
  · rw [timeToLive_handle, timeToLive_handle, h.timeToLive]
  · rw [view, view', timeToLive_handle, timeToLive_handle, h.view, h.timeToLive]

end Agree

/-- The lines that hold a request of the session `id`. -/
def linesOf (decode : Request.Decoder) (id : String) (arrivals : List (Nat × String)) :
    List (Nat × String) :=
  arrivals.filter fun a => (Request.ofLine? decode a.2).any (·.session = id)

/-- The responses to a client's lines do not depend on any other lines. -/
theorem Agree.responsesTo_serve {arrivals : List (Nat × String)} (h : Agree id now s s')
    (since : ∀ a ∈ arrivals, now ≤ a.1) (ordered : arrivals.Pairwise (·.1 ≤ ·.1)) :
    responsesTo decode (·.session = id) arrivals (s.serve decode files c arrivals).1 =
      (s'.serve decode files c (linesOf decode id arrivals)).1 := by
  induction arrivals generalizing now s s' with
  | nil => rfl
  | cons arrival rest ih =>
    obtain ⟨t, line⟩ := arrival
    obtain ⟨since', ordered⟩ := List.pairwise_cons.1 ordered
    have h := h.later (since _ (List.mem_cons_self ..))
    rw [serve_cons, responsesTo_cons, linesOf, List.filter_cons]
    cases holds : Request.ofLine? decode line with
    | none =>
      have same := handleLine_of_no_request s files c t holds
      rw [same]
      exact ih h since' ordered
    | some request =>
      have handled := handleLine_of_request s files c t holds
      have handled' := handleLine_of_request s' files c t holds
      by_cases own : request.session = id
      · subst own
        obtain ⟨response, h⟩ := h.own files c
        simp only [Option.any_some, decide_true, if_true, serve_cons, handled, handled', response]
        rw [ih h since' ordered]
        rfl
      · simp only [Option.any_some, own, decide_false, Bool.false_eq_true, if_false, handled]
        exact ih (h.other (Ne.symm own) files c) since' ordered

/-! ## How long a session is there -/

/-- The requests of the session `id`, each with its instant. -/
def requestsOf (decode : Request.Decoder) (id : String) (arrivals : List (Nat × String)) :
    List (Nat × Request) :=
  arrivals.filterMap fun a => ((Request.ofLine? decode a.2).filter (·.session = id)).map (a.1, ·)

/-- `Uninterrupted ttl id requests now` holds when one of the requests is a run in the session `id`
and from that run up to `now` no two consecutive instants are further apart than `ttl`. -/
def Uninterrupted (ttl : Nat) (id : String) (requests : List (Nat × Request)) (now : Nat) : Prop :=
  ∃ before start path after, requests = before ++ (start, .run id path) :: after ∧
    (start :: (after.map Prod.fst ++ [now])).IsChain fun t t' => t' ≤ t + ttl

/-- Whether a session is uninterrupted, by its last request. -/
theorem uninterrupted_concat {requests : List (Nat × Request)} {t : Nat} {request : Request} :
    Uninterrupted ttl id (requests ++ [(t, request)]) now ↔
      ((∃ path, request = .run id path) ∨ Uninterrupted ttl id requests t) ∧ now ≤ t + ttl := by
  constructor
  · rintro ⟨before, start, path, after, eq, chain⟩
    -- the run is either the last request itself or one before it
    rcases List.eq_nil_or_concat after with rfl | ⟨after, last, rfl⟩
    · obtain ⟨rfl, last⟩ := List.append_inj' eq rfl
      cases last
      exact ⟨.inl ⟨path, rfl⟩, by simpa using chain⟩
    · have eq : requests ++ [(t, request)] =
          (before ++ (start, .run id path) :: after) ++ [last] := by
        simpa using eq
      obtain ⟨rfl, same⟩ := List.append_inj' eq rfl
      obtain rfl : (t, request) = last := List.singleton_inj.1 same
      simp only [List.concat_eq_append, List.map_append, List.map_cons, List.map_nil,
        List.append_assoc, List.singleton_append, ← List.cons_append] at chain
      obtain ⟨upTo, last⟩ := List.isChain_split.1 chain
      exact ⟨.inr ⟨before, start, path, after, rfl, upTo⟩, by simpa using last⟩
  · rintro ⟨⟨path, rfl⟩ | ⟨before, start, path, after, rfl, upTo⟩, le⟩
    · exact ⟨requests, t, path, [], rfl, by simpa using le⟩
    · refine ⟨before, start, path, after ++ [(t, request)], by simp, ?_⟩
      simp only [List.map_append, List.map_cons, List.map_nil, List.append_assoc,
        List.singleton_append, ← List.cons_append]
      exact List.isChain_split.2 ⟨upTo, by simpa using le⟩

/-- A session is there until its time has passed. -/
theorem isSome_expire_some {stored : StoredSession} :
    (expire ttl now (some stored)).isSome = true ↔ now ≤ stored.lastUsed + ttl := by
  simp [expire, isAlive, Option.filter, Nat.add_comm]

/-- A session is there exactly as long as the requests that name it follow one another closely. -/
theorem isSome_expire_after (decode : Request.Decoder) (files : Files) (c : Config)
    {history : List (Nat × String)} (upTo : ∀ a ∈ history, a.1 ≤ now)
    (ordered : history.Pairwise (·.1 ≤ ·.1)) :
    (expire ttl now ((after ttl decode files c history).find? id)).isSome = true ↔
      Uninterrupted ttl id (requestsOf decode id history) now := by
  -- on the last line; a request of the client's own looks its session up at the instant of that
  -- line, which is where the hypothesis is needed then
  induction history using List.reverseRecOn generalizing now with
  | nil =>
    refine iff_of_false (by simp [after, new, serve, find?, expire]) ?_
    rintro ⟨before, start, path, after, eq, -⟩
    exact List.cons_ne_nil _ _ (List.append_eq_nil_iff.1 eq.symm).2
  | append_singleton history arrival ih =>
    obtain ⟨t, line⟩ := arrival
    obtain ⟨ordered, -, upTo'⟩ := List.pairwise_append.1 ordered
    have upTo' : ∀ a ∈ history, a.1 ≤ t := fun a mem => upTo' a mem _ (List.mem_singleton_self _)
    have le : t ≤ now := upTo (t, line) (by simp)
    have upTo : ∀ a ∈ history, a.1 ≤ now := fun a mem => (upTo' a mem).trans le
    rw [after_concat]
    cases holds : Request.ofLine? decode line with
    | none =>
      have requests : requestsOf decode id (history ++ [(t, line)]) =
          requestsOf decode id history := by
        simp [requestsOf, holds]
      rw [handleLine_of_no_request _ files c t holds, requests]
      exact ih upTo ordered
    | some request =>
      rw [handleLine_of_request _ files c t holds]
      by_cases own : id = request.session
      · subst own
        have requests : requestsOf decode request.session (history ++ [(t, line)]) =
            requestsOf decode request.session history ++ [(t, request)] := by
          simp [requestsOf, holds, Option.filter]
        rw [requests, uninterrupted_concat, ← ih upTo' ordered, (handle_own _ files c t request).2,
          timeToLive_after]
        cases request with
        | run id path =>
          refine isSome_expire_some.trans ?_
          simp [Request.session]
        | next id =>
          cases view : expire ttl t ((after ttl decode files c history).find? id) with
          | none =>
            simp only [Request.session, view, respond]
            simp [expire]
          | some stored =>
            simp only [Request.session, view, respond]
            refine isSome_expire_some.trans ?_
            simp
      · have requests : requestsOf decode id (history ++ [(t, line)]) =
            requestsOf decode id history := by
          simp [requestsOf, holds, Option.filter, Ne.symm own]
        rw [handle_other _ files c t own, timeToLive_after, expire_expire le, requests]
        exact ih upTo ordered

/-- However lines are read, the responses to the requests of a client are the same as if there were
no other lines. A step finds the session exactly if there was a run in it before and no two requests
of the client from that run up to the step are further apart than the time to live; otherwise the
response is that nothing was run. -/
theorem clients_independent (ttl : Nat) (decode : Request.Decoder) (files : Files) (c : Config)
    (id : String) {arrivals : List (Nat × String)} (ordered : arrivals.Pairwise (·.1 ≤ ·.1)) :
    (∀ s : Store, responsesTo decode (·.session = id) arrivals (s.serve decode files c arrivals).1 =
      (s.serve decode files c (linesOf decode id arrivals)).1) ∧
    ∀ before now line rest, arrivals = before ++ (now, line) :: rest →
      Request.ofLine? decode line = some (.next id) →
      ((((after ttl decode files c before).evict now).find? id).isSome = true ↔
        Uninterrupted ttl id (requestsOf decode id before) now) ∧
      (((after ttl decode files c before).handleLine decode files c now line).1 =
          some (.ofError .nothingRun) ↔
        ¬ Uninterrupted ttl id (requestsOf decode id before) now) := by
  constructor
  · intro s
    exact (Agree.refl id 0 s).responsesTo_serve (fun a _ => Nat.zero_le a.1) ordered
  · rintro before now line rest rfl holds
    obtain ⟨ordered, -, upTo⟩ := List.pairwise_append.1 ordered
    have upTo : ∀ a ∈ before, a.1 ≤ now := fun a mem => upTo a mem _ (List.mem_cons_self ..)
    have found : (((after ttl decode files c before).evict now).find? id).isSome = true ↔
        Uninterrupted ttl id (requestsOf decode id before) now := by
      rw [find?_evict, timeToLive_after]
      exact isSome_expire_after decode files c upTo ordered
    refine ⟨found, ?_⟩
    rw [handleLine_of_request _ files c now holds, Option.some_inj, ← found,
      Option.not_isSome_iff_eq_none]
    exact ((sound_after ttl decode files c before).response files c now id).1

/-- The client `a` runs a program, takes a step at the last possible instant and then waits too
long. The client `b` runs a program in between. -/
def interleavedLines : List (Nat × String) :=
  [(0, "[\"get-output\",\"a\",\"p\"]"), (1, "[]"), (4, "[\"get-output\",\"b\",\"p\"]"),
    (5, "[\"next-output\",\"a\"]"), (11, "[\"next-output\",\"a\"]")]

theorem clients_independent_interleaved :
    interleavedLines.Pairwise (·.1 ≤ ·.1) ∧
    (responsesTo Request.decode (·.session = "a") interleavedLines
      ((new 5).serve Request.decode (fun _ => .ok "nop\nhlt".toUTF8) {} interleavedLines).1).map
        (·.map Response.isSuccess) = [some true, some true, some false] ∧
    Uninterrupted 5 "a" (requestsOf Request.decode "a" (interleavedLines.take 3)) 5 ∧
    ¬ Uninterrupted 5 "a" (requestsOf Request.decode "a" (interleavedLines.take 4)) 11 := by
  have ordered : interleavedLines.Pairwise (·.1 ≤ ·.1) := by decide
  obtain ⟨independent, found⟩ :=
    clients_independent 5 Request.decode (fun _ => .ok "nop\nhlt".toUTF8) {} "a" ordered
  refine ⟨ordered, ?_, ?_, ?_⟩
  · rw [independent]
    decide +kernel
  · refine (found (interleavedLines.take 3) 5 _ _ rfl ?_).1.1 ?_ <;> decide +kernel
  · refine (found (interleavedLines.take 4) 11 _ _ rfl ?_).2.1 ?_ <;> decide +kernel

end Store

end AsmTrace

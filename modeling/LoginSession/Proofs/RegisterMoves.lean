import LoginSession.Proofs.Footprint
import LoginSession.Session.Manager

namespace LoginSession

namespace Registry

variable {r : Registry} {cookie other : String} {leader : Nat}

def adding (r : Registry) (cookie : String) : Registry :=
  { r with entries := r.entries ++ [(cookie, r.opened)], opened := r.opened + 1 }

def without (r : Registry) (cookie : String) : Registry :=
  { r with entries := r.entries.filter (·.1 ≠ cookie) }

theorem register_of_free (request : OpenRequest) (free : r.find? cookie = none) :
    r.register cookie request = .ok (r.adding cookie, r.leaderFor cookie request) := by
  rw [register, free]
  rfl

theorem close_of_found (found : r.find? cookie = some leader) :
    r.close cookie = .ok (r.without cookie, leader) := by
  rw [close, found]
  rfl

theorem close_of_free (free : r.find? cookie = none) :
    r.close cookie = .error (.leaderNotFound cookie) := by
  rw [close, free]

theorem find?_adding (free : r.find? cookie = none) :
    (r.adding cookie).find? other = if other = cookie then some r.opened else r.find? other := by
  rw [find?, adding, List.lookup_append, ← find?]
  by_cases same : other = cookie
  · subst same
    simp [free]
  · simp [same, List.lookup_cons, beq_eq_false_iff_ne.2 same]

theorem find?_without (r : Registry) (cookie other : String) : (r.without cookie).find? other =
    if other = cookie then none else r.find? other := by
  unfold find? without
  induction r.entries with
  | nil => simp
  | cons entry entries ih =>
    obtain ⟨key, n⟩ := entry
    by_cases gone : key = cookie
    · rw [List.filter_cons_of_neg (by simpa using gone), ih]
      subst gone
      split
      · rfl
      · rename_i other
        rw [List.lookup_cons, beq_eq_false_iff_ne.2 other]
    · rw [List.filter_cons_of_pos (by simpa using gone)]
      by_cases same : other = key
      · subst same
        rw [if_neg gone, List.lookup_cons_self, List.lookup_cons_self]
      · rw [List.lookup_cons, List.lookup_cons, beq_eq_false_iff_ne.2 same, ih]

theorem mem_cookies_iff : cookie ∈ r.cookies ↔ ∃ n, r.find? cookie = some n := by
  rw [← Option.ne_none_iff_exists', find?, ne_eq, List.lookup_eq_none_iff, cookies]
  simp

theorem cookies_without (r : Registry) (cookie : String) :
    (r.without cookie).cookies = r.cookies.filter (· ≠ cookie) := by
  rw [cookies, cookies, without, List.filter_map]
  rfl

theorem leaders_perm (unique : r.cookies.Nodup) (found : r.find? cookie = some leader) :
    (r.entries.map (·.2)).Perm (leader :: (r.without cookie).entries.map (·.2)) := by
  obtain ⟨front, back, entries, before⟩ := List.lookup_eq_some_iff.1 found
  have apart : (front.map (·.1) ++ cookie :: back.map (·.1)).Nodup := by
    simpa [cookies, entries] using unique
  -- no two entries have one cookie, so the filter takes out the entry that was found and no other
  have others : ∀ e ∈ front ++ back, e.1 ≠ cookie := by
    intro e member
    rcases List.mem_append.1 member with first | last
    · exact fun same => by simpa [same] using before e first
    · rintro rfl
      exact (List.nodup_cons.1 (List.nodup_append.1 apart).2.1).1 (List.mem_map_of_mem last)
  have left : (r.without cookie).entries = front ++ back := by
    rw [without, entries, List.filter_append, List.filter_cons_of_neg (by simp),
      ← List.filter_append, List.filter_eq_self]
    simpa using others
  rw [left, entries, List.map_append, List.map_append]
  exact List.perm_middle

end Registry

namespace Manager

variable {α : Type} {m next : Manager α} {added : List Entry} {e : Event α}

inductive Moves (m : Manager α) : Event α → Manager α → List Entry → Prop where
  | elsewhere {e : Sessions.Event α} {sessions : Sessions α} {told : List (Sessions.Entry α)}
    (st : m.sessions.step e = some (sessions, told)) :
    Moves m (.elsewhere e) { m with sessions } []
  | opened {cookie : String} {request : OpenRequest} (free : m.registry.find? cookie = none) :
    Moves m (.openSession cookie request)
      { m with
        sessions := (m.sessions.newLeader (m.registry.leaderFor cookie request)).1
        registry := m.registry.adding cookie
        places := m.places ++ [m.sessions.leaders.length] }
      [.opened cookie m.registry.opened (m.registry.leaderFor cookie request).identity]
  | refused {cookie : String} {request : OpenRequest} {n : Nat}
    (taken : m.registry.find? cookie = some n) :
    Moves m (.openSession cookie request) m [.refused cookie (.leaderAlreadyExists cookie)]
  | removed {cookie : String} {n : Nat} (taken : m.registry.find? cookie = some n) :
    Moves m (.closeSession cookie)
      { m with
        registry := m.registry.without cookie
        closings := m.closings ++ [{ cookie, leader := n }] }
      [.removed cookie n m.closings.length]
  | missed {cookie : String} (free : m.registry.find? cookie = none) :
    Moves m (.closeSession cookie) m [.missed cookie (.leaderNotFound cookie)]
  | flag {k place : Nat} {c : Closing} {sessions : Sessions α} {told : List (Sessions.Entry α)}
    (here : m.closings[k]? = some c) (stage : c.stage = .removed)
    (there : m.places[c.leader]? = some place)
    (st : m.sessions.step (.flag place) = some (sessions, told)) :
    Moves m (.resume k)
      { m with sessions, closings := m.closings.set k { c with stage := .flagged } } []
  | cancel {k place : Nat} {c : Closing} {sessions : Sessions α} {told : List (Sessions.Entry α)}
    (here : m.closings[k]? = some c) (stage : c.stage = .flagged)
    (there : m.places[c.leader]? = some place)
    (st : m.sessions.step (.cancel place) = some (sessions, told)) :
    Moves m (.resume k)
      { m with
        sessions
        closings := m.closings.set k
          { c with stage := .cancelling m.sessions.cancellations.length } } []
  | finish {k j : Nat} {c : Closing} {cancellation : Cancellation}
    (here : m.closings[k]? = some c) (stage : c.stage = .cancelling j)
    (there : m.sessions.cancellations[j]? = some cancellation) (ended : cancellation.isOver = true) :
    Moves m (.resume k) { m with closings := m.closings.set k { c with stage := .returned } }
      [.closed c.cookie k]
  | get {cookie : String} : Moves m (.get cookie) m [.got cookie (m.registry.find? cookie)]
  | getOrError {cookie : String} :
    Moves m (.getOrError cookie) m [.gotOrError cookie (m.registry.find cookie)]
  | count : Moves m .count m [.counted m.registry.size]
  | cookies : Moves m .cookies m [.listed m.registry.cookies]

theorem moves_of_step (h : m.step e = some (next, added)) : m.Moves e next added := by
  cases e with
  | elsewhere e =>
    obtain ⟨⟨sessions, told⟩, st, same⟩ := Option.map_eq_some_iff.1 h
    cases same
    exact .elsewhere st
  | openSession cookie request =>
    cases found : m.registry.find? cookie with
    | some n =>
      rw [step, Registry.register_of_taken request found] at h
      cases h
      exact .refused found
    | none =>
      rw [step, Registry.register_of_free request found] at h
      cases h
      exact .opened found
  | closeSession cookie =>
    cases found : m.registry.find? cookie with
    | some n =>
      rw [step, Registry.close_of_found found] at h
      cases h
      exact .removed found
    | none =>
      rw [step, Registry.close_of_free found] at h
      cases h
      exact .missed found
  | resume k =>
    obtain ⟨c, here, h⟩ := Option.bind_eq_some_iff.1 h
    obtain ⟨⟨sessions, stage⟩, proceeds, same⟩ := Option.map_eq_some_iff.1 h
    cases same
    unfold proceed at proceeds
    split at proceeds
    · rename_i place stage there
      obtain ⟨⟨sessions, told⟩, st, same⟩ := Option.map_eq_some_iff.1 proceeds
      cases same
      exact .flag here stage there st
    · rename_i place stage there
      obtain ⟨⟨sessions, told⟩, st, same⟩ := Option.map_eq_some_iff.1 proceeds
      cases same
      exact .cancel here stage there st
    · rename_i j stage
      obtain ⟨ended, same⟩ := Option.ite_none_right_eq_some.1 proceeds
      cases same
      cases there : m.sessions.cancellations[j]? with
      | none => simp [there] at ended
      | some cancellation => exact .finish here stage there (by simpa [there] using ended)
    · cases proceeds
  | get cookie =>
    cases h
    exact .get
  | getOrError cookie =>
    cases h
    exact .getOrError
  | count =>
    cases h
    exact .count
  | cookies =>
    cases h
    exact .cookies

theorem Moves.cancels (moves : m.Moves e next added) : next.sessions = m.sessions ∨
    ∃ operation told, m.sessions.step operation = some (next.sessions, told) ∧
      ∀ place, operation = .cancel place → e = .elsewhere (.cancel place) ∨
        ∃ (k : Nat) (c : Closing), m.closings[k]? = some c ∧ m.places[c.leader]? = some place := by
  cases moves with
  | elsewhere st => exact .inr ⟨_, _, st, fun _ same => .inl (congrArg _ same)⟩
  | @opened cookie request _ =>
    exact .inr ⟨.create (m.registry.leaderFor cookie request), [], rfl, by simp⟩
  | flag _ _ _ st => exact .inr ⟨_, _, st, by simp⟩
  | @cancel k place c _ _ here _ there st =>
    refine .inr ⟨_, _, st, fun other same => .inr ⟨k, c, here, ?_⟩⟩
    rw [there, Sessions.Event.cancel.inj same]
  | refused _ | removed _ | missed _ | finish _ _ _ _ | get | getOrError | count | cookies =>
    exact .inl rfl

theorem Moves.sessions (moves : m.Moves e next added) : next.sessions = m.sessions ∨
    ∃ e told, m.sessions.step e = some (next.sessions, told) := by
  rcases moves.cancels with same | ⟨operation, told, st, -⟩
  · exact .inl same
  · exact .inr ⟨operation, told, st⟩

theorem Moves.length_leaders_le (moves : m.Moves e next added) :
    m.sessions.leaders.length ≤ next.sessions.leaders.length := by
  rcases moves.sessions with same | ⟨_, _, st⟩
  · exact Nat.le_of_eq (congrArg (·.leaders.length) same.symm)
  · exact (Sessions.moves_of_step st).length_leaders_le

theorem Moves.cancellation (moves : m.Moves e next added) {j : Nat}
    (there : ∃ cancellation, m.sessions.cancellations[j]? = some cancellation) :
    ∃ cancellation, next.sessions.cancellations[j]? = some cancellation := by
  rcases moves.sessions with same | ⟨_, _, st⟩
  · rwa [same]
  · obtain ⟨_, there⟩ := there
    obtain ⟨kept, there, -⟩ := (Sessions.moves_of_step st).cancellation there
    exact ⟨kept, there⟩

theorem Moves.places (moves : m.Moves e next added) {n place : Nat}
    (there : m.places[n]? = some place) : next.places[n]? = some place := by
  cases moves with
  | opened _ => rw [List.getElem?_append_left (List.getElem?_eq_some_iff.1 there).1, there]
  | elsewhere _ | refused _ | removed _ | missed _ | flag _ _ _ _ | cancel _ _ _ _
  | finish _ _ _ _ | get | getOrError | count | cookies => exact there

end Manager

end LoginSession

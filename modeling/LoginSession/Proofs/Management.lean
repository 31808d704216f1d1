import LoginSession.Proofs.RegisterInvariant
import LoginSession.Proofs.Termination
import Mathlib.Data.List.Induction
import Mathlib.Data.List.Nodup

namespace LoginSession

theorem Registry.sessionId_injective : Function.Injective sessionId := by
  intro k n same
  have digits : Nat.toDigits 10 (k + 1) = Nat.toDigits 10 (n + 1) := by
    simpa [sessionId, String.ext_iff] using same
  have read := congrArg (Nat.ofDigitChars 10 · 0) digits
  simpa [Nat.ofDigitChars_ten_toDigits] using read

namespace Manager

variable {α : Type} {m next : Manager α} {record added : List Entry} {e : Event α} {entry : Entry}
  {cookie : String} {n : Nat}

def Entry.sessionId? : Entry → Option String
  | .opened _ _ identity => identity.sessionId
  | _ => none

def sessionIds (record : List Entry) : List String := record.filterMap (·.sessionId?)

def Entry.isOpeningOf (cookie : String) : Entry → Bool
  | .opened c _ _ => c = cookie
  | _ => false

def Entry.isCloseOf (cookie : String) : Entry → Bool
  | .removed c _ _ | .missed c _ => c = cookie
  | _ => false

def closeCalls (cookie : String) (record : List Entry) : List Entry :=
  record.filter (·.isCloseOf cookie)

theorem Holds.unique {k : Nat} (first : Holds record cookie k) (second : Holds record cookie n) :
    k = n := by
  induction record using List.reverseRecOn with
  | nil => exact absurd first not_holds_nil
  | append_singleton record entry ih =>
    rcases holds_concat.1 first with ⟨_, rfl⟩ | ⟨first, silent⟩ <;>
      rcases holds_concat.1 second with ⟨_, same⟩ | ⟨second, silent'⟩
    · cases same
      rfl
    · simp [Entry.changes] at silent'
    · simp [same, Entry.changes] at silent
    · exact ih first second

theorem closeCalls_append (before after : List Entry) :
    closeCalls cookie (before ++ after) = closeCalls cookie before ++ closeCalls cookie after :=
  List.filter_append before after

theorem closeCalls_concat (after : List Entry) : closeCalls cookie (after ++ [entry]) =
    if entry.isCloseOf cookie then closeCalls cookie after ++ [entry]
    else closeCalls cookie after := by
  cases mine : entry.isCloseOf cookie <;> simp [closeCalls, mine]

theorem IsFree.concat (h : IsFree record cookie) (unopened : entry.isOpeningOf cookie = false) :
    IsFree (record ++ [entry]) cookie := by
  intro n holds
  rcases holds_concat.1 holds with ⟨_, rfl⟩ | ⟨holds, -⟩
  · simp [Entry.isOpeningOf] at unopened
  · exact h n holds

/-- Of the calls that close one session the first takes it out, and the others find nothing. -/
inductive ClosedOnce (record since : List Entry) (cookie : String) (n : Nat) : Prop where
  | unclosed (holds : Holds record cookie n) (uncalled : closeCalls cookie since = [])
  | closed (k others : Nat) (free : IsFree record cookie)
    (called : closeCalls cookie since = .removed cookie n k ::
      List.replicate others (.missed cookie (.leaderNotFound cookie)))

theorem ClosedOnce.concat {since : List Entry} (h : ClosedOnce record since cookie n)
    (fits : Fits record entry) (unopened : entry.isOpeningOf cookie = false) :
    ClosedOnce (record ++ [entry]) (since ++ [entry]) cookie n := by
  -- all entries that open, close or miss something else
  have keeps : entry.changes cookie = false → entry.isCloseOf cookie = false →
      ClosedOnce (record ++ [entry]) (since ++ [entry]) cookie n := by
    intro silent other
    have calls : closeCalls cookie (since ++ [entry]) = closeCalls cookie since := by
      simp [closeCalls_concat, other]
    cases h with
    | unclosed holds uncalled =>
      exact .unclosed (holds_concat.2 (.inr ⟨holds, silent⟩)) (calls.trans uncalled)
    | closed k others free called =>
      exact .closed k others (free.concat unopened) (calls.trans called)
  cases fits with
  | opened _ _ _ => exact keeps (by simpa [Entry.changes, Entry.isOpeningOf] using unopened) rfl
  | @removed c k taken =>
    by_cases same : c = cookie
    · subst same
      cases h with
      | unclosed holds uncalled =>
        obtain rfl := taken.unique holds
        have gone : IsFree (record ++ [.removed c k (removals record)]) c := by
          simp [IsFree, holds_concat, Entry.changes]
        refine .closed (removals record) 0 gone ?_
        simp [closeCalls_concat, uncalled, Entry.isCloseOf]
      | closed _ _ free _ => exact absurd taken (free k)
    · exact keeps (by simp [Entry.changes, same]) (by simp [Entry.isCloseOf, same])
  | @missed c free =>
    by_cases same : c = cookie
    · subst same
      cases h with
      | unclosed holds _ => exact absurd holds (free n)
      | closed k others free called =>
        refine .closed k (others + 1) (free.concat rfl) ?_
        simp [closeCalls_concat, called, Entry.isCloseOf, List.replicate_succ']
    · exact keeps rfl (by simp [Entry.isCloseOf, same])
  | refused _ | closed _ _ | got _ | found _ | notFound _ | counted _ | listed _ _ _ =>
    exact keeps rfl rfl

namespace AllFit

theorem sessionIds_eq (h : AllFit record) :
    sessionIds record = (List.range (openings record)).map fun k => s!"Session{k + 1}" := by
  -- from the end, since an entry fits what stands before it
  induction record using List.reverseRecOn with
  | nil => rfl
  | append_singleton record entry ih =>
    obtain ⟨h, fits⟩ := allFit_concat.1 h
    have ids := ih h
    unfold sessionIds at ids ⊢
    rw [List.filterMap_append, ids]
    cases fits with
    | opened _ session _ =>
      simp [openings, Entry.isOpening, Entry.sessionId?, session, List.range_succ]
    | refused _ | removed _ | missed _ | closed _ _ | got _ | found _ | notFound _ | counted _
    | listed _ _ _ => simp [openings, Entry.isOpening, Entry.sessionId?]

theorem nodup_sessionIds (h : AllFit record) : (sessionIds record).Nodup := by
  rw [h.sessionIds_eq]
  exact List.nodup_range.map Registry.sessionId_injective

theorem closedOnce {before after : List Entry} {identity : Identity}
    (h : AllFit (before ++ .opened cookie n identity :: after))
    (last : ∀ entry ∈ after, entry.isOpeningOf cookie = false) :
    ClosedOnce (before ++ .opened cookie n identity :: after) after cookie n := by
  induction after using List.reverseRecOn with
  | nil => exact .unclosed ⟨before, identity, [], rfl, by simp⟩ rfl
  | append_singleton after entry ih =>
    rw [← List.cons_append, ← List.append_assoc] at h ⊢
    rw [List.forall_mem_append, List.forall_mem_singleton] at last
    obtain ⟨h, fits⟩ := allFit_concat.1 h
    exact (ih h last.1).concat fits last.2

end AllFit

theorem exists_of_run_cons {final : Manager α} {events : List (Event α)}
    (ran : m.run (e :: events) = some (final, record)) :
    ∃ next added more, m.step e = some (next, added) ∧ next.run events = some (final, more) ∧
      record = added ++ more := by
  simp only [run] at ran
  split at ran
  · cases ran
  · rename_i next added st
    obtain ⟨⟨last, more⟩, rest, same⟩ := Option.map_eq_some_iff.1 ran
    cases same
    exact ⟨next, added, more, st, rest, rfl⟩

theorem run_single (st : m.step e = some (next, added)) : m.run [e] = some (next, added) := by
  simp [run, st]

theorem run_trans {mid final : Manager α} {told more : List Entry} {before after : List (Event α)}
    (first : m.run before = some (mid, told)) (second : mid.run after = some (final, more)) :
    m.run (before ++ after) = some (final, told ++ more) := by
  induction before generalizing m told with
  | nil =>
    cases first
    exact second
  | cons e before ih =>
    obtain ⟨next, added, more, st, rest, rfl⟩ := exists_of_run_cons first
    rw [List.cons_append, run, st]
    simp only [ih rest, Option.map_some, List.append_assoc]

theorem run_elsewhere {events : List (Sessions.Event α)} {sessions : Sessions α}
    {told : List (Sessions.Entry α)} (ran : m.sessions.run events = some (sessions, told)) :
    m.run (events.map .elsewhere) = some ({ m with sessions }, []) := by
  induction events generalizing m told with
  | nil =>
    cases ran
    rfl
  | cons e events ih =>
    obtain ⟨middle, first, more, st, rest, -⟩ := Sessions.exists_of_run_cons ran
    have step : m.step (.elsewhere e) = some ({ m with sessions := middle }, []) := by
      simp [Manager.step, st]
    exact run_trans (run_single step) (ih (m := { m with sessions := middle }) rest)

theorem Reached.run {events : List (Event α)} (reached : Reached m record)
    (ran : m.run events = some (next, added)) : Reached next (record ++ added) := by
  induction events generalizing m record added with
  | nil =>
    cases ran
    rw [List.append_nil]
    exact reached
  | cons e events ih =>
    obtain ⟨middle, first, more, st, later, rfl⟩ := exists_of_run_cons ran
    rw [← List.append_assoc]
    exact ih (reached.step st) later

/-- A call that closes a session can come to its return, and without any other use of the register.
-/
def CanReturn (m : Manager α) (k : Nat) (cookie : String) : Prop :=
  ∃ events final, m.run events = some (final, [.closed cookie k]) ∧
    ∀ e ∈ events, e = .resume k ∨ ∃ other, e = .elsewhere other ∧ other.leader? = none

theorem CanReturn.resume {k : Nat} (st : m.step (.resume k) = some (next, []))
    (h : next.CanReturn k cookie) : m.CanReturn k cookie := by
  obtain ⟨events, final, ran, alone⟩ := h
  exact ⟨.resume k :: events, final, run_trans (run_single st) ran,
    List.forall_mem_cons.2 ⟨.inl rfl, alone⟩⟩

def cookie? (m : Manager α) : Event α → Option String
  | .openSession c _ | .closeSession c | .get c | .getOrError c => some c
  | .resume k => (m.closings[k]?).map (·.cookie)
  | .elsewhere _ | .count | .cookies => none

theorem Moves.find? (moves : m.Moves e next added) (apart : m.cookie? e ≠ some cookie) :
    next.registry.find? cookie = m.registry.find? cookie := by
  have other : ∀ {c : String}, m.cookie? e = some c → cookie ≠ c := fun mine same =>
    apart (mine.trans (congrArg some same.symm))
  cases moves with
  | opened free => rw [Registry.find?_adding free, if_neg (other rfl)]
  | removed _ => rw [Registry.find?_without, if_neg (other rfl)]
  | elsewhere _ | refused _ | missed _ | flag _ _ _ _ | cancel _ _ _ _ | finish _ _ _ _ | get
  | getOrError | count | cookies => rfl

namespace Invariant

variable {k : Nat} {c : Closing}

theorem exists_place (h : Invariant m record) (known : n < m.registry.opened) :
    ∃ place, m.places[n]? = some place ∧ place < m.sessions.leaders.length := by
  have bound : n < m.places.length := h.placed.numbered ▸ known
  exact ⟨m.places[n], List.getElem?_eq_getElem bound, h.placed.known _ (List.getElem_mem bound)⟩

theorem lt_opened (h : Invariant m record)
    (member : n ∈ m.registry.entries.map (·.2) ++ m.closings.map (·.leader)) :
    n < m.registry.opened :=
  List.mem_range.1 (h.books.leaders.mem_iff.1 member)

theorem mem_registered (found : m.registry.find? cookie = some n) :
    n ∈ m.registry.entries.map (·.2) := by
  obtain ⟨front, back, entries, -⟩ := List.lookup_eq_some_iff.1 found
  simp [entries]

theorem mem_closed (here : m.closings[k]? = some c) : c.leader ∈ m.closings.map (·.leader) :=
  List.mem_map_of_mem (List.mem_of_getElem? here)

theorem exists_closing_place (h : Invariant m record) (here : m.closings[k]? = some c) :
    ∃ place, m.places[c.leader]? = some place ∧ place < m.sessions.leaders.length :=
  h.exists_place (h.lt_opened (List.mem_append_right _ (mem_closed here)))

theorem canReturn_of_cancelling (h : Invariant m record) (here : m.closings[k]? = some c) {j : Nat}
    (stage : c.stage = .cancelling j) : m.CanReturn k c.cookie := by
  obtain ⟨told, reached⟩ := h.reached
  obtain ⟨_, there⟩ := h.cancelling c (List.mem_of_getElem? here) j stage
  obtain ⟨operations, sessions, _, ran, unled, last, ended⟩ :=
    Sessions.canReach_isOver reached there
  -- the closing has not moved while the sessions went on to the end of its cancellation
  have st : Manager.step { m with sessions } (.resume k) = some
      ({ m with sessions, closings := m.closings.set k { c with stage := .returned } },
        [.closed c.cookie k]) := by
    simp [Manager.step, here, proceed, stage, ended]
  refine ⟨operations.map .elsewhere ++ [.resume k], _,
    run_trans (run_elsewhere ran) (run_single st), fun e member => ?_⟩
  rcases List.mem_append.1 member with waited | final
  · obtain ⟨other, there, rfl⟩ := List.mem_map.1 waited
    exact .inr ⟨other, rfl, unled other there⟩
  · exact .inl (List.mem_singleton.1 final)

theorem canReturn_of_flagged (h : Invariant m record) (here : m.closings[k]? = some c)
    (stage : c.stage = .flagged) : m.CanReturn k c.cookie := by
  obtain ⟨place, there, known⟩ := h.exists_closing_place here
  let cancelling : Closing := { c with stage := .cancelling m.sessions.cancellations.length }
  have st : m.step (.resume k) = some
      ({ m with sessions := m.sessions.cancel place, closings := m.closings.set k cancelling },
        []) := by
    simp [Manager.step, here, proceed, stage, there, Sessions.step, known, cancelling]
  have bound := (List.getElem?_eq_some_iff.1 here).1
  exact .resume st ((h.step st).canReturn_of_cancelling (c := cancelling)
    (List.getElem?_set_self bound) rfl)

theorem canReturn_of_removed (h : Invariant m record) (here : m.closings[k]? = some c)
    (stage : c.stage = .removed) : m.CanReturn k c.cookie := by
  obtain ⟨place, there, known⟩ := h.exists_closing_place here
  let flagged : Closing := { c with stage := .flagged }
  have st : m.step (.resume k) = some
      ({ m with
        sessions := m.sessions.setLeader place { m.sessions.leader place with cancelled := true }
        closings := m.closings.set k flagged }, []) := by
    simp [Manager.step, here, proceed, stage, there, Sessions.step, known, flagged]
  have bound := (List.getElem?_eq_some_iff.1 here).1
  exact .resume st ((h.step st).canReturn_of_flagged (c := flagged)
    (List.getElem?_set_self bound) rfl)

theorem closed_or_canReturn (h : Invariant m record) (removed : .removed cookie n k ∈ record) :
    .closed cookie k ∈ record ∨ m.CanReturn k cookie := by
  obtain ⟨stage, here⟩ := (h.books.removed cookie n k).1 removed
  cases stage with
  | removed => exact .inr (h.canReturn_of_removed here rfl)
  | flagged => exact .inr (h.canReturn_of_flagged here rfl)
  | cancelling j => exact .inr (h.canReturn_of_cancelling here rfl)
  | returned => exact .inl ((h.books.closed cookie k).2 ⟨n, here⟩)

theorem place_ne (h : Invariant m record) (found : m.registry.find? cookie = some n)
    (here : m.closings[k]? = some c) {place other : Nat} (registered : m.places[n]? = some place)
    (closed : m.places[c.leader]? = some other) : place ≠ other := by
  rintro rfl
  have unique : (m.registry.entries.map (·.2) ++ m.closings.map (·.leader)).Nodup :=
    h.books.leaders.nodup_iff.2 List.nodup_range
  obtain ⟨bound, same⟩ := List.getElem?_eq_some_iff.1 registered
  obtain ⟨bound', same'⟩ := List.getElem?_eq_some_iff.1 closed
  have one : n = c.leader := h.placed.apart.getElem_inj_iff.1 (same.trans same'.symm)
  exact (List.nodup_append.1 unique).2.2 n (mem_registered found) c.leader (mem_closed here) one

theorem leader_step (h : Invariant m record) (moves : m.Moves e next added)
    (own : ∀ other, e ≠ .elsewhere other) (found : m.registry.find? cookie = some n) :
    next.leader n = m.leader n := by
  obtain ⟨place, there, known⟩ :=
    h.exists_place (h.lt_opened (List.mem_append_left _ (mem_registered found)))
  -- flagging and cancelling are done to a leader that has been taken out, at another place
  have untouched : ∀ {sessions told other} {e : Sessions.Event α},
      m.sessions.step e = some (sessions, told) → e.leader? = some other → place ≠ other →
      (∀ k, e ≠ .complete k) → sessions.leader place = m.sessions.leader place := by
    intro sessions told other e st mine apart running
    have unused : e.leader? ≠ some place := by
      rw [mine]
      exact fun same => apart (Option.some.inj same).symm
    rcases (Sessions.moves_of_step st).leader known unused with same | ⟨k, _, complete, -⟩
    · exact same
    · exact absurd complete (running k)
  cases moves with
  | elsewhere _ => exact absurd rfl (own _)
  | opened free =>
    have still : (m.places ++ [m.sessions.leaders.length])[n]? = some place := by
      rw [List.getElem?_append_left (List.getElem?_eq_some_iff.1 there).1, there]
    simp [leader, there, still, Sessions.leader_newLeader, Nat.ne_of_lt known]
  | flag here _ closed st =>
    have apart := h.place_ne found here there closed
    simp [leader, there, untouched st rfl apart (by simp)]
  | cancel here _ closed st =>
    have apart := h.place_ne found here there closed
    simp [leader, there, untouched st rfl apart (by simp)]
  | refused _ | removed _ | missed _ | finish _ _ _ _ | get | getOrError | count | cookies => rfl

end Invariant

end Manager

end LoginSession

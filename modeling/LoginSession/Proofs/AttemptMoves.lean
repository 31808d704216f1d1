import LoginSession.Proofs.Cancellation
import LoginSession.Proofs.Delivery
import LoginSession.Proofs.Ownership

namespace LoginSession

namespace Attempt

variable {α : Type}

/-- What the watcher of a job has gone through in the course of a run. -/
def helperEvents (job : Nat) (events : List (Event α)) : List Watch.Event :=
  events.filterMap fun
    | .elsewhere e => e.watched? job
    | _ => none

theorem helperEvents_append (job : Nat) (events later : List (Event α)) :
    helperEvents job (events ++ later) = helperEvents job events ++ helperEvents job later :=
  List.filterMap_append

theorem helperEvents_elsewhere (job : Nat) (e : Sessions.Event α) :
    helperEvents job [.elsewhere e] = (e.watched? job).toList := by
  cases watched : e.watched? job <;> simp [helperEvents, watched]

inductive Moves (a : Attempt α) : Event α → Attempt α → Prop where
  | elsewhere {e : Sessions.Event α} {sessions : Sessions α} {added : List (Sessions.Entry α)}
    (unused : e.leader? ≠ some a.leader) (st : a.sessions.step e = some (sessions, added)) :
    Moves a (.elsewhere e) { a with sessions }
  | receive {outcome : Outcome} (waiting : a.stage = .waiting)
    (ended : a.sessions.ending a.collection ≠ .waiting)
    (amounts : (a.sessions.ending a.collection).outcome = .ok outcome) :
    Moves a .receive { a with stage := .decided (.ok outcome) }
  | lose {e : SessionError} (waiting : a.stage = .waiting)
    (amounts : (a.sessions.ending a.collection).outcome = .error e) :
    Moves a .receive { a with stage := .returned (.error e) }
  | shutdown (waiting : a.stage = .waiting) :
    Moves a .shutdown { a with stage := .decided (.ok .cancelled) }
  | unregister {result : Except SessionError Outcome} {registry : Registry} {leader : Nat}
    (decided : a.stage = .decided result)
    (closed : a.registry.close a.cookie = .ok (registry, leader)) :
    Moves a .unregister { a with registry, leader, stage := .removed result }
  | unknown {result : Except SessionError Outcome} {e : SessionError}
    (decided : a.stage = .decided result) (closed : a.registry.close a.cookie = .error e) :
    Moves a .unregister { a with stage := .returned (.error e) }
  | flag {result : Except SessionError Outcome} {sessions : Sessions α}
    {added : List (Sessions.Entry α)} (removed : a.stage = .removed result)
    (st : a.sessions.step (.flag a.leader) = some (sessions, added)) :
    Moves a .flag { a with sessions, stage := .flagged result }
  | cancel {result : Except SessionError Outcome} {sessions : Sessions α}
    {added : List (Sessions.Entry α)} (flagged : a.stage = .flagged result)
    (st : a.sessions.step (.cancel a.leader) = some (sessions, added)) :
    Moves a .cancel
      { a with sessions, stage := .cancelling a.sessions.cancellations.length result }
  | finish {result : Except SessionError Outcome} {k : Nat} {c : Cancellation}
    (cancelling : a.stage = .cancelling k result) (here : a.sessions.cancellations[k]? = some c)
    (done : c.isOver = true) : Moves a .finish { a with stage := .returned result }

variable {a next : Attempt α} {e : Event α}

theorem moves_of_step (h : a.step e = some next) : a.Moves e next := by
  cases e with
  | elsewhere e =>
    simp only [step, Option.ite_none_left_eq_some, Option.map_eq_some_iff] at h
    obtain ⟨unused, ⟨sessions, added⟩, st, rfl⟩ := h
    exact .elsewhere unused st
  | receive =>
    simp only [step] at h
    split at h
    · cases h
    · rename_i waiting ended
      split at h
      · rename_i amounts
        cases h
        exact .receive waiting ended amounts
      · rename_i amounts
        cases h
        exact .lose waiting amounts
    · cases h
  | shutdown =>
    simp only [step] at h
    split at h
    · rename_i waiting
      cases h
      exact .shutdown waiting
    · cases h
  | unregister =>
    simp only [step] at h
    split at h
    · rename_i decided
      split at h
      · rename_i closed
        cases h
        exact .unregister decided closed
      · rename_i closed
        cases h
        exact .unknown decided closed
    · cases h
  | flag =>
    simp only [step] at h
    split at h
    · rename_i removed
      obtain ⟨⟨sessions, added⟩, st, rfl⟩ := Option.map_eq_some_iff.1 h
      exact .flag removed st
    · cases h
  | cancel =>
    simp only [step] at h
    split at h
    · rename_i flagged
      obtain ⟨⟨sessions, added⟩, st, rfl⟩ := Option.map_eq_some_iff.1 h
      exact .cancel flagged st
    · cases h
  | finish =>
    simp only [step] at h
    split at h
    · rename_i k result cancelling
      simp only [Option.ite_none_right_eq_some, Option.some.injEq] at h
      obtain ⟨done, rfl⟩ := h
      cases here : a.sessions.cancellations[k]? with
      | none => simp [here] at done
      | some c => exact .finish cancelling here (by simpa [here] using done)
    · cases h

theorem Moves.sessions (moves : a.Moves e next) : next.sessions = a.sessions ∨
    ∃ operation added, a.sessions.step operation = some (next.sessions, added) ∧
      (e = .elsewhere operation ∨ operation = .flag a.leader ∨ operation = .cancel a.leader) := by
  cases moves with
  | elsewhere _ st => exact .inr ⟨_, _, st, .inl rfl⟩
  | flag _ st => exact .inr ⟨_, _, st, .inr (.inl rfl)⟩
  | cancel _ st => exact .inr ⟨_, _, st, .inr (.inr rfl)⟩
  | receive _ _ _ | lose _ _ | shutdown _ | unregister _ _ | unknown _ _ | finish _ _ _ =>
    exact .inl rfl

theorem exists_collection_run {events : List (Event α)} {final : Attempt α}
    (ran : a.run events = some final) {k : Nat} {c : Collection α}
    (here : a.sessions.collections[k]? = some c) :
    ∃ c', final.sessions.collections[k]? = some c' ∧ c'.leader = c.leader := by
  induction events generalizing a c with
  | nil =>
    cases ran
    exact ⟨c, here, rfl⟩
  | cons e events ih =>
    obtain ⟨next, st, rest⟩ := Option.bind_eq_some_iff.1 ran
    rcases (moves_of_step st).sessions with same | ⟨operation, added, moved, -⟩
    · exact ih rest (same ▸ here)
    · obtain ⟨middle, there, kept⟩ := (Sessions.moves_of_step moved).collection here
      obtain ⟨last, found, leader⟩ := ih rest there
      exact ⟨last, found, leader.trans (Prod.mk.inj kept).1⟩

end Attempt

end LoginSession

import LoginSession.Proofs.AttemptMoves

namespace LoginSession

namespace Attempt

variable {α : Type}

structure Origin (α : Type) where
  sessions : Sessions α
  registry : Registry
  cookie : String
  request : OpenRequest

namespace Origin

variable (o : Origin α)

def leader : Nat := o.sessions.leaders.length

def job : Nat := o.sessions.jobs.length + 1

def collection : Nat := o.sessions.collections.length

def opened : Registry :=
  { o.registry with
    entries := o.registry.entries ++ [(o.cookie, o.leader)], opened := o.registry.opened + 1 }

def closed : Registry := { o.registry with opened := o.registry.opened + 1 }

def newLeader : Leader := o.registry.leaderFor o.cookie o.request

def made : Sessions α := (o.sessions.newLeader o.newLeader).1

theorem register_eq (free : o.registry.find? o.cookie = none)
    (numbered : o.registry.opened = o.leader) :
    o.registry.register o.cookie o.request = .ok (o.opened, o.newLeader) := by
  simp [Registry.register, free, opened, numbered, newLeader]

theorem leader_made : o.made.leader o.leader = o.newLeader := by
  rw [made, Sessions.leader_newLeader, leader, if_pos rfl]

theorem leader_made_of_lt {m : Nat} (old : m < o.leader) :
    o.made.leader m = o.sessions.leader m := by
  rw [leader] at old
  rw [made, Sessions.leader_newLeader, if_neg (Nat.ne_of_lt old)]

theorem reached_made {record : List (Sessions.Entry α)}
    (reached : Sessions.Reached o.sessions record) : Sessions.Reached o.made record := by
  have created : o.sessions.step (.create o.newLeader) = some (o.made, []) := rfl
  have made := reached.step created
  rwa [List.append_nil] at made

theorem close_opened (free : o.registry.find? o.cookie = none) :
    o.opened.close o.cookie = .ok (o.closed, o.leader) := by
  have found : o.opened.find? o.cookie = some o.leader := by
    rw [Registry.find?, opened, List.lookup_append, ← Registry.find?, free]
    simp
  have left : o.opened.entries.filter (·.1 ≠ o.cookie) = o.registry.entries := by
    have other : ∀ x ∈ o.registry.entries, x.1 ≠ o.cookie := by
      intro x member same
      have unequal := List.lookup_eq_none_iff.1 free x member
      simp [same] at unequal
    rw [opened, List.filter_append, List.filter_eq_self.2 (by simpa using other)]
    simp
  rw [Registry.close, found]
  dsimp only
  rw [left]
  rfl

theorem start_eq (free : o.registry.find? o.cookie = none) (numbered : o.registry.opened = o.leader)
    (spawn : List String → Except SystemFault (Unit × Child)) (context : α) :
    Attempt.start spawn o.sessions o.registry o.cookie context o.request =
      match o.made.collect spawn o.leader context with
      | (sessions, some _) => .ok
        { sessions, registry := o.opened, cookie := o.cookie, leader := o.leader,
          collection := o.collection }
      | (sessions, none) => .ok
        { sessions, registry := o.opened, cookie := o.cookie, leader := o.leader,
          collection := o.collection,
          stage := .decided (.error (notStarted o.registry.config.helper)) } := by
  rw [Attempt.start, o.register_eq free numbered]
  rfl

end Origin

variable {o : Origin α} {record : List (Sessions.Entry α)} {events : List (Event α)}

/-- How a result can come about. -/
inductive Decided (o : Origin α) (record : List (Sessions.Entry α)) (events : List (Event α)) :
    Except SessionError Outcome → Prop where
  | refused (refused : .refused o.leader o.job ∈ record) (quiet : .shutdown ∉ events) :
    Decided o record events (.error (notStarted o.registry.config.helper))
  | shutdown {context : α} (started : .started o.leader o.job context ∈ record)
    (shut : .shutdown ∈ events) : Decided o record events (.ok .cancelled)
  | reported {report : Report} {context : α}
    (called : .called o.leader o.job report context ∈ record) (quiet : .shutdown ∉ events) :
    Decided o record events (Ending.called report).outcome

theorem outcome_called (report : Report) : (Ending.called report).outcome =
    .ok (match report.parameters with
      | some parameters => .collected parameters
      | none => .helperFailed) := by
  obtain ⟨parameters, identity, cancelled⟩ := report
  cases parameters <;> rfl

namespace Decided

variable {result : Except SessionError Outcome}

theorem mono {record' : List (Sessions.Entry α)} {events' : List (Event α)}
    (h : Decided o record events result) (more : record ⊆ record')
    (same : .shutdown ∈ events' ↔ .shutdown ∈ events) :
    Decided o record' events' result := by
  cases h with
  | refused refused quiet => exact .refused (more refused) (mt same.1 quiet)
  | shutdown started shut => exact .shutdown (more started) (same.2 shut)
  | reported called quiet => exact .reported (more called) (mt same.1 quiet)

theorem error_iff (h : Decided o record events result) {s : Sessions α}
    (accounted : s.Accounted record) :
    (∃ e, result = .error e) ↔ .refused o.leader o.job ∈ record := by
  cases h with
  | refused refused _ => simp [refused]
  | shutdown started _ => simp [accounted.not_refused_of_started started]
  | reported called _ =>
    simp [outcome_called, accounted.not_refused_of_started (accounted.of_called called).1]

theorem of_error {e : SessionError} (h : Decided o record events (.error e)) :
    e = notStarted o.registry.config.helper := by
  generalize same : (.error e : Except SessionError Outcome) = result at h
  cases h with
  | refused _ _ => exact Except.error.inj same
  | shutdown _ _ => cases same
  | reported _ _ =>
    rw [outcome_called] at same
    cases same

theorem cancelled_iff (h : Decided o record events result) :
    result = .ok .cancelled ↔ .shutdown ∈ events := by
  cases h with
  | refused _ quiet => simp [quiet]
  | shutdown _ shut => simp [shut]
  | @reported report _ _ quiet =>
    rw [outcome_called]
    cases report.parameters <;> simp [quiet]

end Decided

end Attempt

end LoginSession

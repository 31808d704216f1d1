import LoginSession.Job.Basic

namespace LoginSession

namespace Job

/-- The way to start a process may be another one at each attempt. -/
inductive Event where
  | setCommand (command : String)
  | execute (spawn : List String → Except SystemFault Child)
  | cancel
  | watch (event : Watch.Event)

inductive Answer where
  | started (words : List String)
  | refused (error : SessionError)
  | cancelled (ended : Bool)

def Answer.isStart : Answer → Bool
  | .started _ => true
  | .refused _ | .cancelled _ => false

def Answer.isEnd : Answer → Bool
  | .cancelled ended => ended
  | .started _ | .refused _ => false

@[simp] theorem Answer.isStart_started (words : List String) : (started words).isStart = true := rfl

@[simp] theorem Answer.isStart_cancelled (ended : Bool) : (cancelled ended).isStart = false := rfl

@[simp] theorem Answer.isEnd_started (words : List String) : (started words).isEnd = false := rfl

@[simp] theorem Answer.isEnd_cancelled (ended : Bool) : (cancelled ended).isEnd = ended := rfl

def execute (j : Job) (spawn : List String → Except SystemFault Child) :
    Except SessionError (List String × Job) :=
  j.start fun words => (spawn words).map (words, ·)

/-- The job after an event and the answer to it; none if the event is not possible now. Only a
cancellation asks the watcher to cancel. -/
def act (j : Job) : Event → Option (Job × List Answer)
  | .setCommand command => some (j.setCommand command, [])
  | .execute spawn =>
    match j.execute spawn with
    | .error e => some (j, [.refused e])
    | .ok (words, next) => some (next, [.started words])
  | .cancel =>
    let (next, ended) := j.requestCancel
    some (next, [.cancelled ended])
  | .watch e => if e = .requestCancel then none else (j.step e).map (·, [])

def run (j : Job) : List Event → Option (Job × List Answer)
  | [] => some (j, [])
  | e :: events =>
    match j.act e with
    | none => none
    | some (next, told) => (next.run events).map fun (final, more) => (final, told ++ more)

/-- What a new job can become, with the record of the answers. -/
inductive Reached (id : Nat) (command : Option String) : Job → List Answer → Prop
  | start : Reached id command { id, command } []
  | step {j next : Job} {record told : List Answer} {e : Event} :
    Reached id command j record → j.act e = some (next, told) →
      Reached id command next (record ++ told)

theorem exists_of_run_cons {j final : Job} {record : List Answer} {e : Event}
    {events : List Event} (ran : j.run (e :: events) = some (final, record)) :
    ∃ next told more, j.act e = some (next, told) ∧ next.run events = some (final, more) ∧
      record = told ++ more := by
  simp only [run] at ran
  split at ran
  · cases ran
  · rename_i next told acted
    obtain ⟨⟨last, more⟩, rest, same⟩ := Option.map_eq_some_iff.1 ran
    cases same
    exact ⟨next, told, more, acted, rest, rfl⟩

theorem Reached.run {id : Nat} {command : Option String} {j final : Job}
    {record told : List Answer} {events : List Event} (reached : Reached id command j record)
    (ran : j.run events = some (final, told)) : Reached id command final (record ++ told) := by
  induction events generalizing j record told with
  | nil =>
    cases ran
    rw [List.append_nil]
    exact reached
  | cons e events ih =>
    obtain ⟨next, first, more, acted, later, rfl⟩ := exists_of_run_cons ran
    rw [← List.append_assoc]
    exact ih (reached.step acted) later

end Job

end LoginSession

import LoginSession.Session.Collections

namespace LoginSession

namespace Sessions

/-- A leader is created without collections. Jobs may be made for other purposes, and take ids. The
way to start a process decides whether a collection can start its helper. A cancellation flags its
leader before it empties the list, and others may act in between. -/
inductive Event (α : Type) where
  | create (leader : Leader)
  | identify (leader : Nat) (identity : Identity)
  | override (leader : Nat) (parameters : List Parameter)
  | newJob (command : Option String)
  | collect (leader : Nat) (context : α) (spawn : List String → Except SystemFault (Unit × Child))
  | watch (job : Nat) (event : Watch.Event)
  | complete (collection : Nat)
  | call (collection : Nat)
  | flag (leader : Nat)
  | cancel (leader : Nat)
  | terminate (cancellation job : Nat)
  | proceed (cancellation : Nat)

/-- Entries of the record. A collection is named by its job. -/
inductive Entry (α : Type) where
  | started (leader job : Nat) (context : α)
  | refused (leader job : Nat)
  | removed (leader job : Nat)
  | drained (leader job : Nat)
  | called (leader job : Nat) (report : Report) (context : α)

def Entry.job {α : Type} : Entry α → Nat
  | .started _ job _ | .refused _ job | .removed _ job | .drained _ job | .called _ job _ _ => job

variable {α : Type}

/-- The sessions after an event, and what it adds to the record; none if it is not possible now.
Only a cancellation asks a watcher to cancel. -/
def step (s : Sessions α) : Event α → Option (Sessions α × List (Entry α))
  | .create leader =>
    if leader.pending = [] ∧ leader.cancelled = false then some ((s.newLeader leader).1, [])
    else none
  | .identify n identity =>
    if n < s.leaders.length then some (s.setLeader n { s.leader n with identity }, []) else none
  | .override n parameters =>
    if n < s.leaders.length then some (s.setLeader n ((s.leader n).setOverrides parameters), [])
    else none
  | .newJob command => some ((s.newJob command).1, [])
  | .collect n context spawn =>
    if n < s.leaders.length then
      match s.collect spawn n context with
      | (next, some _) => some (next, [.started n (s.jobs.length + 1) context])
      | (next, none) => some (next, [.refused n (s.jobs.length + 1)])
    else none
  | .watch id e =>
    if e = .requestCancel then none
    else (s.job? id).bind fun job => (job.step e).map fun job => (s.setJob job, [])
  | .complete n =>
    (s.waiting? n).map fun c =>
      match s.complete n c with
      | (next, true) => (next, [.removed c.leader c.job])
      | (next, false) => (next, [])
  | .call n =>
    (s.due? n).map fun c => (s.call n c, [.called c.leader c.job (s.report c) c.context])
  | .flag n =>
    if n < s.leaders.length then some (s.setLeader n { s.leader n with cancelled := true }, [])
    else none
  | .cancel n =>
    if n < s.leaders.length then
      some (s.cancel n, (s.leader n).pending.map fun id => .drained n id)
    else none
  | .terminate k id => (s.next? k id).map fun (c, job) => (s.terminate k c job, [])
  | .proceed k => (s.ended? k).map fun c => (s.proceed k c, [])

def run (s : Sessions α) : List (Event α) → Option (Sessions α × List (Entry α))
  | [] => some (s, [])
  | e :: events =>
    match s.step e with
    | none => none
    | some (next, added) => (next.run events).map fun (final, more) => (final, added ++ more)

/-- What a run from nothing can lead to, with the record of it. Where several steps are possible any
of them may be taken, so a run is one interleaving of the collections, the helpers, the completions
and the cancellations. -/
inductive Reached : Sessions α → List (Entry α) → Prop
  | start : Reached {} []
  | step {s next : Sessions α} {record added : List (Entry α)} {e : Event α} :
    Reached s record → s.step e = some (next, added) → Reached next (record ++ added)

theorem exists_of_run_cons {s final : Sessions α} {record : List (Entry α)} {e : Event α}
    {events : List (Event α)} (ran : s.run (e :: events) = some (final, record)) :
    ∃ next added more, s.step e = some (next, added) ∧ next.run events = some (final, more) ∧
      record = added ++ more := by
  simp only [run] at ran
  split at ran
  · cases ran
  · rename_i next added st
    obtain ⟨⟨last, more⟩, rest, same⟩ := Option.map_eq_some_iff.1 ran
    cases same
    exact ⟨next, added, more, st, rest, rfl⟩

theorem Reached.run {s next : Sessions α} {record added : List (Entry α)} {events : List (Event α)}
    (reached : Reached s record) (ran : s.run events = some (next, added)) :
    Reached next (record ++ added) := by
  induction events generalizing s record added with
  | nil =>
    cases ran
    rw [List.append_nil]
    exact reached
  | cons e events ih =>
    obtain ⟨middle, first, more, st, later, rfl⟩ := exists_of_run_cons ran
    rw [← List.append_assoc]
    exact ih (reached.step st) later

end Sessions

end LoginSession

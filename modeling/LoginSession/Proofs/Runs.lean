import LoginSession.Proofs.Draining
import LoginSession.Session.Attempt

namespace LoginSession

namespace Sessions

variable {α : Type} {s mid final : Sessions α} {record told more : List (Entry α)}

theorem run_single {e : Event α} (st : s.step e = some (final, told)) :
    s.run [e] = some (final, told) := by
  simp [run, st]

theorem run_trans {before after : List (Event α)} (first : s.run before = some (mid, told))
    (second : mid.run after = some (final, more)) :
    s.run (before ++ after) = some (final, told ++ more) := by
  induction before generalizing s told with
  | nil =>
    cases first
    exact second
  | cons e before ih =>
    obtain ⟨next, added, more, st, rest, rfl⟩ := exists_of_run_cons first
    rw [List.cons_append, run, st]
    simp only [ih rest, Option.map_some, List.append_assoc]

theorem exists_of_run_append {before after : List (Event α)}
    (ran : s.run (before ++ after) = some (final, record)) : ∃ mid told more,
      s.run before = some (mid, told) ∧ mid.run after = some (final, more) ∧
        record = told ++ more := by
  induction before generalizing s record with
  | nil => exact ⟨s, [], record, rfl, ran, rfl⟩
  | cons e before ih =>
    obtain ⟨next, added, later, st, rest, rfl⟩ := exists_of_run_cons ran
    obtain ⟨mid, told, more, first, second, rfl⟩ := ih rest
    refine ⟨mid, added ++ told, more, ?_, second, (List.append_assoc ..).symm⟩
    have joined := run_trans (run_single st) first
    exact joined

theorem exists_of_run_concat {events : List (Event α)} {e : Event α}
    (ran : s.run (events ++ [e]) = some (final, record)) : ∃ mid told added,
      s.run events = some (mid, told) ∧ mid.step e = some (final, added) ∧
        record = told ++ added := by
  obtain ⟨mid, told, more, first, last, rfl⟩ := exists_of_run_append ran
  obtain ⟨next, added, rest, st, done, rfl⟩ := exists_of_run_cons last
  cases done
  exact ⟨mid, told, added, first, st, by rw [List.append_nil]⟩

theorem exists_of_mem_record {events : List (Event α)} {x : Entry α}
    (ran : s.run events = some (final, record)) (member : x ∈ record) :
    ∃ before e after mid told next added more, events = before ++ e :: after ∧
      s.run before = some (mid, told) ∧ mid.step e = some (next, added) ∧ x ∈ added ∧
        next.run after = some (final, more) := by
  induction events generalizing s record with
  | nil =>
    cases ran
    cases member
  | cons e events ih =>
    obtain ⟨next, added, later, st, rest, rfl⟩ := exists_of_run_cons ran
    rcases List.mem_append.1 member with now | afterwards
    · exact ⟨[], e, events, s, [], next, added, later, rfl, rfl, st, now, rest⟩
    · obtain ⟨before, e', after, mid, told, next', added', more, rfl, first, st', inside, last⟩ :=
        ih rest afterwards
      exact ⟨e :: before, e', after, mid, _, next', added', more, rfl,
        run_trans (run_single st) first, st', inside, last⟩

theorem setJob_setJob (s : Sessions α) {first second : Job} (same : first.id = second.id) :
    (s.setJob first).setJob second = s.setJob second := by
  simp only [setJob, List.map_map]
  congr 1
  refine List.map_congr_left fun j _ => ?_
  by_cases mine : j.id = first.id <;> simp [mine, ← same]

theorem Managed.setJob_self (h : Managed s record) {job : Job} (found : s.job? job.id = some job) :
    s.setJob job = s := by
  have same : s.jobs.map (fun j => if j.id = job.id then job else j) = s.jobs := by
    refine (List.map_congr_left fun j hj => ?_).trans (List.map_id _)
    split
    · rename_i mine
      have here := h.job?_of_mem hj
      rw [mine, found] at here
      exact Option.some.inj here
    · rfl
  rw [setJob, same]

theorem Reached.run_watch {job : Job} {r : Running} {watch : Watch} {events : List Watch.Event}
    (reached : Reached s record) (found : s.job? job.id = some job) (started : job.running = some r)
    (silent : .requestCancel ∉ events) (ran : r.watch.run events = some watch) :
    s.run (events.map (.watch job.id)) =
      some (s.setJob { job with running := some { r with watch } }, []) := by
  induction events generalizing s job r record with
  | nil =>
    cases ran
    have same : { job with running := some r } = job := by rw [← started]
    rw [same, (Managed.of_reached reached).setJob_self found]
    rfl
  | cons e events ih =>
    rw [List.mem_cons, not_or] at silent
    obtain ⟨middle, st, rest⟩ := Option.bind_eq_some_iff.1 ran
    have step : s.step (.watch job.id e) =
        some (s.setJob { job with running := some { r with watch := middle } }, []) := by
      simp [Sessions.step, Ne.symm silent.1, found, Job.step, started, st]
    have later := @ih _ _ { job with running := some { r with watch := middle } } _
      (reached.step step) (job?_setJob_self found) rfl silent.2 rest
    rw [setJob_setJob s (by rfl)] at later
    exact run_trans (run_single step) later

end Sessions

namespace Attempt

variable {α : Type} {a mid final : Attempt α}

theorem run_single {e : Event α} (st : a.step e = some final) : a.run [e] = some final := by
  rw [run, List.foldlM_cons, st]
  rfl

theorem run_trans {before after : List (Event α)} (first : a.run before = some mid)
    (second : mid.run after = some final) : a.run (before ++ after) = some final := by
  rw [run, List.foldlM_append]
  exact Option.bind_eq_some_iff.2 ⟨mid, first, second⟩

theorem run_elsewhere {events : List (Sessions.Event α)} {next : Sessions α}
    {added : List (Sessions.Entry α)} (ran : a.sessions.run events = some (next, added))
    (unused : ∀ e ∈ events, e.leader? ≠ some a.leader) :
    a.run (events.map .elsewhere) = some { a with sessions := next } := by
  induction events generalizing a added with
  | nil =>
    cases ran
    rfl
  | cons e events ih =>
    rw [List.forall_mem_cons] at unused
    obtain ⟨middle, first, more, st, rest, -⟩ := Sessions.exists_of_run_cons ran
    have step : a.step (.elsewhere e) = some { a with sessions := middle } := by
      simp [Attempt.step, unused.1, st]
    exact run_trans (run_single step) (ih (a := { a with sessions := middle }) rest unused.2)

end Attempt

end LoginSession

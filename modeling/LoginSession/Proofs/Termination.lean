import LoginSession.Proofs.Ownership
import LoginSession.Proofs.Runs

namespace LoginSession

namespace Watch

variable {w : Watch}

/-- A watcher can come to a state of this kind, and without being asked to cancel. -/
def CanReach (w : Watch) (p : Watch → Prop) : Prop :=
  ∃ events final, .requestCancel ∉ events ∧ w.run events = some final ∧ p final

theorem CanReach.refl {p : Watch → Prop} (h : p w) : w.CanReach p :=
  ⟨[], w, List.not_mem_nil, rfl, h⟩

theorem CanReach.step {p : Watch → Prop} {next : Watch} {e : Event} (unasked : e ≠ .requestCancel)
    (st : w.step e = some next) (h : next.CanReach p) : w.CanReach p := by
  obtain ⟨events, final, silent, ran, holds⟩ := h
  refine ⟨e :: events, final, by simp [silent, unasked.symm], ?_, holds⟩
  exact Option.bind_eq_some_iff.2 ⟨next, st, ran⟩

theorem CanReach.trans {p q : Watch → Prop} (h : w.CanReach p)
    (later : ∀ {next : Watch}, p next → next.CanReach q) : w.CanReach q := by
  obtain ⟨events, next, silent, ran, holds⟩ := h
  obtain ⟨more, final, silent', ran', holds'⟩ := later holds
  refine ⟨events ++ more, final, by simp [silent, silent'], ?_, holds'⟩
  rw [run, List.foldlM_append]
  exact Option.bind_eq_some_iff.2 ⟨next, ran, ran'⟩

theorem canReach_closed (watching : w.stage = .watching) (s : Stream) :
    w.CanReach fun next => next.stage = .watching ∧ (next.capture s).isOpen = false ∧
      (next.capture s.other).isOpen = (w.capture s.other).isOpen := by
  have ends : ∀ {x : Watch}, x.stage = .watching → (x.capture s).isOpen = true →
      x.step (.endOfStream s) = some (x.endRead s (.bytes (x.capture s).taken)) := by
    intro x watching opened
    simp [step, isReading, watching, opened]
  by_cases closed : (w.capture s).isOpen = false
  · exact .refl ⟨watching, closed, rfl⟩
  · rw [Bool.not_eq_false] at closed
    refine .step (by simp) (ends watching closed) ?_
    by_cases last : (w.capture s).taken = 0
    · refine .refl ⟨by simpa using watching, ?_, isOpen_endRead_other _ _ _⟩
      simp [capture_endRead, Capture.endRead, ReadResult.isLast, last]
    · have still : (w.endRead s (.bytes (w.capture s).taken)).stage = .watching := by
        simpa using watching
      have opened : ((w.endRead s (.bytes (w.capture s).taken)).capture s).isOpen = true := by
        simp [capture_endRead, Capture.endRead, ReadResult.isLast, last, closed]
      refine .step (by simp) (ends still opened) (.refl ?_)
      refine ⟨(stage_endRead _ _ _).trans still, ?_, ?_⟩
      · simp [capture_endRead, Capture.endRead, ReadResult.isLast]
      · rw [isOpen_endRead_other, isOpen_endRead_other]

theorem canReach_allClosed (watching : w.stage = .watching) :
    w.CanReach fun next => next.stage = .watching ∧ next.allClosed = true := by
  refine (canReach_closed watching .output).trans fun ⟨watching, output, _⟩ => ?_
  refine (canReach_closed watching .diagnostics).trans fun ⟨watching, diagnostics, same⟩ => ?_
  refine .refl ⟨watching, allClosed_iff.2 fun s => ?_⟩
  cases s with
  | output => exact same.trans output
  | diagnostics => exact diagnostics

theorem canReach_reaped
    (ready : w.stage = .watching ∧ w.allClosed = true ∨ w.stage = .terminating) :
    w.CanReach fun next => next.isFinished = true := by
  have reap : ∀ {x : Watch} {how : Exit}, x.ended = some how →
      (x.stage = .watching ∧ x.allClosed = true ∨ x.stage = .terminating) →
      x.CanReach fun next => next.isFinished = true := by
    rintro x how ended (⟨watching, closed⟩ | terminating)
    · have st := step_of_moves (.complete watching closed ended)
      exact .step (by simp) st (.refl rfl)
    · have st := step_of_moves (.reapTerminated terminating ended)
      exact .step (by simp) st (.refl rfl)
  cases ended : w.ended with
  | some how => exact reap ended ready
  | none =>
    have ends : w.step (.helperEnds (.exited 0)) = some { w with ended := some (.exited 0) } :=
      step_of_moves (.helperEnds ended)
    exact .step (by simp) ends (reap rfl ready)

theorem canReach_isFinished (w : Watch) : w.CanReach fun next => next.isFinished = true := by
  cases stage : w.stage with
  | watching =>
    exact (canReach_allClosed stage).trans fun ready => canReach_reaped (.inl ready)
  | terminating => exact canReach_reaped (.inr stage)
  | completed how => exact .refl (by simp [isFinished, stage])
  | cancelled => exact .refl (by simp [isFinished, stage])

end Watch

namespace Sessions

variable {α : Type} {s next : Sessions α} {record added : List (Entry α)} {e : Event α}

theorem cancellations_terminate (s : Sessions α) (k : Nat) (c : Cancellation) (job : Job) :
    (s.terminate k c job).cancellations = s.cancellations.set k { c with
      left := c.left.erase job.id
      awaited := if job.isRunning then some job.id else none } := by
  rw [← Job.requestCancel_snd]
  rfl

def AwaitsStarted (s : Sessions α) : Prop :=
  ∀ c ∈ s.cancellations, ∀ id, c.awaited = some id → s.Has Job.isStarted id

theorem AwaitsStarted.step (h : s.AwaitsStarted) (managed : Managed s record)
    (st : s.step e = some (next, added)) : next.AwaitsStarted := by
  have moves := moves_of_step st
  have kept : ∀ {id}, s.Has Job.isStarted id → next.Has Job.isStarted id := by
    rintro id ⟨job, found, started⟩
    exact moves.has lasting_isStarted Job.isStarted_requestCancel (managed.le_of_job? found)
      ⟨job, found, started⟩
  intro c member id awaited
  cases moves with
  | cancel _ =>
    rcases List.mem_append.1 member with before | now
    · exact kept (h c before id awaited)
    · rw [List.mem_singleton.1 now] at awaited
      cases awaited
  | @terminate k c' job here found _ _ =>
    rw [cancellations_terminate] at member
    rcases List.mem_or_eq_of_mem_set member with before | rfl
    · exact kept (h c before id awaited)
    · obtain ⟨running, same⟩ := Option.ite_none_right_eq_some.1 awaited
      obtain rfl := Option.some.inj same
      rw [Job.isRunning, Bool.and_eq_true] at running
      exact kept ⟨job, found, Job.isStarted_of_isTracked running.1⟩
  | proceed _ _ _ =>
    rcases List.mem_or_eq_of_mem_set member with before | rfl
    · exact kept (h c before id awaited)
    · cases awaited
  | create _ _ | identify _ | override _ | newJob | start _ | refuse _ | watch _ _ _
  | remove _ _ _ _ _ | drop _ _ _ _ _ | call _ _ _ | flag _ => exact kept (h c member id awaited)

theorem awaitsStarted (reached : Reached s record) : s.AwaitsStarted := by
  induction reached with
  | start => simp [AwaitsStarted]
  | step before st ih => exact ih.step (.of_reached before) st

/-- The sessions can come to a state of this kind, and without any operation of a leader. -/
def CanReach (s : Sessions α) (p : Sessions α → Prop) : Prop :=
  ∃ events final added, s.run events = some (final, added) ∧ (∀ e ∈ events, e.leader? = none) ∧
    p final

theorem CanReach.refl {p : Sessions α → Prop} (h : p s) : s.CanReach p :=
  ⟨[], s, [], rfl, by simp, h⟩

theorem CanReach.single {p : Sessions α → Prop} (st : s.step e = some (next, added))
    (free : e.leader? = none) (h : p next) : s.CanReach p :=
  ⟨[e], next, added, run_single st, by simpa using free, h⟩

theorem CanReach.trans {p q : Sessions α → Prop} (h : s.CanReach p) (reached : Reached s record)
    (later : ∀ {next record}, Reached next record → p next → next.CanReach q) : s.CanReach q := by
  obtain ⟨events, next, added, ran, free, holds⟩ := h
  obtain ⟨more, final, told, ran', free', holds'⟩ := later (reached.run ran) holds
  refine ⟨events ++ more, final, added ++ told, run_trans ran ran', fun e member => ?_, holds'⟩
  exact (List.mem_append.1 member).elim (free e) (free' e)

theorem canReach_isFinished (reached : Reached s record) {id : Nat} (has : s.Has Job.isStarted id) :
    s.CanReach fun next => next.Has Job.isFinished id ∧ next.leaders = s.leaders ∧
      next.collections = s.collections ∧ next.cancellations = s.cancellations := by
  obtain ⟨job, found, started⟩ := has
  obtain rfl := id_of_job? found
  obtain ⟨r, running⟩ := Option.isSome_iff_exists.1 started
  obtain ⟨events, watch, silent, ran, done⟩ := r.watch.canReach_isFinished
  refine ⟨_, _, [], reached.run_watch found running silent ran, ?_, ?_, rfl, rfl, rfl⟩
  · intro e member
    obtain ⟨event, -, rfl⟩ := List.mem_map.1 member
    rfl
  · let moved : Job := { job with running := some { r with watch } }
    exact ⟨moved, @job?_setJob_self _ _ moved _ found, by simpa [Job.isFinished, moved] using done⟩

theorem canReach_proceeded (reached : Reached s record) {k : Nat} {c : Cancellation}
    (here : s.cancellations[k]? = some c) :
    s.CanReach fun next => next.cancellations[k]? = some { c with awaited := none } := by
  cases awaited : c.awaited with
  | none =>
    refine .refl (here.trans ?_)
    rw [← awaited]
  | some id =>
    have started := awaitsStarted reached c (List.mem_of_getElem? here) id awaited
    refine (canReach_isFinished reached started).trans reached ?_
    rintro next _ - ⟨⟨job, found, done⟩, -, -, same⟩
    have ended : next.ended? k = some c := by
      simp [ended?, same, here, awaited, isJobFinished, found, done]
    have st : next.step (.proceed k) = some (next.proceed k c, []) := by
      rw [step, ended]
      rfl
    refine .single st rfl ?_
    rw [proceed, setCancellation, same, List.getElem?_set_self (List.getElem?_eq_some_iff.1 here).1]

theorem canReach_isOver (reached : Reached s record) {k : Nat} {c : Cancellation}
    (here : s.cancellations[k]? = some c) :
    s.CanReach fun next => ∃ c', next.cancellations[k]? = some c' ∧ c'.isOver = true := by
  -- each round waits for the job that is awaited and then terminates one of those that are left
  induction length : c.left.length generalizing s record c with
  | zero =>
    refine (canReach_proceeded reached here).trans reached fun _ now => .refl ⟨_, now, ?_⟩
    simp [Cancellation.isOver, List.length_eq_zero_iff.1 length]
  | succ count ih =>
    refine (canReach_proceeded reached here).trans reached fun {next record} reached now => ?_
    obtain ⟨id, left, same⟩ := List.exists_cons_of_length_eq_add_one length
    have inside : id ∈ c.left := by simp [same]
    obtain ⟨job, found, -⟩ := (Managed.of_reached reached).leftTracked _
      (List.mem_of_getElem? now) id inside
    have ready : next.next? k id = some ({ c with awaited := none }, job) := by
      simp [next?, now, found, inside]
    have st : next.step (.terminate k id) =
        some (next.terminate k { c with awaited := none } job, []) := by
      rw [step, ready]
      rfl
    have terminated : (next.terminate k { c with awaited := none } job).cancellations[k]? = some
        { c with
          left := c.left.erase job.id
          awaited := if job.isRunning then some job.id else none } := by
      rw [cancellations_terminate, List.getElem?_set_self (List.getElem?_eq_some_iff.1 now).1]
    have fewer : (c.left.erase job.id).length = count := by
      rw [id_of_job? found, List.length_erase_of_mem inside, length, Nat.add_sub_cancel]
    obtain ⟨events, final, added, ran, free, ended⟩ := ih (reached.step st) terminated fewer
    exact ⟨.terminate k id :: events, final, _, run_trans (run_single st) ran,
      List.forall_mem_cons.2 ⟨rfl, free⟩, ended⟩

theorem ending_setCollection {k : Nat} {c c' : Collection α} (here : s.collections[k]? = some c) :
    (s.setCollection k c').ending k = c'.ending := by
  rw [ending, setCollection, List.getElem?_set_self (List.getElem?_eq_some_iff.1 here).1]
  rfl

theorem canReach_called {k : Nat} {c : Collection α} (here : s.collections[k]? = some c)
    (waiting : c.ending = .waiting) (claimed : c.claimed = true) :
    s.CanReach fun next => next.ending k ≠ .waiting := by
  have due : s.due? k = some c := by simp [due?, here, waiting, claimed]
  have st : s.step (.call k) =
      some (s.call k c, [.called c.leader c.job (s.report c) c.context]) := by
    rw [step, due]
    rfl
  refine .single st rfl ?_
  rw [call, ending_setCollection here]
  simp

theorem canReach_reported (reached : Reached s record) {k : Nat} {c : Collection α}
    (here : s.collections[k]? = some c) (waiting : c.ending = .waiting)
    (unclaimed : c.claimed = false) (inside : s.InFlight c) :
    s.CanReach fun next => next.ending k ≠ .waiting := by
  obtain ⟨job, found, tracked⟩ := (Managed.of_reached reached).tracked c.leader c.job inside
  have started : s.Has Job.isStarted c.job := ⟨job, found, Job.isStarted_of_isTracked tracked⟩
  refine (canReach_isFinished reached started).trans reached ?_
  rintro next record' - ⟨⟨done, there, finished⟩, leaders, collections, -⟩
  have leader : next.leader c.leader = s.leader c.leader := by
    rw [Sessions.leader, Sessions.leader, leaders]
  have here' : next.collections[k]? = some c := by rw [collections, here]
  have waits : next.waiting? k = some c := by
    simp [waiting?, here', waiting, unclaimed, isJobFinished, there, finished]
  have removed : (next.leader c.leader).remove? c.job = some
      { s.leader c.leader with pending := (s.leader c.leader).pending.erase c.job } := by
    rw [leader]
    exact if_pos inside
  let claimed := (next.setLeader c.leader { s.leader c.leader with
    pending := (s.leader c.leader).pending.erase c.job }).setCollection k { c with claimed := true }
  have st : next.step (.complete k) = some (claimed, [.removed c.leader c.job]) := by
    simp [step, waits, complete, removed, claimed]
  have now : claimed.collections[k]? = some { c with claimed := true } :=
    List.getElem?_set_self (List.getElem?_eq_some_iff.1 here').1
  obtain ⟨events, final, added, ran, free, ended⟩ := canReach_called now waiting rfl
  exact ⟨.complete k :: events, final, _, run_trans (run_single st) ran,
    List.forall_mem_cons.2 ⟨rfl, free⟩, ended⟩

theorem Owned.canReach_ended {n id place m : Nat} {overrides : Overrides} {seen : List Watch.Event}
    {context : α} (h : Owned s record n id place overrides seen)
    (started : .started m id context ∈ record) (undrained : ∀ m, .drained m id ∉ record) :
    s.CanReach fun next => next.ending place ≠ .waiting := by
  obtain ⟨c, here, same⟩ := h.here
  obtain ⟨rfl, rfl⟩ := Prod.mk.inj same
  have first := mem_history.2 ⟨started, rfl⟩
  cases (Accounted.of_reached h.reached).life c (List.mem_of_getElem? here) with
  | refused _ _ told => simp [Entry.job, told] at first
  | drained _ _ _ told =>
    have drained : .drained c.leader c.job ∈ history record c.job := by simp [told]
    exact absurd (mem_history.1 drained).1 (undrained _)
  | running waiting unclaimed inside _ =>
    exact canReach_reported h.reached here waiting unclaimed inside
  | due waiting claimed _ _ => exact canReach_called here waiting claimed
  | reported called _ _ => exact .refl (by simp [ending, here, called])

end Sessions

end LoginSession

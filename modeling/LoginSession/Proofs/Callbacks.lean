import LoginSession.Proofs.Draining

namespace LoginSession

namespace Sessions

variable {α : Type} {s next : Sessions α} {record added : List (Entry α)} {e : Event α}

def Entry.isCall : Entry α → Bool
  | .called _ _ _ _ => true
  | _ => false

def calls (record : List (Entry α)) (id : Nat) : List (Entry α) :=
  (history record id).filter (·.isCall)

namespace Accounted

theorem length_calls_le_one (h : Accounted s record) (id : Nat) : (calls record id).length ≤ 1 := by
  by_cases known : ∃ c ∈ s.collections, c.job = id
  · obtain ⟨c, hc, rfl⟩ := known
    rw [calls]
    cases h.life c hc with
    | refused _ _ told | running _ _ _ told | drained _ _ _ told | due _ _ _ told
    | reported _ _ told => simp [told, Entry.isCall]
  · have none : history record id = [] := by
      refine history_of_forall_ne fun x hx same => known ?_
      obtain ⟨c, hc, job⟩ := h.named x hx
      exact ⟨c, hc, job.trans same⟩
    simp [calls, none]

theorem of_called (h : Accounted s record) {n id : Nat} {report : Report} {context : α}
    (called : .called n id report context ∈ record) :
    .started n id context ∈ record ∧ .removed n id ∈ record := by
  obtain ⟨c, -, rfl, here, life⟩ := h.exists_life called
  cases life with
  | refused _ _ told | running _ _ _ told | drained _ _ _ told | due _ _ _ told =>
    simp [told] at here
  | reported _ _ told =>
    have started : .started c.leader c.job c.context ∈ history record c.job := by simp [told]
    have removed : .removed c.leader c.job ∈ history record c.job := by simp [told]
    simp only [told, List.mem_cons, reduceCtorEq, false_or, List.not_mem_nil, or_false,
      Entry.called.injEq] at here
    obtain ⟨rfl, -, -, rfl⟩ := here
    exact ⟨(mem_history.1 started).1, (mem_history.1 removed).1⟩

theorem of_removed (h : Accounted s record) {n id : Nat} (removed : .removed n id ∈ record) :
    ∃ report context, .called n id report context ∈ record ∨
      ∃ k next, s.step (.call k) = some (next, [.called n id report context]) := by
  obtain ⟨c, hc, rfl, here, life⟩ := h.exists_life removed
  cases life with
  | refused _ _ told | running _ _ _ told | drained _ _ _ told => simp [told] at here
  | due waiting claimed _ told =>
    obtain rfl : n = c.leader := by simpa [told] using here
    obtain ⟨k, there⟩ := List.getElem?_of_mem hc
    refine ⟨s.report c, c.context, .inr ⟨k, s.call k c, ?_⟩⟩
    simp [Sessions.step, due?, there, waiting, claimed]
  | @reported report _ _ told =>
    obtain rfl : n = c.leader := by simpa [told] using here
    have called : .called c.leader c.job report c.context ∈ history record c.job := by simp [told]
    exact ⟨report, c.context, .inl (mem_history.1 called).1⟩

theorem calls_of_drained (h : Accounted s record) {n id : Nat} (drained : .drained n id ∈ record) :
    calls record id = [] := by
  obtain ⟨c, -, rfl, here, life⟩ := h.exists_life drained
  cases life with
  | refused _ _ told | running _ _ _ told | due _ _ _ told | reported _ _ told =>
    simp [told] at here
  | drained _ _ _ told =>
    simp [calls, told, Entry.isCall]

theorem calls_of_refused (h : Accounted s record) {n id : Nat} (refused : .refused n id ∈ record) :
    calls record id = [] := by
  obtain ⟨c, -, rfl, here, life⟩ := h.exists_life refused
  cases life with
  | running _ _ _ told | drained _ _ _ told | due _ _ _ told | reported _ _ told =>
    simp [told] at here
  | refused _ _ told =>
    simp [calls, told, Entry.isCall]

theorem drained_of_dropped (h : Accounted s record) {c : Collection α} (member : c ∈ s.collections)
    (dropped : c.ending = .dropped) {n : Nat} {context : α}
    (started : .started n c.job context ∈ record) : .drained c.leader c.job ∈ record := by
  have first := mem_history.2 ⟨started, rfl⟩
  cases h.life c member with
  | refused _ _ told => simp [told, Entry.job] at first
  | drained _ _ _ told =>
    have last : .drained c.leader c.job ∈ history record c.job := by simp [told]
    exact (mem_history.1 last).1
  | running waiting _ _ _ | due waiting _ _ _ =>
    rw [dropped] at waiting
    cases waiting
  | reported called _ _ =>
    rw [dropped] at called
    cases called

theorem leader_of_drained (h : Accounted s record) {m n id : Nat} {context : α}
    (started : .started n id context ∈ record) (drained : .drained m id ∈ record) : m = n := by
  obtain ⟨c, -, rfl, first, life⟩ := h.exists_life started
  have last := mem_history.2 ⟨drained, rfl⟩
  simp only [Entry.job] at first last
  cases life with
  | drained _ _ _ told =>
    simp only [told, List.mem_cons, Entry.started.injEq, reduceCtorEq, List.not_mem_nil,
      Entry.drained.injEq, or_false, false_or] at first last
    rw [first.1, last.1]
  | refused _ _ told | running _ _ _ told | due _ _ _ told | reported _ _ told =>
    simp [told] at last

theorem exists_complete (h : Accounted s record) {n id : Nat} (inside : id ∈ (s.leader n).pending)
    (done : s.isJobFinished id = true) :
    ∃ k next, s.step (.complete k) = some (next, [.removed n id]) := by
  obtain ⟨c, hc, rfl, rfl⟩ := h.owned n id inside
  obtain ⟨waiting, unclaimed, -⟩ := (h.life c hc).running_of_inFlight inside
  obtain ⟨k, there⟩ := List.getElem?_of_mem hc
  have removed : (s.leader c.leader).remove? c.job =
      some { s.leader c.leader with pending := (s.leader c.leader).pending.erase c.job } := by
    rw [Leader.remove?, if_pos inside]
  refine ⟨k, (s.complete k c).1, ?_⟩
  simp [Sessions.step, waiting?, complete, there, waiting, unclaimed, done, removed]

end Accounted

theorem Managed.isFinished_of_isOver (h : Managed s record) {c : Cancellation}
    (hc : c ∈ s.cancellations) (ended : c.isOver = true) :
    ∀ id ∈ c.drained, s.Has Job.isFinished id := by
  intro id member
  simp only [Cancellation.isOver, Bool.and_eq_true, List.isEmpty_iff,
    Option.isNone_iff_eq_none] at ended
  rcases h.ending c hc id member with left | ⟨awaited, -⟩ | done
  · rw [ended.1] at left
    cases left
  · rw [ended.2] at awaited
    cases awaited
  · exact done

theorem exists_of_mem_added (st : s.step e = some (next, added)) {n id : Nat} :
    (.removed n id ∈ added → ∃ k c, e = .complete k ∧ s.collections[k]? = some c ∧
      c.leader = n ∧ c.job = id) ∧
    ∀ {report : Report} {context : α}, .called n id report context ∈ added →
      ∃ k c, e = .call k ∧ s.collections[k]? = some c ∧ c.leader = n ∧ c.job = id ∧
        c.claimed = true ∧ report = s.report c := by
  cases moves_of_step st with
  | @remove k c _ here _ _ _ _ =>
    refine ⟨fun member => ?_, by simp⟩
    simp only [List.mem_singleton, Entry.removed.injEq] at member
    exact ⟨k, c, rfl, here, member.1.symm, member.2.symm⟩
  | @call k c here _ claimed =>
    refine ⟨by simp, fun member => ?_⟩
    simp only [List.mem_singleton, Entry.called.injEq] at member
    exact ⟨k, c, rfl, here, member.1.symm, member.2.1.symm, claimed, member.2.2.1⟩
  | create _ _ | identify _ | override _ | newJob | start _ | refuse _ | watch _ _ _
  | drop _ _ _ _ _ | flag _ | cancel _ | terminate _ _ _ _ | proceed _ _ _ => simp

theorem collect_step {n : Nat} {context : α}
    {spawn : List String → Except SystemFault (Unit × Child)} (accounted : Accounted s record)
    (st : s.step (.collect n context spawn) = some (next, added)) :
    (added = [.started n (s.jobs.length + 1) context] ∧
      (∀ m, s.jobs.length + 1 ∉ (s.leader m).pending) ∧
      ∀ m, next.leader m =
        if m = n then { s.leader n with pending := (s.leader n).pending ++ [s.jobs.length + 1] }
        else s.leader m) ∨
    (added = [.refused n (s.jobs.length + 1)] ∧ next.leaders = s.leaders) := by
  cases moves_of_step st with
  | start known =>
    exact .inl ⟨rfl, accounted.not_mem_pending_of_lt (Nat.lt_succ_self _), leader_started known _ _⟩
  | refuse _ => exact .inr ⟨rfl, rfl⟩

theorem cancel_step {n : Nat} (st : s.step (.cancel n) = some (next, added)) :
    added = ((s.leader n).pending.map fun id => .drained n id) ∧
      next.cancellations = s.cancellations ++
        [{ leader := n, drained := (s.leader n).pending, left := (s.leader n).pending }] ∧
      ∀ m, next.leader m =
        if m = n then { s.leader n with pending := [], cancelled := true } else s.leader m := by
  cases moves_of_step st with
  | cancel known => exact ⟨rfl, rfl, leader_cancel known⟩

theorem eq_cancel_of_drained (st : s.step e = some (next, added)) {n id : Nat}
    (drained : .drained n id ∈ added) : e = .cancel n := by
  cases moves_of_step st with
  | cancel _ =>
    obtain ⟨_, -, same⟩ := List.mem_map.1 drained
    rw [(Entry.drained.inj same).1]
  | create _ _ | identify _ | override _ | newJob | start _ | refuse _ | watch _ _ _
  | remove _ _ _ _ _ | drop _ _ _ _ _ | call _ _ _ | flag _ | terminate _ _ _ _
  | proceed _ _ _ => simp at drained

/-- What there is to say of the callbacks after any run. -/
structure Accounts (s : Sessions α) (record : List (Entry α)) : Prop where
  inFlight : ∀ n id, id ∈ (s.leader n).pending ↔ (∃ context, .started n id context ∈ record) ∧
    (∀ m, .removed m id ∉ record) ∧ ∀ m, .drained m id ∉ record
  once : ∀ n, (s.leader n).pending.Nodup
  /-- A start overwrites nothing and calls nothing; one that fails touches no leader. -/
  collect : ∀ n context spawn next added,
    s.step (.collect n context spawn) = some (next, added) →
      (added = [.started n (s.jobs.length + 1) context] ∧
        (∀ m, s.jobs.length + 1 ∉ (s.leader m).pending) ∧
        ∀ m, next.leader m =
          if m = n then { s.leader n with pending := (s.leader n).pending ++ [s.jobs.length + 1] }
          else s.leader m) ∨
      (added = [.refused n (s.jobs.length + 1)] ∧ next.leaders = s.leaders)
  refused : ∀ n id, .refused n id ∈ record → calls record id = []
  calledOnce : ∀ id, (calls record id).length ≤ 1
  called : ∀ n id report context, .called n id report context ∈ record →
    .started n id context ∈ record ∧ .removed n id ∈ record
  /-- Nobody but its own completion removes a collection or calls its callback. -/
  own : ∀ e next added, s.step e = some (next, added) → ∀ n id,
    (.removed n id ∈ added → ∃ k c, e = .complete k ∧ s.collections[k]? = some c ∧
      c.leader = n ∧ c.job = id) ∧
    ∀ report context, .called n id report context ∈ added →
      ∃ k c, e = .call k ∧ s.collections[k]? = some c ∧ c.leader = n ∧ c.job = id ∧
        c.claimed = true ∧ report = s.report c
  /-- A collection in flight whose job is done can be removed, and a removed one be called. -/
  completes : ∀ n, ∀ id ∈ (s.leader n).pending, s.isJobFinished id = true →
    ∃ k next, s.step (.complete k) = some (next, [.removed n id])
  removed : ∀ n id, .removed n id ∈ record → ∃ report context,
    .called n id report context ∈ record ∨
      ∃ k next, s.step (.call k) = some (next, [.called n id report context])
  drained : ∀ n id, .drained n id ∈ record → calls record id = []
  cancel : ∀ n next added, s.step (.cancel n) = some (next, added) →
    added = ((s.leader n).pending.map fun id => .drained n id) ∧
      next.cancellations = s.cancellations ++
        [{ leader := n, drained := (s.leader n).pending, left := (s.leader n).pending }] ∧
      ∀ m, next.leader m =
        if m = n then { s.leader n with pending := [], cancelled := true } else s.leader m
  /-- After a cancellation all that it has drained is done and will never be called. -/
  cancelled : ∀ c ∈ s.cancellations, c.isOver = true → (s.leader c.leader).cancelled = true ∧
    ∀ id ∈ c.drained, s.Has Job.isFinished id ∧ (∀ m, id ∉ (s.leader m).pending) ∧
      calls record id = []

theorem accounts (reached : Reached s record) : Accounts s record := by
  have accounted := Accounted.of_reached reached
  have managed := Managed.of_reached reached
  refine { inFlight := accounted.mem_pending_iff, once := accounted.once
           collect := fun _ _ _ _ _ st => collect_step accounted st
           refused := fun _ _ => accounted.calls_of_refused
           calledOnce := accounted.length_calls_le_one
           called := fun _ _ _ _ => accounted.of_called
           own := fun _ _ _ st _ _ => ?_
           completes := fun _ _ => accounted.exists_complete
           removed := fun _ _ => accounted.of_removed
           drained := fun _ _ => accounted.calls_of_drained
           cancel := fun _ _ _ => cancel_step
           cancelled := fun c hc ended => ⟨managed.flagged c hc, fun id member => ?_⟩ }
  · obtain ⟨removes, calls⟩ := exists_of_mem_added st
    exact ⟨removes, fun _ _ => calls⟩
  · have drained := managed.recorded c hc id member
    refine ⟨managed.isFinished_of_isOver hc ended id member, fun m inside => ?_,
      accounted.calls_of_drained drained⟩
    exact ((accounted.mem_pending_iff m id).1 inside).2.2 c.leader drained

def endsAtOnce (job : Nat) : List (Event Nat) :=
  [.watch job (.helperEnds (.exited 0)), .watch job (.endOfStream .output),
    .watch job (.endOfStream .diagnostics), .watch job .reap]

/-- Two helpers have ended when the leader is cancelled, but only the first of them has been removed
by its completion; a third could not be started and a fourth is running. -/
def racedEvents : List (Event Nat) :=
  let spawn := fun _ => .ok ((), { process := 1, output := 2, diagnostics := 3 })
  [.create {}, .collect 0 7 spawn, .collect 0 8 spawn,
    .collect 0 9 fun _ => .error (.kind .notFound), .collect 0 10 spawn] ++
    endsAtOnce 1 ++ endsAtOnce 2 ++
    [.complete 0, .flag 0, .cancel 0, .terminate 0 4, .watch 4 .noticeCancel,
      .watch 4 (.helperEnds (.signaled 15)), .watch 4 .reap, .proceed 0, .terminate 0 2, .call 0,
      .complete 1, .complete 3]

theorem accounts_raced : ∃ s record, Reached s record ∧
    record = [.started 0 1 7, .started 0 2 8, .refused 0 3, .started 0 4 10, .removed 0 1,
      .drained 0 2, .drained 0 4, .called 0 1 ⟨some {}, {}, true⟩ 7] ∧
    calls record 2 = [] ∧ calls record 3 = [] ∧ s.Has Job.isFinished 4 := by
  have told : (({} : Sessions Nat).run racedEvents).map (fun r => (r.2, r.1.cancellations)) =
      some ([.started 0 1 7, .started 0 2 8, .refused 0 3, .started 0 4 10, .removed 0 1,
        .drained 0 2, .drained 0 4, .called 0 1 ⟨some {}, {}, true⟩ 7],
        [{ leader := 0, drained := [2, 4], left := [] }]) := rfl
  obtain ⟨⟨s, record⟩, ran, same⟩ := Option.map_eq_some_iff.1 told
  obtain ⟨rfl, ended⟩ := Prod.mk.inj same
  have books := accounts (Reached.start.run ran)
  have present : { leader := 0, drained := [2, 4], left := [] } ∈ s.cancellations :=
    List.mem_of_getElem? (i := 0) (congrArg (·[0]?) ended)
  refine ⟨s, _, Reached.start.run ran, rfl, books.drained 0 2 (by simp),
    books.refused 0 3 (by simp), ?_⟩
  exact ((books.cancelled _ present rfl).2 4 (by simp)).1

end Sessions

end LoginSession

import LoginSession.Proofs.Callbacks
import LoginSession.Proofs.Footprint

namespace LoginSession

theorem Leader.result_congr {l l' : Leader} (same : l'.overrides = l.overrides) (how : Option Exit)
    (report : String) : l'.result how report = l.result how report := by
  simp only [result, merge, same]

namespace Sessions

variable {α : Type} {s next : Sessions α} {record added : List (Entry α)} {e : Event α}
  {n id place : Nat} {overrides : Overrides} {seen : List Watch.Event}

/-- The helper of a job has gone through these events, and its callback was told what came of it. -/
structure Followed (s : Sessions α) (record : List (Entry α)) (n id : Nat)
    (seen : List Watch.Event) (job : Job) (r : Running) : Prop where
  found : s.job? id = some job
  running : job.running = some r
  unasked : .requestCancel ∉ seen
  ran : ({} : Watch).run seen = some r.watch
  told : ∀ {m report context}, .called m id report context ∈ record → r.watch.isFinished = true ∧
    report.parameters = (s.leader n).result r.watch.completion? r.watch.output.text

/-- A leader has this collection and no other. -/
structure Owned (s : Sessions α) (record : List (Entry α)) (n id place : Nat)
    (overrides : Overrides) (seen : List Watch.Event) : Prop where
  reached : Reached s record
  known : n < s.leaders.length
  overridden : (s.leader n).overrides = overrides
  here : ∃ c, s.collections[place]? = some c ∧ (c.leader, c.job) = (n, id)
  alone : ∀ i ∈ (s.leader n).pending, i = id
  found : ∃ job, s.job? id = some job
  removed : ∀ m, .removed m id ∈ record → s.Has Job.isFinished id
  followed : ∀ {m context}, .started m id context ∈ record → (∀ m, .drained m id ∉ record) →
    ∃ job r, Followed s record n id seen job r

theorem Accounted.not_mem_of_job (h : Accounted s record) {x : Entry α}
    (fresh : x.job = s.jobs.length + 1) : x ∉ record := by
  intro member
  obtain ⟨c, hc, job⟩ := h.named x member
  have old := h.numbered c hc
  omega

namespace Accounted

theorem not_refused_of_started (h : Accounted s record) {m m' : Nat} {context : α}
    (started : .started m id context ∈ record) : .refused m' id ∉ record := by
  intro refused
  obtain ⟨c, -, rfl, here, life⟩ := h.exists_life started
  have there := mem_history.2 ⟨refused, rfl⟩
  simp only [Entry.job] at here there
  cases life with
  | refused _ _ told => simp [told] at here
  | running _ _ _ told | drained _ _ _ told | due _ _ _ told | reported _ _ told =>
    simp [told] at there

theorem refused_iff (h : Accounted s record) {m : Nat} {context : α} {can : Prop}
    (begun : can ∧ .started m id context ∈ record ∨ ¬can ∧ .refused m id ∈ record) :
    .refused m id ∈ record ↔ ¬can := by
  rcases begun with ⟨can, started⟩ | ⟨cannot, refused⟩
  · exact iff_of_false (h.not_refused_of_started started) (not_not_intro can)
  · exact iff_of_true refused cannot

theorem undrained_of_called (h : Accounted s record) {m : Nat} {report : Report} {context : α}
    (called : .called m id report context ∈ record) (m' : Nat) : .drained m' id ∉ record := by
  intro drained
  have silent := h.calls_of_drained drained
  have told : .called m id report context ∈ calls record id := by
    rw [calls, List.mem_filter, mem_history]
    exact ⟨⟨called, rfl⟩, rfl⟩
  simp [silent] at told

end Accounted

namespace Owned

variable {context : α}

theorem of_started {child : Child} (reached : Reached s record) (known : n < s.leaders.length)
    (empty : (s.leader n).pending = []) (next : Reached (s.started n context child)
      (record ++ [.started n (s.jobs.length + 1) context])) :
    Owned (s.started n context child) (record ++ [.started n (s.jobs.length + 1) context]) n
      (s.jobs.length + 1) s.collections.length (s.leader n).overrides [] := by
  have leader := leader_started known context child n
  rw [if_pos rfl] at leader
  have made := (Managed.of_reached reached).job?_newJob_self (some (s.leader n).command)
  let job : Job :=
    { id := s.jobs.length + 1, command := some (s.leader n).command, running := some { child } }
  have found : (s.started n context child).job? (s.jobs.length + 1) = some job :=
    @job?_setJob_self _ _ job _ made
  have fresh := fun {x} => (Accounted.of_reached reached).not_mem_of_job (x := x)
  exact {
    reached := next
    known := Nat.lt_of_lt_of_eq known List.length_set.symm
    overridden := by
      rw [leader]
      rfl
    here := ⟨_, List.getElem?_concat_length, rfl⟩
    alone := by simp [leader, Leader.track, empty]
    found := ⟨job, found⟩
    removed := by simp [fresh (x := .removed _ _) rfl]
    followed := fun _ _ => ⟨job, { child }, found, rfl, List.not_mem_nil, rfl, by
      simp [fresh (x := .called _ _ _ _) rfl]⟩ }

theorem of_refused (reached : Reached s record) (known : n < s.leaders.length)
    (empty : (s.leader n).pending = []) (next : Reached (s.refused n context)
      (record ++ [.refused n (s.jobs.length + 1)])) :
    Owned (s.refused n context) (record ++ [.refused n (s.jobs.length + 1)]) n
      (s.jobs.length + 1) s.collections.length (s.leader n).overrides [] := by
  have same : (s.refused n context).leader n = s.leader n := rfl
  have found := (Managed.of_reached reached).job?_newJob_self (some (s.leader n).command)
  have fresh := fun {x} => (Accounted.of_reached reached).not_mem_of_job (x := x)
  exact {
    reached := next
    known := known
    overridden := congrArg _ same
    here := ⟨_, List.getElem?_concat_length, rfl⟩
    alone := by simp [same, empty]
    found := ⟨_, found⟩
    removed := by simp [fresh (x := .removed _ _) rfl]
    followed := by simp [fresh (x := .started _ _ _) rfl] }

theorem old (h : Owned s record n id place overrides seen) : id ≤ s.jobs.length := by
  obtain ⟨job, found⟩ := h.found
  exact (Managed.of_reached h.reached).le_of_job? found

theorem eq_of_job (h : Owned s record n id place overrides seen) {c : Collection α}
    (member : c ∈ s.collections) (job : c.job = id) : c.leader = n := by
  obtain ⟨own, here, same⟩ := h.here
  obtain ⟨leader, job'⟩ := Prod.mk.inj same
  have equal := (Accounted.of_reached h.reached).eq_of_job member (List.mem_of_getElem? here)
    (job.trans job'.symm)
  rw [equal, leader]

theorem started_of_mem_added (h : Owned s record n id place overrides seen)
    (st : s.step e = some (next, added)) {m : Nat} {context : α}
    (started : .started m id context ∈ record ++ added) : .started m id context ∈ record := by
  refine (List.mem_append.1 started).resolve_right fun now => ?_
  have old := h.old
  cases moves_of_step st with
  | start _ =>
    simp only [List.mem_singleton, Entry.started.injEq] at now
    omega
  | create _ _ | identify _ | override _ | newJob | refuse _ | watch _ _ _ | remove _ _ _ _ _
  | drop _ _ _ _ _ | call _ _ _ | flag _ | cancel _ | terminate _ _ _ _ | proceed _ _ _ =>
    simp at now

theorem drained_of_mem_added (h : Owned s record n id place overrides seen)
    (st : s.step e = some (next, added)) {m : Nat} (drained : .drained m id ∈ added) :
    e = .cancel n ∧ id ∈ (s.leader n).pending := by
  obtain rfl := eq_cancel_of_drained st drained
  rw [(cancel_step st).1] at drained
  obtain ⟨i, inside, same⟩ := List.mem_map.1 drained
  obtain rfl := (Entry.drained.inj same).2
  obtain ⟨c, member, rfl, job⟩ := (Accounted.of_reached h.reached).owned _ i inside
  obtain rfl := h.eq_of_job member job
  exact ⟨rfl, inside⟩

theorem removed_step (h : Owned s record n id place overrides seen)
    (st : s.step e = some (next, added)) {m : Nat} (removed : .removed m id ∈ record ++ added) :
    next.Has Job.isFinished id := by
  have moves := moves_of_step st
  rcases List.mem_append.1 removed with before | now
  · exact moves.isFinished h.old (h.removed m before)
  · cases moves with
    | remove _ _ _ done _ =>
      simp only [List.mem_singleton, Entry.removed.injEq] at now
      obtain ⟨job, found⟩ := h.found
      refine ⟨job, found, ?_⟩
      simpa [isJobFinished, ← now.2, found] using done
    | create _ _ | identify _ | override _ | newJob | start _ | refuse _ | watch _ _ _
    | drop _ _ _ _ _ | call _ _ _ | flag _ | cancel _ | terminate _ _ _ _ | proceed _ _ _ =>
      simp at now

theorem isFinished_of_claimed (h : Owned s record n id place overrides seen) {c : Collection α}
    (member : c ∈ s.collections) (job : c.job = id) (waiting : c.ending = .waiting)
    (claimed : c.claimed = true) : s.Has Job.isFinished id := by
  subst job
  have life := (Accounted.of_reached h.reached).life c member
  cases life with
  | refused dropped _ _ => simp [waiting] at dropped
  | running _ unclaimed _ _ | drained unclaimed _ _ _ => simp [claimed] at unclaimed
  | due _ _ _ told | reported _ _ told =>
    have removed : .removed c.leader c.job ∈ history record c.job := by simp [told]
    exact h.removed _ (mem_history.1 removed).1

theorem told_of_mem_added (h : Owned s record n id place overrides seen) {job : Job} {r : Running}
    (followed : Followed s record n id seen job r) (st : s.step e = some (next, added)) {m : Nat}
    {report : Report} {context : α} (called : .called m id report context ∈ added) :
    r.watch.isFinished = true ∧
      report.parameters = (s.leader n).result r.watch.completion? r.watch.output.text := by
  cases moves_of_step st with
  | call here waiting claimed =>
    simp only [List.mem_singleton, Entry.called.injEq] at called
    obtain ⟨-, same, rfl, -⟩ := called
    have member := List.mem_of_getElem? here
    obtain ⟨there, found, done⟩ := h.isFinished_of_claimed member same.symm waiting claimed
    obtain rfl := Option.some.inj (found.symm.trans followed.found)
    refine ⟨by simpa [Job.isFinished, followed.running] using done, ?_⟩
    simp only [report, ← same, h.eq_of_job member same.symm, found, followed.running,
      Option.bind_some, Option.map_some, Option.getD_some, Job.text, Watch.capture]
  | create _ _ | identify _ | override _ | newJob | start _ | refuse _ | watch _ _ _
  | remove _ _ _ _ _ | drop _ _ _ _ _ | flag _ | cancel _ | terminate _ _ _ _ | proceed _ _ _ =>
    simp at called

theorem followed_step (h : Owned s record n id place overrides seen)
    (st : s.step e = some (next, added)) (kept : (next.leader n).overrides = (s.leader n).overrides)
    {m : Nat} {context : α} (started : .started m id context ∈ record ++ added)
    (undrained : ∀ m, .drained m id ∉ record ++ added) :
    ∃ job r, Followed next (record ++ added) n id (seen ++ (e.watched? id).toList) job r := by
  obtain ⟨job, r, followed⟩ := h.followed (h.started_of_mem_added st started)
    fun m drained => undrained m (List.mem_append_left _ drained)
  rcases (moves_of_step st).job followed.found h.old with ⟨unwatched, found⟩ |
    ⟨event, moved, watched, unasked, step, found, rfl⟩ | ⟨k, c, member, -, left, -⟩
  · rw [unwatched, Option.toList_none, List.append_nil]
    refine ⟨job, r, found, followed.running, followed.unasked, followed.ran, ?_⟩
    intro m report context called
    rw [Leader.result_congr kept]
    rcases List.mem_append.1 called with before | now
    · exact followed.told before
    · exact h.told_of_mem_added followed st now
  · obtain ⟨r', watch, running, moves, rfl⟩ := Job.step_cases step
    obtain rfl := Option.some.inj (running.symm.trans followed.running)
    rw [watched, Option.toList_some]
    refine ⟨_, { r' with watch }, found, rfl, ?_, ?_, ?_⟩
    · simp [followed.unasked, unasked.symm]
    · rw [Watch.run, List.foldlM_append]
      refine Option.bind_eq_some_iff.2 ⟨r'.watch, followed.ran, ?_⟩
      rw [List.foldlM_cons, moves]
      rfl
    · intro m report context called
      rw [List.append_nil] at called
      obtain ⟨done, parameters⟩ := followed.told called
      obtain ⟨stage, output, -⟩ := Watch.frame_of_isFinished done moves
      refine ⟨Watch.isFinished_step done moves, ?_⟩
      rw [Leader.result_congr kept, parameters, output, Watch.completion?, Watch.completion?, stage]
  · -- what is left to terminate has been drained
    have managed := Managed.of_reached h.reached
    have drained := managed.recorded c member id ((managed.leftDrained c member).subset left)
    exact absurd (List.mem_append_left _ drained) (undrained c.leader)

theorem step (h : Owned s record n id place overrides seen) (st : s.step e = some (next, added))
    (permitted : e.leader? ≠ some n ∨ e = .flag n ∨ e = .cancel n) :
    Owned next (record ++ added) n id place overrides (seen ++ (e.watched? id).toList) := by
  have moves := moves_of_step st
  obtain ⟨kept, fewer⟩ : (next.leader n).overrides = (s.leader n).overrides ∧
      (next.leader n).pending ⊆ (s.leader n).pending := by
    rcases permitted with unused | rfl | rfl
    · exact ⟨moves.overrides h.known unused, moves.pending_subset h.known unused⟩
    · cases moves with
      | flag known => simp [leader_setLeader known]
    · cases moves with
      | cancel known => simp [leader_cancel known, Leader.cancel]
  obtain ⟨c, here, same⟩ := h.here
  obtain ⟨c', here', same'⟩ := moves.collection here
  obtain ⟨job, found⟩ := h.found
  exact {
    reached := h.reached.step st
    known := Nat.lt_of_lt_of_le h.known moves.length_leaders_le
    overridden := kept.trans h.overridden
    here := ⟨c', here', same'.trans same⟩
    alone := fun i inside => h.alone i (fewer inside)
    found := by
      rcases moves.job found h.old with ⟨-, now⟩ | ⟨_, _, -, -, -, now, -⟩ | ⟨_, _, -, -, -, now⟩ <;>
        exact ⟨_, now⟩
    removed := fun _ => h.removed_step st
    followed := fun started => h.followed_step st kept started }

theorem ending_cases (h : Owned s record n id place overrides seen) {m : Nat} {context : α}
    (started : .started m id context ∈ record) (undrained : ∀ m, .drained m id ∉ record) :
    s.ending place = .waiting ∨
      ∃ report context, s.ending place = .called report ∧ .called n id report context ∈ record := by
  obtain ⟨c, here, same⟩ := h.here
  obtain ⟨rfl, rfl⟩ := Prod.mk.inj same
  have ending : s.ending place = c.ending := by
    rw [Sessions.ending, here]
    rfl
  have first := mem_history.2 ⟨started, rfl⟩
  rw [ending]
  cases (Accounted.of_reached h.reached).life c (List.mem_of_getElem? here) with
  | refused _ _ told => simp [Entry.job, told] at first
  | running waiting _ _ _ | due waiting _ _ _ => exact .inl waiting
  | drained _ _ _ told =>
    have drained : .drained c.leader c.job ∈ history record c.job := by simp [told]
    exact absurd (mem_history.1 drained).1 (undrained _)
  | @reported report called _ told =>
    have last : .called c.leader c.job report c.context ∈ history record c.job := by simp [told]
    exact .inr ⟨report, c.context, called, (mem_history.1 last).1⟩

end Owned

end Sessions

end LoginSession

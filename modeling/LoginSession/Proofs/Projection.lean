import LoginSession.Proofs.Renumbering
import LoginSession.Proofs.Replay

namespace LoginSession

namespace Sessions

variable {α : Type} {s next : Sessions α} {record added : List (Entry α)} {e : Event α}
  {ρ : Renaming} {n id k : Nat} {c : Collection α} {job : Job}

theorem mem_jobsOf : id ∈ s.jobsOf n ↔ ∃ c ∈ s.collections, c.leader = n ∧ c.job = id := by
  simp [jobsOf, collectionsOf, and_assoc]

theorem job_mem_jobsOf (member : c ∈ s.collections) (mine : c.leader = n) : c.job ∈ s.jobsOf n :=
  mem_jobsOf.2 ⟨c, member, mine, rfl⟩

namespace Accounted

theorem pending_subset (h : Accounted s record) (n : Nat) : (s.leader n).pending ⊆ s.jobsOf n :=
  fun id inside => mem_jobsOf.2 (h.owned n id inside)

theorem jobsOf_unique (h : Accounted s record) {m : Nat} (first : id ∈ s.jobsOf n)
    (second : id ∈ s.jobsOf m) : n = m := by
  obtain ⟨c, hc, rfl, rfl⟩ := mem_jobsOf.1 first
  obtain ⟨d, hd, rfl, job⟩ := mem_jobsOf.1 second
  rw [h.eq_of_job hd hc job]

theorem not_mem_jobsOf (h : Accounted s record) (n : Nat) : s.jobs.length + 1 ∉ s.jobsOf n := by
  intro member
  obtain ⟨c, hc, -, job⟩ := mem_jobsOf.1 member
  have old := h.numbered c hc
  omega

theorem ne_of_mem_jobsOf (h : Accounted s record) (mine : id ∈ s.jobsOf n) :
    id ≠ s.jobs.length + 1 := fun same => h.not_mem_jobsOf n (same ▸ mine)

theorem mem_jobsOf_of_drained (h : Accounted s record) {m : Nat}
    (drained : .drained m id ∈ record) : id ∈ s.jobsOf m := by
  obtain ⟨c, hc, rfl, here, life⟩ := h.exists_life drained
  cases life with
  | refused _ _ told | running _ _ _ told | due _ _ _ told | reported _ _ told =>
    simp [told] at here
  | drained _ _ _ told =>
    simp only [told, List.mem_cons, reduceCtorEq, Entry.drained.injEq, List.not_mem_nil, or_false,
      false_or] at here
    exact job_mem_jobsOf hc here.1.symm

end Accounted

theorem Reached.made (reached : Reached s record) :
    ∀ c ∈ s.collections, c.leader < s.leaders.length ∧ ∃ job, s.job? c.job = some job := by
  induction reached with
  | start => simp
  | @step s next record added e before st ih =>
    have managed := Managed.of_reached before
    have moves := moves_of_step st
    have jobs : ∀ {id}, (∃ job, s.job? id = some job) → ∃ job, next.job? id = some job := by
      rintro id ⟨job, found⟩
      obtain ⟨later, now, -⟩ := moves.launch (managed.le_of_job? found) found
      exact ⟨later, now⟩
    have old : ∀ c ∈ s.collections, ∀ c' : Collection α, c'.leader = c.leader → c'.job = c.job →
        c'.leader < next.leaders.length ∧ ∃ job, next.job? c'.job = some job := by
      intro c member c' leader job
      rw [leader, job]
      exact ⟨Nat.lt_of_lt_of_le (ih c member).1 moves.length_leaders_le, jobs (ih c member).2⟩
    intro c' member
    have grown := moves.length_leaders_le
    have new := fun command => managed.job?_newJob_self command
    cases moves with
    | start known | refuse known =>
      rcases List.mem_append.1 member with before | last
      · exact old c' before c' rfl rfl
      · rw [List.mem_singleton.1 last]
        refine ⟨Nat.lt_of_lt_of_le known grown, ?_⟩
        first | exact ⟨_, new _⟩ | exact ⟨_, @job?_setJob_self _ _ (.mk _ _ _) _ (new _)⟩
    | remove here _ _ _ _ | drop here _ _ _ _ | call here _ _ =>
      rcases List.mem_or_eq_of_mem_set member with before | rfl
      · exact old c' before c' rfl rfl
      · exact old _ (List.mem_of_getElem? here) _ rfl rfl
    | create _ _ | identify _ | override _ | newJob | watch _ _ _ | flag _ | cancel _
    | terminate _ _ _ _ | proceed _ _ _ => exact old c' member c' rfl rfl

theorem Reached.awaited (reached : Reached s record) :
    ∀ c ∈ s.cancellations, ∀ id, c.awaited = some id → id ∈ c.drained := by
  induction reached with
  | start => simp
  | @step s next record added e before st ih =>
    have managed := Managed.of_reached before
    intro c' member id awaited
    cases moves_of_step st with
    | cancel _ =>
      rcases List.mem_append.1 member with old | last
      · exact ih c' old id awaited
      · rw [List.mem_singleton.1 last] at awaited
        cases awaited
    | terminate here _ _ left =>
      rcases List.mem_or_eq_of_mem_set member with old | rfl
      · exact ih c' old id awaited
      · obtain rfl := Option.some.inj (Option.ite_none_right_eq_some.1 awaited).2
        exact (managed.leftDrained _ (List.mem_of_getElem? here)).subset left
    | proceed here _ _ =>
      rcases List.mem_or_eq_of_mem_set member with old | rfl
      · exact ih c' old id awaited
      · cases awaited
    | create _ _ | identify _ | override _ | newJob | start _ | refuse _ | watch _ _ _
    | remove _ _ _ _ _ | drop _ _ _ _ _ | call _ _ _ | flag _ => exact ih c' member id awaited

section

variable {told : List (Entry α)} {d : Collection α} {a : Cancellation} {moved : Job}

theorem only_setLeader (known : n < s.leaders.length) (l : Leader) :
    (s.setLeader n l).only ρ n = (s.only ρ n).setLeader 0 (l.renamed ρ (s.jobsOf n)) := by
  have leader := leader_setLeader known l n
  rw [if_pos rfl] at leader
  simp only [only, leader]
  rfl

theorem collectionsOf_setCollection (here : s.collections[k]? = some c) (mine : c.leader = n)
    (still : d.leader = n) : (s.setCollection k d).collectionsOf n =
      (s.collectionsOf n).set (placeOf (s.collections.map (·.leader)) n k) d :=
  filter_set_own here mine still

theorem jobsOf_setCollection (here : s.collections[k]? = some c) (mine : c.leader = n)
    (still : d.leader = n) (job : d.job = c.job) :
    (s.setCollection k d).jobsOf n = s.jobsOf n := by
  rw [jobsOf, collectionsOf_setCollection here mine still]
  exact map_set_of_eq _ (getElem?_placeOf here mine) job

theorem only_setCollection (here : s.collections[k]? = some c) (mine : c.leader = n)
    (still : d.leader = n) (job : d.job = c.job) : (s.setCollection k d).only ρ n =
      (s.only ρ n).setCollection (placeOf (s.collections.map (·.leader)) n k)
        (d.renamed ρ (s.jobsOf n)) := by
  simp only [only, jobsOf_setCollection here mine still job,
    collectionsOf_setCollection here mine still, List.map_set]
  rfl

theorem only_setCancellation {d : Cancellation} (here : s.cancellations[k]? = some a)
    (mine : a.leader = n) (still : d.leader = n) : (s.setCancellation k d).only ρ n =
      (s.only ρ n).setCancellation (placeOf (s.cancellations.map (·.leader)) n k)
        (d.renumbered (s.jobsOf n)) := by
  have set : (s.setCancellation k d).cancellationsOf n =
      (s.cancellationsOf n).set (placeOf (s.cancellations.map (·.leader)) n k) d :=
    filter_set_own here mine still
  simp only [only, set, List.map_set]
  rfl

theorem only_setJob (s : Sessions α) (moved : Job) : (s.setJob moved).only ρ n =
    (s.only ρ n).setJob (moved.renumbered (s.jobsOf n)) := by
  have jobs : ((s.jobsOf n).filterMap (s.setJob moved).job?).map (·.renumbered (s.jobsOf n)) =
      (((s.jobsOf n).filterMap s.job?).map (·.renumbered (s.jobsOf n))).map fun j =>
        if j.id = (moved.renumbered (s.jobsOf n)).id then moved.renumbered (s.jobsOf n) else j := by
    rw [List.map_map, List.map_filterMap, List.map_filterMap]
    refine List.filterMap_congr fun id here => ?_
    rw [job?_setJob, Option.map_map]
    cases found : s.job? id with
    | none => rfl
    | some job =>
      obtain rfl := id_of_job? found
      have same : jobNumber (s.jobsOf n) job.id = jobNumber (s.jobsOf n) moved.id ↔
          job.id = moved.id := ⟨eq_of_jobNumber here, congrArg _⟩
      by_cases own : job.id = moved.id <;> simp [Job.renumbered, same, own]
  simp only [only, setJob]
  exact congrArg (fun jobs => { s.only ρ n with jobs }) jobs

theorem job?_only (alone : Managed (s.only ρ n) told) (mine : id ∈ s.jobsOf n)
    (found : s.job? id = some job) : (s.only ρ n).job? (jobNumber (s.jobsOf n) id) =
      some (job.renumbered (s.jobsOf n)) := by
  have member : job.renumbered (s.jobsOf n) ∈ (s.only ρ n).jobs :=
    List.mem_map_of_mem (List.mem_filterMap.2 ⟨id, mine, found⟩)
  obtain rfl := id_of_job? found
  exact alone.job?_of_mem member

theorem Reached.exists_job (reached : Reached s record) (mine : id ∈ s.jobsOf n) :
    ∃ job, s.job? id = some job := by
  obtain ⟨c, member, -, rfl⟩ := mem_jobsOf.1 mine
  exact (reached.made c member).2

theorem isJobFinished_only (reached : Reached s record) (alone : Managed (s.only ρ n) told)
    (mine : id ∈ s.jobsOf n) :
    (s.only ρ n).isJobFinished (jobNumber (s.jobsOf n) id) = s.isJobFinished id := by
  obtain ⟨job, found⟩ := reached.exists_job mine
  rw [isJobFinished, isJobFinished, job?_only alone mine found, found]
  rfl

theorem report_only (reached : Reached s record) (alone : Managed (s.only ρ n) told)
    (member : c ∈ s.collections) (mine : c.leader = n) :
    (s.only ρ n).report (c.renamed ρ (s.jobsOf n)) = (s.report c).renamed ρ := by
  have own := job_mem_jobsOf member mine
  obtain ⟨job, found⟩ := reached.exists_job own
  have there : (s.only ρ n).job? (c.renamed ρ (s.jobsOf n)).job = _ := job?_only alone own found
  have leader : (s.only ρ n).leader (c.renamed ρ (s.jobsOf n)).leader =
      (s.leader c.leader).renamed ρ (s.jobsOf n) := by
    rw [mine]
    rfl
  simp only [report, found, there, leader]
  rfl

theorem Managed.setJob_newJob (h : Managed s record) (command : Option String)
    (new : moved.id = s.jobs.length + 1) :
    (s.newJob command).1.setJob moved = { s with jobs := s.jobs ++ [moved] } := by
  have old : s.jobs.map (fun j => if j.id = moved.id then moved else j) = s.jobs := by
    refine (List.map_congr_left fun j member => if_neg ?_).trans (List.map_id _)
    have bound := h.le_of_job? (h.job?_of_mem member)
    omega
  simp only [newJob, setJob, List.map_append, old, List.map_singleton]
  rw [if_pos new.symm]

theorem length_jobs_only (reached : Reached s record) :
    (s.only ρ n).jobs.length = (s.jobsOf n).length := by
  refine (List.length_map _).trans (List.filterMap_length_eq_length.2 fun id mine => ?_)
  obtain ⟨job, found⟩ := reached.exists_job mine
  rw [found]
  rfl

theorem only_add (reached : Reached s record) {context : α} {ending : Ending}
    (collections : next.collections = s.collections ++
      [{ leader := n, job := s.jobs.length + 1, context, ending }])
    (cancellations : next.cancellations = s.cancellations)
    (old : ∀ id ∈ s.jobsOf n, next.job? id = s.job? id)
    (new : next.job? (s.jobs.length + 1) = some job) : next.only ρ n =
      { jobs := (s.only ρ n).jobs ++ [{ job with id := (s.jobsOf n).length + 1 }]
        leaders := [(next.leader n).renamed ρ (s.jobsOf n ++ [s.jobs.length + 1])]
        collections := (s.only ρ n).collections ++
          [{ leader := 0, job := (s.jobsOf n).length + 1, context, ending := ending.renamed ρ }]
        cancellations := (s.only ρ n).cancellations } := by
  have accounted := Accounted.of_reached reached
  have managed := Managed.of_reached reached
  have added : next.collectionsOf n = s.collectionsOf n ++
      [{ leader := n, job := s.jobs.length + 1, context, ending }] := by
    rw [collectionsOf, collections]
    exact filter_concat_own (f := Collection.leader) rfl
  have own : next.jobsOf n = s.jobsOf n ++ [s.jobs.length + 1] := by
    rw [jobsOf, added, List.map_append]
    rfl
  have number := jobNumber_concat_self (accounted.not_mem_jobsOf n)
  have jobs : ((next.jobsOf n).filterMap next.job?).map (·.renumbered (next.jobsOf n)) =
      (s.only ρ n).jobs ++ [{ job with id := (s.jobsOf n).length + 1 }] := by
    rw [own, List.filterMap_append, List.map_append, List.filterMap_congr old]
    have last : [s.jobs.length + 1].filterMap next.job? = [job] := by simp [new]
    rw [last, List.map_singleton]
    congr 1
    · refine List.map_congr_left fun j member => Job.renumbered_append ?_
      obtain ⟨id, mine, found⟩ := List.mem_filterMap.1 member
      exact id_of_job? found ▸ mine
    · rw [Job.renumbered, id_of_job? new, number]
  have waiting : (next.collectionsOf n).map (·.renamed ρ (next.jobsOf n)) =
      (s.only ρ n).collections ++
        [{ leader := 0, job := (s.jobsOf n).length + 1, context, ending := ending.renamed ρ }] := by
    rw [own, added, List.map_append, List.map_singleton, Collection.renamed, number]
    congr 1
    exact List.map_congr_left fun c member =>
      Collection.renamed_append (List.mem_map_of_mem member)
  have cancelled : (next.cancellationsOf n).map (·.renumbered (next.jobsOf n)) =
      (s.only ρ n).cancellations := by
    rw [own, cancellationsOf, cancellations]
    refine List.map_congr_left fun c member => ?_
    obtain ⟨here, mine⟩ := List.mem_filter.1 member
    have drained : c.drained ⊆ s.jobsOf n := fun id inside =>
      of_decide_eq_true mine ▸ accounted.mem_jobsOf_of_drained (managed.recorded c here id inside)
    exact Cancellation.renumbered_append drained (managed.leftDrained c here).subset
      (reached.awaited c here)
  simp only [only, jobs, waiting, cancelled]
  rw [own]

theorem Managed.started_eq (h : Managed s record) (n : Nat) (context : α) (child : Child) :
    s.started n context child =
      { s with
        jobs := s.jobs ++ [{
          id := s.jobs.length + 1
          command := some (s.leader n).command
          running := some { child } }]
        leaders := s.leaders.set n ((s.leader n).track (s.jobs.length + 1))
        collections := s.collections ++ [{ leader := n, job := s.jobs.length + 1, context }] } := by
  let job : Job :=
    { id := s.jobs.length + 1, command := some (s.leader n).command, running := some { child } }
  have made : (s.newJob job.command).1.setJob job = { s with jobs := s.jobs ++ [job] } :=
    h.setJob_newJob job.command rfl
  let finish (made : Sessions α) : Sessions α :=
    (made.setLeader n ((s.leader n).track (s.jobs.length + 1))).addCollection
      { leader := n, job := s.jobs.length + 1, context }
  exact congrArg finish made

theorem job?_started (found : s.job? id = some job) (old : id ≠ s.jobs.length + 1) (m : Nat)
    (context : α) (child : Child) : (s.started m context child).job? id = some job :=
  (job?_setJob_of_ne _ old).trans (job?_newJob_of_some found _)

theorem only_started (reached : Reached s record) (alone : Managed (s.only ρ n) told)
    (known : n < s.leaders.length) (context : α) (child : Child) :
    (s.started n context child).only ρ n = (s.only ρ n).started 0 context child := by
  have accounted := Accounted.of_reached reached
  have managed := Managed.of_reached reached
  let job : Job :=
    { id := s.jobs.length + 1, command := some (s.leader n).command, running := some { child } }
  have new : (s.started n context child).job? (s.jobs.length + 1) = some job :=
    @job?_setJob_self _ _ job _ (managed.job?_newJob_self _)
  have old : ∀ id ∈ s.jobsOf n, (s.started n context child).job? id = s.job? id := by
    intro id mine
    obtain ⟨j, found⟩ := reached.exists_job mine
    exact (job?_started found (accounted.ne_of_mem_jobsOf mine) _ _ _).trans found.symm
  have leader := leader_started known context child n
  rw [if_pos rfl] at leader
  have tracked : ((s.leader n).track (s.jobs.length + 1)).renamed ρ
      (s.jobsOf n ++ [s.jobs.length + 1]) =
        ((s.leader n).renamed ρ (s.jobsOf n)).track ((s.jobsOf n).length + 1) := by
    simp only [Leader.renamed, Leader.track, List.map_append,
      map_jobNumber_append (accounted.pending_subset n), List.map_singleton,
      jobNumber_concat_self (accounted.not_mem_jobsOf n)]
  have collections : (s.started n context child).collections = s.collections ++
    [{ leader := n, job := s.jobs.length + 1, context }] := rfl
  rw [only_add reached collections rfl old new, leader, tracked, alone.started_eq,
    length_jobs_only reached]
  rfl

theorem only_refused (reached : Reached s record) (context : α) :
    (s.refused n context).only ρ n = (s.only ρ n).refused 0 context := by
  have accounted := Accounted.of_reached reached
  have managed := Managed.of_reached reached
  have new := managed.job?_newJob_self (some (s.leader n).command)
  have old : ∀ id ∈ s.jobsOf n, (s.refused n context).job? id = s.job? id := by
    intro id mine
    obtain ⟨j, found⟩ := reached.exists_job mine
    exact (job?_newJob_of_some found _).trans found.symm
  have same : (s.leader n).renamed ρ (s.jobsOf n ++ [s.jobs.length + 1]) =
      (s.leader n).renamed ρ (s.jobsOf n) := by
    rw [Leader.renamed, map_jobNumber_append (accounted.pending_subset n), Leader.renamed]
  have collections : (s.refused n context).collections = s.collections ++
    [{ leader := n, job := s.jobs.length + 1, context, ending := .dropped }] := rfl
  have leader : (s.refused n context).leader n = s.leader n := rfl
  rw [only_add reached collections rfl old new, leader, same, refused, length_jobs_only reached]
  simp only [newJob, length_jobs_only reached]
  rfl

theorem step_collect (reached : Reached s record) (alone : Managed (s.only ρ n) told)
    {context : α} {spawn : List String → Except SystemFault (Unit × Child)}
    (st : s.step (.collect n context spawn) = some (next, added)) :
    ∃ added, (s.only ρ n).step (.collect 0 context spawn) = some (next.only ρ n, added) := by
  have command : ((s.only ρ n).leader 0).command = (s.leader n).command := rfl
  have here : 0 < (s.only ρ n).leaders.length := Nat.zero_lt_one
  obtain ⟨known, st⟩ := Option.ite_none_right_eq_some.1 st
  rcases collect_cases s n context spawn with ⟨⟨words, child, splits, spawned⟩, -⟩ |
    ⟨cannot, failed⟩
  · rw [collect_eq_started splits spawned] at st
    cases st
    rw [step, if_pos here, collect_eq_started (command ▸ splits) spawned,
      only_started reached alone known]
    exact ⟨_, rfl⟩
  · rw [failed] at st
    cases st
    rcases collect_cases (s.only ρ n) 0 context spawn with ⟨can, -⟩ | ⟨-, failed'⟩
    · exact absurd (command ▸ can) cannot
    · rw [step, if_pos here, failed', only_refused reached]
      exact ⟨_, rfl⟩

theorem step_watch (alone : Managed (s.only ρ n) told) {event : Watch.Event}
    (mine : id ∈ s.jobsOf n) (st : s.step (.watch id event) = some (next, added)) :
    ∃ added, (s.only ρ n).step (.watch (jobNumber (s.jobsOf n) id) event) =
      some (next.only ρ n, added) := by
  cases moves_of_step st with
  | watch unasked found moves =>
    rw [step, if_neg unasked, job?_only alone mine found, Option.bind_some, Job.step_renumbered,
      moves, only_setJob]
    exact ⟨_, rfl⟩

theorem getElem?_collections_only (here : s.collections[k]? = some c) (mine : c.leader = n) :
    (s.only ρ n).collections[placeOf (s.collections.map (·.leader)) n k]? =
      some (c.renamed ρ (s.jobsOf n)) := by
  rw [only, List.getElem?_map, collectionsOf, getElem?_placeOf here mine, Option.map_some]

theorem step_complete (reached : Reached s record) (alone : Managed (s.only ρ n) told)
    (here : s.collections[k]? = some c) (mine : c.leader = n)
    (st : s.step (.complete k) = some (next, added)) : ∃ added,
      (s.only ρ n).step (.complete (placeOf (s.collections.map (·.leader)) n k)) =
        some (next.only ρ n, added) := by
  have own := job_mem_jobsOf (List.mem_of_getElem? here) mine
  have there := getElem?_collections_only (ρ := ρ) here mine
  have finished := isJobFinished_only (ρ := ρ) reached alone own
  have listed := (Accounted.of_reached reached).pending_subset n
  have removing : ((s.only ρ n).leader 0).remove? (jobNumber (s.jobsOf n) c.job) =
      ((s.leader n).remove? c.job).map (·.renamed ρ (s.jobsOf n)) :=
    Leader.remove?_renamed listed c.job
  -- whichever way the completion ends, alone it finds the same collection waiting
  have waits : c.ending = .waiting → c.claimed = false → s.isJobFinished c.job = true →
      (s.only ρ n).waiting? (placeOf (s.collections.map (·.leader)) n k) =
        some (c.renamed ρ (s.jobsOf n)) := by
    intro waiting unclaimed done
    rw [waiting?, there, Option.filter_some_pos]
    simp [Collection.renamed, waiting, unclaimed, finished, done, Ending.renamed]
  cases moves_of_step st with
  | @remove _ c' leader here' waiting unclaimed done removed =>
    obtain rfl : c = c' := Option.some.inj (here.symm.trans here')
    subst mine
    rw [removed] at removing
    rw [step, waits waiting unclaimed done, Option.map_some, complete]
    simp only [Collection.renamed, removing, Option.map_some]
    rw [only_setCollection (s := s.setLeader c.leader leader) (d := { c with claimed := true })
        here rfl rfl rfl,
      only_setLeader (lt_of_mem_pending (Leader.eq_of_remove? removed).1)]
    exact ⟨_, rfl⟩
  | @drop _ c' here' waiting unclaimed done gone =>
    obtain rfl : c = c' := Option.some.inj (here.symm.trans here')
    subst mine
    rw [(Leader.remove?_eq_none_iff _ _).2 gone] at removing
    rw [step, waits waiting unclaimed done, Option.map_some, complete]
    simp only [Collection.renamed, removing, Option.map_none]
    rw [only_setCollection (d := { c with ending := .dropped }) here rfl rfl rfl]
    exact ⟨_, rfl⟩

theorem step_call (reached : Reached s record) (alone : Managed (s.only ρ n) told)
    (here : s.collections[k]? = some c) (mine : c.leader = n)
    (st : s.step (.call k) = some (next, added)) : ∃ added,
      (s.only ρ n).step (.call (placeOf (s.collections.map (·.leader)) n k)) =
        some (next.only ρ n, added) := by
  cases moves_of_step st with
  | @call _ c' here' waiting claimed =>
    obtain rfl : c = c' := Option.some.inj (here.symm.trans here')
    have due : (s.only ρ n).due? (placeOf (s.collections.map (·.leader)) n k) =
        some (c.renamed ρ (s.jobsOf n)) := by
      rw [due?, getElem?_collections_only here mine, Option.filter_some_pos]
      simp [Collection.renamed, waiting, claimed, Ending.renamed]
    rw [step, due, Option.map_some, call,
      report_only reached alone (List.mem_of_getElem? here) mine, call,
      only_setCollection (d := { c with ending := .called (s.report c) }) here mine mine rfl]
    exact ⟨_, rfl⟩

theorem step_cancel (st : s.step (.cancel n) = some (next, added)) :
    ∃ added, (s.only ρ n).step (.cancel 0) = some (next.only ρ n, added) := by
  cases moves_of_step st with
  | cancel known =>
    have cancelled : (s.cancel n).cancellationsOf n = s.cancellationsOf n ++
        [{ leader := n, drained := (s.leader n).pending, left := (s.leader n).pending }] :=
      filter_concat_own (f := Cancellation.leader) rfl
    have leader := leader_cancel known n
    rw [if_pos rfl] at leader
    have here : 0 < (s.only ρ n).leaders.length := Nat.zero_lt_one
    have same : (s.cancel n).only ρ n = (s.only ρ n).cancel 0 := by
      simp only [only, leader, cancelled, List.map_append]
      rfl
    rw [step, if_pos here, same]
    exact ⟨_, rfl⟩

theorem getElem?_cancellations_only (here : s.cancellations[k]? = some a) (mine : a.leader = n) :
    (s.only ρ n).cancellations[placeOf (s.cancellations.map (·.leader)) n k]? =
      some (a.renumbered (s.jobsOf n)) := by
  rw [only, List.getElem?_map, cancellationsOf, getElem?_placeOf here mine, Option.map_some]

theorem drained_subset (reached : Reached s record) (member : a ∈ s.cancellations)
    (mine : a.leader = n) : a.drained ⊆ s.jobsOf n := by
  intro id drained
  have recorded := (Managed.of_reached reached).recorded a member id drained
  exact mine ▸ (Accounted.of_reached reached).mem_jobsOf_of_drained recorded

theorem step_terminate (reached : Reached s record) (alone : Managed (s.only ρ n) told)
    (here : s.cancellations[k]? = some a) (mine : a.leader = n)
    (st : s.step (.terminate k id) = some (next, added)) : ∃ added,
      (s.only ρ n).step (.terminate (placeOf (s.cancellations.map (·.leader)) n k)
        (jobNumber (s.jobsOf n) id)) = some (next.only ρ n, added) := by
  have member := List.mem_of_getElem? here
  -- what is left to terminate was drained from this leader's list, so it is one of its own jobs
  have inside := List.Subset.trans ((Managed.of_reached reached).leftDrained a member).subset
    (drained_subset reached member mine)
  cases moves_of_step st with
  | @terminate _ b job here' found idle left =>
    obtain rfl : a = b := Option.some.inj (here.symm.trans here')
    have ready : (s.only ρ n).next? (placeOf (s.cancellations.map (·.leader)) n k)
        (jobNumber (s.jobsOf n) job.id) =
          some (a.renumbered (s.jobsOf n), job.renumbered (s.jobsOf n)) := by
      have listed : jobNumber (s.jobsOf n) job.id ∈ a.left.map (jobNumber (s.jobsOf n)) :=
        List.mem_map_of_mem left
      rw [next?, getElem?_cancellations_only here mine, job?_only alone (inside left) found]
      simp [Cancellation.renumbered, idle, listed]
    let b : Cancellation :=
      { a with
        left := a.left.erase job.id
        awaited := if job.requestCancel.2 then some job.id else none }
    have terminated : s.terminate k a job =
        (s.setJob job.requestCancel.1).setCancellation k b := rfl
    have renumbered : b.renumbered (s.jobsOf n) =
        { a.renumbered (s.jobsOf n) with
          left := (a.renumbered (s.jobsOf n)).left.erase (job.renumbered (s.jobsOf n)).id
          awaited :=
            if job.requestCancel.2 then some (job.renumbered (s.jobsOf n)).id else none } := by
      cases running : job.requestCancel.2 <;>
        simp [Cancellation.renumbered, Job.renumbered, b, map_jobNumber_erase inside, running]
    have same : (s.terminate k a job).only ρ n = (s.only ρ n).terminate
        (placeOf (s.cancellations.map (·.leader)) n k) (a.renumbered (s.jobsOf n))
        (job.renumbered (s.jobsOf n)) := by
      have stays : (s.setJob job.requestCancel.1).jobsOf n = s.jobsOf n := rfl
      rw [terminated,
        only_setCancellation (s := s.setJob job.requestCancel.1) (d := b) here mine mine,
        only_setJob, stays, renumbered, terminate, Job.requestCancel_renumbered]
      rfl
    rw [step, ready, Option.map_some, same]
    exact ⟨_, rfl⟩

theorem step_proceed (reached : Reached s record) (alone : Managed (s.only ρ n) told)
    (here : s.cancellations[k]? = some a) (mine : a.leader = n)
    (st : s.step (.proceed k) = some (next, added)) : ∃ added,
      (s.only ρ n).step (.proceed (placeOf (s.cancellations.map (·.leader)) n k)) =
        some (next.only ρ n, added) := by
  have member := List.mem_of_getElem? here
  cases moves_of_step st with
  | @proceed _ b id here' awaited done =>
    obtain rfl : a = b := Option.some.inj (here.symm.trans here')
    have own := drained_subset reached member mine (reached.awaited a member id awaited)
    have ended : (s.only ρ n).ended? (placeOf (s.cancellations.map (·.leader)) n k) =
        some (a.renumbered (s.jobsOf n)) := by
      rw [ended?, getElem?_cancellations_only here mine, Option.filter_some_pos]
      simp [Cancellation.renumbered, awaited, isJobFinished_only reached alone own, done]
    have same : (s.proceed k a).only ρ n = (s.only ρ n).proceed
        (placeOf (s.cancellations.map (·.leader)) n k) (a.renumbered (s.jobsOf n)) :=
      only_setCancellation (d := { a with awaited := none }) here mine mine
    rw [step, ended, Option.map_some, same]
    exact ⟨_, rfl⟩

/-- Each step of a leader's own is the same step of the leader alone. -/
theorem step_own (reached : Reached s record) (alone : Reached (s.only ρ n) told) {e' : Event α}
    (own : s.ownEvent ρ n e = some e') (st : s.step e = some (next, added)) :
    ∃ added, (s.only ρ n).step e' = some (next.only ρ n, added) := by
  have managed := Managed.of_reached alone
  have here : 0 < (s.only ρ n).leaders.length := Nat.zero_lt_one
  cases e with
  | create _ | newJob _ => cases own
  | identify m identity | override m parameters | flag m =>
    obtain ⟨rfl, same⟩ := Option.ite_none_right_eq_some.1 own
    obtain rfl := Option.some.inj same
    obtain ⟨known, same⟩ := Option.ite_none_right_eq_some.1 st
    cases same
    rw [step, if_pos here, only_setLeader known]
    exact ⟨_, rfl⟩
  | collect m context spawn =>
    obtain ⟨rfl, same⟩ := Option.ite_none_right_eq_some.1 own
    obtain rfl := Option.some.inj same
    exact step_collect reached managed st
  | cancel m =>
    obtain ⟨rfl, same⟩ := Option.ite_none_right_eq_some.1 own
    obtain rfl := Option.some.inj same
    exact step_cancel st
  | watch id event =>
    obtain ⟨mine, same⟩ := Option.ite_none_right_eq_some.1 own
    obtain rfl := Option.some.inj same
    exact step_watch managed mine st
  | complete k =>
    obtain ⟨place, there, rfl⟩ := Option.map_eq_some_iff.1 own
    obtain ⟨c, here, mine, rfl⟩ := exists_of_placeOf? there
    exact step_complete reached managed here mine st
  | call k =>
    obtain ⟨place, there, rfl⟩ := Option.map_eq_some_iff.1 own
    obtain ⟨c, here, mine, rfl⟩ := exists_of_placeOf? there
    exact step_call reached managed here mine st
  | terminate k id =>
    obtain ⟨place, there, rfl⟩ := Option.map_eq_some_iff.1 own
    obtain ⟨a, here, mine, rfl⟩ := exists_of_placeOf? there
    exact step_terminate reached managed here mine st
  | proceed k =>
    obtain ⟨place, there, rfl⟩ := Option.map_eq_some_iff.1 own
    obtain ⟨a, here, mine, rfl⟩ := exists_of_placeOf? there
    exact step_proceed reached managed here mine st

end

theorem leader?_of_ownEvent (other : s.ownEvent ρ n e = none) : e.leader? ≠ some n := by
  rintro mine
  cases e with
  | identify _ _ | override _ _ | collect _ _ _ | flag _ | cancel _ =>
    obtain rfl := Option.some.inj mine
    simp [ownEvent] at other
  | create _ | newJob _ | watch _ _ | complete _ | call _ | terminate _ _ | proceed _ => cases mine

namespace Undisturbed

theorem refl (s : Sessions α) (n : Nat) : s.Undisturbed s n := ⟨rfl, rfl, rfl, fun _ _ => rfl⟩

theorem jobsOf (h : s.Undisturbed next n) : next.jobsOf n = s.jobsOf n := by
  rw [Sessions.jobsOf, h.collections, Sessions.jobsOf]

theorem only (h : s.Undisturbed next n) (ρ : Renaming) : next.only ρ n = s.only ρ n := by
  simp only [Sessions.only, h.jobsOf, h.leader, h.collections, h.cancellations,
    List.filterMap_congr h.jobs]

theorem view (h : s.Undisturbed next n) : next.view n = s.view n := by
  simp only [Sessions.view, h.leader, h.collections]

end Undisturbed

theorem leader_of_other (known : n < s.leaders.length) (moves : s.Moves e next added)
    (other : s.ownEvent ρ n e = none) : next.leader n = s.leader n := by
  rcases moves.leader known (leader?_of_ownEvent other) with same | ⟨k, c, rfl, here, mine, -⟩
  · exact same
  · exact absurd mine (ne_of_placeOf? here other)

theorem collectionsOf_of_other (moves : s.Moves e next added)
    (other : s.ownEvent ρ n e = none) : next.collectionsOf n = s.collectionsOf n := by
  cases moves with
  | start _ | refuse _ =>
    refine filter_concat_other (f := Collection.leader) fun mine => ?_
    exact leader?_of_ownEvent other (congrArg some mine)
  | remove here _ _ _ _ | drop here _ _ _ _ | call here _ _ =>
    exact filter_set_other (f := Collection.leader) here (ne_of_placeOf? here other) rfl
  | create _ _ | identify _ | override _ | newJob | watch _ _ _ | flag _ | cancel _
  | terminate _ _ _ _ | proceed _ _ _ => rfl

theorem cancellationsOf_of_other (moves : s.Moves e next added)
    (other : s.ownEvent ρ n e = none) : next.cancellationsOf n = s.cancellationsOf n := by
  cases moves with
  | cancel _ =>
    refine filter_concat_other (f := Cancellation.leader) fun mine => ?_
    exact leader?_of_ownEvent other (congrArg some mine)
  | terminate here _ _ _ | proceed here _ _ =>
    exact filter_set_other (f := Cancellation.leader) here (ne_of_placeOf? here other) rfl
  | create _ _ | identify _ | override _ | newJob | start _ | refuse _ | watch _ _ _
  | remove _ _ _ _ _ | drop _ _ _ _ _ | call _ _ _ | flag _ => rfl

theorem job?_of_other (reached : Reached s record) (moves : s.Moves e next added)
    (other : s.ownEvent ρ n e = none) (mine : id ∈ s.jobsOf n) : next.job? id = s.job? id := by
  obtain ⟨j, found⟩ := reached.exists_job mine
  have accounted := Accounted.of_reached reached
  cases moves with
  | newJob | refuse _ => exact (job?_newJob_of_some found _).trans found.symm
  | start _ => exact (job?_started found (accounted.ne_of_mem_jobsOf mine) _ _ _).trans found.symm
  | @watch _ job moved _ _ moves =>
    have apart : id ≠ moved.id := by
      rintro rfl
      rw [Job.id_step moves] at mine
      simp [ownEvent, mine] at other
    exact job?_setJob_of_ne s apart
  | @terminate k a job here _ _ left =>
    have inside := (Managed.of_reached reached).leftDrained a (List.mem_of_getElem? here)
    have theirs := drained_subset reached (List.mem_of_getElem? here) rfl (inside.subset left)
    have apart : id ≠ job.requestCancel.1.id := by
      rintro rfl
      rw [Job.id_requestCancel] at mine
      exact ne_of_placeOf? here other (accounted.jobsOf_unique theirs mine)
    exact job?_setJob_of_ne s apart
  | create _ _ | identify _ | override _ | remove _ _ _ _ _ | drop _ _ _ _ _ | call _ _ _ | flag _
  | cancel _ | proceed _ _ _ => rfl

/-- A step that is no concern of a leader leaves all that it has as it is. -/
theorem undisturbed (reached : Reached s record) (known : n < s.leaders.length)
    (other : s.ownEvent ρ n e = none) (st : s.step e = some (next, added)) :
    s.Undisturbed next n where
  leader := leader_of_other known (moves_of_step st) other
  collections := collectionsOf_of_other (moves_of_step st) other
  cancellations := cancellationsOf_of_other (moves_of_step st) other
  jobs _ mine := job?_of_other reached (moves_of_step st) other mine

theorem view_only (s : Sessions α) (ρ : Renaming) (n : Nat) :
    (s.only ρ n).view 0 = (s.view n).renamed ρ := by
  have all : (s.only ρ n).collectionsOf 0 = (s.only ρ n).collections := by
    refine List.filter_eq_self.2 fun c member => ?_
    obtain ⟨d, -, rfl⟩ := List.mem_map.1 member
    exact decide_eq_true rfl
  have leader : (s.only ρ n).leader 0 = (s.leader n).renamed ρ (s.jobsOf n) := rfl
  simp only [view, Observation.renamed, all, leader, Leader.renamed, List.length_map, List.map_map]
  simp [only, Collection.renamed]

end Sessions

end LoginSession

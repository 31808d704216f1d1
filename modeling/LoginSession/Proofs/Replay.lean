import LoginSession.Proofs.Cancellation
import LoginSession.Proofs.Delivery
import LoginSession.Proofs.Ownership
import LoginSession.Proofs.Runs
import Mathlib.Data.List.Induction

namespace LoginSession

def Leader.settings (l : Leader) : Config × Identity × Overrides :=
  (l.config, l.identity, l.overrides)

namespace Job

variable {j next : Job} {e : Watch.Event}

def launch (j : Job) : Option String × Option Child := (j.command, j.running.map (·.child))

theorem launch_step (h : j.step e = some next) : next.launch = j.launch := by
  obtain ⟨r, watch, running, -, rfl⟩ := step_cases h
  simp [launch, running]

theorem launch_requestCancel (j : Job) : j.requestCancel.1.launch = j.launch := by
  unfold requestCancel
  cases started : j.running with
  | none => rfl
  | some r =>
    rw [launch, launch, started]
    rfl

end Job

namespace Sessions

variable {α : Type}

namespace Event

def created? : Event α → Option Leader
  | .create leader => some leader
  | _ => none

def identified? (n : Nat) : Event α → Option Identity
  | .identify m identity => if m = n then some identity else none
  | _ => none

def installed? (n : Nat) : Event α → Option (List Parameter)
  | .override m parameters => if m = n then some parameters else none
  | _ => none

def makesJob : Event α → Bool
  | .newJob _ | .collect _ _ _ => true
  | _ => false

end Event

/-- What the last of the events to tell anything tells. -/
def lastOf {β : Type} (tells : Event α → Option β) (events : List (Event α)) : Option β :=
  (events.filterMap tells).getLast?

section

variable (events : List (Event α)) (n job : Nat)

def createdLeader : Leader := ((events.filterMap Event.created?)[n]?).getD {}

def identityAfter : Identity :=
  (lastOf (·.identified? n) events).getD (createdLeader events n).identity

def overridesAfter : Overrides :=
  ((lastOf (·.installed? n) events).map .ofList).getD (createdLeader events n).overrides

def settingsAfter : Config × Identity × Overrides :=
  ((createdLeader events n).config, identityAfter events n, overridesAfter events n)

def commandAfter : String :=
  (createdLeader events n).config.helperCommand (identityAfter events n).uid
    (identityAfter events n).pid

def jobsAfter : Nat := events.countP (·.makesJob)

def helperEvents : List Watch.Event := events.filterMap (·.watched? job)

end

variable {s next final : Sessions α} {record added told : List (Entry α)} {e : Event α}
  {events before after : List (Event α)} {n : Nat}

theorem filterMap_concat {β : Type} (f : Event α → Option β) (events : List (Event α))
    (e : Event α) :
    (events ++ [e]).filterMap f = events.filterMap f ++ (f e).toList := by
  cases h : f e <;> simp [h]

theorem lastOf_concat {β : Type} (tells : Event α → Option β) (events : List (Event α))
    (e : Event α) : lastOf tells (events ++ [e]) = (tells e).or (lastOf tells events) := by
  rw [lastOf, filterMap_concat, List.getLast?_append, lastOf]
  cases tells e <;> rfl

theorem createdLeader_concat_of_none (events : List (Event α)) (n : Nat)
    (none : e.created? = none) : createdLeader (events ++ [e]) n = createdLeader events n := by
  rw [createdLeader, filterMap_concat, none, Option.toList_none, List.append_nil, createdLeader]

theorem createdLeader_create (events : List (Event α)) (leader : Leader) (n : Nat) :
    createdLeader (events ++ [.create leader]) n =
      if n = (events.filterMap Event.created?).length then leader else createdLeader events n := by
  rw [createdLeader, filterMap_concat, createdLeader]
  dsimp only [Event.created?, Option.toList_some]
  split
  · rename_i last
    rw [last, List.getElem?_concat_length, Option.getD_some]
  · rename_i other
    congr 1
    rcases Nat.lt_or_gt_of_ne other with before | beyond
    · exact List.getElem?_append_left before
    · rw [List.getElem?_eq_none (by simpa using Nat.succ_le_of_lt beyond),
        List.getElem?_eq_none (Nat.le_of_lt beyond)]

def Event.adjust (e : Event α) (n : Nat) (l : Leader) : Config × Identity × Overrides :=
  (l.config, (e.identified? n).getD l.identity, ((e.installed? n).map .ofList).getD l.overrides)

/-- What a leader is set to, and how many jobs and leaders there are, as the events tell it. -/
structure Settled (events : List (Event α)) (s : Sessions α) : Prop where
  jobs : s.jobs.length = jobsAfter events
  leaders : s.leaders.length = (events.filterMap Event.created?).length
  unborn : ∀ n, s.leaders.length ≤ n →
    lastOf (·.identified? n) events = none ∧ lastOf (·.installed? n) events = none
  settings : ∀ n, (s.leader n).settings = settingsAfter events n

namespace Settled

theorem empty : Settled (α := α) [] {} := ⟨rfl, rfl, fun _ _ => ⟨rfl, rfl⟩, fun _ => rfl⟩

theorem create (h : Settled events s) (leader : Leader) :
    Settled (events ++ [.create leader]) (s.newLeader leader).1 := by
  refine ⟨?_, ?_, fun n beyond => ?_, fun n => ?_⟩
  · rw [jobsAfter, List.countP_append]
    exact h.jobs
  · simp [newLeader, Event.created?, h.leaders]
  · rw [lastOf_concat, lastOf_concat]
    refine h.unborn n (Nat.le_of_succ_le ?_)
    simpa [newLeader] using beyond
  · rw [settingsAfter, identityAfter, overridesAfter, lastOf_concat, lastOf_concat,
      createdLeader_create, leader_newLeader, ← h.leaders]
    split
    · rename_i last
      -- nobody has spoken to the new leader yet, so it is as it was created
      obtain ⟨unidentified, uninstalled⟩ := h.unborn n (Nat.le_of_eq last.symm)
      rw [unidentified, uninstalled]
      rfl
    · exact h.settings n

theorem concat (h : Settled events s) (created : e.created? = none)
    (jobs : next.jobs.length = s.jobs.length + if e.makesJob then 1 else 0)
    (leaders : next.leaders.length = s.leaders.length)
    (own : ∀ n, s.leaders.length ≤ n → e.identified? n = none ∧ e.installed? n = none)
    (settings : ∀ n, (next.leader n).settings = e.adjust n (s.leader n)) :
    Settled (events ++ [e]) next := by
  refine ⟨?_, ?_, fun n beyond => ?_, fun n => ?_⟩
  · rw [jobs, h.jobs, jobsAfter, jobsAfter, List.countP_append, List.countP_singleton]
  · rw [leaders, h.leaders, filterMap_concat, created, Option.toList_none, List.append_nil]
  · rw [leaders] at beyond
    rw [lastOf_concat, lastOf_concat, (own n beyond).1, (own n beyond).2]
    exact h.unborn n beyond
  · obtain ⟨config, identity, overrides⟩ := by
      simpa only [Leader.settings, settingsAfter, Prod.mk.injEq] using h.settings n
    rw [settings, settingsAfter, createdLeader_concat_of_none _ _ created, Event.adjust, config,
      identity, overrides, identityAfter, identityAfter, overridesAfter, overridesAfter,
      createdLeader_concat_of_none _ _ created, lastOf_concat, lastOf_concat]
    cases e.identified? n <;> cases e.installed? n <;> rfl

theorem settings_ite {k m : Nat} {l : Leader} (same : l.settings = (s.leader k).settings) :
    (if m = k then l else s.leader m).settings = (s.leader m).settings := by
  split
  · rename_i here
    rw [here, same]
  · rfl

theorem step (h : Settled events s) (st : s.step e = some (next, added)) :
    Settled (events ++ [e]) next := by
  have silent : ∀ n, s.leaders.length ≤ n → (none : Option Identity) = none ∧
      (none : Option (List Parameter)) = none := fun _ _ => ⟨rfl, rfl⟩
  cases moves_of_step st with
  | create _ _ => exact h.create _
  | @identify k identity known | @override k parameters known =>
    refine h.concat rfl rfl List.length_set (fun m beyond => ?_) fun m => ?_
    · have other : k ≠ m := by omega
      simp [Event.identified?, Event.installed?, other]
    · rw [leader_setLeader known]
      by_cases mine : m = k
      · subst mine
        simp [Event.adjust, Event.identified?, Event.installed?, Leader.settings,
          Leader.setOverrides]
      · simp [Event.adjust, Event.identified?, Event.installed?, Leader.settings, mine,
          Ne.symm mine]
  | newJob => exact h.concat rfl (by simp [Sessions.newJob, Event.makesJob]) rfl silent fun _ => rfl
  | @start _ _ _ _ known =>
    refine h.concat rfl ?_ List.length_set silent fun m => ?_
    · simp [started, Sessions.newJob, setJob, setLeader, addCollection, Event.makesJob]
    · rw [leader_started known]
      exact settings_ite rfl
  | refuse _ =>
    refine h.concat rfl ?_ rfl silent fun _ => rfl
    simp [refused, Sessions.newJob, addCollection, Event.makesJob]
  | watch _ _ _ | terminate _ _ _ _ =>
    exact h.concat rfl (List.length_map _) rfl silent fun _ => rfl
  | remove _ _ _ _ removed =>
    refine h.concat rfl rfl List.length_set silent fun m => ?_
    rw [leader_remove removed]
    rfl
  | drop _ _ _ _ _ | call _ _ _ | proceed _ _ _ => exact h.concat rfl rfl rfl silent fun _ => rfl
  | flag known =>
    refine h.concat rfl rfl List.length_set silent fun m => ?_
    rw [leader_setLeader known]
    exact settings_ite rfl
  | cancel known =>
    refine h.concat rfl rfl List.length_set silent fun m => ?_
    rw [leader_cancel known]
    exact settings_ite rfl

theorem of_run (ran : ({} : Sessions α).run events = some (s, record)) : Settled events s := by
  induction events using List.reverseRecOn generalizing s record with
  | nil =>
    cases ran
    exact empty
  | append_singleton events e ih =>
    obtain ⟨mid, told, added, first, st, -⟩ := exists_of_run_concat ran
    exact (ih first).step st

end Settled

section

variable {id : Nat} {job : Job}

theorem Moves.length_jobs_le (moves : s.Moves e next added) :
    s.jobs.length ≤ next.jobs.length := by
  cases moves with
  | newJob | start _ | refuse _ =>
    simp [Sessions.newJob, started, refused, setJob, setLeader, addCollection]
  | watch _ _ _ | terminate _ _ _ _ => exact Nat.le_of_eq (List.length_map _).symm
  | create _ _ | identify _ | override _ | remove _ _ _ _ _ | drop _ _ _ _ _ | call _ _ _ | flag _
  | cancel _ | proceed _ _ _ => exact Nat.le_refl _

theorem Moves.launch (moves : s.Moves e next added) (old : id ≤ s.jobs.length)
    (found : s.job? id = some job) :
    ∃ later, next.job? id = some later ∧ later.launch = job.launch := by
  rcases moves.job found old with ⟨-, same⟩ | ⟨_, moved, -, -, step, now, -⟩ | ⟨_, _, -, -, -, now⟩
  · exact ⟨job, same, rfl⟩
  · exact ⟨moved, now, Job.launch_step step⟩
  · exact ⟨_, now, job.launch_requestCancel⟩

theorem launch_run (reached : Reached s record) (ran : s.run events = some (final, told))
    (found : s.job? id = some job) :
    ∃ later, final.job? id = some later ∧ later.launch = job.launch := by
  induction events generalizing s record told job with
  | nil =>
    cases ran
    exact ⟨job, found, rfl⟩
  | cons e events ih =>
    obtain ⟨next, added, more, st, rest, rfl⟩ := exists_of_run_cons ran
    have old := (Managed.of_reached reached).le_of_job? found
    obtain ⟨job', found', same'⟩ := (moves_of_step st).launch old found
    obtain ⟨later, found'', same⟩ := ih (reached.step st) rest found'
    exact ⟨later, found'', same.trans same'⟩

theorem collect_eq_started {context : α} {spawn : List String → Except SystemFault (Unit × Child)}
    {words : List String} {child : Child}
    (splits : CommandLine.split (s.leader n).command = .ok words)
    (spawned : spawn words = .ok ((), child)) :
    s.collect spawn n context = (s.started n context child, some ()) := by
  simp only [collect, newJob, Job.start, Job.words, Job.isStarted, Option.isSome_none,
    Bool.false_eq_true, if_false, splits, spawned]
  rfl

theorem collect_of_started (reached : Reached s record) (st : s.step e = some (next, added))
    {context : α} (member : .started n id context ∈ added) : ∃ spawn words child job,
      e = .collect n context spawn ∧ id = s.jobs.length + 1 ∧
        CommandLine.split (s.leader n).command = .ok words ∧ spawn words = .ok ((), child) ∧
          next.job? id = some job ∧
            job.command = some (s.leader n).command ∧ job.running = some { child } := by
  cases moves_of_step st with
  | @start _ _ spawn child known =>
    simp only [List.mem_singleton, Entry.started.injEq] at member
    obtain ⟨rfl, rfl, rfl⟩ := member
    rcases collect_cases s n context spawn with ⟨⟨words, child', splits, spawned⟩, -⟩ | ⟨-, refused⟩
    · rw [step, if_pos known, collect_eq_started splits spawned] at st
      obtain ⟨same, -⟩ := Prod.mk.inj (Option.some.inj st)
      let job : Job :=
        { id := s.jobs.length + 1, command := some (s.leader n).command
          running := some { child := child' } }
      have made := (Managed.of_reached reached).job?_newJob_self (some (s.leader n).command)
      refine ⟨spawn, words, child', job, rfl, rfl, splits, spawned, ?_, rfl, rfl⟩
      rw [← same]
      exact @job?_setJob_self _ _ job _ made
    · rw [step, if_pos known, refused] at st
      simp at st
  | create _ _ | identify _ | override _ | newJob | refuse _ | watch _ _ _ | remove _ _ _ _ _
  | drop _ _ _ _ _ | call _ _ _ | flag _ | cancel _ | terminate _ _ _ _ | proceed _ _ _ =>
    simp at member

theorem collect_of_refused (reached : Reached s record) (st : s.step e = some (next, added))
    (member : .refused n id ∈ added) : ∃ context spawn job,
      e = .collect n context spawn ∧ id = s.jobs.length + 1 ∧
        ¬Job.CanStart spawn (s.leader n).command ∧ next.job? id = some job ∧
          job.command = some (s.leader n).command ∧ job.running = none := by
  cases moves_of_step st with
  | @refuse _ context spawn known =>
    simp only [List.mem_singleton, Entry.refused.injEq] at member
    obtain ⟨rfl, rfl⟩ := member
    rcases collect_cases s n context spawn with ⟨-, child, started⟩ | ⟨cannot, -⟩
    · rw [step, if_pos known, started] at st
      simp at st
    · have made := (Managed.of_reached reached).job?_newJob_self (some (s.leader n).command)
      exact ⟨context, spawn, _, rfl, rfl, cannot, made, rfl, rfl⟩
  | create _ _ | identify _ | override _ | newJob | start _ | watch _ _ _ | remove _ _ _ _ _
  | drop _ _ _ _ _ | call _ _ _ | flag _ | cancel _ | terminate _ _ _ _ | proceed _ _ _ =>
    simp at member

theorem isFinished_of_removed (reached : Reached s record) {m : Nat}
    (removed : .removed m id ∈ record) : s.Has Job.isFinished id := by
  induction reached with
  | start => cases removed
  | @step s next record added e before st ih =>
    have moves := moves_of_step st
    have managed := Managed.of_reached before
    have kept : s.Has Job.isFinished id → next.Has Job.isFinished id := by
      rintro ⟨job, found, done⟩
      exact moves.isFinished (managed.le_of_job? found) ⟨job, found, done⟩
    rcases List.mem_append.1 removed with old | now
    · exact kept (ih old)
    · cases moves with
      | remove _ _ _ done taken =>
        simp only [List.mem_singleton, Entry.removed.injEq] at now
        obtain ⟨rfl, rfl⟩ := now
        have tracked := managed.tracked _ _ (Leader.eq_of_remove? taken).1
        exact kept (tracked.of_isJobFinished done)
      | create _ _ | identify _ | override _ | newJob | start _ | refuse _ | watch _ _ _
      | drop _ _ _ _ _ | call _ _ _ | flag _ | cancel _ | terminate _ _ _ _ | proceed _ _ _ =>
        simp at now

theorem unasked_of_watched (reached : Reached s record) (st : s.step e = some (next, added))
    {event : Watch.Event} (watched : e.watched? id = some event) :
    id ≤ s.jobs.length ∧ event ≠ .requestCancel := by
  cases moves_of_step st with
  | watch unasked found _ =>
    obtain ⟨rfl, same⟩ := Option.ite_none_right_eq_some.1 watched
    exact ⟨(Managed.of_reached reached).le_of_job? found, Option.some.inj same ▸ unasked⟩
  | create _ _ | identify _ | override _ | newJob | start _ | refuse _ | remove _ _ _ _ _
  | drop _ _ _ _ _ | call _ _ _ | flag _ | cancel _ | terminate _ _ _ _ | proceed _ _ _ =>
    cases watched

end

/-- What a collection comes to: it delivers if its helper has ended well, and then what the helper
has written, merged with the overrides. -/
def resultOf (overrides : Overrides) (seen : List Watch.Event) : Option ParameterSet :=
  (({} : Watch).run seen).bind fun w => Leader.result { overrides } w.completion? w.output.text

/-- As long as nobody has drained a collection, the watcher of its job is what the helper's own
events have made of it. -/
structure Traced (events : List (Event α)) (s : Sessions α) (record : List (Entry α)) : Prop where
  reached : Reached s record
  unborn : ∀ id, s.jobs.length < id → helperEvents events id = []
  unasked : ∀ id, .requestCancel ∉ helperEvents events id
  followed : ∀ {m id context}, .started m id context ∈ record → (∀ m, .drained m id ∉ record) →
    ∃ job r, s.job? id = some job ∧ job.running = some r ∧
      ({} : Watch).run (helperEvents events id) = some r.watch

namespace Traced

variable {id : Nat} {context : α}

theorem followed_step (h : Traced events s record) (st : s.step e = some (next, added)) {m : Nat}
    (started : .started m id context ∈ record ++ added)
    (undrained : ∀ m, .drained m id ∉ record ++ added) : ∃ job r, next.job? id = some job ∧
      job.running = some r ∧ ({} : Watch).run (helperEvents (events ++ [e]) id) = some r.watch := by
  rw [helperEvents, filterMap_concat, ← helperEvents]
  rcases List.mem_append.1 started with before | now
  · obtain ⟨job, r, found, running, ran⟩ := h.followed before
      fun m drained => undrained m (List.mem_append_left _ drained)
    have managed := Managed.of_reached h.reached
    rcases (moves_of_step st).job found (managed.le_of_job? found) with ⟨unwatched, same⟩ |
      ⟨event, moved, watched, -, step, now, -⟩ | ⟨_, c, member, -, left, -⟩
    · rw [unwatched, Option.toList_none, List.append_nil]
      exact ⟨job, r, same, running, ran⟩
    · obtain ⟨r', watch, running', moves, rfl⟩ := Job.step_cases step
      obtain rfl := Option.some.inj (running'.symm.trans running)
      rw [watched, Option.toList_some, Watch.run, List.foldlM_append]
      refine ⟨_, { r' with watch }, now, rfl, Option.bind_eq_some_iff.2 ⟨r'.watch, ran, ?_⟩⟩
      rw [List.foldlM_cons, moves]
      rfl
    · -- what is left to terminate has been drained
      have drained := managed.recorded c member id ((managed.leftDrained c member).subset left)
      exact absurd (List.mem_append_left _ drained) (undrained c.leader)
  · obtain ⟨spawn, words, child, job, rfl, rfl, -, -, found, -, running⟩ :=
      collect_of_started h.reached st now
    refine ⟨job, { child }, found, running, ?_⟩
    -- the id is new, so there was no helper to do anything
    rw [h.unborn _ (Nat.lt_succ_self _)]
    rfl

theorem step (h : Traced events s record) (st : s.step e = some (next, added)) :
    Traced (events ++ [e]) next (record ++ added) := by
  refine ⟨h.reached.step st, fun id fresh => ?_, fun id => ?_, h.followed_step st⟩
  · have grown := (moves_of_step st).length_jobs_le
    rw [helperEvents, filterMap_concat, ← helperEvents,
      h.unborn id (Nat.lt_of_le_of_lt grown fresh)]
    cases watched : e.watched? id with
    | none => rfl
    | some event =>
      have := (unasked_of_watched h.reached st watched).1
      omega
  · rw [helperEvents, filterMap_concat, ← helperEvents, List.mem_append, not_or]
    refine ⟨h.unasked id, fun member => ?_⟩
    rw [Option.mem_toList] at member
    exact (unasked_of_watched h.reached st member).2 rfl

theorem of_run (ran : ({} : Sessions α).run events = some (s, record)) :
    Traced events s record := by
  induction events using List.reverseRecOn generalizing s record with
  | nil =>
    cases ran
    exact ⟨.start, fun _ _ => rfl, fun _ => List.not_mem_nil, nofun⟩
  | append_singleton events e ih =>
    obtain ⟨mid, told, added, first, st, rfl⟩ := exists_of_run_concat ran
    exact (ih first).step st

theorem exists_watch (h : Traced events s record) {n : Nat} {report : Report}
    (called : .called n id report context ∈ record) : ∃ job r, s.job? id = some job ∧
      job.running = some r ∧ ({} : Watch).run (helperEvents events id) = some r.watch ∧
        r.watch.isFinished = true := by
  have accounted := Accounted.of_reached h.reached
  obtain ⟨started, removed⟩ := accounted.of_called called
  obtain ⟨job, r, found, running, ran⟩ := h.followed started (accounted.undrained_of_called called)
  obtain ⟨job', found', done⟩ := isFinished_of_removed h.reached removed
  obtain rfl := Option.some.inj (found.symm.trans found')
  exact ⟨job, r, found, running, ran, by simpa [Job.isFinished, running] using done⟩

theorem parameters_of_called (h : Traced events s record) (settled : Settled events s)
    (st : s.step e = some (next, added)) {n : Nat} {report : Report}
    (called : .called n id report context ∈ added) : ∃ k c, e = .call k ∧
      s.collections[k]? = some c ∧ (c.leader, c.job, c.context) = (n, id, context) ∧
        helperEvents (events ++ [e]) id = helperEvents events id ∧
          report.parameters = resultOf (overridesAfter events n) (helperEvents events id) := by
  obtain ⟨job, r, found, running, ran, done⟩ :=
    (h.step st).exists_watch (List.mem_append_right _ called)
  cases moves_of_step st with
  | @call k c here waiting claimed =>
    simp only [List.mem_singleton, Entry.called.injEq] at called
    obtain ⟨rfl, rfl, rfl, rfl⟩ := called
    have same : helperEvents (events ++ [.call k]) c.job = helperEvents events c.job := by
      rw [helperEvents, filterMap_concat]
      exact List.append_nil _
    have found : s.job? c.job = some job := found
    have overrides : (s.leader c.leader).overrides = overridesAfter events c.leader :=
      congrArg (·.2.2) (settled.settings c.leader)
    rw [same] at ran
    refine ⟨k, c, rfl, here, rfl, same, ?_⟩
    rw [resultOf, ran, Option.bind_some, ← overrides]
    simp only [report, found, running, Option.bind_some, Option.map_some, Option.getD_some,
      Job.text, Watch.capture]
    exact Leader.result_congr (l := { overrides := (s.leader c.leader).overrides }) rfl _ _
  | create _ _ | identify _ | override _ | newJob | start _ | refuse _ | watch _ _ _
  | remove _ _ _ _ _ | drop _ _ _ _ _ | flag _ | cancel _ | terminate _ _ _ _ | proceed _ _ _ =>
    simp at called

end Traced

theorem resultOf_cases {overrides : Overrides} {seen : List Watch.Event} {w : Watch}
    (unasked : .requestCancel ∉ seen) (ran : ({} : Watch).run seen = some w)
    (done : w.isFinished = true) : ∃ text : String,
      (∀ sent delivered, (Delivery.start sent).run seen = some delivered →
        text = decodeLines (sent .output)) ∧
      ((.reapFault ∈ seen ∧ resultOf overrides seen = none) ∨
        (.reapFault ∉ seen ∧ ∃ how, .helperEnds how ∈ seen ∧ resultOf overrides seen =
          if how.isSuccess then some (overrides.mergeInto text) else none)) := by
  obtain ⟨closed, ended⟩ := Watch.completed_of_unasked unasked ran done
  have result : resultOf overrides seen =
      Leader.result { overrides } w.completion? w.output.text := by
    rw [resultOf, ran, Option.bind_some]
  refine ⟨w.output.text, fun sent delivered ranToo => ?_, ?_⟩
  · obtain same := Option.some.inj (ran.symm.trans (Delivery.watch_run ranToo))
    have captured := (Delivery.sound_start sent).run ranToo .output
    rw [← same] at captured
    exact (captured.of_closed (Watch.allClosed_iff.1 closed .output)).2
  · rw [result]
    refine ended.imp (And.imp_right fun completion => ?_) (And.imp_right ?_)
    · rw [completion]
      rfl
    · rintro ⟨how, ends, completion⟩
      refine ⟨how, ends, ?_⟩
      rw [completion, Leader.result, Leader.merge]

theorem resultOf_append {overrides : Overrides} {seen more : List Watch.Event} {w final : Watch}
    (ran : ({} : Watch).run seen = some w) (done : w.isFinished = true)
    (later : ({} : Watch).run (seen ++ more) = some final) :
    resultOf overrides (seen ++ more) = resultOf overrides seen := by
  obtain ⟨w', first, rest⟩ := Option.bind_eq_some_iff.1 ((List.foldlM_append ..).symm.trans later)
  obtain rfl := Option.some.inj (ran.symm.trans first)
  obtain ⟨stage, capture⟩ := Watch.frame_run_of_isFinished done rest
  have output : final.output = w.output := capture .output
  rw [resultOf, resultOf, ran, later, Option.bind_some, Option.bind_some, output, Watch.completion?,
    Watch.completion?, stage]

end Sessions

end LoginSession

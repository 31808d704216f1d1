import LoginSession.Proofs.Runs
import LoginSession.Supervisor.Sessions

namespace LoginSession

def forget {σ : Type} (spawn : List String → Except SystemFault (σ × Child)) (words : List String) :
    Except SystemFault (Unit × Child) :=
  (spawn words).map fun r => ((), r.2)

theorem Job.start_forget {σ : Type} (spawn : List String → Except SystemFault (σ × Child)) (j : Job) :
    j.start (forget spawn) = (j.start spawn).map fun r => ((), r.2) := by
  unfold start
  cases j.words with
  | error e => rfl
  | ok r =>
    dsimp only [forget]
    cases spawn r.2 with
    | error fault => rfl
    | ok world => rfl

namespace Sessions

variable {α : Type} {s : Sessions α} {record : List (Entry α)}

theorem collect_forget {σ : Type} (spawn : List String → Except SystemFault (σ × Child))
    (s : Sessions α) (n : Nat) (context : α) :
    s.collect (forget spawn) n context =
      ((s.collect spawn n context).1, (s.collect spawn n context).2.map fun _ => ()) := by
  unfold collect
  dsimp only
  rw [Job.start_forget]
  cases (s.newJob (some (s.leader n).command)).2.start spawn with
  | error e => rfl
  | ok world => rfl

theorem exists_step_collect {σ : Type} (spawn : List String → Except SystemFault (σ × Child))
    {n : Nat} (known : n < s.leaders.length) (context : α) :
    ∃ added, s.step (.collect n context (forget spawn)) =
      some ((s.collect spawn n context).1, added) := by
  rw [step, if_pos known, collect_forget]
  cases (s.collect spawn n context).2 with
  | none => exact ⟨_, rfl⟩
  | some world => exact ⟨_, rfl⟩

theorem length_leaders_collect {σ : Type} (spawn : List String → Except SystemFault (σ × Child))
    (s : Sessions α) (n : Nat) (context : α) :
    (s.collect spawn n context).1.leaders.length = s.leaders.length := by
  unfold collect
  dsimp only
  split
  · rfl
  · exact List.length_set

theorem exists_step_complete {n : Nat} {c : Collection α} (waits : s.waiting? n = some c) :
    ∃ added, s.step (.complete n) = some ((s.complete n c).1, added) := by
  rw [step, waits, Option.map_some]
  split
  · rename_i next removed
    exact ⟨_, by rw [removed]⟩
  · rename_i next removed
    exact ⟨_, by rw [removed]⟩

theorem exists_step_call {n : Nat} {c : Collection α} (due : s.due? n = some c) :
    ∃ added, s.step (.call n) = some (s.call n c, added) := by
  rw [step, due]
  exact ⟨_, rfl⟩

theorem exists_step_proceed {k : Nat} {c : Cancellation} (ended : s.ended? k = some c) :
    ∃ added, s.step (.proceed k) = some (s.proceed k c, added) := by
  rw [step, ended]
  exact ⟨_, rfl⟩

theorem length_leaders_complete (s : Sessions α) (n : Nat) (c : Collection α) :
    (s.complete n c).1.leaders.length = s.leaders.length := by
  unfold complete
  split
  · rfl
  · exact List.length_set

end Sessions

namespace Supervisor

variable {α : Type} {s : Supervisor α}

/-- The sessions have come about by steps, and the register knows their leaders. -/
structure Runs (s : Supervisor α) : Prop where
  reached : ∃ record, Sessions.Reached s.toSessions record
  opened : s.registry.opened = s.leaders.length
  known : ∀ entry ∈ s.registry.entries, entry.2 < s.leaders.length

namespace Watching

variable {w next : Watching}

/-- The watcher has taken steps, and none of them was a request to cancel. -/
def Follows (w next : Watching) : Prop :=
  ∃ events, .requestCancel ∉ events ∧ w.watch.run events = some next.watch

theorem Follows.refl (w : Watching) : w.Follows w := ⟨[], List.not_mem_nil, rfl⟩

theorem Follows.trans {middle : Watching} (first : w.Follows middle) (second : middle.Follows next) :
    w.Follows next := by
  obtain ⟨before, silentBefore, ranBefore⟩ := first
  obtain ⟨after, silentAfter, ranAfter⟩ := second
  refine ⟨before ++ after, by simp [silentBefore, silentAfter], ?_⟩
  rw [Watch.run, List.foldlM_append]
  exact Option.bind_eq_some_iff.2 ⟨middle.watch, ranBefore, ranAfter⟩

theorem Follows.of_step {e : Watch.Event} (silent : e ≠ .requestCancel)
    (st : w.watch.step e = some next.watch) : w.Follows next := by
  refine ⟨[e], by simpa using silent.symm, ?_⟩
  rw [Watch.run, List.foldlM_cons, st]
  rfl

theorem follows_happen (w : Watching) {e : Watch.Event} (silent : e ≠ .requestCancel) :
    w.Follows (w.happen e) := by
  unfold happen
  split
  · rename_i watch st
    exact .of_step silent st
  · exact .refl w

theorem follows_noticeCancel (w : Watching) (owner : Nat) (child : Child) :
    w.Follows (w.noticeCancel owner child) := by
  unfold noticeCancel
  split
  · rename_i watch st
    exact .of_step (by simp) st
  · exact .refl w

theorem follows_readStream (w : Watching) (stream : Stream) (pipe : Nat) :
    w.Follows (w.readStream stream pipe) := by
  unfold readStream
  split
  · split
    · rename_i host bytes _
      exact follows_happen { w with host } (by simp)
    · exact .refl w
    · exact (follows_happen w (by simp)).trans (follows_happen _ (by simp))
  · exact .refl w

theorem follows_noticeEnd (w : Watching) (child : Child) : w.Follows (w.noticeEnd child) := by
  unfold noticeEnd
  split
  · exact follows_happen w (by simp)
  · exact .refl w

theorem follows_reap (w : Watching) (child : Child) : w.Follows (w.reap child) := by
  unfold reap
  split
  · rename_i watch host _ st _
    exact .of_step (by simp) st
  · exact .refl w

theorem follows_poll (w : Watching) (owner : Nat) (child : Child) : w.Follows (w.poll owner child) :=
  (((follows_noticeCancel w owner child).trans (follows_readStream _ _ _)).trans
    (follows_readStream _ _ _)).trans ((follows_noticeEnd _ _).trans (follows_reap _ _))

end Watching

/-- The sessions have taken steps that are operations of no leader; the register is as it was. -/
structure Goes (s next : Supervisor α) : Prop where
  ran : ∃ events added, s.toSessions.run events = some (next.toSessions, added) ∧
    ∀ e ∈ events, e.leader? = none
  leaders : next.leaders.length = s.leaders.length
  registry : next.registry = s.registry

namespace Goes

variable {middle next : Supervisor α}

theorem host (s : Supervisor α) (host : Host) : s.Goes { s with host } :=
  ⟨⟨[], [], rfl, by simp⟩, rfl, rfl⟩

theorem refl (s : Supervisor α) : s.Goes s := host s s.host

theorem trans (first : s.Goes middle) (second : middle.Goes next) : s.Goes next := by
  obtain ⟨before, told, ranBefore, freeBefore⟩ := first.ran
  obtain ⟨after, more, ranAfter, freeAfter⟩ := second.ran
  refine ⟨⟨before ++ after, told ++ more, Sessions.run_trans ranBefore ranAfter, fun e member => ?_⟩,
    second.leaders.trans first.leaders, second.registry.trans first.registry⟩
  exact (List.mem_append.1 member).elim (freeBefore e) (freeAfter e)

theorem of_step {sessions : Sessions α} {added : List (Sessions.Entry α)} {e : Sessions.Event α}
    (st : s.toSessions.step e = some (sessions, added)) (free : e.leader? = none)
    (leaders : sessions.leaders.length = s.leaders.length) :
    s.Goes { s with toSessions := sessions } :=
  ⟨⟨[e], added, Sessions.run_single st, by simpa using free⟩, leaders, rfl⟩

end Goes

namespace Runs

theorem of_sessions (h : Runs s) {next : Sessions α} {record : List (Sessions.Entry α)}
    (reached : Sessions.Reached next record) (leaders : next.leaders.length = s.leaders.length) :
    Runs { s with toSessions := next } :=
  ⟨⟨record, reached⟩, h.opened.trans leaders.symm,
    fun entry member => leaders ▸ h.known entry member⟩

theorem step (h : Runs s) {next : Sessions α} {added : List (Sessions.Entry α)}
    {e : Sessions.Event α} (st : s.toSessions.step e = some (next, added))
    (leaders : next.leaders.length = s.leaders.length) : Runs { s with toSessions := next } := by
  obtain ⟨record, reached⟩ := h.reached
  exact h.of_sessions (reached.step st) leaders

theorem of_goes (h : Runs s) {next : Supervisor α} (goes : s.Goes next) : Runs next := by
  obtain ⟨record, reached⟩ := h.reached
  obtain ⟨events, added, ran, -⟩ := goes.ran
  refine ⟨⟨record ++ added, reached.run ran⟩, ?_, ?_⟩
  · rw [goes.registry, goes.leaders]
    exact h.opened
  · rw [goes.registry, goes.leaders]
    exact h.known

theorem host (h : Runs s) (host : Host) : Runs { s with host } := h.of_goes (.host s host)

theorem pollJob (h : Runs s) {job : Job} (found : s.job? job.id = some job) :
    s.Goes (s.pollJob job).1 := by
  unfold Supervisor.pollJob
  split
  · exact .refl s
  · rename_i r started
    split
    · exact .refl s
    · dsimp only
      split
      · obtain ⟨record, reached⟩ := h.reached
        obtain ⟨events, silent, ran⟩ := Watching.follows_poll { host := s.host, watch := r.watch }
          s.owner r.child
        refine ⟨⟨_, [], reached.run_watch found started silent ran, ?_⟩, rfl, rfl⟩
        intro e member
        obtain ⟨event, -, rfl⟩ := List.mem_map.1 member
        rfl
      · exact .refl s

theorem job?_pollJob_of_ne (s : Supervisor α) {job : Job} {id : Nat} (other : id ≠ job.id) :
    (s.pollJob job).1.job? id = s.job? id := by
  unfold Supervisor.pollJob
  split
  · rfl
  · split
    · rfl
    · dsimp only
      split
      · exact Sessions.job?_setJob_of_ne _ other
      · rfl

theorem pollJobs (h : Runs s) : s.Goes s.pollJobs.1 := by
  obtain ⟨record, reached⟩ := h.reached
  have managed := Sessions.Managed.of_reached reached
  have distinct : (s.jobs.map (·.id)).Nodup := managed.numbered ▸ List.nodup_range'
  have found : ∀ job ∈ s.jobs, s.job? job.id = some job := fun _ => managed.job?_of_mem
  rw [Supervisor.pollJobs, pollEach_fst]
  -- the jobs are those at the start; polling one of them leaves the later ones as they were found
  generalize s.jobs = jobs at distinct found
  clear reached managed
  induction jobs generalizing s with
  | nil => exact .refl s
  | cons job jobs ih =>
    rw [List.map_cons, List.nodup_cons] at distinct
    have polled := h.pollJob (found job List.mem_cons_self)
    refine polled.trans (ih (h.of_goes polled) distinct.2 fun other member => ?_)
    refine (job?_pollJob_of_ne s fun same => distinct.1 ?_).trans
      (found other (List.mem_cons_of_mem _ member))
    exact List.mem_map.2 ⟨other, member, same⟩

theorem pollCollection (s : Supervisor α) (n : Nat) : s.Goes (s.pollCollection n).1 := by
  unfold Supervisor.pollCollection
  split
  · exact .refl s
  · rename_i c' waits
    obtain ⟨added, st⟩ := Sessions.exists_step_complete waits
    have completed := Goes.of_step st rfl (Sessions.length_leaders_complete _ n c')
    dsimp only
    split
    · exact completed
    · rename_i c due
      obtain ⟨_, called⟩ := Sessions.exists_step_call due
      exact completed.trans (.of_step called rfl rfl)

theorem foldl {β : Type} {f : Supervisor α → β → Supervisor α}
    (goes : ∀ {s : Supervisor α} {x}, Runs s → s.Goes (f s x)) (h : Runs s) (xs : List β) :
    s.Goes (xs.foldl f s) := by
  induction xs generalizing s with
  | nil => exact .refl s
  | cons x xs ih => exact (goes h).trans (ih (h.of_goes (goes h)))

theorem pollCollections (h : Runs s) : s.Goes s.pollCollections.1 := by
  rw [Supervisor.pollCollections, pollEach_fst]
  exact h.foldl (fun _ => pollCollection _ _) _

theorem poll (h : Runs s) : s.Goes s.poll.1 :=
  h.pollJobs.trans (h.of_goes h.pollJobs).pollCollections

theorem advance (h : Runs s) {deadline : Option Nat} {next : Supervisor α}
    (advanced : s.advance deadline = some next) : s.Goes next := by
  unfold Supervisor.advance at advanced
  dsimp only at advanced
  have polled := (Goes.host s s.host.round.1).trans (h.host s.host.round.1).poll
  split at advanced
  · cases advanced
    exact polled
  · split at advanced
    · cases advanced
    · split at advanced
      · cases advanced
        exact polled.trans (.host _ _)
      · cases advanced

theorem runFor (h : Runs s) (deadline : Option Nat) (done : Supervisor α → Bool) (fuel : Nat) :
    s.Goes (runFor deadline done fuel s) := by
  induction fuel generalizing s with
  | zero => exact .refl s
  | succ fuel ih =>
    unfold Supervisor.runFor
    split
    · exact .refl s
    · split
      · exact .refl s
      · split
        · exact .refl s
        · rename_i next advanced
          have first := h.advance advanced
          exact first.trans (ih (h.of_goes first))

theorem runUntil (h : Runs s) (deadline : Option Nat) (done : Supervisor α → Bool) :
    s.Goes (s.runUntil deadline done) :=
  h.runFor deadline done patience

theorem collect (h : Runs s) {leader : Nat} (known : leader < s.leaders.length) (context : α) :
    Runs (s.collect leader context).1 := by
  obtain ⟨_, st⟩ := Sessions.exists_step_collect (s.host.spawn s.owner) known context
  have collected := h.step st (Sessions.length_leaders_collect _ _ leader context)
  unfold Supervisor.collect
  dsimp only
  split
  · rename_i sessions host same
    rw [same] at collected
    exact collected.host host
  · rename_i sessions same
    rw [same] at collected
    exact collected

theorem terminateNext (h : Runs s) (k id : Nat) : s.Goes (s.terminateNext k id) := by
  unfold Supervisor.terminateNext
  split
  · exact .refl s
  · rename_i c job next
    have terminated : s.step (.terminate k id) = some (s.toSessions.terminate k c job, []) := by
      rw [Sessions.step, next]
      rfl
    have asked := Goes.of_step terminated rfl rfl
    have waited := asked.trans ((h.of_goes asked).runUntil none fun s =>
      ((s.cancellations[k]?).bind (·.awaited)).isNone || (s.ended? k).isSome)
    dsimp only
    split
    · exact waited
    · rename_i c' ended
      obtain ⟨_, proceeded⟩ := Sessions.exists_step_proceed ended
      exact waited.trans (.of_step proceeded rfl rfl)

theorem step_cancel {leader : Nat} (known : leader < s.leaders.length) :
    s.step (.cancel leader) = some (s.toSessions.cancel leader,
      (s.leader leader).pending.map fun id => .drained leader id) := if_pos known

theorem cancel (h : Runs s) {leader : Nat} (known : leader < s.leaders.length) :
    Runs { s with toSessions := s.toSessions.cancel leader } :=
  h.step (step_cancel known) List.length_set

theorem cancelLeader (h : Runs s) {leader : Nat} (known : leader < s.leaders.length) :
    Goes { s with toSessions := s.toSessions.cancel leader } (s.cancelLeader leader) := by
  have drained := (h.cancel known).foldl
    (fun {_ id} runs => runs.terminateNext s.cancellations.length id) (s.leader leader).pending
  exact drained.trans ((h.cancel known).of_goes drained).pollCollections

theorem openSession (h : Runs s) {cookie : String} {request : OpenRequest} {next : Supervisor α}
    {leader : Nat} (opened : s.openSession cookie request = .ok (next, leader)) :
    Runs next ∧ leader < next.leaders.length := by
  unfold Supervisor.openSession Registry.register at opened
  cases taken : s.registry.find? cookie with
  | some other => simp [taken] at opened
  | none =>
    simp only [taken, Except.ok.injEq] at opened
    obtain ⟨record, reached⟩ := h.reached
    have created : s.step (.create (s.registry.leaderFor cookie request)) =
        some ((s.toSessions.newLeader (s.registry.leaderFor cookie request)).1, []) := rfl
    cases opened
    have length : (s.leaders ++ [s.registry.leaderFor cookie request]).length =
        s.leaders.length + 1 := List.length_append
    refine ⟨⟨⟨_, reached.step created⟩, (congrArg (· + 1) h.opened).trans length.symm, ?_⟩,
      Nat.lt_of_lt_of_eq (Nat.lt_succ_self _) length.symm⟩
    intro entry member
    refine Nat.lt_of_lt_of_eq (Nat.lt_succ_of_le ?_) length.symm
    rcases List.mem_append.1 member with old | new
    · exact Nat.le_of_lt (h.known entry old)
    · rw [List.mem_singleton.1 new]
      exact Nat.le_of_eq h.opened

end Runs

end Supervisor

end LoginSession

import LoginSession.Job.History
import LoginSession.Proofs.Interleaving
import LoginSession.Proofs.Termination

namespace LoginSession

namespace Job

variable {id : Nat} {command : Option String} {j next final : Job} {record told : List Answer}
  {e : Event}

def HasWords (j : Job) (words : List String) : Prop :=
  ∃ command, j.command = some command ∧ CommandLine.split command = .ok words

structure Runs (j : Job) (spawn : List String → Except SystemFault Child) (words : List String)
    (child : Child) : Prop where
  given : j.HasWords words
  spawned : spawn words = .ok child

inductive Refuses (j : Job) (spawn : List String → Except SystemFault Child) : SessionError → Prop
  | noCommand (missing : j.command = none) : Refuses j spawn .noCommand
  | commandLine {command : String} {cause : CommandLine.SplitError}
    (given : j.command = some command)
    (unsplit : CommandLine.split command = .error cause) : Refuses j spawn (.commandLine cause)
  | spawn {command : String} {words : List String} {fault : SystemFault}
    (given : j.command = some command) (splits : CommandLine.split command = .ok words)
    (failed : spawn words = .error fault) : Refuses j spawn (.spawn command fault)

section

variable {spawn : List String → Except SystemFault Child} {words : List String} {child : Child}
  {error : SessionError}

theorem runs_or_refuses (j : Job) (spawn : List String → Except SystemFault Child) :
    (∃ words child, j.Runs spawn words child) ∨ ∃ error, j.Refuses spawn error := by
  cases given : j.command with
  | none => exact .inr ⟨_, .noCommand given⟩
  | some command =>
    cases splits : CommandLine.split command with
    | error cause => exact .inr ⟨_, .commandLine given splits⟩
    | ok words =>
      cases spawned : spawn words with
      | error fault => exact .inr ⟨_, .spawn given splits spawned⟩
      | ok child => exact .inl ⟨words, child, ⟨command, given, splits⟩, spawned⟩

theorem execute_of_runs (unstarted : j.running = none) (h : j.Runs spawn words child) :
    j.execute spawn = .ok (words, { j with running := some { child } }) := by
  obtain ⟨⟨command, given, splits⟩, spawned⟩ := h
  have ready : j.words = .ok (command, words) := by
    simp [Job.words, isStarted, unstarted, given, splits]
  simp [execute, start, ready, spawned, Except.map]

theorem execute_of_refuses (unstarted : j.running = none) (h : j.Refuses spawn error) :
    j.execute spawn = .error error := by
  cases h with
  | noCommand missing => simp [execute, start, Job.words, isStarted, unstarted, missing]
  | commandLine given unsplit =>
    simp [execute, start, Job.words, isStarted, unstarted, given, unsplit]
  | spawn given splits failed =>
    simp [execute, start, Job.words, isStarted, unstarted, given, splits, failed, Except.map]

theorem execute_of_running {r : Running} (running : j.running = some r)
    (spawn : List String → Except SystemFault Child) :
    j.execute spawn = .error (.alreadyStarted j.id) :=
  start_of_isStarted _ (by rw [isStarted, running, Option.isSome_some])

end

inductive Moves (j : Job) : Event → Job → List Answer → Prop where
  | setCommand {command : String} (unstarted : j.running = none) :
    Moves j (.setCommand command) { j with command := some command } []
  | ignore {command : String} {r : Running} (running : j.running = some r) :
    Moves j (.setCommand command) j []
  | start {spawn : List String → Except SystemFault Child} {words : List String} {child : Child}
    (unstarted : j.running = none) (runs : j.Runs spawn words child) :
    Moves j (.execute spawn) { j with running := some { child } } [.started words]
  | refuse {spawn : List String → Except SystemFault Child} {error : SessionError}
    (unstarted : j.running = none) (refuses : j.Refuses spawn error) :
    Moves j (.execute spawn) j [.refused error]
  | again {spawn : List String → Except SystemFault Child} {r : Running}
    (running : j.running = some r) : Moves j (.execute spawn) j [.refused (.alreadyStarted j.id)]
  | pass (unstarted : j.running = none) : Moves j .cancel j [.cancelled false]
  | release {r : Running} {watch : Watch} (running : j.running = some r) :
    Moves j .cancel { j with running := some { r with watch, tracked := false } }
      [.cancelled j.isRunning]
  | watch {e : Watch.Event} {r : Running} {watch : Watch} (unasked : e ≠ .requestCancel)
    (running : j.running = some r) (step : r.watch.step e = some watch) :
    Moves j (.watch e) { j with running := some { r with watch } } []

theorem moves_of_act (h : j.act e = some (next, told)) : j.Moves e next told := by
  cases e with
  | setCommand command =>
    cases h
    cases running : j.running with
    | none =>
      rw [Job.setCommand, if_neg (by simp [isStarted, running])]
      exact .setCommand running
    | some r =>
      rw [Job.setCommand, if_pos (by simp [isStarted, running])]
      exact .ignore running
  | execute spawn =>
    rw [act] at h
    cases running : j.running with
    | some r =>
      rw [execute_of_running running] at h
      cases h
      exact .again running
    | none =>
      rcases runs_or_refuses j spawn with ⟨words, child, runs⟩ | ⟨error, refuses⟩
      · rw [execute_of_runs running runs] at h
        cases h
        exact .start running runs
      · rw [execute_of_refuses running refuses] at h
        cases h
        exact .refuse running refuses
  | cancel =>
    cases running : j.running with
    | none =>
      simp only [act, requestCancel, running] at h
      cases h
      exact .pass running
    | some r =>
      simp only [act, requestCancel, running] at h
      cases h
      exact .release running
  | watch event =>
    simp only [act, Option.ite_none_left_eq_some, Option.map_eq_some_iff, Prod.mk.injEq] at h
    obtain ⟨unasked, moved, stepped, rfl, rfl⟩ := h
    obtain ⟨r, watch, running, step, rfl⟩ := step_cases stepped
    exact .watch unasked running step

/-- Answers from which nothing has been started and nothing ended. -/
def Quiet (told : List Answer) : Prop := ∀ a ∈ told, a.isStart = false ∧ a.isEnd = false

def Refusals (told : List Answer) : Prop := ∀ a ∈ told, ∃ error, a = .refused error

/-- Where a job is in its life. Before it has been started there is nothing to cancel. From then on
it refuses to start again, until its first cancellation lets go of its helper and ever after. -/
inductive Phase (j : Job) : List Answer → Prop where
  | fresh {before : List Answer} (unstarted : j.running = none) (quiet : Quiet before) :
    Phase j before
  | tracked {before after : List Answer} {words : List String} {r : Running}
    (running : j.running = some r) (tracked : r.tracked = true) (given : j.HasWords words)
    (quiet : Quiet before) (refused : Refusals after) :
    Phase j (before ++ .started words :: after)
  | released {before after rest : List Answer} {words : List String} {ended : Bool} {r : Running}
    (running : j.running = some r) (untracked : r.tracked = false) (given : j.HasWords words)
    (quiet : Quiet before) (refused : Refusals after) (later : Quiet rest) :
    Phase j (before ++ .started words :: (after ++ .cancelled ended :: rest))

theorem Quiet.concat {a : Answer} (h : Quiet record) (unstarted : a.isStart = false)
    (unended : a.isEnd = false) : Quiet (record ++ [a]) := by
  intro b member
  rcases List.mem_append.1 member with before | now
  · exact h b before
  · rw [List.mem_singleton.1 now]
    exact ⟨unstarted, unended⟩

theorem Refusals.concat (h : Refusals record) (error : SessionError) :
    Refusals (record ++ [.refused error]) := by
  intro b member
  rcases List.mem_append.1 member with before | now
  · exact h b before
  · exact ⟨error, List.mem_singleton.1 now⟩

theorem Refusals.quiet (h : Refusals record) : Quiet record := by
  intro a member
  obtain ⟨error, rfl⟩ := h a member
  exact ⟨rfl, rfl⟩

namespace Quiet

variable {words : List String}

theorem countP_isStart (h : Quiet record) : record.countP (·.isStart) = 0 :=
  List.countP_eq_zero.2 fun a member => by simp [(h a member).1]

theorem countP_isEnd (h : Quiet record) : record.countP (·.isEnd) = 0 :=
  List.countP_eq_zero.2 fun a member => by simp [(h a member).2]

theorem not_mem_started (h : Quiet record) : .started words ∉ record := by
  intro member
  have := (h _ member).1
  cases this

end Quiet

namespace Phase

theorem step (h : Phase j record) (acted : j.act e = some (next, told)) :
    Phase next (record ++ told) := by
  have moves := moves_of_act acted
  cases h with
  | fresh unstarted quiet =>
    cases moves with
    | setCommand _ =>
      rw [List.append_nil]
      exact .fresh unstarted quiet
    | start _ runs => exact .tracked rfl rfl runs.given quiet (by simp [Refusals])
    | refuse _ _ | pass _ => exact .fresh unstarted (quiet.concat rfl rfl)
    | ignore running | again running | release running | watch _ running _ =>
      simp [unstarted] at running
  | tracked running tracked given quiet refused =>
    rw [List.append_assoc, List.cons_append]
    cases moves with
    | ignore _ =>
      rw [List.append_nil]
      exact .tracked running tracked given quiet refused
    | again _ => exact .tracked running tracked given quiet (refused.concat _)
    | release _ => exact .released rfl rfl given quiet refused (by simp [Quiet])
    | watch _ running' _ =>
      obtain rfl := Option.some.inj (running'.symm.trans running)
      rw [List.append_nil]
      exact .tracked rfl tracked given quiet refused
    | setCommand unstarted | start unstarted _ | refuse unstarted _ | pass unstarted =>
      simp [running] at unstarted
  | released running untracked given quiet refused later =>
    rw [List.append_assoc, List.cons_append, List.append_assoc, List.cons_append]
    cases moves with
    | ignore _ =>
      rw [List.append_nil]
      exact .released running untracked given quiet refused later
    | again _ => exact .released running untracked given quiet refused (later.concat rfl rfl)
    | release _ =>
      have stopped : j.isRunning = false := by simp [isRunning, isTracked, running, untracked]
      rw [stopped]
      exact .released rfl rfl given quiet refused (later.concat rfl rfl)
    | watch _ running' _ =>
      obtain rfl := Option.some.inj (running'.symm.trans running)
      rw [List.append_nil]
      exact .released rfl untracked given quiet refused later
    | setCommand unstarted | start unstarted _ | refuse unstarted _ | pass unstarted =>
      simp [running] at unstarted

theorem of_reached (reached : Reached id command j record) : Phase j record := by
  induction reached with
  | start => exact .fresh rfl (by simp [Quiet])
  | step _ acted phase => exact phase.step acted

theorem countP_isStart_le_one (h : Phase j record) : record.countP (·.isStart) ≤ 1 := by
  cases h with
  | fresh _ quiet => simp [quiet.countP_isStart]
  | tracked _ _ _ quiet refused =>
    simp [List.countP_cons, quiet.countP_isStart, refused.quiet.countP_isStart]
  | released _ _ _ quiet refused later =>
    simp [List.countP_cons, quiet.countP_isStart, refused.quiet.countP_isStart,
      later.countP_isStart]

theorem countP_isEnd_le_one (h : Phase j record) : record.countP (·.isEnd) ≤ 1 := by
  cases h with
  | fresh _ quiet => simp [quiet.countP_isEnd]
  | tracked _ _ _ quiet refused => simp [quiet.countP_isEnd, refused.quiet.countP_isEnd]
  | @released _ _ _ _ ended _ _ _ _ quiet refused later =>
    cases ended <;>
      simp [List.countP_cons, quiet.countP_isEnd, refused.quiet.countP_isEnd, later.countP_isEnd]

theorem unstarted_iff (h : Phase j record) :
    j.running = none ↔ ∀ words, .started words ∉ record := by
  cases h with
  | fresh unstarted quiet => exact ⟨fun _ _ => quiet.not_mem_started, fun _ => unstarted⟩
  | tracked running _ _ _ _ | released running _ _ _ _ _ =>
    rw [running]
    refine ⟨nofun, fun fresh => ?_⟩
    exact absurd (List.mem_append_right _ (List.mem_cons_self ..)) (fresh _)

theorem running_iff (h : Phase j record) :
    (∃ r, j.running = some r) ↔ ∃ words, .started words ∈ record := by
  rw [← Option.ne_none_iff_exists', ne_eq, h.unstarted_iff, not_forall]
  simp only [not_not]

theorem hasWords (h : Phase j record) {words : List String} (started : .started words ∈ record) :
    j.HasWords words := by
  cases h with
  | fresh _ quiet => exact absurd started quiet.not_mem_started
  | tracked _ _ given quiet refused =>
    rcases List.mem_append.1 started with before | later
    · exact absurd before quiet.not_mem_started
    · rcases List.mem_cons.1 later with same | after
      · exact Answer.started.inj same ▸ given
      · exact absurd after refused.quiet.not_mem_started
  | released _ _ given quiet refused later =>
    simp only [List.mem_append, List.mem_cons, reduceCtorEq, false_or] at started
    rcases started with before | same | after | rest
    · exact absurd before quiet.not_mem_started
    · exact Answer.started.inj same ▸ given
    · exact absurd after refused.quiet.not_mem_started
    · exact absurd rest later.not_mem_started

theorem isTracked_iff (h : Phase j record) : j.isTracked = true ↔ ∃ before words after,
    record = before ++ .started words :: after ∧ ∀ ended, .cancelled ended ∉ after := by
  cases h with
  | fresh unstarted quiet =>
    have untracked : j.isTracked = false := by rw [isTracked, unstarted]
    rw [untracked]
    refine ⟨fun held => absurd held Bool.false_ne_true, ?_⟩
    rintro ⟨before, words, after, rfl, -⟩
    have started : .started words ∈ before ++ .started words :: after := by simp
    exact absurd started quiet.not_mem_started
  | tracked running tracked _ _ refused =>
    have held : j.isTracked = true := by simp [isTracked, running, tracked]
    refine ⟨fun _ => ⟨_, _, _, rfl, fun ended member => ?_⟩, fun _ => held⟩
    obtain ⟨error, same⟩ := refused _ member
    cases same
  | @released _ after rest _ ended _ running untracked _ quiet refused later =>
    have dropped : j.isTracked = false := by simp [isTracked, running, untracked]
    rw [dropped]
    refine ⟨fun held => absurd held Bool.false_ne_true, ?_⟩
    rintro ⟨before', words', after', same, silent⟩
    -- the record tells of a single start, so both splits of it are the same
    have alone : .started words' ∉ after ++ .cancelled ended :: rest := by
      simp [refused.quiet.not_mem_started, later.not_mem_started]
    obtain ⟨-, -, rfl⟩ := (List.append_cons_inj_of_notMem quiet.not_mem_started alone).1 same
    exact absurd (List.mem_append_right _ (List.mem_cons_self ..)) (silent ended)

end Phase

theorem id_act (acted : j.act e = some (next, told)) : next.id = j.id := by
  cases moves_of_act acted <;> rfl

theorem id_of_reached (reached : Reached id command j record) : j.id = id := by
  induction reached with
  | start => rfl
  | step _ acted ih => exact (id_act acted).trans ih

theorem command_act {r : Running} (running : j.running = some r)
    (acted : j.act e = some (next, told)) :
    next.command = j.command ∧ ∃ r', next.running = some r' := by
  cases moves_of_act acted with
  | ignore _ | again _ => exact ⟨rfl, r, running⟩
  | release _ | watch _ _ _ => exact ⟨rfl, _, rfl⟩
  | setCommand unstarted | start unstarted _ | refuse unstarted _ | pass unstarted =>
    simp [running] at unstarted

theorem command_run {r : Running} {events : List Event} (running : j.running = some r)
    (ran : j.run events = some (final, told)) : final.command = j.command := by
  induction events generalizing j r told with
  | nil =>
    cases ran
    rfl
  | cons e events ih =>
    obtain ⟨next, first, more, acted, later, -⟩ := exists_of_run_cons ran
    obtain ⟨kept, r', running'⟩ := command_act running acted
    exact (ih running' later).trans kept

theorem run_watch {r : Running} {watch : Watch} {events : List Watch.Event}
    (running : j.running = some r) (unasked : .requestCancel ∉ events)
    (ran : r.watch.run events = some watch) :
    j.run (events.map .watch) = some ({ j with running := some { r with watch } }, []) := by
  induction events generalizing j r with
  | nil =>
    cases ran
    rw [← running]
    rfl
  | cons e events ih =>
    rw [List.mem_cons, not_or] at unasked
    obtain ⟨middle, stepped, later⟩ := Option.bind_eq_some_iff.1 ran
    have acted : j.act (.watch e) =
        some ({ j with running := some { r with watch := middle } }, []) := by
      simp [act, step, Ne.symm unasked.1, running, stepped]
    have rest := @ih { j with running := some { r with watch := middle } } _ rfl unasked.2 later
    rw [List.map_cons, run, acted]
    simp only [rest, Option.map_some, List.append_nil]

/-- What there is to say of a job after any run. -/
structure LifeCycle (id : Nat) (j : Job) (record : List Answer) : Prop where
  named : j.id = id
  startedOnce : record.countP (·.isStart) ≤ 1
  endedOnce : record.countP (·.isEnd) ≤ 1
  answers : ∀ spawn, ∃ next answer, j.act (.execute spawn) = some (next, [answer])
  /-- An attempt to start the job succeeds if none has before it and the command can be run. -/
  starts : ∀ spawn next words, j.act (.execute spawn) = some (next, [.started words]) ↔
    (∀ w, .started w ∉ record) ∧
      ∃ child, j.Runs spawn words child ∧ next = { j with running := some { child } }
  /-- An attempt that fails changes nothing at all. -/
  refuses : ∀ spawn next error, j.act (.execute spawn) = some (next, [.refused error]) ↔
    next = j ∧ ((∀ w, .started w ∉ record) ∧ j.Refuses spawn error ∨
      (∃ w, .started w ∈ record) ∧ error = .alreadyStarted id)
  alreadyStarted : ∀ spawn job,
    (∃ next, j.act (.execute spawn) = some (next, [.refused (.alreadyStarted job)])) ↔
      (∃ w, .started w ∈ record) ∧ job = id
  /-- After attempts that failed another command can be set, and be run. -/
  retries : (∀ w, .started w ∉ record) → ∀ command words spawn child,
    CommandLine.split command = .ok words → spawn words = .ok child →
      j.run [.setCommand command, .execute spawn] =
        some ({ j with command := some command, running := some { child } }, [.started words])
  /-- The command is the one that was run, and stays so. -/
  command : ∀ words, .started words ∈ record → j.HasWords words ∧
    ∀ events final told, j.run events = some (final, told) → final.command = j.command
  tracked : j.isTracked = true ↔ ∃ before words after,
    record = before ++ .started words :: after ∧ ∀ ended, .cancelled ended ∉ after
  cancels : ∃ next, next.isTracked = false ∧
    j.act .cancel = some (next, [.cancelled (j.isTracked && !j.isFinished)])
  /-- A cancellation that ends the helper has an end itself, for the watcher needs nobody else. -/
  ends : ∀ next, j.act .cancel = some (next, [.cancelled true]) →
    ∃ (events : List Watch.Event) (final : Job),
      next.run (events.map .watch) = some (final, []) ∧ final.isFinished = true

section

variable {spawn : List String → Except SystemFault Child} {words : List String}
  {error : SessionError}

theorem exists_answer (j : Job) (spawn : List String → Except SystemFault Child) :
    ∃ next answer, j.act (.execute spawn) = some (next, [answer]) := by
  rw [act]
  split <;> exact ⟨_, _, rfl⟩

theorem act_execute_eq_started_iff : j.act (.execute spawn) = some (next, [.started words]) ↔
    j.running = none ∧
      ∃ child, j.Runs spawn words child ∧ next = { j with running := some { child } } := by
  constructor
  · intro acted
    cases moves_of_act acted with
    | start unstarted runs => exact ⟨unstarted, _, runs, rfl⟩
  · rintro ⟨unstarted, child, runs, rfl⟩
    rw [act, execute_of_runs unstarted runs]

theorem act_execute_eq_refused_iff : j.act (.execute spawn) = some (next, [.refused error]) ↔
    next = j ∧ (j.running = none ∧ j.Refuses spawn error ∨
      (∃ r, j.running = some r) ∧ error = .alreadyStarted j.id) := by
  constructor
  · intro acted
    cases moves_of_act acted with
    | refuse unstarted refuses => exact ⟨rfl, .inl ⟨unstarted, refuses⟩⟩
    | again running => exact ⟨rfl, .inr ⟨⟨_, running⟩, rfl⟩⟩
  · rintro ⟨rfl, ⟨unstarted, refuses⟩ | ⟨⟨r, running⟩, rfl⟩⟩
    · rw [act, execute_of_refuses unstarted refuses]
    · rw [act, execute_of_running running]

theorem run_setCommand_execute {command : String} {child : Child} (unstarted : j.running = none)
    (splits : CommandLine.split command = .ok words) (spawned : spawn words = .ok child) :
    j.run [.setCommand command, .execute spawn] =
      some ({ j with command := some command, running := some { child } }, [.started words]) := by
  have set : j.act (.setCommand command) = some ({ j with command := some command }, []) := by
    simp [act, setCommand, isStarted, unstarted]
  have started : Job.act { j with command := some command } (.execute spawn) =
      some ({ j with command := some command, running := some { child } }, [.started words]) :=
    act_execute_eq_started_iff.2 ⟨unstarted, child, ⟨⟨command, rfl, splits⟩, spawned⟩, rfl⟩
  simp only [run, set, started, Option.map_some, List.nil_append, List.append_nil]

theorem exists_cancelled (j : Job) : ∃ next, next.isTracked = false ∧
    j.act .cancel = some (next, [.cancelled (j.isTracked && !j.isFinished)]) := by
  refine ⟨j.requestCancel.1, ?_, ?_⟩
  · unfold requestCancel
    split
    · rename_i unstarted
      rw [isTracked, unstarted]
    · rfl
  · rw [act, ← isRunning, ← requestCancel_snd]

theorem exists_run_isFinished {r : Running} (running : j.running = some r) :
    ∃ (events : List Watch.Event) (final : Job),
      j.run (events.map .watch) = some (final, []) ∧ final.isFinished = true := by
  obtain ⟨events, watch, unasked, ran, finished⟩ := r.watch.canReach_isFinished
  exact ⟨events, _, run_watch running unasked ran, by simpa [isFinished] using finished⟩

end

theorem lifeCycle (reached : Reached id command j record) : LifeCycle id j record := by
  have phase := Phase.of_reached reached
  have named : j.id = id := id_of_reached reached
  refine {
    named
    startedOnce := phase.countP_isStart_le_one
    endedOnce := phase.countP_isEnd_le_one
    answers := exists_answer j
    starts := fun _ _ _ => by rw [← phase.unstarted_iff, act_execute_eq_started_iff]
    refuses := fun _ _ _ => by
      rw [← phase.unstarted_iff, ← phase.running_iff, ← named, act_execute_eq_refused_iff]
    alreadyStarted := fun spawn job => ?_
    retries := fun fresh _ _ _ _ splits spawned =>
      run_setCommand_execute (phase.unstarted_iff.2 fresh) splits spawned
    command := fun words started => ?_
    tracked := phase.isTracked_iff
    cancels := exists_cancelled j
    ends := fun next acted => ?_ }
  · rw [← phase.running_iff, ← named]
    simp only [act_execute_eq_refused_iff]
    constructor
    · rintro ⟨_, -, ⟨-, refuses⟩ | ⟨running, same⟩⟩
      · cases refuses
      · exact ⟨running, SessionError.alreadyStarted.inj same⟩
    · rintro ⟨running, rfl⟩
      exact ⟨j, rfl, .inr ⟨running, rfl⟩⟩
  · obtain ⟨r, running⟩ := phase.running_iff.2 ⟨words, started⟩
    exact ⟨phase.hasWords started, fun _ _ _ ran => command_run running ran⟩
  · generalize ended : [Answer.cancelled true] = told at acted
    cases moves_of_act acted with
    | pass _ => cases ended
    | release _ => exact exists_run_isFinished rfl

/-- Three attempts fail, each in its own way, before one succeeds, and then the job is cancelled
twice. -/
def strainedEvents : List Event :=
  let spawn := fun _ => .ok { process := 1, output := 2, diagnostics := 3 }
  [.execute spawn, .cancel, .setCommand "'", .execute spawn, .setCommand "helper 'a b'",
    .execute fun _ => .error (.kind .notFound), .execute spawn, .setCommand "other",
    .execute spawn, .cancel, .watch .noticeCancel, .watch (.helperEnds (.signaled 15)), .cancel,
    .watch .reap, .execute spawn]

def strainedAnswers : List Answer :=
  [.refused .noCommand, .cancelled false, .refused (.commandLine (.unterminatedSingleQuote 0)),
    .refused (.spawn "helper 'a b'" (.kind .notFound)), .started ["helper", "a b"],
    .refused (.alreadyStarted 7), .cancelled true, .cancelled false, .refused (.alreadyStarted 7)]

theorem lifeCycle_strained : ∃ j, Reached 7 none j strainedAnswers ∧ j.isFinished = true ∧
    j.command = some "helper 'a b'" ∧ LifeCycle 7 j strainedAnswers := by
  have told : (Job.run { id := 7 } strainedEvents).map
      (fun r => (r.2, r.1.isFinished, r.1.command)) =
        some (strainedAnswers, true, some "helper 'a b'") := rfl
  obtain ⟨⟨j, record⟩, ran, same⟩ := Option.map_eq_some_iff.1 told
  obtain ⟨rfl, finished, command⟩ := by simpa only [Prod.mk.injEq] using same
  have reached := Reached.start.run ran
  exact ⟨j, reached, finished, command, lifeCycle reached⟩

end Job

end LoginSession

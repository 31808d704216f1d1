import LoginSession.Session.History
import LoginSession.Proofs.Watching

namespace LoginSession

namespace Job

variable {j next : Job} {e : Watch.Event}

theorem step_cases (h : j.step e = some next) :
    ∃ r watch, j.running = some r ∧ r.watch.step e = some watch ∧
      next = { j with running := some { r with watch } } := by
  obtain ⟨r, started, h⟩ := Option.bind_eq_some_iff.1 h
  obtain ⟨watch, moved, rfl⟩ := Option.map_eq_some_iff.1 h
  exact ⟨r, watch, started, moved, rfl⟩

theorem id_step (h : j.step e = some next) : next.id = j.id := by
  obtain ⟨r, watch, -, -, rfl⟩ := step_cases h
  rfl

theorem isStarted_step (h : j.step e = some next) : next.isStarted = true := by
  obtain ⟨r, watch, -, -, rfl⟩ := step_cases h
  rfl

theorem isTracked_step (h : j.step e = some next) : next.isTracked = j.isTracked := by
  obtain ⟨r, watch, started, -, rfl⟩ := step_cases h
  simp [isTracked, started]

theorem isFinished_step (h : j.step e = some next) (done : j.isFinished = true) :
    next.isFinished = true := by
  obtain ⟨r, watch, started, moved, rfl⟩ := step_cases h
  simp only [isFinished, started] at done ⊢
  exact Watch.isFinished_step done moved

theorem id_requestCancel (j : Job) : j.requestCancel.1.id = j.id := by
  unfold requestCancel
  split <;> rfl

theorem isStarted_requestCancel (j : Job) : j.requestCancel.1.isStarted = j.isStarted := by
  unfold requestCancel
  cases started : j.running with
  | none => rfl
  | some r =>
    rw [isStarted, isStarted, started]
    rfl

theorem isFinished_requestCancel (j : Job) : j.requestCancel.1.isFinished = j.isFinished := by
  unfold requestCancel
  cases started : j.running with
  | none => rfl
  | some r =>
    rw [isFinished, isFinished, started]
    cases running : j.isRunning with
    | true => rfl
    | false => rfl

theorem requestCancel_snd (j : Job) : j.requestCancel.2 = j.isRunning := by
  unfold requestCancel
  cases started : j.running with
  | none => rw [isRunning, isTracked, started, Bool.false_and]
  | some r => rfl

/-- A command can be started if it splits and its words can be spawned. -/
def CanStart (spawn : List String → Except SystemFault (Unit × Child)) (command : String) : Prop :=
  ∃ words child, CommandLine.split command = .ok words ∧ spawn words = .ok ((), child)

theorem start_cases (spawn : List String → Except SystemFault (Unit × Child)) (id : Nat)
    (command : String) :
    (CanStart spawn command ∧ ∃ child, start spawn { id, command := some command } =
      .ok ((), { id, command := some command, running := some { child } })) ∨
    (¬CanStart spawn command ∧
      ∃ e, start spawn { id, command := some command } = .error e) := by
  cases splits : CommandLine.split command with
  | error e =>
    have words : words { id, command := some command } = .error (.commandLine e) := by
      simp [words, isStarted, splits]
    refine .inr ⟨?_, .commandLine e, by rw [start, words]⟩
    rintro ⟨_, _, can, -⟩
    rw [splits] at can
    cases can
  | ok argv =>
    have words : words { id, command := some command } = .ok (command, argv) := by
      simp [words, isStarted, splits]
    cases spawns : spawn argv with
    | error fault =>
      refine .inr ⟨?_, .spawn command fault, ?_⟩
      · rintro ⟨words, child, can, spawned⟩
        obtain rfl := Except.ok.inj (splits.symm.trans can)
        rw [spawns] at spawned
        cases spawned
      · rw [start, words]
        simp only [spawns]
    | ok result =>
      obtain ⟨_, child⟩ := result
      refine .inl ⟨⟨argv, child, splits, spawns⟩, child, ?_⟩
      rw [start, words]
      simp only [spawns]

end Job

namespace Sessions

variable {α : Type}

def started (s : Sessions α) (n : Nat) (context : α) (child : Child) : Sessions α :=
  let id := s.jobs.length + 1
  let (next, job) := s.newJob (some (s.leader n).command)
  ((next.setJob { job with running := some { child } }).setLeader n
    ((s.leader n).track id)).addCollection { leader := n, job := id, context }

def refused (s : Sessions α) (n : Nat) (context : α) : Sessions α :=
  (s.newJob (some (s.leader n).command)).1.addCollection
    { leader := n, job := s.jobs.length + 1, context, ending := .dropped }

/-- What each event does to the sessions, one constructor for each. A leader's list changes when a
collection starts, when its completion removes it and when a cancellation drains it, and at no other
step. -/
inductive Moves (s : Sessions α) : Event α → Sessions α → List (Entry α) → Prop where
  | create {leader : Leader} (empty : leader.pending = []) (unflagged : leader.cancelled = false) :
    Moves s (.create leader) (s.newLeader leader).1 []
  | identify {n : Nat} {identity : Identity} (known : n < s.leaders.length) :
    Moves s (.identify n identity) (s.setLeader n { s.leader n with identity }) []
  | override {n : Nat} {parameters : List Parameter} (known : n < s.leaders.length) :
    Moves s (.override n parameters) (s.setLeader n ((s.leader n).setOverrides parameters)) []
  | newJob {command : Option String} : Moves s (.newJob command) (s.newJob command).1 []
  | start {n : Nat} {context : α} {spawn : List String → Except SystemFault (Unit × Child)}
    {child : Child} (known : n < s.leaders.length) :
    Moves s (.collect n context spawn) (s.started n context child)
      [.started n (s.jobs.length + 1) context]
  | refuse {n : Nat} {context : α} {spawn : List String → Except SystemFault (Unit × Child)}
    (known : n < s.leaders.length) :
    Moves s (.collect n context spawn) (s.refused n context) [.refused n (s.jobs.length + 1)]
  | watch {e : Watch.Event} {job moved : Job} (unasked : e ≠ .requestCancel)
    (found : s.job? job.id = some job) (step : job.step e = some moved) :
    Moves s (.watch job.id e) (s.setJob moved) []
  | remove {n : Nat} {c : Collection α} {leader : Leader} (here : s.collections[n]? = some c)
    (waiting : c.ending = .waiting) (unclaimed : c.claimed = false)
    (done : s.isJobFinished c.job = true)
    (removed : (s.leader c.leader).remove? c.job = some leader) :
    Moves s (.complete n) ((s.setLeader c.leader leader).setCollection n { c with claimed := true })
      [.removed c.leader c.job]
  | drop {n : Nat} {c : Collection α} (here : s.collections[n]? = some c)
    (waiting : c.ending = .waiting) (unclaimed : c.claimed = false)
    (done : s.isJobFinished c.job = true)
    (gone : c.job ∉ (s.leader c.leader).pending) :
    Moves s (.complete n) (s.setCollection n { c with ending := .dropped }) []
  | call {n : Nat} {c : Collection α} (here : s.collections[n]? = some c)
    (waiting : c.ending = .waiting) (claimed : c.claimed = true) :
    Moves s (.call n) (s.call n c) [.called c.leader c.job (s.report c) c.context]
  | flag {n : Nat} (known : n < s.leaders.length) :
    Moves s (.flag n) (s.setLeader n { s.leader n with cancelled := true }) []
  | cancel {n : Nat} (known : n < s.leaders.length) :
    Moves s (.cancel n) (s.cancel n) ((s.leader n).pending.map fun id => .drained n id)
  | terminate {k : Nat} {c : Cancellation} {job : Job} (here : s.cancellations[k]? = some c)
    (found : s.job? job.id = some job) (idle : c.awaited = none) (left : job.id ∈ c.left) :
    Moves s (.terminate k job.id) (s.terminate k c job) []
  | proceed {k : Nat} {c : Cancellation} {id : Nat} (here : s.cancellations[k]? = some c)
    (awaited : c.awaited = some id) (done : s.isJobFinished id = true) :
    Moves s (.proceed k) (s.proceed k c) []

variable {s next : Sessions α} {added : List (Entry α)} {e : Event α}

theorem leader_started {n : Nat} (known : n < s.leaders.length) (context : α) (child : Child)
    (m : Nat) : (s.started n context child).leader m =
      if m = n then (s.leader n).track (s.jobs.length + 1) else s.leader m :=
  leader_setLeader (s := (s.newJob (some (s.leader n).command)).1.setJob _) known _ m

theorem leader_cancel {n : Nat} (known : n < s.leaders.length) (m : Nat) :
    (s.cancel n).leader m = if m = n then (s.leader n).cancel.1 else s.leader m :=
  leader_setLeader known _ m

theorem leader_remove {n id : Nat} {l : Leader} (removed : (s.leader n).remove? id = some l)
    (k : Nat) (c : Collection α) (m : Nat) :
    ((s.setLeader n l).setCollection k c).leader m =
      { s.leader m with
        pending := if m = n then (s.leader m).pending.erase id else (s.leader m).pending } := by
  obtain ⟨inside, rfl⟩ := Leader.eq_of_remove? removed
  refine (leader_setLeader (lt_of_mem_pending inside) _ m).trans ?_
  split
  · rename_i same
    rw [same]
  · rfl

theorem collect_cases (s : Sessions α) (n : Nat) (context : α)
    (spawn : List String → Except SystemFault (Unit × Child)) :
    (Job.CanStart spawn (s.leader n).command ∧
      ∃ child, s.collect spawn n context = (s.started n context child, some ())) ∨
    (¬Job.CanStart spawn (s.leader n).command ∧
      s.collect spawn n context = (s.refused n context, none)) := by
  unfold collect
  rcases Job.start_cases spawn (s.jobs.length + 1) (s.leader n).command with ⟨can, child, start⟩ |
    ⟨cannot, e, start⟩
  · refine .inl ⟨can, child, ?_⟩
    simp only [newJob, start]
    rfl
  · refine .inr ⟨cannot, ?_⟩
    simp only [newJob, start]
    rfl

theorem moves_of_step (h : s.step e = some (next, added)) : s.Moves e next added := by
  cases e with
  | create leader =>
    simp only [step, Option.ite_none_right_eq_some, Option.some.injEq, Prod.mk.injEq] at h
    obtain ⟨⟨empty, unflagged⟩, rfl, rfl⟩ := h
    exact .create empty unflagged
  | identify n identity =>
    simp only [step, Option.ite_none_right_eq_some, Option.some.injEq, Prod.mk.injEq] at h
    obtain ⟨known, rfl, rfl⟩ := h
    exact .identify known
  | override n parameters =>
    simp only [step, Option.ite_none_right_eq_some, Option.some.injEq, Prod.mk.injEq] at h
    obtain ⟨known, rfl, rfl⟩ := h
    exact .override known
  | newJob command =>
    cases h
    exact .newJob
  | collect n context spawn =>
    simp only [step, Option.ite_none_right_eq_some] at h
    obtain ⟨known, h⟩ := h
    rcases collect_cases s n context spawn with ⟨-, child, started⟩ | ⟨-, refused⟩
    · rw [started] at h
      cases h
      exact .start known
    · rw [refused] at h
      cases h
      exact .refuse known
  | watch id event =>
    simp only [step, Option.ite_none_left_eq_some, Option.bind_eq_some_iff,
      Option.map_eq_some_iff, Prod.mk.injEq] at h
    obtain ⟨unasked, job, found, moved, stepped, rfl, rfl⟩ := h
    obtain rfl := id_of_job? found
    exact .watch unasked found stepped
  | complete n =>
    obtain ⟨c, waits, h⟩ := Option.map_eq_some_iff.1 h
    obtain ⟨here, ready⟩ := Option.filter_eq_some_iff.1 waits
    simp only [Bool.and_eq_true, decide_eq_true_eq, Bool.not_eq_eq_eq_not, Bool.not_true] at ready
    obtain ⟨⟨waiting, unclaimed⟩, done⟩ := ready
    unfold complete at h
    cases removed : (s.leader c.leader).remove? c.job with
    | none =>
      rw [removed] at h
      cases h
      exact .drop here waiting unclaimed done ((Leader.remove?_eq_none_iff _ _).1 removed)
    | some leader =>
      rw [removed] at h
      cases h
      exact .remove here waiting unclaimed done removed
  | call n =>
    obtain ⟨c, due, h⟩ := Option.map_eq_some_iff.1 h
    obtain ⟨here, ready⟩ := Option.filter_eq_some_iff.1 due
    simp only [Bool.and_eq_true, decide_eq_true_eq] at ready
    cases h
    exact .call here ready.1 ready.2
  | flag n =>
    simp only [step, Option.ite_none_right_eq_some, Option.some.injEq, Prod.mk.injEq] at h
    obtain ⟨known, rfl, rfl⟩ := h
    exact .flag known
  | cancel n =>
    simp only [step, Option.ite_none_right_eq_some, Option.some.injEq, Prod.mk.injEq] at h
    obtain ⟨known, rfl, rfl⟩ := h
    exact .cancel known
  | terminate k id =>
    obtain ⟨⟨c, job⟩, ready, h⟩ := Option.map_eq_some_iff.1 h
    cases h
    unfold next? at ready
    split at ready
    · rename_i c' job' here found
      simp only [Option.ite_none_right_eq_some, Option.some.injEq, Prod.mk.injEq] at ready
      obtain ⟨⟨idle, left⟩, rfl, rfl⟩ := ready
      obtain rfl := id_of_job? found
      exact .terminate here found idle left
    · cases ready
  | proceed k =>
    obtain ⟨c, ended, h⟩ := Option.map_eq_some_iff.1 h
    obtain ⟨here, ready⟩ := Option.filter_eq_some_iff.1 ended
    cases h
    cases awaited : c.awaited with
    | none => simp [awaited] at ready
    | some id => exact .proceed here awaited (by simpa [awaited] using ready)

end Sessions

end LoginSession

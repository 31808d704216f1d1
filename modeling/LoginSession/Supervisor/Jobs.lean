import LoginSession.Supervisor.State

namespace LoginSession.Supervisor

variable {α : Type}

def execute (s : Supervisor α) (job : Job) : Except SessionError (Supervisor α × Job) :=
  match job.start (s.host.spawn s.owner) with
  | .error e => .error e
  | .ok (host, job) => .ok ({ s with host }.setJob job, job)

def terminate (host : Host) (owner : Nat) (child : Child) : Host :=
  match host.kill owner (-(child.process : Int)) (some .terminate) with
  | .ok host => host
  | .error _ => host

structure Watching where
  host : Host
  watch : Watch
  moved : Bool := false

namespace Watching

def happen (w : Watching) (e : Watch.Event) : Watching :=
  match w.watch.step e with
  | some watch => { w with watch, moved := true }
  | none => w

/-- Takes what a pipe holds. Once nobody can write to it any more the stream ends; a read that took
the last line sees the end first, and only the next read closes the stream. -/
def readStream (w : Watching) (stream : Stream) (pipe : Nat) : Watching :=
  if w.watch.isReading stream then
    match w.host.read (.reader pipe) Host.Pipe.capacity with
    | (host, .bytes bytes) => { w with host }.happen (.read stream bytes)
    | (_, .blocked) => w
    | (_, _) => (w.happen (.endOfStream stream)).happen (.endOfStream stream)
  else w

def noticeCancel (w : Watching) (owner : Nat) (child : Child) : Watching :=
  match w.watch.step .noticeCancel with
  | some watch => { host := terminate w.host owner child, watch, moved := true }
  | none => w

def noticeEnd (w : Watching) (child : Child) : Watching :=
  match w.host.process? child.process with
  | some { image := .ended how, .. } => w.happen (.helperEnds how)
  | _ => w

def reap (w : Watching) (child : Child) : Watching :=
  match w.watch.step .reap, w.host.reap? child.process with
  | some watch, some (host, _) =>
    { host := (host.dropPipe child.output).dropPipe child.diagnostics, watch, moved := true }
  | _, _ => w

/-- Everything that can happen to a watcher now; a request to cancel is noticed first. -/
def poll (w : Watching) (owner : Nat) (child : Child) : Watching :=
  let w := w.noticeCancel owner child
  let w := w.readStream .output child.output
  let w := w.readStream .diagnostics child.diagnostics
  (w.noticeEnd child).reap child

end Watching

def pollJob (s : Supervisor α) (job : Job) : Supervisor α × Bool :=
  match job.running with
  | none => (s, false)
  | some r =>
    if r.watch.isFinished then (s, false)
    else
      let w := Watching.poll { host := s.host, watch := r.watch } s.owner r.child
      if w.moved then
        ({ s with host := w.host }.setJob { job with running := some { r with watch := w.watch } },
          true)
      else (s, false)

def pollEach {β : Type} (poll : Supervisor α → β → Supervisor α × Bool) (xs : List β)
    (s : Supervisor α) : Supervisor α × Bool :=
  xs.foldl (fun (s, moved) x =>
    let (s, here) := poll s x
    (s, moved || here)) (s, false)

theorem pollEach_fst {β : Type} (poll : Supervisor α → β → Supervisor α × Bool) (xs : List β)
    (s : Supervisor α) : (s.pollEach poll xs).1 = xs.foldl (fun s x => (poll s x).1) s := by
  unfold pollEach
  generalize false = moved
  induction xs generalizing s moved with
  | nil => rfl
  | cons x xs ih => exact ih (poll s x).1 (moved || (poll s x).2)

def pollJobs (s : Supervisor α) : Supervisor α × Bool := s.pollEach pollJob s.jobs

def pollCollection (s : Supervisor α) (n : Nat) : Supervisor α × Bool :=
  match s.waiting? n with
  | none => (s, false)
  | some c =>
    let s := { s with toSessions := (s.complete n c).1 }
    match s.due? n with
    | none => (s, true)
    | some c => ({ s with toSessions := s.call n c }, true)

def pollCollections (s : Supervisor α) : Supervisor α × Bool :=
  s.pollEach pollCollection (List.range s.collections.length)

def poll (s : Supervisor α) : Supervisor α × Bool :=
  let (s, a) := s.pollJobs
  let (s, b) := s.pollCollections
  (s, a || b)

def earlier? : Option Nat → Option Nat → Option Nat
  | none, b => b
  | a, none => a
  | some a, some b => some (min a b)

/-- Lets something happen, or time pass up to the next moment at which something can; none if
nothing ever will. -/
def advance (s : Supervisor α) (deadline : Option Nat) : Option (Supervisor α) :=
  let (host, moved) := s.host.round
  let (s, polled) := { s with host }.poll
  if moved || polled then some s
  else
    match earlier? s.host.nextWake? deadline with
    | none => none
    | some time =>
      if s.host.clock < time then some { s with host.clock := time } else none

def isAlive (s : Supervisor α) : Bool :=
  match s.host.process? s.owner with
  | some p => !p.isEnded
  | none => false

def runFor (deadline : Option Nat) (done : Supervisor α → Bool) :
    Nat → Supervisor α → Supervisor α
  | 0, s => s
  | fuel + 1, s =>
    if done s || !s.isAlive then s
    else if (deadline.map fun time => decide (time ≤ s.host.clock)).getD false then s
    else
      match s.advance deadline with
      | none => s
      | some s => runFor deadline done fuel s

/-- No helper takes more rounds than these. -/
def patience : Nat := 4000000

/-- Lets things happen until a condition holds, a deadline passes or nothing more can happen. -/
def runUntil (s : Supervisor α) (deadline : Option Nat) (done : Supervisor α → Bool) :
    Supervisor α :=
  runFor deadline done patience s

def settle (s : Supervisor α) : Supervisor α := s.pollCollections.1

def cancelJob (s : Supervisor α) (id : Nat) : Supervisor α × Bool :=
  match s.job? id with
  | none => (s, false)
  | some job =>
    let (job, running) := job.requestCancel
    let s := s.setJob job
    if running then (s.runUntil none (·.isJobFinished id), true) else (s, false)

def awaitJob (s : Supervisor α) (id : Nat) : Supervisor α × Option Exit :=
  let s := s.runUntil none (·.isJobFinished id)
  (s, (s.job? id).bind fun job => job.running.bind (·.watch.completion?))

end LoginSession.Supervisor

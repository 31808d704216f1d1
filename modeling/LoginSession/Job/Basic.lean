import LoginSession.CommandLine.Words
import LoginSession.Fault.Session
import LoginSession.Job.Watch

namespace LoginSession

structure Child where
  process : Nat
  output : Nat
  diagnostics : Nat
  deriving DecidableEq, Repr

/-- A started job keeps track of its child until it is cancelled. -/
structure Running where
  child : Child
  watch : Watch := {}
  tracked : Bool := true
  deriving DecidableEq, Repr

structure Job where
  id : Nat
  command : Option String := none
  running : Option Running := none
  deriving DecidableEq, Repr

namespace Job

def isStarted (j : Job) : Bool := j.running.isSome

/-- Ignored once the job has been started. -/
def setCommand (j : Job) (command : String) : Job :=
  if j.isStarted then j else { j with command := some command }

def words (j : Job) : Except SessionError (String × List String) :=
  if j.isStarted then .error (.alreadyStarted j.id)
  else
    match j.command with
    | none => .error .noCommand
    | some command =>
      match CommandLine.split command with
      | .error e => .error (.commandLine e)
      | .ok words => .ok (command, words)

/-- Starts the job by a way to start processes, which changes the world that it acts in. A start
that fails leaves the job as it was. -/
def start {σ : Type} (spawn : List String → Except SystemFault (σ × Child)) (j : Job) :
    Except SessionError (σ × Job) :=
  match j.words with
  | .error e => .error e
  | .ok (command, words) =>
    match spawn words with
    | .error fault => .error (.spawn command fault)
    | .ok (world, child) => .ok (world, { j with running := some { child } })

def isTracked (j : Job) : Bool :=
  match j.running with
  | some r => r.tracked
  | none => false

def isFinished (j : Job) : Bool :=
  match j.running with
  | some r => r.watch.isFinished
  | none => false

def isRunning (j : Job) : Bool := j.isTracked && !j.isFinished

def text (j : Job) (s : Stream) : String :=
  match j.running with
  | some r => (r.watch.capture s).text
  | none => ""

/-- Asks for the end of a tracked child and lets go of it; true if there was anything to end. -/
def requestCancel (j : Job) : Job × Bool :=
  match j.running with
  | none => (j, false)
  | some r =>
    let watch := if j.isRunning then { r.watch with cancelRequested := true } else r.watch
    ({ j with running := some { r with watch, tracked := false } }, j.isRunning)

def step (j : Job) (e : Watch.Event) : Option Job :=
  j.running.bind fun r => (r.watch.step e).map fun watch =>
    { j with running := some { r with watch } }

theorem isStarted_of_isTracked {j : Job} (h : j.isTracked = true) : j.isStarted = true := by
  unfold isTracked at h
  split at h
  · rename_i r started
    rw [isStarted, started]
    rfl
  · cases h

theorem start_of_isStarted {σ : Type} (spawn : List String → Except SystemFault (σ × Child))
    {j : Job} (started : j.isStarted = true) : j.start spawn = .error (.alreadyStarted j.id) := by
  simp [start, words, started]

end Job

end LoginSession

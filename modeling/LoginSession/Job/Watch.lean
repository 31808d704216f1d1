import LoginSession.Job.Capture
import LoginSession.Process.Exit

namespace LoginSession

inductive Stream where
  | output
  | diagnostics
  deriving DecidableEq, Repr

def Stream.other : Stream → Stream
  | .output => .diagnostics
  | .diagnostics => .output

inductive Stage where
  | watching
  | terminating
  | completed (how : Option Exit)
  | cancelled
  deriving DecidableEq, Repr

/-- The helper is asked how it ended only after both of its streams have closed, so nothing that it
wrote can be missed. A request to cancel makes the watcher terminate the helper instead, if it
notices the request in time. -/
structure Watch where
  output : Capture := {}
  diagnostics : Capture := {}
  cancelRequested : Bool := false
  ended : Option Exit := none
  stage : Stage := .watching
  deriving DecidableEq, Repr

namespace Watch

/-- Where several events are possible at once, any of them may come first. -/
inductive Event where
  | read (stream : Stream) (bytes : List UInt8)
  | endOfStream (stream : Stream)
  | readFault (stream : Stream)
  | helperEnds (how : Exit)
  | requestCancel
  | noticeCancel
  | reap
  | reapFault
  deriving DecidableEq, Repr

def capture (w : Watch) : Stream → Capture
  | .output => w.output
  | .diagnostics => w.diagnostics

def setCapture (w : Watch) (c : Capture) : Stream → Watch
  | .output => { w with output := c }
  | .diagnostics => { w with diagnostics := c }

def isReading (w : Watch) (s : Stream) : Bool := w.stage = .watching && (w.capture s).isOpen

def allClosed (w : Watch) : Bool := !w.output.isOpen && !w.diagnostics.isOpen

def giveUp (w : Watch) (s : Stream) : Watch := w.setCapture (w.capture s).giveUp s

/-- Both streams are read at once, and a read that ends makes that of the other stream be given up.
-/
def endRead (w : Watch) (s : Stream) (r : ReadResult) : Watch :=
  (w.setCapture ((w.capture s).endRead r) s).giveUp s.other

def feed (w : Watch) (s : Stream) (bytes : List UInt8) : Watch :=
  let next := w.setCapture ((w.capture s).feed bytes) s
  if bytes.contains 10 then next.giveUp s.other else next

def reaped (w : Watch) (how : Option Exit) : Option Watch :=
  match w.stage with
  | .watching => if w.allClosed then some { w with stage := .completed how } else none
  | .terminating => some { w with stage := .cancelled }
  | .completed _ | .cancelled => none

/-- The watcher after an event; none if the event is not possible now. -/
def step (w : Watch) : Event → Option Watch
  | .read s bytes => if w.isReading s then some (w.feed s bytes) else none
  | .endOfStream s =>
    if w.isReading s then some (w.endRead s (.bytes (w.capture s).taken)) else none
  | .readFault s => if w.isReading s then some (w.endRead s .fault) else none
  | .helperEnds how => if w.ended = none then some { w with ended := some how } else none
  | .requestCancel => some { w with cancelRequested := true }
  | .noticeCancel =>
    if w.stage = .watching ∧ w.cancelRequested then some { w with stage := .terminating } else none
  | .reap => w.ended.bind fun how => w.reaped (some how)
  | .reapFault => w.reaped none

def sends (w : Watch) : Event → Option Exit
  | .reap => if w.stage = .watching ∧ w.allClosed then w.ended else none
  | _ => none

def run (w : Watch) (events : List Event) : Option Watch := events.foldlM step w

def isFinished (w : Watch) : Bool :=
  match w.stage with
  | .completed _ | .cancelled => true
  | .watching | .terminating => false

/-- What the completion delivers: how the helper ended, or nothing ever after a cancellation. -/
def completion? (w : Watch) : Option Exit :=
  match w.stage with
  | .completed how => how
  | _ => none

@[simp] theorem capture_setCapture (w : Watch) (c : Capture) (s : Stream) :
    (w.setCapture c s).capture s = c := by
  cases s <;> rfl

@[simp] theorem capture_setCapture_other (w : Watch) (c : Capture) (s : Stream) :
    (w.setCapture c s).capture s.other = w.capture s.other := by
  cases s <;> rfl

@[simp] theorem stage_setCapture (w : Watch) (c : Capture) (s : Stream) :
    (w.setCapture c s).stage = w.stage := by
  cases s <;> rfl

@[simp] theorem ended_setCapture (w : Watch) (c : Capture) (s : Stream) :
    (w.setCapture c s).ended = w.ended := by
  cases s <;> rfl

end Watch

end LoginSession

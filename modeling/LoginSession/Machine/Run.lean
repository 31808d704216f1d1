import LoginSession.Machine.Shell
import LoginSession.Machine.Utility

namespace LoginSession.Host

def stepProcess (h : Host) (pid : Nat) : Host × Bool :=
  match h.process? pid with
  | none => (h, false)
  | some process =>
    if process.stopped then (h, false)
    else
      match process.image with
      | .shell state => Shell.Turn.step { host := h, pid, state }
      | .utility program =>
        Utility.Turn.step { host := h, pid, process, program }
      | .ended _ | .owner => (h, false)

def stepAll (h : Host) (moved : Bool) : List Nat → Host × Bool
  | [] => (h, moved)
  | pid :: rest =>
    match h.stepProcess pid with
    | (next, true) => stepAll next true rest
    | (_, false) => stepAll h moved rest

/-- In each round every process that can do something does one thing, which takes a microsecond;
when none can, the clock goes on to the next moment at which one wakes up. -/
def round (h : Host) : Host × Bool :=
  match h.stepAll false (h.processes.map (·.1)) with
  | (next, true) => ({ next with clock := next.clock + 1 }, true)
  | (_, false) => (h, false)

def wakeTime? (p : Process) : Option Nat :=
  match p.image with
  | .utility { tasks := .sleepUntil time :: _, .. } => if p.stopped then none else some time
  | _ => none

def nextWake? (h : Host) : Option Nat := (h.processes.filterMap fun (_, p) => wakeTime? p).min?

end LoginSession.Host

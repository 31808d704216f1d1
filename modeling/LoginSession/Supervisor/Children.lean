import LoginSession.Supervisor.Jobs

namespace LoginSession.Supervisor

variable {α : Type}

def spawnChild (s : Supervisor α) (words : List String) :
    Except SystemFault (Supervisor α × Child) :=
  match s.host.spawn s.owner words with
  | .error fault => .error fault
  | .ok (host, child) => .ok ({ s with host }, child)

def signalChild (s : Supervisor α) (child : Child) (number : Int) :
    Except SystemFault (Supervisor α) :=
  match Signal.ofNumber? number with
  | none => .error (.number .invalidArgument)
  | some signal =>
    match s.host.kill s.owner (-(child.process : Int)) (some signal) with
    | .ok host => .ok { s with host }
    | .error e => .error (.number e)

def isChildEnded (child : Child) (s : Supervisor α) : Bool :=
  ((s.host.process? child.process).map (·.isEnded)).getD true

def awaitChild (s : Supervisor α) (child : Child) : Supervisor α × Option Exit :=
  let s := s.runUntil none (isChildEnded child)
  match s.host.reap? child.process with
  | some (host, how) => ({ s with host }, some how)
  | none => (s, none)

def fileText? (s : Supervisor α) (name : String) : Option String :=
  match s.host.files.resolve [] (Host.Octets.ofString name) with
  | .ok (path, _) => (s.host.files.content? path).map Capture.decode
  | .error _ => none

end LoginSession.Supervisor

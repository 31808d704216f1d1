import LoginSession.Host.Spawn
import LoginSession.Machine.Run
import LoginSession.Session.Collections
import LoginSession.Session.Registry

namespace LoginSession

structure Supervisor (α : Type) extends Sessions α where
  host : Host
  owner : Nat
  registry : Registry := {}

namespace Supervisor

variable {α : Type}

def starter : Nat := 0

/-- The owner's process leads a group of its own; shutdown requests reach it as signals. Writing to
a closed pipe does not end it. -/
def create (files : Host.Files) (environment : Host.Environment) (config : Config) :
    Supervisor α :=
  let host : Host := { files }
  let (host, owner) := host.add {
    parent := starter
    group := host.number
    descriptors := [(0, .null), (1, .null), (2, .null)]
    cwd := []
    environment
    ignored := [Signal.pipe.number]
    caught := [Signal.interrupt.number, Signal.terminate.number]
    image := .owner }
  { host, owner, registry := { config } }

def setJob (s : Supervisor α) (job : Job) : Supervisor α :=
  { s with toSessions := s.toSessions.setJob job }

def newJob (s : Supervisor α) (command : Option String) : Supervisor α × Job :=
  let (sessions, job) := s.toSessions.newJob command
  ({ s with toSessions := sessions }, job)

def setLeader (s : Supervisor α) (n : Nat) (leader : Leader) : Supervisor α :=
  { s with toSessions := s.toSessions.setLeader n leader }

def newLeader (s : Supervisor α) (leader : Leader) : Supervisor α × Nat :=
  let (sessions, n) := s.toSessions.newLeader leader
  ({ s with toSessions := sessions }, n)

end Supervisor

end LoginSession

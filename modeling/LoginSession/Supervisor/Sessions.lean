import LoginSession.Session.Attempt
import LoginSession.Supervisor.Jobs

namespace LoginSession.Supervisor

variable {α : Type}

def collect (s : Supervisor α) (leader : Nat) (context : α) : Supervisor α × Bool × Nat :=
  let place := s.collections.length
  match s.toSessions.collect (s.host.spawn s.owner) leader context with
  | (sessions, some host) => ({ s with toSessions := sessions, host }, true, place)
  | (sessions, none) => ({ s with toSessions := sessions }, false, place)

def terminateNext (s : Supervisor α) (cancellation job : Nat) : Supervisor α :=
  match s.next? cancellation job with
  | none => s
  | some (c, j) =>
    let s := { s with toSessions := s.toSessions.terminate cancellation c j }
    let s := s.runUntil none fun s =>
      ((s.cancellations[cancellation]?).bind (·.awaited)).isNone || (s.ended? cancellation).isSome
    match s.ended? cancellation with
    | none => s
    | some c => { s with toSessions := s.proceed cancellation c }

def cancelLeader (s : Supervisor α) (leader : Nat) : Supervisor α :=
  let place := s.cancellations.length
  let jobs := (s.leader leader).pending
  let s := { s with toSessions := s.toSessions.cancel leader }
  settle (jobs.foldl (·.terminateNext place ·) s)

def isEnded (collection : Nat) (s : Supervisor α) : Bool := s.ending collection ≠ .waiting

def awaitCollection (s : Supervisor α) (collection : Nat) : Supervisor α × Ending :=
  let s := s.runUntil none (isEnded collection)
  (s, s.ending collection)

def openSession (s : Supervisor α) (cookie : String) (request : OpenRequest) :
    Except SessionError (Supervisor α × Nat) :=
  match s.registry.register cookie request with
  | .error e => .error e
  | .ok (registry, leader) => .ok ({ s with registry }.newLeader leader)

def closeSession (s : Supervisor α) (cookie : String) : Except SessionError (Supervisor α) :=
  match s.registry.close cookie with
  | .error e => .error e
  | .ok (registry, leader) => .ok ({ s with registry }.cancelLeader leader)

/-- Closing as the last thing that is done with a session; its own errors come first. -/
def closeAfter {β : Type} (s : Supervisor α) (cookie : String) (result : Except SessionError β) :
    Supervisor α × Except SessionError β :=
  match s.closeSession cookie with
  | .ok s => (s, result)
  | .error e => (s, .error e)

inductive Shutdown where
  | never
  | after (microseconds : Nat)
  | onSignal
  deriving DecidableEq, Repr

def Shutdown.deadline? (s : Supervisor α) : Shutdown → Option Nat
  | .after time => some (s.host.clock + time)
  | .never | .onSignal => none

def isSignalled (s : Supervisor α) : Bool :=
  match s.host.process? s.owner with
  | some p => !p.pending.isEmpty
  | none => false

/-- Opens a session, collects its parameters once and closes it. A shutdown that comes first cancels
the collection. A callback that is dropped leaves the session to whoever dropped it. -/
def collectOnce (s : Supervisor α) (cookie : String) (context : α) (request : OpenRequest)
    (shutdown : Shutdown) : Supervisor α × Except SessionError Outcome :=
  match s.openSession cookie request with
  | .error e => (s, .error e)
  | .ok (s, leader) =>
    match s.collect leader context with
    | (s, false, _) => s.closeAfter cookie (.error (Attempt.notStarted s.registry.config.helper))
    | (s, true, collection) =>
      let s := s.runUntil (shutdown.deadline? s) fun s =>
        isEnded collection s || (shutdown = .onSignal && s.isSignalled)
      match (s.ending collection).outcome with
      | .error e => (s, .error e)
      | .ok outcome => s.closeAfter cookie (.ok outcome)

end LoginSession.Supervisor

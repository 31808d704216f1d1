import LoginSession.Session.History
import LoginSession.Session.Registry

namespace LoginSession

/-- What a call that closes a session has done since it took the session out of the register. -/
inductive Closing.Stage where
  | removed
  | flagged
  | cancelling (cancellation : Nat)
  | returned
  deriving DecidableEq, Repr

structure Closing where
  cookie : String
  leader : Nat
  stage : Closing.Stage := .removed
  deriving DecidableEq, Repr

/-- Leaders of the register are numbered as they are opened, and `places` says where they stand
among all leaders. `closings` are the calls that have taken a session out, those that have returned
included. Each call is one uninterrupted stretch, but for one that closes a session: while it waits
for the session's jobs others may do anything, such as opening another session under the same
cookie. -/
structure Manager (α : Type) where
  sessions : Sessions α := {}
  registry : Registry := {}
  places : List Nat := []
  closings : List Closing := []

namespace Manager

inductive Event (α : Type) where
  | elsewhere (e : Sessions.Event α)
  | openSession (cookie : String) (request : OpenRequest)
  | closeSession (cookie : String)
  | resume (closing : Nat)
  | get (cookie : String)
  | getOrError (cookie : String)
  | count
  | cookies

/-- What calls have come to. One that closes a session appears twice, when it takes the session out
and when it returns; it is named by its place. -/
inductive Entry where
  | opened (cookie : String) (leader : Nat) (identity : Identity)
  | refused (cookie : String) (error : SessionError)
  | removed (cookie : String) (leader closing : Nat)
  | missed (cookie : String) (error : SessionError)
  | closed (cookie : String) (closing : Nat)
  | got (cookie : String) (answer : Option Nat)
  | gotOrError (cookie : String) (answer : Except SessionError Nat)
  | counted (size : Nat)
  | listed (cookies : List String)

variable {α : Type}

def proceed (m : Manager α) (c : Closing) : Option (Sessions α × Closing.Stage) :=
  match c.stage, m.places[c.leader]? with
  | .removed, some place =>
    (m.sessions.step (.flag place)).map fun (sessions, _) => (sessions, .flagged)
  | .flagged, some place =>
    (m.sessions.step (.cancel place)).map fun (sessions, _) =>
      (sessions, .cancelling m.sessions.cancellations.length)
  | .cancelling k, _ =>
    if ((m.sessions.cancellations[k]?).map (·.isOver)).getD false then some (m.sessions, .returned)
    else none
  | _, _ => none

/-- The manager after an event, and what it adds to the record; none if it is not possible now. -/
def step (m : Manager α) : Event α → Option (Manager α × List Entry)
  | .elsewhere e => (m.sessions.step e).map fun (sessions, _) => ({ m with sessions }, [])
  | .openSession cookie request =>
    match m.registry.register cookie request with
    | .error e => some (m, [.refused cookie e])
    | .ok (registry, leader) =>
      let (sessions, place) := m.sessions.newLeader leader
      some ({ m with sessions, registry, places := m.places ++ [place] },
        [.opened cookie m.registry.opened leader.identity])
  | .closeSession cookie =>
    match m.registry.close cookie with
    | .error e => some (m, [.missed cookie e])
    | .ok (registry, leader) =>
      some ({ m with registry, closings := m.closings ++ [{ cookie, leader }] },
        [.removed cookie leader m.closings.length])
  | .resume k =>
    (m.closings[k]?).bind fun c =>
      (m.proceed c).map fun (sessions, stage) =>
        ({ m with sessions, closings := m.closings.set k { c with stage } },
          if stage = .returned then [.closed c.cookie k] else [])
  | .get cookie => some (m, [.got cookie (m.registry.find? cookie)])
  | .getOrError cookie => some (m, [.gotOrError cookie (m.registry.find cookie)])
  | .count => some (m, [.counted m.registry.size])
  | .cookies => some (m, [.listed m.registry.cookies])

def run (m : Manager α) : List (Event α) → Option (Manager α × List Entry)
  | [] => some (m, [])
  | e :: events =>
    match m.step e with
    | none => none
    | some (next, added) => (next.run events).map fun (final, more) => (final, added ++ more)

inductive Reached : Manager α → List Entry → Prop
  | start (config : Config) : Reached { registry := { config } } []
  | step {m next : Manager α} {record added : List Entry} {e : Event α} :
    Reached m record → m.step e = some (next, added) → Reached next (record ++ added)

def leader (m : Manager α) (n : Nat) : Leader := ((m.places[n]?).map m.sessions.leader).getD {}

end Manager

end LoginSession

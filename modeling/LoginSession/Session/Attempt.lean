import LoginSession.Session.History
import LoginSession.Session.Outcome
import LoginSession.Session.Registry

namespace LoginSession

def Ending.outcome : Ending → Except SessionError Outcome
  | .called { parameters := some parameters, .. } => .ok (.collected parameters)
  | .called { parameters := none, .. } => .ok .helperFailed
  | .dropped => .error (.internal "collection callback dropped")
  | .waiting => .ok .cancelled

def Sessions.Event.leader? {α : Type} : Event α → Option Nat
  | .identify n _ | .override n _ | .collect n _ _ | .flag n | .cancel n => some n
  | .create _ | .newJob _ | .watch _ _ | .complete _ | .call _ | .terminate _ _ | .proceed _ => none

/-- The result is decided before the session is closed and returned after it. Closing takes the
leader out of the register, flags it, empties its list and waits for the jobs that were on it. -/
inductive Attempt.Stage where
  | waiting
  | decided (result : Except SessionError Outcome)
  | removed (result : Except SessionError Outcome)
  | flagged (result : Except SessionError Outcome)
  | cancelling (cancellation : Nat) (result : Except SessionError Outcome)
  | returned (result : Except SessionError Outcome)

/-- A session is opened, its parameters are collected once, and it is closed whatever has come of
the collection. Between any two steps other tasks may act on the sessions as they like, so long as
they leave the leader alone that the attempt has opened. -/
structure Attempt (α : Type) where
  sessions : Sessions α
  registry : Registry
  cookie : String
  leader : Nat
  collection : Nat
  stage : Attempt.Stage := .waiting

namespace Attempt

variable {α : Type}

def notStarted (helper : String) : SessionError :=
  .spawn helper (.message .other "helper could not be started")

def start (spawn : List String → Except SystemFault (Unit × Child)) (sessions : Sessions α)
    (registry : Registry) (cookie : String) (context : α) (request : OpenRequest) :
    Except SessionError (Attempt α) :=
  match registry.register cookie request with
  | .error e => .error e
  | .ok (registry, opened) =>
    let (sessions, leader) := sessions.newLeader opened
    let collection := sessions.collections.length
    match sessions.collect spawn leader context with
    | (sessions, some _) => .ok { sessions, registry, cookie, leader, collection }
    | (sessions, none) =>
      let stage := .decided (.error (notStarted registry.config.helper))
      .ok { sessions, registry, cookie, leader, collection, stage }

inductive Event (α : Type) where
  | elsewhere (e : Sessions.Event α)
  | receive
  | shutdown
  | unregister
  | flag
  | cancel
  | finish

/-- The attempt after an event; none if it is not possible now. A collection whose callback has been
dropped sends nothing that could be received, and the attempt is over on the spot. -/
def step (a : Attempt α) : Event α → Option (Attempt α)
  | .elsewhere e =>
    if e.leader? = some a.leader then none
    else (a.sessions.step e).map fun (sessions, _) => { a with sessions }
  | .receive =>
    match a.stage, a.sessions.ending a.collection with
    | .waiting, .waiting => none
    | .waiting, ending =>
      match ending.outcome with
      | .ok outcome => some { a with stage := .decided (.ok outcome) }
      | .error e => some { a with stage := .returned (.error e) }
    | _, _ => none
  | .shutdown =>
    match a.stage with
    | .waiting => some { a with stage := .decided (.ok .cancelled) }
    | _ => none
  | .unregister =>
    match a.stage with
    | .decided result =>
      match a.registry.close a.cookie with
      | .ok (registry, leader) => some { a with registry, leader, stage := .removed result }
      | .error e => some { a with stage := .returned (.error e) }
    | _ => none
  | .flag =>
    match a.stage with
    | .removed result =>
      (a.sessions.step (.flag a.leader)).map fun (sessions, _) =>
        { a with sessions, stage := .flagged result }
    | _ => none
  | .cancel =>
    match a.stage with
    | .flagged result =>
      (a.sessions.step (.cancel a.leader)).map fun (sessions, _) =>
        { a with sessions, stage := .cancelling a.sessions.cancellations.length result }
    | _ => none
  | .finish =>
    match a.stage with
    | .cancelling k result =>
      if ((a.sessions.cancellations[k]?).map (·.isOver)).getD false then
        some { a with stage := .returned result }
      else none
    | _ => none

def run (a : Attempt α) (events : List (Event α)) : Option (Attempt α) := events.foldlM step a

end Attempt

end LoginSession

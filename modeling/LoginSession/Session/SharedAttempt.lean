import LoginSession.Session.Attempt
import LoginSession.Session.Manager

namespace LoginSession

/-- The session is closed by a call like any other, which goes on by events of the register. An
attempt whose callback has been dropped is over without that call. -/
inductive SharedAttempt.Stage where
  | opened
  | waiting (collection : Nat)
  | decided (result : Except SessionError Outcome)
  | closing (call : Nat) (result : Except SessionError Outcome)
  | returned (result : Except SessionError Outcome)

/-- One collection in a register that others use as well. They may find its session, cancel its
leader or close it at any time, and the attempt learns of that only by what has become of its
callback. The leader is numbered as the register has it. -/
structure SharedAttempt (α : Type) where
  manager : Manager α
  cookie : String
  leader : Nat
  stage : SharedAttempt.Stage := .opened

namespace SharedAttempt

variable {α : Type}

inductive Event (α : Type) where
  | elsewhere (e : Manager.Event α)
  | collect (context : α) (spawn : List String → Except SystemFault (Unit × Child))
  | receive
  | shutdown
  | close
  | finish

def collect (a : SharedAttempt α) (place : Nat) (context : α)
    (spawn : List String → Except SystemFault (Unit × Child)) : SharedAttempt α :=
  let (sessions, started) := a.manager.sessions.collect spawn place context
  let stage : Stage :=
    if started.isSome then .waiting a.manager.sessions.collections.length
    else .decided (.error (Attempt.notStarted a.manager.registry.config.helper))
  { a with manager := { a.manager with sessions }, stage }

/-- The attempt after an event, and what it adds to the record; none if it is not possible now. -/
def step (a : SharedAttempt α) : Event α → Option (SharedAttempt α × List Manager.Entry)
  | .elsewhere e => (a.manager.step e).map fun (manager, added) => ({ a with manager }, added)
  | .collect context spawn =>
    match a.stage, a.manager.places[a.leader]? with
    | .opened, some place => some (a.collect place context spawn, [])
    | _, _ => none
  | .receive =>
    match a.stage with
    | .waiting collection =>
      match a.manager.sessions.ending collection with
      | .waiting => none
      | ending =>
        match ending.outcome with
        | .ok outcome => some ({ a with stage := .decided (.ok outcome) }, [])
        | .error e => some ({ a with stage := .returned (.error e) }, [])
    | _ => none
  | .shutdown =>
    match a.stage with
    | .waiting _ => some ({ a with stage := .decided (.ok .cancelled) }, [])
    | _ => none
  | .close =>
    match a.stage with
    | .decided result =>
      (a.manager.step (.closeSession a.cookie)).map fun (manager, added) =>
        match added with
        | [.missed _ e] => ({ a with manager, stage := .returned (.error e) }, added)
        | _ => ({ a with manager, stage := .closing a.manager.closings.length result }, added)
    | _ => none
  | .finish =>
    match a.stage with
    | .closing k result =>
      if (a.manager.closings[k]?).map (·.stage) = some .returned then
        some ({ a with stage := .returned result }, [])
      else none
    | _ => none

def run (a : SharedAttempt α) : List (Event α) → Option (SharedAttempt α × List Manager.Entry)
  | [] => some (a, [])
  | e :: events =>
    match a.step e with
    | none => none
    | some (next, added) => (next.run events).map fun (final, more) => (final, added ++ more)

end SharedAttempt

end LoginSession

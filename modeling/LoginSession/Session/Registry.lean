import LoginSession.Fault.Session
import LoginSession.Session.Leader

namespace LoginSession

structure OpenRequest where
  uid : UInt32 := 0
  pid : UInt32 := 0
  serviceName : Option String := none
  parameters : List Parameter := []
  deriving DecidableEq, Repr

/-- `entries` pairs cookies with numbers of leaders; `opened` counts all sessions ever opened, which
makes the number and the id of the next. -/
structure Registry where
  config : Config := .default
  entries : List (String × Nat) := []
  opened : Nat := 0
  deriving DecidableEq, Repr

namespace Registry

def sessionId (number : Nat) : String := s!"Session{number + 1}"

def leaderFor (r : Registry) (cookie : String) (request : OpenRequest) : Leader :=
  { config := r.config
    identity := {
      sessionId := some (sessionId r.opened)
      cookie := some cookie
      serviceName := request.serviceName
      uid := request.uid
      pid := request.pid }
    overrides := .ofList request.parameters }

def find? (r : Registry) (cookie : String) : Option Nat := r.entries.lookup cookie

def find (r : Registry) (cookie : String) : Except SessionError Nat :=
  match r.find? cookie with
  | some leader => .ok leader
  | none => .error (.leaderNotFound cookie)

def register (r : Registry) (cookie : String) (request : OpenRequest) :
    Except SessionError (Registry × Leader) :=
  match r.find? cookie with
  | some _ => .error (.leaderAlreadyExists cookie)
  | none =>
    .ok ({ r with entries := r.entries ++ [(cookie, r.opened)], opened := r.opened + 1 },
      r.leaderFor cookie request)

def close (r : Registry) (cookie : String) : Except SessionError (Registry × Nat) :=
  match r.find? cookie with
  | some leader => .ok ({ r with entries := r.entries.filter (·.1 ≠ cookie) }, leader)
  | none => .error (.leaderNotFound cookie)

def size (r : Registry) : Nat := r.entries.length

def cookies (r : Registry) : List String := r.entries.map (·.1)

theorem register_of_taken {r : Registry} {cookie : String} {leader : Nat} (request : OpenRequest)
    (taken : r.find? cookie = some leader) :
    r.register cookie request = .error (.leaderAlreadyExists cookie) := by
  simp [register, taken]

end Registry

end LoginSession

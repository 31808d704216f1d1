import LoginSession.CommandLine.Words
import LoginSession.Fault.System

namespace LoginSession

inductive BusCode where
  | general
  | insufficientPermission
  | noSuchSession
  | invalidArguments
  | spawnFailed
  | cancelled
  deriving DecidableEq, Repr

def BusCode.name (c : BusCode) : String :=
  "org.freedesktop.ConsoleKit.Error." ++ match c with
    | .general => "General"
    | .insufficientPermission => "InsufficientPermission"
    | .noSuchSession => "NoSuchSession"
    | .invalidArguments => "InvalidArguments"
    | .spawnFailed => "SpawnFailed"
    | .cancelled => "Cancelled"

inductive SessionError where
  | noCommand
  | commandLine (cause : CommandLine.SplitError)
  | spawn (command : String) (cause : SystemFault)
  | alreadyStarted (job : Nat)
  | leaderNotFound (cookie : String)
  | leaderAlreadyExists (cookie : String)
  | config (text : String)
  | system (cause : SystemFault)
  | json
  | internal (text : String)
  | cancelled
  deriving DecidableEq, Repr

namespace SessionError

def code : SessionError → BusCode
  | .commandLine _ | .json => .invalidArguments
  | .spawn .. => .spawnFailed
  | .leaderNotFound _ => .noSuchSession
  | .cancelled => .cancelled
  | .system cause =>
    if cause.kindOf = .permissionDenied then .insufficientPermission else .general
  | .noCommand | .alreadyStarted _ | .leaderAlreadyExists _ | .config _ | .internal _ => .general

def isRetryable : SessionError → Bool
  | .spawn _ cause | .system cause => cause.isTransient
  | _ => false

def isClientError : SessionError → Bool
  | .leaderNotFound _ | .commandLine _ | .json => true
  | _ => false

def message : SessionError → String
  | .noCommand => "Job has no command set"
  | .commandLine cause => "Invalid command line: " ++ cause.message
  | .spawn command cause => "Failed to spawn `" ++ command ++ "`: " ++ cause.text
  | .alreadyStarted job => s!"Job {job} has already been started"
  | .leaderNotFound cookie => "Session not found: " ++ cookie
  | .leaderAlreadyExists cookie => "Session already exists: " ++ cookie
  | .config text => "Configuration error: " ++ text
  | .system cause => "IO error: " ++ cause.text
  | .json => "JSON error"
  | .internal text => "Internal error: " ++ text
  | .cancelled => "Operation cancelled"

def causes : SessionError → List String
  | .commandLine cause => [cause.message]
  | .spawn _ cause | .system cause => [cause.text]
  | _ => []

/-- One line with the causes appended, as a command prints it. -/
def report (e : SessionError) : String := ": ".intercalate (e.message :: e.causes)

end SessionError

end LoginSession

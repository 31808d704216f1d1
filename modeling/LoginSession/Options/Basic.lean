import LoginSession.Config
import LoginSession.Parameter.Basic

namespace LoginSession

inductive LogLevel where
  | error
  | warn
  | info
  | debug
  | trace
  deriving DecidableEq, Repr

structure Options where
  uid : UInt32 := 0
  pid : UInt32 := 0
  service : Option String := none
  overrides : List Parameter := []
  helper : String := Config.defaultHelper
  json : Bool := false
  diagnostic : Bool := false
  logDir : Option String := none
  logFile : Option String := none
  verbose : UInt8 := 0
  quiet : Bool := false
  deriving DecidableEq, Repr

namespace Options

def config (o : Options) : Config := ⟨o.helper⟩

def isDiagnostic (o : Options) : Bool := o.diagnostic || o.logDir.isSome || o.logFile.isSome

def logLevel (o : Options) : LogLevel :=
  if o.quiet then .error
  else if o.verbose = 0 then .warn
  else if o.verbose = 1 then .info
  else if o.verbose = 2 then .debug
  else .trace

def joinPath (dir name : String) : String :=
  if name.toList.head? = some '/' then name
  else if dir.isEmpty || dir.toList.getLast? = some '/' then dir ++ name
  else dir ++ "/" ++ name

def logName (stamp : String) : String := "seatkit-collect-" ++ stamp ++ ".log"

/-- The log file; `stamp` tells apart logs that nobody named, `temporary` is where those go that
were given no directory. -/
def logPath (o : Options) (temporary stamp : String) : String :=
  joinPath (o.logDir.getD temporary) (o.logFile.getD (logName stamp))

end Options

end LoginSession

import LoginSession.Fault.Errno

namespace LoginSession

inductive FaultKind where
  | notFound
  | permissionDenied
  | interrupted
  | wouldBlock
  | outOfMemory
  | invalidInput
  | timedOut
  | brokenPipe
  | alreadyExists
  | notADirectory
  | isADirectory
  | invalidFilename
  | argumentListTooLong
  | executableFileBusy
  | other
  | uncategorized
  deriving DecidableEq, Repr

def FaultKind.description : FaultKind → String
  | .notFound => "entity not found"
  | .permissionDenied => "permission denied"
  | .interrupted => "operation interrupted"
  | .wouldBlock => "operation would block"
  | .outOfMemory => "out of memory"
  | .invalidInput => "invalid input parameter"
  | .timedOut => "timed out"
  | .brokenPipe => "broken pipe"
  | .alreadyExists => "entity already exists"
  | .notADirectory => "not a directory"
  | .isADirectory => "is a directory"
  | .invalidFilename => "invalid filename"
  | .argumentListTooLong => "argument list too long"
  | .executableFileBusy => "executable file busy"
  | .other => "other error"
  | .uncategorized => "uncategorized error"

/-- Error numbers that stand for one cause; every other number is uncategorized. -/
def Errno.kinds : List (Int × FaultKind) :=
  [(1, .permissionDenied), (2, .notFound), (4, .interrupted), (7, .argumentListTooLong),
   (11, .wouldBlock), (12, .outOfMemory), (13, .permissionDenied), (17, .alreadyExists),
   (20, .notADirectory), (21, .isADirectory), (22, .invalidInput), (26, .executableFileBusy),
   (32, .brokenPipe), (36, .invalidFilename), (110, .timedOut)]

def Errno.kind (e : Errno) : FaultKind := (Errno.kinds.lookup e.number).getD .uncategorized

inductive SystemFault where
  | number (e : Errno)
  | kind (k : FaultKind)
  | message (k : FaultKind) (text : String)
  deriving DecidableEq, Repr

namespace SystemFault

def kindOf : SystemFault → FaultKind
  | .number e => e.kind
  | .kind k => k
  | .message k _ => k

def text : SystemFault → String
  | .number e => s!"{e.text} (os error {e.number})"
  | .kind k => k.description
  | .message _ text => text

def isTransient (f : SystemFault) : Bool :=
  f.kindOf = .interrupted || f.kindOf = .wouldBlock || f.kindOf = .outOfMemory

end SystemFault

end LoginSession

import LoginSession.Host.Descriptors
import LoginSession.Host.Files
import LoginSession.Utility.Filter
import LoginSession.Utility.Options
import LoginSession.Utility.Sequence

namespace LoginSession.Utility

open Host (Octets Environment Handle)

structure Stream where
  filter : Filter
  inputs : List Input
  current : Option (Input × Handle) := none
  failed : Bool := false
  lostInput : Bool := false

inductive Task where
  | emit (descriptor : Nat) (bytes : List UInt8)
  | sleep (microseconds : Nat)
  | sleepUntil (time : Nat)
  | sleepForever
  | pump (stream : Stream)
  /-- Reads the whole standard input before it is known what to do. -/
  | gather (taken : List (List UInt8)) (next : List UInt8 → List Task)
  | count (separator : Octets) (course : Sequence.Course)
  | needOutput
  | enter (directory : Octets)
  | setSignals (ignored restored : List Nat)
  | become (words : List Octets) (environment : Environment)
  | exit (status : Nat)

/-- `name` is what the program was started as, and how it speaks of itself. `writeStatus` is how it
ends when nothing more can be written. -/
structure Program where
  name : Octets
  writeStatus : Nat := 1
  tasks : List Task

namespace Program

structure Circumstances where
  name : Octets
  view : Host.Files.View
  environment : Environment
  arguments : List Octets

def print (text : Octets) : Task := .emit 1 (Octets.toBytes text)

def sayLine (text : Octets) : Task := .emit 2 (Octets.toBytes (text ++ ['\n']))

def say (name text : Octets) : Task := sayLine (name ++ ": ".toList ++ text)

def hint (name : Octets) : Octets :=
  "Try '".toList ++ name ++ " --help' for more information.".toList

def fail (name text : Octets) (status : Nat) : List Task := [say name text, .exit status]

def refuse (name text : Octets) (status : Nat) : List Task :=
  [say name text, sayLine (hint name), .exit status]

def inputOf (name : Octets) : Input := if name = ['-'] then .standard else .file name

def inputsOf (names : List Octets) : List Input :=
  if names.isEmpty then [.standard] else names.map inputOf

end Program

end LoginSession.Utility

import LoginSession.Utility.Duration
import LoginSession.Utility.Program

namespace LoginSession.Utility.Sleep

open Host (Octets)
open Program (Circumstances)

def tasks (name : Octets) (operands : List Octets) : List Task :=
  let bad := operands.filter fun text => (Duration.read? text).isNone
  let complaint (text : Octets) : Octets := "invalid time interval ".toList ++ Quoting.phrase text
  if operands.isEmpty then Program.refuse name "missing operand".toList 1
  else if bad.isEmpty then
    match Duration.microseconds? (Duration.total (operands.filterMap Duration.read?)) with
    | some time => [.sleep time, .exit 0]
    | none => [.sleepForever]
  else
    bad.map (fun text => Program.say name (complaint text)) ++
      [Program.sayLine (Program.hint name), .exit 1]

def plan (c : Circumstances) : Program :=
  let read := Options.read { letters := [] } true c.arguments
  let tasks := match read.fault with
    | some fault => Program.refuse c.name fault 1
    | none => tasks c.name read.operands
  { name := c.name, tasks }

end LoginSession.Utility.Sleep

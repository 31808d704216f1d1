import LoginSession.Utility.Condition
import LoginSession.Utility.Program

namespace LoginSession.Utility.Decide

open Host (Octets)
open Program (Circumstances)

def constant (status : Nat) (c : Circumstances) : Program :=
  { name := c.name, tasks := [.exit status] }

def decide (c : Circumstances) (words : List Octets) : List Task :=
  match Condition.decide c.view words with
  | .ok value => [.exit (if value then 0 else 1)]
  | .error fault => Program.fail c.name fault.text 2

def test (c : Circumstances) : Program := { name := c.name, tasks := decide c c.arguments }

def bracket (c : Circumstances) : Program :=
  let tasks :=
    if c.arguments.getLast? = some [']'] then decide c c.arguments.dropLast
    else Program.fail c.name "missing ']'".toList 2
  { name := c.name, tasks }

end LoginSession.Utility.Decide

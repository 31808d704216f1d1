import LoginSession.Machine.Builtin.Directory
import LoginSession.Machine.Builtin.Flow
import LoginSession.Machine.Builtin.Jobs
import LoginSession.Machine.Builtin.Signals
import LoginSession.Machine.Builtin.Variables
import LoginSession.Shell.Test

namespace LoginSession.Shell.Builtin

open Host (Octets)

def echo : Builtin := fun r words => r.print (Utility.Echo.ofShell words)

def printf : Builtin :=
  withoutOptions fun r words =>
    match words with
    | [] => r.giveUp "usage: printf format [arg ...]".toList
    | format :: arguments =>
      let printed := Utility.printf .shell format arguments
      let r := printed.complaints.foldl Reply.warn r
      (r.print printed.output).withStatus printed.status

def read : Builtin := fun r words =>
  match readOptions ['r'] ['p'] [] words with
  | .error text => r.giveUp text
  | .ok (_, []) => r.giveUp "arg count".toList
  | .ok (options, names) =>
    { r with frames := [.readLine names (options.any (·.1 = 'r')) false []] }

def test : Builtin := fun r words =>
  match Test.decide r.view words with
  | .ok value => r.withStatus (if value then 0 else 1)
  | .error fault => r.giveUp fault

def bracket : Builtin := fun r words =>
  if words.getLast? = some [']'] then test r words.dropLast else r.giveUp "missing ]".toList

def succeed : Builtin := fun r _ => r

def fail : Builtin := fun r _ => r.withStatus 1

def table : List (String × Builtin) :=
  [(":", succeed), (".", source), ("[", bracket), ("alias", aliasNames), ("bg", bringForward),
   ("break", skipLoops .leave), ("cd", cd), ("chdir", cd), ("command", command),
   ("continue", skipLoops .again), ("echo", echo), ("eval", eval), ("exec", exec), ("exit", exit),
   ("export", exportNames), ("false", fail), ("fg", bringForward), ("getopts", getopts),
   ("hash", hash), ("jobs", jobs), ("kill", kill), ("local", declareLocal), ("printf", printf),
   ("pwd", pwd), ("read", read), ("readonly", protect), ("return", leaveFunction), ("set", set),
   ("shift", shift), ("test", test), ("times", times), ("trap", trap), ("true", succeed),
   ("type", describeAll), ("ulimit", ulimit), ("umask", umask), ("unalias", unalias),
   ("unset", unset), ("wait", wait)]

def ofName? (name : Octets) : Option Builtin := table.lookup (String.ofList name)

end LoginSession.Shell.Builtin

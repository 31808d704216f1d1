import LoginSession.Utility.Echo
import LoginSession.Utility.Printf
import LoginSession.Utility.Program

namespace LoginSession.Utility.Printing

open Host (Octets)
open Program (Circumstances)

def echo (c : Circumstances) : Program :=
  { name := c.name, tasks := [Program.print (Echo.ofProgram c.arguments), .exit 0] }

def taskOf (name : Octets) : Printf.Part → Task
  | .output text => Program.print text
  | .complaint text => Program.say name text

def printFormat (name format : Octets) (arguments : List Octets) : List Task :=
  let printed := Utility.printf .program format arguments
  let warning := match printed.unused with
    | first :: _ =>
      let text := "warning: ignoring excess arguments, starting with ".toList
      [Program.say name (text ++ Quoting.phrase first)]
    | [] => []
  printed.parts.map (taskOf name) ++ warning ++ [.exit printed.status]

def printf (c : Circumstances) : Program :=
  let words := match c.arguments with
    | ['-', '-'] :: rest => rest
    | words => words
  let tasks := match words with
    | [] => Program.refuse c.name "missing operand".toList 1
    | format :: arguments => printFormat c.name format arguments
  { name := c.name, tasks }

end LoginSession.Utility.Printing

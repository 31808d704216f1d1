import LoginSession.Utility.Command.Cat
import LoginSession.Utility.Command.Decide
import LoginSession.Utility.Command.Env
import LoginSession.Utility.Command.Grep
import LoginSession.Utility.Command.Head
import LoginSession.Utility.Command.Printing
import LoginSession.Utility.Command.Seq
import LoginSession.Utility.Command.Sleep
import LoginSession.Utility.Command.Tr

namespace LoginSession.Utility.Catalogue

open Program (Circumstances)

def programs : List (String × (Circumstances → Program)) :=
  [("[", Decide.bracket), ("cat", Cat.plan), ("echo", Printing.echo), ("env", Env.plan),
   ("false", Decide.constant 1), ("grep", Grep.plan), ("head", Head.plan),
   ("printf", Printing.printf), ("seq", Seq.plan), ("sleep", Sleep.plan), ("test", Decide.test),
   ("tr", Tr.plan), ("true", Decide.constant 0)]

def names : List String := programs.map (·.1)

/-- What a program does. A name that is no program's ends at once. -/
def plan (program : String) (c : Circumstances) : Program :=
  ((programs.lookup program).getD (Decide.constant 127)) c

end LoginSession.Utility.Catalogue

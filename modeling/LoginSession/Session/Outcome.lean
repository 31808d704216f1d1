import LoginSession.Parameter.Encoding
import LoginSession.Parameter.Report

namespace LoginSession

inductive Outcome where
  | collected (parameters : ParameterSet)
  | helperFailed
  | cancelled
  deriving DecidableEq, Repr

namespace Outcome

def exitCode : Outcome → Nat
  | .collected _ => 0
  | .helperFailed => 1
  | .cancelled => 130

def parameters? : Outcome → Option ParameterSet
  | .collected parameters => some parameters
  | _ => none

/-- One line per parameter, or one JSON document followed by a newline. Only a collection that
succeeded prints anything. -/
def text (json : Bool) : Outcome → String
  | .collected parameters =>
    if json then parameters.prettyJson ++ "\n" else parameters.renderLines
  | .helperFailed | .cancelled => ""

end Outcome

end LoginSession

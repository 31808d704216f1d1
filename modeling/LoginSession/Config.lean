import LoginSession.CommandLine.Words
import LoginSession.Text.Blank

namespace LoginSession

/-- The helper is a command line, not a path: it may name an interpreter followed by a script. -/
structure Config where
  helper : String
  deriving DecidableEq, Repr

namespace Config

def helperVariable : String := "SEATKIT_COLLECT_HELPER"

def defaultHelper : String := "/usr/libexec/ck-collect-session-info"

def default : Config := ⟨defaultHelper⟩

/-- A variable that holds blanks only counts as unset. -/
def ofVariable (value : Option String) : Config :=
  match value with
  | none => default
  | some helper => if (Text.trim helper.toList).isEmpty then default else ⟨helper⟩

def ofVariables {m : Type → Type} [Monad m] (lookup : String → m (Option String)) : m Config :=
  ofVariable <$> lookup helperVariable

def helperCommand (c : Config) (uid pid : UInt32) : String :=
  c.helper ++ " --uid " ++ toString uid.toNat ++ " --pid " ++ toString pid.toNat

theorem ofVariables_id (lookup : String → Id (Option String)) :
    ofVariables lookup = ofVariable (lookup helperVariable) := rfl

end Config

end LoginSession

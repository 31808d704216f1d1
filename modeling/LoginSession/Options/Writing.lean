import LoginSession.Options.Arguments

namespace LoginSession

inductive Choice where
  | uid (n : UInt32)
  | pid (n : UInt32)
  | service (name : String)
  | set (p : Parameter)
  | helper (command : String)
  | json
  | diagnostic
  | logDir (dir : String)
  | logFile (name : String)
  | verbose
  | quiet
  deriving DecidableEq, Repr

namespace Choice

def option : Choice → OptionName
  | .uid _ => .uid
  | .pid _ => .pid
  | .service _ => .service
  | .set _ => .set
  | .helper _ => .helper
  | .json => .json
  | .diagnostic => .diagnostic
  | .logDir _ => .logDir
  | .logFile _ => .logFile
  | .verbose => .verbose
  | .quiet => .quiet

def override? : Choice → Option Parameter
  | .set p => some p
  | _ => none

def value? : Choice → Option String
  | .uid n | .pid n => some (toString n.toNat)
  | .set p => some (p.key ++ "=" ++ p.value.render)
  | .service value | .helper value | .logDir value | .logFile value => some value
  | _ => none

/-- A choice that has a value is written `--name=value`, a flag by its long name, and verbosity by
one `-v` for each step. -/
def argument (c : Choice) : String :=
  match c.value? with
  | some value => "--" ++ c.option.long ++ "=" ++ value
  | none => if c = .verbose then "-v" else "--" ++ c.option.long

end Choice

namespace Options

def choicesFor (o : Options) : OptionName → List Choice
  | .uid => [.uid o.uid]
  | .pid => [.pid o.pid]
  | .service => o.service.toList.map .service
  | .set => o.overrides.map .set
  | .helper => [.helper o.helper]
  | .json => if o.json then [.json] else []
  | .diagnostic => if o.diagnostic then [.diagnostic] else []
  | .logDir => o.logDir.toList.map .logDir
  | .logFile => o.logFile.toList.map .logFile
  | .verbose => List.replicate o.verbose.toNat .verbose
  | .quiet => if o.quiet then [.quiet] else []
  | .help | .version => []

def choices (o : Options) : List Choice := OptionName.all.flatMap o.choicesFor

/-- A list of choices for these options in any order, save that the overrides stay in sequence. -/
structure IsOrder (o : Options) (cs : List Choice) : Prop where
  perm : cs.Perm o.choices
  sequence : cs.filterMap Choice.override? = o.overrides

end Options

end LoginSession

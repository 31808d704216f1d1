import LoginSession.Options.Arguments
import LoginSession.Session.Cookie
import LoginSession.Supervisor.Sessions

namespace LoginSession

open Host (Octets Environment Files)

namespace Collector

/-- What a run leaves behind. The lines are those on the diagnostic output, the log excepted. -/
structure Result where
  exit : Exit
  output : String := ""
  lines : List String := []
  files : Files

def notice (path : String) : String := "Diagnostic mode: logging to " ++ path

def complaint (report : String) : String := "Error: " ++ report

def openLog (files : Files) (cwd : Host.Path) (path : String) : Files × Option Errno :=
  let name := Octets.ofString path
  let above := ((Files.components name).filter (· ≠ ['.'])).dropLast
  match files.makeDirectories (if Files.isAbsolute name then [] else cwd) above with
  | (files, some e) => (files, some e)
  | (files, none) =>
    match files.create cwd name with
    | .error e => (files, some e)
    | .ok (_, files) => (files, none)

def valueOf? (environment : Environment) (name : String) : Option String :=
  (environment.lookup name.toList).map Octets.toText

def temporaryDirectory (environment : Environment) : String :=
  (valueOf? environment "TMPDIR").getD "/tmp"

def ending (s : Supervisor Unit) (lines : List String) (json : Bool)
    (result : Except SessionError Outcome) : Result :=
  let files := s.host.files
  match s.host.process? s.owner, result with
  | some { image := .ended how, .. }, _ => { exit := how, lines, files }
  | _, .error e => { exit := .exited 1, lines := lines ++ [complaint e.report], files }
  | _, .ok outcome =>
    { exit := .exited outcome.exitCode, output := outcome.text json, lines, files }

def collect (files : Files) (environment : Environment) (lines : List String) (o : Options) :
    Result :=
  let s : Supervisor Unit := .create files environment o.config
  let request : OpenRequest :=
    { uid := o.uid, pid := o.pid, serviceName := o.service, parameters := o.overrides }
  let (s, result) := s.collectOnce (Cookie.ofNumber 0) () request .onSignal
  ending s lines o.json result

/-- Runs the program with its arguments in a file tree and an environment; `stamp` is the time of
the start, as it appears in the name of a log that nobody named. -/
def run (files : Files) (environment : Environment) (stamp : String) (arguments : List String) :
    Result :=
  match Options.ofArguments arguments (valueOf? environment Config.helperVariable) with
  | .error e => { exit := .exited e.exitCode, files }
  | .ok o =>
    if o.isDiagnostic then
      let path := o.logPath (temporaryDirectory environment) stamp
      match openLog files [] path with
      | (files, some e) =>
        { exit := .exited 1, lines := [complaint (SystemFault.number e).text], files }
      | (files, none) => collect files environment [notice path] o
    else collect files environment [] o

end Collector

end LoginSession

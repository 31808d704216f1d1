import LoginSession.Host.Files
import LoginSession.Shell.State

namespace LoginSession.Shell

open Host (Octets Environment Files Path)

structure SwitchWords where
  switches : Switches
  output : Octets := []
  takesScript : Bool := false
  endedBy : Option Octets := none

namespace SwitchWords

def byName (s : SwitchWords) (value : Bool) (name : Octets) : Except Octets SwitchWords :=
  match Switch.ofName? name with
  | some x => .ok { s with switches := s.switches.turn x value }
  | none => .error ("Illegal option -o ".toList ++ name)

def list (s : SwitchWords) (value : Bool) (shown : Switches) : SwitchWords :=
  { s with output := s.output ++ if value then shown.table else shown.commands }

/-- The letters of one word; the names that they ask for come from the words after it. At the start
of a shell a few more letters have a meaning, and its switches all count as on until they are set.
-/
def letters (starting value : Bool) (s : SwitchWords) (names : List Octets) :
    Octets → Except Octets (SwitchWords × List Octets)
  | [] => .ok (s, names)
  | c :: rest =>
    if starting && c = 'c' then letters starting value { s with takesScript := true } names rest
    else if starting && c = 'l' then letters starting value s names rest
    else if c = 'o' then
      match names with
      | name :: names => do letters starting value (← s.byName value name) names rest
      | [] =>
        letters starting value (s.list value (if starting then Switch.all else s.switches)) [] rest
    else
      match Switch.ofLetter? c with
      | some x =>
        letters starting value { s with switches := s.switches.turnByLetter x value } names rest
      | none => .error ("Illegal option -".toList ++ [c])

theorem length_letters {starting value : Bool} {s t : SwitchWords} {names rest word : List _}
    (h : letters starting value s names word = .ok (t, rest)) : rest.length ≤ names.length := by
  induction word generalizing s names with
  | nil => cases h; exact Nat.le_refl _
  | cons c word ih =>
    unfold letters at h
    split at h
    · exact ih h
    split at h
    · exact ih h
    split at h
    · split at h
      · rename_i _ name others
        simp only [bind, Except.bind] at h
        split at h
        · cases h
        · exact Nat.le_trans (ih h) (Nat.le_succ _)
      · exact ih h
    split at h
    · exact ih h
    · cases h

def read (starting : Bool) (s : SwitchWords) (words : List Octets) :
    Except Octets (SwitchWords × List Octets) :=
  match words with
  | [] => .ok (s, [])
  | ['-'] :: rest | ['-', '-'] :: rest =>
    .ok ({ s with endedBy := words.head? }, rest)
  | ('-' :: word) :: rest =>
    match h : letters starting true s rest word with
    | .ok (s, rest) =>
      have := length_letters h
      read starting s rest
    | .error e => .error e
  | ('+' :: word) :: rest =>
    match h : letters starting false s rest word with
    | .ok (s, rest) =>
      have := length_letters h
      read starting s rest
    | .error e => .error e
  | words => .ok (s, words)
  termination_by words.length
  decreasing_by all_goals simp_wf; omega

end SwitchWords

def defaultPath : Octets := "/usr/local/sbin:/usr/local/bin:/usr/sbin:/usr/bin:/sbin:/bin".toList

def lastingVariables : Variables :=
  let known (name : String) (value : Option String) : Octets × Variable :=
    (name.toList, { value := value.map String.toList, lasting := true })
  [known "HISTSIZE" none, known "TERM" none, known "OPTIND" (some "1"), known "PS4" (some "+ "),
   known "PS2" (some "> "), known "PS1" (some "# "),
   ("PATH".toList, { value := some defaultPath, lasting := true }), known "MAILPATH" none,
   known "MAIL" none, known "IFS" (some " \t\n")]

def pathText (path : Path) : Octets := '/' :: Text.joinPieces '/' path

/-- The name of the directory in which a shell begins: the one that it is told, if that is right. -/
def startDirectory (files : Files) (environment : Environment) (cwd : Path) : Octets :=
  match environment.lookup "PWD".toList with
  | some name =>
    match Files.isAbsolute name, files.resolve cwd name with
    | true, .ok (path, some .directory) => if path = cwd then name else pathText cwd
    | _, _ => pathText cwd
  | none => pathText cwd

def initialVariables (environment : Environment) (directory : Octets) (parent : Nat) : Variables :=
  let given := environment.filter (isName ·.1)
  let v := given.foldl (fun (v : Variables) (name, value) =>
    v.put name { v.current name with value := some value, exported := true }) lastingVariables
  let v := (v.assign "IFS".toList [' ', '\t', '\n']).assign "OPTIND".toList ['1']
  let v := v.assign "PPID".toList (Octets.ofNat parent)
  v.put "PWD".toList { v.current "PWD".toList with value := some directory, exported := true }

structure Circumstances where
  files : Files
  cwd : Path
  process : Nat
  parent : Nat
  environment : Environment
  ignored : List Nat

def terminalComplaint (s : State) : Frame :=
  .emit 2 (Octets.toBytes ({ s with line := 0 }.diagnosis
    "can't access tty; job control turned off".toList)) []

def begin (c : Circumstances) (ownName : Octets) (arguments : List Octets) :
    Except Octets State := do
  let (asked, operands) ← SwitchWords.read true { switches := [] } arguments
  let directory := startDirectory c.files c.environment c.cwd
  let start (name : Octets) (arguments : List Octets) (switches : Switches) (frames : List Frame) :
      State :=
    let s : State := {
      name, arguments, directory, stack := []
      vars := initialVariables c.environment directory c.parent
      switches := switches.turn .monitor false
      ignoredBefore := c.ignored
      mainProcess := c.process
      parentProcess := c.parent }
    let wantsTerminal := switches.isOn .monitor || switches.isOn .interactive
    let complaint := if wantsTerminal then [terminalComplaint s] else []
    { s with stack := .emit 1 (Octets.toBytes asked.output) [] :: complaint ++ frames }
  let on := asked.switches
  let more (switches : Switches) : List Frame :=
    if switches.isOn .standardInput then [.readScript 0 { rest := [] } false] else []
  match asked.takesScript, operands with
  | true, [] => .error "-c requires an argument".toList
  | true, text :: rest =>
    let script : Frame :=
      .script .text { rest := text } false false (!on.isOn .standardInput)
    return start (rest.headD ownName) (rest.drop 1) on (script :: more on)
  | false, [] =>
    let on := on.turn .standardInput true
    return start ownName [] on (more on)
  | false, file :: rest =>
    if on.isOn .standardInput then return start ownName operands on (more on)
    else
      let script (text : Octets) : Frame := .script .file { rest := text } false false false
      match c.files.resolve c.cwd file with
      | .ok (_, some (.file content)) => return start file rest on [script (Octets.ofBytes content)]
      | .ok (_, some _) => return start file rest on [script []]
      | .ok (_, none) | .error .noEntry | .error .notDirectory =>
        .error ("cannot open ".toList ++ file ++ ": No such file".toList)
      | .error e => .error ("cannot open ".toList ++ file ++ ": ".toList ++ e.text.toList)

end LoginSession.Shell

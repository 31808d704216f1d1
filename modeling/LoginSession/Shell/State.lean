import LoginSession.Host.Descriptors
import LoginSession.Process.Signal
import LoginSession.Shell.Arithmetic
import LoginSession.Shell.Jobs
import LoginSession.Shell.Source
import LoginSession.Shell.Switches
import LoginSession.Shell.Variables

namespace LoginSession.Shell

open Host (Octets Environment)

/-- What `break`, `continue` and `return` ask for. Until it is reached, nothing more is done. -/
inductive Skip where
  | leave (loops : Nat)
  | again (loops : Nat)
  | return (explicit : Bool)
  deriving DecidableEq, Repr

inductive Local where
  | variable (name : Octets) (old : Option Variable)
  | switches (old : Switches)

/-- How far `getopts` has come: the argument to look at, counted from 1, and within it the letter,
if one has been begun. -/
structure OptionPlace where
  index : Nat := 1
  offset : Option Nat := none
  deriving DecidableEq, Repr

structure Found where
  place : Nat
  doubtful : Bool := false
  deriving DecidableEq, Repr

inductive Target where
  | file (descriptor : Nat) (kind : RedirectKind) (name : Octets)
  | document (descriptor : Nat) (text : Octets)
  | faulty (text : Octets)
  | copy (descriptor source : Nat)
  | close (descriptor : Nat)

abbrev Saved := List (Nat × Option Nat)

structure Preparation where
  words : List Word
  fields : List Octets := []
  redirects : List Redirect
  targets : List Target := []
  assignments : List (Octets × Word)
  assigned : List (Octets × Octets) := []
  saved : Option Saved := none
  isTraced : Bool := false

inductive Purpose where
  | compound (body : Command)
  | subshell (body : Command)
  | background (body : Command)

/-- A request to return from a text goes on to what surrounds it; from a file it ends there. -/
inductive Origin where
  | text
  | file
  deriving DecidableEq, Repr

/-- Why a shell ends. -/
inductive Ending where
  | fault
  | finish
  | request
  deriving DecidableEq, Repr

/-- One thing that remains to be done. A command is `tested` when a failure of it decides something
and so is no reason to give up, and `last` when nothing follows it in this process. -/
inductive Frame where
  | script (origin : Origin) (source : Source) (ran tested last : Bool)
  | readScript (descriptor : Nat) (source : Source) (ran : Bool)
  | evaluate (command : Command) (tested last : Bool)
  | continueIf (onSuccess : Bool) (second : Command) (tested last : Bool)
  | negate
  | select (consequence alternative : Command) (tested last : Bool)
  | beginLoop (untilTrue : Bool) (condition body : Command) (tested : Bool) (status : Nat)
  | decideLoop (untilTrue : Bool) (condition body : Command) (tested : Bool) (status : Nat)
  | endLoop (untilTrue : Bool) (condition body : Command) (tested : Bool)
  | collectItems (name : Octets) (words : List Word) (items : List Octets) (body : Command)
      (tested : Bool)
  | beginEach (name : Octets) (items : List Octets) (body : Command) (tested : Bool) (status : Nat)
  | endEach (name : Octets) (items : List Octets) (body : Command) (tested : Bool)
  | choose (subject : Word ⊕ Octets) (arms : List (List Word × Command)) (tested last : Bool)
  | prepare (p : Preparation) (tested last : Bool)
  | redirect (redirects : List Redirect) (targets : List Target) (purpose : Purpose)
      (tested last : Bool)
  | within (targets : List Target) (body : Command) (tested : Bool)
  | substitute (pipe child : Nat) (taken : List (List UInt8)) (retry : Frame)
  | collect (child : Nat × Option Exit) (output : Octets) (retry : Frame)
  | restoreDescriptors (saved : Saved)
  | leaveScope
  | leaveFunction (arguments : List Octets) (options : OptionPlace) (loops : Nat)
  | leaveScript (descriptor : Option Nat)
  | restoreCommandName (name : Option Octets)
  | finishBuiltin (catches : Bool)
  | await (processes : List (Nat × Option Exit))
  | wait (targets : List Octets) (status : Nat)
  | waitAll
  | emit (descriptor : Nat) (bytes : List UInt8) (command : Octets)
  | readLine (names : List Octets) (raw escaped : Bool) (taken : List (Char × Bool))
  | execute (words : List Octets) (environment : Environment) (searchPath : Option Octets)
  | setStatus (status : Nat)
  | endTrap (status : Nat) (saved : Option Nat)
  | endExit
  | checkFailure (tested : Bool)
  | exit (why : Ending)

structure State where
  name : Octets
  commandName : Option Octets := none
  arguments : List Octets
  vars : Variables
  scopes : List (List Local) := []
  functions : List (Octets × Command) := []
  aliases : List (Octets × Octets) := []
  found : List (Octets × Found) := []
  switches : Switches := []
  traps : List (Nat × Octets) := []
  ignoredBefore : List Nat := []
  status : Nat := 0
  savedStatus : Option Nat := none
  skip : Option Skip := none
  loops : Nat := 0
  options : OptionPlace := {}
  mainProcess : Nat
  parentProcess : Nat
  lastBackground : Option Nat := none
  jobs : Jobs := {}
  line : Nat := 1
  readLine : Nat := 1
  directory : Octets
  answers : List Octets := []
  substitutionStatus : Nat := 0
  stack : List Frame

namespace State

def push (s : State) (frames : List Frame) : State := { s with stack := frames ++ s.stack }

def hasTraps (s : State) : Bool := s.traps.any (·.2 ≠ [])

def trap? (s : State) (number : Nat) : Option Octets := s.traps.lookup number

def isOn (s : State) (x : Switch) : Bool := s.switches.isOn x

def value? (s : State) (name : Octets) : Option Octets := s.vars.get? name

def diagnosis (s : State) (text : Octets) : Octets :=
  s.name ++ ": ".toList ++ Octets.ofNat s.line ++ ": ".toList ++
    (match s.commandName with
      | some command => command ++ ": ".toList
      | none => []) ++ text ++ ['\n']

def separators (s : State) : Octets := (s.value? "IFS".toList).getD [' ', '\t', '\n']

def parameter? (s : State) (name : Octets) : Option Octets :=
  match name with
  | ['#'] => some (Octets.ofNat s.arguments.length)
  | ['?'] => some (Octets.ofNat s.status)
  | ['-'] => some s.switches.letters
  | ['$'] => some (Octets.ofNat s.mainProcess)
  | ['!'] => s.lastBackground.map Octets.ofNat
  | c :: _ =>
    if c.isDigit then
      match (String.ofList name).toNat? with
      | some (n + 1) => s.arguments[n]?
      | _ => some s.name
    else s.value? name
  | [] => none

def count? (word : Octets) : Option Nat :=
  let text := word.dropWhile Arithmetic.isSpace
  let (negative, digits) := match text with
    | '-' :: digits => (true, digits)
    | '+' :: digits => (false, digits)
    | digits => (false, digits)
  let n := (digits.takeWhile Char.isDigit).foldl (fun n c => n * 10 + (c.toNat - 0x30)) 0
  if digits.head?.any Char.isDigit && (digits.dropWhile Char.isDigit).all Arithmetic.isSpace &&
      n < 2147483648 && !(negative && 0 < n) then some n
  else none

def illegalNumber (word : Octets) : Octets := "Illegal number: ".toList ++ word

def effect (s : State) (name : Octets) (value : Option Octets) : Except Octets State :=
  if name = "PATH".toList then .ok { s with found := [] }
  else if name = "OPTIND".toList then
    match count? (value.getD []) with
    | some n => .ok { s with options := ⟨max n 1, none⟩ }
    | none => .error (illegalNumber (value.getD []))
  else .ok s

def isReadOnlyText (name : Octets) : Octets := name ++ ": is read only".toList

/-- Changes a variable; all changes go through here. -/
def change (s : State) (name : Octets) (value : Option Octets) (f : Variable → Variable) :
    Except Octets State := do
  if s.vars.isReadOnly name then .error (isReadOnlyText name)
  else
    let s ← s.effect name value
    let exported := s.isOn .exportAll
    let x := f { s.vars.current name with value }
    let x := { x with exported := x.exported || exported }
    return { s with vars := s.vars.put name x }

def assign (s : State) (name value : Octets) : Except Octets State := s.change name (some value) id

def badName (word : Octets) : Octets :=
  word.takeWhile (· ≠ '=') ++ ": bad variable name".toList

def assignChecked (s : State) (name value : Octets) : Except Octets State :=
  if isName name then s.assign name value else .error (badName name)

def unset (s : State) (name : Octets) : Except Octets State :=
  if !isName name then .error (badName name)
  else if s.vars.isReadOnly name then .error (isReadOnlyText name)
  else
    match s.vars.lookup name with
    | none => .ok s
    | some x => do
      let s ← s.effect name none
      if x.lasting then
        return { s with vars := s.vars.put name { x with value := none } }
      else if s.isOn .exportAll then
        return { s with vars := s.vars.put name { x with value := none, exported := true } }
      else return { s with vars := s.vars.erase name }

def localize (s : State) (name : Octets) (value : Option Octets) (exported : Bool) :
    Except Octets State := do
  let old := s.vars.lookup name
  let lasting (x : Variable) : Variable :=
    { x with lasting := true, exported := x.exported || exported }
  let s ← match value, old with
    | some value, some x =>
      let s := { s with vars := s.vars.put name { x with lasting := true } }
      s.change name (some value) lasting
    | some value, none => s.change name (some value) lasting
    | none, some x => pure { s with vars := s.vars.put name { x with lasting := true } }
    | none, none => s.change name none lasting
  let scopes := match s.scopes with
    | innermost :: rest => (.variable name old :: innermost) :: rest
    | [] => []
  return { s with scopes }

def bringBack (s : State) : Local → State
  | .switches old => { s with switches := old }
  | .variable name old =>
    let s := match s.effect name (old.bind (·.value)) with
      | .ok s => s
      | .error _ => s
    { s with vars := s.vars.restore name old }

def leaveScope (s : State) : State :=
  match s.scopes with
  | innermost :: rest => innermost.foldl bringBack { s with scopes := rest }
  | [] => s

/-- What a simple loop does about a request to skip: the request that remains, and whether the loop
is left. -/
def afterLoop (s : State) : State × Bool :=
  match s.skip with
  | none => (s, false)
  | some (.leave n) => ({ s with skip := if n ≤ 1 then none else some (.leave (n - 1)) }, true)
  | some (.again n) =>
    if n ≤ 1 then ({ s with skip := none }, false)
    else ({ s with skip := some (.again (n - 1)) }, true)
  | some (.return _) => (s, true)

end State

end LoginSession.Shell

import LoginSession.Options.Basic

namespace LoginSession

inductive OptionName where
  | uid
  | pid
  | service
  | set
  | helper
  | json
  | diagnostic
  | logDir
  | logFile
  | verbose
  | quiet
  | help
  | version
  deriving DecidableEq, Repr

namespace OptionName

def all : List OptionName :=
  [.uid, .pid, .service, .set, .helper, .json, .diagnostic, .logDir, .logFile, .verbose, .quiet,
   .help, .version]

def long : OptionName → String
  | .uid => "uid"
  | .pid => "pid"
  | .service => "service"
  | .set => "set"
  | .helper => "helper"
  | .json => "json"
  | .diagnostic => "diagnostic"
  | .logDir => "log-dir"
  | .logFile => "log-file"
  | .verbose => "verbose"
  | .quiet => "quiet"
  | .help => "help"
  | .version => "version"

def short? : OptionName → Option Char
  | .diagnostic => some 'd'
  | .logDir => some 'l'
  | .logFile => some 'f'
  | .verbose => some 'v'
  | .quiet => some 'q'
  | .help => some 'h'
  | .version => some 'V'
  | _ => none

def takesValue : OptionName → Bool
  | .uid | .pid | .service | .set | .helper | .logDir | .logFile => true
  | _ => false

def ofLong? (name : String) : Option OptionName := all.find? (·.long = name)

def ofShort? (c : Char) : Option OptionName := all.find? (·.short? = some c)

end OptionName

inductive NumberFault where
  | empty
  | digit
  | tooLarge
  | tooSmall
  | range (n : Int)
  deriving DecidableEq, Repr

def NumberFault.text : NumberFault → String
  | .empty => "cannot parse integer from empty string"
  | .digit => "invalid digit found in string"
  | .tooLarge => "number too large to fit in target type"
  | .tooSmall => "number too small to fit in target type"
  | .range n => s!"{n} is not in 0..=4294967295"

inductive ValueFault where
  | number (fault : NumberFault)
  | assignment (text : String)
  deriving DecidableEq, Repr

def ValueFault.text : ValueFault → String
  | .number fault => fault.text
  | .assignment text => "expected KEY=VALUE, got `" ++ text ++ "`"

inductive OptionsError where
  | unknownArgument (argument : String)
  | missingValue (option : OptionName)
  | badValue (option : OptionName) (fault : ValueFault)
  | unwantedValue (option : OptionName)
  | repeated (option : OptionName)
  | missingOption (option : OptionName)
  | help
  | version
  deriving DecidableEq, Repr

def OptionsError.exitCode : OptionsError → Nat
  | .help | .version => 0
  | _ => 2

def OptionsError.detail? : OptionsError → Option String
  | .badValue _ fault => some fault.text
  | _ => none

namespace Options

/-- Digits are read before the result is bounded, so the first character that is at fault decides: a
letter before the 64-bit range is left, or the digit that leaves it. -/
def readDigits (negative : Bool) (n : Int) : List Char → Except NumberFault Int
  | [] => .ok n
  | c :: rest =>
    if '0' ≤ c ∧ c ≤ '9' then
      let digit : Int := (c.toNat : Int) - 48
      let n := if negative then n * 10 - digit else n * 10 + digit
      if n < -9223372036854775808 then .error .tooSmall
      else if n > 9223372036854775807 then .error .tooLarge
      else readDigits negative n rest
    else .error .digit

def readInt64 (text : String) : Except NumberFault Int :=
  match text.toList with
  | [] => .error .empty
  | ['+'] | ['-'] => .error .digit
  | '+' :: rest => readDigits false 0 rest
  | '-' :: rest => readDigits true 0 rest
  | rest => readDigits false 0 rest

def readUInt32 (text : String) : Except NumberFault UInt32 :=
  match readInt64 text with
  | .error fault => .error fault
  | .ok n => if 0 ≤ n ∧ n ≤ 4294967295 then .ok (UInt32.ofNat n.toNat) else .error (.range n)

/-- What has been given so far. `pending` is an option whose value may still follow, or has just
followed and has not been looked at. It is completed and checked when the next option starts, so of
two faults the one that is completed first is reported, except that an argument which is no option
at all is reported before a fault still pending. -/
structure Given where
  uid : Option UInt32 := none
  pid : Option UInt32 := none
  service : Option String := none
  overrides : List Parameter := []
  helper : Option String := none
  json : Bool := false
  diagnostic : Bool := false
  logDir : Option String := none
  logFile : Option String := none
  verbose : UInt8 := 0
  quiet : Bool := false
  pending : Option (OptionName × Option String) := none
  deriving DecidableEq, Repr

namespace Given

def storeOnce {α : Type} (option : OptionName) (old : Option α) (store : Except ValueFault Given) :
    Except OptionsError Given :=
  if old.isSome then .error (.repeated option)
  else store.mapError (.badValue option)

def store (g : Given) (option : OptionName) (value : String) : Except OptionsError Given :=
  match option with
  | .uid => storeOnce .uid g.uid <|
      (readUInt32 value).mapError .number |>.map fun n => { g with uid := some n }
  | .pid => storeOnce .pid g.pid <|
      (readUInt32 value).mapError .number |>.map fun n => { g with pid := some n }
  | .service => storeOnce .service g.service <| .ok { g with service := some value }
  | .set => storeOnce .set (none : Option Unit) <|
      match Parameter.ofAssignment? value with
      | some p => .ok { g with overrides := g.overrides ++ [p] }
      | none => .error (.assignment value)
  | .helper => storeOnce .helper g.helper <| .ok { g with helper := some value }
  | .logDir =>
    if g.logDir.isSome then .error (.repeated .logDir)
    else if value.isEmpty then .error (.missingValue .logDir)
    else .ok { g with logDir := some value }
  | .logFile => storeOnce .logFile g.logFile <| .ok { g with logFile := some value }
  | option => .error (.unwantedValue option)

def settle (g : Given) : Except OptionsError Given :=
  match g.pending with
  | none => .ok g
  | some (option, none) => .error (.missingValue option)
  | some (option, some value) => { g with pending := none }.store option value

def flagOnce (option : OptionName) (old : Bool) (g : Given) : Except OptionsError Given :=
  if old then .error (.repeated option) else .ok g

/-- A flag completes the option before it, then takes effect; `verbose` counts and stops at 255. -/
def flag (g : Given) (option : OptionName) : Except OptionsError Given := do
  let g ← g.settle
  match option with
  | .json => flagOnce .json g.json { g with json := true }
  | .diagnostic => flagOnce .diagnostic g.diagnostic { g with diagnostic := true }
  | .quiet => flagOnce .quiet g.quiet { g with quiet := true }
  | .verbose => .ok { g with verbose := if g.verbose = 255 then 255 else g.verbose + 1 }
  | .help => .error .help
  | .version => .error .version
  | option => .error (.missingValue option)

def attach (g : Given) (option : OptionName) (value : String) : Except OptionsError Given := do
  (← g.settle).store option value

def await (g : Given) (option : OptionName) : Except OptionsError Given := do
  return { ← g.settle with pending := some (option, none) }

def long (g : Given) (argument : String) (body : List Char) : Except OptionsError Given :=
  let (name, value) := match Text.cutAt? ['='] body with
    | some (name, value) => (name, some (String.ofList value))
    | none => (body, none)
  match OptionName.ofLong? (String.ofList name), value with
  | none, _ => .error (.unknownArgument argument)
  | some option, none => if option.takesValue then g.await option else g.flag option
  | some option, some value =>
    if option.takesValue then g.attach option value else .error (.unwantedValue option)

/-- One-letter options behind one dash. What follows the letter of an option that takes a value is
its value; an equals sign in front of it is dropped. -/
def short (g : Given) (argument : String) : List Char → Except OptionsError Given
  | [] => .ok g
  | c :: rest =>
    match OptionName.ofShort? c with
    | none => .error (.unknownArgument argument)
    | some option =>
      if option.takesValue then
        match rest with
        | [] => g.await option
        | '=' :: value => g.attach option (String.ofList value)
        | value => g.attach option (String.ofList value)
      else
        match g.flag option with
        | .error e => .error e
        | .ok g => g.short argument rest

def plain (g : Given) (argument : String) : Except OptionsError Given :=
  match g.pending with
  | some (option, none) => .ok { g with pending := some (option, some argument) }
  | _ => .error (.unknownArgument argument)

def argument (g : Given) (argument : String) : Except OptionsError Given :=
  match argument.toList with
  | '-' :: '-' :: body => g.long argument body
  | '-' :: c :: rest => g.short argument (c :: rest)
  | _ => g.plain argument

def arguments (g : Given) : List String → Except OptionsError Given
  | [] => .ok g
  | "--" :: [] => .ok g
  | "--" :: argument :: _ => .error (.unknownArgument argument)
  | argument :: rest =>
    match g.argument argument with
    | .error e => .error e
    | .ok g => g.arguments rest

/-- An environment variable stands in for an option that was not given, even an empty one. -/
def finish (g : Given) (helperVariable : Option String) : Except OptionsError Options := do
  let g ← g.settle
  let some uid := g.uid | .error (.missingOption .uid)
  let some pid := g.pid | .error (.missingOption .pid)
  return {
    uid, pid
    service := g.service
    overrides := g.overrides
    helper := g.helper.getD (helperVariable.getD Config.defaultHelper)
    json := g.json
    diagnostic := g.diagnostic
    logDir := g.logDir
    logFile := g.logFile
    verbose := g.verbose
    quiet := g.quiet }

end Given

def ofArguments (arguments : List String) (helperVariable : Option String) :
    Except OptionsError Options := do
  (← Given.arguments {} arguments).finish helperVariable

end Options

end LoginSession

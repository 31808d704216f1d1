import LoginSession.Process.Signal
import LoginSession.Utility.Program

namespace LoginSession.Utility.Env

open Host (Octets Environment)
open Program (Circumstances)

def failure : Nat := 125

def options : Options.Table where
  letters :=
    [('C', .something), ('i', .nothing), ('S', .last), ('u', .something), ('v', .nothing),
     ('0', .nothing)]
  names :=
    [("ignore-environment", 'i', .nothing), ("null", '0', .nothing), ("unset", 'u', .something),
     ("chdir", 'C', .something), ("default-signal", 'D', .perhaps),
     ("ignore-signal", 'I', .perhaps), ("block-signal", 'B', .perhaps),
     ("list-signal-handling", 'L', .nothing), ("debug", 'v', .nothing),
     ("split-string", 'S', .last)]

structure Settings where
  isFresh : Bool := false
  nulEnds : Bool := false
  unwanted : List Octets := []
  directory : Option Octets := none
  isDebugging : Bool := false
  listsSignals : Bool := false
  ignored : List Nat := []
  blocked : List Nat := []
  restored : List Nat := []
  log : List Octets := []

/-- A blank among options is a fault of its own: the first line of a script has been misread. -/
inductive Fault where
  | usage (text : Octets)
  | blank (text : Octets)
  | plain (text : Octets)

def shebangHint : Octets := "use -[v]S to pass options in shebang lines".toList

def Settings.note (s : Settings) (lines : List Octets) : Settings :=
  if s.isDebugging then { s with log := s.log ++ lines } else s

structure Splitting where
  words : List Octets := []
  apart : Bool := true
  single : Bool := false
  double : Bool := false
  log : List Octets := []

namespace Splitting

def add (s : Splitting) (text : Octets) : Splitting :=
  match s.apart, s.words with
  | false, word :: words => { s with words := (word ++ text) :: words }
  | _, words => { s with words := text :: words, apart := false }

def finish (s : Splitting) : List Octets × List Octets := (s.words.reverse, s.log)

end Splitting

def escapes : List (Char × Char) :=
  [('f', '\x0c'), ('n', '\n'), ('r', '\x0d'), ('t', '\t'), ('v', '\x0b'), ('"', '"'), ('#', '#'),
   ('$', '$'), ('\'', '\''), ('\\', '\\')]

def variableName? (text : Octets) : Option Octets :=
  match text with
  | '\x7b' :: rest =>
    let isNameChar (c : Char) : Bool := c.isAlphanum || c = '_'
    let name := rest.takeWhile isNameChar
    if name.head?.all Char.isDigit || (rest.drop name.length).head? ≠ some '\x7d' then none
    else some name
  | _ => none

def braced (name : Octets) : Octets := ['$', '\x7b'] ++ name ++ ['\x7d']

def split (environment : Environment) : Nat → Splitting → Octets →
    Except Octets (List Octets × List Octets)
  | 0, s, _ => .ok s.finish
  | _, s, [] =>
    if s.single || s.double then .error "no terminating quote in -S string".toList
    else .ok s.finish
  | fuel + 1, s, c :: rest =>
    if c = '\'' && !s.double then
      split environment fuel { s.add [] with single := !s.single } rest
    else if c = '"' && !s.single then
      split environment fuel { s.add [] with double := !s.double } rest
    else if Floating.isSpace c && !s.single && !s.double then
      split environment fuel { s with apart := true } rest
    else if c = '#' && s.apart then .ok s.finish
    else if c = '\\' then
      match rest with
      | [] => if s.single then split environment fuel (s.add [c]) rest
        else .error "invalid backslash at end of string in -S".toList
      | d :: after =>
        if s.single && d ≠ '\\' && d ≠ '\'' then split environment fuel (s.add [c]) rest
        else if d = '_' && !s.double then split environment fuel { s with apart := true } after
        else if d = '_' then split environment fuel (s.add [' ']) after
        else if d = 'c' then
          if s.double then .error "'\\c' must not appear in double-quoted -S string".toList
          else .ok s.finish
        else
          match escapes.lookup d with
          | some e => split environment fuel (s.add [e]) after
          | none => .error ("invalid sequence '\\".toList ++ d :: "' in -S".toList)
    else if c = '$' && !s.single then
      match variableName? rest with
      | none =>
        let supported := "only ".toList ++ braced "VARNAME".toList ++ " expansion is supported".toList
        .error (supported ++ ", error at: ".toList ++ c :: rest)
      | some name =>
        let after := rest.drop (name.length + 2)
        match environment.lookup name with
        | some value =>
          let line := "expanding ".toList ++ braced name ++ " into ".toList ++ Quoting.phrase value
          split environment fuel { s.add value with log := s.log ++ [line] } after
        | none =>
          let line := "replacing ".toList ++ braced name ++ " with null string".toList
          split environment fuel { s with log := s.log ++ [line] } after
    else split environment fuel (s.add [c]) rest

def signal? (word : Octets) : Option Nat :=
  let upper := word.map Char.toUpper
  let name := if "SIG".toList.isPrefixOf upper then upper.drop 3 else upper
  if !word.isEmpty && word.all Char.isDigit then
    let n := Directive.natOf word
    if 0 < n ∧ n ≤ 64 then some n else none
  else (Signal.ofName? (String.ofList name)).map (·.number)

def allSignals : List Nat := (List.range 65).filter fun n => 0 < n && !(⟨n⟩ : Signal).isUnstoppable

def readSignals (argument : Option Octets) : Except Fault (List Nat) :=
  match argument with
  | none => .ok allSignals
  | some text =>
    ((Text.pieces ',' text).filter (!·.isEmpty)).mapM fun word =>
      match signal? word with
      | some n => .ok n
      | none => .error (.usage (Quoting.phrase word ++ ": invalid signal".toList))

def apply (s : Settings) (g : Options.Given) : Except Fault Settings := do
  match g.letter with
  | 'i' => return { s with isFresh := true }
  | '0' => return { s with nulEnds := true }
  | 'u' => return { s with unwanted := s.unwanted ++ [g.text] }
  | 'C' => return { s with directory := some g.text }
  | 'v' => return { s with isDebugging := true }
  | 'L' => return { s with listsSignals := true }
  | 'D' =>
    let signals ← readSignals g.argument
    return { s with
      restored := s.restored ++ signals, ignored := s.ignored.filter (!signals.contains ·) }
  | 'I' => return { s with ignored := s.ignored ++ (← readSignals g.argument) }
  | 'B' => return { s with blocked := s.blocked ++ (← readSignals g.argument) }
  | _ => return s

def splitLog (text : Octets) (words : List Octets) : List Octets :=
  let lines := words.mapIdx fun i word =>
    (if i = 0 then " into:    " else "     &    ").toList ++ Quoting.phrase word
  ("split -S:  ".toList ++ Quoting.phrase text) :: lines

def settings (environment : Environment) :
    Nat → Settings → List Octets → Settings × Except Fault (List Octets)
  | 0, s, words => (s, .ok words)
  | fuel + 1, s, words =>
    let read := Options.read options false words
    let isSplit := Options.isLast options read.given
    let given := if isSplit then read.given.dropLast else read.given
    match given.foldlM apply s with
    | .error fault => (s, .error fault)
    | .ok s =>
      match read.fault, isSplit with
      | some fault, _ =>
        let isBlank := fault = "invalid option -- ' '".toList
        (s, .error (if isBlank then .blank fault else .usage fault))
      | none, false => (s, .ok read.operands)
      | none, true =>
        let text := (read.given.getLast?.map (·.text)).getD []
        match split environment (text.length + 1) {} text with
        | .error fault => (s, .error (.plain fault))
        | .ok (words, log) =>
          settings environment fuel ((s.note log).note (splitLog text words)) (words ++ read.operands)

def binding? (word : Octets) : Option (Octets × Octets) :=
  match word.dropWhile (· ≠ '=') with
  | _ :: value => some (word.takeWhile (· ≠ '='), value)
  | [] => none

/-- A name keeps its place when its value changes. -/
def put (name value : Octets) : Environment → Environment
  | [] => [(name, value)]
  | (other, old) :: rest =>
    if other = name then (name, value) :: rest else (other, old) :: put name value rest

def bindAll (environment : Environment) (bindings : List (Octets × Octets)) : Environment :=
  bindings.foldl (fun environment (name, value) => put name value environment) environment

def removeAll (s : Settings) (environment : Environment) :
    List Octets → Settings × Except Fault Environment
  | [] => (s, .ok environment)
  | name :: rest =>
    let s := s.note ["unset:    ".toList ++ name]
    if name.isEmpty || name.contains '=' then
      let text := "cannot unset ".toList ++ Quoting.phrase name ++ ": Invalid argument".toList
      (s, .error (.plain text))
    else removeAll s (environment.filter (·.1 ≠ name)) rest

def startingPoint (s : Settings) (environment : Environment) : Settings × Except Fault Environment :=
  if s.isFresh then (s.note ["cleaning environ".toList], .ok [])
  else removeAll s environment s.unwanted

def listText (s : Settings) (environment : Environment) : Octets :=
  environment.flatMap fun (name, value) =>
    name ++ '=' :: value ++ [if s.nulEnds then '\x00' else '\n']

def signalLine (s : Settings) (n : Nat) : Octets :=
  let name := ((Signal.table.lookup n).map (·.1.toList)).getD (Octets.ofNat n)
  let isIgnored := s.ignored.contains n
  let isBlocked := s.blocked.contains n
  let what := (if isBlocked then "BLOCK" else "") ++ (if isIgnored && isBlocked then "," else "") ++
    (if isIgnored then "IGNORE" else "")
  Directive.pad true ' ' 10 name ++ " (".toList ++ Directive.pad false ' ' 2 (Octets.ofNat n) ++
    "): ".toList ++ what.toList

def becomeTasks (s : Settings) (name : Octets) (words : List Octets) (environment : Environment) :
    List Task :=
  match s.ignored.find? fun n => (⟨n⟩ : Signal).isUnstoppable with
  | some n =>
    let text := "failed to set signal action for signal ".toList ++ Octets.ofNat n
    Program.fail name (text ++ ": Invalid argument".toList) failure
  | none =>
    let listed := (List.range 65).filter fun n => s.ignored.contains n || s.blocked.contains n
    let signals := if s.listsSignals then listed.map fun n => Program.sayLine (signalLine s n) else []
    let debug (lines : List Octets) : List Task :=
      if s.isDebugging then lines.map Program.sayLine else []
    let entering := match s.directory with
      | some directory =>
        debug ["chdir:    ".toList ++ Quoting.word directory] ++ [.enter directory]
      | none => []
    let arguments := words.mapIdx fun i word =>
      "   arg[".toList ++ Octets.ofNat i ++ "]= ".toList ++ Quoting.phrase word
    .setSignals (s.ignored ++ s.blocked) s.restored :: signals ++ entering ++
      debug (("executing: ".toList ++ words.headD []) :: arguments) ++
      [.become words environment]

def finish (c : Circumstances) (s : Settings) (environment : Environment) (words : List Octets) :
    Settings × List Task :=
  let bound := words.takeWhile fun word => (binding? word).isSome
  let command := words.drop bound.length
  let environment := bindAll environment (bound.filterMap binding?)
  let s := s.note (bound.map ("setenv:   ".toList ++ ·))
  let tasks :=
    if s.nulEnds && !command.isEmpty then
      Program.refuse c.name "cannot specify --null (-0) with command".toList failure
    else if s.directory.isSome && command.isEmpty then
      Program.refuse c.name "must specify command with --chdir (-C)".toList failure
    else if command.isEmpty then [Program.print (listText s environment), .exit 0]
    else becomeTasks s c.name command environment
  (s, tasks)

def failTasks (name : Octets) : Fault → List Task
  | .usage text => Program.refuse name text failure
  | .blank text => Program.say name text :: Program.refuse name shebangHint failure
  | .plain text => Program.fail name text failure

/-- A dash alone asks for a fresh environment too. -/
def steps (c : Circumstances) : Settings × List Task :=
  let fuel := (c.arguments.map (·.length + 1)).foldl (· + ·) 1
  match settings c.environment fuel {} c.arguments with
  | (s, .error fault) => (s, failTasks c.name fault)
  | (s, .ok words) =>
    let isDash := words.head? = some ['-']
    match startingPoint { s with isFresh := s.isFresh || isDash } c.environment with
    | (s, .error fault) => (s, failTasks c.name fault)
    | (s, .ok environment) => finish c s environment (if isDash then words.drop 1 else words)

def plan (c : Circumstances) : Program :=
  let (s, tasks) := steps c
  { name := c.name, writeStatus := failure, tasks := s.log.map Program.sayLine ++ tasks }

end LoginSession.Utility.Env

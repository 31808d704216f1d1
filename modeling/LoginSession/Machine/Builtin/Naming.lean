import LoginSession.Machine.Reply

namespace LoginSession.Shell

open Host (Octets Path Files)

def regularBuiltins : List String :=
  ["[", "alias", "bg", "cd", "chdir", "command", "echo", "false", "fg", "getopts", "hash", "jobs",
   "kill", "printf", "pwd", "read", "test", "true", "type", "ulimit", "umask", "unalias", "wait"]

def isBuiltin (name : Octets) : Bool :=
  isSpecialBuiltin name || regularBuiltins.contains (String.ofList name)

def isAssigning (name : Octets) : Bool :=
  ["alias", "export", "local", "readonly"].contains (String.ofList name)

/-- What a name means as a command. A program is found in one of the directories of the search path,
which are counted from zero, or where its name leads. -/
inductive Place where
  | function (body : Command)
  | builtin
  | program (place : Nat)
  | path
  | missing (e : Errno)

namespace State

def searchPath (s : State) : Octets := (s.value? "PATH".toList).getD []

end State

def spelledIn (directory name : Octets) : Octets :=
  if directory.isEmpty then name else directory ++ '/' :: name

/-- Looks for a program in directories. One that was found before in a directory with a full name is
still there. -/
def searchProgram (files : Files) (cwd : Path) (name : Octets) (before : Option Nat) :
    Nat → Errno → List Octets → Except Errno Nat
  | _, e, [] => .error e
  | index, e, directory :: rest =>
    let spelled := spelledIn directory name
    let next (e : Errno) : Except Errno Nat := searchProgram files cwd name before (index + 1) e rest
    if Files.isAbsolute spelled && before.any (index < ·) then next e
    else if Files.isAbsolute spelled && before = some index then .ok index
    else
      match files.resolve cwd spelled with
      | .ok (_, some (.program _)) => .ok index
      | .ok (_, some _) => next .accessDenied
      | .ok (_, none) | .error .noEntry | .error .notDirectory => next e
      | .error other => next other

/-- What a name means. Programs that are found along the shell's own path are remembered; those that
are gone are forgotten. -/
def locate (s : State) (files : Files) (cwd : Path) (noFunctions : Bool) (otherPath : Option Octets)
    (name : Octets) : Place × State :=
  if name.contains '/' then (.path, s)
  else
    match s.functions.lookup name, noFunctions with
    | some body, false => (.function body, s)
    | function, _ =>
      let remembers := otherPath.isNone && function.isNone
      let known := if remembers then s.found.lookup name else none
      match known with
      | some ⟨place, false⟩ => (.program place, s)
      | known =>
        if isBuiltin name then (.builtin, s)
        else
          let directories := Text.pieces ':' (otherPath.getD s.searchPath)
          let others := s.found.filter (·.1 ≠ name)
          match searchProgram files cwd name (known.map (·.place)) 0 .noEntry directories with
          | .error e => (.missing e, if known.isSome then { s with found := others } else s)
          | .ok place =>
            let found :=
              if known.isSome then
                s.found.map fun entry => if entry.1 = name then (name, { place }) else entry
              else s.found ++ [(name, { place })]
            (.program place, if remembers then { s with found } else s)

def notRunText (e : Errno) : Octets :=
  if e = .noEntry ∨ e = .notDirectory then "not found".toList else e.text.toList

/-- A command with its arguments. `viaCommand` says that the word `command` stood before it, so that
it means no function and its failure ends no shell. -/
structure Leading where
  words : List Octets
  viaCommand : Bool := false
  standardPath : Bool := false

def afterCommand (standardPath : Bool) : List Octets → Option (List Octets × Bool)
  | [] => none
  | [['-', '-']] => none
  | ['-', '-'] :: rest => some (rest, standardPath)
  | ('-' :: c :: letters) :: rest =>
    if (c :: letters).all (· = 'p') then afterCommand true rest else none
  | words => some (words, standardPath)

def leadingFrom (isFunction : Octets → Bool) : Nat → Leading → Leading
  | 0, leading => leading
  | fuel + 1, leading =>
    match leading.words with
    | name :: rest =>
      if name = "command".toList && (leading.viaCommand || !isFunction name) then
        match afterCommand leading.standardPath rest with
        | some (words, standardPath) =>
          leadingFrom isFunction fuel { words, viaCommand := true, standardPath }
        | none => leading
      else leading
    | [] => leading

def leading (s : State) (words : List Octets) : Leading :=
  leadingFrom (fun name => (s.functions.lookup name).isSome) words.length { words }

namespace Builtin

def aliasText (name text : Octets) : Octets := name ++ '=' :: quoted text ++ ['\n']

def complainNotFound (command : String) (r : Reply) (name : Octets) : Reply :=
  (r.say (command.toList ++ ": ".toList ++ name ++ " not found\n".toList)).withStatus 1

def putAlias (aliases : List (Octets × Octets)) (name text : Octets) : List (Octets × Octets) :=
  if (aliases.lookup name).isSome then
    aliases.map fun entry => if entry.1 = name then (name, text) else entry
  else aliases ++ [(name, text)]

def aliasWord (r : Reply) (word : Octets) : Reply :=
  let name := word.take 1 ++ (word.drop 1).takeWhile (· ≠ '=')
  match (word.drop 1).dropWhile (· ≠ '=') with
  | _ :: text => { r with state.aliases := putAlias r.state.aliases name text }
  | [] =>
    match r.state.aliases.lookup word with
    | some text => r.print (aliasText word text)
    | none => complainNotFound "alias" r word

def aliasNames : Builtin := fun r words =>
  if words.isEmpty then
    r.print ((Variables.grouped 39 r.state.aliases).flatMap fun (name, text) => aliasText name text)
  else words.foldl aliasWord r

def unalias : Builtin :=
  withOptions "a" fun r options words =>
    if !options.isEmpty then { r with state.aliases := [] }
    else
      words.foldl (fun r name =>
        if (r.state.aliases.lookup name).isSome then
          { r with state.aliases := r.state.aliases.filter (·.1 ≠ name) }
        else complainNotFound "unalias" r name) r

def isKeyword (name : Octets) : Bool := isReserved name

def spelledAt (path : Octets) (place : Nat) (name : Octets) : Octets :=
  spelledIn ((Text.pieces ':' path)[place]?.getD []) name

def describe (inWords : Bool) (otherPath : Option Octets) (r : Reply) (name : Octets) : Reply :=
  let say (r : Reply) (text : String) : Reply :=
    r.printLine (if inWords then name ++ ' ' :: text.toList else name)
  if isKeyword name then say r "is a shell keyword"
  else
    match r.state.aliases.lookup name with
    | some text =>
      if inWords then r.printLine (name ++ " is an alias for ".toList ++ text)
      else r.print ("alias ".toList ++ aliasText name text)
    | none =>
      let path := otherPath.getD r.state.searchPath
      let known := if otherPath.isNone then r.state.found.lookup name else none
      let isFile := match r.host.files.resolve r.cwd name with
        | .ok (_, some _) => true
        | _ => false
      let (place, state) := match known with
        | some found => (Place.program found.place, r.state)
        | none => locate r.state r.host.files r.cwd otherPath.isSome otherPath name
      let r := { r with state }
      let program (tracked : String) (spelled : Octets) : Reply :=
        r.printLine
          (if inWords then name ++ " is ".toList ++ tracked.toList ++ spelled else spelled)
      let missing : Reply :=
        (if inWords then r.printLine (name ++ ": not found".toList) else r).withStatus 127
      match place with
      | .function _ => say r "is a shell function"
      | .builtin =>
        say r (if isSpecialBuiltin name then "is a special shell builtin" else "is a shell builtin")
      | .program place =>
        program (if known.isSome then "a tracked alias for " else "") (spelledAt path place name)
      | .path => if isFile then program "" name else missing
      | .missing _ => missing

def describeAll : Builtin := fun r words =>
  words.foldl (fun r name =>
    let status := r.status
    let r := describe true none (r.withStatus 0) name
    r.withStatus (r.status ||| status)) r

def standardPath : Octets := "/usr/local/sbin:/usr/local/bin:/usr/sbin:/usr/bin:/sbin:/bin".toList

def command : Builtin :=
  withOptions "pvV" fun r options words =>
    let inWords := options.contains 'V'
    match words with
    | name :: _ =>
      if inWords || options.contains 'v' then
        describe inWords (if options.contains 'p' then some standardPath else none) r name
      else r
    | [] => r

def hashName (r : Reply) (name : Octets) : Reply :=
  let forgotten := { r.state with found := r.state.found.filter (·.1 ≠ name) }
  let (place, state) := locate forgotten r.host.files r.cwd false none name
  let r := { r with state }
  match place with
  | .missing e => (r.warn (name ++ ": ".toList ++ notRunText e)).withStatus 1
  | _ => r

def hash : Builtin :=
  withOptions "r" fun r options words =>
    if !options.isEmpty then { r with state.found := [] }
    else if words.isEmpty then
      (Variables.grouped 31 r.state.found).foldl (fun r (name, found) =>
        r.printLine (spelledAt r.state.searchPath found.place name ++
          if found.doubtful then ['*'] else [])) r
    else words.foldl hashName r

end Builtin

end LoginSession.Shell

import LoginSession.Machine.Reply
import LoginSession.Shell.Invocation

namespace LoginSession.Shell.Builtin

open Host (Octets Path)

/-- Of the two ways to see links, the last option counts: by name, or where they lead. -/
def isPhysical (options : List Char) : Bool := options.getLast? = some 'P'

def followByName (components : List Octets) : List Octets → List Octets
  | [] => components
  | part :: rest =>
    if part = ['.', '.'] then followByName components.dropLast rest
    else if part = ['.'] then followByName components rest
    else followByName (components ++ [part]) rest

/-- Exactly two slashes at the beginning of a name are kept. -/
def rootOf : Octets → Octets
  | '/' :: '/' :: '/' :: _ => ['/']
  | '/' :: '/' :: _ => ['/', '/']
  | _ => ['/']

def directoryByName (directory name : Octets) : Octets :=
  let parts := Host.Files.components name
  if Host.Files.isAbsolute name then
    rootOf name ++ Text.joinPieces '/' (followByName [] parts)
  else
    rootOf directory ++
      Text.joinPieces '/' (followByName (Host.Files.components directory) parts)

/-- Names that begin with a component of one or two dots are not looked for elsewhere. -/
def isRelativeToHere (name : Octets) : Bool :=
  let first := name.takeWhile (· ≠ '/')
  first = ['.'] || first = ['.', '.'] || Host.Files.isAbsolute name

def directoryAt? (r : Reply) (name : Octets) : Option Path :=
  match r.host.files.resolve r.cwd name with
  | .ok (path, some .directory) => some path
  | _ => none

/-- Goes to a directory; none if there is no such directory. What was found in the search path may
be found elsewhere from there. -/
def enter (physical : Bool) (name : Octets) (r : Reply) : Option Reply :=
  let spelled := directoryByName r.state.directory name
  (directoryAt? r (if physical then name else spelled)).map fun path =>
    let directory := if physical then pathText path else spelled
    let found := r.state.found.map fun (name, found) => (name, { found with doubtful := true })
    let r := { r with host := r.host.update r.pid ({ · with cwd := path }), state.found := found }
    let r := exportAs "OLDPWD".toList r.state.directory r
    if r.isGivenUp then r
    else exportAs "PWD".toList directory { r with state.directory := directory }
where
  exportAs (name value : Octets) (r : Reply) : Reply :=
    r.tryState (r.state.change name (some value) ({ · with exported := true }))

def cd : Builtin :=
  withOptions "LP" fun r options words =>
    let physical := isPhysical options
    let (name, isShown) := match words with
      | [] => ((r.state.value? "HOME".toList).getD [], false)
      | ['-'] :: _ => ((r.state.value? "OLDPWD".toList).getD [], true)
      | word :: _ => (word, false)
    let target := if name.isEmpty then ['.'] else name
    let candidates : List (Octets × Bool) :=
      match r.state.value? "CDPATH".toList with
      | some places =>
        if isRelativeToHere name then []
        else
          (Text.pieces ':' places).map fun place =>
            if place.isEmpty then (target, false) else (place ++ '/' :: target, true)
      | none => []
    let there := candidates.find? fun candidate => (directoryAt? r candidate.1).isSome
    let (place, isNamed) := there.getD (target, false)
    match enter physical place r with
    | none => r.giveUp ("can't cd to ".toList ++ target)
    | some r =>
      if r.isGivenUp || !(isShown || isNamed) then r else r.printLine r.state.directory

def pwd : Builtin :=
  withOptions "LP" fun r options _ =>
    r.printLine (if isPhysical options then pathText r.cwd else r.state.directory)

def allRights : Nat := 0o777

def octalText (n : Nat) : Octets := ['0'] ++ [n / 64, n / 8 % 8, n % 8].map Nat.digitChar

def readOctal? (word : Octets) : Option Nat :=
  if word.all fun c => '0' ≤ c && c ≤ '7' then
    some (word.foldl (fun n c => n * 8 + (c.toNat - 0x30)) 0)
  else none

def rightsText (rights : Nat) : Octets :=
  let one (who : Char) (digit : Nat) : Octets :=
    who :: '=' :: [('r', 4), ('w', 2), ('x', 1)].filterMap fun (letter, bit) =>
      if digit &&& bit = 0 then none else some letter
  one 'u' (rights / 64) ++ ',' :: one 'g' (rights / 8 % 8) ++ ',' :: one 'o' (rights % 8)

def takePlaces (places : Nat) : Octets → Nat × Octets
  | 'a' :: rest => takePlaces 0o111 rest
  | 'u' :: rest => takePlaces (places ||| 0o100) rest
  | 'g' :: rest => takePlaces (places ||| 0o010) rest
  | 'o' :: rest => takePlaces (places ||| 0o001) rest
  | rest => (places, rest)

def takeRights (given digit : Nat) : Octets → Nat × Octets
  | 'r' :: rest => takeRights given (digit ||| 4) rest
  | 'w' :: rest => takeRights given (digit ||| 2) rest
  | 'x' :: rest => takeRights given (digit ||| 1) rest
  | 'u' :: rest => takeRights given (digit ||| (given / 64 % 8)) rest
  | 'g' :: rest => takeRights given (digit ||| (given / 8 % 8)) rest
  | 'o' :: rest => takeRights given (digit ||| (given % 8)) rest
  | 'X' :: rest => takeRights given (if given &&& 0o111 = 0 then digit else digit ||| 1) rest
  | 's' :: rest | 't' :: rest => takeRights given digit rest
  | rest => (digit, rest)

def applyRights (operator : Char) (places digit now : Nat) : Nat :=
  let value := digit * places
  match operator with
  | '-' => now &&& (allRights ^^^ value)
  | '=' => value ||| (now &&& (allRights ^^^ (places * 7)))
  | _ => now ||| value

def readRights (given : Nat) : Nat → Nat → Nat → Octets → Option Nat
  | 0, _, _, _ => none
  | _, _, now, [] => some now
  | fuel + 1, places, now, text =>
    let (named, text) := takePlaces places text
    let places := if named = 0 then 0o111 else named
    match text with
    | [] => some now
    | operator :: text =>
      if !(['=', '+', '-'].contains operator) then none
      else
        let (digit, text) := takeRights given 0 text
        let now := applyRights operator places digit now
        match text with
        | ',' :: rest => readRights given fuel 0 now rest
        | [] => some now
        | c :: _ => if ['=', '+', '-'].contains c then readRights given fuel places now text else none

def umask : Builtin :=
  withOptions "S" fun r options words =>
    let mask := (r.process?.map (·.mask)).getD 0
    let change (mask : Nat) : Reply :=
      { r with host := r.host.update r.pid ({ · with mask := mask &&& allRights }) }
    match words with
    | [] => r.printLine (if options.isEmpty then octalText mask else rightsText (allRights ^^^ mask))
    | word :: _ =>
      if word.head?.any Char.isDigit then
        match readOctal? word with
        | some mask => change mask
        | none => r.giveUp (State.illegalNumber word)
      else
        let rights := allRights ^^^ mask
        match readRights rights (word.length + 1) 0 rights word with
        | some rights => change (allRights ^^^ rights)
        | none => r.giveUp ("Illegal mode: ".toList ++ word)

def limits : List (Char × String × String) :=
  [('t', "time(seconds)", "unlimited"), ('f', "file(blocks)", "unlimited"),
   ('d', "data(kbytes)", "unlimited"), ('s', "stack(kbytes)", "8192"),
   ('c', "coredump(blocks)", "0"), ('m', "memory(kbytes)", "unlimited"),
   ('l', "locked memory(kbytes)", "8192"), ('p', "process", "unlimited"),
   ('n', "nofiles", "1024"), ('v', "vmemory(kbytes)", "unlimited"),
   ('w', "locks", "unlimited"), ('r', "rtprio", "0")]

/-- Shows limits. To set one changes nothing. -/
def ulimit : Builtin :=
  withOptions "HSatfdscmlpnvwr" fun r options words =>
    let kind := ((options.filter fun c => c ≠ 'H' ∧ c ≠ 'S').getLast?).getD 'f'
    match words with
    | [] =>
      if kind = 'a' then
        limits.foldl (fun r (_, name, value) =>
          r.printLine
            (name.toList ++ List.replicate (20 - name.length) ' ' ++ ' ' :: value.toList)) r
      else r.printLine (((limits.lookup kind).map (·.2.toList)).getD [])
    | [word] =>
      if kind = 'a' then r.giveUp "too many arguments".toList
      else if word = "unlimited".toList || word.all Char.isDigit then r
      else r.giveUp "bad number".toList
    | _ => r.giveUp "too many arguments".toList

/-- No time is spent here that could be measured. -/
def times : Builtin := fun r _ =>
  let line := "0m0.000000s 0m0.000000s".toList
  (r.printLine line).printLine line

end LoginSession.Shell.Builtin

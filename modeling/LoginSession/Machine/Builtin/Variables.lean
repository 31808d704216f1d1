import LoginSession.Machine.Reply

namespace LoginSession.Shell.Builtin

open Host (Octets)

def listVariables (lead : Octets) (shown : Variable → Bool) (v : Variables) : Octets :=
  let sorted := Variables.sortBy (fun a b => a.1 < b.1) (v.filter fun entry => shown entry.2)
  sorted.flatMap fun (name, x) =>
    lead ++ name ++ (match x.value with
      | some value => '=' :: quoted value
      | none => []) ++ ['\n']

def splitBinding (word : Octets) : Octets × Option Octets :=
  match word.dropWhile (· ≠ '=') with
  | _ :: value => (word.takeWhile (· ≠ '='), some value)
  | [] => (word, none)

def markWord (mark : Variable → Variable) (r : Reply) (word : Octets) : Reply :=
  let (name, value) := splitBinding word
  match value, r.state.vars.lookup name with
  | none, some x => { r with state.vars := r.state.vars.put name (mark x) }
  | value, _ =>
    if isName name then r.tryState (r.state.change name value mark)
    else r.giveUp (State.badName word)

def mark (lead : String) (isMarked : Variable → Bool) (f : Variable → Variable) : Builtin :=
  withOptions "p" fun r options words =>
    if options.isEmpty && !words.isEmpty then r.forWords (markWord f) words
    else r.print (listVariables (lead.toList ++ [' ']) isMarked r.state.vars)

def exportNames : Builtin := mark "export" (·.exported) ({ · with exported := true })

def protect : Builtin := mark "readonly" (·.readOnly) ({ · with readOnly := true })

def declareLocalWord (r : Reply) (word : Octets) : Reply :=
  if word = ['-'] then
    let scopes := match r.state.scopes with
      | innermost :: rest => (.switches r.state.switches :: innermost) :: rest
      | [] => []
    { r with state.scopes := scopes }
  else
    match splitBinding word with
    | (name, some value) => r.tryState (r.state.localize name (some value) false)
    | (name, none) =>
      if isName name then r.tryState (r.state.localize name none false)
      else r.giveUp (State.badName name)

def declareLocal : Builtin := fun r words =>
  if r.state.scopes.isEmpty then r.giveUp "not in a function".toList
  else r.forWords declareLocalWord words

def unset : Builtin :=
  withOptions "vf" fun r options words =>
    if options.getLast? = some 'f' then
      { r with state.functions := r.state.functions.filter fun f => !words.contains f.1 }
    else r.forWords (fun r name => r.tryState (r.state.unset name)) words

def setArguments (s : State) (arguments : List Octets) : State :=
  { s with arguments, options := {} }

def set : Builtin := fun r words =>
  if words.isEmpty then
    r.print (listVariables [] (·.value.isSome) r.state.vars)
  else
    match SwitchWords.read false { switches := r.state.switches } words with
    | .error text => r.giveUp text
    | .ok (asked, operands) =>
      let on := asked.switches
      let on := if asked.endedBy = some ['-'] then
        (on.turn .trace false).turn .verbose false else on
      let r := if on.isOn .monitor then r.warn "can't access tty; job control turned off".toList
        else r
      let r := { r with state.switches := on.turn .monitor false }.print asked.output
      if !operands.isEmpty || asked.endedBy = some ['-', '-'] then
        { r with state := setArguments r.state operands }
      else r

def shift : Builtin := fun r words =>
  match words with
  | [] => shiftBy r 1
  | word :: _ =>
    match State.count? word with
    | some n => shiftBy r n
    | none => r.giveUp (State.illegalNumber word)
where
  shiftBy (r : Reply) (n : Nat) : Reply :=
    if r.state.arguments.length < n then r.giveUp "can't shift that many".toList
    else { r with state := setArguments r.state (r.state.arguments.drop n) }

def letterIn (letters : Octets) (c : Char) : Option Bool :=
  match letters with
  | [] => none
  | d :: rest =>
    if c = d then some (rest.head? = some ':')
    else
      match rest with
      | ':' :: rest => letterIn rest c
      | rest => letterIn rest c

/-- What one look at the arguments finds. -/
structure OptionFound where
  letter : Char := '?'
  argument : Option (Option Octets) := none
  complaint : Octets := []
  next : OptionPlace
  isEnd : Bool := false

def takeOption (letters : Octets) (arguments : List Octets) (index : Nat) (word : Octets) (c : Char)
    (rest : Octets) : OptionFound :=
  let isQuiet := letters.head? = some ':'
  let place : OptionPlace := ⟨index, some (word.length - rest.length)⟩
  let fault (silent : Char) (text : Octets) : OptionFound :=
    if isQuiet then { letter := silent, argument := some (some [c]), next := place }
    else { argument := some none, complaint := text ++ ['\n'], next := place }
  match letterIn letters c with
  | none => fault '?' ("Illegal option -".toList ++ [c])
  | some false => { letter := c, argument := some (some []), next := place }
  | some true =>
    match rest, arguments[index - 1]? with
    | [], some argument =>
      { letter := c, argument := some (some argument), next := ⟨index + 1, none⟩ }
    | [], none => fault ':' ("No arg for -".toList ++ [c] ++ " option".toList)
    | rest, _ => { letter := c, argument := some (some rest), next := ⟨index, none⟩ }

def findOption (letters : Octets) (arguments : List Octets) (place : OptionPlace) : OptionFound :=
  let ended (index : Nat) : OptionFound := { next := ⟨index, none⟩, isEnd := true }
  let begun := match place.offset with
    | some offset =>
      if 1 < place.index then
        (arguments[place.index - 2]?).bind fun word =>
          match word.drop offset with
          | [] => none
          | c :: rest => some (takeOption letters arguments place.index word c rest)
      else none
    | none => none
  match begun with
  | some found => found
  | none =>
    match arguments[place.index - 1]? with
    | some ['-', '-'] => ended (place.index + 1)
    | some ('-' :: c :: rest) =>
      takeOption letters arguments (place.index + 1) ('-' :: c :: rest) c rest
    | _ => ended place.index

def getopts : Builtin :=
  withoutOptions fun r words =>
    match words with
    | letters :: name :: given =>
      let arguments := if given.isEmpty then r.state.arguments else given
      let place := if arguments.length + 1 < r.state.options.index then {} else r.state.options
      let found := findOption letters arguments place
      let s := r.state
      let changed : Except Octets State := do
        let argument := "OPTARG".toList
        let s ← match found.argument with
          | some (some text) => s.assign argument text
          | some none => s.unset argument
          | none => .ok s
        let s ← s.assign "OPTIND".toList (Octets.ofNat found.next.index)
        let s ← s.assignChecked name [found.letter]
        return { s with options := found.next }
      ((r.say found.complaint).withStatus (if found.isEnd then 1 else 0)).tryState changed
    | _ => r.giveUp "Usage: getopts optstring var [arg...]".toList

end LoginSession.Shell.Builtin

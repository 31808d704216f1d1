import LoginSession.Machine.Reply

namespace LoginSession.Shell.Builtin

open Host (Octets)

def signalLimit : Nat := 65

/-- Signal 16 and the two below the real-time ones go by their numbers. -/
def signalName (number : Nat) : Octets :=
  if number = 0 then "EXIT".toList
  else if number = 34 then "RTMIN".toList
  else if 34 < number ∧ number < 50 then "RTMIN+".toList ++ Octets.ofNat (number - 34)
  else if 50 ≤ number ∧ number < 64 then "RTMAX-".toList ++ Octets.ofNat (64 - number)
  else if number = 64 then "RTMAX".toList
  else if number = 16 then Octets.ofNat number
  else
    match Signal.table.lookup number with
    | some (name, _) => name.toList
    | none => Octets.ofNat number

def signalDigits? (word : Octets) : Option Nat :=
  if word.all Char.isDigit && !word.isEmpty then
    let n := word.foldl (fun n c => n * 10 + (c.toNat - 0x30)) 0
    if n < signalLimit then some n else none
  else none

def signalNumber? (lowest : Nat) (word : Octets) : Option Nat :=
  match signalDigits? word with
  | some n => some n
  | none =>
    let upper := word.map Char.toUpper
    ((List.range signalLimit).drop lowest).find? fun n => (signalName n).map Char.toUpper = upper

def arrange (r : Reply) (number : Nat) (action : Option Octets) : Reply :=
  if number = 0 || r.state.ignoredBefore.contains number then r
  else
    let host := r.host.update r.pid fun p =>
      let ignored := p.ignored.filter (· ≠ number)
      let caught := p.caught.filter (· ≠ number)
      match action with
      | none => { p with ignored, caught }
      | some [] => { p with ignored := number :: ignored, caught }
      | some _ => { p with ignored, caught := number :: caught }
    { r with host }

def setTrap (action : Option Octets) (r : Reply) (number : Nat) : Reply :=
  let others := r.state.traps.filter (·.1 ≠ number)
  let traps := match action with
    | none => others
    | some action => (number, action) :: others
  { arrange r number action with state.traps := traps }

def setTraps (action : Option Octets) (r : Reply) : List Octets → Reply
  | [] => r
  | word :: rest =>
    match signalNumber? 0 word with
    | some number => setTraps action (setTrap action r number) rest
    | none =>
      (r.say ("trap: ".toList ++ word ++ ": bad trap\n".toList)).withStatus 1

def listTraps (s : State) : Octets :=
  (List.range signalLimit).flatMap fun n =>
    match s.trap? n with
    | some action => "trap -- ".toList ++ quoted action ++ ' ' :: signalName n ++ ['\n']
    | none => []

def trap : Builtin :=
  withoutOptions fun r words =>
    match words with
    | [] => r.print (listTraps r.state)
    | [word] => setTraps none r [word]
    | action :: rest =>
      if (signalDigits? action).isSome then setTraps none r (action :: rest)
      else setTraps (if action = ['-'] then none else some action) r rest

def target (r : Reply) (word : Octets) : Except Octets Int :=
  match word with
  | '%' :: _ =>
    match r.state.jobs.find (some word) with
    | .ok (_, job) => .ok (-(((job.processes.head?.map (·.1)).getD 0 : Nat) : Int))
    | .error fault => .error fault
  | '-' :: digits =>
    match State.count? digits with
    | some n => .ok (-(n : Int))
    | none => .error (State.illegalNumber digits)
  | digits =>
    match State.count? digits with
    | some n => .ok n
    | none => .error (State.illegalNumber digits)

def sendTo (signal : Option Signal) (r : Reply) (word : Octets) : Reply :=
  match target r word with
  | .error fault => r.giveUp fault
  | .ok target =>
    match r.host.kill r.pid target signal with
    | .ok host => { r with host }
    | .error e => (r.warn (e.text.toList ++ ['\n'])).withStatus 1

def killUsage : Octets :=
  ("Usage: kill [-s sigspec | -signum | -sigspec] [pid | job]... or\n" ++
    "kill -l [exitstatus]").toList

def listSignals (r : Reply) (words : List Octets) : Reply :=
  match words with
  | [] =>
    let names := (List.range signalLimit).drop 1 |>.flatMap fun n => signalName n ++ ['\n']
    r.print ("0\n".toList ++ names)
  | word :: _ =>
    match State.count? word with
    | none => r.giveUp (State.illegalNumber word)
    | some n =>
      let number := if 128 < n then n - 128 else n
      if 0 < number ∧ number < signalLimit then r.printLine (signalName number)
      else r.giveUp ("invalid signal number or exit status: ".toList ++ word)

def send (r : Reply) (number : Nat) (words : List Octets) : Reply :=
  if words.isEmpty then r.giveUp killUsage
  else r.forWords (sendTo (if number = 0 then none else some ⟨number⟩)) words

def killOptions : List (Char × Octets) → Bool → Option Nat → Except Octets (Bool × Option Nat)
  | [], listing, number => .ok (listing, number)
  | ('l', _) :: rest, _, number => killOptions rest true number
  | (_, word) :: rest, listing, _ =>
    match signalNumber? 1 word with
    | some n => killOptions rest listing (some n)
    | none => .error ("invalid signal number or name: ".toList ++ word)

def kill : Builtin := fun r words =>
  match words with
  | [] => r.giveUp killUsage
  | ('-' :: name) :: rest =>
    match signalNumber? 1 name with
    | some number => send r number rest
    | none =>
      match readOptions ['l'] ['s'] [] words with
      | .error fault => r.giveUp fault
      | .ok (options, operands) =>
        match killOptions options false none with
        | .error fault => r.giveUp fault
        | .ok (true, none) => listSignals r operands
        | .ok (true, some _) =>
          if operands.isEmpty then listSignals r operands else r.giveUp killUsage
        | .ok (false, number) => send r (number.getD 15) operands
  | words => send r 15 words

end LoginSession.Shell.Builtin

import LoginSession.Machine.Redirect

namespace LoginSession.Shell

open Host (Octets)

structure Reply where
  host : Host
  pid : Nat
  state : State
  tested : Bool := false
  output : Octets := []
  complaints : Octets := []
  status : Nat := 0
  frames : List Frame := []
  /-- The command has been given up, which ends the shell if the command is a special one. -/
  isGivenUp : Bool := false

namespace Reply

def process? (r : Reply) : Option Host.Process := r.host.process? r.pid

def cwd (r : Reply) : Host.Path := (r.process?.map (·.cwd)).getD []

def view (r : Reply) : Host.Files.View :=
  match r.process? with
  | some p => r.host.viewOf p
  | none => r.host.files.viewFrom []

def print (r : Reply) (text : Octets) : Reply := { r with output := r.output ++ text }

def printLine (r : Reply) (text : Octets) : Reply := r.print (text ++ ['\n'])

def say (r : Reply) (text : Octets) : Reply := { r with complaints := r.complaints ++ text }

def warn (r : Reply) (text : Octets) : Reply := r.say (r.state.diagnosis text)

def withStatus (r : Reply) (status : Nat) : Reply := { r with status }

def giveUp (r : Reply) (text : Octets) : Reply :=
  { r.warn text with status := 2, isGivenUp := true }

def tryState (r : Reply) (next : Except Octets State) : Reply :=
  match next with
  | .ok state => { r with state }
  | .error text => r.giveUp text

def forWords (r : Reply) (act : Reply → Octets → Reply) (words : List Octets) : Reply :=
  words.foldl (fun r word => if r.isGivenUp then r else act r word) r

end Reply

abbrev Builtin := Reply → List Octets → Reply

/-- Options before the operands, in the order in which they were given; those of `takers` have an
argument. -/
def readOptions (letters takers : List Char) (found : List (Char × Octets)) :
    List Octets → Except Octets (List (Char × Octets) × List Octets)
  | [] => .ok (found.reverse, [])
  | ['-', '-'] :: rest => .ok (found.reverse, rest)
  | ('-' :: c :: word) :: rest => inWord c word rest
  | words => .ok (found.reverse, words)
where
  inWord (c : Char) (word : Octets) (rest : List Octets) :
      Except Octets (List (Char × Octets) × List Octets) :=
    match single found c word with
    | .error text => .error text
    | .ok (found, true) =>
      match rest with
      | [] => .error ("No arg for -".toList ++ [(found.headD ('?', [])).1] ++ " option".toList)
      | argument :: rest =>
        match found with
        | (taker, _) :: found => readOptions letters takers ((taker, argument) :: found) rest
        | [] => .ok ([], rest)
    | .ok (found, false) => readOptions letters takers found rest
  single (found : List (Char × Octets)) (c : Char) (word : Octets) :
      Except Octets (List (Char × Octets) × Bool) :=
    if takers.contains c then
      if word.isEmpty then .ok ((c, []) :: found, true) else .ok ((c, word) :: found, false)
    else if letters.contains c then
      match word with
      | [] => .ok ((c, []) :: found, false)
      | d :: word => single ((c, []) :: found) d word
    else .error ("Illegal option -".toList ++ [c])

def withOptions (letters : String) (run : Reply → List Char → List Octets → Reply) : Builtin :=
  fun r words =>
    match readOptions letters.toList [] [] words with
    | .error text => r.giveUp text
    | .ok (options, operands) => run r (options.map (·.1)) operands

def withoutOptions (run : Reply → List Octets → Reply) : Builtin :=
  withOptions "" fun r _ operands => run r operands

end LoginSession.Shell

import LoginSession.Machine.Builtin.Jobs

namespace LoginSession.Shell

open Host (Octets Descriptors Handle Path)

structure Turn where
  host : Host
  pid : Nat
  state : State
  replaced : Bool := false

namespace Turn

def process? (t : Turn) : Option Host.Process := t.host.process? t.pid

def descriptors (t : Turn) : Descriptors := (t.process?.map (·.descriptors)).getD []

def cwd (t : Turn) : Path := (t.process?.map (·.cwd)).getD []

def pending (t : Turn) : List Nat := (t.process?.map (·.pending)).getD []

def done (t : Turn) : Host :=
  match t.process? with
  | some p => if p.isEnded || t.replaced then t.host else t.host.setImage t.pid (.shell t.state)
  | none => t.host

def push (t : Turn) (frames : List Frame) : Turn := { t with state := t.state.push frames }

def setStatus (t : Turn) (status : Nat) : Turn := { t with state.status := status }

def setDescriptors (t : Turn) (descriptors : Descriptors) : Turn :=
  { t with host := t.host.update t.pid ({ · with descriptors }) }

def complaint (t : Turn) (text : Octets) : Frame :=
  .emit 2 (Octets.toBytes (t.state.diagnosis text)) []

def complain (t : Turn) (text : Octets) : Turn := t.push [t.complaint text]

def fail (t : Turn) (text : Octets) : Turn :=
  (t.setStatus 2).push [t.complaint text, .exit .fault]

def failAt (t : Turn) (line : Nat) (text : Octets) : Turn :=
  { t with state.line := line }.fail ("Syntax error: ".toList ++ text)

def childState (s : State) (frames : List Frame) : State :=
  { s with
    traps := s.traps.filter (·.2 = [])
    jobs := {}
    answers := []
    stack := frames }

def fork (t : Turn) (state : State) (descriptors : Descriptors) : Turn × Nat :=
  let (host, child) := t.host.fork t.pid (.shell state)
  ({ t with
      host := host.update child ({ · with descriptors })
      state.jobs := t.state.jobs.claim.1 }, child)

def forkAndWait (t : Turn) (frames : List Frame) : Turn :=
  let (t, child) := t.fork (childState t.state frames) t.descriptors
  t.push [.await [(child, none)]]

/-- Signals from a terminal are not meant for background processes. -/
def background (t : Turn) (state : State) (descriptors : Descriptors) : Turn × Nat :=
  let shielded := [Signal.interrupt.number, Signal.quit.number]
  let state := { state with ignoredBefore := shielded ++ state.ignoredBefore }
  let (t, child) := t.fork state descriptors
  ({ t with host := t.host.update child fun p => { p with ignored := shielded ++ p.ignored } },
    child)

def addJob (t : Turn) (processes : List Nat) : Turn :=
  { t with
    state := { t.state with
      jobs := t.state.jobs.add { processes := processes.map fun n => (n, none) }
      lastBackground := processes.getLast?
      status := 0 } }

def collectSince (t : Turn) (age : Nat) : Turn × List (Nat × Exit) :=
  let (host, ended) := t.host.reapChildren t.pid age
  let jobs := ended.foldl (fun jobs (process, how) => jobs.note process how) t.state.jobs
  ({ t with host, state.jobs := jobs }, ended)

def collect (t : Turn) : Turn × List (Nat × Exit) := t.collectSince 0

def noteEnd (processes : List (Nat × Option Exit)) (ended : Nat × Exit) :
    List (Nat × Option Exit) :=
  processes.map fun (n, how) => if n = ended.1 then (n, some ended.2) else (n, how)

def deaths (processes : List (Nat × Option Exit)) (ended : List (Nat × Exit)) : List Frame :=
  ended.filterMap fun (n, how) =>
    let text := deathText how
    if text.isEmpty || !processes.any (·.1 = n) then none
    else some (.emit 2 (Octets.toBytes text) [])

def await (t : Turn) (processes : List (Nat × Option Exit)) : Turn × Bool :=
  let (t, ended) := t.collect
  let announced := deaths processes ended
  let processes := ended.foldl noteEnd processes
  if processes.all (·.2.isSome) then
    let job : Job := { processes }
    ((t.setStatus job.status).push announced, true)
  else (t.push (announced ++ [.await processes]), !ended.isEmpty)

def homeOf (files : Host.Files) (user : Octets) : Option Octets :=
  let list := Octets.ofBytes ((files.content? (Host.namesOf ["etc", "passwd"])).getD [])
  let entries := (Text.lines list).map (Text.pieces ':')
  (entries.find? fun entry => entry.head? = some user).bind fun entry => entry[5]?

def substituteNumber (pipe : Nat) : Nat := 1000000 + pipe

def substitute (t : Turn) (body : Command) (state : State) (retry : Frame) : Turn :=
  let (host, pipe) := t.host.makePipe false
  let t := { t with host }
  let child := childState state [.evaluate body false true]
  let (t, child) := t.fork child (t.descriptors.put 1 (.writer pipe))
  let t := t.setDescriptors (t.descriptors.put (substituteNumber pipe) (.reader pipe))
  t.push [.substitute pipe child [] retry]

/-- Expands something and goes on with the result. If a command has to answer first, everything is
done again later from `retry` on. -/
def expanding {α : Type} (t : Turn) (retry : Frame) (expand : Expanding α)
    (next : Turn → α → Turn) : Turn :=
  let forget (t : Turn) : Turn := { t with state.answers := [] }
  match (expand.run (homeOf t.host.files)).run ⟨t.state, t.state.answers⟩ with
  | .ok (a, after) => next (forget { t with state := after.state }) a
  | .error (.fault text) => (forget t).fail text
  | .error (.wrongScript text) => (forget t).failAt t.state.readLine text
  | .error (.pending body state) => t.substitute body state retry

def outputText (bytes : List UInt8) : Octets :=
  let text := (Octets.ofBytes bytes).filter (· ≠ '\x00')
  (text.reverse.dropWhile (· = '\n')).reverse

def takeOutput (t : Turn) (pipe child : Nat) (taken : List (List UInt8)) (retry : Frame) :
    Turn × Bool :=
  match t.host.read (.reader pipe) Host.Pipe.capacity with
  | (host, .bytes bytes) =>
    ({ t with host }.push [.substitute pipe child (bytes :: taken) retry], true)
  | (_, .blocked) => (t, false)
  | (_, _) =>
    let t := t.setDescriptors (t.descriptors.close (substituteNumber pipe))
    (t.push [.collect (child, none) (outputText taken.reverse.flatten) retry], true)

def takeAnswer (t : Turn) (child : Nat × Option Exit) (output : Octets) (retry : Frame) :
    Turn × Bool :=
  let (t, ended) := t.collect
  let announced := deaths [child] ended
  match (ended.foldl noteEnd [child]).head?.bind (·.2) with
  | some how =>
    let state := { t.state with
      substitutionStatus := how.code.toNat
      answers := t.state.answers ++ [output] }
    ({ t with state }.push (announced ++ [retry]), true)
  | none => (t.push (announced ++ [.collect child output retry]), !ended.isEmpty)

def catches : Frame → Bool
  | .finishBuiltin catches => catches
  | _ => false

def isEndOfShell : Frame → Bool
  | .endExit => true
  | _ => false

/-- Gives one thing up that remained to be done, but not what would have been undone after it. -/
def abandon (t : Turn) : Frame → Turn
  | .restoreDescriptors saved => t.setDescriptors (restoreAll t.descriptors saved)
  | .leaveFunction arguments options loops =>
    { t with state := { t.state with arguments, options, loops } }
  | .leaveScript (some n) => t.setDescriptors (t.descriptors.close n)
  | .restoreCommandName commandName => { t with state.commandName := commandName }
  | _ => t

def terminate (t : Turn) : Turn :=
  { t with host := t.host.finish t.pid (.exited (t.state.status % 256 : Nat)) }

/-- Ends the shell. An action that is set for its end comes first; what ends the shell while that is
carried out ends it at once. -/
def endShell (t : Turn) (why : Ending) : Turn :=
  let isEnding := t.state.stack.any isEndOfShell
  let t := t.state.stack.foldl abandon t
  let s := t.state
  let status := if why = .request then s.savedStatus.getD s.status else s.status
  let t := { t with
    state := { s with status, stack := [], savedStatus := none, skip := none, loops := 0 } }
  match s.trap? 0, isEnding with
  | some (c :: action), false =>
    let state := { t.state with
      traps := s.traps.filter (·.1 ≠ 0)
      savedStatus := some status }
    { t with state }.push
      [.script .text { rest := c :: action } false false false, .endExit]
  | _, _ => t.terminate

/-- Gives up what is being done up to the builtin command that catches the fault, or the shell. -/
def raise (t : Turn) : Turn :=
  let stack := t.state.stack
  if stack.any catches then
    let undo (t : Turn) (frame : Frame) : Turn :=
      match frame with
      | .leaveScope => { t with state := t.state.leaveScope }
      | frame => t.abandon frame
    let t := (stack.takeWhile (!catches ·)).foldl undo t
    { t with state.stack := stack.dropWhile (!catches ·) }
  else t.endShell .fault

def runTrap (t : Turn) (number : Nat) : Turn :=
  let host := t.host.update t.pid fun p => { p with pending := p.pending.filter (· ≠ number) }
  let t := { t with host }
  match t.state.trap? number with
  | some action =>
    let saved := t.state.savedStatus
    let status := saved.getD t.state.status
    { t with state.savedStatus := some status }.push
      [.script .text { rest := action } false false false, .endTrap status saved]
  | none => t

/-- The action of a signal leaves the status alone, unless it has returned with one. -/
def endTrap (t : Turn) (status : Nat) (saved : Option Nat) : Turn :=
  let t := { t with state.savedStatus := saved }
  if t.state.skip = some (.return true) then t else t.setStatus status

end Turn

end LoginSession.Shell

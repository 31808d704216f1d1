import LoginSession.Host.Loading

namespace LoginSession.Utility

open Host (Octets Handle Node)

structure Turn where
  host : Host
  pid : Nat
  process : Host.Process
  program : Program

namespace Turn

def resume (t : Turn) (tasks : List Task) : Host × Bool :=
  (t.host.setImage t.pid (.utility { t.program with tasks }), true)

def wait (t : Turn) : Host × Bool := (t.host, false)

def exit (t : Turn) (status : Nat) : Host × Bool :=
  (t.host.finish t.pid (.exited (status % 256 : Nat)), true)

def say (t : Turn) (text : Octets) : Task := Program.say t.program.name text

def failWith (t : Turn) (text : Octets) (e : Errno) (status : Nat) : Host × Bool :=
  t.resume [t.say (text ++ ": ".toList ++ e.text.toList), .exit status]

def emit (t : Turn) (descriptor : Nat) (bytes : List UInt8) (rest : List Task) : Host × Bool :=
  let refused (e : Errno) : Host × Bool :=
    if descriptor = 2 then t.resume rest
    else t.failWith "write error".toList e t.program.writeStatus
  if bytes.isEmpty then t.resume rest
  else
    match t.process.descriptors.get? descriptor with
    | none => refused .badDescriptor
    | some handle =>
      match t.host.write handle bytes with
      | (host, .wrote n) =>
        let left := bytes.drop n
        { t with host }.resume (if left.isEmpty then rest else .emit descriptor left :: rest)
      | (_, .blocked) => t.wait
      | (_, .brokenPipe) =>
        if t.process.ignored.contains Signal.pipe.number then refused .brokenPipe
        else (t.host.deliver t.pid .pipe, true)
      | (_, .fault e) => refused e

/-- So many terms are written at once. -/
def termsAtOnce : Nat := 500

def count (t : Turn) (separator : Octets) (course : Sequence.Course) (rest : List Task) :
    Host × Bool :=
  let (text, more) := Sequence.run separator termsAtOnce [] (some course)
  match more with
  | some course => t.resume (Program.print text :: .count separator course :: rest)
  | none => t.resume (Program.print text :: rest)

/-- Gives bytes back that have been read in vain, which only a file can take. -/
def giveBack (t : Turn) (handle : Option Handle) (surplus : Nat) : Turn :=
  match handle with
  | some (.opened entry) =>
    match t.host.opened.lookup entry with
    | some f => { t with host := t.host.setOffset entry (f.offset - surplus) }
    | none => t
  | _ => t

def advance (t : Turn) (s : Stream) (fed : Fed) : Host × Bool :=
  let t := if fed.surplus = 0 then t else t.giveBack (s.current.map (·.2)) fed.surplus
  let remark := match fed.remark with
    | some text => [t.say text]
    | none => []
  t.resume (.emit 1 fed.output :: remark ++ [.pump { s with filter := fed.filter }])

def finishStream (t : Turn) (s : Stream) : Host × Bool :=
  let last := match s.lostInput, s.filter.lastComplaint? with
    | true, some text => [t.say text]
    | _, _ => []
  t.resume (last ++ [.exit (s.filter.status s.failed)])

def complain (t : Turn) (s : Stream) (input : Input) (trouble : Trouble) (e : Errno) : List Task :=
  let s := { s with current := none, failed := true }
  match s.filter.complaint? input trouble e with
  | some text => [t.say text, .pump s]
  | none => [.pump s]

def placeOf? (h : Host) (handle : Handle) : Option (Host.Path × Nat) :=
  match handle with
  | .opened entry => (h.opened.lookup entry).map fun f => (f.path, f.offset)
  | _ => none

def sizeOf? (h : Host) (handle : Handle) : Option Nat :=
  match h.handleNode? handle with
  | some (.file content) => some content.length
  | _ => none

def refusal? (t : Turn) (s : Stream) (input : Input) (handle : Handle) : Option Octets :=
  match placeOf? t.host handle, (t.process.descriptors.get? 1).bind (placeOf? t.host),
      sizeOf? t.host handle with
  | some (path, position), some (written, _), some size =>
    if path = written then s.filter.refuses? input position size else none
  | _, _, _ => none

def begin (t : Turn) (s : Stream) (input : Input) (handle : Handle) : Host × Bool :=
  match t.refusal? s input handle with
  | some text => t.resume [t.say text, .pump { s with failed := true }]
  | none =>
    t.advance { s with current := some (input, handle) }
      (s.filter.start input (sizeOf? t.host handle))

def children (t : Turn) (path : Octets) : List Input :=
  match t.host.files.resolve t.process.cwd (if path.isEmpty then ['.'] else path) with
  | .ok (place, some .directory) =>
    let start := if path.isEmpty || path.getLast? = some '/' then path else path ++ ['/']
    (t.host.files.names place).map fun name => .file (start ++ name)
  | _ => []

def openFile (t : Turn) (s : Stream) (name : Octets) : Host × Bool :=
  let input := Input.file name
  match t.host.openFile t.process name .read with
  | .ok (_, .directory) =>
    if s.filter.isRecursive then t.resume [.pump { s with inputs := .tree name :: s.inputs }]
    else if s.filter.skipsDirectories then t.resume [.pump s]
    else t.begin s input .directory
  | .ok (host, handle) => { t with host }.begin s input handle
  | .error e => t.resume (t.complain s input .opening e)

/-- A standard input that is closed has its title printed before that is found out. -/
def openStandard (t : Turn) (s : Stream) : Host × Bool :=
  match t.process.descriptors.get? 0 with
  | some handle => t.begin s .standard handle
  | none =>
    let fed := s.filter.start .standard none
    let s := { s with filter := fed.filter, lostInput := true }
    t.resume (.emit 1 fed.output :: t.complain s .standard .opening .badDescriptor)

def openNext (t : Turn) (s : Stream) : Host × Bool :=
  match s.inputs with
  | [] => t.finishStream s
  | input :: inputs =>
    let s := { s with inputs }
    match input with
    | .standard => t.openStandard s
    | .file name => t.openFile s name
    | .tree path => t.resume [.pump { s with inputs := t.children path ++ inputs }]

def endInput (t : Turn) (s : Stream) : Host × Bool :=
  let fed := s.filter.endInput
  let t := t.giveBack (s.current.map (·.2)) fed.surplus
  t.advance { s with current := none } fed

def pump (t : Turn) (s : Stream) : Host × Bool :=
  match s.current with
  | none => if s.filter.isDone then t.finishStream s else t.openNext s
  | some (input, handle) =>
    if s.filter.isInputDone then t.endInput s
    else
      match t.host.read handle s.filter.readLimit with
      | (host, .bytes bytes) => { t with host }.advance s (s.filter.feed bytes)
      | (_, .finished) => t.endInput s
      | (_, .blocked) => t.wait
      | (_, .fault e) => t.resume (t.complain s input .reading e)

def gather (t : Turn) (taken : List (List UInt8)) (next : List UInt8 → List Task) : Host × Bool :=
  let done : Host × Bool := t.resume (next taken.reverse.flatten)
  match t.process.descriptors.get? 0 with
  | none => done
  | some handle =>
    match t.host.read handle Host.Pipe.capacity with
    | (host, .bytes bytes) => { t with host }.resume [.gather (bytes :: taken) next]
    | (_, .blocked) => t.wait
    | (_, _) => done

def enter (t : Turn) (directory : Octets) (rest : List Task) : Host × Bool :=
  let refused (e : Errno) : Host × Bool :=
    let text := "cannot change directory to ".toList ++ Quoting.word directory
    t.failWith text e t.program.writeStatus
  match t.host.files.resolve t.process.cwd directory with
  | .error e => refused e
  | .ok (path, some .directory) =>
    { t with host := t.host.update t.pid ({ · with cwd := path }) }.resume rest
  | .ok (_, some _) => refused .notDirectory
  | .ok (_, none) => refused .noEntry

def setSignals (t : Turn) (ignored restored : List Nat) (rest : List Task) : Host × Bool :=
  let host := t.host.update t.pid fun p =>
    { p with ignored := ignored ++ p.ignored.filter (!restored.contains ·) }
  { t with host }.resume rest

/-- A name that is not found may be the first line of a script that has been misread. -/
def become (t : Turn) (words : List Octets) (environment : Host.Environment) : Host × Bool :=
  match t.host.load t.pid environment (environment.lookup "PATH".toList) words with
  | .ok host => (host, true)
  | .error e =>
    let name := words.headD []
    let complaint := t.say (Quoting.phrase name ++ ": ".toList ++ e.text.toList)
    let hint := if e = .noEntry && name.contains ' ' then [t.say Env.shebangHint] else []
    t.resume (complaint :: hint ++ [.exit (if e = .noEntry then 127 else 126)])

def step (t : Turn) : Host × Bool :=
  match t.program.tasks with
  | [] => t.exit 0
  | task :: rest =>
    match task with
    | .emit descriptor bytes => t.emit descriptor bytes rest
    | .sleep time => t.resume (.sleepUntil (t.host.clock + time) :: rest)
    | .sleepUntil time => if time ≤ t.host.clock then t.resume rest else t.wait
    | .sleepForever => t.wait
    | .pump s => t.pump s
    | .gather taken next => t.gather taken next
    | .count separator course => t.count separator course rest
    | .needOutput =>
      if (t.process.descriptors.get? 1).isSome then t.resume rest
      else t.failWith "standard output".toList .badDescriptor 1
    | .enter directory => t.enter directory rest
    | .setSignals ignored restored => t.setSignals ignored restored rest
    | .become words environment => t.become words environment
    | .exit status => t.exit status

end Turn

end LoginSession.Utility

import LoginSession.Host.Files
import LoginSession.Shell.State
import LoginSession.Utility.Program

namespace LoginSession.Host

structure OpenFile where
  path : Path
  offset : Nat := 0
  append : Bool := false
  deriving DecidableEq, Repr

/-- `held` says that the owner of the machine has the reading end rather than a process. -/
structure Pipe where
  content : List UInt8 := []
  held : Bool := false
  deriving DecidableEq, Repr

def Pipe.capacity : Nat := 65536

/-- A write of at most so many bytes happens as a whole or not at all. -/
def Pipe.atomic : Nat := 4096

inductive Image where
  | shell (s : Shell.State)
  | utility (u : Utility.Program)
  | ended (how : Exit)
  | owner

/-- `caught` signals wait in `pending` until the program looks at them. -/
structure Process where
  parent : Nat
  group : Nat
  descriptors : Descriptors
  cwd : Path
  environment : Environment
  mask : Nat := 0o22
  ignored : List Nat := []
  caught : List Nat := []
  pending : List Nat := []
  stopped : Bool := false
  endedAt : Nat := 0
  image : Image

namespace Process

def isEnded (p : Process) : Bool :=
  match p.image with
  | .ended _ => true
  | _ => false

def refersTo (p : Process) (h : Handle) : Bool := p.descriptors.any (·.2 = h)

end Process

end Host

open Host in
/-- `number` is the next unused number for a process, a pipe or an open file; `clock` counts
microseconds. -/
structure Host where
  files : Files
  opened : List (Nat × OpenFile) := []
  pipes : List (Nat × Pipe) := []
  processes : List (Nat × Process) := []
  number : Nat := 100
  clock : Nat := 0

namespace Host

/-- The process that adopts those whose parent has ended, and asks at once how they end. -/
def adopter : Nat := 1

def process? (h : Host) (pid : Nat) : Option Process := h.processes.lookup pid

def updateIn (pid : Nat) (f : Process → Process) : List (Nat × Process) → List (Nat × Process)
  | [] => []
  | (n, p) :: rest => if n = pid then (n, f p) :: rest else (n, p) :: updateIn pid f rest

def update (h : Host) (pid : Nat) (f : Process → Process) : Host :=
  { h with processes := updateIn pid f h.processes }

def setImage (h : Host) (pid : Nat) (image : Image) : Host := h.update pid ({ · with image })

def add (h : Host) (p : Process) : Host × Nat :=
  ({ h with processes := h.processes ++ [(h.number, p)], number := h.number + 1 }, h.number)

def makePipe (h : Host) (held : Bool) : Host × Nat :=
  ({ h with pipes := (h.number, { held }) :: h.pipes, number := h.number + 1 }, h.number)

def setPipe (h : Host) (n : Nat) (p : Pipe) : Host :=
  { h with pipes := h.pipes.map fun (m, q) => if m = n then (m, p) else (m, q) }

def dropPipe (h : Host) (n : Nat) : Host :=
  { h with
    pipes := h.pipes.map fun (m, q) => if m = n then (m, { q with held := false }) else (m, q) }

def hasWriter (h : Host) (pipe : Nat) : Bool :=
  h.processes.any fun (_, p) => p.refersTo (.writer pipe)

def hasReader (h : Host) (pipe : Nat) : Bool :=
  h.processes.any (fun (_, p) => p.refersTo (.reader pipe)) ||
    ((h.pipes.lookup pipe).map (·.held)).getD false

inductive Access where
  | read
  | write
  | append
  | readWrite
  deriving DecidableEq

def openEntry (h : Host) (path : Path) (append : Bool) : Host × Handle :=
  ({ h with opened := (h.number, { path, append }) :: h.opened, number := h.number + 1 },
   .opened h.number)

def putFile (h : Host) (path : Path) (content : List UInt8) : Host :=
  { h with files := (h.files.put path (.file content)).touch path h.clock }

def descriptorNamed? (cwd : Path) (name : Octets) : Option Nat :=
  let parts := Files.components name
  let number? (digits : Octets) : Option Nat :=
    if digits.all Char.isDigit then (String.ofList digits).toNat? else none
  match (if Files.isAbsolute name then parts else cwd ++ parts).map String.ofList with
  | ["dev", "stdin"] => some 0
  | ["dev", "stdout"] => some 1
  | ["dev", "stderr"] => some 2
  | ["dev", "fd", n] | ["proc", "self", "fd", n] => number? n.toList
  | _ => none

def openNode (h : Host) (path : Path) (node : Option Node) (access : Access) :
    Except Errno (Host × Handle) :=
  match node, access with
  | none, .read => .error .noEntry
  | none, _ => .ok ((h.putFile path []).openEntry path (access = Access.append))
  | some .directory, .read => .ok (h, .directory)
  | some .directory, _ => .error .isDirectory
  | some .null, _ | some .pipe, _ | some (.link _), _ => .ok (h, .null)
  | some .zero, _ => .ok (h, .zero)
  | some .full, _ => .ok (h, .full)
  | some .terminal, _ => .error .noDevice
  | some (.program _), .read => .ok (h, .null)
  | some (.program _), _ => .error .accessDenied
  | some (.file _), .write => .ok ((h.putFile path []).openEntry path false)
  | some (.file _), _ => .ok (h.openEntry path (access = Access.append))

def reopen (h : Host) (handle : Handle) (access : Access) : Except Errno (Host × Handle) :=
  match handle with
  | .opened entry =>
    match h.opened.lookup entry with
    | some f => h.openNode f.path (h.files.node? f.path) access
    | none => .error .noEntry
  | .reader pipe | .writer pipe =>
    .ok (h, if access = .read then .reader pipe else .writer pipe)
  | .directory => if access = .read then .ok (h, .directory) else .error .isDirectory
  | handle => .ok (h, handle)

def openFile (h : Host) (p : Process) (name : Octets) (access : Access) :
    Except Errno (Host × Handle) := do
  match descriptorNamed? p.cwd name with
  | some n =>
    match p.descriptors.get? n with
    | some handle => h.reopen handle access
    | none => .error .noEntry
  | none =>
    let (path, node) ←
      if access = .read then h.files.resolve p.cwd name else h.files.resolveNew p.cwd name
    h.openNode path node access

def handleNode? (h : Host) : Handle → Option Node
  | .null => some .null
  | .zero => some .zero
  | .full => some .full
  | .directory => some .directory
  | .reader _ | .writer _ => some .pipe
  | .opened entry => (h.opened.lookup entry).bind fun f => h.files.node? f.path

def viewOf (h : Host) (p : Process) : Files.View :=
  let plain := h.files.viewFrom p.cwd
  { plain with
    node? := fun name =>
      match descriptorNamed? p.cwd name with
      | some n => (p.descriptors.get? n).bind h.handleNode?
      | none => plain.node? name
    isLink := fun name => (descriptorNamed? p.cwd name).isSome || plain.isLink name }

inductive ReadResult where
  | bytes (bytes : List UInt8)
  | finished
  | blocked
  | fault (e : Errno)

def setOffset (h : Host) (entry : Nat) (offset : Nat) : Host :=
  { h with
    opened := h.opened.map fun (n, f) => if n = entry then (n, { f with offset }) else (n, f) }

def read (h : Host) (handle : Handle) (limit : Nat) : Host × ReadResult :=
  match handle with
  | .null => (h, .finished)
  | .zero | .full => (h, .bytes (List.replicate limit 0))
  | .directory => (h, .fault .isDirectory)
  | .writer _ => (h, .fault .badDescriptor)
  | .opened entry =>
    match h.opened.lookup entry with
    | none => (h, .fault .badDescriptor)
    | some f =>
      match ((h.files.content? f.path).getD []).drop f.offset |>.take limit with
      | [] => (h, .finished)
      | bytes => (h.setOffset entry (f.offset + bytes.length), .bytes bytes)
  | .reader pipe =>
    match h.pipes.lookup pipe with
    | none => (h, .finished)
    | some p =>
      match p.content.take limit with
      | [] => (h, if h.hasWriter pipe then .blocked else .finished)
      | bytes => (h.setPipe pipe { p with content := p.content.drop limit }, .bytes bytes)

inductive WriteResult where
  | wrote (count : Nat)
  | blocked
  | brokenPipe
  | fault (e : Errno)

def overwrite (content : List UInt8) (offset : Nat) (bytes : List UInt8) : List UInt8 :=
  content.take offset ++ List.replicate (offset - content.length) 0 ++ bytes ++
    content.drop (offset + bytes.length)

def write (h : Host) (handle : Handle) (bytes : List UInt8) : Host × WriteResult :=
  match handle with
  | .null | .zero => (h, .wrote bytes.length)
  | .full => (h, .fault .noSpace)
  | .directory | .reader _ => (h, .fault .badDescriptor)
  | .opened entry =>
    match h.opened.lookup entry with
    | none => (h, .fault .badDescriptor)
    | some f =>
      let content := (h.files.content? f.path).getD []
      let offset := if f.append then content.length else f.offset
      let h := h.putFile f.path (overwrite content offset bytes)
      (h.setOffset entry (offset + bytes.length), .wrote bytes.length)
  | .writer pipe =>
    match h.pipes.lookup pipe with
    | none => (h, .fault .badDescriptor)
    | some p =>
      if !h.hasReader pipe then (h, .brokenPipe)
      else
        let room := Pipe.capacity - p.content.length
        if room = 0 ∨ (bytes.length ≤ Pipe.atomic ∧ room < bytes.length) then (h, .blocked)
        else
          let part := bytes.take room
          (h.setPipe pipe { p with content := p.content ++ part }, .wrote part.length)

def fork (h : Host) (pid : Nat) (image : Image) : Host × Nat :=
  match h.process? pid with
  | none => (h, 0)
  | some p => h.add { p with parent := pid, caught := [], pending := [], image }

def Process.catching (p : Process) (number : Nat) : Process :=
  if p.caught.contains number && !p.pending.contains number then
    { p with pending := p.pending ++ [number] }
  else p

/-- Ends a process. Its children are adopted; the adopter's own ended children go at once. Its
parent is told, if it wants to know. -/
def finish (h : Host) (pid : Nat) (how : Exit) : Host :=
  let parent := ((h.process? pid).map (·.parent)).getD adopter
  let processes := h.processes.filterMap fun (n, p) =>
    if n = pid then
      if p.parent = adopter then none
      else
        let p := { p with endedAt := h.clock, descriptors := [], pending := [] }
        some (n, { p with image := .ended how })
    else if p.parent = pid then
      if p.isEnded then none else some (n, { p with parent := adopter })
    else if n = parent then some (n, p.catching Signal.child.number)
    else some (n, p)
  { h with processes }

/-- News of a child's end takes so many microseconds to those who do not wait for it. -/
def latency : Nat := 100

def reap? (h : Host) (pid : Nat) : Option (Host × Exit) :=
  match h.process? pid with
  | some { image := .ended how, .. } =>
    some ({ h with processes := h.processes.filter (·.1 ≠ pid) }, how)
  | _ => none

def reapChildren (h : Host) (parent age : Nat) : Host × List (Nat × Exit) :=
  let ended := h.processes.filterMap fun (n, p) =>
    match p.image with
    | .ended how =>
      if p.parent = parent ∧ p.endedAt + age ≤ h.clock then some (n, how) else none
    | _ => none
  if ended.isEmpty then (h, [])
  else
    ({ h with processes := h.processes.filter fun (n, _) => (ended.lookup n).isNone }, ended)

def deliver (h : Host) (pid : Nat) (s : Signal) : Host :=
  match h.process? pid with
  | none => h
  | some p =>
    if p.isEnded then h
    else
      let h := if s = .resume then h.update pid ({ · with stopped := false }) else h
      if p.ignored.contains s.number && !s.isUnstoppable then h
      else if p.caught.contains s.number && !s.isUnstoppable then
        h.update pid (·.catching s.number)
      else
        match s.disposition with
        | .terminate => h.finish pid (.signaled s.number)
        | .stop => h.update pid ({ · with stopped := true })
        | .resume | .ignore => h

def targets (h : Host) (sender : Nat) (target : Int) : List Nat :=
  match target with
  | .ofNat 0 =>
    match h.process? sender with
    | none => []
    | some p => (h.processes.filter (·.2.group = p.group)).map (·.1)
  | .ofNat pid => if (h.process? pid).isSome then [pid] else []
  | .negSucc n => (h.processes.filter (·.2.group = n + 1)).map (·.1)

/-- Sends a signal; without one it only asks whether there is a target. -/
def kill (h : Host) (sender : Nat) (target : Int) (s : Option Signal) : Except Errno Host :=
  match h.targets sender target with
  | [] => .error .noProcess
  | pids =>
    match s with
    | none => .ok h
    | some s => .ok (pids.foldl (fun h pid => h.deliver pid s) h)

end Host

end LoginSession

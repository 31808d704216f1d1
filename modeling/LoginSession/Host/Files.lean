import LoginSession.Fault.System
import LoginSession.Host.Octets
import LoginSession.Text.Cut

namespace LoginSession.Host

abbrev Path := List Octets

/-- Programs are part of the tree under the name of what they do. A pipe is in no directory, but may
be met under the name of a descriptor. -/
inductive Node where
  | directory
  | file (content : List UInt8)
  | program (name : String)
  | null
  | zero
  | full
  | terminal
  | pipe
  | link (target : Path)
  deriving DecidableEq, Repr

structure Files where
  nodes : List (Path × Node) := []
  changes : List (Path × Nat) := []

namespace Files

def node? (f : Files) (path : Path) : Option Node :=
  if path = [] then some .directory else f.nodes.lookup path

def put (f : Files) (path : Path) (node : Node) : Files :=
  { f with nodes := (path, node) :: f.nodes.filter (·.1 ≠ path) }

def touch (f : Files) (path : Path) (time : Nat) : Files :=
  { f with changes := (path, time) :: f.changes.filter (·.1 ≠ path) }

def names (f : Files) (directory : Path) : List Octets :=
  f.nodes.filterMap fun (path, _) =>
    match path.getLast? with
    | some name => if path.dropLast = directory then some name else none
    | none => none

def components (name : Octets) : List Octets := (Text.pieces '/' name).filter (· ≠ [])

def isAbsolute (name : Octets) : Bool := name.head? = some '/'

def endsInSlash (name : Octets) : Bool := name.getLast? = some '/'

def maxName : Nat := 255

def maxPath : Nat := 4096

/-- Where a path leads. A link leads straight to what is no link. -/
def follow (f : Files) (path : Path) : Path :=
  match f.node? path with
  | some (.link target) => target
  | _ => path

/-- Follows components down from a directory. The last one may be missing; all before it must be
directories. -/
def walk (f : Files) (directory : Path) : List Octets → Except Errno (Path × Option Node)
  | [] => .ok (directory, f.node? directory)
  | part :: rest =>
    if part = ['.'] then walk f directory rest
    else if part = ['.', '.'] then walk f directory.dropLast rest
    else if maxName < part.length then .error .nameTooLong
    else
      let path := f.follow (directory ++ [part])
      match f.node? path, rest with
      | some .directory, _ => walk f path rest
      | node, [] => .ok (path, node)
      | none, _ :: _ => .error .noEntry
      | some _, _ :: _ => .error .notDirectory

def resolve (f : Files) (cwd : Path) (name : Octets) : Except Errno (Path × Option Node) :=
  if name = [] then .error .noEntry
  else if maxPath ≤ name.length then .error .nameTooLong
  else
    match walk f (if isAbsolute name then [] else cwd) (components name) with
    | .error e => .error e
    | .ok (path, node) =>
      match node with
      | some .directory => .ok (path, node)
      | none => if endsInSlash name then .error .noEntry else .ok (path, node)
      | some _ => if endsInSlash name then .error .notDirectory else .ok (path, node)

/-- Makes a directory and all above it that are missing. Those made before a fault stay. -/
def makeDirectories (f : Files) (directory : Path) : List Octets → Files × Option Errno
  | [] => (f, none)
  | part :: rest =>
    if part = ['.'] then makeDirectories f directory rest
    else if part = ['.', '.'] then makeDirectories f directory.dropLast rest
    else if maxName < part.length then (f, some .nameTooLong)
    else
      let path := f.follow (directory ++ [part])
      match f.node? path, rest with
      | some .directory, _ => makeDirectories f path rest
      | some _, [] => (f, some .fileExists)
      | some _, _ :: _ => (f, some .notDirectory)
      | none, _ => makeDirectories (f.put path .directory) path rest

/-- A name that ends in a slash leads to no file, although all before the slash may be there. -/
def namesMissingDirectory (f : Files) (cwd : Path) (name : Octets) : Bool :=
  endsInSlash name &&
    match walk f (if isAbsolute name then [] else cwd) (components name) with
    | .ok (_, none) => true
    | _ => false

def resolveNew (f : Files) (cwd : Path) (name : Octets) : Except Errno (Path × Option Node) :=
  if f.namesMissingDirectory cwd name then .error .isDirectory else f.resolve cwd name

def isLink (f : Files) (cwd : Path) (name : Octets) : Bool :=
  let parts := components name
  match endsInSlash name, parts.getLast?,
      walk f (if isAbsolute name then [] else cwd) parts.dropLast with
  | false, some last, .ok (directory, some .directory) =>
    match f.node? (directory ++ [last]) with
    | some (.link _) => true
    | _ => false
  | _, _, _ => false

def create (f : Files) (cwd : Path) (name : Octets) : Except Errno (Path × Files) :=
  match f.resolveNew cwd name with
  | .error e => .error e
  | .ok (path, node) =>
    match node with
    | some .directory => .error .isDirectory
    | some (.file _) | none => .ok (path, f.put path (.file []))
    | some _ => .ok (path, f)

def content? (f : Files) (path : Path) : Option (List UInt8) :=
  match f.node? path with
  | some (.file content) => some content
  | some .null => some []
  | _ => none

structure View where
  node? : Octets → Option Node
  place? : Octets → Option Path
  isLink : Octets → Bool
  changed : Path → Nat

def tick : Nat := 4000

def viewFrom (f : Files) (cwd : Path) : View where
  node? name := match f.resolve cwd name with
    | .ok (_, node) => node
    | .error _ => none
  place? name := match f.resolve cwd name with
    | .ok (path, some _) => some path
    | _ => none
  isLink := f.isLink cwd
  changed path := ((f.changes.lookup path).map (· / tick + 1)).getD 0

end Files

end LoginSession.Host

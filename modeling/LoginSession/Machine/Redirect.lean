import LoginSession.Host.Loading
import LoginSession.Shell.Names

namespace LoginSession.Shell

open Host (Octets Descriptors Handle Access)

/-- A descriptor to duplicate is named by a single digit; a dash closes instead. -/
def expandTarget : Redirect → Expanding Target
  | .pending descriptor _ => return .document descriptor []
  | .mk descriptor kind target => do
    match kind with
    | .document =>
      try return .document descriptor (← expandQuoted target)
      catch
        | .fault text => return .faulty text
        | other => throw other
    | .duplicate =>
      match ← expandText target with
      | ['-'] => return .close descriptor
      | [c] =>
        if c.isDigit then return .copy descriptor (c.toNat - '0'.toNat)
        else throw (.wrongScript "Bad fd number".toList)
      | _ => throw (.wrongScript "Bad fd number".toList)
    | kind => return .file descriptor kind (← expandText target)

structure Redirected where
  host : Host
  process : Host.Process
  saved : Saved := []

def Redirected.set (r : Redirected) (n : Nat) (handle : Option Handle) : Redirected :=
  let (descriptors, kept) := r.process.descriptors.keep n
  { r with
    process.descriptors := descriptors.change n handle
    saved := (n, kept) :: r.saved }

def openFault (creating : Bool) (name : Octets) (e : Errno) : Octets :=
  let reason :=
    if e = .noEntry ∨ e = .notDirectory then
      if creating then "Directory nonexistent" else "No such file"
    else e.text
  (if creating then "cannot create " else "cannot open ").toList ++ name ++ ": ".toList ++
    reason.toList

def isProtected (h : Host) (p : Host.Process) (name : Octets) : Bool :=
  match (h.viewOf p).node? name with
  | some (.file _) | some (.program _) => true
  | _ => false

def redirectOne (noClobber : Bool) (r : Redirected) (t : Target) : Except Octets Redirected :=
  match t with
  | .faulty text => .error text
  | .document n text =>
    let (host, pipe) := r.host.makePipe false
    let host := host.setPipe pipe { content := Octets.toBytes text }
    .ok ({ r with host }.set n (some (.reader pipe)))
  | .close n => .ok (r.set n none)
  | .copy n source =>
    if n = source then .ok r
    else
      match r.process.descriptors.get? source with
      | some handle => .ok (r.set n (some handle))
      | none => .error (Octets.ofNat source ++ ": Bad file descriptor".toList)
  | .file n kind name =>
    let access : Access := match kind with
      | .input => .read
      | .append => .append
      | .inputOutput => .readWrite
      | _ => .write
    if noClobber && kind = .output && isProtected r.host r.process name then
      .error (openFault true name .fileExists)
    else
      match r.host.openFile r.process name access with
      | .ok (host, handle) => .ok ({ r with host }.set n (some handle))
      | .error e => .error (openFault (access ≠ .read) name e)

/-- Applies redirections from left to right. What the first ones did stays done when a later one
fails; `saved` then still tells how to undo it. -/
def redirectAll (noClobber : Bool) (r : Redirected) : List Target → Redirected × Option Octets
  | [] => (r, none)
  | t :: rest =>
    match redirectOne noClobber r t with
    | .ok r => redirectAll noClobber r rest
    | .error message => (r, some message)

def restoreAll (d : Descriptors) (saved : Saved) : Descriptors :=
  saved.foldl (fun d (n, kept) => d.restore n kept) d

def confirmAll (d : Descriptors) (saved : Saved) : Descriptors :=
  saved.foldl (fun d (_, kept) => kept.elim d d.close) d

end LoginSession.Shell

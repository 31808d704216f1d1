import LoginSession.Host.State
import LoginSession.Shell.Invocation
import LoginSession.Utility.Catalogue

namespace LoginSession.Host

/-- A single argument with its terminator may not be longer, nor all arguments together. -/
def maxArgument : Nat := 131072

def maxArguments : Nat := 2097152

def defaultSearchPath : Octets := "/bin:/usr/bin".toList

namespace Files

def programAt (f : Files) (cwd : Path) (name : Octets) : Except Errno String := do
  match (← f.resolve cwd name).2 with
  | some (.program program) => return program
  | some _ => .error .accessDenied
  | none => .error .noEntry

/-- A refusal in one directory is remembered while the others are searched. -/
def searchDirectories (f : Files) (cwd : Path) (name : Octets) (refused : Bool) :
    List Octets → Except Errno String
  | [] => .error (if refused then .accessDenied else .noEntry)
  | directory :: rest =>
    let spelled := if directory.isEmpty then name else directory ++ '/' :: name
    match f.programAt cwd spelled with
    | .ok program => .ok program
    | .error e =>
      if e = .noEntry ∨ e = .notDirectory then searchDirectories f cwd name refused rest
      else if e = .accessDenied then searchDirectories f cwd name true rest
      else .error e

def findProgram (f : Files) (cwd : Path) (searchPath : Option Octets) (name : Octets) :
    Except Errno String :=
  if name.isEmpty then .error .noEntry
  else if name.contains '/' then f.programAt cwd name
  else if maxName < name.length then .error .nameTooLong
  else
    f.searchDirectories cwd name false (Text.pieces ':' (searchPath.getD defaultSearchPath))

end Files

def isTooLong (words : List Octets) : Bool :=
  words.any (fun w => maxArgument ≤ w.length) ||
    maxArguments < words.foldl (fun n w => n + w.length + 9) 0

def complaint (text : Octets) (status : Nat) : Image :=
  .utility { name := "sh".toList, tasks := [Utility.Program.sayLine text, .exit status] }

def loadShell (h : Host) (pid : Nat) (p : Process) (environment : Environment) (ownName : Octets)
    (arguments : List Octets) : Image :=
  let circumstances : Shell.Circumstances :=
    ⟨h.files, p.cwd, pid, p.parent, environment, p.ignored⟩
  match Shell.begin circumstances ownName arguments with
  | .error fault => complaint (ownName ++ ": 0: ".toList ++ fault) 2
  | .ok state => .shell state

def imageOf (h : Host) (pid : Nat) (p : Process) (program : String) (environment : Environment)
    (name : Octets) (arguments : List Octets) : Image :=
  if program = "sh" then h.loadShell pid p environment name arguments
  else .utility (Utility.Catalogue.plan program ⟨name, h.viewOf p, environment, arguments⟩)

def load (h : Host) (pid : Nat) (environment : Environment) (searchPath : Option Octets)
    (words : List Octets) : Except Errno Host := do
  match h.process? pid, words with
  | some p, name :: arguments =>
    let program ← h.files.findProgram p.cwd searchPath name
    if isTooLong words then .error .argumentsTooLong
    else
      let p :=
        { p with environment, descriptors := p.descriptors.forProgram, caught := [], pending := [] }
      let p := { p with image := h.imageOf pid p program environment name arguments }
      return h.update pid fun _ => p
  | _, _ => .error .noEntry

def namesOf (path : List String) : Path := path.map String.toList

def withPrograms (f : Files) : Files :=
  (("sh", "sh") :: ("dash", "sh") :: Utility.Catalogue.names.map fun name => (name, name)).foldl
    (fun f (name, program) => f.put (namesOf ["usr", "bin", name]) (.program program)) f

def directories : List (List String) :=
  [["boot"], ["dev"], ["etc"], ["home"], ["media"], ["mnt"], ["opt"], ["proc"], ["root"], ["run"],
   ["srv"], ["sys"], ["tmp"], ["usr"], ["var"], ["dev", "fd"], ["dev", "shm"], ["usr", "bin"],
   ["usr", "games"], ["usr", "include"], ["usr", "lib"], ["usr", "libexec"], ["usr", "local"],
   ["usr", "sbin"], ["usr", "share"], ["usr", "src"], ["usr", "local", "bin"],
   ["usr", "local", "sbin"], ["var", "log"], ["var", "tmp"]]

def devices : List (String × Node) :=
  [("null", .null), ("zero", .zero), ("full", .full), ("tty", .terminal), ("random", .zero),
   ("urandom", .zero), ("stdin", .pipe), ("stdout", .pipe), ("stderr", .pipe)]

def users : List (String × String) :=
  [("root", "0:0:root:/root:/bin/bash"), ("daemon", "1:1:daemon:/usr/sbin:/usr/sbin/nologin"),
   ("bin", "2:2:bin:/bin:/usr/sbin/nologin"), ("sys", "3:3:sys:/dev:/usr/sbin/nologin"),
   ("sync", "4:65534:sync:/bin:/bin/sync"), ("games", "5:60:games:/usr/games:/usr/sbin/nologin"),
   ("man", "6:12:man:/var/cache/man:/usr/sbin/nologin"),
   ("lp", "7:7:lp:/var/spool/lpd:/usr/sbin/nologin"),
   ("mail", "8:8:mail:/var/mail:/usr/sbin/nologin"),
   ("news", "9:9:news:/var/spool/news:/usr/sbin/nologin"),
   ("uucp", "10:10:uucp:/var/spool/uucp:/usr/sbin/nologin"),
   ("proxy", "13:13:proxy:/bin:/usr/sbin/nologin"),
   ("www-data", "33:33:www-data:/var/www:/usr/sbin/nologin"),
   ("backup", "34:34:backup:/var/backups:/usr/sbin/nologin"),
   ("list", "38:38:Mailing List Manager:/var/list:/usr/sbin/nologin"),
   ("irc", "39:39:ircd:/run/ircd:/usr/sbin/nologin"),
   ("_apt", "42:65534::/nonexistent:/usr/sbin/nologin"),
   ("nobody", "65534:65534:nobody:/nonexistent:/usr/sbin/nologin")]

def userList : Octets :=
  users.flatMap fun (name, rest) => name.toList ++ ":x:".toList ++ rest.toList ++ ['\n']

def standardFiles : Files :=
  let f : Files := directories.foldl (fun f path => f.put (namesOf path) .directory) {}
  let f := devices.foldl (fun f (name, node) => f.put (namesOf ["dev", name]) node) f
  let f := [("bin", "bin"), ("sbin", "sbin"), ("lib", "lib")].foldl
    (fun f (name, target) => f.put (namesOf [name]) (.link (namesOf ["usr", target]))) f
  let f := f.put (namesOf ["etc", "passwd"]) (.file (Octets.toBytes userList))
  withPrograms f

def standardEnvironment : Environment :=
  [("PATH", "/usr/local/sbin:/usr/local/bin:/usr/sbin:/usr/bin:/sbin:/bin"), ("HOME", "/root"),
   ("LC_ALL", "C")].map fun (name, value) => (name.toList, value.toList)

end LoginSession.Host

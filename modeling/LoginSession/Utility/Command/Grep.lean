import LoginSession.Text.Cut
import LoginSession.Utility.Program
import LoginSession.Utility.RegexReader

namespace LoginSession.Utility.Grep

open Host (Octets Node)
open Program (Circumstances)

def failure : Nat := 2

def options : Options.Table where
  letters :=
    "ABCDdefm".toList.map (fun c => (c, .something)) ++
      "0123456789EFGHILPRTUZabchilnoqrsuvwxyz".toList.map fun c => (c, .nothing)
  names :=
    [("basic-regexp", 'G', .nothing), ("extended-regexp", 'E', .nothing),
     ("fixed-regexp", 'F', .nothing), ("fixed-strings", 'F', .nothing),
     ("perl-regexp", 'P', .nothing), ("after-context", 'A', .something),
     ("before-context", 'B', .something), ("binary-files", 'k', .something),
     ("line-buffered", 'J', .nothing), ("byte-offset", 'b', .nothing), ("context", 'C', .something),
     ("color", 'K', .perhaps), ("colour", 'K', .perhaps), ("count", 'c', .nothing),
     ("devices", 'D', .something), ("directories", 'd', .something), ("exclude", 'X', .something),
     ("exclude-from", 'X', .something), ("exclude-dir", 'X', .something), ("file", 'f', .something),
     ("files-with-matches", 'l', .nothing), ("files-without-match", 'L', .nothing),
     ("group-separator", 'S', .something), ("include", 'X', .something),
     ("ignore-case", 'i', .nothing), ("no-ignore-case", 'j', .nothing),
     ("initial-tab", 'T', .nothing), ("label", 'N', .something), ("line-number", 'n', .nothing),
     ("line-regexp", 'x', .nothing), ("max-count", 'm', .something),
     ("no-filename", 'h', .nothing), ("no-group-separator", 'g', .nothing),
     ("no-messages", 's', .nothing), ("null", 'Z', .nothing), ("null-data", 'z', .nothing),
     ("only-matching", 'o', .nothing), ("quiet", 'q', .nothing), ("recursive", 'r', .nothing),
     ("dereference-recursive", 'R', .nothing), ("regexp", 'e', .something),
     ("invert-match", 'v', .nothing), ("silent", 'q', .nothing), ("text", 'a', .nothing),
     ("binary", 'U', .nothing), ("unix-byte-offsets", 'u', .nothing),
     ("with-filename", 'H', .nothing), ("word-regexp", 'w', .nothing)]

inductive Notation where
  | basic
  | extended
  | fixed
  | perl
  deriving DecidableEq

inductive Source where
  | word (text : Octets)
  | file (name : Octets)

structure Settings where
  request : Search.Request := {}
  written : Option Notation := none
  sources : List Source := []
  named : Option Bool := none
  context : Option Nat := none
  digits : Octets × Nat := ([], 0)
  recursive : Bool := false
  warnings : List Octets := []

inductive Fault where
  | usage (text : Octets)
  | plain (text : Octets)
  | action (text : Octets)

def integer? (text : Octets) : Option Int :=
  let text := text.dropWhile Floating.isSpace
  let (negative, digits) := match text with
    | '-' :: rest => (true, rest)
    | '+' :: rest => (false, rest)
    | rest => (false, rest)
  if Sequence.isDigits digits then
    let n : Int := Directive.natOf digits
    some (if negative then -n else n)
  else none

def contextLength (text : Octets) : Except Fault Nat :=
  match integer? text with
  | some (.ofNat n) => .ok n
  | _ => .error (.plain (text ++ ": invalid context length argument".toList))

def write (s : Settings) (n : Notation) : Except Fault Settings :=
  if s.written.any (· ≠ n) then .error (.plain "conflicting matchers specified".toList)
  else .ok { s with written := some n }

def directories (s : Settings) (text : Octets) : Except Fault Settings :=
  if text = "read".toList then .ok { s with recursive := false }
  else if text = "skip".toList then .ok { s with request.skipsDirectories := true }
  else if text = "recurse".toList then .ok { s with recursive := true }
  else .error (.action text)

def binaryFiles (s : Settings) (text : Octets) : Except Fault Settings :=
  let kinds : List (String × Search.Binary) :=
    [("binary", .announced), ("text", .shown), ("without-match", .ignored)]
  match kinds.lookup (String.ofList text) with
  | some kind => .ok { s with request.binary := kind }
  | none => .error (.plain "unknown binary-files type".toList)

def addDigit (s : Settings) (g : Options.Given) : Settings :=
  let (digits, after) := s.digits
  let digits := if after = g.after then digits ++ [g.letter] else [g.letter]
  { s with digits := (digits, g.after), context := some (Directive.natOf digits) }

def applySimple (r : Search.Request) (letter : Char) : Search.Request :=
  match letter with
  | 'I' => { r with binary := .ignored }
  | 'L' => { r with names := .withoutMatches }
  | 'T' => { r with aligned := true }
  | 'Z' => { r with nulAfterName := true }
  | 'a' => { r with binary := .shown }
  | 'b' => { r with offsets := true }
  | 'c' => { r with counts := true }
  | 'g' => { r with separator := none }
  | 'i' | 'y' => { r with fold := true }
  | 'j' => { r with fold := false }
  | 'l' => { r with names := .withMatches }
  | 'n' => { r with numbered := true }
  | 'o' => { r with onlyMatches := true }
  | 'q' => { r with quiet := true }
  | 's' => { r with silent := true }
  | 'v' => { r with invert := true }
  | 'w' => { r with wholeWord := true }
  | 'x' => { r with wholeLine := true }
  | 'z' => { r with lineEnd := '\x00' }
  | _ => r

def apply (view : Host.Files.View) (s : Settings) (g : Options.Given) : Except Fault Settings := do
  match g.letter with
  | 'A' => return { s with request.after := some (← contextLength g.text) }
  | 'B' => return { s with request.before := some (← contextLength g.text) }
  | 'C' => return { s with context := some (← contextLength g.text) }
  | 'E' => write s .extended
  | 'F' => write s .fixed
  | 'G' => write s .basic
  | 'P' => write s .perl
  | 'H' => return { s with named := some true }
  | 'h' => return { s with named := some false }
  | 'N' => return { s with request.label := g.text }
  | 'S' => return { s with request.separator := some g.text }
  | 'd' => directories s g.text
  | 'k' => binaryFiles s g.text
  | 'r' | 'R' => return { s with recursive := true }
  | 'u' =>
    let text := "warning: --unix-byte-offsets (-u) is obsolete".toList
    return { s with warnings := s.warnings ++ [text] }
  | 'e' => return { s with sources := s.sources ++ [.word g.text] }
  | 'f' =>
    let s := { s with sources := s.sources ++ [.file g.text] }
    if g.text = ['-'] then return s
    match view.node? g.text with
    | none => throw (.plain (g.text ++ ": ".toList ++ Errno.noEntry.text.toList))
    | some .directory => throw (.plain (g.text ++ ": ".toList ++ Errno.isDirectory.text.toList))
    | some _ => return s
  | 'm' =>
    match integer? g.text with
    | some (.ofNat n) => return { s with request.limit := some n }
    | some _ => return { s with request.limit := none }
    | none => throw (.plain "invalid max count".toList)
  | c => return if c.isDigit then addDigit s g else { s with request := applySimple s.request c }

structure Pattern where
  text : Octets
  place : Option (Octets × Nat) := none

def patternsOf (place : Option Octets) (text : Octets) : List Pattern :=
  let lines := Text.pieces '\n' text
  let lines := if place.isSome && lines.getLast? = some [] then lines.dropLast else lines
  lines.mapIdx fun i line => { text := line, place := place.map fun name => (name, i + 1) }

def fileText (view : Host.Files.View) (standard : Octets) (name : Octets) : Octets :=
  if name = ['-'] then standard
  else
    match view.node? name with
    | some (.file content) => Octets.ofBytes content
    | _ => []

def patterns (view : Host.Files.View) (standard : Octets) (sources : List Source) :
    List Pattern :=
  sources.flatMap fun source =>
    match source with
    | .word text => patternsOf none text
    | .file name => patternsOf (some name) (fileText view standard name)

/-- What differs from the extended notation: classes after a backslash, and operators that would
rather take less. -/
def fromPerl : Octets → Octets
  | [] => []
  | '\\' :: 'd' :: rest => "[0-9]".toList ++ fromPerl rest
  | '\\' :: 'D' :: rest => "[^0-9]".toList ++ fromPerl rest
  | '\\' :: 't' :: rest => '\t' :: fromPerl rest
  | '\\' :: c :: rest => '\\' :: c :: fromPerl rest
  | c :: '?' :: rest =>
    if c = '*' || c = '+' then c :: fromPerl rest else c :: '?' :: fromPerl rest
  | c :: rest => c :: fromPerl rest

def readPattern (n : Notation) (text : Octets) : Except Octets RegexReader.Read :=
  match n with
  | .basic => RegexReader.read false text
  | .extended => RegexReader.read true text
  | .fixed => .ok { regex := Regex.literal text }
  | .perl => RegexReader.read true (fromPerl text)

def placed (p : Pattern) (fault : Octets) : Octets :=
  match p.place with
  | some (name, line) => name ++ ':' :: Octets.ofNat line ++ ": ".toList ++ fault
  | none => fault

def readAll (n : Notation) (patterns : List Pattern) :
    Except (List Octets) (List RegexReader.Read) :=
  let read := patterns.map fun p => (readPattern n p.text).mapError (placed p)
  let faults := read.filterMap fun found =>
    match found with
    | .error fault => some fault
    | .ok _ => none
  if faults.isEmpty then
    .ok (read.filterMap fun found =>
      match found with
      | .ok r => some r
      | .error _ => none)
  else .error faults

def warningsOf : List RegexReader.Read → List Octets × Bool
  | [] => ([], false)
  | r :: rest =>
    if r.isConfusing then (r.warnings ++ [RegexReader.confusedClass], true)
    else
      let (warnings, isConfusing) := warningsOf rest
      (r.warnings ++ warnings, isConfusing)

def usage : Octets := "Usage: grep [OPTION]... PATTERNS [FILE]...".toList

def usageLines : List Task := [Program.sayLine usage, Program.sayLine (Program.hint "grep".toList)]

def failTasks (name : Octets) : Fault → List Task
  | .usage text => Program.say name text :: usageLines ++ [.exit failure]
  | .plain text => Program.fail name text failure
  | .action text =>
    let kinds := ["read", "recurse", "skip"].flatMap fun kind =>
      "\n  - '".toList ++ kind.toList ++ ['\'']
    Program.say name ("invalid argument ".toList ++ Quoting.phrase text ++
      " for '--directories'\nValid arguments are:".toList ++ kinds) :: usageLines ++ [.exit 1]

/-- No patterns match nothing, so that all lines are among those that one empty pattern does not
exclude. -/
def completed (r : Search.Request) (patterns : List Pattern) : Search.Request × List Pattern :=
  if patterns.isEmpty then
    ({ r with invert := !r.invert, wholeLine := false, wholeWord := false }, [{ text := [] }])
  else (r, patterns)

def isVain (r : Search.Request) (patterns : List Pattern) : Bool :=
  let excludesAll :=
    r.invert && !r.wholeLine && !r.wholeWord && patterns.all fun p => p.text.isEmpty
  (r.limit = some 0 || excludesAll) && r.names ≠ .withoutMatches

def search (c : Circumstances) (s : Settings) (operands : List Octets) (standard : Octets) :
    List Task :=
  let (r, patterns) := completed s.request (patterns c.view standard s.sources)
  if isVain r patterns then [.exit 1]
  else
    match readAll (s.written.getD .basic) patterns with
    | .error faults => faults.map (Program.say c.name) ++ [.exit failure]
    | .ok read =>
      let (warnings, isConfusing) := warningsOf read
      let isTree := match operands with
        | [name] => c.view.node? name = some .directory
        | _ => true
      let several := if s.recursive then isTree else decide (1 < operands.length)
      let request := { r with
        patterns := read.map (·.regex)
        named := s.named.getD several
        names := if r.quiet then .none else r.names
        unseen := c.view.node? "/dev/stdout".toList = some .null
        before := r.before.or s.context
        after := r.after.or s.context
        recursive := s.recursive }
      let inputs :=
        if s.recursive && operands.isEmpty then [.tree []] else Program.inputsOf operands
      warnings.map (Program.say c.name) ++
        if isConfusing then [.exit failure]
        else [.pump { filter := .searching { request }, inputs }]

def tasks (c : Circumstances) (s : Settings) (operands : List Octets) : List Task :=
  let readsStandard := s.sources.any fun source =>
    match source with
    | .file ['-'] => true
    | _ => false
  if readsStandard then [.gather [] fun bytes => search c s operands (Octets.ofBytes bytes)]
  else search c s operands []

def plan (c : Circumstances) : Program :=
  let read := Options.read options true c.arguments
  let tasks := match read.given.foldlM (apply c.view) {} with
    | .error fault => failTasks c.name fault
    | .ok s =>
      s.warnings.map (Program.say c.name) ++
        match read.fault, s.sources, read.operands with
        | some fault, _, _ => failTasks c.name (.usage fault)
        | none, [], [] => usageLines ++ [.exit failure]
        | none, [], pattern :: files => tasks c { s with sources := [.word pattern] } files
        | none, _, files => tasks c s files
  { name := c.name, writeStatus := failure, tasks }

end LoginSession.Utility.Grep

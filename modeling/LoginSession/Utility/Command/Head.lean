import LoginSession.Utility.Program

namespace LoginSession.Utility.Head

open Host (Octets)
open Program (Circumstances)

def options : Options.Table where
  letters := [('c', .something), ('n', .something)] ++
    "qvz0123456789".toList.map fun c => (c, .nothing)
  names :=
    [("bytes", 'c', .something), ("lines", 'n', .something), ("quiet", 'q', .nothing),
     ("silent", 'q', .nothing), ("verbose", 'v', .nothing), ("zero-terminated", 'z', .nothing)]

inductive Titles where
  | never
  | always
  | ifSeveral
  deriving DecidableEq

structure Settings where
  request : Heading.Request := {}
  titles : Titles := .ifSeveral

def powers : List (Char × Nat) :=
  [('k', 1), ('K', 1), ('m', 2), ('M', 2), ('G', 3), ('T', 4), ('P', 5), ('E', 6), ('Z', 7),
   ('Y', 8), ('R', 9), ('Q', 10)]

def unit? (suffix : Octets) : Option Nat :=
  match suffix with
  | [] => some 1
  | ['b'] => some 512
  | letter :: rest =>
    match powers.lookup letter, rest with
    | some n, [] | some n, ['i', 'B'] => some (Nat.pow 1024 n)
    | some n, ['B'] => some (Nat.pow 1000 n)
    | _, _ => none

def maxCount : Nat := Nat.pow 2 64 - 1

/-- A number with a unit; a unit alone is one of it. The fault follows the words for it. -/
def readCount (text : Octets) : Except Octets Nat :=
  let start := text.dropWhile Floating.isSpace
  let start := if start.head? = some '+' then start.drop 1 else start
  let digits := start.takeWhile Char.isDigit
  let bad (reason : String) : Except Octets Nat := .error (Quoting.phrase text ++ reason.toList)
  let suffix := if digits.isEmpty then text else start.drop digits.length
  match unit? suffix with
  | none => bad ""
  | some unit =>
    if text.isEmpty then bad ""
    else
      let n := (if digits.isEmpty then 1 else Directive.natOf digits) * unit
      if maxCount < n then bad ": Value too large for defined data type" else .ok n

def withCount (s : Settings) (lines fromEnd : Bool) (text : Octets) : Except Octets Settings :=
  match readCount text with
  | .ok count =>
    .ok { s with
      request.count := count, request.lines := lines, request.fromEnd := fromEnd }
  | .error fault =>
    .error (("invalid number of " ++ (if lines then "lines" else "bytes") ++ ": ").toList ++ fault)

inductive Fault where
  | count (text : Octets)
  | usage (text : Octets)

def badLetter (c : Char) : Fault := .usage ("invalid trailing option -- ".toList ++ [c])

def apply (s : Settings) (g : Options.Given) : Except Fault Settings :=
  let counted (lines : Bool) : Except Fault Settings :=
    let found := match g.text with
      | '-' :: text => withCount s lines true text
      | text => withCount s lines false text
    found.mapError .count
  match g.letter with
  | 'c' => counted false
  | 'n' => counted true
  | 'q' => .ok { s with titles := .never }
  | 'v' => .ok { s with titles := .always }
  | 'z' => .ok { s with request.lineEnd := 0 }
  | c => .error (badLetter c)

/-- Letters after a number that stands right behind the dash. The unit is kept beside. -/
def applyOld (s : Settings) (unit : Octets) : Octets → Except Fault (Settings × Octets)
  | [] => .ok (s, unit)
  | c :: rest =>
    match c with
    | 'c' => applyOld { s with request.lines := false } [] rest
    | 'b' | 'k' | 'm' => applyOld { s with request.lines := false } [c] rest
    | 'l' => applyOld { s with request.lines := true } unit rest
    | 'q' => applyOld { s with titles := .never } unit rest
    | 'v' => applyOld { s with titles := .always } unit rest
    | 'z' => applyOld { s with request.lineEnd := 0 } unit rest
    | c => .error (badLetter c)

def readOld (words : List Octets) : Except Fault (Settings × List Octets) :=
  match words with
  | ('-' :: c :: text) :: rest =>
    if !c.isDigit then .ok ({}, words)
    else
      let digits := (c :: text).takeWhile Char.isDigit
      match applyOld {} [] ((c :: text).drop digits.length) with
      | .error fault => .error fault
      | .ok (s, unit) =>
        ((withCount s s.request.lines false (digits ++ unit)).mapError .count).map fun s => (s, rest)
  | words => .ok ({}, words)

def settings (words : List Octets) : Except Fault (Settings × List Octets) := do
  let (s, words) ← readOld words
  let read := Options.read options true words
  let s ← read.given.foldlM apply s
  match read.fault with
  | some fault => throw (.usage fault)
  | none => return (s, read.operands)

def plan (c : Circumstances) : Program :=
  let tasks := match settings c.arguments with
    | .error (.count text) => Program.fail c.name text 1
    | .error (.usage text) => Program.refuse c.name text 1
    | .ok (s, operands) =>
      let named := s.titles = .always || (s.titles = .ifSeveral && 1 < operands.length)
      [.pump {
        filter := .heading { request := s.request, named }
        inputs := Program.inputsOf operands }]
  { name := c.name, tasks }

end LoginSession.Utility.Head

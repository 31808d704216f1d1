import LoginSession.Utility.Regex

namespace LoginSession.Utility

open Host (Octets)

namespace Search

inductive Names where
  | none
  | withMatches
  | withoutMatches
  deriving DecidableEq

/-- What becomes of lines with a zero character in their input. -/
inductive Binary where
  | announced
  | shown
  | ignored
  deriving DecidableEq

structure Request where
  patterns : List Regex := []
  fold : Bool := false
  invert : Bool := false
  wholeLine : Bool := false
  wholeWord : Bool := false
  counts : Bool := false
  quiet : Bool := false
  unseen : Bool := false
  names : Names := .none
  onlyMatches : Bool := false
  numbered : Bool := false
  offsets : Bool := false
  aligned : Bool := false
  named : Bool := false
  nulAfterName : Bool := false
  limit : Option Nat := none
  before : Option Nat := none
  after : Option Nat := none
  separator : Option Octets := some ['-', '-']
  lineEnd : Char := '\n'
  binary : Binary := .announced
  label : Octets := "(standard input)".toList
  silent : Bool := false
  recursive : Bool := false
  skipsDirectories : Bool := false

structure Line where
  number : Nat
  offset : Nat
  text : Octets

structure State where
  request : Request
  name : Octets := []
  width : Nat := 0
  number : Nat := 0
  offset : Nat := 0
  selected : Nat := 0
  partialLine : List UInt8 := []
  isBinary : Bool := false
  isHidden : Bool := false
  isOver : Bool := false
  pending : Nat := 0
  earlier : List Line := []
  lastPrinted : Option Nat := none
  read : Nat := 0
  matchEnd : Nat := 0
  hasPrinted : Bool := false
  hasSucceeded : Bool := false

def Request.foldChar (r : Request) (c : Char) : Char := if r.fold then c.toLower else c

def matchAt? (r : Request) (p : Place) : Option Nat :=
  let places := r.patterns.flatMap fun pattern => pattern.ends r.foldChar p
  let lengths (places : List Place) : Option Nat := (places.map fun q => p.left - q.left).max?
  if r.wholeLine then lengths (if p.before.isNone then places.filter (·.rest.isEmpty) else [])
  else if r.wholeWord then
    let isFree (q : Place) : Bool :=
      !(p.before.any Regex.isWordChar) && !(q.rest.head?.any Regex.isWordChar)
    match lengths places, lengths (places.filter isFree) with
    | some (_ + 1), some 0 => none
    | _, found => found
  else lengths places

def firstMatch? (r : Request) (before : Option Char) (left : Nat) : Octets → Option (Nat × Nat)
  | [] => (matchAt? r ⟨before, [], 0, []⟩).map fun length => (0, length)
  | c :: rest =>
    match matchAt? r ⟨before, c :: rest, left, []⟩ with
    | some length => some (0, length)
    | none => (firstMatch? r (some c) (left - 1) rest).map fun (skipped, length) =>
        (skipped + 1, length)

def holds (r : Request) (line : Octets) : Bool := (firstMatch? r none line.length line).isSome

/-- The parts of a line that match, from left to right, each with its position. Empty ones do not
count. -/
def spans (r : Request) : Nat → Nat → Option Char → Octets → List (Nat × Octets)
  | 0, _, _, _ => []
  | fuel + 1, position, before, text =>
    match firstMatch? r before text.length text with
    | none => []
    | some (skipped, length) =>
      let found := (text.drop skipped).take length
      let taken := skipped + max 1 length
      let last := (text.take taken).getLast?
      let others := spans r fuel (position + taken) (last.or before) (text.drop taken)
      if text.length < taken then []
      else if length = 0 then others
      else (position + skipped, found) :: others

def nameText (r : Request) (name : Octets) (mark : Char) : Octets :=
  name ++ [if r.nulAfterName then '\x00' else mark]

def numberText (width n : Nat) : Octets :=
  let digits := Octets.ofNat n
  List.replicate (width - digits.length) ' ' ++ digits

def heading (s : State) (mark : Char) (number offset : Nat) (isEmpty : Bool) : Octets :=
  let r := s.request
  let marked (isWanted : Bool) (n : Nat) : Octets :=
    if isWanted then numberText s.width n ++ [mark] else []
  let text := (if r.named then nameText r s.name mark else []) ++ marked r.numbered number ++
    marked r.offsets offset
  if r.aligned && !text.isEmpty && !isEmpty then text ++ ['\t'] else text

def lineText (s : State) (l : Line) : Octets :=
  let whole (offset : Nat) (text : Octets) : Octets :=
    heading s ':' l.number offset text.isEmpty ++ text ++ [s.request.lineEnd]
  if !s.request.onlyMatches then whole l.offset l.text
  else if s.request.invert then []
  else
    (spans s.request (l.text.length + 1) 0 none l.text).flatMap fun (position, text) =>
      whole (l.offset + position) text

def contextText (s : State) (l : Line) : Octets :=
  if s.request.onlyMatches then []
  else heading s '-' l.number l.offset l.text.isEmpty ++ l.text ++ [s.request.lineEnd]

def Request.showsLines (r : Request) : Bool :=
  !r.counts && !r.quiet && !r.unseen && r.names = .none

def State.isAtLimit (s : State) : Bool := s.request.limit.any (· ≤ s.selected)

/-- Nothing more can come of an input once its limit is reached and its context printed. -/
def State.endIfDone (s : State) : State :=
  if s.isAtLimit && s.pending = 0 then { s with isOver := true } else s

def printContext (s : State) (l : Line) : State × Octets :=
  ({ s with pending := s.pending - 1, lastPrinted := some l.number, hasPrinted := true }.endIfDone,
   contextText s l)

/-- Prints a selected line after the context before it. A separator shows that lines are left out.
-/
def printSelected (s : State) (l : Line) : State × Octets :=
  let r := s.request
  let context := s.earlier.reverse
  let first := (context.head?.getD l).number
  let isApart := s.hasPrinted && s.lastPrinted ≠ some (first - 1)
  let separator := match r.separator with
    | some text =>
      if (r.before.isSome || r.after.isSome) && isApart then text ++ [r.lineEnd] else []
    | none => []
  let text := separator ++ context.flatMap (contextText s) ++ lineText s l
  ({ s with
      earlier := []
      pending := r.after.getD 0
      lastPrinted := some l.number
      hasPrinted := true }.endIfDone, text)

def select (s : State) (l : Line) : State × Octets :=
  let r := s.request
  let s := { s with selected := s.selected + 1, matchEnd := s.offset }
  if r.quiet || r.unseen || r.names ≠ .none then ({ s with isOver := true }, [])
  else if r.counts then (s.endIfDone, [])
  else if s.isBinary then ({ s with isHidden := true, isOver := true }, [])
  else printSelected s l

def step (s : State) (text : Octets) : State × Octets :=
  let l : Line := ⟨s.number + 1, s.offset, text⟩
  let s := { s with number := l.number, offset := s.offset + text.length + 1 }
  if !s.isAtLimit && holds s.request text != s.request.invert then select s l
  else if 0 < s.pending then printContext s l
  else ({ s with earlier := (l :: s.earlier).take (s.request.before.getD 0) }, [])

def widthFor (r : Request) (size : Option Nat) : Nat :=
  if !r.aligned then 0
  else
    match size with
    | some n => (Octets.ofNat (if r.numbered then n + 1 else n)).length
    | none => 20

def start (s : State) (name : Octets) (size : Option Nat) : State :=
  { request := s.request, name, width := widthFor s.request size, hasPrinted := s.hasPrinted,
    hasSucceeded := s.hasSucceeded, isOver := s.request.limit = some 0 }

def surplus (s : State) : Nat :=
  if s.isAtLimit && !s.request.quiet && s.request.names = .none then s.read - s.matchEnd else 0

def feedFrom (s : State) (taken : List Octets) : List UInt8 → State × Octets
  | [] => (s, taken.reverse.flatten)
  | b :: rest =>
    if s.isOver then (s, taken.reverse.flatten)
    else if b = UInt8.ofNat s.request.lineEnd.toNat || (b = 0 && s.isBinary) then
      let (s, output) := step s (Octets.ofBytes s.partialLine.reverse)
      feedFrom { s with partialLine := [] } (output :: taken) rest
    else feedFrom { s with partialLine := b :: s.partialLine } taken rest

/-- A zero character makes the rest of an input binary, in which it ends lines. -/
def feed (s : State) (bytes : List UInt8) : State × Octets :=
  let isText := s.request.binary = .shown || s.request.lineEnd ≠ '\n'
  let isBinary := s.isBinary || (!isText && bytes.contains 0)
  let s := { s with isBinary, read := s.read + bytes.length }
  if isBinary && s.request.binary = .ignored then ({ s with isOver := true, selected := 0 }, [])
  else feedFrom s [] bytes

def finishLine (s : State) : State × Octets :=
  if s.partialLine.isEmpty || s.isOver then (s, [])
  else step { s with partialLine := [] } (Octets.ofBytes s.partialLine.reverse)

def summary (s : State) : Octets :=
  let r := s.request
  if r.quiet || r.unseen then []
  else
    match r.names with
    | .none =>
      if r.counts then
        (if r.named then nameText r s.name ':' else []) ++ Octets.ofNat s.selected ++ ['\n']
      else []
    | .withMatches => if 0 < s.selected then nameText r s.name '\n' else []
    | .withoutMatches => if s.selected = 0 then nameText r s.name '\n' else []

def finish (s : State) : State × Octets × Option Octets :=
  let (s, output) := finishLine s
  ({ s with hasSucceeded := s.hasSucceeded || 0 < s.selected }, output ++ summary s,
    if s.isHidden then some (s.name ++ ": binary file matches".toList) else none)

end Search

end LoginSession.Utility
